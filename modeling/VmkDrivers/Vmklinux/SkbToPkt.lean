/-
  VmkDrivers.Vmklinux.SkbToPkt

  A received socket buffer becomes a packet of the vmkernel (`map_skb_to_pkt` in
  `linux_net.c`).

  The socket buffer has a packet for its head, pages, and a list of further socket buffers
  with packets of their own.  The pages and the packets of the list are appended to the
  first packet, and the structures are freed.  What is done to them is logged; each object
  is to be settled once (`settled_once_iff`).  The list is at fault where an element has no
  head data, whose packet is forgotten, or pages, after which the element itself is.
-/

import Mathlib

namespace VmkDrivers.Vmklinux

/-! ## Objects and events -/

/-- What changes hands: the `i`-th socket buffer (the first is number 0), its packet, and
    its pages. -/
inductive RxObj
  | skb (i : Nat)
  | pkt (i : Nat)
  | page (i j : Nat)
deriving DecidableEq, Repr

inductive RxEvent
  /-- `vmk_PktAppendFrag` of a page of the first socket buffer -/
  | appendFrag (j : Nat)
  /-- `vmk_PktSetPageFrags`: the packet releases the `n` pages. -/
  | setPageFrags (n : Nat)
  /-- `vmk_PktAppend`, which takes the packet over -/
  | append (i : Nat)
  /-- `vmk_PktRelease`, `vmk_PktReleaseIRQ` or `vmk_NetPollQueueCompPkt` -/
  | release (i : Nat)
  | putPage (i j : Nat)
  | freeSkb (i : Nat)
  /-- `vmk_PktSetCompletionData`: the socket buffer goes with the packet. -/
  | completionData
deriving DecidableEq, Repr

def pagesOf (i n : Nat) : List RxObj := (List.range n).map (.page i)

def RxEvent.settles : RxEvent → List RxObj
  | .appendFrag _ => []
  | .setPageFrags n => pagesOf 0 n
  | .append i => [.pkt i]
  | .release i => [.pkt i]
  | .putPage i j => [.page i j]
  | .freeSkb i => [.skb i]
  | .completionData => [.skb 0]

def RxEvent.attaches : RxEvent → Option RxObj
  | .appendFrag j => some (.page 0 j)
  | .append i => some (.pkt i)
  | _ => none

/-- A socket buffer: `skb_headlen` and `nr_frags`. -/
structure RxSkb where
  headLen : Nat
  nrFrags : Nat
deriving DecidableEq, Repr

def RxSkb.objects (i : Nat) (s : RxSkb) : List RxObj := .pkt i :: (pagesOf i s.nrFrags ++ [.skb i])

/-- The objects of a list that begins with number `i`. -/
def listObjects : (i : Nat) → List RxSkb → List RxObj
  | _, [] => []
  | i, s :: ss => s.objects i ++ listObjects (i + 1) ss

/-- The first socket buffer, with what `map_skb_to_pkt` reads of it. -/
structure RxFrame where
  first : RxSkb
  fragList : List RxSkb
  len : Nat
  gsoType : Nat
  gsoSize : Nat
  vlanTag : Option Nat

/-- `vmk_PktAppendFrag`, and `vmk_PktFragsNb` after it. -/
inductive AppendFrag
  | ok
  | coalesced
  | refused
deriving DecidableEq, Repr

structure RxAnswers where
  blocked : Bool
  /-- `NETIF_F_CNA` -/
  cna : Bool
  appendFrag : Nat → AppendFrag
  append : Nat → Bool
  frameLenSet : Bool

/-! ## The functions -/

/-- `kfree_skb` of the `i`-th socket buffer: `skb_release_data` puts the pages if they
    belong to vmklinux, and frees what is left of the list. -/
def kfreeSkb (i : Nat) (s : RxSkb) (owned : Bool) (rest : List RxEvent) : List RxEvent :=
  .release i :: ((if owned then (List.range s.nrFrags).map (.putPage i) else []) ++
    (rest ++ [.freeSkb i]))

def freeList : (i : Nat) → List RxSkb → List RxEvent
  | _, [] => []
  | i, s :: ss => kfreeSkb i s true [] ++ freeList (i + 1) ss

/-- `skb_append_frags_to_pkt`, from page `j` on: `for (i = 0; i < nr_frags; i++)` -/
def skbAppendFragsToPkt (ans : RxAnswers) (n : Nat) : (todo j : Nat) → Bool × List RxEvent
  | 0, _ => (true, [.setPageFrags n])
  | todo + 1, j =>
    match ans.appendFrag j with
    | .refused => (false, [])
    | .coalesced => (false, [.appendFrag j])
    | .ok =>
      let (ok, log) := skbAppendFragsToPkt ans n todo (j + 1)
      (ok, .appendFrag j :: log)

open RxEvent

/-- `skb_append_fraglist_to_pkt`, from element `i` on: `while (frag_skb)` -/
def skbAppendFraglistToPkt (ans : RxAnswers) : (i : Nat) → List RxSkb → Bool × List RxEvent
  | _, [] => (true, [])
  | i, s :: ss =>
    if s.headLen ≠ 0 ∧ ans.append i = false then (false, freeList i (s :: ss))
    else
      let taken := if s.headLen ≠ 0 then [append i] else []
      -- "abort and free the frags": the cleanup starts from the next element
      if s.nrFrags ≠ 0 then (false, taken ++ freeList (i + 1) ss)
      else
        let (ok, log) := skbAppendFraglistToPkt ans (i + 1) ss
        (ok, taken ++ .freeSkb i :: log)

/-- What `skb_gen_pkt_frags` leaves: the status, the owner of the pages
    (`LIN_SKB_FLAGS_FRAGSOWNER_VMKLNX`) and `frag_list`. -/
structure GenPktFrags where
  ok : Bool
  owned : Bool
  fragList : List RxSkb
  log : List RxEvent

def skbGenPktFrags (ans : RxAnswers) (f : RxFrame) : GenPktFrags :=
  let n := f.first.nrFrags
  let (ok, log) := if n ≠ 0 then skbAppendFragsToPkt ans n n 0 else (true, [])
  if !ok then ⟨false, true, f.fragList, log⟩
  else
    let (ok, more) := skbAppendFraglistToPkt ans 1 f.fragList
    ⟨ok, false, [], log ++ more⟩

/-- `SKB_GSO_TCPV4` with a size is the only type on this path. -/
def RxFrame.gsoOk (f : RxFrame) : Bool := f.gsoType = 0 || (f.gsoType = 1 && f.gsoSize ≠ 0)

/-- `VLAN_MAX_VALID_VID` -/
def RxFrame.vlanOk (f : RxFrame) : Bool := (f.vlanTag.map fun tag => decide (tag % 4096 ≤ 4094)).getD true

/-- `drop:` -/
def dropSkb (f : RxFrame) (owned : Bool) (fragList : List RxSkb) : List RxEvent :=
  kfreeSkb 0 f.first owned (freeList 1 fragList)

/-- `map_skb_to_pkt`: `true` is `NET_RX_SUCCESS`, and the packet goes to the vmkernel. -/
def mapSkbToPkt (ans : RxAnswers) (f : RxFrame) : Bool × List RxEvent :=
  if ans.blocked || f.len = 0 then (false, dropSkb f true f.fragList)
  else
    let gen := skbGenPktFrags ans f
    if !gen.ok || !ans.frameLenSet || !f.gsoOk || !f.vlanOk then
      (false, gen.log ++ dropSkb f gen.owned gen.fragList)
    else (true, gen.log ++ [if ans.cna then .completionData else .freeSkb 0])

/-! ## The claim -/

def settled (log : List RxEvent) : List RxObj := log.flatMap settles

/-- All that came with the socket buffer is settled once: what is left is the first packet,
    which on success goes to the vmkernel with all data attached in order. -/
structure SettledOnce (ans : RxAnswers) (f : RxFrame) : Prop where
  once : (settled (mapSkbToPkt ans f).2 ++ if (mapSkbToPkt ans f).1 then [RxObj.pkt 0] else []).Perm
    (listObjects 0 (f.first :: f.fragList))
  attached : (mapSkbToPkt ans f).1 = true →
    (mapSkbToPkt ans f).2.filterMap attaches =
      pagesOf 0 f.first.nrFrags ++ (List.range' 1 f.fragList.length).map .pkt

/-- Up to the first element whose packet is refused, all have head data and no pages. -/
def ListClean (ans : RxAnswers) : (i : Nat) → List RxSkb → Prop
  | _, [] => True
  | i, s :: ss =>
    s.headLen ≠ 0 ∧ (ans.append i = true → s.nrFrags = 0 ∧ ListClean ans (i + 1) ss)

/-- The list is reached: the frame is not dropped before, and its pages are appended. -/
def ListReached (ans : RxAnswers) (f : RxFrame) : Prop :=
  ans.blocked = false ∧ f.len ≠ 0 ∧ ∀ j < f.first.nrFrags, ans.appendFrag j = .ok

/-! ## Freeing a list -/

@[simp] theorem settled_nil : settled [] = [] := rfl

@[simp] theorem settled_cons (e : RxEvent) (log : List RxEvent) :
    settled (e :: log) = e.settles ++ settled log := List.flatMap_cons ..

@[simp] theorem settled_append (log log' : List RxEvent) :
    settled (log ++ log') = settled log ++ settled log' := List.flatMap_append

theorem settled_putPages (i n : Nat) : settled ((List.range n).map (.putPage i)) = pagesOf i n := by
  rw [settled, List.flatMap_map, pagesOf]
  exact List.flatMap_pure_eq_map _ _

theorem settled_kfreeSkb (i : Nat) (s : RxSkb) (rest : List RxEvent) :
    settled (kfreeSkb i s true rest) =
      .pkt i :: (pagesOf i s.nrFrags ++ (settled rest ++ [.skb i])) := by
  simp only [kfreeSkb, if_true, settled_cons, settled_append, settled_putPages, settled_nil,
    settles, List.append_nil, List.singleton_append]

theorem settled_freeList (i : Nat) (ss : List RxSkb) :
    settled (freeList i ss) = listObjects i ss := by
  induction ss generalizing i with
  | nil => rfl
  | cons s ss ih =>
    rw [freeList, settled_append, settled_kfreeSkb, ih]
    rfl

theorem settled_dropSkb (f : RxFrame) :
    (settled (dropSkb f true f.fragList)).Perm (listObjects 0 (f.first :: f.fragList)) := by
  rw [dropSkb, settled_kfreeSkb, settled_freeList, listObjects, RxSkb.objects]
  refine .cons _ ?_
  refine (List.Perm.append_left _ List.perm_append_comm).trans ?_
  rw [← List.append_assoc]
  rfl

/-! ## The list -/

section List

variable {ans : RxAnswers}

theorem settled_fraglist_length (i : Nat) (ss : List RxSkb) :
    (settled (skbAppendFraglistToPkt ans i ss).2).length ≤ (listObjects i ss).length ∧
      ((settled (skbAppendFraglistToPkt ans i ss).2).length = (listObjects i ss).length →
        ListClean ans i ss) := by
  induction ss generalizing i with
  | nil => exact ⟨Nat.le_refl _, fun _ => trivial⟩
  | cons s ss ih =>
    obtain ⟨hle, heq⟩ := ih (i + 1)
    unfold skbAppendFraglistToPkt ListClean
    split_ifs with hrefused htaken hpages hpages
    · rw [settled_freeList]
      exact ⟨Nat.le_refl _, fun _ => ⟨hrefused.1, fun h => by simp [h] at hrefused⟩⟩
    all_goals
      simp only [listObjects, RxSkb.objects, pagesOf, settled_freeList, settles,
        settled_cons, settled_append, settled_nil, List.append_nil, List.nil_append,
        List.length_append, List.length_cons, List.length_nil, List.length_map, List.length_range]
    · -- the element is forgotten, with its pages
      exact ⟨by omega, fun h => by omega⟩
    · exact ⟨by omega, fun h => ⟨htaken, fun _ => ⟨not_not.mp hpages, heq (by omega)⟩⟩⟩
    · exact ⟨by omega, fun h => by omega⟩
    · -- the packet of the element is forgotten
      exact ⟨by omega, fun h => by omega⟩

theorem settled_fraglist_perm (i : Nat) (ss : List RxSkb) (h : ListClean ans i ss) :
    (settled (skbAppendFraglistToPkt ans i ss).2).Perm (listObjects i ss) := by
  induction ss generalizing i with
  | nil => exact .refl _
  | cons s ss ih =>
    obtain ⟨hhead, hrest⟩ := h
    unfold skbAppendFraglistToPkt
    by_cases hrefused : ans.append i = false
    · rw [if_pos ⟨hhead, hrefused⟩, settled_freeList]
    · obtain ⟨hpages, hclean⟩ := hrest (by simpa using hrefused)
      rw [if_neg fun h => hrefused h.2, if_pos hhead, if_neg (not_not.mpr hpages)]
      simp only [settled_cons, settles, listObjects, RxSkb.objects, hpages, pagesOf,
        List.range_zero, List.map_nil, List.nil_append, List.cons_append]
      exact .cons _ (.cons _ (ih (i + 1) hclean))

theorem attached_fraglist (i : Nat) (ss : List RxSkb) (h : ListClean ans i ss)
    (hok : (skbAppendFraglistToPkt ans i ss).1 = true) :
    (skbAppendFraglistToPkt ans i ss).2.filterMap attaches =
      (List.range' i ss.length).map .pkt := by
  induction ss generalizing i with
  | nil => rfl
  | cons s ss ih =>
    obtain ⟨hhead, hrest⟩ := h
    unfold skbAppendFraglistToPkt at hok ⊢
    by_cases hrefused : ans.append i = false
    · rw [if_pos ⟨hhead, hrefused⟩] at hok
      cases hok
    · obtain ⟨hpages, hclean⟩ := hrest (by simpa using hrefused)
      rw [if_neg fun h => hrefused h.2, if_neg (not_not.mpr hpages)] at hok
      rw [if_neg fun h => hrefused h.2, if_pos hhead, if_neg (not_not.mpr hpages)]
      simp only [List.singleton_append, List.filterMap_cons, attaches, ih (i + 1) hclean hok,
        List.length_cons, List.range'_succ, List.map_cons]

end List

/-! ## The pages -/

section Pages

variable {ans : RxAnswers} {f : RxFrame}

theorem appendFrags_spec (ans : RxAnswers) (n todo j : Nat) :
    ((∀ k, j ≤ k → k < j + todo → ans.appendFrag k = .ok) ∧ skbAppendFragsToPkt ans n todo j =
        (true, (List.range' j todo).map .appendFrag ++ [.setPageFrags n])) ∨
    ((¬∀ k, j ≤ k → k < j + todo → ans.appendFrag k = .ok) ∧
      (skbAppendFragsToPkt ans n todo j).1 = false ∧
      settled (skbAppendFragsToPkt ans n todo j).2 = []) := by
  induction todo generalizing j with
  | zero => exact .inl ⟨fun k hle hlt => by omega, rfl⟩
  | succ todo ih =>
    have hbad (hj : ans.appendFrag j ≠ .ok) :
        ¬∀ k, j ≤ k → k < j + (todo + 1) → ans.appendFrag k = .ok :=
      fun h => hj (h j (Nat.le_refl _) (by omega))
    unfold skbAppendFragsToPkt
    cases hj : ans.appendFrag j with
    | refused => exact .inr ⟨hbad (by simp [hj]), rfl, rfl⟩
    | coalesced => exact .inr ⟨hbad (by simp [hj]), rfl, rfl⟩
    | ok =>
      rcases ih (j + 1) with ⟨hall, hrest⟩ | ⟨hall, hfail, hrest⟩
      · refine .inl ⟨fun k hle hlt => ?_, by simp [hrest, List.range'_succ]⟩
        rcases Nat.eq_or_lt_of_le hle with rfl | hlt'
        · exact hj
        · exact hall k hlt' (by omega)
      · refine .inr ⟨fun h => hall fun k hle hlt => h k (by omega) (by omega), hfail, ?_⟩
        simpa [settles] using hrest

theorem skbGenPktFrags_spec (ans : RxAnswers) (f : RxFrame) :
    ((∀ j < f.first.nrFrags, ans.appendFrag j = .ok) ∧
      ∃ pre, settled pre = pagesOf 0 f.first.nrFrags ∧
        pre.filterMap attaches = pagesOf 0 f.first.nrFrags ∧ skbGenPktFrags ans f =
          ⟨(skbAppendFraglistToPkt ans 1 f.fragList).1, false, [],
            pre ++ (skbAppendFraglistToPkt ans 1 f.fragList).2⟩) ∨
    ((¬∀ j < f.first.nrFrags, ans.appendFrag j = .ok) ∧
      ∃ pre, settled pre = [] ∧ skbGenPktFrags ans f = ⟨false, true, f.fragList, pre⟩) := by
  unfold skbGenPktFrags
  by_cases hn : f.first.nrFrags = 0
  · refine .inl ⟨by simp [hn], [], by simp [hn, pagesOf], by simp [hn, pagesOf], by simp [hn]⟩
  · rcases appendFrags_spec ans f.first.nrFrags f.first.nrFrags 0 with
      ⟨hall, hrun⟩ | ⟨hall, hfail, hrun⟩
    · refine .inl ⟨fun j hj => hall j (Nat.zero_le _) (by omega),
        (List.range' 0 f.first.nrFrags).map .appendFrag ++ [.setPageFrags f.first.nrFrags],
        ?_, ?_, ?_⟩
      · simp [settled, List.flatMap_map, settles]
      · simp [List.filterMap_map, Function.comp_def, attaches, pagesOf, List.range_eq_range']
      · simp [hn, hrun]
    · exact .inr ⟨fun h => hall fun k _ hk => h k (by omega), _, hrun, by simp [hn, hfail]⟩

end Pages

/-! ## The function -/

section Map

variable {ans : RxAnswers} {f : RxFrame}

theorem perm_listObjects_iff {log : List RxObj} :
    (pagesOf 0 f.first.nrFrags ++ (log ++ [RxObj.pkt 0, .skb 0])).Perm
      (listObjects 0 (f.first :: f.fragList)) ↔ log.Perm (listObjects 1 f.fragList) := by
  have hobjects : (listObjects 0 (f.first :: f.fragList)).Perm
      (pagesOf 0 f.first.nrFrags ++ (listObjects 1 f.fragList ++ [.pkt 0, .skb 0])) := by
    have hfirst : (f.first.objects 0).Perm (pagesOf 0 f.first.nrFrags ++ [.pkt 0, .skb 0]) :=
      List.perm_middle.symm
    refine (hfirst.append_right _).trans ?_
    rw [List.append_assoc]
    exact .append_left _ List.perm_append_comm
  have hlog : (pagesOf 0 f.first.nrFrags ++ (log ++ [RxObj.pkt 0, .skb 0])).Perm
      (pagesOf 0 f.first.nrFrags ++ (listObjects 1 f.fragList ++ [.pkt 0, .skb 0])) ↔
        log.Perm (listObjects 1 f.fragList) :=
    (List.perm_append_left_iff _).trans (List.perm_append_right_iff _)
  exact ⟨fun h => hlog.mp (h.trans hobjects), fun h => (hlog.mpr h).trans hobjects.symm⟩

theorem settledOnce_of_dropped {pre : List RxEvent} (hpre : settled pre = [])
    (h : mapSkbToPkt ans f = (false, pre ++ dropSkb f true f.fragList)) : SettledOnce ans f := by
  refine ⟨?_, fun hok => ?_⟩
  · rw [h, settled_append, hpre]
    simpa using settled_dropSkb f
  · rw [h] at hok
    cases hok

theorem settledOnce_of_reached {pre log : List RxEvent} {ok : Bool}
    (hpages : settled pre = pagesOf 0 f.first.nrFrags)
    (hattach : pre.filterMap attaches = pagesOf 0 f.first.nrFrags)
    (hgen : skbGenPktFrags ans f = ⟨ok, false, [], pre ++ log⟩)
    (hin : (ans.blocked || f.len = 0) = false) :
    SettledOnce ans f ↔ (settled log).Perm (listObjects 1 f.fragList) ∧
      ((mapSkbToPkt ans f).1 = true →
        log.filterMap attaches = (List.range' 1 f.fragList.length).map .pkt) := by
  obtain ⟨last, hlast, hnone, hrun⟩ : ∃ e : RxEvent, settled [e] = [.skb 0] ∧ e.attaches = none ∧
      mapSkbToPkt ans f =
        if !ok || !ans.frameLenSet || !f.gsoOk || !f.vlanOk then
          (false, pre ++ log ++ dropSkb f false [])
        else (true, pre ++ log ++ [e]) := by
    refine ⟨if ans.cna then .completionData else .freeSkb 0, ?_, ?_, ?_⟩
    · cases ans.cna <;> rfl
    · cases ans.cna <;> rfl
    · unfold mapSkbToPkt
      rw [hin, hgen]
      rfl
  have hdrop : settled (dropSkb f false []) = [.pkt 0, .skb 0] := rfl
  have hswap : (settled log ++ ([RxObj.skb 0] ++ [RxObj.pkt 0])).Perm
      (settled log ++ [RxObj.pkt 0, .skb 0]) := .append_left _ (.swap _ _ _)
  rw [← perm_listObjects_iff]
  split_ifs at hrun with hfail
  · refine ⟨fun h => ⟨?_, fun hok => by rw [hrun] at hok; cases hok⟩,
      fun h => ⟨?_, fun hok => by rw [hrun] at hok; cases hok⟩⟩
    · simpa [hrun, hpages, hdrop] using h.once
    · simpa [hrun, hpages, hdrop] using h.1
  · have hsettled : settled (mapSkbToPkt ans f).2 ++ [RxObj.pkt 0] =
        pagesOf 0 f.first.nrFrags ++ (settled log ++ ([.skb 0] ++ [.pkt 0])) := by
      simp only [hrun, settled_append, hpages, hlast, List.append_assoc]
    have hattaches : (mapSkbToPkt ans f).2.filterMap attaches =
        pagesOf 0 f.first.nrFrags ++ log.filterMap attaches := by
      simp [hrun, hattach, hnone]
    have hok : (mapSkbToPkt ans f).1 = true := by rw [hrun]
    refine ⟨fun h => ⟨?_, fun hok => ?_⟩, fun h => ⟨?_, fun hok => ?_⟩⟩
    · have honce := h.once
      rw [if_pos hok, hsettled] at honce
      exact (hswap.symm.append_left _).trans honce
    · have hall := h.attached hok
      rw [hattaches] at hall
      exact List.append_cancel_left hall
    · rw [if_pos hok, hsettled]
      exact (hswap.append_left _).trans h.1
    · rw [hattaches, h.2 hok]

/-- **The buffers** change hands once exactly if the list is not reached, or all its elements
    up to the first that is refused have head data and no pages. -/
theorem settled_once_iff :
    SettledOnce ans f ↔ (ListReached ans f → ListClean ans 1 f.fragList) := by
  cases hin : ans.blocked || decide (f.len = 0) with
  | true =>
    have hrun : mapSkbToPkt ans f = (false, [] ++ dropSkb f true f.fragList) := by
      unfold mapSkbToPkt
      rw [hin]
      rfl
    refine ⟨fun _ hreached => ?_, fun _ => settledOnce_of_dropped rfl hrun⟩
    simp [hreached.1, hreached.2.1] at hin
  | false =>
    rcases skbGenPktFrags_spec ans f with
      ⟨hall, pre, hpages, hattach, hgen⟩ | ⟨hall, pre, hpre, hgen⟩
    · have hreached : ListReached ans f := by
        simp only [Bool.or_eq_false_iff, decide_eq_false_iff_not] at hin
        exact ⟨hin.1, hin.2, hall⟩
      rw [settledOnce_of_reached hpages hattach hgen hin]
      refine ⟨fun h _ => (settled_fraglist_length 1 f.fragList).2 h.1.length_eq,
        fun h => ⟨settled_fraglist_perm 1 _ (h hreached), fun hok => ?_⟩⟩
      refine attached_fraglist 1 _ (h hreached) ?_
      unfold mapSkbToPkt at hok
      rw [hin, hgen] at hok
      by_contra hfail
      rw [Bool.not_eq_true] at hfail
      simp [hfail] at hok
    · have hrun : mapSkbToPkt ans f = (false, pre ++ dropSkb f true f.fragList) := by
        unfold mapSkbToPkt
        rw [hin, hgen]
        rfl
      exact ⟨fun _ hreached => absurd hreached.2.2 hall, fun _ => settledOnce_of_dropped hpre hrun⟩

def lroFrame : RxFrame where
  first := ⟨66, 0⟩
  fragList := [⟨1448, 0⟩, ⟨0, 0⟩]
  len := 1514
  gsoType := 0
  gsoSize := 0
  vlanTag := none

theorem not_settled_once :
    ¬SettledOnce ⟨false, false, fun _ => .ok, fun _ => true, true⟩ lroFrame := by
  intro h
  -- nobody has the packet of the last element
  exact absurd (h.once.mem_iff (a := .pkt 2)) (by decide)

end Map

end VmkDrivers.Vmklinux
