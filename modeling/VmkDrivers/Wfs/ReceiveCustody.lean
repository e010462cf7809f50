/-
  VmkDrivers.Wfs.ReceiveCustody

  Where the skbs and the mappings of a receive ring are: freed or handed on, in
  the ring, or in the hand of `ixgbe_clean_rx_irq`, which has taken a frame out
  and neither linked it to the next buffer nor ended it yet.  Each operation
  moves what one slot keeps (`Custody.change`).
-/

import VmkDrivers.Lib.Places
import VmkDrivers.Wfs.ReceiveRing

namespace VmkDrivers.Wfs

open VmkDrivers.Lib

/-- `len` and `data_len` of a frame are what its skbs hold. -/
def RxWhole : List (Nat × RingSkb) → Prop
  | [] => False
  | h :: rest => h.2.len = h.2.put + h.2.dataLen ∧
      h.2.dataLen = (rest.map fun x => x.2.len).sum ∧ ∀ x ∈ rest, x.2.len = x.2.put

namespace RxRing

section Places

variable (r : RxRing) (i : Nat) (hand : Option Nat)

/-- The skbs of the slot `i`, with those of the frame that goes on in it. -/
def frameAt : Multiset Nat :=
  match (r.rxBuffer i).skb with
  | none => 0
  | some s => r.frame ((r.skb s).partner.getD s)

/-- The mappings of the slot `i`, with that of the frame that goes on in it. -/
def mapsAt : Multiset (Option Nat) :=
  match (r.rxBuffer i).skb with
  | none => 0
  | some s => (r.rxBuffer i).dma :: ((r.skb s).partner.map fun h => (r.skb h).dma).toList

def gone : Multiset Nat := r.freed ++ r.delivered.flatten.map Prod.fst

def handSkbs : Multiset Nat := (hand.map r.frame).getD []

def handMaps : Multiset (Option Nat) := (hand.map fun h => (r.skb h).dma).toList

/-- The slot `i` has the buffer `s`, which is empty, and which a frame may be waiting for. -/
structure Held (s : Nat) : Prop where
  mapped : (r.rxBuffer i).dma.isSome
  fresh : r.skb s = { partner := (r.skb s).partner }
  whole : RxWhole (r.snapshot ((r.skb s).partner.getD s))
  linked : ∀ h, (r.skb s).partner = some h →
    (r.skb h).partner = some s ∧ ∃ l, (r.skb h).fragList = l ++ [s]

def SlotOk : Prop :=
  match (r.rxBuffer i).skb with
  | none => (r.rxBuffer i).dma = none
  | some s => r.Held i s

/-- A frame that is taken out: the last skb of its list is merged. -/
structure InHand (h : Nat) : Prop where
  whole : RxWhole (r.snapshot h)
  single : (r.skb h).partner = none → (r.skb h).fragList = []
  merged : ∀ t, (r.skb h).partner = some t → (r.skb t).partner = none

end Places

structure Custody (n : Nat) (r : RxRing) (hand : Option Nat) : Prop where
  count : r.count = n
  slots : ∀ i < n, r.SlotOk i
  inHand : ∀ h ∈ hand, r.InHand h
  skbs : r.gone + r.handSkbs hand + ∑ i ∈ Finset.range n, r.frameAt i = Multiset.range r.skbs
  maps : r.unmapped + r.handMaps hand + ∑ i ∈ Finset.range n, r.mapsAt i =
    (Multiset.range r.maps).map some
  whole : ∀ f ∈ r.delivered, RxWhole f

variable {n : Nat} {r r' : RxRing} {hand hand' : Option Nat} {i j k s h u x : Nat}

/-! ## One slot -/

theorem frameAt_none (hs : (r.rxBuffer i).skb = none) : r.frameAt i = 0 := by
  rw [frameAt, hs]

theorem frameAt_some (hs : (r.rxBuffer i).skb = some s) :
    r.frameAt i = r.frame ((r.skb s).partner.getD s) := by
  rw [frameAt, hs]

theorem mapsAt_none (hs : (r.rxBuffer i).skb = none) : r.mapsAt i = 0 := by
  rw [mapsAt, hs]

theorem mapsAt_some (hs : (r.rxBuffer i).skb = some s) : r.mapsAt i =
    (r.rxBuffer i).dma :: ((r.skb s).partner.map fun h => (r.skb h).dma).toList := by
  rw [mapsAt, hs]

theorem slotOk_none (hs : (r.rxBuffer i).skb = none) : r.SlotOk i ↔ (r.rxBuffer i).dma = none := by
  rw [SlotOk, hs]

theorem slotOk_some (hs : (r.rxBuffer i).skb = some s) : r.SlotOk i ↔ r.Held i s := by
  rw [SlotOk, hs]

theorem frame_congr (h : r'.skb s = r.skb s) : r'.frame s = r.frame s := by
  rw [frame, frame, h]

theorem snapshot_congr (h : ∀ x ∈ r.frame s, r'.skb x = r.skb x) :
    r'.snapshot s = r.snapshot s := by
  rw [snapshot, snapshot, frame_congr (h s List.mem_cons_self)]
  exact List.map_congr_left fun x hx => by rw [h x hx]

theorem whole_snapshot_iff : RxWhole (r.snapshot s) ↔
    (r.skb s).len = (r.skb s).put + (r.skb s).dataLen ∧
      (r.skb s).dataLen = ((r.skb s).fragList.map fun x => (r.skb x).len).sum ∧
      ∀ x ∈ (r.skb s).fragList, (r.skb x).len = (r.skb x).put := by
  simp [snapshot, frame, RxWhole, Function.comp_def]

theorem Held.mem_frame (h : r.Held i s) : s ∈ r.frame ((r.skb s).partner.getD s) := by
  cases hp : (r.skb s).partner with
  | none => exact List.mem_cons_self
  | some t =>
    obtain ⟨-, l, hl⟩ := h.linked t hp
    rw [Option.getD_some, frame, hl]
    exact List.mem_cons_of_mem t (List.mem_append_right l (List.mem_singleton_self s))

section Single

variable {b : RxBuffer} (hb : r.rxBuffer i = b) (hs : b.skb = some s) (hskb : r.skb s = {})

include hb hs hskb

theorem frameAt_single : r.frameAt i = {s} := by
  rw [frameAt_some ((congrArg RxBuffer.skb hb).trans hs), hskb, Option.getD_none, frame, hskb]
  rfl

theorem mapsAt_single : r.mapsAt i = {b.dma} := by
  rw [mapsAt_some ((congrArg RxBuffer.skb hb).trans hs), hskb, hb]
  rfl

theorem slotOk_single (hdma : b.dma.isSome) : r.SlotOk i := by
  rw [slotOk_some ((congrArg RxBuffer.skb hb).trans hs)]
  refine ⟨by rw [hb]; exact hdma, by rw [hskb], ?_, fun t ht => ?_⟩
  · rw [whole_snapshot_iff, hskb, Option.getD_none, hskb]
    simp
  · rw [hskb] at ht
    cases ht

end Single

theorem slot_congr (hbuf : r'.rxBuffer k = r.rxBuffer k)
    (hskb : ∀ x ∈ r.frameAt k, r'.skb x = r.skb x) (hk : r.SlotOk k) :
    r'.frameAt k = r.frameAt k ∧ r'.mapsAt k = r.mapsAt k ∧ r'.SlotOk k := by
  cases hs : (r.rxBuffer k).skb with
  | none =>
    have hs' := (congrArg RxBuffer.skb hbuf).trans hs
    refine ⟨by rw [frameAt_none hs, frameAt_none hs'], by rw [mapsAt_none hs, mapsAt_none hs'], ?_⟩
    rw [slotOk_none hs', hbuf]
    exact (slotOk_none hs).mp hk
  | some s =>
    have hs' := (congrArg RxBuffer.skb hbuf).trans hs
    have hheld := (slotOk_some hs).mp hk
    rw [frameAt_some hs] at hskb
    have hsame : r'.skb s = r.skb s := hskb s (Multiset.mem_coe.mpr hheld.mem_frame)
    have hhead := hskb _ (Multiset.mem_coe.mpr List.mem_cons_self)
    rw [frameAt_some hs, frameAt_some hs', mapsAt_some hs, mapsAt_some hs', slotOk_some hs', hbuf,
      hsame, frame_congr hhead]
    refine ⟨rfl, ?_, ⟨by rw [hbuf]; exact hheld.mapped, by rw [hsame]; exact hheld.fresh, ?_, ?_⟩⟩
    · cases hp : (r.skb s).partner with
      | none => rfl
      | some t =>
        rw [hp, Option.getD_some] at hhead
        rw [Option.map_some, Option.map_some, hhead]
    · rw [hsame, snapshot_congr fun x hx => hskb x hx]
      exact hheld.whole
    · intro t ht
      rw [hsame] at ht
      rw [ht, Option.getD_some] at hhead
      rw [hhead]
      exact hheld.linked t ht

theorem SlotOk.congr (hk : r.SlotOk k) (hbuf : r'.rxBuffer k = r.rxBuffer k)
    (hskb : ∀ x ∈ r.frameAt k, r'.skb x = r.skb x) : r'.SlotOk k :=
  (slot_congr hbuf hskb hk).2.2

/-! ## One slot changes -/

theorem Custody.lt_of_mem (h : Custody n r hand) (hi : i < n) (hx : x ∈ r.frameAt i) :
    x < r.skbs := by
  rw [← Multiset.mem_range, ← h.skbs]
  exact Multiset.mem_add.mpr (.inr (Multiset.mem_sum.mpr ⟨i, Finset.mem_range.mpr hi, hx⟩))

theorem Custody.nodup (h : Custody n r hand) :
    (r.gone + r.handSkbs hand + ∑ i ∈ Finset.range n, r.frameAt i).Nodup := by
  rw [h.skbs]
  exact Multiset.nodup_range _

theorem Custody.not_mem (h : Custody n r hand) (hi : i < n) (hj : j < n) (hne : j ≠ i)
    (hx : x ∈ r.frameAt i) : x ∉ r.frameAt j :=
  not_mem_of_nodup (Multiset.nodup_add.mp h.nodup).2.1 (Finset.mem_range.mpr hi)
    (Finset.mem_range.mpr hj) hne hx

theorem Custody.not_mem_hand (h : Custody n r hand) (hi : i < n) (hx : x ∈ r.frameAt i) :
    x ∉ r.handSkbs hand := fun hhand =>
  Multiset.disjoint_left.mp (Multiset.nodup_add.mp h.nodup).2.2
    (Multiset.mem_add.mpr (.inr hhand))
    (Multiset.mem_sum.mpr ⟨i, Finset.mem_range.mpr hi, hx⟩)

theorem gone_of_freed {l : List Nat} (hfreed : r'.freed = r.freed ++ l)
    (hdelivered : r'.delivered = r.delivered) : r'.gone = r.gone + l := by
  rw [gone, gone, hfreed, hdelivered, ← Multiset.coe_add, ← Multiset.coe_add, ← Multiset.coe_add]
  exact add_right_comm ..

section Change

variable {F F' G : Multiset Nat} {M M' : Multiset (Option Nat)} {U : List (Option Nat)}

/-- **One slot changes**: it is enough to say what it kept and keeps now, and what has left. -/
theorem Custody.change (h : Custody n r hand) (hi : i < n) (hcount : r'.count = r.count)
    (hbuf : ∀ k ≠ i, r'.rxBuffer k = r.rxBuffer k)
    (hF : r.frameAt i = F) (hM : r.mapsAt i = M) (hF' : r'.frameAt i = F') (hM' : r'.mapsAt i = M')
    (hskb : ∀ x < r.skbs, x ∉ r.handSkbs hand → x ∉ F → r'.skb x = r.skb x)
    (hslot : r'.SlotOk i) (hhand : ∀ h ∈ hand', r'.InHand h)
    (hgone : r'.gone = r.gone + G) (hunmapped : r'.unmapped = r.unmapped ++ U)
    (hskbs : G + r'.handSkbs hand' + F' + Multiset.range r.skbs =
      r.handSkbs hand + F + Multiset.range r'.skbs)
    (hmaps : U + r'.handMaps hand' + M' + (Multiset.range r.maps).map some =
      r.handMaps hand + M + (Multiset.range r'.maps).map some)
    (hwhole : ∀ f ∈ r'.delivered, RxWhole f) : Custody n r' hand' := by
  have hothers : ∀ k ∈ Finset.range n, k ≠ i →
      r'.frameAt k = r.frameAt k ∧ r'.mapsAt k = r.mapsAt k ∧ r'.SlotOk k := by
    intro k hk hne
    rw [Finset.mem_range] at hk
    exact slot_congr (hbuf k hne) (fun x hx => hskb x (h.lt_of_mem hk hx) (h.not_mem_hand hk hx)
      (hF ▸ h.not_mem hk hi hne.symm hx)) (h.slots k hk)
  have hi' := Finset.mem_range.mpr hi
  refine ⟨hcount.trans h.count, fun k hk => ?_, hhand, ?_, ?_, hwhole⟩
  · by_cases hne : k = i
    · rw [hne]
      exact hslot
    · exact (hothers k (Finset.mem_range.mpr hk) hne).2.2
  · have hsum := sum_change hi' fun k hk hne => (hothers k hk hne).1
    have hbefore := h.skbs
    rw [hF, hF'] at hsum
    rw [hgone]
    ext x
    replace hsum := congrArg (Multiset.count x) hsum
    replace hskbs := congrArg (Multiset.count x) hskbs
    replace hbefore := congrArg (Multiset.count x) hbefore
    simp only [Multiset.count_add] at hsum hskbs hbefore ⊢
    omega
  · have hsum := sum_change hi' fun k hk hne => (hothers k hk hne).2.1
    have hbefore := h.maps
    rw [hM, hM'] at hsum
    rw [hunmapped, ← Multiset.coe_add]
    ext x
    replace hsum := congrArg (Multiset.count x) hsum
    replace hmaps := congrArg (Multiset.count x) hmaps
    replace hbefore := congrArg (Multiset.count x) hbefore
    simp only [Multiset.count_add] at hsum hmaps hbefore ⊢
    omega

end Change

/-! ## Buffers for the device -/

theorem slotOk_empty (hb : r.rxBuffer i = {}) : r.SlotOk i :=
  (slotOk_none (congrArg RxBuffer.skb hb)).mpr (congrArg RxBuffer.dma hb)

/-- `ixgbe_alloc_mapped_skb` on a slot without a buffer. -/
theorem Custody.alloc (h : Custody n r none) (hi : i < n) (hfree : r.rxBuffer i = {})
    (a : RxAlloc) :
    (∃ skb skbs freed, r.ixgbeAllocMappedSkb i a = (false, { r with skb, skbs, freed }) ∧
      Custody n { r with skb, skbs, freed } none) ∨
    ∃ skb skbs maps b, b.skb.isSome ∧ r.ixgbeAllocMappedSkb i a =
        (true, { r with skb, skbs, maps, rxBuffer := Function.update r.rxBuffer i b }) ∧
      Custody n { r with skb, skbs, maps, rxBuffer := Function.update r.rxBuffer i b } none := by
  have hF : r.frameAt i = 0 := frameAt_none (congrArg RxBuffer.skb hfree)
  have hM : r.mapsAt i = 0 := mapsAt_none (congrArg RxBuffer.skb hfree)
  have hnew : Function.update r.skb r.skbs {} r.skbs = {} := Function.update_self ..
  have hold : ∀ x < r.skbs, Function.update r.skb r.skbs {} x = r.skb x := fun x hx =>
    Function.update_of_ne (Nat.ne_of_lt hx) ..
  have hrange : ({r.skbs} : Multiset Nat) + Multiset.range r.skbs = Multiset.range (r.skbs + 1) :=
    (Multiset.range_succ _).symm
  rw [ixgbeAllocMappedSkb, hfree]
  cases a with
  | noSkb => exact .inl ⟨r.skb, r.skbs, r.freed, rfl, h⟩
  | noMapping =>
    have hback : Function.update r.rxBuffer i {} = r.rxBuffer := by
      rw [← hfree, Function.update_eq_self]
    refine .inl ⟨Function.update r.skb r.skbs {}, r.skbs + 1, r.freed ++ [r.skbs], ?_, ?_⟩
    · simp [free, setBuffer, modify, frame, hback]
    · refine h.change hi rfl (fun _ _ => rfl) hF hM (frameAt_none (congrArg RxBuffer.skb hfree))
        (mapsAt_none (congrArg RxBuffer.skb hfree)) (fun x hx _ _ => hold x hx) (slotOk_empty hfree)
        nofun (gone_of_freed rfl rfl) (List.append_nil _).symm ?_ rfl h.whole
      rw [← hrange]
      rfl
  | granted =>
    refine .inr ⟨Function.update r.skb r.skbs {}, r.skbs + 1, r.maps + 1,
      ⟨some r.skbs, some r.maps⟩, rfl, rfl, ?_⟩
    have hb : Function.update r.rxBuffer i ⟨some r.skbs, some r.maps⟩ i = _ :=
      Function.update_self ..
    refine h.change hi rfl (fun k hk => Function.update_of_ne hk ..) hF hM
      (frameAt_single hb rfl hnew) (mapsAt_single hb rfl hnew) (fun x hx _ _ => hold x hx)
      (slotOk_single hb rfl hnew rfl) nofun (add_zero _).symm (List.append_nil _).symm ?_ ?_ h.whole
    · rw [← hrange]
      rfl
    · rw [Multiset.range_succ, Multiset.map_cons]
      rfl

/-! ## Frames in several buffers -/

theorem mergeActiveTail_none (hp : (r.skb s).partner = none) :
    r.ixgbeMergeActiveTail s = (s, r) := by
  rw [ixgbeMergeActiveTail, hp]

theorem Custody.nodup_frameAt (h : Custody n r hand) (hi : i < n) : (r.frameAt i).Nodup :=
  Multiset.nodup_of_le (Finset.single_le_sum (f := r.frameAt) (fun _ _ => Multiset.zero_le _)
    (Finset.mem_range.mpr hi)) (Multiset.nodup_add.mp h.nodup).2.1

/-- A buffer that no frame waits for. -/
theorem Custody.alone (hc : Custody n r hand) (hi : i < n) (hs : (r.rxBuffer i).skb = some s)
    (hp : (r.skb s).partner = none) : r.skb s = {} ∧ r.frameAt i = {s} := by
  have hskb : r.skb s = {} := by rw [((slotOk_some hs).mp (hc.slots i hi)).fresh, hp]
  exact ⟨hskb, frameAt_single rfl hs hskb⟩

/-- The skb of a frame that waits for the buffer `s`, and the others. -/
theorem Custody.waiting (hc : Custody n r hand) (hi : i < n) (hs : (r.rxBuffer i).skb = some s)
    (hp : (r.skb s).partner = some h) : ∃ l, (r.skb h).fragList = l ++ [s] ∧
      r.frameAt i = (h :: (l ++ [s]) : List Nat) ∧ h ≠ s ∧ h ∉ l ∧ s ∉ l := by
  obtain ⟨-, l, hl⟩ := ((slotOk_some hs).mp (hc.slots i hi)).linked h hp
  have hframe : r.frameAt i = (h :: (l ++ [s]) : List Nat) := by
    rw [frameAt_some hs, hp, Option.getD_some, frame, hl]
  have hnodup := hc.nodup_frameAt hi
  rw [hframe, Multiset.coe_nodup] at hnodup
  simp only [List.nodup_cons, List.mem_append, List.mem_singleton, not_or,
    List.nodup_append] at hnodup
  exact ⟨l, hl, hframe, hnodup.1.2, hnodup.1.1, fun hmem => hnodup.2.2.2 s hmem s rfl rfl⟩

/-- The buffer that a frame goes on in is merged into it. -/
theorem whole_merged {l : List Nat} {m : UInt32} (hl : (r.skb h).fragList = l ++ [s])
    (hw : RxWhole (r.snapshot h)) (hs : (r.skb s).len = 0)
    (hh : r'.skb h = { r.skb h with len := (r.skb h).len + m, dataLen := (r.skb h).dataLen + m })
    (hs' : (r'.skb s).len = m ∧ (r'.skb s).put = m) (hold : ∀ x ∈ l, r'.skb x = r.skb x) :
    RxWhole (r'.snapshot h) := by
  rw [whole_snapshot_iff, hl] at hw
  obtain ⟨hlen, hdata, hput⟩ := hw
  rw [whole_snapshot_iff, hh]
  dsimp only
  have hsum : (l.map fun x => (r'.skb x).len) = l.map fun x => (r.skb x).len :=
    List.map_congr_left fun x hx => by rw [hold x hx]
  rw [hl, List.map_append, hsum, List.sum_append, List.map_singleton, List.sum_singleton, hs'.1]
  rw [List.map_append, List.sum_append, List.map_singleton, List.sum_singleton, hs,
    add_zero] at hdata
  refine ⟨by rw [hlen, add_assoc], by rw [hdata], fun x hx => ?_⟩
  rcases List.mem_append.mp hx with hx | hx
  · rw [hold x hx]
    exact hput x (List.mem_append_left _ hx)
  · rw [List.mem_singleton.mp hx, hs'.1, hs'.2]

/-- The ring without the buffer of the slot `i`. -/
abbrev emptied (r : RxRing) (i : Nat) (skb : Nat → RingSkb) (U : List (Option Nat)) : RxRing :=
  { r with
    skb, unmapped := r.unmapped ++ U, rxBuffer := Function.update r.rxBuffer i {}
    taken := r.taken ++ [i] }

theorem Custody.emptied {f : Nat → RingSkb} {U : List (Option Nat)} (hc : Custody n r none)
    (hi : i < n) (hold : ∀ x ∉ r.frameAt i, f x = r.skb x) (hhand : (r.emptied i f U).InHand h)
    (hskbs : ((r.emptied i f U).frame h : Multiset Nat) = r.frameAt i)
    (hmaps : U + (r.emptied i f U).handMaps (some h) = r.mapsAt i) :
    Custody n (r.emptied i f U) (some h) := by
  have hempty : Function.update r.rxBuffer i {} i = {} := Function.update_self ..
  refine hc.change hi rfl (fun k hk => Function.update_of_ne hk ..) rfl rfl
    (frameAt_none (congrArg RxBuffer.skb hempty)) (mapsAt_none (congrArg RxBuffer.skb hempty))
    (fun x _ _ hx => hold x hx) (slotOk_empty hempty) ?_ (add_zero _).symm rfl ?_ ?_ hc.whole
  · rintro _ ⟨⟩
    exact hhand
  · rw [← hskbs]
    simp [handSkbs]
  · rw [← hmaps]
    simp [handMaps]

/-- The buffer of a slot is taken out: the first of a frame, or the next one. -/
theorem Custody.take (hc : Custody n r none) (hi : i < n) (hs : (r.rxBuffer i).skb = some s) :
    ∃ t f U, r.takeSkb i s = (t, r.emptied i f U) ∧ Custody n (r.emptied i f U) (some t) ∧
      ∀ x ∉ r.frameAt i, f x = r.skb x := by
  have hheld := (slotOk_some hs).mp (hc.slots i hi)
  cases hp : (r.skb s).partner with
  | none =>
    obtain ⟨hskb, hF⟩ := hc.alone hi hs hp
    obtain ⟨c, hcs⟩ : ∃ c : RingSkb, c = { len := (r.desc i).length.toUInt32
                                           put := (r.desc i).length.toUInt32
                                           dma := (r.rxBuffer i).dma } := ⟨_, rfl⟩
    have hnew : (r.emptied i (Function.update r.skb s c) []).skb s = c := Function.update_self ..
    have hold : ∀ x, x ∉ r.frameAt i → Function.update r.skb s c x = r.skb x := fun x hx => by
      rw [hF, Multiset.mem_singleton] at hx
      exact Function.update_of_ne hx ..
    have heq : r.takeSkb i s = (s, r.emptied i (Function.update r.skb s c) []) := by
      simp [takeSkb, modify, setBuffer, hskb, hcs]
    refine ⟨s, _, [], heq, hc.emptied hi hold ⟨?_, ?_, ?_⟩ ?_ ?_, hold⟩
    · rw [whole_snapshot_iff, hnew, hcs]
      simp
    · rw [hnew, hcs]
      exact fun _ => rfl
    · rw [hnew, hcs]
      simp
    · rw [hF, frame, hnew, hcs]
      rfl
    · rw [mapsAt_single rfl hs hskb, handMaps, Option.map_some, hnew, hcs]
      rfl
  | some h =>
    obtain ⟨l, hl, hF, hne, hhl, hsl⟩ := hc.waiting hi hs hp
    obtain ⟨hback, -⟩ := hheld.linked h hp
    have hskb : r.skb s = { partner := some h } := by rw [hheld.fresh, hp]
    have hwhole := hheld.whole
    rw [hp, Option.getD_some] at hwhole
    obtain ⟨m, hm⟩ : ∃ m, m = (r.desc i).length.toUInt32 := ⟨_, rfl⟩
    obtain ⟨f, hf⟩ : ∃ f : Nat → RingSkb, f = fun x =>
        if x = s then { len := m, put := m }
        else if x = h then
          { r.skb h with len := (r.skb h).len + m, dataLen := (r.skb h).dataLen + m }
        else r.skb x := ⟨_, rfl⟩
    have hfs : (r.emptied i f [(r.rxBuffer i).dma]).skb s = { len := m, put := m } := by simp [hf]
    have hfh : (r.emptied i f [(r.rxBuffer i).dma]).skb h = { r.skb h with
        len := (r.skb h).len + m, dataLen := (r.skb h).dataLen + m } := by simp [hf, hne]
    have hfx : ∀ x, x ≠ h → x ≠ s → f x = r.skb x := fun x h₁ h₂ => by simp [hf, h₁, h₂]
    have hold : ∀ x ∉ r.frameAt i, f x = r.skb x := fun x hx => by
      rw [hF] at hx
      exact hfx x (fun heq => hx (heq ▸ List.mem_cons_self)) fun heq => hx (by simp [heq])
    have heq : r.takeSkb i s = (h, r.emptied i f [(r.rxBuffer i).dma]) := by
      have hupd : Function.update (Function.update (Function.update r.skb s
          { len := m, put := m, partner := some h }) h { r.skb h with
            len := (r.skb h).len + m, dataLen := (r.skb h).dataLen + m }) s
          { len := m, put := m } = f := by
        funext x
        rw [hf]
        by_cases hx : x = s
        · simp [hx]
        · by_cases hx' : x = h <;> simp [hx, hx', Function.update_of_ne, hne]
      simp [takeSkb, ixgbeMergeActiveTail, modify, setBuffer, hskb, unmap, ← hm, ← hupd, hne,
        hne.symm]
    refine ⟨h, f, _, heq, hc.emptied hi hold ⟨?_, ?_, ?_⟩ ?_ ?_, hold⟩
    · exact whole_merged hl hwhole (by rw [hskb]) hfh (by rw [hfs]; exact ⟨rfl, rfl⟩) fun x hx =>
        hfx x (fun heq => hhl (heq ▸ hx)) fun heq => hsl (heq ▸ hx)
    · rw [hfh, hback]
      simp
    · rw [hfh, hback]
      rintro t ⟨⟩
      rw [hfs]
    · rw [hF, frame, hfh, hl]
    · rw [mapsAt_some hs, hp, handMaps, Option.map_some, hfh]
      rfl

theorem Custody.other {c u : Nat} {d : Nat → RxDesc} {p : Option RxPoll} {b : Bool}
    {l₁ l₂ : List Nat} (hc : Custody n r hand) : Custody n { r with
      nextToClean := c, nextToUse := u, desc := d, poll := p, up := b, completed := l₁
      taken := l₂ } hand :=
  ⟨hc.count, fun k hk => (hc.slots k hk).congr rfl fun _ _ => rfl,
    fun h hh => ⟨(hc.inHand h hh).whole, (hc.inHand h hh).single, (hc.inHand h hh).merged⟩,
    hc.skbs, hc.maps, hc.whole⟩

theorem Custody.nodup_hand (hc : Custody n r (some h)) : (r.frame h).Nodup :=
  Multiset.coe_nodup.mp (Multiset.nodup_add.mp (Multiset.nodup_add.mp hc.nodup).1).2.1

theorem addActiveTail_eq (hin : r.InHand h) (hne : h ≠ u) :
    r.ixgbeAddActiveTail h u = { r with
      skb := Function.update (Function.update r.skb u { r.skb u with partner := some h }) h
        { r.skb h with fragList := (r.skb h).fragList ++ [u], partner := some u } } := by
  cases hp : (r.skb h).partner with
  | none =>
    simp [ixgbeAddActiveTail, hp, hin.single hp, modify, hne, hne.symm, Function.update_comm]
  | some t =>
    rw [ixgbeAddActiveTail, hp]
    simp [mergeActiveTail_none (hin.merged t hp), modify, hne, hne.symm, Function.update_comm]

abbrev withSkb (r : RxRing) (skb : Nat → RingSkb) : RxRing := { r with skb }

/-- The frame goes on in the slot `j`. -/
theorem Custody.chain (hc : Custody n r (some h)) (hj : j < n)
    (hu : (r.rxBuffer j).skb = some u) (hp : (r.skb u).partner = none) :
    ∃ f, r.ixgbeAddActiveTail h u = r.withSkb f ∧ Custody n (r.withSkb f) none := by
  obtain ⟨hskb, hF⟩ := hc.alone hj hu hp
  have hin := hc.inHand h rfl
  have huh : u ∉ r.frame h := hc.not_mem_hand hj (hF ▸ Multiset.mem_singleton_self u)
  have hne : h ≠ u := fun heq => huh (heq ▸ List.mem_cons_self)
  obtain ⟨f, hf⟩ : ∃ f, f = Function.update (Function.update r.skb u { partner := some h }) h
      { r.skb h with fragList := (r.skb h).fragList ++ [u], partner := some u } := ⟨_, rfl⟩
  have hfh : (r.withSkb f).skb h = { r.skb h with
      fragList := (r.skb h).fragList ++ [u], partner := some u } := by simp [hf]
  have hfu : (r.withSkb f).skb u = { partner := some h } := by simp [hf, hne.symm]
  have hfx : ∀ x, x ≠ h → x ≠ u → (r.withSkb f).skb x = r.skb x := fun x h₁ h₂ => by
    simp [hf, h₁, h₂]
  have hu' : ((r.withSkb f).rxBuffer j).skb = some u := hu
  refine ⟨f, (addActiveTail_eq hin hne).trans (by rw [hf, hskb]), ?_⟩
  have hF' : (r.withSkb f).frameAt j = (h :: ((r.skb h).fragList ++ [u]) : List Nat) := by
    rw [frameAt_some hu', hfu, Option.getD_some, frame, hfh]
  have hM' : (r.withSkb f).mapsAt j = ([(r.rxBuffer j).dma, (r.skb h).dma] : List _) := by
    rw [mapsAt_some hu', hfu, Option.map_some, hfh]
    rfl
  have hfrag : ∀ x ∈ (r.skb h).fragList, (r.withSkb f).skb x = r.skb x := fun x hx =>
    hfx x (fun heq => (List.nodup_cons.mp hc.nodup_hand).1 (heq ▸ hx)) fun heq =>
      huh (heq ▸ List.mem_cons_of_mem h hx)
  refine hc.change hj rfl (fun _ _ => rfl) hF (mapsAt_single rfl hu hskb) hF' hM' ?_ ?_ nofun
    (add_zero _).symm (List.append_nil _).symm ?_ ?_ hc.whole
  · intro x _ hx hxu
    refine hfx x (fun heq => hx ?_) fun heq => hxu (Multiset.mem_singleton.mpr heq)
    exact heq ▸ List.mem_cons_self
  · rw [slotOk_some hu']
    refine ⟨((slotOk_some hu).mp (hc.slots j hj)).mapped, by rw [hfu], ?_, fun t ht => ?_⟩
    · have hw := whole_snapshot_iff.mp hin.whole
      rw [hfu, Option.getD_some, whole_snapshot_iff, hfh]
      refine ⟨hw.1, ?_, fun x hx => ?_⟩
      · have hsum : ((r.skb h).fragList.map fun x => ((r.withSkb f).skb x).len) =
            (r.skb h).fragList.map fun x => (r.skb x).len :=
          List.map_congr_left fun x hx => by rw [hfrag x hx]
        rw [List.map_append, hsum, List.sum_append, List.map_singleton, List.sum_singleton, hfu,
          add_zero]
        exact hw.2.1
      · rcases List.mem_append.mp hx with hx | hx
        · rw [hfrag x hx]
          exact hw.2.2 x hx
        · rw [List.mem_singleton.mp hx, hfu]
    · rw [hfu] at ht
      cases ht
      rw [hfh]
      exact ⟨rfl, _, rfl⟩
  · rfl
  · exact congrArg (· + _) (add_comm ({(r.rxBuffer j).dma} : Multiset (Option Nat)) {(r.skb h).dma})

section Hand

variable {c : RingSkb} {G : List Nat} {D : List (List (Nat × RingSkb))} {U : List (Option Nat)}

/-- The first skb of a frame in hand is `c` now; `G`, `D` and `U` have left. -/
abbrev handed (r : RxRing) (h : Nat) (c : RingSkb) (G : List Nat)
    (D : List (List (Nat × RingSkb))) (U : List (Option Nat)) : RxRing :=
  { r with
    skb := Function.update r.skb h c, freed := r.freed ++ G, delivered := r.delivered ++ D
    unmapped := r.unmapped ++ U }

theorem snapshot_handed (hc : Custody n r (some h)) :
    (r.handed h c G D U).skb h = c ∧
      ∀ x ∈ (r.skb h).fragList, (r.handed h c G D U).skb x = r.skb x :=
  ⟨Function.update_self .., fun x hx => Function.update_of_ne (fun heq : x = h =>
    (List.nodup_cons.mp hc.nodup_hand).1 (heq ▸ hx)) ..⟩

theorem whole_handed (hc : Custody n r (some h)) (hfrag : c.fragList = (r.skb h).fragList)
    (hsame : c.len = (r.skb h).len ∧ c.put = (r.skb h).put ∧ c.dataLen = (r.skb h).dataLen) :
    RxWhole ((r.handed h c G D U).snapshot h) := by
  obtain ⟨hself, hold⟩ := snapshot_handed (c := c) (G := G) (D := D) (U := U) hc
  obtain ⟨hlen, hdata, hput⟩ := whole_snapshot_iff.mp (hc.inHand h rfl).whole
  rw [whole_snapshot_iff, hself, hfrag, hsame.1, hsame.2.1, hsame.2.2]
  refine ⟨hlen, ?_, fun x hx => by rw [hold x hx]; exact hput x hx⟩
  rw [hdata]
  exact congrArg List.sum (List.map_congr_left fun x hx => by rw [hold x hx])

theorem Custody.handed (hc : Custody n r (some h)) (hi : i < n) (hb : r.rxBuffer i = {})
    (hhand : ∀ t ∈ hand', (r.handed h c G D U).InHand t)
    (hskbs : (G ++ D.flatten.map Prod.fst : List Nat) + (r.handed h c G D U).handSkbs hand' =
      (r.frame h : Multiset Nat))
    (hmaps : U + (r.handed h c G D U).handMaps hand' = {(r.skb h).dma})
    (hwhole : ∀ f ∈ D, RxWhole f) : Custody n (r.handed h c G D U) hand' := by
  have hF := frameAt_none (r := r) (congrArg RxBuffer.skb hb)
  have hM := mapsAt_none (r := r) (congrArg RxBuffer.skb hb)
  refine hc.change hi rfl (fun _ _ => rfl) hF hM (frameAt_none (congrArg RxBuffer.skb hb))
    (mapsAt_none (congrArg RxBuffer.skb hb)) (fun x _ hx _ => ?_) (slotOk_empty hb) hhand
    (G := (G ++ D.flatten.map Prod.fst : List Nat)) ?_ rfl ?_ ?_ fun f hf => ?_
  · exact Function.update_of_ne (fun heq : x = h => hx (heq ▸ List.mem_cons_self)) ..
  · rw [gone, gone, List.flatten_append, List.map_append]
    simp only [← Multiset.coe_add]
    ac_rfl
  · rw [hskbs]
    rfl
  · rw [hmaps]
    rfl
  · rcases List.mem_append.mp hf with hf | hf
    · exact hc.whole f hf
    · exact hwhole f hf

/-- `append_cnt` of a frame in hand changes. -/
theorem Custody.append (hc : Custody n r (some h)) (hi : i < n) (hb : r.rxBuffer i = {})
    (a : RingSkb → UInt16) :
    Custody n (r.modify h fun c => { c with appendCnt := a c }) (some h) := by
  have hin := hc.inHand h rfl
  have heq : (r.modify h fun c => { c with appendCnt := a c }) =
      r.handed h { r.skb h with appendCnt := a (r.skb h) } [] [] [] := by
    simp [modify]
  rw [heq]
  obtain ⟨hself, hold⟩ := snapshot_handed (c := { r.skb h with appendCnt := a (r.skb h) })
    (G := []) (D := []) (U := []) hc
  refine hc.handed hi hb ?_ ?_ ?_ nofun
  · rintro _ ⟨⟩
    refine ⟨whole_handed hc rfl ⟨rfl, rfl, rfl⟩, ?_, fun t ht => ?_⟩
    · rw [hself]
      exact hin.single
    · rw [hself] at ht
      have hmerged := hin.merged t ht
      have hne : t ≠ h := fun heq => by
        rw [heq] at hmerged
        cases hmerged.symm.trans (heq ▸ ht)
      rw [show (r.handed h _ [] [] []).skb t = r.skb t from Function.update_of_ne hne ..]
      exact hmerged
  · simp [handSkbs, frame]
  · simp [handMaps]

theorem closeFragList_eq (hin : r.InHand h) (d : Option Nat) : ∃ b,
    ((r.unmap d).modify h fun c => { c with dma := none }).ixgbeCloseActiveFragList h =
      (b, r.handed h { r.skb h with dma := none, partner := none } [] [] [d]) := by
  cases hp : (r.skb h).partner with
  | none => exact ⟨false, by simp [ixgbeCloseActiveFragList, modify, unmap, hp]⟩
  | some t =>
    have ht := hin.merged t hp
    have hne : t ≠ h := fun heq => by rw [heq, hp] at ht; cases ht
    refine ⟨true, ?_⟩
    simp [ixgbeCloseActiveFragList, ixgbeMergeActiveTail, modify, unmap, hp, hne, ht]

/-- The frame in hand is freed or goes on. -/
theorem Custody.endFrame (hc : Custody n r (some h)) (hi : i < n) (hb : r.rxBuffer i = {})
    (err : Bool) (fate : RxFate) (p : RxPoll) : ∃ c G D U q,
      r.endFrame h err fate p = (r.handed h c G D U, q) ∧
      Custody n (r.handed h c G D U) none ∧ q.cleanedCount = p.cleanedCount := by
  obtain ⟨b, hclose⟩ := closeFragList_eq (hc.inHand h rfl) (r.skb h).dma
  obtain ⟨c, hcd⟩ : ∃ c : RingSkb, c = { r.skb h with dma := none, partner := none } := ⟨_, rfl⟩
  obtain ⟨d, hd⟩ : ∃ d, d = (r.skb h).dma := ⟨_, rfl⟩
  rw [← hcd, ← hd] at hclose
  have hwhole : RxWhole ((r.handed h c [] [] [d]).snapshot h) :=
    whole_handed hc (by rw [hcd]) (by rw [hcd]; exact ⟨rfl, rfl, rfl⟩)
  have hself : (r.handed h c [] [] [d]).skb h = c := (snapshot_handed hc).1
  have hframe : (r.handed h c [] [] [d]).frame h = r.frame h := by
    rw [frame, hself, hcd]
    rfl
  have hfree : (r.handed h c [] [] [d]).free h = r.handed h c (r.frame h) [] [d] := by
    rw [free, hframe]
    simp
  have hdeliver : (r.handed h c [] [] [d]).deliver h =
      r.handed h c [] [(r.handed h c [] [] [d]).snapshot h] [d] := by
    simp [deliver]
  have hfreed : Custody n (r.handed h c (r.frame h) [] [d]) none := by
    refine hc.handed hi hb nofun ?_ ?_ nofun
    · simp [handSkbs]
    · simp [handMaps, hd]
  have hgone : Custody n
      (r.handed h c [] [(r.handed h c [] [] [d]).snapshot h] [d]) none := by
    refine hc.handed hi hb nofun ?_ ?_ ?_
    · rw [← hframe]
      simp [handSkbs, snapshot, Function.comp_def]
    · simp [handMaps, hd]
    · rintro _ (_ | ⟨_, ⟨⟩⟩)
      exact hwhole
  rw [RxRing.endFrame, ← hd, hclose]
  dsimp only
  rw [hfree, hdeliver]
  split_ifs
  · exact ⟨_, _, _, _, _, rfl, hfreed, rfl⟩
  · exact ⟨_, _, _, _, _, rfl, hfreed, rfl⟩
  · cases fate with
    | ddp => exact ⟨_, _, _, _, _, rfl, hfreed, rfl⟩
    | wfs => exact ⟨_, _, _, _, _, rfl, hgone, rfl⟩
    | stack => exact ⟨_, _, _, _, _, rfl, hgone, rfl⟩

end Hand

/-- A turn of `ixgbe_clean_rx_ring`. -/
theorem Custody.cleanRxSlot (hc : Custody n r none) (hi : i < n) :
    Custody n (r.cleanRxSlot i) none ∧
      (r.cleanRxSlot i).rxBuffer = Function.update r.rxBuffer i {} ∧
      (r.cleanRxSlot i).poll = r.poll := by
  have hempty : Function.update r.rxBuffer i {} i = {} := Function.update_self ..
  have hclean : ∀ (f : Nat → RingSkb) (G : List Nat) (U : List (Option Nat)),
      (∀ x ∉ r.frameAt i, f x = r.skb x) → G = r.frameAt i → U = r.mapsAt i →
      Custody n { r with
        skb := f, freed := r.freed ++ G, unmapped := r.unmapped ++ U
        rxBuffer := Function.update r.rxBuffer i {} } none := fun f G U hf hG hU =>
    hc.change hi rfl (fun k hk => Function.update_of_ne hk ..) hG.symm hU.symm
      (frameAt_none (congrArg RxBuffer.skb hempty)) (mapsAt_none (congrArg RxBuffer.skb hempty))
      (fun x _ _ hx => hf x (hG ▸ hx)) (slotOk_empty hempty) nofun (gone_of_freed rfl rfl) rfl
      (by simp [handSkbs]) (by simp [handMaps]) hc.whole
  cases hs : (r.rxBuffer i).skb with
  | none =>
    have hdma := (slotOk_none hs).mp (hc.slots i hi)
    have heq : r.cleanRxSlot i = r.setBuffer i {} := by simp [RxRing.cleanRxSlot, hs, hdma]
    rw [heq]
    refine ⟨?_, rfl, rfl⟩
    have h := hclean r.skb [] [] (fun _ _ => rfl) (frameAt_none hs).symm (mapsAt_none hs).symm
    rw [List.append_nil, List.append_nil] at h
    exact h
  | some s =>
    have hheld := (slotOk_some hs).mp (hc.slots i hi)
    cases hp : (r.skb s).partner with
    | none =>
      obtain ⟨hskb, hF⟩ := hc.alone hi hs hp
      have heq : r.cleanRxSlot i = { r with
          skb := Function.update r.skb s {}, freed := r.freed ++ [s]
          unmapped := r.unmapped ++ [(r.rxBuffer i).dma]
          rxBuffer := Function.update r.rxBuffer i {} } := by
        simp [RxRing.cleanRxSlot, hs, ixgbeMergeActiveTail, ixgbeCloseActiveFragList, hskb, modify,
          free, frame, unmap, setBuffer, hheld.mapped]
      rw [heq]
      refine ⟨hclean _ [s] _ (fun x hx => ?_) hF.symm (mapsAt_single rfl hs hskb).symm, rfl, rfl⟩
      rw [hF, Multiset.mem_singleton] at hx
      exact Function.update_of_ne hx ..
    | some h =>
      obtain ⟨l, hl, hF, hne, hhl, hsl⟩ := hc.waiting hi hs hp
      obtain ⟨hback, -⟩ := hheld.linked h hp
      have hskb : r.skb s = { partner := some h } := by rw [hheld.fresh, hp]
      have heq : r.cleanRxSlot i = { r with
          skb := Function.update (Function.update r.skb s {}) h
            { r.skb h with dma := none, partner := none }
          freed := r.freed ++ h :: (l ++ [s])
          unmapped := r.unmapped ++ [(r.skb h).dma, (r.rxBuffer i).dma]
          rxBuffer := Function.update r.rxBuffer i {} } := by
        simp [RxRing.cleanRxSlot, hs, ixgbeMergeActiveTail, ixgbeCloseActiveFragList, hskb, modify,
          free, frame, unmap, setBuffer, hheld.mapped, hne, hne.symm, hback, hl]
        rw [Function.update_comm hne, Function.update_idem]
      rw [heq]
      refine ⟨hclean _ _ _ (fun x hx => ?_) hF.symm ?_, rfl, rfl⟩
      · have hxh : x ≠ h := fun heq => hx (hF ▸ heq ▸ List.mem_cons_self)
        have hxs : x ≠ s := fun heq => hx (hF ▸ by simp [heq])
        simp [hxh, hxs]
      · rw [mapsAt_some hs, hp]
        exact Multiset.cons_swap _ _ 0

/-- `ixgbe_clean_rx_ring` leaves nothing in the ring. -/
theorem Custody.cleanRxRing (hc : Custody n r none) :
    Custody n r.ixgbeCleanRxRing none ∧ (∀ i < n, r.ixgbeCleanRxRing.rxBuffer i = {}) ∧
      r.ixgbeCleanRxRing.poll = r.poll := by
  have hloop : ∀ k ≤ n, Custody n ((List.range k).foldl RxRing.cleanRxSlot r) none ∧
      (∀ i < k, ((List.range k).foldl RxRing.cleanRxSlot r).rxBuffer i = {}) ∧
      ((List.range k).foldl RxRing.cleanRxSlot r).poll = r.poll := by
    intro k
    induction k with
    | zero => exact fun _ => ⟨hc, fun i hi => absurd hi (Nat.not_lt_zero i), rfl⟩
    | succ k ih =>
      intro hk
      obtain ⟨hloop, hempty, hpoll⟩ := ih (by omega)
      obtain ⟨hclean, hbuf, hpoll'⟩ := hloop.cleanRxSlot (i := k) (by omega)
      rw [List.range_succ, List.foldl_append, List.foldl_cons, List.foldl_nil]
      refine ⟨hclean, fun i hi => ?_, hpoll'.trans hpoll⟩
      rw [hbuf]
      rcases Nat.lt_succ_iff_lt_or_eq.mp hi with hlt | rfl
      · rw [Function.update_of_ne (Nat.ne_of_lt hlt)]
        exact hempty i hlt
      · exact Function.update_self ..
  obtain ⟨h, hempty, hpoll⟩ := hloop n le_rfl
  rw [ixgbeCleanRxRing, hc.count]
  exact ⟨h.other, hempty, hpoll⟩

end RxRing

end VmkDrivers.Wfs
