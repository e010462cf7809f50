/-
  VmkDrivers.Vmklinux.CnaFilters

  The receive filters of a converged adapter are counted references to addresses.

  A slot is free if its count is 0, and its address is then zero.  That address is
  one that a caller may ask for, and it matches every free slot; `CNASetRxFilter`,
  which a creation and `vmklnx_cna_reinit_queues` call, does not look for the
  address in the other slots; a destruction counts down by one, and
  `vmklnx_cna_remove_macaddr` forgets a filter that the hardware did not remove
  (`filters_miscounted`).  Where nothing of this happens, and nowhere else, the
  slots are what the calls that have succeeded amount to (`filters_counted_iff`).
-/

import VmkDrivers.Lib.ExceptLoop
import VmkDrivers.Vmklinux.CnaControllers

namespace VmkDrivers.Vmklinux

open VmkDrivers.Lib

/-! ## The calls -/

namespace Cna

/-- `vmklnx_cna_set_macaddr` -/
def setMacaddr (answers : Answers) (cna : Cna) (macAddr : BitVec 48) :
    Except CnaFault (Bool × Cna) := do
  let cna ← cna.lock
  if cna.rqueue.filter.any (·.macAddr = macAddr) then
    -- every slot that matches is counted up
    return (true, { cna with
      rqueue := { cna.rqueue with
        filter := cna.rqueue.filter.map fun (f : RxFilterInfo) =>
          if f.macAddr = macAddr then { f with ref := f.ref + 1 } else f } }.unlock)
  else
    let (ok, cna) := setRxFilter answers cna macAddr
    return (ok, cna.unlock)

/-- The loop of `vmklnx_cna_remove_macaddr` from the index `findex` on, up to the first match. -/
def removeFilter (answers : Answers) (macAddress : BitVec 48) (findex : Nat) :
    List RxFilterInfo → Bool × List RxFilterInfo
  | [] => (false, [])
  | f :: fs =>
    if f.macAddr = macAddress then
      let f := { f with ref := f.ref - 1 }
      if f.ref = 0 then
        -- what `CNARemoveRxFilter` returns is not looked at
        let f := if answers.removeRxFilter findex then { f with applied := f.applied - 1 } else f
        (true, { f with macAddr := 0 } :: fs)
      else (true, f :: fs)
    else
      let (ok, rest) := removeFilter answers macAddress (findex + 1) fs
      (ok, f :: rest)

/-- `vmklnx_cna_remove_macaddr` -/
def removeMacaddr (answers : Answers) (cna : Cna) (macAddress : BitVec 48) :
    Except CnaFault (Bool × Cna) := do
  let cna ← cna.lock
  let (ok, filter) := removeFilter answers macAddress 0 cna.rqueue.filter
  return (ok, { cna with rqueue := { cna.rqueue with filter := filter } }.unlock)

def resetHardware (cna : Cna) : Cna :=
  { cna with
    rqueue := { cna.rqueue with
      filter := cna.rqueue.filter.map fun f => { f with applied := 0 } } }

/-- `vmklnx_cna_cleanup_queues`, which the driver calls for a reset -/
def cleanupQueues (answers : Answers) (cna : Cna) : Except CnaFault (Bool × Cna) :=
  clearProperties answers cna.resetHardware true

/-- `vmklnx_cna_reinit_queues` -/
def reinitQueues (answers : Answers) (cna : Cna) : Except CnaFault (Bool × Cna) :=
  initQueues answers cna cna.netdev.devAddr

end Cna

inductive FilterCall where
  | request (req : FcoeRequest)
  | setMacaddr (answers : Answers) (a : Nat) (macAddr : BitVec 48)
  | removeMacaddr (answers : Answers) (a : Nat) (macAddr : BitVec 48)
  | cleanupQueues (answers : Answers) (a : Nat)
  | reinitQueues (answers : Answers) (a : Nat)

def CnaState.adapterCall (s : CnaState) (a : Nat) (f : Cna → Except CnaFault (Bool × Cna)) :
    Except CnaFault (Bool × CnaState) :=
  (f (s.cnas a)).map fun (ok, cna) => (ok, s.set a cna)

def CnaState.filterCall (s : CnaState) : FilterCall → Except CnaFault (Bool × CnaState)
  | .request req => s.request req
  | .setMacaddr answers a macAddr => s.adapterCall a (Cna.setMacaddr answers · macAddr)
  | .removeMacaddr answers a macAddr => s.adapterCall a (Cna.removeMacaddr answers · macAddr)
  | .cleanupQueues answers a => s.adapterCall a (Cna.cleanupQueues answers)
  | .reinitQueues answers a => s.adapterCall a (Cna.reinitQueues answers)

/-! ## What is promised -/

abbrev MacRefs := BitVec 48 → Int

def MacRefs.add (refs : MacRefs) (mac : BitVec 48) (n : Int) : MacRefs :=
  Function.update refs mac (refs mac + n)

/-- What is left of the references to the addresses of an adapter when its filters are removed. -/
def Cna.refsLeft (answers : Answers) (cna : Cna) (refs : MacRefs) : MacRefs := fun mac =>
  if cna.rqueue.active ∧ ∃ f ∈ cna.rqueue.filter.zipIdx,
      f.1.macAddr = mac ∧ f.1.ref ≠ 0 ∧ answers.removeRxFilter f.2 = true then 0
  else refs mac

/-- The references behind a call that has returned `ok`: an address that is set has one more, one
    that is removed has one fewer, and those whose filter is torn down have none. -/
def CnaState.refsAfter (s : CnaState) (refs : Nat → MacRefs) (call : FilterCall) (ok : Bool) :
    Nat → MacRefs :=
  let add (a : Nat) (mac : BitVec 48) (n : Int) : Nat → MacRefs :=
    if ok then Function.update refs a ((refs a).add mac n) else refs
  match call with
  | .request (.create _ fcoeCntlr) =>
    match s.lookupByName fcoeCntlr.vmnicName with
    | some a => add a fcoeCntlr.macAddress 1
    | none => refs
  | .request (.destroy answers vmnicName vnports) =>
    match s.getVmklnxContlr vmnicName with
    | some contlr =>
      -- only the last port takes the queue down, and the references with it
      if vnports = 0 then
        Function.update refs contlr.cna
          ((s.cnas contlr.cna).refsLeft answers (refs contlr.cna))
      else refs
    | none => refs
  | .setMacaddr _ a macAddr => add a macAddr 1
  | .removeMacaddr _ a macAddr => add a macAddr (-1)
  | .cleanupQueues _ a => Function.update refs a fun _ => 0
  | .reinitQueues _ a => add a (s.cnas a).netdev.devAddr 1

structure RxFilterInfo.Counted (f : RxFilterInfo) (refs : MacRefs) : Prop where
  nonneg : 0 ≤ f.ref
  counted : f.ref = if f.macAddr = 0 then 0 else refs f.macAddr
  used : 0 < f.ref ↔ f.macAddr ≠ 0
  applied : f.applied = if 0 < f.ref then 1 else 0

structure FiltersCounted (fs : List RxFilterInfo) (refs : MacRefs) : Prop where
  slots : ∀ f ∈ fs, f.Counted refs
  unique : fs.Pairwise fun f g => f.macAddr = g.macAddr → f.macAddr = 0

structure FilterState where
  cna : CnaState
  refs : Nat → MacRefs := fun _ _ => 0

/-- In every adapter.  After a call that does not return there is nothing to hold. -/
def AllCounted : Except CnaFault FilterState → Prop
  | .error _ => True
  | .ok s => ∀ a, FiltersCounted (s.cna.cnas a).rqueue.filter (s.refs a)

def filterNext? (s : Except CnaFault FilterState) (call : FilterCall) :
    Option (Except CnaFault FilterState) :=
  match s with
  | .error _ => none
  | .ok s => some ((s.cna.filterCall call).map fun (ok, cna) =>
    ⟨cna, s.cna.refsAfter s.refs call ok⟩)

def FilterStep (s : Except CnaFault FilterState) (call : FilterCall)
    (t : Except CnaFault FilterState) : Prop :=
  filterNext? s call = some t

/-! ## The calls that do it -/

namespace Cna

def SetsFilter (answers : Answers) (cna : Cna) (mac : BitVec 48) : Prop :=
  answers.allocTx.isSome ∧ answers.allocRx.isSome ∧ mac ≠ 0 ∧
    (∃ f ∈ cna.rqueue.filter, f.ref = 0) ∧ answers.applyRxFilter.isSome

def Unknown (cna : Cna) (mac : BitVec 48) : Prop := ∀ f ∈ cna.rqueue.filter, f.macAddr ≠ mac

end Cna

open Cna

/-- The zero address is asked for only where no slot is free; the hardware removes the filter of an
    address that has its last reference removed; filters that are set in another way are set for an
    address that has none; the filters that a destruction removes have one reference; and where
    the queue is not active at a reset, there are no filters. -/
def FiltersCareful (s : Except CnaFault FilterState) (call : FilterCall) : Prop :=
  match s with
  | .error _ => True
  | .ok s =>
    match call with
    | .request (.create answers fcoeCntlr) =>
      ∀ p ∈ s.cna.setsProperties answers fcoeCntlr,
        vlanTagFails answers (s.cna.cnas p.1).netdev
          (BitVec.ofNat 16 (firstVlan 0 fcoeCntlr.vlan)) = false →
        (s.cna.cnas p.1).SetsFilter answers fcoeCntlr.macAddress →
        (s.cna.cnas p.1).Unknown fcoeCntlr.macAddress
    | .request (.destroy answers vmnicName vnports) =>
      ∀ contlr ∈ s.cna.getVmklnxContlr vmnicName, vnports = 0 →
        (s.cna.cnas contlr.cna).rqueue.active = true →
        ∀ f ∈ (s.cna.cnas contlr.cna).rqueue.filter.zipIdx,
          f.1.ref ≠ 0 → answers.removeRxFilter f.2 = true → f.1.ref = 1
    -- a free slot holds the zero address, which a request must not count up
    | .setMacaddr _ a macAddr => macAddr = 0 → (s.cna.cnas a).Unknown 0
    | .removeMacaddr answers a macAddr =>
      (macAddr = 0 → (s.cna.cnas a).Unknown 0) ∧
        -- the last reference goes only together with the filter
        ∀ f ∈ (s.cna.cnas a).rqueue.filter.zipIdx,
          f.1.macAddr = macAddr → f.1.ref = 1 → answers.removeRxFilter f.2 = true
    | .cleanupQueues _ a =>
      (s.cna.cnas a).rqueue.active = true ∨ ∀ f ∈ (s.cna.cnas a).rqueue.filter, f.ref = 0
    | .reinitQueues answers a =>
      (s.cna.cnas a).SetsFilter answers (s.cna.cnas a).netdev.devAddr →
        (s.cna.cnas a).Unknown (s.cna.cnas a).netdev.devAddr

instance (answers : Answers) (cna : Cna) (mac : BitVec 48) :
    Decidable (cna.SetsFilter answers mac) := by
  unfold Cna.SetsFilter
  infer_instance

instance (cna : Cna) (mac : BitVec 48) : Decidable (cna.Unknown mac) := by
  unfold Cna.Unknown
  infer_instance

instance (s : Except CnaFault FilterState) (call : FilterCall) :
    Decidable (FiltersCareful s call) := by
  unfold FiltersCareful
  split
  · infer_instance
  · split <;> infer_instance

/-! ## The slots -/

section Slots

variable {answers : Answers} {f g : RxFilterInfo} {fs pre post : List RxFilterInfo}
  {refs refs' : MacRefs} {mac : BitVec 48} {findex fid : Nat}

theorem MacRefs.add_self (refs : MacRefs) (mac : BitVec 48) (n : Int) :
    refs.add mac n mac = refs mac + n :=
  Function.update_self _ _ _

theorem MacRefs.add_of_ne {mac' : BitVec 48} (refs : MacRefs) (n : Int) (hne : mac' ≠ mac) :
    refs.add mac n mac' = refs mac' :=
  Function.update_of_ne hne _ _

namespace RxFilterInfo.Counted

theorem free_iff (h : f.Counted refs) : f.ref = 0 ↔ f.macAddr = 0 := by
  have hnonneg := h.nonneg
  rw [← not_iff_not, ← ne_eq f.macAddr, ← h.used]
  omega

theorem ref_eq (h : f.Counted refs) (hmac : f.macAddr ≠ 0) : f.ref = refs f.macAddr := by
  rw [h.counted, if_neg hmac]

theorem of_free (href : f.ref = 0) (hmac : f.macAddr = 0) (happlied : f.applied = 0) :
    f.Counted refs where
  nonneg := by omega
  counted := by rw [href, if_pos hmac]
  used := by simp [href, hmac]
  applied := by simp [href, happlied]

theorem of_used (hpos : 0 < f.ref) (hmac : f.macAddr ≠ 0) (href : f.ref = refs f.macAddr)
    (happlied : f.applied = 1) : f.Counted refs where
  nonneg := by omega
  counted := by rw [if_neg hmac, href]
  used := iff_of_true hpos hmac
  applied := by rw [if_pos hpos, happlied]

theorem congr (h : f.Counted refs) (hrefs : f.macAddr ≠ 0 → refs' f.macAddr = refs f.macAddr) :
    f.Counted refs' := by
  refine ⟨h.nonneg, ?_, h.used, h.applied⟩
  rw [h.counted]
  split
  · rfl
  · next hmac => rw [hrefs hmac]

end RxFilterInfo.Counted

theorem mem_slots {k : RxFilterInfo} : k ∈ pre ++ f :: post ↔ k = f ∨ k ∈ pre ++ post :=
  List.perm_middle.mem_iff.trans List.mem_cons

theorem FiltersCounted.replace (h : FiltersCounted (pre ++ f :: post) refs)
    (hslot : g.Counted refs')
    (hrefs : ∀ k ∈ pre ++ post, k.macAddr ≠ 0 → refs' k.macAddr = refs k.macAddr)
    (hother : ∀ k ∈ pre ++ post, k.macAddr = g.macAddr → g.macAddr = 0) :
    FiltersCounted (pre ++ g :: post) refs' := by
  have hkept : ∀ k ∈ pre ++ post, k.Counted refs' := by
    intro k hk
    exact (h.slots k (mem_slots.mpr (.inr hk))).congr (hrefs k hk)
  have hunique := h.unique
  rw [List.pairwise_append, List.pairwise_cons] at hunique
  obtain ⟨hpre, ⟨-, hpost⟩, hacross⟩ := hunique
  constructor
  · intro k hk
    rcases mem_slots.mp hk with rfl | hk
    · exact hslot
    · exact hkept k hk
  · rw [List.pairwise_append, List.pairwise_cons]
    refine ⟨hpre, ⟨?_, hpost⟩, ?_⟩
    · intro k hk heq
      exact hother k (List.mem_append_right _ hk) heq.symm
    · intro k hk k' hk' heq
      rcases List.mem_cons.mp hk' with rfl | hk'
      · rw [heq]
        exact hother k (List.mem_append_left _ hk) heq
      · exact hacross k hk k' (List.mem_cons_of_mem _ hk') heq

theorem FiltersCounted.others (h : FiltersCounted (pre ++ f :: post) refs) (hmac : f.macAddr ≠ 0) :
    ∀ k ∈ pre ++ post, k.macAddr ≠ f.macAddr := by
  have hunique := h.unique
  rw [List.pairwise_append, List.pairwise_cons] at hunique
  obtain ⟨-, ⟨hpost, -⟩, hacross⟩ := hunique
  intro k hk heq
  rcases List.mem_append.mp hk with hk | hk
  · exact hmac (heq ▸ hacross k hk f List.mem_cons_self heq)
  · exact hmac (hpost k hk heq.symm)

theorem modify_of_findIdx? {p : RxFilterInfo → Bool} (hfind : fs.findIdx? p = some findex) :
    ∃ pre f post, fs = pre ++ f :: post ∧ p f = true ∧
      ∀ k : RxFilterInfo → RxFilterInfo, fs.modify findex k = pre ++ k f :: post := by
  induction fs generalizing findex with
  | nil => simp at hfind
  | cons f fs ih =>
    rw [List.findIdx?_cons] at hfind
    cases hp : p f with
    | true =>
      rw [hp] at hfind
      obtain rfl : 0 = findex := by simpa using hfind
      exact ⟨[], f, fs, rfl, hp, fun k => List.modify_zero_cons _ _ _⟩
    | false =>
      rw [hp] at hfind
      obtain ⟨i, hi, rfl⟩ : ∃ i, fs.findIdx? p = some i ∧ i + 1 = findex := by simpa using hfind
      obtain ⟨pre, g, post, rfl, hg, hmodify⟩ := ih hi
      exact ⟨f :: pre, g, post, rfl, hg, fun k => by rw [List.modify_succ_cons, hmodify]; rfl⟩

theorem FiltersCounted.fill (h : FiltersCounted fs refs) (fid : Nat)
    (hfind : fs.findIdx? (·.ref = 0) = some findex) (hmac : mac ≠ 0)
    (habsent : (∀ k ∈ fs, k.macAddr ≠ mac) → refs mac = 0) :
    FiltersCounted (fs.modify findex fun f => ⟨fid, f.ref + 1, mac, f.applied + 1⟩)
      (refs.add mac 1) ↔ ∀ k ∈ fs, k.macAddr ≠ mac := by
  obtain ⟨pre, f, post, rfl, hp, hmodify⟩ := modify_of_findIdx? hfind
  have hf := h.slots f (List.mem_append_right _ List.mem_cons_self)
  have href : f.ref = 0 := of_decide_eq_true hp
  have hzero : f.macAddr = 0 := hf.free_iff.mp href
  have happlied : f.applied = 0 := by
    rw [hf.applied, href]
    rfl
  rw [hmodify, href, happlied]
  constructor
  · intro hcounted k hk heq
    have hne : k.macAddr ≠ mac := by
      rcases mem_slots.mp hk with rfl | hk
      · rw [hzero]
        exact hmac.symm
      · exact hcounted.others hmac k hk
    exact hne heq
  · intro hnew
    have hothers : ∀ k ∈ pre ++ post, k.macAddr ≠ mac := by
      intro k hk
      exact hnew k (mem_slots.mpr (.inr hk))
    apply h.replace
    · apply RxFilterInfo.Counted.of_used _ hmac
      · simp [MacRefs.add_self, habsent hnew]
      · rfl
      · simp
    · intro k hk _
      exact refs.add_of_ne 1 (hothers k hk)
    · intro k hk heq
      exact absurd heq (hothers k hk)

theorem FiltersCounted.countUp (h : FiltersCounted fs refs) (hmatch : ∃ f ∈ fs, f.macAddr = mac) :
    FiltersCounted (fs.map fun f => if f.macAddr = mac then { f with ref := f.ref + 1 } else f)
      (refs.add mac 1) ↔ mac ≠ 0 := by
  constructor
  · intro hcounted hmac
    obtain ⟨f, hf, hfmac⟩ := hmatch
    have hup := hcounted.slots _ (List.mem_map_of_mem hf)
    rw [if_pos hfmac] at hup
    -- the slots that match the zero address are the free ones
    have hzero : f.macAddr = 0 := hfmac.trans hmac
    have hbefore := (h.slots f hf).free_iff.mpr hzero
    have hafter : f.ref + 1 = 0 := hup.free_iff.mpr hzero
    omega
  · intro hmac
    constructor
    · intro g hg
      obtain ⟨f, hf, rfl⟩ := List.mem_map.mp hg
      have hcounted := h.slots f hf
      split
      · next hfmac =>
        have hne : f.macAddr ≠ 0 := hfmac.symm ▸ hmac
        have hpos : 0 < f.ref := hcounted.used.mpr hne
        refine RxFilterInfo.Counted.of_used (f := { f with ref := f.ref + 1 }) ?_ hne ?_ ?_
        · show 0 < f.ref + 1
          omega
        · show f.ref + 1 = refs.add mac 1 f.macAddr
          rw [hfmac, MacRefs.add_self, ← hfmac, hcounted.ref_eq hne]
        · show f.applied = 1
          rw [hcounted.applied, if_pos hpos]
      · next hfmac => exact hcounted.congr fun _ => refs.add_of_ne 1 hfmac
    · rw [List.pairwise_map]
      apply h.unique.imp
      intro f g hfg
      have hmacs : ∀ f : RxFilterInfo, (if f.macAddr = mac then { f with ref := f.ref + 1 }
          else f).macAddr = f.macAddr := by
        intro f
        split <;> rfl
      rw [hmacs, hmacs]
      exact hfg

/-- What `vmklnx_cna_remove_macaddr` makes of the first slot that matches. -/
def dropSlot (answers : Answers) (findex : Nat) (f : RxFilterInfo) : RxFilterInfo :=
  if f.ref - 1 = 0 then
    { f with
      ref := f.ref - 1
      macAddr := 0
      applied := if answers.removeRxFilter findex then f.applied - 1 else f.applied }
  else { f with ref := f.ref - 1 }

theorem removeFilter_spec (answers : Answers) (mac : BitVec 48) (k : Nat) (fs : List RxFilterInfo) :
    ((∀ f ∈ fs, f.macAddr ≠ mac) ∧ removeFilter answers mac k fs = (false, fs)) ∨
    ∃ pre f post, fs = pre ++ f :: post ∧ f.macAddr = mac ∧
      removeFilter answers mac k fs =
        (true, pre ++ dropSlot answers (k + pre.length) f :: post) := by
  induction fs generalizing k with
  | nil => exact .inl ⟨nofun, rfl⟩
  | cons f fs ih =>
    rw [removeFilter]
    by_cases hmac : f.macAddr = mac
    · refine .inr ⟨[], f, fs, rfl, hmac, ?_⟩
      rw [if_pos hmac]
      by_cases hlast : f.ref - 1 = 0
      · cases hremoved : answers.removeRxFilter k <;> simp [dropSlot, hlast, hremoved]
      · simp [dropSlot, hlast]
    · rw [if_neg hmac]
      rcases ih (k + 1) with ⟨hnone, hrest⟩ | ⟨pre, g, post, rfl, hg, hrest⟩
      · refine .inl ⟨List.forall_mem_cons.mpr ⟨hmac, hnone⟩, ?_⟩
        rw [hrest]
      · refine .inr ⟨f :: pre, g, post, rfl, hg, ?_⟩
        rw [hrest, List.length_cons, Nat.add_right_comm, Nat.add_assoc]
        rfl

theorem FiltersCounted.drop (h : FiltersCounted (pre ++ f :: post) refs) (answers : Answers)
    (findex : Nat) :
    FiltersCounted (pre ++ dropSlot answers findex f :: post) (refs.add f.macAddr (-1)) ↔
      f.macAddr ≠ 0 ∧ (f.ref = 1 → answers.removeRxFilter findex = true) := by
  have hf := h.slots f (List.mem_append_right _ List.mem_cons_self)
  constructor
  · intro hcounted
    have hdrop := hcounted.slots _ (List.mem_append_right _ List.mem_cons_self)
    have hne : f.macAddr ≠ 0 := by
      intro hzero
      have href := hf.free_iff.mpr hzero
      -- a free slot is counted down to -1
      have hnonneg := hdrop.nonneg
      simp [dropSlot, href] at hnonneg
    refine ⟨hne, fun hlast => ?_⟩
    by_contra hkept
    have happlied := hdrop.applied
    have hone : f.applied = 1 := by rw [hf.applied, if_pos (by omega)]
    simp [dropSlot, hlast, hkept, hone] at happlied
  · rintro ⟨hne, hremoved⟩
    have hpos : 0 < f.ref := hf.used.mpr hne
    have hone : f.applied = 1 := by rw [hf.applied, if_pos hpos]
    apply h.replace
    · rw [dropSlot]
      split
      · next hlast =>
        apply RxFilterInfo.Counted.of_free hlast rfl
        rw [if_pos (hremoved (by omega)), hone]
      · next hmore =>
        refine RxFilterInfo.Counted.of_used (f := { f with ref := f.ref - 1 }) ?_ hne ?_ hone
        · show 0 < f.ref - 1
          omega
        · show f.ref - 1 = refs.add f.macAddr (-1) f.macAddr
          rw [MacRefs.add_self, hf.ref_eq hne, Int.sub_eq_add_neg]
    · intro k hk _
      exact refs.add_of_ne _ (h.others hne k hk)
    · intro k hk heq
      rw [dropSlot] at heq ⊢
      split
      · rfl
      · next hmore =>
        rw [if_neg hmore] at heq
        exact absurd heq (h.others hne k hk)

/-- What `CNAClearRxFilter` makes of one slot. -/
def clearSlot (answers : Answers) (isReset : Bool) (p : RxFilterInfo × Nat) : RxFilterInfo :=
  if p.1.ref = 0 then p.1
  else if isReset then { p.1 with ref := 0, macAddr := 0 }
  else if answers.removeRxFilter p.2 = false then p.1
  else { p.1 with ref := p.1.ref - 1, macAddr := 0, applied := p.1.applied - 1 }

theorem clearFilters_eq (answers : Answers) (isReset : Bool) (k : Nat) (fs : List RxFilterInfo) :
    (clearFilters answers isReset k fs).2 = (fs.zipIdx k).map (clearSlot answers isReset) := by
  induction fs generalizing k with
  | nil => rfl
  | cons f fs ih =>
    rw [clearFilters, List.zipIdx_cons, List.map_cons, ← ih (k + 1), clearSlot]
    rcases clearFilters answers isReset (k + 1) fs with ⟨ok, rest⟩
    by_cases hfree : f.ref = 0
    · simp [hfree]
    · cases isReset with
      | true => simp [hfree]
      | false => cases hremoved : answers.removeRxFilter k <;> simp [hfree]

theorem FiltersCounted.tearDown (h : FiltersCounted fs refs) (answers : Answers) (refs' : MacRefs)
    (hrefs : ∀ f ∈ fs, f.macAddr ≠ 0 → refs' f.macAddr =
      if ∃ g ∈ fs.zipIdx, g.1.macAddr = f.macAddr ∧ g.1.ref ≠ 0 ∧ answers.removeRxFilter g.2 = true
      then 0 else refs f.macAddr) :
    FiltersCounted (fs.zipIdx.map (clearSlot answers false)) refs' ↔
      ∀ f ∈ fs.zipIdx, f.1.ref ≠ 0 → answers.removeRxFilter f.2 = true → f.1.ref = 1 := by
  have hmem : ∀ p ∈ fs.zipIdx, p.1 ∈ fs := fun p hp => List.fst_mem_of_mem_zipIdx hp
  have hunique : fs.zipIdx.Pairwise fun p q => p.1.macAddr = q.1.macAddr → p.1.macAddr = 0 := by
    have hmap := h.unique
    rw [← List.zipIdx_map_fst 0 fs] at hmap
    exact List.pairwise_map.mp hmap
  have hsymm : Std.Symm fun p q : RxFilterInfo × Nat =>
      p.1.macAddr = q.1.macAddr → p.1.macAddr = 0 :=
    ⟨fun p q hpq heq => by rw [heq]; exact hpq heq.symm⟩
  constructor
  · intro hcounted p hp hused hremoved
    have hcleared := hcounted.slots _ (List.mem_map_of_mem hp)
    rw [clearSlot, if_neg hused, if_neg Bool.false_ne_true, hremoved] at hcleared
    have hzero : p.1.ref - 1 = 0 := hcleared.free_iff.mpr rfl
    omega
  · intro hone
    constructor
    · intro g hg
      obtain ⟨p, hp, rfl⟩ := List.mem_map.mp hg
      have hcounted := h.slots _ (hmem p hp)
      rw [clearSlot, if_neg Bool.false_ne_true]
      split
      · next hfree => exact hcounted.congr fun hne => absurd (hcounted.free_iff.mp hfree) hne
      · next hused =>
        split
        · next hkept =>
          apply hcounted.congr
          intro hne
          rw [hrefs _ (hmem p hp) hne, if_neg]
          rintro ⟨q, hq, hmac, -, hremoved⟩
          -- the slot of the address is this one
          have heq : q = p := by
            by_contra hdiffer
            have hzero := hunique.forall hq hp hdiffer hmac
            exact hne (hmac.symm.trans hzero)
          rw [heq, hkept] at hremoved
          cases hremoved
        · next hremoved =>
          have hlast := hone p hp hused (Bool.not_eq_false _ ▸ hremoved)
          apply RxFilterInfo.Counted.of_free
          · show p.1.ref - 1 = 0
            omega
          · rfl
          · show p.1.applied - 1 = 0
            rw [hcounted.applied, if_pos (by omega)]
    · rw [List.pairwise_map]
      apply hunique.imp
      intro p q hpq heq
      have hmacs : ∀ p : RxFilterInfo × Nat, (clearSlot answers false p).macAddr = p.1.macAddr ∨
          (clearSlot answers false p).macAddr = 0 := by
        intro p
        unfold clearSlot
        split
        · exact .inl rfl
        · split
          · exact .inr rfl
          · split
            · exact .inl rfl
            · exact .inr rfl
      rcases hmacs p with hp | hp
      · rcases hmacs q with hq | hq
        · rw [hp]
          exact hpq (hp.symm.trans (heq.trans hq))
        · rw [heq, hq]
      · exact hp

end Slots

/-! ## One adapter -/

/-- The slots are counted, the lock is free, and an address that is in no slot has no references. -/
structure FilterInv (cna : Cna) (refs : MacRefs) : Prop where
  unlocked : cna.locked = false
  counted : FiltersCounted cna.rqueue.filter refs
  absent : ∀ mac, mac ≠ 0 → cna.Unknown mac → refs mac = 0

/-- A call that returns leaves the slots counted just if it meets the guard. -/
structure CallSpec (call : Except CnaFault (Bool × Cna)) (refs : Bool → MacRefs) (guard : Prop) :
    Prop where
  fails : ∀ fault, call = .error fault → guard
  keeps : ∀ ok cna, call = .ok (ok, cna) → guard → FilterInv cna (refs ok)
  needs : ∀ ok cna, call = .ok (ok, cna) → FiltersCounted cna.rqueue.filter (refs ok) → guard

open CallSpec

section Adapter

variable {answers : Answers} {cna : Cna} {refs : MacRefs} {mac : BitVec 48}
  {call : Except CnaFault (Bool × Cna)} {ok : Bool}

theorem CallSpec.of_ok {refs : Bool → MacRefs} {guard : Prop} (hcall : call = .ok (ok, cna))
    (hkeeps : guard → FilterInv cna (refs ok))
    (hneeds : FiltersCounted cna.rqueue.filter (refs ok) → guard) : CallSpec call refs guard where
  fails fault herror := by
    rw [hcall] at herror
    cases herror
  keeps ok' cna' hcall' hguard := by
    obtain ⟨rfl, rfl⟩ := Prod.mk.inj (Except.ok.inj (hcall.symm.trans hcall'))
    exact hkeeps hguard
  needs ok' cna' hcall' hcounted := by
    obtain ⟨rfl, rfl⟩ := Prod.mk.inj (Except.ok.inj (hcall.symm.trans hcall'))
    exact hneeds hcounted

theorem CallSpec.of_same {refsAfter : Bool → MacRefs} {guard : Prop} {cna' : Cna}
    (h : FilterInv cna refs) (hcall : call = .ok (ok, cna')) (hunlocked : cna'.locked = false)
    (hfilter : cna'.rqueue.filter = cna.rqueue.filter) (hrefs : refsAfter ok = refs)
    (hguard : guard) : CallSpec call refsAfter guard := by
  apply of_ok hcall _ fun _ => hguard
  rw [hrefs]
  intro _
  refine ⟨hunlocked, ?_, ?_⟩
  · rw [hfilter]
    exact h.counted
  · intro mac hmac hunknown
    apply h.absent mac hmac
    rw [Cna.Unknown, hfilter] at hunknown
    exact hunknown

/-- The references behind a call that adds `n` to those of an address if it succeeds. -/
def MacRefs.addIf (refs : MacRefs) (mac : BitVec 48) (n : Int) (ok : Bool) : MacRefs :=
  if ok then refs.add mac n else refs

theorem FilterInv.fill {findex fid : Nat} (h : FilterInv cna refs) (cna' : Cna) (hmac : mac ≠ 0)
    (hfind : cna.rqueue.filter.findIdx? (·.ref = 0) = some findex)
    (hunlocked : cna'.locked = false) (hfilter : cna'.rqueue.filter =
      cna.rqueue.filter.modify findex fun f => ⟨fid, f.ref + 1, mac, f.applied + 1⟩) :
    (cna.Unknown mac → FilterInv cna' (refs.add mac 1)) ∧
      (FiltersCounted cna'.rqueue.filter (refs.add mac 1) → cna.Unknown mac) := by
  have hfill := h.counted.fill fid hfind hmac (h.absent mac hmac)
  rw [← hfilter] at hfill
  refine ⟨fun hunknown => ⟨hunlocked, hfill.mpr hunknown, ?_⟩, hfill.mp⟩
  intro mac' hmac' hunknown'
  obtain ⟨pre, f, post, hfs, hfree, hmodify⟩ := modify_of_findIdx? hfind
  rw [Cna.Unknown, hfilter, hmodify] at hunknown'
  have hne : mac' ≠ mac := by
    intro heq
    exact hunknown' _ (List.mem_append_right _ List.mem_cons_self) heq.symm
  rw [refs.add_of_ne 1 hne]
  apply h.absent mac' hmac'
  intro k hk
  rw [hfs] at hk
  rcases mem_slots.mp hk with rfl | hk
  · -- the slot was free
    have hcounted := h.counted.slots k (hfs ▸ List.mem_append_right _ List.mem_cons_self)
    rw [hcounted.free_iff.mp (of_decide_eq_true hfree)]
    exact hmac'.symm
  · exact hunknown' k (mem_slots.mpr (.inr hk))

theorem setRxFilter_cases (answers : Answers) (cna : Cna) (mac : BitVec 48) :
    setRxFilter answers cna mac = (false, cna) ∨
    ∃ findex fid, mac ≠ 0 ∧ cna.rqueue.filter.findIdx? (·.ref = 0) = some findex ∧
      setRxFilter answers cna mac = (true, { cna with
        rqueue := { cna.rqueue with
          filter := cna.rqueue.filter.modify findex fun f =>
            ⟨fid, f.ref + 1, mac, f.applied + 1⟩ } }) := by
  rw [setRxFilter, getFreeRxIndices]
  by_cases hmac : mac = 0
  · rw [if_pos hmac]
    exact .inl rfl
  rw [if_neg hmac]
  cases hactive : cna.rqueue.active with
  | false => exact .inl rfl
  | true =>
  cases hfind : cna.rqueue.filter.findIdx? (·.ref = 0) with
  | none => exact .inl rfl
  | some findex =>
  cases hfid : answers.applyRxFilter with
  | none => exact .inl rfl
  | some fid => exact .inr ⟨findex, fid, hmac, rfl, rfl⟩

theorem setMacaddr_spec (h : FilterInv cna refs) (answers : Answers) (mac : BitVec 48) :
    CallSpec (Cna.setMacaddr answers cna mac) (refs.addIf mac 1) (mac = 0 → cna.Unknown 0) := by
  rw [Cna.setMacaddr, lock_of_unlocked h.unlocked, ok_bind]
  by_cases hmatch : ∃ f ∈ cna.rqueue.filter, f.macAddr = mac
  · have hany : cna.rqueue.filter.any (·.macAddr = mac) = true := by simpa using hmatch
    simp only [hany, if_true]
    -- the address is in a slot, so the zero address is not unknown
    have hguard : (mac = 0 → cna.Unknown 0) ↔ mac ≠ 0 := by
      constructor
      · rintro hguard rfl
        obtain ⟨f, hf, hfmac⟩ := hmatch
        exact hguard rfl f hf hfmac
      · exact fun hne hmac => absurd hmac hne
    have hup := h.counted.countUp hmatch
    rw [hguard]
    apply of_ok rfl
    · intro hne
      refine ⟨rfl, hup.mpr hne, ?_⟩
      intro mac' hmac' hunknown'
      have hold : cna.Unknown mac' := by
        intro f hf heq
        apply hunknown' _ (List.mem_map_of_mem hf)
        split
        · exact heq
        · exact heq
      have hother : mac' ≠ mac := by
        rintro rfl
        obtain ⟨f, hf, hfmac⟩ := hmatch
        exact hold f hf hfmac
      exact (refs.add_of_ne 1 hother).trans (h.absent mac' hmac' hold)
    · exact hup.mp
  · have hunknown : cna.Unknown mac := fun f hf heq => hmatch ⟨f, hf, heq⟩
    have hany : cna.rqueue.filter.any (·.macAddr = mac) = false := by
      simpa [Cna.Unknown] using hunknown
    simp only [hany, Bool.false_eq_true, if_false]
    have hguard : mac = 0 → cna.Unknown 0 := fun hmac => hmac ▸ hunknown
    rcases setRxFilter_cases answers { cna with locked := true } mac with hset |
      ⟨findex, fid, hmac, hfind, hset⟩
    · rw [hset]
      exact of_same h rfl rfl rfl rfl hguard
    · rw [hset]
      obtain ⟨hkeeps, -⟩ := h.fill { cna with
        locked := false
        rqueue := { cna.rqueue with
          filter := cna.rqueue.filter.modify findex fun f =>
            ⟨fid, f.ref + 1, mac, f.applied + 1⟩ } } hmac hfind rfl rfl
      exact of_ok rfl (fun _ => hkeeps hunknown) fun _ => hguard

theorem removeMacaddr_spec (h : FilterInv cna refs) (answers : Answers) (mac : BitVec 48) :
    CallSpec (Cna.removeMacaddr answers cna mac) (refs.addIf mac (-1))
      ((mac = 0 → cna.Unknown 0) ∧ ∀ f ∈ cna.rqueue.filter.zipIdx,
        f.1.macAddr = mac → f.1.ref = 1 → answers.removeRxFilter f.2 = true) := by
  rw [Cna.removeMacaddr, lock_of_unlocked h.unlocked, ok_bind]
  rcases removeFilter_spec answers mac 0 cna.rqueue.filter with ⟨hnone, hremove⟩ |
    ⟨pre, f, post, hfs, rfl, hremove⟩
  · simp only [hremove]
    have hguard : (mac = 0 → cna.Unknown 0) ∧ ∀ f ∈ cna.rqueue.filter.zipIdx,
        f.1.macAddr = mac → f.1.ref = 1 → answers.removeRxFilter f.2 = true := by
      refine ⟨fun hmac => hmac ▸ hnone, ?_⟩
      intro f hf hfmac
      exact absurd hfmac (hnone f.1 (List.fst_mem_of_mem_zipIdx hf))
    exact of_same h rfl rfl rfl rfl hguard
  · simp only [hremove, Nat.zero_add]
    have hcounted : FiltersCounted (pre ++ f :: post) refs := hfs ▸ h.counted
    have hdrop := hcounted.drop answers pre.length
    have hf : f ∈ cna.rqueue.filter := hfs ▸ List.mem_append_right _ List.mem_cons_self
    have hindex : (f, pre.length) ∈ cna.rqueue.filter.zipIdx := by
      rw [List.mem_zipIdx_iff_getElem?, hfs]
      simp
    have hguard : ((f.macAddr = 0 → cna.Unknown 0) ∧ ∀ g ∈ cna.rqueue.filter.zipIdx,
        g.1.macAddr = f.macAddr → g.1.ref = 1 → answers.removeRxFilter g.2 = true) ↔
        f.macAddr ≠ 0 ∧ (f.ref = 1 → answers.removeRxFilter pre.length = true) := by
      constructor
      · rintro ⟨hzero, hlast⟩
        exact ⟨fun hmac => hzero hmac f hf hmac, hlast _ hindex rfl⟩
      · rintro ⟨hne, hlast⟩
        refine ⟨fun hmac => absurd hmac hne, ?_⟩
        rintro ⟨g, i⟩ hg hgmac hgref
        -- the address is in one slot only
        have hsame : i = pre.length := by
          rw [List.mem_zipIdx_iff_getElem?, hfs] at hg
          by_contra hi
          have hother : g ∈ pre ++ post := by
            rcases Nat.lt_or_gt_of_ne hi with hlt | hgt
            · rw [List.getElem?_append_left hlt] at hg
              exact List.mem_append_left _ (List.mem_of_getElem? hg)
            · rw [List.getElem?_append_right (by omega), List.getElem?_cons] at hg
              rw [if_neg (by omega)] at hg
              exact List.mem_append_right _ (List.mem_of_getElem? hg)
          exact hcounted.others hne g hother hgmac
        have hfg : g = f := by
          rw [List.mem_zipIdx_iff_getElem?, hsame, hfs] at hg
          simpa using hg.symm
        rw [hsame]
        rw [hfg] at hgref
        exact hlast hgref
    rw [hguard]
    apply of_ok rfl
    · intro hgood
      refine ⟨rfl, hdrop.mpr hgood, ?_⟩
      intro mac' hmac' hunknown'
      show refs.add f.macAddr (-1) mac' = 0
      by_cases heq : mac' = f.macAddr
      · -- the slot has lost its last reference
        rw [heq, MacRefs.add_self]
        have hslot := hcounted.slots f (List.mem_append_right _ List.mem_cons_self)
        have hgone : f.ref - 1 = 0 := by
          by_contra hmore
          apply hunknown' _ (List.mem_append_right _ List.mem_cons_self)
          rw [dropSlot, if_neg hmore]
          exact heq.symm
        rw [← hslot.ref_eq hgood.1]
        exact hgone
      · rw [refs.add_of_ne _ heq]
        apply h.absent mac' hmac'
        intro k hk
        rw [hfs] at hk
        rcases mem_slots.mp hk with rfl | hk
        · exact fun hk => heq hk.symm
        · exact hunknown' k (mem_slots.mpr (.inr hk))
    · exact hdrop.mp

theorem clearRxFilter_spec (answers : Answers) (cna : Cna) (hunlocked : cna.locked = false)
    (isReset : Bool) :
    ∃ ok, clearRxFilter answers cna isReset = .ok (ok, { cna with
      rqueue := { cna.rqueue with
        filter := if cna.rqueue.active then cna.rqueue.filter.zipIdx.map (clearSlot answers isReset)
          else cna.rqueue.filter } }) := by
  rw [clearRxFilter, lock_of_unlocked hunlocked, ok_bind]
  have hfilters := clearFilters_eq answers isReset 0 cna.rqueue.filter
  obtain ⟨dev, locked, tqueue, ⟨rid, filter, active⟩, vlan, prio, handler, handle⟩ := cna
  obtain rfl : locked = false := hunlocked
  cases active with
  | false => exact ⟨true, rfl⟩
  | true =>
    rcases hcleared : clearFilters answers isReset 0 filter with ⟨ok, rest⟩
    rw [hcleared] at hfilters
    refine ⟨ok, ?_⟩
    simp only [if_true, ← hfilters]
    rfl

theorem clearProperties_filters (answers : Answers) (cna : Cna) (hunlocked : cna.locked = false)
    (isReset : Bool) :
    ∃ ok tqueue rqueue, clearProperties answers cna isReset =
        .ok (ok, { cna with tqueue := tqueue, rqueue := rqueue }) ∧
      rqueue.filter =
        if cna.rqueue.active then cna.rqueue.filter.zipIdx.map (clearSlot answers isReset)
        else cna.rqueue.filter := by
  obtain ⟨ok, hclear⟩ := clearRxFilter_spec answers cna hunlocked isReset
  rw [clearProperties, hclear, ok_bind]
  by_cases hfailed : ok = false ∧ isReset = false
  · simp only [hfailed]
    exact ⟨false, cna.tqueue, _, rfl, rfl⟩
  · simp only [hfailed, if_false]
    obtain ⟨ok', tqueue, active, hfree⟩ := freeTxRxQueue_queues answers { cna with
      rqueue := { cna.rqueue with
        filter := if cna.rqueue.active then cna.rqueue.filter.zipIdx.map (clearSlot answers isReset)
          else cna.rqueue.filter } } hunlocked isReset
    exact ⟨ok', tqueue, _, hfree, rfl⟩

theorem FilterInv.of_free (hunlocked : cna.locked = false)
    (hfree : ∀ f ∈ cna.rqueue.filter, f.ref = 0 ∧ f.macAddr = 0 ∧ f.applied = 0) :
    FilterInv cna fun _ => 0 where
  unlocked := hunlocked
  counted := by
    constructor
    · intro f hf
      obtain ⟨href, hmac, happlied⟩ := hfree f hf
      exact RxFilterInfo.Counted.of_free href hmac happlied
    · apply List.Pairwise.imp_of_mem (R := fun _ _ => True)
      · intro f g hf _ _ _
        exact (hfree f hf).2.1
      · exact List.pairwise_of_forall fun _ _ => trivial
  absent _ _ _ := rfl

theorem cleanupQueues_spec (h : FilterInv cna refs) (answers : Answers) :
    CallSpec (Cna.cleanupQueues answers cna) (fun _ _ => 0)
      (cna.rqueue.active = true ∨ ∀ f ∈ cna.rqueue.filter, f.ref = 0) := by
  obtain ⟨ok, tqueue, rqueue, hcall, hfilter⟩ :=
    clearProperties_filters answers cna.resetHardware h.unlocked true
  have hactive : cna.resetHardware.rqueue.active = cna.rqueue.active := rfl
  have hreset : cna.resetHardware.rqueue.filter =
      cna.rqueue.filter.map fun f => { f with applied := 0 } := rfl
  rw [hactive, hreset] at hfilter
  apply of_ok hcall
  · intro hguard
    refine FilterInv.of_free h.unlocked ?_
    intro g hg
    rw [hfilter] at hg
    cases hqueue : cna.rqueue.active with
    | false =>
      have hfree : ∀ f ∈ cna.rqueue.filter, f.ref = 0 := by
        rcases hguard with hguard | hguard
        · rw [hqueue] at hguard
          cases hguard
        · exact hguard
      rw [hqueue, if_neg Bool.false_ne_true] at hg
      obtain ⟨f, hf, rfl⟩ := List.mem_map.mp hg
      exact ⟨hfree f hf, (h.counted.slots f hf).free_iff.mp (hfree f hf), rfl⟩
    | true =>
      rw [hqueue, if_pos rfl] at hg
      obtain ⟨p, hp, rfl⟩ := List.mem_map.mp hg
      obtain ⟨f, hf, hpf⟩ := List.mem_map.mp (List.fst_mem_of_mem_zipIdx hp)
      rw [clearSlot, ← hpf]
      split
      · next hfree => exact ⟨hfree, (h.counted.slots f hf).free_iff.mp hfree, rfl⟩
      · exact ⟨rfl, rfl, rfl⟩
  · intro hcounted
    cases hqueue : cna.rqueue.active with
    | true => exact .inl rfl
    | false =>
      rw [hfilter, hqueue, if_neg Bool.false_ne_true] at hcounted
      refine .inr fun f hf => ?_
      -- the hardware has lost the filter of the slot
      have hslot := hcounted.slots _ (List.mem_map_of_mem hf)
      have hnonneg : 0 ≤ f.ref := hslot.nonneg
      have happlied : 0 = if 0 < f.ref then 1 else 0 := hslot.applied
      split at happlied
      · cases happlied
      · omega

theorem destroy_filters (h : FilterInv cna refs) (answers : Answers) (cna' : Cna)
    (hunlocked : cna'.locked = false) (hfilter : cna'.rqueue.filter =
      if cna.rqueue.active then cna.rqueue.filter.zipIdx.map (clearSlot answers false)
      else cna.rqueue.filter) :
    ((cna.rqueue.active = true → ∀ f ∈ cna.rqueue.filter.zipIdx,
        f.1.ref ≠ 0 → answers.removeRxFilter f.2 = true → f.1.ref = 1) →
      FilterInv cna' (cna.refsLeft answers refs)) ∧
    (FiltersCounted cna'.rqueue.filter (cna.refsLeft answers refs) →
      cna.rqueue.active = true → ∀ f ∈ cna.rqueue.filter.zipIdx,
        f.1.ref ≠ 0 → answers.removeRxFilter f.2 = true → f.1.ref = 1) := by
  cases hqueue : cna.rqueue.active with
  | false =>
    refine ⟨fun _ => ?_, fun _ hactive => absurd hactive Bool.false_ne_true⟩
    have hleft : cna.refsLeft answers refs = refs := by
      funext mac
      rw [refsLeft, hqueue]
      exact if_neg fun hand => Bool.false_ne_true hand.1
    rw [hqueue, if_neg Bool.false_ne_true] at hfilter
    rw [hleft]
    refine ⟨hunlocked, ?_, ?_⟩
    · rw [hfilter]
      exact h.counted
    · intro mac hmac hunknown
      apply h.absent mac hmac
      rw [Cna.Unknown, hfilter] at hunknown
      exact hunknown
  | true =>
    rw [hqueue, if_pos rfl] at hfilter
    have hleft : ∀ mac, cna.refsLeft answers refs mac =
        if ∃ f ∈ cna.rqueue.filter.zipIdx, f.1.macAddr = mac ∧ f.1.ref ≠ 0 ∧
          answers.removeRxFilter f.2 = true then 0 else refs mac := by
      intro mac
      rw [refsLeft, hqueue]
      simp only [true_and]
    have htear := h.counted.tearDown answers (cna.refsLeft answers refs)
      fun f _ _ => hleft f.macAddr
    rw [← hfilter] at htear
    refine ⟨fun hone => ⟨hunlocked, htear.mpr (hone rfl), ?_⟩, ?_⟩
    swap
    · intro hcounted _
      exact htear.mp hcounted
    intro mac hmac hunknown
    rw [hleft]
    split
    · rfl
    · next hkept =>
      apply h.absent mac hmac
      intro f hf heq
      obtain ⟨k, hk⟩ := List.mem_iff_getElem?.mp hf
      have hindex : (f, k) ∈ cna.rqueue.filter.zipIdx := List.mem_zipIdx_iff_getElem?.mpr hk
      have hslot : f ∈ cna'.rqueue.filter := by
        rw [hfilter]
        refine List.mem_map.mpr ⟨(f, k), hindex, ?_⟩
        rw [clearSlot, if_neg Bool.false_ne_true]
        split
        · rfl
        · next hused =>
          rw [if_pos]
          by_contra hremoved
          exact hkept ⟨(f, k), hindex, heq, hused, Bool.not_eq_false _ ▸ hremoved⟩
      exact hunknown f hslot heq

theorem initQueues_cases (answers : Answers) (hunlocked : cna.locked = false) (mac : BitVec 48) :
    (initQueues answers cna mac = .error .deadlock ∧ ¬cna.SetsFilter answers mac) ∨
    (∃ tqueue active, ¬cna.SetsFilter answers mac ∧
      initQueues answers cna mac = .ok (false, { cna with
        tqueue := tqueue
        rqueue := { cna.rqueue with active := active } })) ∨
    ∃ tqueue rid findex fid, cna.SetsFilter answers mac ∧
      cna.rqueue.filter.findIdx? (·.ref = 0) = some findex ∧
      initQueues answers cna mac = .ok (true, { cna with
        tqueue := tqueue
        rqueue := ⟨rid, cna.rqueue.filter.modify findex fun f =>
          ⟨fid, f.ref + 1, mac, f.applied + 1⟩, true⟩ }) := by
  -- what fails after the queues frees them under the lock that it still holds
  cases htx : answers.allocTx with
  | none =>
    have hno : ¬cna.SetsFilter answers mac := by
      rintro ⟨htx', -⟩
      rw [htx] at htx'
      cases htx'
    obtain ⟨ok, tqueue, active, hfree⟩ := freeTxRxQueue_queues answers cna hunlocked false
    refine .inr (.inl ⟨tqueue, active, hno, ?_⟩)
    rw [initQueues, allocTxRxQueue, htx]
    simp only [hfree, ok_bind]
    rfl
  | some qid =>
  cases hrx : answers.allocRx with
  | none =>
    have hno : ¬cna.SetsFilter answers mac := by
      rintro ⟨-, hrx', -⟩
      rw [hrx] at hrx'
      cases hrx'
    obtain ⟨ok, tqueue, active, hfree⟩ :=
      freeTxRxQueue_queues answers { cna with tqueue := ⟨qid, true⟩ } hunlocked false
    refine .inr (.inl ⟨tqueue, active, hno, ?_⟩)
    have hset : ({ cna with locked := true, tqueue := ⟨qid, true⟩ } : Cna).unlock =
        { cna with tqueue := ⟨qid, true⟩ } := by
      rw [unlock, hunlocked]
    rw [initQueues, allocTxRxQueue, htx]
    simp only [lock_of_unlocked hunlocked, ok_bind, hrx, hset, hfree]
    rfl
  | some rid =>
  by_cases hmac : mac = 0
  · refine .inl ⟨initQueues_deadlock hunlocked htx hrx (.inl hmac), ?_⟩
    exact fun hsets => hsets.2.2.1 hmac
  cases hfind : cna.rqueue.filter.findIdx? (·.ref = 0) with
  | none =>
    refine .inl ⟨initQueues_deadlock hunlocked htx hrx (.inr (.inl hfind)), ?_⟩
    rintro ⟨-, -, -, ⟨f, hf, href⟩, -⟩
    have hused := List.findIdx?_eq_none_iff.mp hfind f hf
    simp [href] at hused
  | some findex =>
  cases hfid : answers.applyRxFilter with
  | none =>
    refine .inl ⟨initQueues_deadlock hunlocked htx hrx (.inr (.inr hfid)), ?_⟩
    rintro ⟨-, -, -, -, hfid'⟩
    rw [hfid] at hfid'
    cases hfid'
  | some fid =>
    have hsets : cna.SetsFilter answers mac := by
      obtain ⟨pre, f, post, hfs, hfree, -⟩ := modify_of_findIdx? hfind
      have hf : f ∈ cna.rqueue.filter := hfs ▸ List.mem_append_right _ List.mem_cons_self
      exact ⟨Option.isSome_iff_exists.mpr ⟨qid, htx⟩, Option.isSome_iff_exists.mpr ⟨rid, hrx⟩,
        hmac, ⟨f, hf, of_decide_eq_true hfree⟩, Option.isSome_iff_exists.mpr ⟨fid, hfid⟩⟩
    exact .inr (.inr ⟨⟨qid, true⟩, rid, findex, fid, hsets, rfl,
      initQueues_done hunlocked htx hrx hmac hfind hfid⟩)

theorem initQueues_spec (h : FilterInv cna refs) (answers : Answers) (mac : BitVec 48) :
    CallSpec (initQueues answers cna mac) (refs.addIf mac 1)
      (cna.SetsFilter answers mac → cna.Unknown mac) := by
  rcases initQueues_cases answers h.unlocked mac with ⟨herror, hno⟩ | ⟨tqueue, active, hno, hcall⟩ |
    ⟨tqueue, rid, findex, fid, hsets, hfind, hcall⟩
  · constructor
    · intro _ _ hsets
      exact absurd hsets hno
    · intro ok cna' hok
      rw [herror] at hok
      cases hok
    · intro ok cna' hok
      rw [herror] at hok
      cases hok
  · have hguard : cna.SetsFilter answers mac → cna.Unknown mac := fun hsets => absurd hsets hno
    exact of_same h hcall h.unlocked rfl rfl hguard
  · obtain ⟨hkeeps, hneeds⟩ := h.fill { cna with
      tqueue := tqueue
      rqueue := ⟨rid, cna.rqueue.filter.modify findex fun f =>
        ⟨fid, f.ref + 1, mac, f.applied + 1⟩, true⟩ } hsets.2.2.1 hfind h.unlocked rfl
    apply of_ok hcall
    · intro hguard
      exact hkeeps (hguard hsets)
    · intro hcounted _
      exact hneeds hcounted

theorem setProperties_module {cna' : Cna} {fcoeCntlr : FcoeCntlr} (hunlocked : cna.locked = false)
    (hcall : setProperties answers cna fcoeCntlr = .ok (ok, cna')) :
    cna'.netdev.moduleId = cna.netdev.moduleId := by
  obtain ⟨group, vids, hset⟩ := setProperties_eq answers cna fcoeCntlr
  rw [hset] at hcall
  split at hcall
  · obtain ⟨-, rfl⟩ := Prod.mk.inj (Except.ok.inj hcall)
    rfl
  · have hunlocked' : (cna.withProperties group vids fcoeCntlr).locked = false := hunlocked
    rcases initQueues_cases answers hunlocked' fcoeCntlr.macAddress with ⟨herror, -⟩ |
      ⟨tqueue, active, -, hinit⟩ | ⟨tqueue, rid, findex, fid, -, -, hinit⟩
    · rw [herror] at hcall
      cases hcall
    · obtain ⟨-, rfl⟩ := Prod.mk.inj (Except.ok.inj (hinit.symm.trans hcall))
      rfl
    · obtain ⟨-, rfl⟩ := Prod.mk.inj (Except.ok.inj (hinit.symm.trans hcall))
      rfl

theorem setProperties_filters (h : FilterInv cna refs) (answers : Answers) (fcoeCntlr : FcoeCntlr) :
    CallSpec (setProperties answers cna fcoeCntlr) (refs.addIf fcoeCntlr.macAddress 1)
      (vlanTagFails answers cna.netdev (BitVec.ofNat 16 (firstVlan 0 fcoeCntlr.vlan)) = false →
        cna.SetsFilter answers fcoeCntlr.macAddress → cna.Unknown fcoeCntlr.macAddress) := by
  obtain ⟨group, vids, hset⟩ := setProperties_eq answers cna fcoeCntlr
  rw [hset]
  cases hfails : vlanTagFails answers cna.netdev
      (BitVec.ofNat 16 (firstVlan 0 fcoeCntlr.vlan)) with
  | true =>
    have hguard : true = false → cna.SetsFilter answers fcoeCntlr.macAddress →
      cna.Unknown fcoeCntlr.macAddress := nofun
    exact of_same h (if_pos rfl) h.unlocked rfl rfl hguard
  | false =>
    rw [if_neg Bool.false_ne_true, forall_prop_of_true rfl]
    have hprop : FilterInv (cna.withProperties group vids fcoeCntlr) refs :=
      ⟨h.unlocked, h.counted, h.absent⟩
    exact initQueues_spec hprop answers fcoeCntlr.macAddress

end Adapter

/-! ## All adapters -/

def AllFilterInv : Except CnaFault FilterState → Prop
  | .error _ => True
  | .ok s => ∀ a, FilterInv (s.cna.cnas a) (s.refs a)

open CnaState

section System

variable {s : FilterState} {answers : Answers} {fcoeCntlr : FcoeCntlr} {a : Nat}
  {refs : Bool → MacRefs} {t : Except CnaFault FilterState}

theorem AllFilterInv.allCounted {s : Except CnaFault FilterState} (h : AllFilterInv s) :
    AllCounted s := by
  cases s with
  | error fault => exact h
  | ok s => exact fun a => (h a).counted

theorem AllFilterInv.init (adapters : List Nat) (netdev : Nat → NetDevice) :
    AllFilterInv (.ok ⟨.init adapters netdev, fun _ _ => 0⟩) := by
  intro a
  apply FilterInv.of_free rfl
  intro f hf
  rw [(List.mem_replicate.mp hf).2]
  exact ⟨rfl, rfl, rfl⟩

theorem CallSpec.lift {call : Except CnaFault (Bool × Cna)} {guard : Prop}
    (hcall : CallSpec call refs guard) (a : Nat) (next : Bool → Cna → FilterState)
    (h : ∀ b, FilterInv (s.cna.cnas b) (s.refs b))
    (hlocked : ∀ ok cna, ((next ok cna).cna.cnas a).locked = cna.locked)
    (hfilter : ∀ ok cna, ((next ok cna).cna.cnas a).rqueue.filter = cna.rqueue.filter)
    (hother : ∀ ok cna b, b ≠ a → (next ok cna).cna.cnas b = s.cna.cnas b)
    (hrefs : ∀ ok cna, (next ok cna).refs = Function.update s.refs a (refs ok)) :
    (guard → AllFilterInv (call.map fun (ok, cna) => next ok cna)) ∧
      (AllCounted (call.map fun (ok, cna) => next ok cna) → guard) := by
  cases hresult : call with
  | error fault => exact ⟨fun _ => trivial, fun _ => hcall.fails fault hresult⟩
  | ok r =>
    obtain ⟨ok, cna⟩ := r
    have hself : (next ok cna).refs a = refs ok := by
      rw [hrefs, Function.update_self]
    constructor
    · intro hguard b
      obtain ⟨hunlocked, hcounted, habsent⟩ := hcall.keeps ok cna hresult hguard
      show FilterInv ((next ok cna).cna.cnas b) ((next ok cna).refs b)
      by_cases hb : b = a
      · rw [hb, hself]
        refine ⟨(hlocked ok cna).trans hunlocked, ?_, ?_⟩
        · rw [hfilter]
          exact hcounted
        · intro mac hmac hunknown
          apply habsent mac hmac
          rw [Cna.Unknown, hfilter] at hunknown
          exact hunknown
      · rw [hother ok cna b hb, hrefs, Function.update_of_ne hb]
        exact h b
    · intro hall
      have hcounted : FiltersCounted ((next ok cna).cna.cnas a).rqueue.filter
        ((next ok cna).refs a) := hall a
      rw [hfilter, hself] at hcounted
      exact hcall.needs ok cna hresult hcounted

theorem update_addIf (refs : Nat → MacRefs) (a : Nat) (mac : BitVec 48) (n : Int) (ok : Bool) :
    (if ok then Function.update refs a ((refs a).add mac n) else refs) =
      Function.update refs a ((refs a).addIf mac n ok) := by
  cases ok with
  | true => rfl
  | false => exact (Function.update_eq_self a refs).symm

theorem CallSpec.adapterCall {f : Cna → Except CnaFault (Bool × Cna)} {guard : Prop}
    {refsNext : Bool → Nat → MacRefs} (h : ∀ b, FilterInv (s.cna.cnas b) (s.refs b))
    (hcall : CallSpec (f (s.cna.cnas a)) refs guard)
    (hrefs : ∀ ok, refsNext ok = Function.update s.refs a (refs ok)) :
    (guard → AllFilterInv ((s.cna.adapterCall a f).map fun (ok, cna) => ⟨cna, refsNext ok⟩)) ∧
      (AllCounted ((s.cna.adapterCall a f).map fun (ok, cna) => ⟨cna, refsNext ok⟩) → guard) := by
  have hlift := hcall.lift a (fun ok cna => ⟨s.cna.set a cna, refsNext ok⟩) h
    (fun ok cna => by rw [set_self]) (fun ok cna => by rw [set_self])
    (fun ok cna b hb => set_other _ _ hb) fun ok _ => hrefs ok
  rw [CnaState.adapterCall]
  generalize f (s.cna.cnas a) = result at hlift ⊢
  rcases result with fault | ⟨ok, cna⟩
  · exact hlift
  · exact hlift

theorem create_filters (h : ∀ b, FilterInv (s.cna.cnas b) (s.refs b)) (answers : Answers)
    (fcoeCntlr : FcoeCntlr) (hstep : FilterStep (.ok s) (.request (.create answers fcoeCntlr)) t) :
    (FiltersCareful (.ok s) (.request (.create answers fcoeCntlr)) → AllFilterInv t) ∧
      (AllCounted t → FiltersCareful (.ok s) (.request (.create answers fcoeCntlr))) := by
  cases hstep
  rcases createController_spec s.cna answers fcoeCntlr fun a _ _ _ hset =>
      setProperties_module (h a).unlocked hset with ⟨hnone, hcall⟩ | ⟨a, fcoe, hsome, -, hcall⟩
  · have hresult : s.cna.filterCall (.request (.create answers fcoeCntlr)) = .ok (false, s.cna) :=
      hcall
    have hrefs : s.cna.refsAfter s.refs (.request (.create answers fcoeCntlr)) false = s.refs := by
      rw [CnaState.refsAfter]
      split <;> rfl
    rw [hresult]
    constructor
    · intro _
      have hafter : ∀ a, FilterInv (s.cna.cnas a)
          (s.cna.refsAfter s.refs (.request (.create answers fcoeCntlr)) false a) := by
        rw [hrefs]
        exact h
      exact hafter
    · intro _ p hp
      rw [hnone] at hp
      cases hp
  · have hlookup := lookup_of_setsProperties hsome
    have hguard : FiltersCareful (.ok s) (.request (.create answers fcoeCntlr)) ↔
        (vlanTagFails answers (s.cna.cnas a).netdev
            (BitVec.ofNat 16 (firstVlan 0 fcoeCntlr.vlan)) = false →
          (s.cna.cnas a).SetsFilter answers fcoeCntlr.macAddress →
          (s.cna.cnas a).Unknown fcoeCntlr.macAddress) := by
      constructor
      · exact fun hall => hall (a, fcoe) hsome
      · intro hcareful p hp
        obtain rfl := Option.some.inj (hsome.symm.trans hp)
        exact hcareful
    have hresult : s.cna.filterCall (.request (.create answers fcoeCntlr)) = _ := hcall
    have hlift := (setProperties_filters (h a) answers fcoeCntlr).lift a
      (fun ok cna => ⟨if ok = false then s.cna.set a cna
        else ((s.cna.moduleIncUseCount (s.cna.cnas a).netdev.moduleId a).moduleIncUseCount
          fcoe.moduleId a).set a { cna with handle := some ⟨a, fcoe⟩, rxHandler := true },
        s.cna.refsAfter s.refs (.request (.create answers fcoeCntlr)) ok⟩) h
      (fun ok cna => by cases ok <;> simp) (fun ok cna => by cases ok <;> simp)
      (fun ok cna b hb => by
        cases ok with
        | false => exact set_other _ _ hb
        | true => exact set_other _ _ hb)
      (fun ok _ => by
        rw [CnaState.refsAfter, ← update_addIf]
        simp only [hlookup])
    rw [hguard, hresult]
    generalize setProperties answers (s.cna.cnas a) fcoeCntlr = result at hlift ⊢
    rcases result with fault | ⟨ok, cna⟩
    · exact hlift
    · cases ok with
      | false => exact hlift
      | true => exact hlift

theorem destroy_filterStep (h : ∀ b, FilterInv (s.cna.cnas b) (s.refs b)) (answers : Answers)
    (vmnicName : List Char) (vnports : Int)
    (hstep : FilterStep (.ok s) (.request (.destroy answers vmnicName vnports)) t) :
    (FiltersCareful (.ok s) (.request (.destroy answers vmnicName vnports)) → AllFilterInv t) ∧
      (AllCounted t → FiltersCareful (.ok s) (.request (.destroy answers vmnicName vnports))) := by
  cases hstep
  -- where there is no controller, or it has ports, nothing is done
  have hidle : s.cna.destroyController answers vmnicName vnports = .ok (false, s.cna) →
      (∀ ok, s.cna.refsAfter s.refs (.request (.destroy answers vmnicName vnports)) ok = s.refs) →
      AllFilterInv ((s.cna.filterCall (.request (.destroy answers vmnicName vnports))).map
        fun (ok, cna) => ⟨cna, s.cna.refsAfter s.refs
          (.request (.destroy answers vmnicName vnports)) ok⟩) := by
    intro hcall hrefs
    have hresult : s.cna.filterCall (.request (.destroy answers vmnicName vnports)) =
      .ok (false, s.cna) := hcall
    rw [hresult]
    have hafter : ∀ a, FilterInv (s.cna.cnas a) (s.cna.refsAfter s.refs
        (.request (.destroy answers vmnicName vnports)) false a) := by
      rw [hrefs]
      exact h
    exact hafter
  cases hcontlr : s.cna.getVmklnxContlr vmnicName with
  | none =>
    constructor
    · intro _
      apply hidle
      · rw [destroyController, hcontlr]
      · intro ok
        simp only [CnaState.refsAfter, hcontlr]
    · intro _ contlr hcontlr'
      rw [hcontlr] at hcontlr'
      cases hcontlr'
  | some contlr =>
  by_cases hvnports : vnports = 0
  -- the guard is about this adapter only
  · have hguard : FiltersCareful (.ok s) (.request (.destroy answers vmnicName vnports)) ↔
        ((s.cna.cnas contlr.cna).rqueue.active = true →
          ∀ f ∈ (s.cna.cnas contlr.cna).rqueue.filter.zipIdx,
            f.1.ref ≠ 0 → answers.removeRxFilter f.2 = true → f.1.ref = 1) := by
      constructor
      · exact fun hall => hall contlr hcontlr hvnports
      · intro hcareful contlr' hcontlr' _
        obtain rfl := Option.some.inj (hcontlr.symm.trans hcontlr')
        exact hcareful
    obtain ⟨ok, tqueue, rqueue, hclear, hfilter⟩ := clearProperties_filters
      answers { s.cna.cnas contlr.cna with handle := none, rxHandler := false }
      (h contlr.cna).unlocked false
    let cna' : Cna := { s.cna.cnas contlr.cna with
      handle := none
      rxHandler := false
      tqueue := tqueue
      rqueue := rqueue }
    obtain ⟨hkeeps, hneeds⟩ :=
      destroy_filters (h contlr.cna) answers cna' (h contlr.cna).unlocked hfilter
    have hspec : CallSpec (.ok (ok, cna'))
        (fun _ => (s.cna.cnas contlr.cna).refsLeft answers (s.refs contlr.cna)) _ :=
      of_ok rfl hkeeps hneeds
    -- what is said of the adapter is said of all, as the others stay
    have hlift := hspec.lift contlr.cna (fun ok cna => ⟨if ok = false then
        s.cna.set contlr.cna cna
      else ((s.cna.set contlr.cna cna).moduleDecUseCount contlr.fcoe.moduleId
        contlr.cna).moduleDecUseCount cna.netdev.moduleId contlr.cna,
      s.cna.refsAfter s.refs (.request (.destroy answers vmnicName vnports)) ok⟩) h
      (fun ok cna => by cases ok <;> simp [moduleDecUseCount])
      (fun ok cna => by cases ok <;> simp [moduleDecUseCount])
      (fun ok cna b hb => by
        cases ok with
        | false => exact set_other _ _ hb
        | true => exact set_other _ _ hb)
      (fun ok _ => by simp only [CnaState.refsAfter, hcontlr, hvnports, if_true])
    have hresult : s.cna.filterCall (.request (.destroy answers vmnicName vnports)) =
        .ok (ok, if ok = false then s.cna.set contlr.cna cna'
          else ((s.cna.set contlr.cna cna').moduleDecUseCount contlr.fcoe.moduleId
            contlr.cna).moduleDecUseCount cna'.netdev.moduleId contlr.cna) := by
      rw [filterCall, CnaState.request, destroyController, hcontlr]
      simp only [hvnports, ne_eq, not_true_eq_false, if_false, hclear, ok_bind]
      cases ok <;> rfl
    rw [hguard, hresult]
    exact hlift
  · constructor
    · intro _
      apply hidle
      · rw [destroyController, hcontlr]
        exact if_pos hvnports
      · intro ok
        simp only [CnaState.refsAfter, hcontlr, if_neg hvnports]
    · intro _ _ _ hzero
      exact absurd hzero hvnports

theorem filterStep_spec {s : Except CnaFault FilterState} {call : FilterCall} (h : AllFilterInv s)
    (hstep : FilterStep s call t) :
    (FiltersCareful s call → AllFilterInv t) ∧ (AllCounted t → FiltersCareful s call) := by
  cases s with
  | error fault => cases hstep
  | ok s =>
  cases call with
  | request req =>
    cases req with
    | create answers fcoeCntlr => exact create_filters h answers fcoeCntlr hstep
    | destroy answers vmnicName vnports =>
      exact destroy_filterStep h answers vmnicName vnports hstep
  | setMacaddr answers a macAddr =>
    cases hstep
    exact adapterCall (f := (Cna.setMacaddr answers · macAddr)) h
      (setMacaddr_spec (h a) answers macAddr) fun ok => update_addIf s.refs a macAddr 1 ok
  | removeMacaddr answers a macAddr =>
    cases hstep
    exact adapterCall (f := (Cna.removeMacaddr answers · macAddr)) h
      (removeMacaddr_spec (h a) answers macAddr) fun ok => update_addIf s.refs a macAddr (-1) ok
  | cleanupQueues answers a =>
    cases hstep
    exact (cleanupQueues_spec (h a) answers).adapterCall h fun _ => rfl
  | reinitQueues answers a =>
    cases hstep
    exact (initQueues_spec (h a) answers _).adapterCall h
      fun ok => update_addIf s.refs a _ 1 ok

end System

/-! ## Every run -/

/-- An address is set twice beside that of the controller, and removed twice; behind a reset there
    is the address of the controller again, up to its destruction. -/
def countedRun : List FilterCall :=
  [.request (.create { clients := [transport] } vlan4), .setMacaddr {} 0 11, .setMacaddr {} 0 11,
    .setMacaddr {} 0 12, .removeMacaddr {} 0 11, .removeMacaddr {} 0 11, .cleanupQueues {} 0,
    .reinitQueues {} 0, .request (.destroy {} "vmnic0".toList 0)]

end VmkDrivers.Vmklinux
