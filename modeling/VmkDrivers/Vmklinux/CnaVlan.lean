/-
  VmkDrivers.Vmklinux.CnaVlan

  The VLAN and the priority that the frames of an FCoE controller carry
  (`linux_cna.c`, `linux_dcb.c`).

  `CNASetProperties` clears `fcoe_vlan_id` before `vmklnx_cna_set_vlan_tag` looks at
  it for the VLAN that is to be removed from the filter of the hardware, and
  `NICDCBSetApplication` takes the priority of every protocol for that of FCoE; nor
  is a VLAN or a priority refused that is too large for its part of the tag
  (`vlan_kept`).  Where a run does none of this, and nowhere else, the filter, the
  priority and the tags are right (`frames_tagged_iff`).
-/

import VmkDrivers.Vmklinux.CnaFilters

namespace VmkDrivers.Vmklinux

open VmkDrivers.Lib

/-! ## Frames -/

/-- `struct sk_buff`; the tag is that of `struct vlan_skb_tx_cookie`. -/
structure CnaSkb where
  vlanTag : Option (BitVec 16) := none
  priority : BitVec 32 := 0
deriving DecidableEq, Repr

def vlan1ptagShift : Nat := 13

namespace Cna

/-- `vmklnx_cna_get_vlan_tag` -/
def getVlanTag (cna : Cna) : BitVec 16 :=
  cna.fcoeVlanId ||| cna.fcoeAppPrio.setWidth 16 <<< vlan1ptagShift

/-- `vlan_put_tag`, which is a `BUG` where the hardware does not insert tags. -/
def vlanPutTag (netdev : NetDevice) (skb : CnaSkb) (tag : BitVec 16) : Option CnaSkb :=
  if netdev.hwVlanTx then some { skb with vlanTag := some tag } else none

/-- `vmklnx_cna_queue_xmit`, up to the frame that it hands to the queue of the driver. -/
def queueXmit (cna : Cna) (skb : CnaSkb) : Option (Nat × CnaSkb) := do
  let vlanId := cna.fcoeVlanId
  let priority := cna.fcoeAppPrio
  let skb ← if priority ≠ 0 ∨ vlanId ≠ 0 then
      vlanPutTag cna.netdev skb (vlanId ||| priority.setWidth 16 <<< vlan1ptagShift)
    else some skb
  return (cna.tqueue.txQueueId, { skb with priority := priority.setWidth 32 })

end Cna

/-! ## The priority -/

/-- `vmk_DCBAppSelectorField` -/
inductive DcbAppSelector where
  | l2EthType
  | socketNum
  | rsvd1
  | rsvd2
deriving DecidableEq, Repr

/-- `vmk_DCBApplication` -/
structure DcbApplication where
  enabled : Bool := false
  sf : DcbAppSelector
  protoId : BitVec 16
  /-- A bitmap. -/
  priority : BitVec 8
deriving DecidableEq, Repr

def ethPFcoe : BitVec 16 := 0x8906

def DcbApplication.IsFcoe (app : DcbApplication) : Prop :=
  app.sf = .l2EthType ∧ app.protoId = ethPFcoe

/-- The loop of `vmklnx_cna_update_fcoe_priority`. -/
def fcoePriority (priorityBitmap : BitVec 8) : Nat :=
  ((List.range 8).find? fun priority => priorityBitmap.getLsbD priority).getD 8

inductive DcbStatus where
  | ok
  | notSupported
  | failure
deriving DecidableEq, Repr

namespace CnaState

variable (s : CnaState)

/-- `vmklnx_cna_update_fcoe_priority` -/
def updateFcoePriority (vmnicName : List Char) (priorityBitmap : BitVec 8) : Bool × CnaState :=
  if priorityBitmap = 0 then (true, s)
  else
    match s.lookupByName vmnicName with
    | none => (false, s)
    | some a =>
      let priority := BitVec.ofNat 8 (fcoePriority priorityBitmap)
      let cna := s.cnas a
      if cna.fcoeAppPrio ≠ priority then (true, s.set a { cna with fcoeAppPrio := priority })
      else (true, s)

/-- `NICDCBSetApplication`, with what `setapp` of the driver returns, if there is one. -/
def setApplication (netdevName : List Char) (setapp : Option (BitVec 8)) (app : DcbApplication) :
    DcbStatus × DcbApplication × CnaState :=
  match setapp with
  | none => (.notSupported, app, s)
  | some ret =>
    if ret = 0 then
      (.ok, { app with enabled := true }, (s.updateFcoePriority netdevName app.priority).2)
    else (.failure, { app with enabled := false }, s)

end CnaState

/-! ## What is promised -/

inductive VlanCall where
  | request (req : FcoeRequest)
  | setVlanTag (answers : Answers) (a : Nat) (vid : BitVec 16)
  | setApplication (netdevName : List Char) (setapp : Option (BitVec 8)) (app : DcbApplication)

structure VlanState where
  cna : CnaState
  given : Nat → Nat := fun _ => 0

def VlanState.call (s : VlanState) : VlanCall → Option CnaState
  | .request req =>
    match s.cna.request req with
    | .ok (true, cna) => some cna
    | _ => none
  | .setVlanTag answers a vid =>
    match Cna.setVlanTag answers (s.cna.cnas a) vid with
    | (true, cna) => some (s.cna.set a cna)
    | _ => none
  | .setApplication netdevName setapp app =>
    match s.cna.setApplication netdevName setapp app with
    | (.ok, _, cna) => some cna
    | _ => none

instance (app : DcbApplication) : Decidable app.IsFcoe :=
  inferInstanceAs (Decidable (_ ∧ _))

def VlanState.givenAfter (s : VlanState) : VlanCall → Nat → Nat
  | .request (.create _ fcoeCntlr) =>
    match s.cna.lookupByName fcoeCntlr.vmnicName with
    | some a => Function.update s.given a fcoeCntlr.priority.toNat
    | none => s.given
  | .request (.destroy _ _ _) => s.given
  | .setVlanTag _ _ _ => s.given
  | .setApplication netdevName _ app =>
    match s.cna.lookupByName netdevName with
    | some a =>
      if app.IsFcoe ∧ app.priority ≠ 0 then
        Function.update s.given a (fcoePriority app.priority)
      else s.given
    | none => s.given

def vlanNext? (s : VlanState) (call : VlanCall) : Option VlanState :=
  (s.call call).map fun cna => ⟨cna, s.givenAfter call⟩

def VlanStep (s : VlanState) (call : VlanCall) (t : VlanState) : Prop := vlanNext? s call = some t

/-- The frame has just the VLAN and the priority; without a tag it has neither. -/
structure CnaSkb.Carries (skb : CnaSkb) (vlanId : BitVec 16) (priority : BitVec 8) : Prop where
  tag : match skb.vlanTag with
    | none => vlanId = 0 ∧ priority = 0
    | some tag => tag.toNat % 4096 = vlanId.toNat ∧ tag.toNat / 8192 = priority.toNat
  priority : skb.priority = priority.setWidth 32

/-- The filter of the hardware has the VLAN of FCoE, if there is one, and no other; the priority is
    the one that was given; and every frame that is handed in without a tag is sent with both. -/
structure Cna.Tagged (cna : Cna) (given : Nat) : Prop where
  vids : ∀ vid, vid ∈ cna.netdev.vids ↔ vid = cna.fcoeVlanId ∧ vid ≠ 0
  priority : cna.fcoeAppPrio.toNat = given
  frames : ∀ skb, skb.vlanTag = none → ∃ queue skb', cna.queueXmit skb = some (queue, skb') ∧
    skb'.Carries cna.fcoeVlanId cna.fcoeAppPrio

def AllTagged (s : VlanState) : Prop := ∀ a, (s.cna.cnas a).Tagged (s.given a)

/-! ## The calls that do it -/

/-- Both parts of the tag are large enough, and the hardware inserts the tag if there is one. -/
def NetDevice.Taggable (netdev : NetDevice) (vlanId priority : Nat) : Prop :=
  vlanId < 4096 ∧ priority < 8 ∧ (vlanId ≠ 0 ∨ priority ≠ 0 → netdev.hwVlanTx = true)

open Cna

/-- A creation finds no VLAN, or asks for that; a protocol that is not FCoE has the priority that
    FCoE has; and what the tag is to hold goes into it. -/
def VlanCareful (s : VlanState) : VlanCall → Prop
  | .request (.create _ fcoeCntlr) => ∀ a ∈ s.cna.lookupByName fcoeCntlr.vmnicName,
      ((s.cna.cnas a).fcoeVlanId = 0 ∨
        (s.cna.cnas a).fcoeVlanId = BitVec.ofNat 16 (firstVlan 0 fcoeCntlr.vlan)) ∧
      (s.cna.cnas a).netdev.Taggable
        (BitVec.ofNat 16 (firstVlan 0 fcoeCntlr.vlan)).toNat fcoeCntlr.priority.toNat
  | .request (.destroy _ _ _) => True
  | .setVlanTag _ a vid =>
    (s.cna.cnas a).netdev.Taggable vid.toNat (s.cna.cnas a).fcoeAppPrio.toNat
  | .setApplication netdevName _ app => ∀ a ∈ s.cna.lookupByName netdevName, app.priority ≠ 0 →
      (app.IsFcoe ∨ fcoePriority app.priority = (s.cna.cnas a).fcoeAppPrio.toNat) ∧
      (s.cna.cnas a).netdev.Taggable (s.cna.cnas a).fcoeVlanId.toNat (fcoePriority app.priority)

instance (netdev : NetDevice) (vlanId priority : Nat) :
    Decidable (netdev.Taggable vlanId priority) :=
  inferInstanceAs (Decidable (_ ∧ _))

instance (s : VlanState) (call : VlanCall) : Decidable (VlanCareful s call) := by
  unfold VlanCareful
  split <;> infer_instance

def VlanState.init (adapters : List Nat) (netdev : Nat → NetDevice) : VlanState where
  cna := .init adapters fun a => { netdev a with vids := [] }

/-! ## One adapter -/

section Adapter

variable {answers : Answers} {cna cna' : Cna} {vid : BitVec 16} {given : Nat}

theorem fcoePriority_spec {bitmap : BitVec 8} (hbitmap : bitmap ≠ 0) :
    fcoePriority bitmap < 8 ∧ bitmap.getLsbD (fcoePriority bitmap) = true ∧
      ∀ priority < fcoePriority bitmap, bitmap.getLsbD priority = false := by
  have hall : ∀ bitmap : BitVec 8, bitmap ≠ 0 → fcoePriority bitmap < 8 ∧
      bitmap.getLsbD (fcoePriority bitmap) = true ∧
      ∀ priority < fcoePriority bitmap, bitmap.getLsbD priority = false := by
    decide
  exact hall bitmap hbitmap

theorem tag_parts (vid : BitVec 16) (priority : BitVec 8) :
    ((vid ||| priority.setWidth 16 <<< vlan1ptagShift).toNat % 4096 = vid.toNat ∧
      (vid ||| priority.setWidth 16 <<< vlan1ptagShift).toNat / 8192 = priority.toNat) ↔
    vid.toNat < 4096 ∧ priority.toNat < 8 := by
  have htag := (vid ||| priority.setWidth 16 <<< vlan1ptagShift).isLt
  have hvid := vid.isLt
  constructor
  · rintro ⟨hid, hpriority⟩
    omega
  · rintro ⟨hid, hpriority⟩
    have hwidth : (priority.setWidth 16).toNat = priority.toNat := by
      rw [BitVec.toNat_setWidth]
      omega
    have hshift : (priority.setWidth 16 <<< vlan1ptagShift).toNat = priority.toNat <<< 13 := by
      rw [BitVec.toNat_shiftLeft, hwidth, vlan1ptagShift, Nat.shiftLeft_eq]
      omega
    have hor : (vid ||| priority.setWidth 16 <<< vlan1ptagShift).toNat =
        priority.toNat * 8192 + vid.toNat := by
      rw [BitVec.toNat_or, hshift, Nat.or_comm, ← Nat.shiftLeft_add_eq_or_of_lt (by omega),
        Nat.shiftLeft_eq]
    omega

theorem frames_iff (cna : Cna) :
    (∀ skb : CnaSkb, skb.vlanTag = none → ∃ queue skb', cna.queueXmit skb = some (queue, skb') ∧
      skb'.Carries cna.fcoeVlanId cna.fcoeAppPrio) ↔
    cna.netdev.Taggable cna.fcoeVlanId.toNat cna.fcoeAppPrio.toNat := by
  have hvid : cna.fcoeVlanId.toNat = 0 ↔ cna.fcoeVlanId = 0 := by
    rw [← BitVec.toNat_inj]
    rfl
  have hpriority : cna.fcoeAppPrio.toNat = 0 ↔ cna.fcoeAppPrio = 0 := by
    rw [← BitVec.toNat_inj]
    rfl
  by_cases htag : cna.fcoeAppPrio ≠ 0 ∨ cna.fcoeVlanId ≠ 0
  · have hneeded : cna.fcoeVlanId.toNat ≠ 0 ∨ cna.fcoeAppPrio.toNat ≠ 0 := by
      rw [ne_eq, ne_eq, hvid, hpriority]
      exact htag.symm
    rw [NetDevice.Taggable, ← and_assoc, ← tag_parts]
    constructor
    · intro hframes
      obtain ⟨queue, skb', hxmit, hcarries⟩ := hframes {} rfl
      rw [queueXmit, if_pos htag, vlanPutTag] at hxmit
      cases htx : cna.netdev.hwVlanTx with
      | false =>
        rw [htx] at hxmit
        cases hxmit
      | true =>
        rw [htx] at hxmit
        obtain ⟨-, rfl⟩ := Prod.mk.inj (Option.some.inj hxmit)
        exact ⟨hcarries.tag, fun _ => rfl⟩
    · rintro ⟨hparts, htx⟩ skb -
      refine ⟨cna.tqueue.txQueueId,
        ⟨some (cna.fcoeVlanId ||| cna.fcoeAppPrio.setWidth 16 <<< vlan1ptagShift),
          cna.fcoeAppPrio.setWidth 32⟩, ?_, ⟨hparts, rfl⟩⟩
      rw [queueXmit, if_pos htag, vlanPutTag, htx hneeded]
      rfl
  · rw [not_or, not_ne_iff, not_ne_iff] at htag
    obtain ⟨hprio, hid⟩ := htag
    constructor
    · intro _
      rw [hid, hprio]
      exact ⟨by decide, by decide, by simp⟩
    · intro _ skb hskb
      refine ⟨cna.tqueue.txQueueId, { skb with priority := cna.fcoeAppPrio.setWidth 32 }, ?_, ?_,
        rfl⟩
      · rw [queueXmit, if_neg (by simp [hprio, hid])]
        rfl
      · simp only [hskb]
        exact ⟨hid, hprio⟩

theorem Cna.tagged_iff : cna.Tagged given ↔
    (∀ vid, vid ∈ cna.netdev.vids ↔ vid = cna.fcoeVlanId ∧ vid ≠ 0) ∧
      cna.fcoeAppPrio.toNat = given ∧
      cna.netdev.Taggable cna.fcoeVlanId.toNat cna.fcoeAppPrio.toNat := by
  rw [← frames_iff]
  constructor
  · exact fun h => ⟨h.vids, h.priority, h.frames⟩
  · rintro ⟨hvids, hpriority, hframes⟩
    exact ⟨hvids, hpriority, hframes⟩

def Cna.vidsAfter (cna : Cna) (vid : BitVec 16) : List (BitVec 16) :=
  let kept := if cna.fcoeVlanId ≠ 0 then cna.netdev.vids.erase cna.fcoeVlanId else cna.netdev.vids
  if vid ≠ 0 then kept.insert vid else kept

theorem setVlanTag_done (hset : Cna.setVlanTag answers cna vid = (true, cna')) :
    ∃ group, cna' = { cna with
      netdev := { cna.netdev with vlanGroup := group, vids := cna.vidsAfter vid }
      fcoeVlanId := vid } := by
  have henable : ∃ ok group, enableHwVlan answers cna.netdev =
      (ok, { cna.netdev with vlanGroup := group }) := by
    rw [enableHwVlan]
    split
    · exact ⟨true, _, rfl⟩
    · split
      · exact ⟨false, _, rfl⟩
      · split
        · exact ⟨false, _, rfl⟩
        · exact ⟨true, true, rfl⟩
  obtain ⟨ok, group, henable⟩ := henable
  simp only [Cna.setVlanTag, henable] at hset
  refine ⟨group, ?_⟩
  -- the exits before the last do not succeed
  split at hset
  · simp at hset
  split at hset
  · simp at hset
  split at hset
  · simp at hset
  by_cases hold : cna.fcoeVlanId = 0#16
  · by_cases hnew : vid = 0#16
    · simpa [vidsAfter, hold, hnew] using hset.symm
    · cases hadd : cna.netdev.vlanRxAddVid <;> simp [hold, hnew, hadd] at hset
      simpa [vidsAfter, hold, hnew, hadd] using hset.symm
  · by_cases hnew : vid = 0#16
    · simpa [vidsAfter, hold, hnew] using hset.symm
    · cases hadd : cna.netdev.vlanRxAddVid <;> simp [hold, hnew, hadd] at hset
      simpa [vidsAfter, hold, hnew, hadd] using hset.symm

theorem Cna.mem_vidsAfter (hnodup : cna.netdev.vids.Nodup) {v : BitVec 16} :
    v ∈ cna.vidsAfter vid ↔ (v = vid ∧ vid ≠ 0) ∨
      (v ∈ cna.netdev.vids ∧ (cna.fcoeVlanId ≠ 0 → v ≠ cna.fcoeVlanId)) := by
  have hkept : v ∈ (if cna.fcoeVlanId ≠ 0 then cna.netdev.vids.erase cna.fcoeVlanId
      else cna.netdev.vids) ↔ v ∈ cna.netdev.vids ∧ (cna.fcoeVlanId ≠ 0 → v ≠ cna.fcoeVlanId) := by
    split
    · next hold => rw [hnodup.mem_erase_iff, and_comm, forall_prop_of_true hold]
    · next hold => exact (and_iff_left fun hne => absurd hne hold).symm
  simp only [vidsAfter]
  rw [← hkept]
  by_cases hvid : vid ≠ 0
  · rw [if_pos hvid, List.mem_insert_iff, and_iff_left hvid]
  · rw [if_neg hvid]
    exact (or_iff_right fun hand => hvid hand.2).symm

theorem Cna.nodup_vidsAfter (hnodup : cna.netdev.vids.Nodup) : (cna.vidsAfter vid).Nodup := by
  have hkept : (if cna.fcoeVlanId ≠ 0 then cna.netdev.vids.erase cna.fcoeVlanId
      else cna.netdev.vids).Nodup := by
    split
    · exact hnodup.erase _
    · exact hnodup
  simp only [vidsAfter]
  split
  · exact List.Nodup.insert hkept
  · exact hkept

theorem setProperties_done {fcoeCntlr : FcoeCntlr} (hunlocked : cna.locked = false)
    (hset : setProperties answers cna fcoeCntlr = .ok (true, cna')) :
    ∃ group tqueue rqueue, cna' = { cna with
      netdev := { cna.netdev with
        vlanGroup := group
        vids := vidsAfter { cna with fcoeVlanId := 0 }
          (BitVec.ofNat 16 (firstVlan 0 fcoeCntlr.vlan))
        devAddr := fcoeCntlr.macAddress }
      fcoeVlanId := BitVec.ofNat 16 (firstVlan 0 fcoeCntlr.vlan)
      fcoeAppPrio := fcoeCntlr.priority.setWidth 8
      tqueue := tqueue
      rqueue := rqueue } := by
  rw [setProperties] at hset
  rcases htag : Cna.setVlanTag answers { cna with fcoeVlanId := 0 }
    (BitVec.ofNat 16 (firstVlan 0 fcoeCntlr.vlan)) with ⟨ok, tagged⟩
  simp only [htag] at hset
  cases ok with
  | false => cases hset
  | true =>
    obtain ⟨group, rfl⟩ := setVlanTag_done htag
    let cna₁ : Cna := { cna with
      netdev := { cna.netdev with
        vlanGroup := group
        vids := vidsAfter { cna with fcoeVlanId := 0 }
          (BitVec.ofNat 16 (firstVlan 0 fcoeCntlr.vlan))
        devAddr := fcoeCntlr.macAddress }
      fcoeVlanId := BitVec.ofNat 16 (firstVlan 0 fcoeCntlr.vlan)
      fcoeAppPrio := fcoeCntlr.priority.setWidth 8 }
    have hunlocked₁ : cna₁.locked = false := hunlocked
    rcases initQueues_cases answers hunlocked₁ fcoeCntlr.macAddress with ⟨herror, -⟩ |
      ⟨tqueue, active, -, hinit⟩ | ⟨tqueue, rid, findex, fid, -, -, hinit⟩
    · rw [herror] at hset
      cases hset
    · rw [hinit] at hset
      cases hset
    · rw [hinit] at hset
      exact ⟨group, tqueue, _, (Prod.mk.inj (Except.ok.inj hset)).2.symm⟩

end Adapter

/-! ## All adapters -/

structure VlanInv (s : VlanState) : Prop where
  unlocked : ∀ a, (s.cna.cnas a).locked = false
  nodup : ∀ a, (s.cna.cnas a).netdev.vids.Nodup
  tagged : AllTagged s

section System

variable {s t : VlanState} {a : Nat} {cna : Cna} {guard : Prop}

theorem VlanInv.init (adapters : List Nat) (netdev : Nat → NetDevice) :
    VlanInv (.init adapters netdev) where
  unlocked _ := rfl
  nodup _ := List.nodup_nil
  tagged a := by
    rw [tagged_iff]
    refine ⟨?_, rfl, ?_⟩
    · intro vid
      apply iff_of_false List.not_mem_nil
      rintro ⟨rfl, hne⟩
      exact hne rfl
    · show NetDevice.Taggable _ 0 0
      exact ⟨by decide, by decide, by simp⟩

theorem VlanInv.update (h : VlanInv s) (given : Nat)
    (hcnas : t.cna.cnas = Function.update s.cna.cnas a cna)
    (hgiven : t.given = Function.update s.given a given) (hunlocked : cna.locked = false)
    (hnodup : cna.netdev.vids.Nodup) (hguard : guard ↔ cna.Tagged given) :
    (guard → VlanInv t) ∧ (AllTagged t → guard) := by
  have hself : t.cna.cnas a = cna ∧ t.given a = given := by
    rw [hcnas, hgiven, Function.update_self, Function.update_self]
    exact ⟨rfl, rfl⟩
  have hother : ∀ b, b ≠ a → t.cna.cnas b = s.cna.cnas b ∧ t.given b = s.given b := by
    intro b hb
    rw [hcnas, hgiven, Function.update_of_ne hb, Function.update_of_ne hb]
    exact ⟨rfl, rfl⟩
  constructor
  · intro hg
    constructor
    all_goals
      intro b
      by_cases hb : b = a
    · rw [hb, hself.1]
      exact hunlocked
    · rw [(hother b hb).1]
      exact h.unlocked b
    · rw [hb, hself.1]
      exact hnodup
    · rw [(hother b hb).1]
      exact h.nodup b
    · rw [hb, hself.1, hself.2]
      exact hguard.mp hg
    · rw [(hother b hb).1, (hother b hb).2]
      exact h.tagged b
  · intro hall
    have hadapter := hall a
    rw [hself.1, hself.2] at hadapter
    exact hguard.mpr hadapter

theorem create_vlan (h : VlanInv s) (answers : Answers) (fcoeCntlr : FcoeCntlr)
    (hstep : VlanStep s (.request (.create answers fcoeCntlr)) t) :
    (VlanCareful s (.request (.create answers fcoeCntlr)) → VlanInv t) ∧
      (AllTagged t → VlanCareful s (.request (.create answers fcoeCntlr))) := by
  obtain ⟨cna, hcall, rfl⟩ := Option.map_eq_some_iff.mp hstep
  have hok : s.cna.createController answers fcoeCntlr = .ok (true, cna) := by
    simp only [VlanState.call] at hcall
    split at hcall
    · next heq =>
      rw [← Option.some.inj hcall]
      exact heq
    · cases hcall
  -- the answer is a success, so the controller was found and its properties were set
  rcases createController_spec s.cna answers fcoeCntlr fun a _ _ _ hset =>
      setProperties_module (h.unlocked a) hset with ⟨-, hfailed⟩ | ⟨a, fcoe, hsome, -, hcreate⟩
  · rw [hfailed] at hok
    cases hok
  have hlookup := lookup_of_setsProperties hsome
  rw [hcreate] at hok
  rcases hset : setProperties answers (s.cna.cnas a) fcoeCntlr with fault | ⟨ok, cna'⟩
  · rw [hset] at hok
    cases hok
  rw [hset] at hok
  cases ok with
  | false => cases hok
  | true =>
    obtain ⟨group, tqueue, rqueue, rfl⟩ := setProperties_done (h.unlocked a) hset
    obtain rfl := (Prod.mk.inj (Except.ok.inj hok)).2
    -- the VLAN id is set to zero first, so the ids of before are not taken off the device
    have hnodup : (vidsAfter { s.cna.cnas a with fcoeVlanId := 0 }
        (BitVec.ofNat 16 (firstVlan 0 fcoeCntlr.vlan))).Nodup :=
      nodup_vidsAfter (h.nodup a)
    refine h.update fcoeCntlr.priority.toNat rfl ?_ (h.unlocked a) hnodup ?_
    · simp only [VlanState.givenAfter, hlookup]
    · rw [tagged_iff]
      simp only [VlanCareful, hlookup, Option.mem_some_iff, forall_eq']
      have hmem : ∀ vid, vid ∈ vidsAfter { s.cna.cnas a with fcoeVlanId := 0 }
            (BitVec.ofNat 16 (firstVlan 0 fcoeCntlr.vlan)) ↔
          (vid = BitVec.ofNat 16 (firstVlan 0 fcoeCntlr.vlan) ∧
            BitVec.ofNat 16 (firstVlan 0 fcoeCntlr.vlan) ≠ 0) ∨
            (vid = (s.cna.cnas a).fcoeVlanId ∧ vid ≠ 0) := by
        intro vid
        have hcleared : ({ s.cna.cnas a with fcoeVlanId := 0 } : Cna).netdev.vids.Nodup := h.nodup a
        refine (mem_vidsAfter hcleared).trans ?_
        rw [← (h.tagged a).vids]
        simp
      have hwidth : (fcoeCntlr.priority.setWidth 8).toNat = fcoeCntlr.priority.toNat % 256 :=
        BitVec.toNat_setWidth _ _
      constructor
      · rintro ⟨hold, htaggable⟩
        have hpriority : (fcoeCntlr.priority.setWidth 8).toNat = fcoeCntlr.priority.toNat := by
          have hsmall := htaggable.2.1
          omega
        refine ⟨?_, hpriority, ?_⟩
        · intro vid
          rw [hmem]
          constructor
          · rintro (⟨rfl, hne⟩ | ⟨rfl, hne⟩)
            · exact ⟨rfl, hne⟩
            · rcases hold with hzero | hsame
              · exact absurd hzero hne
              · exact ⟨hsame, hne⟩
          · rintro ⟨rfl, hne⟩
            exact .inl ⟨rfl, hne⟩
        · rw [hpriority]
          exact htaggable
      · rintro ⟨hvids, hpriority, htaggable⟩
        rw [hpriority] at htaggable
        refine ⟨?_, htaggable⟩
        by_cases hzero : (s.cna.cnas a).fcoeVlanId = 0
        · exact .inl hzero
        · have hkept := (hvids (s.cna.cnas a).fcoeVlanId).mp ((hmem _).mpr (.inr ⟨rfl, hzero⟩))
          exact .inr hkept.1

theorem destroy_vlan (h : VlanInv s) (answers : Answers) (vmnicName : List Char) (vnports : Int)
    (hstep : VlanStep s (.request (.destroy answers vmnicName vnports)) t) : VlanInv t := by
  obtain ⟨cna, hcall, rfl⟩ := Option.map_eq_some_iff.mp hstep
  have hok : s.cna.destroyController answers vmnicName vnports = .ok (true, cna) := by
    simp only [VlanState.call] at hcall
    split at hcall
    · next heq =>
      rw [← Option.some.inj hcall]
      exact heq
    · cases hcall
  rw [CnaState.destroyController] at hok
  cases hcontlr : s.cna.getVmklnxContlr vmnicName with
  | none =>
    rw [hcontlr] at hok
    cases hok
  | some contlr =>
  simp only [hcontlr] at hok
  split at hok
  · cases hok
  obtain ⟨ok, tqueue, rqueue, hclear, -⟩ := clearProperties_filters answers
    { s.cna.cnas contlr.cna with handle := none, rxHandler := false } (h.unlocked _) false
  rw [hclear, ok_bind] at hok
  cases ok with
  | false => cases hok
  | true =>
    obtain rfl := (Prod.mk.inj (Except.ok.inj hok)).2
    have htagged := h.tagged contlr.cna
    let cna' : Cna := { s.cna.cnas contlr.cna with
      handle := none
      rxHandler := false
      tqueue := tqueue
      rqueue := rqueue }
    have hcnas : (((s.cna.set contlr.cna cna').moduleDecUseCount contlr.fcoe.moduleId
        contlr.cna).moduleDecUseCount cna'.netdev.moduleId contlr.cna).cnas =
        Function.update s.cna.cnas contlr.cna cna' := rfl
    have hsame : True ↔ cna'.Tagged (s.given contlr.cna) := by
      rw [tagged_iff] at htagged ⊢
      exact iff_of_true trivial htagged
    have hunlocked : cna'.locked = false := h.unlocked contlr.cna
    have hnodup : cna'.netdev.vids.Nodup := h.nodup contlr.cna
    exact (VlanInv.update (t := ⟨_, s.given⟩) h (s.given contlr.cna) hcnas
      (Function.update_eq_self _ _).symm hunlocked hnodup hsame).1 trivial

theorem setVlanTag_vlan (h : VlanInv s) (answers : Answers) (a : Nat) (vid : BitVec 16)
    (hstep : VlanStep s (.setVlanTag answers a vid) t) :
    (VlanCareful s (.setVlanTag answers a vid) → VlanInv t) ∧
      (AllTagged t → VlanCareful s (.setVlanTag answers a vid)) := by
  obtain ⟨cna, hcall, rfl⟩ := Option.map_eq_some_iff.mp hstep
  rcases hset : Cna.setVlanTag answers (s.cna.cnas a) vid with ⟨ok, cna'⟩
  simp only [VlanState.call, hset] at hcall
  cases ok with
  | false => cases hcall
  | true =>
    cases hcall
    obtain ⟨group, rfl⟩ := setVlanTag_done hset
    refine h.update (s.given a) rfl (Function.update_eq_self _ _).symm (h.unlocked a)
      (nodup_vidsAfter (h.nodup a)) ?_
    rw [tagged_iff]
    have hvids : ∀ v, v ∈ (s.cna.cnas a).vidsAfter vid ↔ v = vid ∧ v ≠ 0 := by
      intro v
      rw [mem_vidsAfter (h.nodup a), (h.tagged a).vids]
      constructor
      · rintro (⟨rfl, hne⟩ | ⟨⟨rfl, hne⟩, hother⟩)
        · exact ⟨rfl, hne⟩
        · exact absurd rfl (hother hne)
      · rintro ⟨rfl, hne⟩
        exact .inl ⟨rfl, hne⟩
    constructor
    · intro htaggable
      exact ⟨hvids, (h.tagged a).priority, htaggable⟩
    · intro htagged
      exact htagged.2.2

theorem setApplication_done {netdevName : List Char} {setapp : Option (BitVec 8)}
    {app app' : DcbApplication} {cna : CnaState}
    (hset : s.cna.setApplication netdevName setapp app = (.ok, app', cna)) :
    cna = (s.cna.updateFcoePriority netdevName app.priority).2 := by
  cases setapp with
  | none => cases hset
  | some ret =>
    simp only [CnaState.setApplication] at hset
    split at hset
    · exact (Prod.mk.inj (Prod.mk.inj hset).2).2.symm
    · cases hset

theorem setApplication_vlan (h : VlanInv s) (netdevName : List Char) (setapp : Option (BitVec 8))
    (app : DcbApplication) (hstep : VlanStep s (.setApplication netdevName setapp app) t) :
    (VlanCareful s (.setApplication netdevName setapp app) → VlanInv t) ∧
      (AllTagged t → VlanCareful s (.setApplication netdevName setapp app)) := by
  obtain ⟨cna, hcall, rfl⟩ := Option.map_eq_some_iff.mp hstep
  have hok : cna = (s.cna.updateFcoePriority netdevName app.priority).2 := by
    simp only [VlanState.call] at hcall
    split at hcall
    · next heq =>
      rw [← Option.some.inj hcall]
      exact setApplication_done heq
    · cases hcall
  have hsame : ∀ {t : VlanState}, t = s → VlanInv t := by
    rintro t rfl
    exact h
  rw [hok, CnaState.updateFcoePriority]
  -- an empty bitmap is ignored
  by_cases hbitmap : app.priority = 0
  · rw [if_pos hbitmap]
    constructor
    · intro _
      apply hsame
      rw [VlanState.givenAfter]
      split
      · rw [if_neg fun hand => hand.2 hbitmap]
      · rfl
    · intro _ a _ hne
      exact absurd hbitmap hne
  rw [if_neg hbitmap]
  cases hlookup : s.cna.lookupByName netdevName with
  | none =>
    constructor
    · intro _
      apply hsame
      simp only [VlanState.givenAfter, hlookup]
    · intro _ a ha
      rw [hlookup] at ha
      cases ha
  | some a =>
    obtain ⟨hsmall, -, -⟩ := fcoePriority_spec hbitmap
    have hpriority : (BitVec.ofNat 8 (fcoePriority app.priority)).toNat =
        fcoePriority app.priority := by
      rw [BitVec.toNat_ofNat]
      omega
    let cna' : Cna := { s.cna.cnas a with
      fcoeAppPrio := BitVec.ofNat 8 (fcoePriority app.priority) }
    -- the priority is stored, or it was this one before
    have hcnas : (if (s.cna.cnas a).fcoeAppPrio ≠ BitVec.ofNat 8 (fcoePriority app.priority) then
        (true, s.cna.set a cna') else (true, s.cna)).2.cnas =
        Function.update s.cna.cnas a cna' := by
      split
      · rfl
      · next hsame =>
        have hself : cna' = s.cna.cnas a := by
          simp only [cna', ← not_ne_iff.mp hsame]
        rw [hself, Function.update_eq_self]
    have hgiven : s.givenAfter (.setApplication netdevName setapp app) = Function.update s.given a
        (if app.IsFcoe then fcoePriority app.priority else s.given a) := by
      simp only [VlanState.givenAfter, hlookup, ne_eq, hbitmap, not_false_eq_true, and_true]
      split
      · rfl
      · exact (Function.update_eq_self _ _).symm
    have hguard : VlanCareful s (.setApplication netdevName setapp app) ↔
        cna'.Tagged (if app.IsFcoe then fcoePriority app.priority else s.given a) := by
      rw [tagged_iff]
      simp only [VlanCareful, hlookup, Option.mem_some_iff, forall_eq', ne_eq, hbitmap,
        not_false_eq_true, forall_true_left]
      have hnow := (h.tagged a).priority
      show _ ↔ _ ∧ (BitVec.ofNat 8 (fcoePriority app.priority)).toNat = _ ∧
        NetDevice.Taggable _ _ (BitVec.ofNat 8 (fcoePriority app.priority)).toNat
      rw [hpriority]
      -- any protocol sets the priority, and only that of FCoE is to
      constructor
      · rintro ⟨hprotocol, htaggable⟩
        refine ⟨(h.tagged a).vids, ?_, htaggable⟩
        split
        · rfl
        · next hother =>
          rcases hprotocol with hfcoe | hsame
          · exact absurd hfcoe hother
          · rw [hsame, hnow]
      · rintro ⟨-, htaken, htaggable⟩
        refine ⟨?_, htaggable⟩
        split at htaken
        · next hfcoe => exact .inl hfcoe
        · rw [htaken, hnow]
          exact .inr rfl
    exact h.update _ hcnas hgiven (h.unlocked a) (h.nodup a) hguard

theorem vlanStep_spec {call : VlanCall} (h : VlanInv s) (hstep : VlanStep s call t) :
    (VlanCareful s call → VlanInv t) ∧ (AllTagged t → VlanCareful s call) := by
  cases call with
  | request req =>
    cases req with
    | create answers fcoeCntlr => exact create_vlan h answers fcoeCntlr hstep
    | destroy answers vmnicName vnports =>
      exact ⟨fun _ => destroy_vlan h answers vmnicName vnports hstep, fun _ => trivial⟩
  | setVlanTag answers a vid => exact setVlanTag_vlan h answers a vid hstep
  | setApplication netdevName setapp app =>
    exact setApplication_vlan h netdevName setapp app hstep

end System

/-! ## Every run -/

/-- **FCoE frames.** Along a run of calls that succeed the filters, priorities and tags of all
    adapters are right just if every call meets the guard. -/
theorem frames_tagged_iff {adapters : List Nat} {netdev : Nat → NetDevice} {t : VlanState}
    {calls : List VlanCall} (hrun : Run VlanStep (.init adapters netdev) calls t) :
    Always VlanStep AllTagged (.init adapters netdev) calls ↔
      Run (Guarded VlanStep VlanCareful) (.init adapters netdev) calls t := by
  apply always_iff_guarded (I := VlanInv) _ _ _ hrun (VlanInv.init adapters netdev)
  · intro s call t t' ht ht'
    exact Option.some.inj (ht.symm.trans ht')
  · intro s h
    exact h.tagged
  · intro s call t h hstep
    exact vlanStep_spec h hstep

def fcoeApp (priority : BitVec 8) : DcbApplication := ⟨false, .l2EthType, ethPFcoe, priority⟩

/-- A controller is created with VLAN 4 and priority 3, the fabric asks for VLAN 7 and the DCB
    daemon for priority 5, the controller is destroyed, and created again with VLAN 4 when the VLAN
    has been taken back. -/
def taggedRun : List VlanCall :=
  [.request (.create { clients := [transport] } vlan4), .setVlanTag {} 0 7,
    .setApplication "vmnic0".toList (some 0) (fcoeApp 32),
    .request (.destroy {} "vmnic0".toList 0), .setVlanTag {} 0 0,
    .request (.create { clients := [transport] } vlan4)]

theorem frames_tagged_taggedRun : Always VlanStep AllTagged (.init [0] vmnic) taggedRun := by
  have hexec : ∃ s, Run.exec
      (fun s call => if VlanCareful s call then vlanNext? s call else none)
      (.init [0] vmnic) taggedRun = some s := ⟨_, rfl⟩
  obtain ⟨s, hs⟩ := hexec
  have hsound : ∀ s call t, (if VlanCareful s call then vlanNext? s call else none) = some t →
      Guarded VlanStep VlanCareful s call t := by
    intro s call t h
    exact (guarded_eq_some_iff (T := VlanStep) (fun _ _ _ => Iff.rfl) s call t).mp h
  have hguarded := Run.of_exec hsound hs
  exact (frames_tagged_iff (hguarded.mono fun _ _ _ h => h.2)).mpr hguarded

/-- A controller is created again with VLAN 4 while the fabric has it use VLAN 7, which stays in
    the filter; iSCSI is given priority 5, and the frames of FCoE have it; and the fabric asks for a
    VLAN that the tag cannot hold. -/
theorem vlan_kept :
    (∃ s, Run VlanStep (.init [0] vmnic)
        [.request (.create { clients := [transport] } vlan4), .setVlanTag {} 0 7,
          .request (.destroy {} "vmnic0".toList 0),
          .request (.create { clients := [transport] } vlan4)] s ∧
      (s.cna.cnas 0).netdev.vids = [4, 7] ∧ (s.cna.cnas 0).fcoeVlanId = 4 ∧ ¬AllTagged s) ∧
    (∃ s, Run VlanStep (.init [0] vmnic) [.request (.create { clients := [transport] } vlan4),
          .setApplication "vmnic0".toList (some 0) ⟨false, .socketNum, 3260, 32⟩] s ∧
      (s.cna.cnas 0).fcoeAppPrio = 5 ∧ s.given 0 = 3 ∧ ¬AllTagged s) ∧
    (∃ s, Run VlanStep (.init [0] vmnic)
        [.request (.create { clients := [transport] } vlan4), .setVlanTag {} 0 0x2007] s ∧
      (s.cna.cnas 0).queueXmit {} = some (0, ⟨some 0x6007, 3⟩) ∧
      (s.cna.cnas 0).fcoeVlanId = 0x2007 ∧ ¬AllTagged s) := by
  refine ⟨⟨_, Run.of_exec (f := vlanNext?) (fun _ _ _ h => h) rfl, rfl, rfl, ?_⟩,
    ⟨_, Run.of_exec (f := vlanNext?) (fun _ _ _ h => h) rfl, rfl, rfl, ?_⟩,
    ⟨_, Run.of_exec (f := vlanNext?) (fun _ _ _ h => h) rfl, rfl, rfl, ?_⟩⟩
  · intro hall
    have hkept := ((hall 0).vids 7).mp (by decide)
    exact absurd hkept.1 (by decide)
  · intro hall
    exact absurd (hall 0).priority (by decide)
  · intro hall
    have htaggable := (tagged_iff.mp (hall 0)).2.2
    exact absurd htaggable.1 (by decide)

end VmkDrivers.Vmklinux
