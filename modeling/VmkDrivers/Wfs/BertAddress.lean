/-
  VmkDrivers.Wfs.BertAddress

  Whom a bit error rate test asks.

  `ixgbe_wfs_get_bert_skb` is given the station to test, but `wfspkt_init`
  addresses the frame by the MAC address of that station, which it looks up in
  the forwarding table.  The frame goes to the station, and is answered by no
  other one, exactly if the table has it for the key of the search
  (`bert_addressed_iff`).  Without an entry the frame goes to every station, and
  every one answers.
-/

import VmkDrivers.Wfs.BertTest
import VmkDrivers.Wfs.Encapsulation

namespace VmkDrivers.Wfs

open VmkDrivers.Lib

/-! ## Who handles a frame -/

/-- The frame gets to the handlers of the station `v`: it is not its own one, and for it. -/
def Skb.HandledBy (pkt : Skb) (v : WfsId) : Prop := pkt.src ≠ v.byte ∧ pkt.isFor v

section Handling

variable {π : Type} [EventStore π] {rb : Balancer Nat} {inp : RxInputs} {adapter : Port}
  {st : Station π} {pkt : Skb}

end Handling

theorem handledBy_iff_of_dest {pkt : Skb} {id w : WfsId} (hsrc : pkt.src = id.byte) (hw : w ≠ id)
    (hdest : pkt.dest = w.byte) (v : WfsId) : pkt.HandledBy v ↔ v = w := by
  unfold Skb.HandledBy Skb.isFor
  rw [hsrc, hdest]
  constructor
  · rintro ⟨-, hall | hv⟩
    · exact absurd hall (WfsId.byte_ne_all w)
    · exact (WfsId.byte_injective hv).symm
  · rintro rfl
    exact ⟨fun heq => hw (WfsId.byte_injective heq).symm, .inr rfl⟩

/-! ## The address of the frame -/

/-- The destination of a test frame of the station `w`. -/
def bertDest (core : RapsCore) (fib : Fib) (key : FibKey) (w : WfsId) : UInt8 :=
  if (core.peer w).mac.isGroup then wfsidAll else fib.result key

section Address

variable {core : RapsCore} {fib : Fib} {key : FibKey} {buf : Skb} {w : WfsId} {data : List UInt8}

theorem bertDest_eq_iff :
    bertDest core fib key w = w.byte ↔
      ¬(core.peer w).mac.isGroup ∧ fib.content key = some w.byte := by
  unfold bertDest Fib.result
  by_cases hgroup : (core.peer w).mac.isGroup
  · rw [if_pos hgroup]
    exact iff_of_false (WfsId.byte_ne_all w).symm fun h => h.1 hgroup
  · rw [if_neg hgroup]
    cases fib.content key with
    | none => exact iff_of_false (WfsId.byte_ne_all w).symm fun h => nomatch h.2
    | some b => exact ⟨fun h => ⟨hgroup, congrArg some h⟩, fun h => Option.some.inj h.2⟩

theorem wfspktInit_bert_dest (hok : Fib.FibOk fib) (mac : Mac) :
    (if (if mac.isGroup then wfspktTypeCtrlBert ||| wfspktTypeBroadcastMask
      else wfspktTypeCtrlBert) &&& wfspktTypeBroadcastMask ≠ 0 then wfsidAll
      else fib.ixgbeWfsFibLookup key 0 mac) =
        if mac.isGroup then wfsidAll else fib.result key := by
  by_cases hgroup : mac.isGroup
  · rw [if_pos hgroup, if_pos hgroup, if_pos (by decide)]
  · rw [if_neg hgroup, if_neg hgroup, if_neg (by decide), Fib.lookup_eq hok]
    rfl

theorem wfspktInit_bert {p : Skb} (hok : Fib.FibOk fib)
    (h : wfspktInit core fib key buf wfspktTypeCtrlBert 0 (core.peer w).mac = .ok p) :
    p.dest = bertDest core fib key w := by
  unfold wfspktInit at h
  dsimp only at h
  rw [wfspktInit_bert_dest hok, ← bertDest] at h
  generalize bertDest core fib key w = dest at h ⊢
  split at h
  · cases h
    rfl
  · split at h
    · cases h
      rfl
    · cases h

theorem wfspktInit_bert_station (hok : Fib.FibOk fib) (hdest : bertDest core fib key w = w.byte) :
    ∃ p, wfspktInit core fib key buf wfspktTypeCtrlBert 0 (core.peer w).mac = .ok p ∧
      p.dest = w.byte ∧ p.hDest = (core.peer w).mac := by
  unfold wfspktInit
  dsimp only
  rw [wfspktInit_bert_dest hok]
  unfold bertDest at hdest
  rw [hdest, if_neg (WfsId.byte_ne_all w), WfsId.ofByte?_byte]
  exact ⟨_, rfl, rfl, rfl⟩

theorem getBertSkb_of_init {csum : UInt16} {p : Skb}
    (h : wfspktInit core fib key buf wfspktTypeCtrlBert 0 (core.peer w).mac = .ok p) :
    ∃ pkt, ixgbeWfsGetBertSkb core fib key w data csum buf = .ok pkt ∧ pkt.dest = p.dest ∧
      pkt.hDest = p.hDest ∧ pkt.src = core.wfsId.byte := by
  obtain ⟨-, hsrc, hlen, -⟩ := wfspktInit_header h
  unfold ixgbeWfsGetBertSkb getWfsBertPkt wfspktSetBert
  rw [h]
  simp only [ok_bind, appendOpt_eq hlen _ (show (19 : UInt8) ≤ 46 by decide)]
  exact ⟨_, rfl, rfl, rfl, hsrc⟩

theorem getBertSkb_dest {csum : UInt16} {pkt : Skb} (hok : Fib.FibOk fib)
    (h : ixgbeWfsGetBertSkb core fib key w data csum buf = .ok pkt) :
    pkt.dest = bertDest core fib key w := by
  have hget := h
  obtain ⟨q, hpkt, -⟩ := bind_eq_ok.mp hget
  obtain ⟨p, hinit, -⟩ := bind_eq_ok.mp hpkt
  obtain ⟨pkt', hpkt', hdest, -⟩ := getBertSkb_of_init hinit
  obtain rfl := Except.ok.inj (h.symm.trans hpkt')
  exact hdest.trans (wfspktInit_bert hok hinit)

/-- The frame is for the station `w` and nobody else. -/
def BertAddressed (core : RapsCore) (w : WfsId) (frame : Except Fault Skb) : Prop :=
  ∃ pkt, frame = .ok pkt ∧ pkt.dest = w.byte ∧ pkt.hDest = (core.peer w).mac ∧
    ∀ v, pkt.HandledBy v ↔ v = w

/-- **A test asks its responder** and nobody else exactly if the address of the responder is no
    group address and the table has the responder for the key left over in the local variable of
    `my_search`. -/
theorem bert_addressed_iff (rb : Balancer Nat) {kmalloc : Nat → Bool} {fibOps : List FibOp}
    (hinit : (Fib.ixgbeWfsFibInit kmalloc).2 = true)
    (hfib : Run (FibStep rb) (Fib.ixgbeWfsFibInit kmalloc).1 fibOps fib)
    (hw : w ≠ core.wfsId) (data : List UInt8) (csum : UInt16) :
    BertAddressed core w (ixgbeWfsGetBertSkb core fib key w data csum buf) ↔
      ¬(core.peer w).mac.isGroup ∧ fib.content key = some w.byte := by
  have hok := Fib.fibOk_of_run rb hinit hfib
  rw [← bertDest_eq_iff]
  constructor
  · rintro ⟨pkt, hpkt, hdest, -, -⟩
    exact (getBertSkb_dest hok hpkt).symm.trans hdest
  · intro hstation
    obtain ⟨p, hp, hpdest, hpmac⟩ := wfspktInit_bert_station hok hstation
    obtain ⟨pkt, hpkt, hdest, hmac, hsrc⟩ := getBertSkb_of_init hp
    have haddressed := hdest.trans hpdest
    exact ⟨pkt, hpkt, haddressed, hmac.trans hpmac, handledBy_iff_of_dest hsrc hw haddressed⟩

end Address

/-! ## Right after the start -/

/-- The table of `ixgbe_wfs_fib_init` has no entries. -/
theorem bert_addressed_iff_emptyTable :
    BertAddressed (testStation 0).iwa.core 1
        (ixgbeWfsGetBertSkb (testStation 0).iwa.core (Fib.ixgbeWfsFibInit fun _ => true).1
          ⟨0, Vector.replicate 6 0⟩ 1 [0] 0 (usedBuffer 0)) ↔
      ¬((testStation 0).iwa.core.peer 1).mac.isGroup ∧
        (Fib.ixgbeWfsFibInit fun _ => true).1.content ⟨0, Vector.replicate 6 0⟩ =
          some (WfsId.byte 1) :=
  bert_addressed_iff .plain Fib.init_of_kmalloc (.nil _) (by decide) [0] 0

/-- The frame for a station that was discovered goes to every station when the table has no
    entry of it. -/
theorem bert_addressed_everyStation :
    ((testStation 0).iwa.core.peer 1).fsmState = .idle ∧
      ∃ pkt, ixgbeWfsGetBertSkb (testStation 0).iwa.core (Fib.ixgbeWfsFibInit fun _ => true).1
          ⟨0, Vector.replicate 6 0⟩ 1 [0] 0 (usedBuffer 0) = .ok pkt ∧
        pkt.dest = wfsidAll ∧ pkt.HandledBy 2 ∧
        ¬BertAddressed (testStation 0).iwa.core 1 (.ok pkt) := by
  have heval : ((ixgbeWfsGetBertSkb (testStation 0).iwa.core
      (Fib.ixgbeWfsFibInit fun _ => true).1 ⟨0, Vector.replicate 6 0⟩ 1 [0] 0
        (usedBuffer 0)).map fun pkt => (pkt.src, pkt.dest)) = .ok (1, wfsidAll) := by
    decide +kernel
  refine ⟨rfl, ?_⟩
  generalize ixgbeWfsGetBertSkb (testStation 0).iwa.core (Fib.ixgbeWfsFibInit fun _ => true).1
    ⟨0, Vector.replicate 6 0⟩ 1 [0] 0 (usedBuffer 0) = skb at heval ⊢
  cases skb with
  | error e => cases heval
  | ok pkt =>
    obtain ⟨hsrc, hdest⟩ := Prod.mk.inj (Except.ok.inj heval)
    refine ⟨pkt, rfl, hdest, ⟨by rw [hsrc]; decide, .inl hdest⟩, ?_⟩
    rintro ⟨pkt', heq, hstation, -⟩
    cases heq
    exact WfsId.byte_ne_all 1 (hstation.symm.trans hdest)

end VmkDrivers.Wfs
