/-
  VmkDrivers.Wfs.Defs

  Data types and constants of the WFS ring driver (`ixgbe_wfs_enc.h`,
  `ixgbe_wfs_raps.h`, `ixgbe_wfs.h`), as far as the modelled functions read
  or write them.

  A station id is a `WfsId`, the index `wfsid - 1` of its entry in
  `wfspeer[]`; the byte on the wire is `WfsId.byte`.  Pointers to the two
  adapters of a card are a `Port`, the null pointer being `none`, so
  `channel_pri == channel_sec` is equality of `Option Port`.
-/

import Mathlib

namespace VmkDrivers.Wfs

/-! ## Station ids -/

def wfsidMin : UInt8 := 1
def wfsidMax : UInt8 := 8
def wfsidAll : UInt8 := 0xFF

/-- A valid station id, `WFSID_MIN ..= WFSID_MAX`, as index into `wfspeer[]`. -/
abbrev WfsId := Fin 8

namespace WfsId

instance neZero : NeZero 8 := ⟨by decide⟩

def byte (id : WfsId) : UInt8 := UInt8.ofNat (id.val + 1)

/-- The table index `b - 1` of an id byte, if it lies inside the tables. -/
def ofByte? (b : UInt8) : Option WfsId :=
  if h : wfsidMin ≤ b ∧ b ≤ wfsidMax then some ⟨b.toNat - 1, by
    have h1 : b.toNat ≤ 8 := UInt8.le_iff_toNat_le.mp h.2
    omega⟩
  else none

@[simp] theorem ofByte?_byte (id : WfsId) : ofByte? id.byte = some id := by
  revert id; decide

@[simp] theorem byte_ne_all (id : WfsId) : id.byte ≠ wfsidAll := by
  revert id; decide

theorem byte_injective : Function.Injective byte := by
  intro a b h
  have := congrArg ofByte? h
  simpa using this

@[simp] theorem byte_inj {a b : WfsId} : a.byte = b.byte ↔ a = b :=
  byte_injective.eq_iff

theorem ofByte?_eq_some_iff {b : UInt8} {id : WfsId} : ofByte? b = some id ↔ id.byte = b := by
  constructor
  · intro h
    simp only [ofByte?] at h
    split at h
    · next hb =>
      have h1 : 1 ≤ b.toNat := UInt8.le_iff_toNat_le.mp hb.1
      have h2 : b.toNat ≤ 8 := UInt8.le_iff_toNat_le.mp hb.2
      simp only [Option.some.injEq] at h
      subst h
      simp only [byte]
      rw [Nat.sub_add_cancel h1, UInt8.ofNat_toNat]
    · next hb => simp at h
  · rintro rfl
    exact ofByte?_byte id

end WfsId

/-! ## Adapters -/

inductive MacType where
  | mac82598EB
  | mac82599EB
  | macX540
deriving DecidableEq, Repr

/-- The two ring ports of a card: `iwa->primary` and `iwa->secondary`. -/
inductive Port where
  | primary
  | secondary
deriving DecidableEq, Repr

/-- `adapter->wfs_other`. -/
def Port.other : Port → Port
  | .primary => .secondary
  | .secondary => .primary

@[simp] theorem Port.other_other (p : Port) : p.other.other = p := by cases p <;> rfl

@[simp] theorem Port.other_ne (p : Port) : p.other ≠ p := by cases p <;> decide

theorem Port.forall_iff {P : Port → Prop} : (∀ p, P p) ↔ P .primary ∧ P .secondary :=
  ⟨fun h => ⟨h _, h _⟩, fun h p => by cases p; exacts [h.1, h.2]⟩

instance {P : Port → Prop} [DecidablePred P] : Decidable (∀ p, P p) :=
  decidable_of_iff' _ Port.forall_iff

theorem Port.eq_or_eq_other (p q : Port) : q = p ∨ q = p.other := by
  cases p <;> cases q <;> simp [Port.other]

/-- `enum ixgbe_wfs_adapter_state`. -/
inductive AdapterState where
  | unused
  | allocated
  | partialInitialized
  | initialized
  | opened
  | closed
  | suspended
deriving DecidableEq, Repr

abbrev Mac := Vector UInt8 6

def Mac.broadcast : Mac := Vector.replicate 6 0xff

/-- `is_multicast_ether_addr` -/
def Mac.isGroup (mac : Mac) : Prop := mac.head &&& 1 ≠ 0

instance (mac : Mac) : Decidable mac.isGroup := inferInstanceAs (Decidable (_ ≠ _))

/-! ## Protection-switching state machine -/

inductive WfsFsmState where
  /-- `S_init`: no channel to the station is known. -/
  | init
  /-- `S_idle`: the primary channel is active. -/
  | idle
  /-- `S_protect`: the secondary channel is active. -/
  | protect
deriving DecidableEq, Repr

inductive WfsFsmEvent where
  | discover
  | expire
  | localSF
  | clearLocalSF
  | rapsSF
  | rapsNR
deriving DecidableEq, Repr

/-- `wfs_fsm_announce_event_data`. -/
structure AnnounceEventData where
  isPrimaryAnnouce : Bool := false
  peerPort : UInt8 := 0
  recvChannel : Option Port := none
deriving DecidableEq, Repr

/-- `wfs_fsm_raps_event_data`. -/
structure RapsEventData where
  failureOnPrimary : Bool := false
  flush : Bool := false
deriving DecidableEq, Repr

/-- `wfs_fsm_event_data`.  An `E_discover` reads the announce member of the union
    only and an `E_rapsSF` the raps member only, so both are kept side by side; the
    default value is the zeroed union of an event without data. -/
structure WfsFsmEventData where
  announce : AnnounceEventData := {}
  raps : RapsEventData := {}
deriving DecidableEq, Repr

/-- The payload of a queued `wfs_fsm_event_buffer`.  `ixgbe_wfs_fsm_set_event` stores
    only ids of its loop over `WFSID_MIN ..= WFSID_MAX`; the range check of
    `wfs_fsm_run` is carried by the type `WfsId`. -/
structure EventRec where
  wfsid : WfsId
  event : WfsFsmEvent
  data : WfsFsmEventData
deriving DecidableEq, Repr

structure WfsPeer where
  mac : Mac := Vector.replicate 6 0
  ip : UInt32 := 0
  /-- The peer's port numbers, `-1` when unknown. -/
  portPri : Int := 0
  portSec : Int := 0
  ttlPri : Int := 0
  ttlSec : Int := 0
  /-- Local port toward the peer's primary port. -/
  channelPri : Option Port := none
  channelSec : Option Port := none
  fsmState : WfsFsmState := .init
deriving DecidableEq, Repr

/-! ## Timers -/

def hz : Int := 100
def rapsTick : Int := 1 * hz
def rapsAnnounceInt : Int := 5 * hz
def rapsPeerTimeout : Int := 30 * hz
def rapsSFInt : Int := 1 * hz
def rapsNRInt : Int := 1 * hz
def rapsNRCount : Int := 2 * rapsAnnounceInt / rapsTick

/-- The bits of `raps_ctrl.flag`. -/
structure RapsFlag where
  peerTtl : Bool := false
  announce : Bool := false
  nr : Bool := false
  sf : Bool := false
  fsmEvent : Bool := false
deriving DecidableEq, Repr

/-- `struct raps_timer_ctrl` without its event queue, which is part of the pool of
    event buffers. -/
structure RapsCtrl where
  flag : RapsFlag := {}
  tAnnounce : Int := 0
  tPeer : Int := 0
  tRapsSF : Int := 0
  tRapsNR : Int := 0
  cRapsNR : Int := 0
deriving DecidableEq, Repr

/-! ## Effects -/

/-- A call into `ixgbe_wfs_fib.c`.  The forwarding table never feeds back into the code
    that makes the call, so the calls are emitted in order and the table is a
    component of its own. -/
inductive FibCall where
  | update (vid : UInt16) (mac : Mac) (ip : UInt32) (wfsid : UInt8)
  | deleteWfsid (wfsid : UInt8)
deriving DecidableEq, Repr

/-- A control message `raps_main` sends. -/
inductive TxCall where
  | announce
  | raps (event : WfsFsmEvent)
deriving DecidableEq, Repr

/-- The `BUG_ON` checks of the modelled code. -/
inductive BugSite where
  /-- `wfs_fsm_action_expire`: `wfsid == myID`. -/
  | expireLocal
  /-- `wfs_fsm_action_clear_localSF`: `wfsid != myID`. -/
  | clearLocalSFRemote
  /-- `wfs_fsm_action_rapsSF`: `wfsid == myID`. -/
  | rapsSFLocal
  /-- `wfs_fsm_run`: `S_idle` without a primary channel. -/
  | idleWithoutPrimary
  /-- `wfs_fsm_run`: `S_protect` without a secondary channel. -/
  | protectWithoutSecondary
  /-- `ixgbe_wfs_fib_update`, `ixgbe_wfs_fib_delete_wfsid`: `wfsid` out of range. -/
  | fibWfsid
  /-- `add_timer`: the timer is pending. -/
  | timerPending
  /-- `wfspkt_set_sequence`, `wfspkt_set_raps`: the header outgrows `WFSPKT_MAX_SIZE`. -/
  | pktSize
deriving DecidableEq, Repr

inductive Fault where
  | bugOn (site : BugSite)
  /-- An index outside `0 .. WFSID_MAX-1` into `wfspeer[]` or `wfsbert[]`. -/
  | tableIndex
  | nullDeref
  /-- A loop that never ends. -/
  | diverges
deriving DecidableEq, Repr

end VmkDrivers.Wfs
