/-
  VmkDrivers.Vmklinux.NetTx

  Transmit: `netdev_tx_internal` of `linux_net.c`, with the freeing of an skb.

  The function works its packet list off from the front.  Every packet ends
  in one of three places: with the driver, on `freeList`, which is released
  at the end, or back on the caller's list.  A packet the driver refuses
  stays out of its skb's hands by an extra reference on the skb's frags.

  All exits give `_xmit_lock` back if it was taken, except the one for a
  device that is not up, which gives it back always.  In a panic nobody has
  taken it, so what the function promises fails on just the runs that reach
  that exit in a panic (`netdevTxInternal_iff`).

  An skb made from a packet has no head of its own, no frags of vmklinux and
  no frag list, so `skb_release_data` is modelled without these branches.
-/

import Mathlib

namespace VmkDrivers.Vmklinux

/-! ## State -/

/-- `VMK_ReturnStatus`, as far as the transmit path returns it. -/
inductive TxReturn where
  | ok
  | busy
  | failure
  | isDisabled
  | noMemory
deriving DecidableEq, Repr

/-- `struct sk_buff`: its packet and its reference counts, as `do_init_skb_bits` sets them. -/
structure SkBuff (Pkt : Type) where
  pkt : Option Pkt := none
  users : Int := 1
  dataref : Int := 1
  fragsref : Int := 1

/-- What is done to the `_xmit_lock` of a queue. -/
inductive XmitLockOp where
  | lock (queue : Nat)
  | unlock (queue : Nat)
deriving DecidableEq, Repr

/-- `struct net_device` as the call finds it. -/
structure TxDevice where
  blocked : Bool
  realNumTxQueues : Nat
  numTxQueues : Nat
  linnetTxPackets : UInt64
  linnetTxDropped : UInt64

/-- What one turn of the loop finds.  The driver and other contexts may change the device
    between two turns. -/
structure TxTurn where
  /-- `dev->flags & IFF_UP`. -/
  up : Bool
  /-- `netif_tx_queue_stopped`; `stressNetIfFailTxAndStopQueue` stops the queue at the start of
      the call. -/
  stopped : Bool
  /-- `VMKLNX_STRESS_DEBUG_COUNTER(stressNetIfFailHardTx)`. -/
  stress : Bool
  /-- Whether `do_alloc_skb` finds memory. -/
  alloc : Bool
  /-- What the checks of `map_pkt_to_skb` say of the packet. -/
  mapRet : TxReturn
  /-- What `hard_start_xmit` returns. -/
  xmitStatus : Int

def netdevTxOk : Int := 0
def netdevTxBusy : Int := 1

/-- The packets, the skbs and the counters during a call.  An skb is known by its number in
    allocation order. -/
structure NetTx (Pkt : Type) where
  pktList : List Pkt
  freeList : List Pkt := []
  /-- What the driver owns. -/
  driver : List (Nat × Pkt) := []
  /-- Packets released together with an skb. -/
  pktReleased : List Pkt := []
  /-- Packets released through `freeList`. -/
  released : List Pkt := []
  skbs : Nat → Option (SkBuff Pkt) := fun _ => none
  allocated : Nat := 0
  /-- Freed skbs, in order. -/
  freed : List Nat := []
  linnetTxPackets : UInt64
  linnetTxDropped : UInt64
  lockOps : List XmitLockOp := []

section Code

variable {Pkt : Type}

/-- `netdev_pick_tx_queue`, with `vmk_NetqueueQueueIDUserVal`. -/
def netdevPickTxQueue (userVal : UInt64 → UInt64) (dev : TxDevice) (vmkqid : UInt64) : Nat :=
  if vmkqid = 0 then 0
  else
    let queueIdx := (userVal vmkqid &&& 0xffff).toNat
    if dev.realNumTxQueues ≤ queueIdx ∨ dev.numTxQueues ≤ queueIdx then 0 else queueIdx

namespace NetTx

def spinLock (queue : Nat) (s : NetTx Pkt) : NetTx Pkt :=
  { s with lockOps := s.lockOps ++ [.lock queue] }

def spinUnlock (queue : Nat) (s : NetTx Pkt) : NetTx Pkt :=
  { s with lockOps := s.lockOps ++ [.unlock queue] }

/-- `vmk_PktListAppend` and `vmk_PktListAppendPkt` to `freeList`. -/
def appendFree (pkts : List Pkt) (s : NetTx Pkt) : NetTx Pkt :=
  { s with freeList := s.freeList ++ pkts }

def setSkb (id : Nat) (skb : SkBuff Pkt) (s : NetTx Pkt) : NetTx Pkt :=
  { s with skbs := fun i => if i = id then some skb else s.skbs i }

def doAllocSkb (ok : Bool) (s : NetTx Pkt) : Option (Nat × NetTx Pkt) :=
  if ok then some (s.allocated, { s.setSkb s.allocated {} with allocated := s.allocated + 1 })
  else none

def doFreeSkb (id : Nat) (s : NetTx Pkt) : NetTx Pkt :=
  { s with skbs := fun i => if i = id then none else s.skbs i, freed := s.freed ++ [id] }

def skbReleaseData (id : Nat) (skb : SkBuff Pkt) (s : NetTx Pkt) : NetTx Pkt :=
  let skb := { skb with dataref := skb.dataref - 1 }
  if skb.dataref = 0 then
    let skb := { skb with fragsref := skb.fragsref - 1 }
    let s := s.setSkb id skb
    if skb.fragsref = 0 then { s with pktReleased := s.pktReleased ++ skb.pkt.toList } else s
  else s.setSkb id skb

/-- `__kfree_skb`, which is `dev_kfree_skb_any`. -/
def kfreeSkb (id : Nat) (skb : SkBuff Pkt) (s : NetTx Pkt) : NetTx Pkt :=
  let skb := { skb with users := skb.users - 1 }
  if skb.users = 0 then (s.skbReleaseData id skb).doFreeSkb id else s.setSkb id skb

def mapPktToSkb (t : TxTurn) (pkt : Pkt) (s : NetTx Pkt) :
    TxReturn × Option (Nat × SkBuff Pkt) × NetTx Pkt :=
  match s.doAllocSkb t.alloc with
  | none => (.noMemory, none, s)
  | some (id, s) =>
    let skb : SkBuff Pkt := { pkt := some pkt }
    let s := s.setSkb id skb
    if t.mapRet ≠ .ok then (t.mapRet, none, s.doFreeSkb id) else (.ok, some (id, skb), s)

/-- The loop of `netdev_tx_internal`, from the `i`-th turn on.  A turn takes the first packet
    off the list or is the last one. -/
def txLoop (turns : Nat → TxTurn) (queue : Nat) (needsLock : Bool) :
    Nat → List Pkt → NetTx Pkt → TxReturn × NetTx Pkt
  | _, [], s =>
    let s := if needsLock then s.spinUnlock queue else s
    (.ok, { s with pktList := [] })
  | i, pkt :: pktList, s =>
    let t := turns i
    if !t.up then
      (.isDisabled, { (s.spinUnlock queue).appendFree (pkt :: pktList) with pktList := [] })
    else if t.stopped then
      let s := if needsLock then s.spinUnlock queue else s
      (.busy, { s with pktList := pkt :: pktList })
    else if t.stress then txLoop turns queue needsLock (i + 1) pktList (s.appendFree [pkt])
    else
      match s.mapPktToSkb t pkt with
      | (_, none, s) => txLoop turns queue needsLock (i + 1) pktList (s.appendFree [pkt])
      | (_, some (id, skb), s) =>
        if t.xmitStatus ≠ netdevTxOk then
          let s := if needsLock then s.spinUnlock queue else s
          -- destroy the skb besides the packet handle itself
          let skb := { skb with fragsref := skb.fragsref + 1 }
          let s := (s.setSkb id skb).kfreeSkb id skb
          (if t.xmitStatus = netdevTxBusy then .busy else .failure,
            { s with pktList := pktList ++ [pkt] })
        else
          txLoop turns queue needsLock (i + 1) pktList
            { s with
              driver := s.driver ++ [(id, pkt)]
              linnetTxPackets := s.linnetTxPackets + 1 }

/-- The end of `netdev_tx_internal`: "Free whatever could not be txed". -/
def freeAll (s : NetTx Pkt) : NetTx Pkt :=
  if s.freeList.length ≠ 0 then
    { s with
      linnetTxDropped := s.linnetTxDropped + UInt64.ofNat s.freeList.length
      released := s.released ++ s.freeList, freeList := [] }
  else s

end NetTx

structure TxCallEnv where
  userVal : UInt64 → UInt64
  /-- `VMKLNX_STRESS_DEBUG_COUNTER(stressNetIfFailHardTx)` at the start. -/
  stress : Bool
  turns : Nat → TxTurn

def TxCallEnv.refuses (env : TxCallEnv) (dev : TxDevice) : Bool := dev.blocked || env.stress

def TxDevice.start (dev : TxDevice) (pktList : List Pkt) : NetTx Pkt where
  pktList
  linnetTxPackets := dev.linnetTxPackets
  linnetTxDropped := dev.linnetTxDropped

def netdevTxInternal (env : TxCallEnv) (dev : TxDevice) (pktList : List Pkt) (vmkqid : UInt64)
    (needsLock : Bool) : TxReturn × NetTx Pkt :=
  let queue := netdevPickTxQueue env.userVal dev vmkqid
  let s := dev.start pktList
  if env.refuses dev then (.ok, ({ s.appendFree pktList with pktList := [] } : NetTx Pkt).freeAll)
  else
    let s := if needsLock then s.spinLock queue else s
    let (ret, s) := s.txLoop env.turns queue needsLock 0 pktList
    (ret, s.freeAll)

def netdevTx (env : TxCallEnv) (dev : TxDevice) (pktList : List Pkt) (vmkqid : UInt64) :
    TxReturn × NetTx Pkt := netdevTxInternal env dev pktList vmkqid true

/-- `netdev_tx_panic`: does not take any spinlocks. -/
def netdevTxPanic (env : TxCallEnv) (dev : TxDevice) (pktList : List Pkt) (vmkqid : UInt64) :
    TxReturn × NetTx Pkt := netdevTxInternal env dev pktList vmkqid false

end Code

/-! ## What a turn keeps -/

/-- What holds with the packets `rest` still to be handled, of those in `pkts`. -/
structure TxInv {Pkt : Type} (dev : TxDevice) (pkts rest : List Pkt) (s : NetTx Pkt) : Prop where
  packets : (s.driver.map Prod.snd ++ s.freeList ++ rest).Perm pkts
  /-- Every skb is with the driver or freed. -/
  skbs : (s.driver.map Prod.fst ++ s.freed).Perm (List.range s.allocated)
  kept : s.pktReleased = []
  released : s.released = []
  counted : s.linnetTxPackets = dev.linnetTxPackets + UInt64.ofNat s.driver.length
  dropped : s.linnetTxDropped = dev.linnetTxDropped

section Turn

variable {Pkt : Type} {dev : TxDevice} {pkts rest : List Pkt} {pkt : Pkt} {s : NetTx Pkt}
  {t : NetTx Pkt} {id : Nat}

theorem TxInv.appendFree {a : List Pkt} (h : TxInv dev pkts (a ++ rest) s) :
    TxInv dev pkts rest (s.appendFree a) := by
  refine ⟨?_, h.skbs, h.kept, h.released, h.counted, h.dropped⟩
  have hpackets := h.packets
  rw [← List.append_assoc] at hpackets
  simpa only [NetTx.appendFree, List.append_assoc] using hpackets

theorem TxInv.congr (h : TxInv dev pkts rest s) (hdriver : t.driver = s.driver)
    (hfree : t.freeList = s.freeList) (hskbs : t.freed = s.freed)
    (halloc : t.allocated = s.allocated) (hkept : t.pktReleased = s.pktReleased)
    (hreleased : t.released = s.released) (hcounted : t.linnetTxPackets = s.linnetTxPackets)
    (hdropped : t.linnetTxDropped = s.linnetTxDropped) : TxInv dev pkts rest t := by
  constructor
  · rw [hdriver, hfree]
    exact h.packets
  · rw [hdriver, hskbs, halloc]
    exact h.skbs
  · rw [hkept, h.kept]
  · rw [hreleased, h.released]
  · rw [hcounted, hdriver, h.counted]
  · rw [hdropped, h.dropped]

theorem TxInv.unlock (h : TxInv dev pkts rest s) (queue : Nat) :
    TxInv dev pkts rest (s.spinUnlock queue) := by
  apply h.congr <;> rfl

structure SkbHolds {Pkt : Type} (s t : NetTx Pkt) (id : Nat) : Prop where
  id_eq : id = s.allocated
  allocated : t.allocated = s.allocated + 1
  freed : t.freed = s.freed
  driver : t.driver = s.driver
  freeList : t.freeList = s.freeList
  kept : t.pktReleased = s.pktReleased
  released : t.released = s.released
  counted : t.linnetTxPackets = s.linnetTxPackets
  dropped : t.linnetTxDropped = s.linnetTxDropped
  lockOps : t.lockOps = s.lockOps

theorem TxInv.freed (h : TxInv dev pkts rest s) (ht : SkbHolds s t id) :
    TxInv dev pkts rest (t.doFreeSkb id) := by
  constructor
  · have hpackets := h.packets
    rw [← ht.driver, ← ht.freeList] at hpackets
    exact hpackets
  · have hskbs := h.skbs.append_right [id]
    rw [List.append_assoc, ht.id_eq, ← List.range_succ] at hskbs
    change (t.driver.map Prod.fst ++ (t.freed ++ [id])).Perm (List.range t.allocated)
    rw [ht.driver, ht.freed, ht.allocated, ht.id_eq]
    exact hskbs
  · exact ht.kept.trans h.kept
  · exact ht.released.trans h.released
  · exact (ht.counted.trans h.counted).trans (by rw [← ht.driver]; rfl)
  · exact ht.dropped.trans h.dropped

theorem TxInv.handOver (h : TxInv dev pkts (pkt :: rest) s) (ht : SkbHolds s t id) :
    TxInv dev pkts rest { t with
      driver := t.driver ++ [(id, pkt)], linnetTxPackets := t.linnetTxPackets + 1 } := by
  constructor
  · have hpackets := h.packets
    rw [ht.driver, ht.freeList, List.map_append, List.map_singleton]
    refine List.Perm.trans ?_ hpackets
    rw [List.append_assoc, List.append_assoc, List.append_assoc]
    refine List.Perm.append_left _ ?_
    change (pkt :: (s.freeList ++ rest)).Perm _
    exact List.perm_middle.symm
  · have hskbs := h.skbs.append_right [id]
    rw [ht.id_eq, ← List.range_succ] at hskbs
    rw [ht.driver, ht.freed, ht.allocated, ht.id_eq, List.map_append, List.map_singleton,
      List.append_assoc]
    refine List.Perm.trans ?_ hskbs
    rw [List.append_assoc]
    exact List.perm_append_comm.append_left _
  · exact ht.kept.trans h.kept
  · exact ht.released.trans h.released
  · rw [ht.counted, h.counted, ht.driver, List.length_append, List.length_singleton,
      UInt64.ofNat_add, ← UInt64.add_assoc]
    rfl
  · exact ht.dropped.trans h.dropped

/-- **`map_pkt_to_skb`** leaves an skb for the packet, or none at all. -/
theorem mapPktToSkb_spec (t : TxTurn) (pkt : Pkt) (s : NetTx Pkt) :
    (∃ ret s', s.mapPktToSkb t pkt = (ret, none, s') ∧ (t.alloc = false ∨ t.mapRet ≠ .ok) ∧
        s'.lockOps = s.lockOps ∧ ∀ {dev pkts rest}, TxInv dev pkts rest s →
          TxInv dev pkts rest s') ∨
      ∃ id s', s.mapPktToSkb t pkt = (.ok, some (id, { pkt := some pkt }), s') ∧
        t.alloc = true ∧ t.mapRet = .ok ∧ SkbHolds s s' id := by
  unfold NetTx.mapPktToSkb NetTx.doAllocSkb
  cases halloc : t.alloc with
  | false => exact .inl ⟨_, _, rfl, .inl rfl, rfl, fun h => h⟩
  | true =>
    simp only [if_true]
    have hholds : SkbHolds s (({ s.setSkb s.allocated {} with
        allocated := s.allocated + 1 } : NetTx Pkt).setSkb s.allocated { pkt := some pkt })
        s.allocated := by
      constructor <;> rfl
    by_cases hmap : t.mapRet = .ok
    · rw [if_neg (not_not.mpr hmap)]
      exact .inr ⟨_, _, rfl, trivial, hmap, hholds⟩
    · rw [if_pos hmap]
      exact .inl ⟨_, _, rfl, .inr hmap, rfl, fun h => h.freed hholds⟩

theorem kfreeSkb_referenced (s : NetTx Pkt) (id : Nat) :
    let skb : SkBuff Pkt := { pkt := some pkt, fragsref := 2 }
    ((s.setSkb id skb).kfreeSkb id skb).pktReleased = s.pktReleased := rfl

theorem TxInv.refuse (h : TxInv dev pkts (pkt :: rest) s) (ht : SkbHolds s t id) :
    let skb : SkBuff Pkt := { pkt := some pkt, fragsref := 2 }
    TxInv dev pkts (rest ++ [pkt]) ((t.setSkb id skb).kfreeSkb id skb) := by
  intro skb
  have hfreed := h.freed ht
  constructor
  · refine List.Perm.trans ?_ hfreed.packets
    exact (List.perm_append_singleton pkt rest).append_left _
  · exact hfreed.skbs
  · exact (kfreeSkb_referenced t id).trans (ht.kept.trans h.kept)
  · exact hfreed.released
  · exact hfreed.counted
  · exact hfreed.dropped

end Turn

/-! ## The loop -/

def TxTurn.GoesOn (t : TxTurn) : Prop :=
  t.up = true ∧ t.stopped = false ∧
    (t.stress = true ∨ t.alloc = false ∨ t.mapRet ≠ .ok ∨ t.xmitStatus = netdevTxOk)

/-- Of `n` turns from the `i`-th on the loop reaches one that finds the device not up. -/
def ReachesDown (turns : Nat → TxTurn) (i n : Nat) : Prop :=
  ∃ k < n, (∀ j < k, (turns (i + j)).GoesOn) ∧ (turns (i + k)).up = false

section Loop

variable {turns : Nat → TxTurn} {i n : Nat}

theorem not_reachesDown_zero : ¬ReachesDown turns i 0 := by
  rintro ⟨k, hk, -⟩
  omega

theorem reachesDown_succ :
    ReachesDown turns i (n + 1) ↔
      (turns i).up = false ∨ (turns i).GoesOn ∧ ReachesDown turns (i + 1) n := by
  constructor
  · rintro ⟨k, hk, hgo, hdown⟩
    cases k with
    | zero => exact .inl hdown
    | succ k =>
      refine .inr ⟨hgo 0 (by omega), k, by omega, fun j hj => ?_, ?_⟩
      · have hnext := hgo (j + 1) (by omega)
        rwa [← Nat.add_assoc, Nat.add_right_comm] at hnext
      · rwa [Nat.add_right_comm, Nat.add_assoc]
  · rintro (hdown | ⟨hgo, k, hk, hrest, hdown⟩)
    · exact ⟨0, by omega, fun j hj => by omega, hdown⟩
    · refine ⟨k + 1, by omega, fun j hj => ?_, ?_⟩
      · cases j with
        | zero => exact hgo
        | succ j =>
          have hnext := hrest j (by omega)
          rwa [Nat.add_right_comm, Nat.add_assoc] at hnext
      · rwa [Nat.add_right_comm, Nat.add_assoc] at hdown

/-- What the loop does from a state `s` on, `down` saying whether it finds the device not up. -/
structure TxLooped {Pkt : Type} (dev : TxDevice) (pkts : List Pkt) (queue : Nat)
    (needsLock : Bool) (down : Prop) (s : NetTx Pkt) (r : TxReturn × NetTx Pkt) : Prop where
  inv : TxInv dev pkts r.2.pktList r.2
  sent : r.1 = .ok → r.2.pktList = []
  /-- The lock is given back if it was taken, or on finding the device not up. -/
  unlocked : needsLock = true ∨ down → r.2.lockOps = s.lockOps ++ [.unlock queue]
  untouched : needsLock = false → ¬down → r.2.lockOps = s.lockOps

section Looped

variable {Pkt : Type} {dev : TxDevice} {pkts l rest : List Pkt} {pkt : Pkt} {s t : NetTx Pkt}
  {queue : Nat} {needsLock : Bool} {down down' : Prop} {r : TxReturn × NetTx Pkt}

theorem TxLooped.turn (h : TxLooped dev pkts queue needsLock down t r)
    (hlockOps : t.lockOps = s.lockOps) (hdown : down' ↔ down) :
    TxLooped dev pkts queue needsLock down' s r := by
  refine ⟨h.inv, h.sent, fun hlock => ?_, fun hlock hnot => ?_⟩
  · rw [← hlockOps]
    exact h.unlocked (hlock.imp_right hdown.mp)
  · rw [← hlockOps]
    exact h.untouched hlock (mt hdown.mpr hnot)

theorem TxLooped.exit {ret : TxReturn} (hinv : TxInv dev pkts t.pktList t)
    (hsent : ret = .ok → t.pktList = []) (hdown : ¬down)
    (hlockOps : t.lockOps = (if needsLock then s.spinUnlock queue else s).lockOps) :
    TxLooped dev pkts queue needsLock down s (ret, t) := by
  refine ⟨hinv, hsent, fun hlock => ?_, fun hlock _ => ?_⟩
  · rcases hlock with hlock | hlock
    · rw [hlockOps, if_pos hlock]
      rfl
    · exact absurd hlock hdown
  · rw [hlockOps, hlock, if_neg Bool.false_ne_true]

theorem TxInv.unlockIf (h : TxInv dev pkts rest s) :
    TxInv dev pkts rest (if needsLock then s.spinUnlock queue else s) := by
  split
  · exact h.unlock queue
  · exact h

/-- **The loop.** -/
theorem txLoop_spec (turns : Nat → TxTurn) (i queue : Nat) (needsLock : Bool)
    (h : TxInv dev pkts l s) :
    TxLooped dev pkts queue needsLock (ReachesDown turns i l.length) s
      (s.txLoop turns queue needsLock i l) := by
  induction l generalizing i s with
  | nil =>
    apply TxLooped.exit
    · exact h.unlockIf.congr rfl rfl rfl rfl rfl rfl rfl rfl
    · exact fun _ => rfl
    · exact not_reachesDown_zero
    · rfl
  | cons pkt l ih =>
    rw [List.length_cons, reachesDown_succ]
    simp only [NetTx.txLoop]
    cases hup : (turns i).up with
    | false =>
      -- the lock is given back, taken or not
      rw [Bool.not_false, if_pos rfl]
      have hall : TxInv dev pkts [] ((s.spinUnlock queue).appendFree (pkt :: l)) := by
        apply TxInv.appendFree
        rw [List.append_nil]
        exact h.unlock queue
      refine ⟨?_, fun _ => rfl, fun _ => rfl, fun _ hnot => absurd (.inl rfl) hnot⟩
      exact hall.congr rfl rfl rfl rfl rfl rfl rfl rfl
    | true =>
      rw [Bool.not_true, if_neg Bool.false_ne_true]
      have hturn (hgo : (turns i).GoesOn) :
          (true = false ∨ (turns i).GoesOn ∧ ReachesDown turns (i + 1) l.length) ↔
            ReachesDown turns (i + 1) l.length := by
        constructor
        · rintro (hfalse | ⟨-, hdown⟩)
          · exact absurd hfalse (by decide)
          · exact hdown
        · exact fun hdown => .inr ⟨hgo, hdown⟩
      have hstay (hgo : ¬(turns i).GoesOn) :
          ¬(true = false ∨ (turns i).GoesOn ∧ ReachesDown turns (i + 1) l.length) := by
        rintro (hfalse | ⟨hgo', -⟩)
        · exact absurd hfalse (by decide)
        · exact hgo hgo'
      cases hstopped : (turns i).stopped with
      | true =>
        rw [if_pos rfl]
        apply TxLooped.exit
        · exact h.unlockIf.congr rfl rfl rfl rfl rfl rfl rfl rfl
        · exact fun hret => absurd hret (by decide)
        · exact hstay fun hgo => absurd (hstopped.symm.trans hgo.2.1) (by decide)
        · rfl
      | false =>
        rw [if_neg Bool.false_ne_true]
        by_cases hstress : (turns i).stress = true
        · rw [if_pos hstress]
          have hgo : (turns i).GoesOn := ⟨hup, hstopped, .inl hstress⟩
          exact (ih (i + 1) (h.appendFree (a := [pkt]))).turn rfl (hturn hgo)
        · rw [if_neg hstress]
          rcases mapPktToSkb_spec (turns i) pkt s with
            ⟨ret, s', hmap, hwhy, hlockOps, hkeep⟩ | ⟨id, s', hmap, halloc, hret, hholds⟩
          · rw [hmap]
            have hgo : (turns i).GoesOn :=
              ⟨hup, hstopped, hwhy.elim (fun h => .inr (.inl h)) fun h => .inr (.inr (.inl h))⟩
            exact (ih (i + 1) ((hkeep h).appendFree (a := [pkt]))).turn hlockOps (hturn hgo)
          · rw [hmap]
            dsimp only
            by_cases hxmit : (turns i).xmitStatus = netdevTxOk
            · rw [if_neg (not_not.mpr hxmit)]
              have hgo : (turns i).GoesOn := ⟨hup, hstopped, .inr (.inr (.inr hxmit))⟩
              exact (ih (i + 1) (h.handOver hholds)).turn hholds.lockOps (hturn hgo)
            · rw [if_pos hxmit]
              have hnot : ¬(turns i).GoesOn := by
                rintro ⟨-, -, hs | ha | hm | hx⟩
                · exact hstress hs
                · exact absurd (halloc.symm.trans ha) (by decide)
                · exact hm hret
                · exact hxmit hx
              have hrefuse := h.refuse hholds
              apply TxLooped.exit
              · cases needsLock <;> exact hrefuse.congr rfl rfl rfl rfl rfl rfl rfl rfl
              · intro hok
                split at hok <;> exact absurd hok (by decide)
              · exact hstay hnot
              · cases needsLock with
                | true => exact congrArg (· ++ [.unlock queue]) hholds.lockOps
                | false => exact hholds.lockOps

end Looped

end Loop

/-! ## The call -/

/-- What the call promises of the packets `pktList` it is given. -/
structure TxConserved {Pkt : Type} (dev : TxDevice) (queue : Nat) (pktList : List Pkt)
    (ret : TxReturn) (s : NetTx Pkt) : Prop where
  /-- Every packet is with the driver, released, or on the caller's list. -/
  packets : (s.driver.map Prod.snd ++ s.released ++ s.pktList).Perm pktList
  sent : ret = .ok → s.pktList = []
  /-- Every skb is with the driver or freed. -/
  skbs : (s.driver.map Prod.fst ++ s.freed).Perm (List.range s.allocated)
  /-- No packet was released together with an skb. -/
  kept : s.pktReleased = []
  linnetTxPackets : s.linnetTxPackets = dev.linnetTxPackets + UInt64.ofNat s.driver.length
  linnetTxDropped : s.linnetTxDropped = dev.linnetTxDropped + UInt64.ofNat s.released.length
  /-- The lock was taken and given back, or neither. -/
  locks : s.lockOps = [] ∨ s.lockOps = [.lock queue, .unlock queue]

section Call

variable {Pkt : Type} {dev : TxDevice} {pktList : List Pkt} {s : NetTx Pkt} {queue : Nat}

theorem txInv_start (dev : TxDevice) (pktList : List Pkt) :
    TxInv dev pktList pktList (dev.start pktList) := by
  constructor
  · exact List.Perm.refl _
  · exact List.Perm.refl _
  · rfl
  · rfl
  · exact (UInt64.add_zero _).symm
  · rfl

theorem TxInv.freeAll (h : TxInv dev pktList s.pktList s) {ret : TxReturn}
    (hsent : ret = .ok → s.pktList = []) :
    TxConserved dev queue pktList ret s.freeAll ↔
      s.lockOps = [] ∨ s.lockOps = [.lock queue, .unlock queue] := by
  have hlocks : s.freeAll.lockOps = s.lockOps := by
    unfold NetTx.freeAll
    split <;> rfl
  constructor
  · intro hc
    rw [← hlocks]
    exact hc.locks
  · intro hbalanced
    unfold NetTx.freeAll
    split
    · refine ⟨?_, hsent, h.skbs, h.kept, h.counted, ?_, hbalanced⟩
      · rw [h.released]
        exact h.packets
      · rw [h.released, h.dropped]
        rfl
    · next hempty =>
      have hnil : s.freeList = [] := List.length_eq_zero_iff.mp (not_not.mp hempty)
      refine ⟨?_, hsent, h.skbs, h.kept, h.counted, ?_, hbalanced⟩
      · rw [h.released]
        have hpackets := h.packets
        rw [hnil] at hpackets
        exact hpackets
      · rw [h.dropped, h.released]
        exact (UInt64.add_zero _).symm

/-- **Transmit.** Packets and skbs are conserved, the counters grow by what was handed over and
    released, and the lock is given back exactly if it was taken, unless the loop finds the
    device not up in a panic. -/
theorem netdevTxInternal_iff (env : TxCallEnv) (dev : TxDevice) (pktList : List Pkt)
    (vmkqid : UInt64) (needsLock : Bool) :
    TxConserved dev (netdevPickTxQueue env.userVal dev vmkqid) pktList
        (netdevTxInternal env dev pktList vmkqid needsLock).1
        (netdevTxInternal env dev pktList vmkqid needsLock).2 ↔
      needsLock = true ∨ env.refuses dev = true ∨ ¬ReachesDown env.turns 0 pktList.length := by
  have hstart := txInv_start dev pktList
  unfold netdevTxInternal
  cases hrefuses : env.refuses dev with
  | true =>
    rw [if_pos rfl]
    refine iff_of_true ?_ (.inr (.inl rfl))
    have hall : TxInv dev pktList [] ((dev.start pktList).appendFree pktList) := by
      apply TxInv.appendFree
      rw [List.append_nil]
      exact hstart
    refine (TxInv.freeAll ?_ fun _ => rfl).mpr (.inl rfl)
    exact hall.congr rfl rfl rfl rfl rfl rfl rfl rfl
  | false =>
    rw [if_neg Bool.false_ne_true]
    have hlocked : TxInv dev pktList pktList (if needsLock then
        (dev.start pktList).spinLock (netdevPickTxQueue env.userVal dev vmkqid)
        else dev.start pktList) := by
      cases needsLock <;> exact hstart.congr rfl rfl rfl rfl rfl rfl rfl rfl
    have hloop := txLoop_spec env.turns 0 (netdevPickTxQueue env.userVal dev vmkqid) needsLock
      hlocked
    refine (TxInv.freeAll hloop.inv hloop.sent).trans ?_
    cases needsLock with
    | true =>
      -- taken before the loop and given back in it
      refine iff_of_true (.inr ?_) (.inl rfl)
      exact hloop.unlocked (.inl rfl)
    | false =>
      constructor
      · rintro hbalanced
        refine .inr (.inr fun hdown => ?_)
        rw [hloop.unlocked (.inr hdown)] at hbalanced
        rcases hbalanced with hb | hb
        · exact absurd hb (List.append_ne_nil_of_right_ne_nil _ (by simp))
        · simp [TxDevice.start] at hb
      · rintro (hlock | hrefuse | hup)
        · exact absurd hlock (by decide)
        · exact absurd hrefuse (by decide)
        · exact .inl (hloop.untouched rfl hup)

end Call

def downDevice : TxDevice :=
  { blocked := false, realNumTxQueues := 1, numTxQueues := 1, linnetTxPackets := 0,
    linnetTxDropped := 0 }

def downEnv : TxCallEnv where
  userVal := id
  stress := false
  turns _ :=
    { up := false, stopped := false, stress := false, alloc := true, mapRet := .ok,
      xmitStatus := netdevTxOk }

/-- In a panic a lock that nobody took is given back. -/
theorem netdevTxInternal_panicDown :
    (netdevTxPanic downEnv downDevice [7] 0).2.lockOps = [.unlock 0] ∧
      ¬TxConserved downDevice 0 [7] (netdevTxPanic downEnv downDevice [7] 0).1
        (netdevTxPanic downEnv downDevice [7] 0).2 := by
  have hunlock : (netdevTxPanic downEnv downDevice [7] 0).2.lockOps = [.unlock 0] := by decide
  refine ⟨hunlock, fun hconserved => ?_⟩
  have hlocks := hconserved.locks
  rw [hunlock] at hlocks
  exact absurd hlocks (by decide)

end VmkDrivers.Vmklinux
