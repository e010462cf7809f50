/-
  VmkDrivers.Wfs.MacTable

  The MAC filters of a port (`mac_table`) and the receive-address registers.

  A call changes some entries and marks them, and `ixgbe_sync_mac_table` then
  writes the registers of the marked ones.  What a call does is said for each
  entry with its registers, its slot (`slot_sync`).

  `ixgbe_add_mac_filter` takes the first free entry it comes to.  An entry behind
  it may have the same address, when one before it has been deleted.  So the
  addresses stay distinct exactly if no call comes to a free entry for an address
  that is in use (`mac_table_iff`).

  `num_rar_entries`, without the one of the SAN MAC address, is `n + 1`.
-/

import VmkDrivers.Lib.BitField
import VmkDrivers.Lib.LocalLoop
import VmkDrivers.Lib.Transition
import VmkDrivers.Wfs.Defs

namespace VmkDrivers.Wfs

open VmkDrivers.Lib

/-! ## Receive-address registers -/

/-- The registers of an entry: `IXGBE_RAL`, `IXGBE_RAH` and `IXGBE_MPSAR`, which the 82598 does not
    have. -/
structure Rar where
  ral : BitVec 32 := 0
  rah : BitVec 32 := 0
  mpsarLo : BitVec 32 := 0
  mpsarHi : BitVec 32 := 0
deriving DecidableEq, Repr

/-- `IXGBE_RAH_AV`. -/
def rahAv : BitVec 32 := 0x80000000

/-- `IXGBE_RAH_VIND_MASK` and `IXGBE_RAH_VIND_SHIFT`. -/
def rahVindMask : BitVec 32 := 0x003C0000

def rahVindShift : Nat := 18

/-- The bits of `IXGBE_RAH` with the end of the address. -/
def rahAddrMask : BitVec 32 := 0x0000FFFF

def numPools : MacType → Nat
  | .mac82598EB => 16
  | .mac82599EB | .macX540 => 64

def rarLow (addr : Mac) : BitVec 32 :=
  addr[0].toBitVec.setWidth 32 ||| addr[1].toBitVec.setWidth 32 <<< 8 |||
    addr[2].toBitVec.setWidth 32 <<< 16 ||| addr[3].toBitVec.setWidth 32 <<< 24

def rarHigh (addr : Mac) : BitVec 32 :=
  addr[4].toBitVec.setWidth 32 ||| addr[5].toBitVec.setWidth 32 <<< 8

namespace Rar

/-- `ixgbe_set_vmdq_82598` and `ixgbe_set_vmdq_generic`. -/
def setVmdq (mac : MacType) (vmdq : UInt16) (r : Rar) : Rar :=
  match mac with
  | .mac82598EB =>
    let vind := BitVec.ofNat 32 vmdq.toNat <<< rahVindShift &&& rahVindMask
    { r with rah := setField rahVindMask vind r.rah }
  | .mac82599EB | .macX540 =>
    if vmdq.toNat < 32 then { r with mpsarLo := r.mpsarLo ||| 1#32 <<< vmdq.toNat }
    -- a shift of an `int` is by the count modulo 32
    else { r with mpsarHi := r.mpsarHi ||| 1#32 <<< ((vmdq.toNat - 32) % 32) }

/-- `ixgbe_set_rar_generic` with `IXGBE_RAH_AV`. -/
def setRar (mac : MacType) (addr : Mac) (vmdq : UInt16) (r : Rar) : Rar :=
  let r := r.setVmdq mac vmdq
  { r with
    ral := rarLow addr
    rah := setField (rahAddrMask ||| rahAv) (rarHigh addr ||| rahAv) r.rah }

/-- What `ixgbe_clear_rar_generic` does before it clears the pools. -/
def clearAddr (r : Rar) : Rar :=
  { r with ral := 0, rah := setField (rahAddrMask ||| rahAv) 0 r.rah }

/-- `ixgbe_clear_rar_generic`, with `ixgbe_clear_vmdq_82598` or `ixgbe_clear_vmdq_generic` for all
    pools. -/
def clearRar (mac : MacType) (index : Nat) (r : Rar) : Rar :=
  let r := r.clearAddr
  match mac with
  | .mac82598EB =>
    if field rahVindMask r.rah ≠ 0 then { r with rah := setField rahVindMask 0 r.rah } else r
  | .mac82599EB | .macX540 =>
    if r.mpsarLo = 0 ∧ r.mpsarHi = 0 then r
    else
      let r := { r with mpsarLo := 0, mpsarHi := 0 }
      -- "was that the last pool using this rar?": it is cleared again
      if index ≠ 0 then r.clearAddr else r

def Selects (mac : MacType) (r : Rar) (pool : Nat) : Prop :=
  match mac with
  | .mac82598EB => (field rahVindMask r.rah >>> rahVindShift).toNat = pool
  | .mac82599EB | .macX540 => (r.mpsarHi ++ r.mpsarLo).getLsbD pool = true

/-- The registers take the frames to `addr`, and pass them to `queue` only. -/
structure Programmed (mac : MacType) (r : Rar) (addr : Mac) (queue : UInt16) : Prop where
  valid : field rahAv r.rah = rahAv
  low : r.ral = rarLow addr
  high : field rahAddrMask r.rah = rarHigh addr
  pool : ∀ pool, r.Selects mac pool ↔ pool = queue.toNat

def Off (r : Rar) : Prop := field rahAv r.rah = 0#32

def NoPool (mac : MacType) (r : Rar) : Prop :=
  match mac with
  | .mac82598EB => field rahVindMask r.rah = 0#32
  | .mac82599EB | .macX540 => r.mpsarLo = 0#32 ∧ r.mpsarHi = 0#32

variable {mac : MacType} {r : Rar} {addr : Mac} {queue : UInt16}

theorem Programmed.not_off (h : r.Programmed mac addr queue) : ¬r.Off := by
  unfold Off
  rw [h.valid]
  decide

theorem clearAddr_off (r : Rar) : r.clearAddr.Off := by
  unfold Off clearAddr
  rw [field_setField_inside (by decide)]
  decide

/-- **A cleared register** takes no frames, and no pool is selected. -/
theorem clearRar_spec (mac : MacType) (index : Nat) (r : Rar) :
    (r.clearRar mac index).Off ∧ (r.clearRar mac index).NoPool mac := by
  have hgeneric : ∀ t : Rar, (t = if r.clearAddr.mpsarLo = 0 ∧ r.clearAddr.mpsarHi = 0 then
      r.clearAddr else
        if index ≠ 0 then clearAddr { r.clearAddr with mpsarLo := 0, mpsarHi := 0 }
        else { r.clearAddr with mpsarLo := 0, mpsarHi := 0 }) →
      t.Off ∧ t.mpsarLo = 0#32 ∧ t.mpsarHi = 0#32 := by
    rintro t rfl
    split
    · next hnone => exact ⟨clearAddr_off r, hnone⟩
    · split
      · exact ⟨clearAddr_off _, rfl, rfl⟩
      · exact ⟨clearAddr_off r, rfl, rfl⟩
  cases mac with
  | mac82598EB =>
    unfold clearRar NoPool Off
    dsimp only
    split
    · rw [field_setField_beside (by decide) (by decide), field_setField_inside (by decide)]
      exact ⟨clearAddr_off r, by decide⟩
    · next hnone => exact ⟨clearAddr_off r, not_not.mp hnone⟩
  | mac82599EB => exact hgeneric _ rfl
  | macX540 => exact hgeneric _ rfl

theorem rarHigh_inside (addr : Mac) : field rahAddrMask (rarHigh addr) = rarHigh addr := by
  have hlt : (rarHigh addr).toNat < 2 ^ 16 := by
    unfold rarHigh
    rw [BitVec.toNat_or]
    apply Nat.or_lt_two_pow
    · have hbyte := addr[4].toBitVec.isLt
      rw [BitVec.toNat_setWidth]
      omega
    · have hbyte := addr[5].toBitVec.isLt
      rw [BitVec.toNat_shiftLeft, BitVec.toNat_setWidth, Nat.shiftLeft_eq]
      omega
  apply BitVec.eq_of_toNat_eq
  unfold field
  rw [BitVec.toNat_and]
  exact (Nat.and_two_pow_sub_one_eq_mod _ 16).trans (Nat.mod_eq_of_lt hlt)

theorem field_rarHigh (addr : Mac) : field rahAv (rarHigh addr ||| rahAv) = rahAv ∧
    field rahAddrMask (rarHigh addr ||| rahAv) = rarHigh addr := by
  have hbeside : rahAddrMask &&& rahAv = 0#32 := by decide
  have hhigh := rarHigh_inside addr
  unfold field at hhigh ⊢
  constructor
  · rw [BitVec.and_or_distrib_right, ← hhigh, BitVec.and_assoc, hbeside, BitVec.and_self]
    simp
  · rw [BitVec.and_or_distrib_right, hhigh, BitVec.and_comm rahAv, hbeside]
    simp

theorem getLsbD_one_shiftLeft {k pool : Nat} (hk : k < 32) :
    (1#32 <<< k).getLsbD pool = true ↔ pool = k := by
  simp only [BitVec.getLsbD_shiftLeft, BitVec.getLsbD_one, Bool.and_eq_true, Bool.not_eq_true',
    decide_eq_true_eq, decide_eq_false_iff_not]
  omega

theorem setVmdq_generic (hlo : r.mpsarLo = 0#32) (hhi : r.mpsarHi = 0#32) :
    (∀ pool, ((r.setVmdq .mac82599EB queue).mpsarHi ++
      (r.setVmdq .mac82599EB queue).mpsarLo).getLsbD pool = true ↔ pool = queue.toNat) ↔
      queue.toNat < 64 := by
  unfold setVmdq
  simp only [BitVec.getLsbD_append]
  by_cases hlow : queue.toNat < 32
  · rw [if_pos hlow]
    rw [hlo, hhi, BitVec.zero_or]
    refine iff_of_true (fun pool => ?_) (by omega)
    split
    · exact getLsbD_one_shiftLeft hlow
    · rw [BitVec.getLsbD_zero]
      refine iff_of_false Bool.false_ne_true ?_
      omega
  · rw [if_neg hlow]
    rw [hlo, hhi, BitVec.zero_or]
    constructor
    · intro hall
      -- the bit of the pool itself would lie outside the two registers
      have hself := (hall queue.toNat).mpr rfl
      rw [if_neg hlow] at hself
      by_contra hge
      rw [BitVec.getLsbD_of_ge _ _ (by omega)] at hself
      cases hself
    · intro hlt pool
      rw [Nat.mod_eq_of_lt (by omega)]
      split
      · rw [BitVec.getLsbD_zero]
        refine iff_of_false Bool.false_ne_true ?_
        omega
      · rw [getLsbD_one_shiftLeft (by omega)]
        omega

theorem setVmdq_82598 (queue : UInt16) (r : Rar) :
    (field rahVindMask (r.setVmdq .mac82598EB queue).rah >>> rahVindShift).toNat =
      queue.toNat % 16 := by
  have hqueue := queue.toNat_lt
  unfold setVmdq
  rw [field_setField_inside (by decide)]
  have hfour : rahVindMask.toNat >>> rahVindShift = 2 ^ 4 - 1 := by decide
  unfold field
  rw [BitVec.and_assoc, BitVec.and_self, BitVec.toNat_ushiftRight, BitVec.toNat_and,
    BitVec.toNat_shiftLeft, BitVec.toNat_ofNat, Nat.shiftRight_and_distrib, hfour,
    Nat.and_two_pow_sub_one_eq_mod, Nat.shiftLeft_eq, Nat.shiftRight_eq_div_pow]
  unfold rahVindShift
  omega

theorem setVmdq_pool (h : r.NoPool mac) :
    (∀ pool, (r.setVmdq mac queue).Selects mac pool ↔ pool = queue.toNat) ↔
      queue.toNat < numPools mac := by
  cases mac with
  | mac82598EB =>
    change (∀ pool, (field rahVindMask (r.setVmdq .mac82598EB queue).rah >>> rahVindShift).toNat =
      pool ↔ pool = queue.toNat) ↔ queue.toNat < 16
    rw [setVmdq_82598]
    constructor
    · intro hall
      have hself := (hall queue.toNat).mpr rfl
      omega
    · intro hlt pool
      omega
  | mac82599EB => exact setVmdq_generic h.1 h.2
  | macX540 => exact setVmdq_generic h.1 h.2

/-- **A register that is set** is programmed, if there is such a pool. -/
theorem setRar_spec (h : r.NoPool mac) :
    (r.setRar mac addr queue).Programmed mac addr queue ↔ queue.toNat < numPools mac := by
  have hkeep (pool : Nat) : (r.setRar mac addr queue).Selects mac pool ↔
      (r.setVmdq mac queue).Selects mac pool := by
    cases mac with
    | mac82598EB =>
      unfold Selects setRar
      rw [field_setField_beside (by decide)]
      have hboth := field_rarHigh addr
      unfold field at hboth ⊢
      rw [BitVec.and_or_distrib_left, hboth.1, hboth.2]
    | mac82599EB => exact Iff.rfl
    | macX540 => exact Iff.rfl
  rw [← setVmdq_pool h]
  constructor
  · intro hprog pool
    rw [← hkeep, hprog.pool]
  · intro hpool
    refine ⟨?_, rfl, ?_, fun pool => by rw [hkeep, hpool]⟩
    · unfold setRar
      rw [field_setField_inside (by decide)]
      exact (field_rarHigh addr).1
    · unfold setRar
      rw [field_setField_inside (by decide)]
      exact (field_rarHigh addr).2

end Rar

/-! ## The table -/

/-- `struct ixgbe_mac_addr`, with the bits of its `state`: `IXGBE_MAC_STATE_DEFAULT`,
    `IXGBE_MAC_STATE_MODIFIED` and `IXGBE_MAC_STATE_IN_USE`. -/
structure MacEntry where
  addr : Mac := Vector.replicate 6 0
  queue : UInt16 := 0
  isDefault : Bool := false
  modified : Bool := false
  inUse : Bool := false
deriving DecidableEq, Repr

def isZeroEtherAddr (addr : Mac) : Bool := addr = Vector.replicate 6 0

/-- `mac_table` and the registers of the card. -/
structure MacTable (n : Nat) where
  macTable : Fin (n + 1) → MacEntry := fun _ => {}
  rar : Fin (n + 1) → Rar := fun _ => {}

/-- What the scan of `ixgbe_add_mac_filter` comes to. -/
inductive RarSearch (n : Nat) where
  | found (i : Fin (n + 1))
  | duplicate
  | free (i : Fin (n + 1))
  | full
deriving DecidableEq, Repr

namespace MacTable

variable {n : Nat} (mac : MacType)

def setEntry (s : MacTable n) (i : Fin (n + 1)) (e : MacEntry) : MacTable n :=
  { s with macTable := Function.update s.macTable i e }

/-- A turn of the loop of `ixgbe_sync_mac_table`. -/
def syncEntry (s : MacTable n) (i : Fin (n + 1)) : MacTable n :=
  let e := s.macTable i
  if e.modified then
    let r := if e.inUse then (s.rar i).setRar mac e.addr e.queue else (s.rar i).clearRar mac i
    { macTable := Function.update s.macTable i { e with modified := false }
      rar := Function.update s.rar i r }
  else s

def ixgbeSyncMacTable (s : MacTable n) : MacTable n :=
  (List.finRange (n + 1)).foldl (syncEntry mac) s

/-- The loop of `ixgbe_add_mac_filter`, up to the entry it ends at. -/
def searchRar (s : MacTable n) (addr : Mac) (queue : UInt16) : List (Fin (n + 1)) → RarSearch n
  | [] => .full
  | i :: rest =>
    let e := s.macTable i
    if e.inUse then
      if addr = e.addr then if e.queue = queue then .found i else .duplicate
      else searchRar s addr queue rest
    else .free i

def ixgbeAddMacFilter (addr : Mac) (queue : UInt16) (s : MacTable n) : MacTable n × Int :=
  if isZeroEtherAddr addr then (s, -22) else
  match s.searchRar addr queue (List.finRange (n + 1)) with
  | .found i => (s, i)
  | .duplicate => (s, -22)
  | .free i =>
    let e := { s.macTable i with addr, queue, modified := true, inUse := true }
    ((s.setEntry i e).ixgbeSyncMacTable mac, i)
  | .full => (s, -12)

def clearedEntry (e : MacEntry) : MacEntry :=
  { e with addr := Vector.replicate 6 0, queue := 0, modified := true, inUse := false }

def ixgbeFlushSwMacTable (s : MacTable n) : MacTable n :=
  ixgbeSyncMacTable mac <|
    (List.finRange (n + 1)).foldl (fun s i => s.setEntry i (clearedEntry (s.macTable i))) s

def ixgbeDelMacFilterByIndex (index : Fin (n + 1)) (s : MacTable n) : MacTable n :=
  (s.setEntry index (clearedEntry (s.macTable index))).ixgbeSyncMacTable mac

def ixgbeDelMacFilter (addr : Mac) (queue : UInt16) (s : MacTable n) : MacTable n × Int :=
  if isZeroEtherAddr addr then (s, -22) else
  match (List.finRange (n + 1)).find? fun i =>
      addr = (s.macTable i).addr && (s.macTable i).queue = queue with
  | some i => (s.ixgbeDelMacFilterByIndex mac i, 0)
  | none => (s, -12)

/-- `ixgbe_reset` of a card that is still there.  `init_hw` leaves the registers `rar`, and
    `vmdqP` is `VMDQ_P(0)`. -/
def ixgbeReset (rar : Fin (n + 1) → Rar) (vmdqP : UInt16) (s : MacTable n) : MacTable n :=
  let oldAddr := (s.macTable 0).addr
  let s := ixgbeFlushSwMacTable mac { s with rar }
  let e : MacEntry := { addr := oldAddr, queue := vmdqP, isDefault := true, inUse := true }
  let s := s.setEntry 0 e
  { s with rar := Function.update s.rar 0 ((s.rar 0).setRar mac e.addr e.queue) }

def probed (addr : Mac) (vmdqP : UInt16) : MacTable n where
  macTable := Function.update (fun _ => {}) 0
    { addr, queue := vmdqP, isDefault := true, inUse := true }
  rar := Function.update (fun _ => {}) 0 (Rar.setRar mac addr vmdqP {})

end MacTable

inductive MacCall (n : Nat) where
  | add (addr : Mac) (queue : UInt16)
  | del (addr : Mac) (queue : UInt16)
  | delByIndex (index : Fin (n + 1))
  | flush
  /-- A card that is gone is not reset. -/
  | resetRemoved
  | reset (rar : Fin (n + 1) → Rar) (vmdqP : UInt16)

def MacCall.exec {n : Nat} (mac : MacType) (s : MacTable n) : MacCall n → MacTable n
  | .add addr queue => (s.ixgbeAddMacFilter mac addr queue).1
  | .del addr queue => (s.ixgbeDelMacFilter mac addr queue).1
  | .delByIndex index => s.ixgbeDelMacFilterByIndex mac index
  | .flush => s.ixgbeFlushSwMacTable mac
  | .resetRemoved => s
  | .reset rar vmdqP => s.ixgbeReset mac rar vmdqP

/-! ## Slots -/

namespace MacTable

variable {n : Nat} {mac : MacType} {s t : MacTable n} {i j : Fin (n + 1)} {addr : Mac}
  {queue : UInt16} {f : Fin (n + 1)} {e : MacEntry}

def slot (s : MacTable n) (i : Fin (n + 1)) : MacEntry × Rar := (s.macTable i, s.rar i)

def syncSlot (mac : MacType) (i : Fin (n + 1)) (x : MacEntry × Rar) : MacEntry × Rar :=
  if x.1.modified then
    ({ x.1 with modified := false },
      if x.1.inUse then x.2.setRar mac x.1.addr x.1.queue else x.2.clearRar mac i)
  else x

theorem slot_setEntry (s : MacTable n) (i j : Fin (n + 1)) (e : MacEntry) :
    (s.setEntry i e).slot j = if j = i then (e, s.rar i) else s.slot j := by
  unfold slot setEntry
  dsimp only
  by_cases hj : j = i
  · rw [if_pos hj, hj, Function.update_self]
  · rw [if_neg hj, Function.update_of_ne hj]

theorem localTurn_syncEntry (mac : MacType) :
    LocalTurn (slot (n := n)) (syncEntry mac) (syncSlot mac) := by
  intro s i j
  unfold slot syncEntry syncSlot
  by_cases hmod : (s.macTable i).modified = true
  · rw [if_pos hmod, if_pos hmod]
    dsimp only
    by_cases hj : j = i
    · rw [if_pos hj, hj, Function.update_self, Function.update_self]
    · rw [if_neg hj, Function.update_of_ne hj, Function.update_of_ne hj]
  · rw [if_neg hmod, if_neg hmod]
    by_cases hj : j = i
    · rw [if_pos hj, hj]
    · rw [if_neg hj]

/-- **`ixgbe_sync_mac_table`**, slot by slot. -/
theorem slot_sync (s : MacTable n) (j : Fin (n + 1)) :
    (s.ixgbeSyncMacTable mac).slot j = syncSlot mac j (s.slot j) := by
  unfold ixgbeSyncMacTable
  rw [foldl_local (localTurn_syncEntry mac) (List.nodup_finRange _), if_pos (List.mem_finRange j)]

def clearedSlot (mac : MacType) (i : Fin (n + 1)) (x : MacEntry × Rar) : MacEntry × Rar :=
  ({ clearedEntry x.1 with modified := false }, x.2.clearRar mac i)

theorem slot_flush (s : MacTable n) (j : Fin (n + 1)) :
    (s.ixgbeFlushSwMacTable mac).slot j = clearedSlot mac j (s.slot j) := by
  have hturn : LocalTurn (slot (n := n)) (fun s i => s.setEntry i (clearedEntry (s.macTable i)))
      fun _ x => (clearedEntry x.1, x.2) := by
    intro s i j
    exact slot_setEntry s i j _
  unfold ixgbeFlushSwMacTable
  rw [slot_sync, foldl_local hturn (List.nodup_finRange _), if_pos (List.mem_finRange j)]
  rfl

/-! ## The scan -/

/-- `ixgbe_add_mac_filter` comes to the free entry `f`. -/
def ComesTo (s : MacTable n) (addr : Mac) (f : Fin (n + 1)) : Prop :=
  (s.macTable f).inUse = false ∧
    ∀ j < f, (s.macTable j).inUse = true ∧ (s.macTable j).addr ≠ addr

theorem searchRar_free {is : List (Fin (n + 1))} (hsorted : is.Pairwise (· < ·)) :
    s.searchRar addr queue is = .free f ↔ f ∈ is ∧ (s.macTable f).inUse = false ∧
      ∀ j ∈ is, j < f → (s.macTable j).inUse = true ∧ (s.macTable j).addr ≠ addr := by
  induction is with
  | nil => exact iff_of_false nofun fun h => absurd h.1 List.not_mem_nil
  | cons i is ih =>
    rw [List.pairwise_cons] at hsorted
    unfold searchRar
    by_cases huse : (s.macTable i).inUse = true
    · rw [if_pos huse]
      -- the free entry is behind this one
      have hbehind (hf : f ∈ i :: is) (hfree : (s.macTable f).inUse = false) : f ∈ is := by
        rcases List.mem_cons.mp hf with rfl | hf
        · rw [huse] at hfree
          cases hfree
        · exact hf
      by_cases haddr : addr = (s.macTable i).addr
      · rw [if_pos haddr]
        refine iff_of_false (by split <;> exact nofun) ?_
        rintro ⟨hf, hfree, hbefore⟩
        exact (hbefore i List.mem_cons_self (hsorted.1 f (hbehind hf hfree))).2 haddr.symm
      · rw [if_neg haddr, ih hsorted.2]
        constructor
        · rintro ⟨hf, hfree, hbefore⟩
          refine ⟨List.mem_cons_of_mem i hf, hfree, fun j hj hlt => ?_⟩
          rcases List.mem_cons.mp hj with rfl | hj
          · exact ⟨huse, Ne.symm haddr⟩
          · exact hbefore j hj hlt
        · rintro ⟨hf, hfree, hbefore⟩
          exact ⟨hbehind hf hfree, hfree, fun j hj => hbefore j (List.mem_cons_of_mem i hj)⟩
    · rw [if_neg huse]
      rw [Bool.not_eq_true] at huse
      constructor
      · intro h
        obtain rfl := RarSearch.free.inj h
        refine ⟨List.mem_cons_self, huse, fun j hj hlt => ?_⟩
        rcases List.mem_cons.mp hj with rfl | hj
        · exact absurd hlt (lt_irrefl j)
        · exact absurd hlt (hsorted.1 j hj).asymm
      · rintro ⟨hf, hfree, hbefore⟩
        rcases List.mem_cons.mp hf with rfl | hf
        · rfl
        · have hused := (hbefore i List.mem_cons_self (hsorted.1 f hf)).1
          rw [huse] at hused
          cases hused

theorem searchRar_eq_free :
    s.searchRar addr queue (List.finRange (n + 1)) = .free f ↔ s.ComesTo addr f := by
  rw [searchRar_free (List.pairwise_lt_finRange _)]
  simp only [List.mem_finRange, true_and, forall_const]
  rfl

/-! ## The invariant -/

/-- No two entries in use have one address, none is left to be synchronised, and the registers are
    those of the entries in use. -/
structure Right (mac : MacType) (s : MacTable n) : Prop where
  distinct : ∀ i j, (s.macTable i).inUse = true → (s.macTable j).inUse = true →
    (s.macTable i).addr = (s.macTable j).addr → i = j
  synced : ∀ i, (s.macTable i).modified = false
  programmed : ∀ i, (s.rar i).Programmed mac (s.macTable i).addr (s.macTable i).queue ↔
    (s.macTable i).inUse = true
  off : ∀ i, (s.macTable i).inUse = false → (s.rar i).Off

/-- The registers of an entry are as they should be, and ready for another address. -/
structure SlotOk (mac : MacType) (x : MacEntry × Rar) : Prop where
  synced : x.1.modified = false
  programmed : x.1.inUse = true → x.2.Programmed mac x.1.addr x.1.queue
  free : x.1.inUse = false → x.2.Off ∧ x.2.NoPool mac

structure Inv (mac : MacType) (s : MacTable n) : Prop where
  slots : ∀ i, SlotOk mac (s.slot i)
  distinct : ∀ i j, (s.slot i).1.inUse = true → (s.slot j).1.inUse = true →
    (s.slot i).1.addr = (s.slot j).1.addr → i = j

theorem Inv.right (h : s.Inv mac) : s.Right mac := by
  refine ⟨h.distinct, fun i => (h.slots i).synced, fun i => ⟨fun hprog => ?_, ?_⟩,
    fun i hfree => ((h.slots i).free hfree).1⟩
  · by_contra hfree
    rw [Bool.not_eq_true] at hfree
    exact hprog.not_off ((h.slots i).free hfree).1
  · exact (h.slots i).programmed

theorem SlotOk.sync {x : MacEntry × Rar} (h : SlotOk mac x) : syncSlot mac i x = x := by
  unfold syncSlot
  rw [h.synced, if_neg Bool.false_ne_true]

theorem slotOk_cleared (mac : MacType) (i : Fin (n + 1)) (x : MacEntry × Rar) :
    SlotOk mac (clearedSlot mac i x) :=
  ⟨rfl, nofun, fun _ => Rar.clearRar_spec mac i x.2⟩

theorem slotOk_setRar {r : Rar} (hmod : e.modified = false) (huse : e.inUse = true)
    (hr : r.NoPool mac) (hqueue : e.queue.toNat < numPools mac) :
    SlotOk mac (e, r.setRar mac e.addr e.queue) := by
  refine ⟨hmod, fun _ => (Rar.setRar_spec hr).mpr hqueue, fun hfree => ?_⟩
  rw [huse] at hfree
  cases hfree

/-- **A slot in use is new**, and the others are old or free. -/
theorem Inv.of_slot (h : SlotOk mac (t.slot f))
    (hrest : ∀ j, j ≠ f → t.slot j = s.slot j) (hs : s.Inv mac)
    (hother : ∀ j, j ≠ f → (s.macTable j).inUse = true → (t.slot f).1.inUse = true →
      (s.macTable j).addr ≠ (t.slot f).1.addr) : t.Inv mac := by
  constructor
  · intro j
    by_cases hj : j = f
    · exact hj ▸ h
    · rw [hrest j hj]
      exact hs.slots j
  · intro i j hi hj haddr
    by_cases hif : i = f
    · by_cases hjf : j = f
      · rw [hif, hjf]
      · rw [hrest j hjf] at hj haddr
        exact (hother j hjf hj (hif ▸ hi) (hif ▸ haddr.symm)).elim
    · by_cases hjf : j = f
      · rw [hrest i hif] at hi haddr
        exact (hother i hif hi (hjf ▸ hj) (hjf ▸ haddr)).elim
      · rw [hrest i hif] at hi haddr
        rw [hrest j hjf] at hj haddr
        exact hs.distinct i j hi hj haddr

theorem Inv.slot_sync_setEntry (h : s.Inv mac) (i : Fin (n + 1)) (e : MacEntry) :
    ((s.setEntry i e).ixgbeSyncMacTable mac).slot i = syncSlot mac i (e, s.rar i) ∧
      ∀ j, j ≠ i → ((s.setEntry i e).ixgbeSyncMacTable mac).slot j = s.slot j := by
  constructor
  · rw [slot_sync, slot_setEntry, if_pos rfl]
  · intro j hj
    rw [slot_sync, slot_setEntry, if_neg hj, (h.slots j).sync]

theorem Inv.delByIndex (h : s.Inv mac) (i : Fin (n + 1)) :
    (s.ixgbeDelMacFilterByIndex mac i).Inv mac := by
  obtain ⟨hself, hrest⟩ := h.slot_sync_setEntry i (clearedEntry (s.macTable i))
  have hcleared : ((s.setEntry i (clearedEntry (s.macTable i))).ixgbeSyncMacTable mac).slot i =
      clearedSlot mac i (s.slot i) := hself
  apply h.of_slot (f := i) _ hrest
  · intro j _ _ huse
    rw [hcleared] at huse
    cases huse
  · rw [hcleared]
    exact slotOk_cleared mac i _

theorem Inv.del (h : s.Inv mac) (addr : Mac) (queue : UInt16) :
    (s.ixgbeDelMacFilter mac addr queue).1.Inv mac := by
  unfold ixgbeDelMacFilter
  split
  · exact h
  · split
    · exact h.delByIndex _
    · exact h

theorem inv_flush (mac : MacType) (s : MacTable n) : (s.ixgbeFlushSwMacTable mac).Inv mac := by
  constructor
  · intro j
    rw [slot_flush]
    exact slotOk_cleared mac j _
  · intro i j hi
    rw [slot_flush] at hi
    cases hi

/-! ## A slot that is taken -/

/-- The slot `f` is taken for the address and queue of `e`. -/
structure Takes (mac : MacType) (s t : MacTable n) (f : Fin (n + 1)) (e : MacEntry) : Prop where
  free : (s.slot f).2.NoPool mac
  self : t.slot f = (e, (s.slot f).2.setRar mac e.addr e.queue)
  rest : ∀ j, j ≠ f → t.slot j = s.slot j
  synced : e.modified = false
  inUse : e.inUse = true

/-- **It is right**, if the card has the pool, and no other entry in use the address. -/
theorem Takes.inv (h : Takes mac s t f e) (hs : s.Inv mac) (hqueue : e.queue.toNat < numPools mac)
    (hother : ∀ j, j ≠ f → (s.macTable j).inUse = true → (s.macTable j).addr ≠ e.addr) :
    t.Inv mac := by
  apply hs.of_slot (f := f) _ h.rest
  · intro j hj huse _
    rw [h.self]
    exact hother j hj huse
  · rw [h.self]
    exact slotOk_setRar h.synced h.inUse h.free hqueue

/-- **And only then.** -/
theorem Takes.of_right (h : Takes mac s t f e) (ht : t.Right mac) : e.queue.toNat < numPools mac ∧
      ∀ j, j ≠ f → (s.macTable j).inUse = true → (s.macTable j).addr ≠ e.addr := by
  have hentry : t.macTable f = e := congrArg Prod.fst h.self
  have huse : (t.macTable f).inUse = true := by
    rw [hentry]
    exact h.inUse
  constructor
  · have hprog := (ht.programmed f).mpr huse
    have hrar : t.rar f = (s.slot f).2.setRar mac e.addr e.queue := congrArg Prod.snd h.self
    rw [hrar, hentry] at hprog
    exact (Rar.setRar_spec h.free).mp hprog
  · intro j hj hused haddr
    have hsame : t.macTable j = s.macTable j := congrArg Prod.fst (h.rest j hj)
    refine hj (ht.distinct j f ?_ huse ?_)
    · rw [hsame]
      exact hused
    · rw [hsame, hentry]
      exact haddr

theorem takes_reset (rar : Fin (n + 1) → Rar) (vmdqP : UInt16) (s : MacTable n) :
    Takes mac (ixgbeFlushSwMacTable mac { s with rar }) (s.ixgbeReset mac rar vmdqP) 0
      { addr := (s.macTable 0).addr, queue := vmdqP, isDefault := true, inUse := true } := by
  obtain ⟨u, hu⟩ : ∃ u, u = ixgbeFlushSwMacTable mac { s with rar } := ⟨_, rfl⟩
  unfold ixgbeReset
  rw [← hu]
  have hfree : (u.slot 0).2.NoPool mac := by
    rw [hu, slot_flush]
    exact (Rar.clearRar_spec mac _ _).2
  refine ⟨hfree, ?_, fun j hj => ?_, rfl, rfl⟩
  · unfold slot setEntry
    dsimp only
    rw [Function.update_self, Function.update_self]
  · unfold slot setEntry
    dsimp only
    rw [Function.update_of_ne hj, Function.update_of_ne hj]

theorem takes_add (hs : s.Inv mac) (haddr : isZeroEtherAddr addr = false) (hf : s.ComesTo addr f) :
    Takes mac s (s.ixgbeAddMacFilter mac addr queue).1 f
      { s.macTable f with addr, queue, modified := false, inUse := true } := by
  unfold ixgbeAddMacFilter
  rw [haddr, if_neg Bool.false_ne_true, searchRar_eq_free.mpr hf]
  obtain ⟨hself, hrest⟩ := hs.slot_sync_setEntry f
    { s.macTable f with addr, queue, modified := true, inUse := true }
  exact ⟨((hs.slots f).free hf.1).2, hself, hrest, rfl, rfl⟩

theorem add_of_not_comesTo (h : ∀ f, ¬s.ComesTo addr f) :
    (s.ixgbeAddMacFilter mac addr queue).1 = s := by
  unfold ixgbeAddMacFilter
  split
  · rfl
  · split
    · rfl
    · rfl
    · next f hf => exact absurd (searchRar_eq_free.mp hf) (h f)
    · rfl

end MacTable

/-! ## Runs -/

open MacTable

/-- An addition that comes to a free entry is for an address that is not in use, and a pool the
    card has; so is `VMDQ_P(0)`. -/
def MacCall.Sound {n : Nat} (mac : MacType) (s : MacTable n) : MacCall n → Prop
  | .add addr queue => isZeroEtherAddr addr = false → ∀ f, s.ComesTo addr f →
      queue.toNat < numPools mac ∧
        ∀ j, (s.macTable j).inUse = true → (s.macTable j).addr ≠ addr
  | .reset _ vmdqP => vmdqP.toNat < numPools mac
  | .del .. | .delByIndex _ | .flush | .resetRemoved => True

def MacStep {n : Nat} (mac : MacType) (s : MacTable n) (call : MacCall n) (t : MacTable n) : Prop :=
  call.exec mac s = t

variable {n : Nat} {mac : MacType} {s t : MacTable n}

/-- **A call** keeps the invariant if it is sound, and only then the table is right. -/
theorem MacTable.Inv.step (hs : s.Inv mac) {call : MacCall n} (hstep : MacStep mac s call t) :
    (call.Sound mac s → t.Inv mac) ∧ (t.Right mac → call.Sound mac s) := by
  subst hstep
  cases call with
  | add addr queue =>
    by_cases hadd : isZeroEtherAddr addr = false ∧ ∃ f, s.ComesTo addr f
    · obtain ⟨haddr, f, hf⟩ := hadd
      have htakes : Takes mac s (s.ixgbeAddMacFilter mac addr queue).1 f _ := takes_add hs haddr hf
      constructor
      · intro hsound
        obtain ⟨hqueue, hother⟩ := hsound haddr f hf
        exact htakes.inv hs hqueue fun j _ huse => hother j huse
      · intro hright _ f' hf'
        obtain ⟨hqueue, hother⟩ := htakes.of_right hright
        refine ⟨hqueue, fun j huse => hother j ?_ huse⟩
        rintro rfl
        rw [hf.1] at huse
        cases huse
    · -- without an entry that is free, or with an address of zeros, nothing is written
      have hsame : (MacCall.add addr queue).exec mac s = s := by
        change (s.ixgbeAddMacFilter mac addr queue).1 = s
        cases hzero : isZeroEtherAddr addr with
        | true =>
          unfold ixgbeAddMacFilter
          rw [hzero]
          rfl
        | false => exact add_of_not_comesTo fun f hf => hadd ⟨hzero, f, hf⟩
      rw [hsame]
      exact ⟨fun _ => hs, fun _ haddr f hf => absurd ⟨haddr, f, hf⟩ hadd⟩
  | del addr queue => exact ⟨fun _ => hs.del addr queue, fun _ => trivial⟩
  | delByIndex index => exact ⟨fun _ => hs.delByIndex index, fun _ => trivial⟩
  | flush => exact ⟨fun _ => inv_flush mac s, fun _ => trivial⟩
  | resetRemoved => exact ⟨fun _ => hs, fun _ => trivial⟩
  | reset rar vmdqP =>
    have htakes : Takes mac _ (s.ixgbeReset mac rar vmdqP) 0 _ := takes_reset rar vmdqP s
    refine ⟨fun hsound => htakes.inv (inv_flush mac _) hsound fun j _ huse => ?_,
      fun hright => (htakes.of_right hright).1⟩
    -- the reset has emptied the table before it takes the entry 0
    have hempty : ((ixgbeFlushSwMacTable mac { s with rar }).slot j).1.inUse = false := by
      rw [slot_flush]
      rfl
    change ((ixgbeFlushSwMacTable mac { s with rar }).slot j).1.inUse = true at huse
    rw [hempty] at huse
    cases huse

theorem inv_probed {addr : Mac} {vmdqP : UInt16} (hpool : vmdqP.toNat < numPools mac) :
    (probed (n := n) mac addr vmdqP).Inv mac := by
  have hoff : Rar.Off {} := by
    unfold Rar.Off
    decide
  have hnone : Rar.NoPool mac {} := by
    cases mac with
    | mac82598EB =>
      change field rahVindMask 0 = 0#32
      decide
    | mac82599EB => exact ⟨rfl, rfl⟩
    | macX540 => exact ⟨rfl, rfl⟩
  have hempty : MacTable.Inv (n := n) mac {} := by
    refine ⟨fun i => ⟨rfl, nofun, fun _ => ⟨hoff, hnone⟩⟩, fun i j hi => ?_⟩
    cases hi
  have htakes : Takes (n := n) mac {} (probed mac addr vmdqP) 0
      { addr, queue := vmdqP, isDefault := true, inUse := true } := by
    refine ⟨hnone, ?_, fun j hj => ?_, rfl, rfl⟩
    · unfold slot probed
      dsimp only
      rw [Function.update_self, Function.update_self]
    · unfold slot probed
      dsimp only
      rw [Function.update_of_ne hj, Function.update_of_ne hj]
  exact htakes.inv hempty hpool fun j _ huse => nomatch huse

/-- **The MAC table is right** after every call exactly if no addition comes to a free entry for an
    address that is in use, or for a pool that the card does not have. -/
theorem mac_table_iff {addr : Mac} {vmdqP : UInt16} (hpool : vmdqP.toNat < numPools mac)
    {calls : List (MacCall n)} (hrun : Run (MacStep mac) (probed mac addr vmdqP) calls t) :
    Always (MacStep mac) (Right mac) (probed mac addr vmdqP) calls ↔
      Run (Guarded (MacStep mac) (MacCall.Sound mac)) (probed mac addr vmdqP) calls t := by
  apply always_iff_guarded (fun _ _ _ _ h h' => h.symm.trans h') (I := Inv mac)
  · intro s hs
    exact hs.right
  · intro s call t hs hstep
    exact hs.step hstep
  · exact hrun
  · exact inv_probed hpool

/-- An address that is added and deleted. -/
theorem mac_table_addDel : Always (MacStep .mac82599EB) (Right .mac82599EB)
    (probed (n := 3) .mac82599EB #v[2, 0, 0, 0, 0, 1] 0)
    [.add #v[2, 0, 0, 0, 0, 2] 1, .delByIndex 1] :=
  (mac_table_iff (by decide) (.cons rfl (.single rfl))).mpr
    (.cons ⟨fun _ _ _ => ⟨by decide, by decide⟩, rfl⟩ (.single ⟨trivial, rfl⟩))

/-- The second address is added for queue 2, and again for queue 3 after the first one has gone:
    the entries 1 and 2 have it. -/
theorem mac_table_duplicate : ¬Always (MacStep .mac82599EB) (Right .mac82599EB)
    (probed (n := 3) .mac82599EB #v[2, 0, 0, 0, 0, 1] 0)
    [.add #v[2, 0, 0, 0, 0, 2] 1, .add #v[2, 0, 0, 0, 0, 3] 2, .del #v[2, 0, 0, 0, 0, 2] 1,
      .add #v[2, 0, 0, 0, 0, 3] 3] := by
  intro halways
  have hright := halways _ _ List.prefix_rfl (.cons rfl (.cons rfl (.cons rfl (.single rfl))))
  have hsame := hright.distinct 1 2 (by decide) (by decide) (by decide)
  revert hsame
  decide

end VmkDrivers.Wfs
