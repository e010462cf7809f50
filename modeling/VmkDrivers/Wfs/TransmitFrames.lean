/-
  VmkDrivers.Wfs.TransmitFrames

  The frames in a transmit ring: what cleaning takes away, and what mapping one
  more frame adds or, where a mapping fails, leaves behind.

  The indices are seen as remainders of positions that only grow: `H` to clean,
  `D` of the device, `T` to use.  From `H` to `T` the ring is a row of frames,
  each with its skb and its mappings in its own slots, and the slots from `T`
  to a lap behind `H` are clear (`Laid`).
-/

import VmkDrivers.Wfs.TransmitRing

namespace VmkDrivers.Wfs

open VmkDrivers.Lib

/-! ## The frames in a ring -/

namespace IxgbeRing

def skbAt (r : IxgbeRing) (i : Nat) : Option Nat := (r.txBuffer i).skb

def mapAt (r : IxgbeRing) (i : Nat) : Option (Nat × Nat) :=
  if (r.txBuffer i).len = 0 then none else some ((r.txBuffer i).dma, (r.txBuffer i).len)

def heldAt (r : IxgbeRing) (i : Nat) : Option (Nat × Nat) :=
  if (r.txBuffer i).nextToWatch = none then r.mapAt i
  else some ((r.txBuffer i).dma, (r.txBuffer i).len)

theorem heldAt_congr {r r' : IxgbeRing} {i : Nat} (h : r'.txBuffer i = r.txBuffer i) :
    r'.heldAt i = r.heldAt i := by
  rw [heldAt, heldAt, mapAt, mapAt, h]

end IxgbeRing

def nonempty (maps : List (Nat × Nat)) : List (Nat × Nat) := maps.filter fun m => m.2 ≠ 0

/-- Of `maps` each is once in `kept`, but for some of no bytes. -/
def Accounts (kept maps : List (Nat × Nat)) : Prop :=
  ∃ lost, (∀ m ∈ lost, m.2 = 0) ∧ (kept ++ lost).Perm maps

theorem Accounts.perm {kept kept' maps : List (Nat × Nat)} (h : Accounts kept maps)
    (hperm : kept'.Perm kept) : Accounts kept' maps := by
  obtain ⟨lost, hlost, hmaps⟩ := h
  exact ⟨lost, hlost, (hperm.append_right lost).trans hmaps⟩

theorem Accounts.append {kept kept' maps maps' : List (Nat × Nat)} (h : Accounts kept maps)
    (h' : Accounts kept' maps') : Accounts (kept ++ kept') (maps ++ maps') := by
  obtain ⟨lost, hlost, hmaps⟩ := h
  obtain ⟨lost', hlost', hmaps'⟩ := h'
  refine ⟨lost ++ lost', fun m hm => ?_, ?_⟩
  · rcases List.mem_append.mp hm with hm | hm
    · exact hlost m hm
    · exact hlost' m hm
  · refine List.Perm.trans ?_ (hmaps.append hmaps')
    simp only [List.append_assoc]
    refine List.Perm.append_left _ ?_
    simp only [← List.append_assoc]
    exact List.perm_append_comm.append_right _

theorem accounts_nonempty (maps : List (Nat × Nat)) : Accounts (nonempty maps) maps := by
  refine ⟨maps.filter fun m => !decide (m.2 ≠ 0), fun m hm => ?_, List.filter_append_perm _ _⟩
  simpa using (List.mem_filter.mp hm).2

theorem accounts_refl (maps : List (Nat × Nat)) : Accounts maps maps :=
  ⟨[], by simp, by simp⟩

structure TxBuffer.Clear (b : TxBuffer) : Prop where
  nextToWatch : b.nextToWatch = none
  skb : b.skb = none
  len : b.len = 0

/-- A frame at the positions from `p` up to `q`.  Its last descriptor is done if the device, at `D`,
    is past it. -/
structure FrameAt (c : Nat) (r : IxgbeRing) (D p q : Nat) : Prop where
  lt : p < q
  watch : (r.txBuffer (p % c)).nextToWatch = some ((q - 1) % c)
  rest : ∀ x, p < x → x < q →
    (r.txBuffer (x % c)).nextToWatch = none ∧ (r.txBuffer (x % c)).skb = none
  cmd : (r.desc ((q - 1) % c)).cmd = true
  dd : (r.desc ((q - 1) % c)).dd = true ↔ q - 1 < D

inductive Frames (c : Nat) (r : IxgbeRing) (D : Nat) : Nat → Nat → Prop
  | nil (p : Nat) : Frames c r D p p
  | cons {p q e : Nat} (h : FrameAt c r D p q) (hrest : Frames c r D q e) : Frames c r D p e

/-- A ring of `c` slots with a row of frames from `H` to `T`. -/
structure Laid (c : Nat) (r : IxgbeRing) (H D T : Nat) : Prop where
  count : r.count = c
  count_lt : c < 2 ^ 16
  head_le : H ≤ D
  le_tail : D ≤ T
  lap : T < H + c
  use : r.nextToUse = T % c
  tdh : r.tdh = D % c
  tdt : r.tdt = T % c
  frames : Frames c r D H T
  clear : ∀ p, T ≤ p → p < H + c → (r.txBuffer (p % c)).Clear
  skbs : (r.freed ++ gather c r.skbAt H T).Perm (List.range r.submitted)
  maps : Accounts (r.unmapped ++ gather c r.heldAt H T) r.mapped
  handles : r.mapped.map Prod.fst = List.range r.mapped.length

section Frames

variable {c : Nat} {r r' : IxgbeRing} {D D' p q e H T : Nat}

theorem FrameAt.congr (h : FrameAt c r D p q)
    (hbuffer : ∀ x, p ≤ x → x < q → r'.txBuffer (x % c) = r.txBuffer (x % c))
    (hdesc : ∀ x, p ≤ x → x < q → r'.desc (x % c) = r.desc (x % c)) : FrameAt c r' D p q := by
  have hlt := h.lt
  refine ⟨hlt, ?_, fun x hx hxq => ?_, ?_, ?_⟩
  · rw [hbuffer p le_rfl hlt]
    exact h.watch
  · rw [hbuffer x hx.le hxq]
    exact h.rest x hx hxq
  · rw [hdesc (q - 1) (by omega) (by omega)]
    exact h.cmd
  · rw [hdesc (q - 1) (by omega) (by omega)]
    exact h.dd

theorem Frames.le (h : Frames c r D p e) : p ≤ e := by
  induction h with
  | nil p => exact le_rfl
  | cons hframe _ ih => exact hframe.lt.le.trans ih

theorem Frames.congr (h : Frames c r D p e)
    (hbuffer : ∀ x, p ≤ x → x < e → r'.txBuffer (x % c) = r.txBuffer (x % c))
    (hdesc : ∀ x, p ≤ x → x < e → r'.desc (x % c) = r.desc (x % c)) : Frames c r' D p e := by
  induction h with
  | nil p => exact .nil p
  | @cons p q e hframe hrest ih =>
    have hlt := hframe.lt
    have hle := hrest.le
    refine .cons (hframe.congr ?_ ?_) (ih ?_ ?_)
    · exact fun x hx hxq => hbuffer x hx (by omega)
    · exact fun x hx hxq => hdesc x hx (by omega)
    · exact fun x hx hxe => hbuffer x (by omega) hxe
    · exact fun x hx hxe => hdesc x (by omega) hxe

theorem Frames.snoc (h : Frames c r D p q) (hframe : FrameAt c r D q e) : Frames c r D p e := by
  induction h with
  | nil p => exact .cons hframe (.nil e)
  | cons hfirst _ ih => exact .cons hfirst (ih hframe)

theorem Laid.count_pos (h : Laid c r H D T) : 0 < c := by
  have hlap := h.lap
  have hhead := h.head_le
  have htail := h.le_tail
  omega

theorem Laid.descUnused (h : Laid c r H D T) (hclean : r.nextToClean = H % c) :
    r.ixgbeDescUnused = c - 1 - (T - H) := by
  have hc := h.count_pos
  have hlt := h.count_lt
  have hlap := h.lap
  have hHT := h.head_le.trans h.le_tail
  have hdist := slot_distance hHT hlap
  have hT := Nat.mod_lt T hc
  have hH := Nat.mod_lt H hc
  rw [IxgbeRing.ixgbeDescUnused, h.use, hclean, h.count]
  by_cases hgt : H % c > T % c
  · rw [if_pos hgt]
    rw [Nat.mod_eq_of_lt (by omega)] at hdist
    omega
  · rw [if_neg hgt]
    have hsub : (T % c + c - H % c) % c = T % c - H % c := by
      have hshift : T % c + c - H % c = T % c - H % c + c := by omega
      rw [hshift, Nat.add_mod_right, Nat.mod_eq_of_lt (by omega)]
    rw [hsub] at hdist
    omega

end Frames

/-! ## Cleaning -/

def CleanPos.at (c x : Nat) : CleanPos := ⟨BitVec.ofNat 32 (x % c) - BitVec.ofNat 32 c, x % c⟩

theorem CleanPos.next_at {c x : Nat} (hc : 0 < c) (hlt : c < 2 ^ 16) :
    (CleanPos.at c x).next c = CleanPos.at c (x + 1) := by
  have hx := Nat.mod_lt x hc
  have hi : (CleanPos.at c x).i = BitVec.ofNat 32 (x % c) - BitVec.ofNat 32 c := rfl
  have hat : CleanPos.at c (x + 1) = ⟨BitVec.ofNat 32 ((x + 1) % c) - BitVec.ofNat 32 c,
    (x + 1) % c⟩ := rfl
  rw [hat, ← nextSlot_mod hc x, nextSlot]
  by_cases hend : x % c + 1 = c
  · have hzero : (CleanPos.at c x).i + 1 = 0 := by
      rw [hi]
      bv_omega
    rw [if_pos hend]
    exact (if_pos hzero).trans (by rw [hzero]; rfl)
  · have hne : (CleanPos.at c x).i + 1 ≠ 0 := by
      rw [hi]
      bv_omega
    have hsucc : (CleanPos.at c x).i + 1 = BitVec.ofNat 32 (x % c + 1) - BitVec.ofNat 32 c := by
      rw [hi]
      bv_omega
    rw [if_neg hend]
    exact (if_neg hne).trans (by rw [hsucc]; rfl)

theorem CleanPos.at_end {c x : Nat} (hc : 0 < c) (hlt : c < 2 ^ 16) :
    ((CleanPos.at c x).i + BitVec.ofNat 32 c).toNat % 2 ^ 16 = x % c := by
  have hx := Nat.mod_lt x hc
  have hback : (CleanPos.at c x).i + BitVec.ofNat 32 c = BitVec.ofNat 32 (x % c) := by
    simp only [CleanPos.at]
    bv_omega
  rw [hback, BitVec.toNat_ofNat, Nat.mod_eq_of_lt (b := 2 ^ 32) (by omega),
    Nat.mod_eq_of_lt (by omega)]

section Clean

variable {c : Nat} {r : IxgbeRing} {D p q H T : Nat} (fuel : Nat)

theorem unmap_one (i : Nat) :
    (if (r.txBuffer i).len ≠ 0 then
        ({ r with unmapped := r.unmapped ++ [((r.txBuffer i).dma, (r.txBuffer i).len)] }
          : IxgbeRing).setBuffer i fun b => { b with len := 0 }
      else r) =
    { r with
      txBuffer := Function.update r.txBuffer i { r.txBuffer i with len := 0 }
      unmapped := r.unmapped ++ (r.mapAt i).toList } := by
  rw [IxgbeRing.mapAt]
  by_cases hlen : (r.txBuffer i).len = 0
  · have hsame : ({ r.txBuffer i with len := 0 } : TxBuffer) = r.txBuffer i := by
      rw [← hlen]
    rw [if_neg (not_not.mpr hlen), if_pos hlen, hsame, Function.update_eq_self, Option.toList_none,
      List.append_nil]
  · rw [if_pos hlen, if_neg hlen]
    rfl

theorem unmapRest_spec {x : Nat} (hcount : r.count = c) (hlt : c < 2 ^ 16) (hxq : x < q)
    (hqc : q ≤ x + c) (hfuel : q - 1 - x < fuel) :
    ∃ r', IxgbeRing.unmapRest ((q - 1) % c) fuel r (.at c x) = .ok (r', .at c (q - 1)) ∧
      r' = { r with txBuffer := r'.txBuffer, unmapped := r'.unmapped } ∧
      (∀ y, x < y → y < q → (r'.txBuffer (y % c)).len = 0 ∧
        (r'.txBuffer (y % c)).nextToWatch = (r.txBuffer (y % c)).nextToWatch ∧
        (r'.txBuffer (y % c)).skb = (r.txBuffer (y % c)).skb) ∧
      (∀ k, (∀ y, x < y → y < q → y % c ≠ k) → r'.txBuffer k = r.txBuffer k) ∧
      r'.unmapped = r.unmapped ++ gather c r.mapAt (x + 1) q := by
  have hc : 0 < c := by omega
  induction fuel generalizing r x with
  | zero => omega
  | succ fuel ih =>
    by_cases hend : x = q - 1
    · refine ⟨r, ?_, rfl, fun y hy hyq => by omega, fun _ _ => rfl, ?_⟩
      · have hslot : (CleanPos.at c x).slot = (q - 1) % c := congrArg (· % c) hend
        rw [IxgbeRing.unmapRest, if_pos hslot, hend]
      · rw [show x + 1 = q by omega, gather_self, List.append_nil]
    · have hslot : (CleanPos.at c x).slot ≠ (q - 1) % c := fun heq =>
        hend (slot_injective heq (by omega) (by omega))
      set one : IxgbeRing := { r with
        txBuffer := Function.update r.txBuffer ((x + 1) % c)
          { r.txBuffer ((x + 1) % c) with len := 0 }
        unmapped := r.unmapped ++ (r.mapAt ((x + 1) % c)).toList } with hone
      have hstep : IxgbeRing.unmapRest ((q - 1) % c) (fuel + 1) r (.at c x) =
          IxgbeRing.unmapRest ((q - 1) % c) fuel one (.at c (x + 1)) := by
        have hnext : (CleanPos.at c x).next r.count = .at c (x + 1) := by
          rw [hcount, CleanPos.next_at hc hlt]
        rw [IxgbeRing.unmapRest, if_neg hslot]
        dsimp only
        rw [hnext, unmap_one]
        rfl
      -- the buffers behind are as they were
      have hbehind : ∀ y, x + 1 < y → y < q →
          one.txBuffer (y % c) = r.txBuffer (y % c) := fun y hy hyq =>
        update_slot_of_ne _ _ (by omega) (by omega) (by omega)
      obtain ⟨r', hr', hsame, hin, hout, hunmapped⟩ :=
        ih (r := one) (x := x + 1) hcount (by omega) (by omega) (by omega)
      refine ⟨r', hstep.trans hr', hsame, fun y hy hyq => ?_, fun k hk => ?_, ?_⟩
      · by_cases hyx : y = x + 1
        · have hyout : r'.txBuffer (y % c) = one.txBuffer (y % c) :=
            hout _ fun z hz hzq heq => by
              have := slot_injective heq (by omega) (by omega)
              omega
          rw [hyout, hyx, hone]
          simp
        · rw [← hbehind y (by omega) hyq]
          exact hin y (by omega) hyq
      · rw [hout k fun z hz hzq => hk z (by omega) hzq]
        exact Function.update_of_ne (fun heq => hk (x + 1) (by omega) (by omega) heq.symm) _ _
      · have hgather : gather c one.mapAt (x + 1 + 1) q = gather c r.mapAt (x + 1 + 1) q :=
          gather_congr fun y hy hyq => by
            rw [IxgbeRing.mapAt, IxgbeRing.mapAt, hbehind y (by omega) hyq]
        rw [hunmapped, hgather, gather_cons (a := x + 1) (by omega), ← List.append_assoc]

/-- What it is to clean the positions from `p` up to `q`. -/
structure Cleaned (c : Nat) (r r' : IxgbeRing) (p q : Nat) : Prop where
  same : r' = { r with txBuffer := r'.txBuffer, freed := r'.freed, unmapped := r'.unmapped }
  freed : r'.freed = r.freed ++ gather c r.skbAt p q
  unmapped : r'.unmapped = r.unmapped ++ gather c r.heldAt p q
  clear : ∀ y, p ≤ y → y < q → (r'.txBuffer (y % c)).Clear
  kept : ∀ y, q ≤ y → y < p + c → r'.txBuffer (y % c) = r.txBuffer (y % c)

variable {r' r'' : IxgbeRing}

theorem Cleaned.refl : Cleaned c r r p p := by
  refine ⟨rfl, ?_, ?_, fun y hy hyp => by omega, fun _ _ _ => rfl⟩
  · rw [gather_self, List.append_nil]
  · rw [gather_self, List.append_nil]

theorem Cleaned.trans {e : Nat} (h : Cleaned c r r' p q) (h' : Cleaned c r' r'' q e) (hpq : p ≤ q)
    (hqe : q ≤ e) (hlap : e ≤ p + c) : Cleaned c r r'' p e := by
  have hskb : gather c r'.skbAt q e = gather c r.skbAt q e := gather_congr fun y hy hye => by
    rw [IxgbeRing.skbAt, IxgbeRing.skbAt, h.kept y hy (by omega)]
  have hmap : gather c r'.heldAt q e = gather c r.heldAt q e := gather_congr fun y hy hye =>
    IxgbeRing.heldAt_congr (h.kept y hy (by omega))
  refine ⟨?_, ?_, ?_, fun y hy hye => ?_, fun y hy hyc => ?_⟩
  · rw [h'.same, h.same]
  · rw [h'.freed, h.freed, hskb, List.append_assoc, ← gather_append hpq hqe]
  · rw [h'.unmapped, h.unmapped, hmap, List.append_assoc, ← gather_append hpq hqe]
  · by_cases hyq : y < q
    · -- the slot comes again a lap behind
      have hkept := h'.kept (y + c) (by omega) (by omega)
      rw [Nat.add_mod_right] at hkept
      rw [hkept]
      exact h.clear y hy hyq
    · exact h'.clear y (by omega) hye
  · rw [h'.kept y hy (by omega), h.kept y (by omega) hyc]

theorem Cleaned.laid (h : Laid c r p D T) (hclean : Cleaned c r r' p q)
    (hrest : Frames c r D q T) (hpq : p ≤ q) (hqD : q ≤ D) : Laid c r' q D T := by
  have hsame := hclean.same
  have hlap := h.lap
  have htail := h.le_tail
  have hdesc : r'.desc = r.desc := by rw [hsame]
  have hsubmitted : r'.submitted = r.submitted := by rw [hsame]
  have hmapped : r'.mapped = r.mapped := by rw [hsame]
  have hskb : gather c r'.skbAt q T = gather c r.skbAt q T := gather_congr fun y hy hyT => by
    rw [IxgbeRing.skbAt, IxgbeRing.skbAt, hclean.kept y hy (by omega)]
  have hmap : gather c r'.heldAt q T = gather c r.heldAt q T := gather_congr fun y hy hyT =>
    IxgbeRing.heldAt_congr (hclean.kept y hy (by omega))
  have hqT : q ≤ T := by omega
  refine ⟨?_, h.count_lt, hqD, htail, by omega, ?_, ?_, ?_, ?_, fun y hy hyc => ?_, ?_, ?_, ?_⟩
  · rw [hsame]
    exact h.count
  · rw [hsame]
    exact h.use
  · rw [hsame]
    exact h.tdh
  · rw [hsame]
    exact h.tdt
  · refine hrest.congr (fun x hx hxT => hclean.kept x hx (by omega)) fun x _ _ => ?_
    rw [hdesc]
  -- the slots behind the tail are those of before and those just cleaned, one lap on
  · by_cases hyp : y < p + c
    · rw [hclean.kept y (by omega) hyp]
      exact h.clear y hy hyp
    · obtain ⟨z, rfl⟩ := Nat.exists_eq_add_of_le' (show c ≤ y by omega)
      rw [Nat.add_mod_right]
      exact hclean.clear z (by omega) (by omega)
  · rw [hclean.freed, hskb, List.append_assoc, ← gather_append hpq hqT, hsubmitted]
    exact h.skbs
  · rw [hclean.unmapped, hmap, List.append_assoc, ← gather_append hpq hqT, hmapped]
    exact h.maps
  · rw [hmapped]
    exact h.handles

theorem cleanFrame_spec (h : Laid c r p D T) (hframe : FrameAt c r D p q) (hqT : q ≤ T) :
    ∃ r', IxgbeRing.unmapRest ((q - 1) % c) r.count (r.freeFirst (p % c)) (.at c p) =
        .ok (r', .at c (q - 1)) ∧ Cleaned c r r' p q := by
  have hlt := hframe.lt
  have hlap := h.lap
  -- the first slot of the frame has its buffer and its mapping, the others a mapping only
  have hone : ∀ y, p < y → y < p + c →
      (r.freeFirst (p % c)).txBuffer (y % c) = r.txBuffer (y % c) := fun y hy hyc =>
    update_slot_of_ne _ _ (by omega) (by omega) (by omega)
  obtain ⟨r', hr', hsame, hin, hout, hunmapped⟩ :=
    unmapRest_spec (r := r.freeFirst (p % c)) (q := q) r.count h.count h.count_lt hlt
      (by omega) (by rw [h.count]; omega)
  refine ⟨r', hr', ?_, ?_, ?_, fun y hy hyq => ?_, fun y hy hyc => ?_⟩
  · rw [hsame]
    rfl
  · have hrest : gather c r.skbAt (p + 1) q = [] :=
      gather_eq_nil fun y hy hyq => (hframe.rest y (by omega) hyq).2
    rw [gather_cons hlt, hrest, List.append_nil, hsame]
    rfl
  · have hmap : gather c (r.freeFirst (p % c)).mapAt (p + 1) q = gather c r.heldAt (p + 1) q :=
      gather_congr fun y hy hyq => by
        rw [IxgbeRing.heldAt, if_pos (hframe.rest y (by omega) hyq).1, IxgbeRing.mapAt,
          IxgbeRing.mapAt, hone y (by omega) (by omega)]
    have hfirst : (r.freeFirst (p % c)).unmapped = r.unmapped ++ (r.heldAt (p % c)).toList := by
      rw [IxgbeRing.heldAt, if_neg (by rw [hframe.watch]; exact nofun)]
      rfl
    rw [hunmapped, hmap, hfirst, gather_cons hlt, List.append_assoc]
  · by_cases hyp : y = p
    · subst hyp
      have hfirst : r'.txBuffer (y % c) = (r.freeFirst (y % c)).txBuffer (y % c) :=
        hout _ fun z hz hzq heq => by
          have := slot_injective heq (by omega) (by omega)
          omega
      rw [hfirst, IxgbeRing.freeFirst, IxgbeRing.setBuffer_self]
      exact ⟨rfl, rfl, rfl⟩
    · obtain ⟨hlen, hwatch, hskb⟩ := hin y (by omega) hyq
      obtain ⟨hwatch', hskb'⟩ := hframe.rest y (by omega) hyq
      rw [hone y (by omega) (by omega)] at hwatch hskb
      exact ⟨hwatch.trans hwatch', hskb.trans hskb', hlen⟩
  · rw [← hone y (by omega) hyc]
    refine hout _ fun z hz hzq heq => ?_
    have := slot_injective heq (by omega) (by omega)
    omega

theorem cleanLoop_frame (budget : BitVec 32) (bytes packets : Nat) (h : Laid c r p D T)
    (hframe : FrameAt c r D p q) (hqT : q ≤ T) (hdd : (r.desc ((q - 1) % c)).dd = true) :
    ∃ r' bytes' packets', IxgbeRing.cleanLoop (fuel + 1) r (.at c p) budget (bytes, packets) =
        (if budget - 1 = 0 then .ok (r', .at c q, budget - 1, bytes', packets')
        else IxgbeRing.cleanLoop fuel r' (.at c q) (budget - 1) (bytes', packets')) ∧
      Cleaned c r r' p q := by
  have hlt := hframe.lt
  have hwatch : (r.txBuffer (CleanPos.at c p).slot).nextToWatch = some ((q - 1) % c) := hframe.watch
  obtain ⟨r', hr', hcleaned⟩ := cleanFrame_spec h hframe hqT
  have hr'' : IxgbeRing.unmapRest ((q - 1) % c) r.count (r.freeFirst (CleanPos.at c p).slot)
      (.at c p) = .ok (r', .at c (q - 1)) := hr'
  have hcount : r'.count = c := by
    rw [hcleaned.same]
    exact h.count
  have hnext : (CleanPos.at c (q - 1)).next r'.count = .at c q := by
    rw [hcount, CleanPos.next_at h.count_pos h.count_lt, Nat.sub_add_cancel (by omega)]
  refine ⟨r', (bytes + (r.txBuffer (CleanPos.at c p).slot).bytecount) % 2 ^ 32,
    (packets + (r.txBuffer (CleanPos.at c p).slot).gsoSegs) % 2 ^ 32, ?_, hcleaned⟩
  rw [IxgbeRing.cleanLoop, hwatch]
  dsimp only
  rw [if_neg (by rw [hdd]; decide), hr'']
  simp only [bind, Except.bind]
  rw [hnext]

theorem cleanLoop_spec (budget : BitVec 32) (total : Nat × Nat) (h : Laid c r p D T)
    (hfuel : T - p < fuel) :
    ∃ r' q budget' total', IxgbeRing.cleanLoop fuel r (.at c p) budget total =
        .ok (r', .at c q, budget', total') ∧ Cleaned c r r' p q ∧ Laid c r' q D T ∧ p ≤ q ∧
      (budget' ≠ 0 → ∀ eop, (r'.txBuffer (q % c)).nextToWatch = some eop →
        (r'.desc eop).dd = false) := by
  induction fuel generalizing r p budget total with
  | zero => omega
  | succ fuel ih =>
    obtain ⟨bytes, packets⟩ := total
    have hlap := h.lap
    cases h.frames with
    | nil =>
      have hnone : (r.txBuffer (CleanPos.at c T).slot).nextToWatch = none :=
        (h.clear T le_rfl (by omega)).nextToWatch
      refine ⟨r, T, budget, (bytes, packets), ?_, .refl, h, le_rfl, fun _ eop heop => ?_⟩
      · rw [IxgbeRing.cleanLoop, hnone]
      · exact absurd (hnone.symm.trans heop) nofun
    | @cons _ q _ hframe hrest =>
      have hwatch : (r.txBuffer (CleanPos.at c p).slot).nextToWatch = some ((q - 1) % c) :=
        hframe.watch
      have hpq := hframe.lt
      have hqT := hrest.le
      cases hdd : (r.desc ((q - 1) % c)).dd with
      -- the device has not done the frame's last descriptor: the loop stops here
      | false =>
        refine ⟨r, p, budget, (bytes, packets), ?_, .refl, h, le_rfl, fun _ eop heop => ?_⟩
        · rw [IxgbeRing.cleanLoop, hwatch]
          exact if_pos hdd
        · obtain rfl := Option.some.inj (hwatch.symm.trans heop)
          exact hdd
      | true =>
        have hqD : q ≤ D := by
          have := hframe.dd.mp hdd
          omega
        obtain ⟨r₁, bytes', packets', hstep, hcleaned⟩ :=
          cleanLoop_frame fuel budget bytes packets h hframe hqT hdd
        have hlaid := hcleaned.laid h hrest hpq.le hqD
        -- the frame is cleaned, and the loop goes on while there is budget left
        by_cases hbudget : budget - 1 = 0
        · rw [if_pos hbudget] at hstep
          exact ⟨r₁, q, budget - 1, _, hstep, hcleaned, hlaid, hpq.le,
            fun hne => absurd hbudget hne⟩
        · rw [if_neg hbudget] at hstep
          obtain ⟨r', e, budget', total', hr', hcleaned', hlaid', hqe, hstop⟩ :=
            ih (budget - 1) (bytes', packets') hlaid (by omega)
          have heD := hlaid'.head_le
          have htail := hlaid'.le_tail
          exact ⟨r', e, budget', total', hstep.trans hr',
            hcleaned.trans hcleaned' hpq.le hqe (by omega), hlaid', hpq.le.trans hqe, hstop⟩

theorem Laid.idle (h : Laid c r H D T) (nextToClean bytes packets : Nat) (cleanBusy : Bool) :
    Laid c { r with nextToClean, bytes, packets, cleanBusy } H D T :=
  ⟨h.count, h.count_lt, h.head_le, h.le_tail, h.lap, h.use, h.tdh, h.tdt,
    h.frames.congr (fun _ _ _ => rfl) fun _ _ _ => rfl, h.clear, h.skbs, h.maps, h.handles⟩

structure Resting (c : Nat) (r : IxgbeRing) (H D T : Nat) : Prop extends Laid c r H D T where
  clean : r.nextToClean = H % c
  idle : r.cleanBusy = false

/-- A call of `ixgbe_clean_tx_irq` takes back the positions from `p` up to `q`. -/
structure TakenBack (c : Nat) (r t : IxgbeRing) (p q : Nat) : Prop where
  same : t = { r with
    nextToClean := q % c, txBuffer := t.txBuffer, bytes := t.bytes, packets := t.packets,
    unmapped := t.unmapped, freed := t.freed }
  freed : t.freed = r.freed ++ gather c r.skbAt p q
  unmapped : t.unmapped = r.unmapped ++ gather c r.heldAt p q
  kept : ∀ y, q ≤ y → y < p + c → t.txBuffer (y % c) = r.txBuffer (y % c)

/-- The frame at `next_to_clean`, if there is one, is not complete. -/
def IxgbeRing.NothingDone (t : IxgbeRing) : Prop :=
  ∀ eop, (t.txBuffer t.nextToClean).nextToWatch = some eop → (t.desc eop).dd = false

theorem ixgbeCleanTxIrq_spec (h : Resting c r H D T) (limit : BitVec 32) :
    ∃ t answer q, r.ixgbeCleanTxIrq false limit = .ok (t, answer) ∧ Resting c t q D T ∧ H ≤ q ∧
      TakenBack c r t H q ∧ (answer = true → t.NothingDone) := by
  have hbusy : Laid c { r with cleanBusy := true } H D T :=
    h.toLaid.idle r.nextToClean r.bytes r.packets true
  have hHT := h.head_le.trans h.le_tail
  have hlap := h.lap
  obtain ⟨r', q, budget', ⟨bytes, packets⟩, hr', hcleaned, hlaid, hHq, hstop⟩ :=
    cleanLoop_spec (r.count + 1) limit (0, 0) hbusy
      (by rw [h.count]; omega)
  -- the loop counts from `-count`, so that zero stands for the end of the ring
  have hstart : (⟨BitVec.ofNat 32 r.nextToClean - BitVec.ofNat 32 r.count, r.nextToClean⟩ :
      CleanPos) = .at c H := by
    rw [h.clean, h.count]
    rfl
  have hend : ((CleanPos.at c q).i + BitVec.ofNat 32 r.count).toNat % 2 ^ 16 = q % c := by
    rw [h.count]
    exact CleanPos.at_end h.count_pos h.count_lt
  refine ⟨{ r' with
      nextToClean := ((CleanPos.at c q).i + BitVec.ofNat 32 r.count).toNat % 2 ^ 16
      bytes := r'.bytes + bytes
      packets := r'.packets + packets
      cleanBusy := false }, budget' ≠ 0, q, ?_, ⟨hlaid.idle _ _ _ _, ?_, rfl⟩, hHq,
    ⟨?_, hcleaned.freed, hcleaned.unmapped, hcleaned.kept⟩, fun hanswer => ?_⟩
  · rw [IxgbeRing.ixgbeCleanTxIrq, if_neg (by decide), if_neg (by rw [h.idle]; decide)]
    dsimp only
    rw [hstart, hr']
    simp only [bind, Except.bind, pure, Except.pure]
  · exact hend
  · rw [hend, hcleaned.same, ← h.idle]
  · have hnone := hstop (of_decide_eq_true hanswer)
    rw [← hend] at hnone
    exact hnone

theorem Laid.complete (h : Laid c r H D T) (hDT : D < T) : Laid c r.complete H (D + 1) T := by
  have hHD := h.head_le
  have hlap := h.lap
  have hbuffer : r.complete.txBuffer = r.txBuffer := rfl
  have hdesc : ∀ x, x ≠ D → H ≤ x → x < T → r.complete.desc (x % c) = r.desc (x % c) := by
    intro x hx hHx hxT
    rw [IxgbeRing.complete, h.tdh]
    exact update_slot_of_ne _ _ hx (by omega) (by omega)
  -- only a descriptor with the command bit is written back
  have hhere : r.complete.desc (D % c) =
      if (r.desc (D % c)).cmd then { r.desc (D % c) with dd := true } else r.desc (D % c) := by
    rw [IxgbeRing.complete, h.tdh]
    exact IxgbeRing.setDesc_self
  have hframes : ∀ {p e}, Frames c r D p e → H ≤ p → e ≤ T → Frames c r.complete (D + 1) p e := by
    intro p e hrow
    induction hrow with
    | nil p => exact fun _ _ => .nil p
    | @cons p q e hframe hrest ih =>
      intro hHp heT
      have hlt := hframe.lt
      have hqe := hrest.le
      -- the last descriptor of a frame has the bit, so the frame is done when it is done
      refine .cons ⟨hlt, hframe.watch, hframe.rest, ?_, ?_⟩ (ih (by omega) heT)
      · by_cases hlast : q - 1 = D
        · have hcmd := hframe.cmd
          rw [hlast] at hcmd ⊢
          rw [hhere, if_pos hcmd]
          exact hcmd
        · rw [hdesc _ hlast (by omega) (by omega)]
          exact hframe.cmd
      · by_cases hlast : q - 1 = D
        · have hcmd := hframe.cmd
          rw [hlast] at hcmd ⊢
          rw [hhere, if_pos hcmd]
          simp
        · rw [hdesc _ hlast (by omega) (by omega), hframe.dd]
          omega
  refine ⟨h.count, h.count_lt, by omega, hDT, hlap, h.use, ?_, h.tdt, hframes h.frames le_rfl le_rfl,
    h.clear, h.skbs, h.maps, h.handles⟩
  rw [IxgbeRing.complete, h.tdh]
  rw [h.count]
  exact nextSlot_mod h.count_pos D

end Clean

open IxgbeRing

/-! ## A call that transmits -/

/-- What a call that takes a frame on may change: it uses the slots of the positions from `T` to
    `B`, and makes the mappings `ms`. -/
structure Call (c B : Nat) (r₀ r : IxgbeRing) (T : Nat) (ms : List (Nat × Nat)) : Prop where
  count : r.count = c
  clean : r.nextToClean = r₀.nextToClean
  idle : r.cleanBusy = r₀.cleanBusy
  tdh : r.tdh = r₀.tdh
  submitted : r.submitted = r₀.submitted + 1
  mapped : r.mapped = r₀.mapped ++ ms
  handles : r.mapped.map Prod.fst = List.range r.mapped.length
  outside : ∀ k, (∀ y, T ≤ y → y ≤ B → y % c ≠ k) →
    r.desc k = r₀.desc k ∧ r.txBuffer k = r₀.txBuffer k

/-- The frame is being mapped.  The buffers from `Q` on have no mapping yet. -/
structure Mapping (c B : Nat) (r₀ r : IxgbeRing) (T Q : Nat) (ms : List (Nat × Nat)) : Prop
    extends Call c B r₀ r T ms where
  tdt : r.tdt = r₀.tdt
  freed : r.freed = r₀.freed
  unmapped : r.unmapped = r₀.unmapped
  inside : ∀ y, T ≤ y → y ≤ B → (r.txBuffer (y % c)).nextToWatch = none ∧
    (r.txBuffer (y % c)).skb = if y = T then some r₀.submitted else none
  beyond : ∀ y, Q ≤ y → y ≤ B → (r.txBuffer (y % c)).len = 0
  held : gather c r.mapAt T (B + 1) = nonempty ms
  first : ms ≠ [] → ∃ rest, ms = ((r.txBuffer (T % c)).dma, (r.txBuffer (T % c)).len) :: rest

/-- The frame is unwound down to position `x`. -/
structure Unwinding (c B : Nat) (r₀ r : IxgbeRing) (T x : Nat) (ms : List (Nat × Nat)) : Prop
    extends Call c B r₀ r T ms where
  tdt : r.tdt = r₀.tdt
  freed : r.freed = r₀.freed
  inside : ∀ y, T ≤ y → y ≤ x → (r.txBuffer (y % c)).nextToWatch = none ∧
    (r.txBuffer (y % c)).skb = if y = T then some r₀.submitted else none
  clear : ∀ y, x < y → y ≤ B → (r.txBuffer (y % c)).Clear
  maps : (r.unmapped ++ gather c r.mapAt T (x + 1)).Perm (r₀.unmapped ++ nonempty ms)

structure Unwound (c B : Nat) (r₀ r : IxgbeRing) (T : Nat) (ms : List (Nat × Nat)) : Prop
    extends Call c B r₀ r T ms where
  use : r.nextToUse = T % c
  tdt : r.tdt = r₀.tdt
  freed : r.freed = r₀.freed ++ [r₀.submitted]
  clear : ∀ y, T ≤ y → y ≤ B → (r.txBuffer (y % c)).Clear
  maps : r.unmapped.Perm (r₀.unmapped ++ nonempty ms)

/-- The frame is at the positions from `T` to `P`, and with the device. -/
structure Queued (c B : Nat) (r₀ r : IxgbeRing) (T P : Nat) (ms : List (Nat × Nat)) : Prop
    extends Call c B r₀ r T ms where
  le : T ≤ P
  bound : P ≤ B
  use : r.nextToUse = (P + 1) % c
  tdt : r.tdt = (P + 1) % c
  freed : r.freed = r₀.freed
  unmapped : r.unmapped = r₀.unmapped
  watch : (r.txBuffer (T % c)).nextToWatch = some (P % c)
  skb : (r.txBuffer (T % c)).skb = some r₀.submitted
  rest : ∀ y, T < y → y ≤ B →
    (r.txBuffer (y % c)).nextToWatch = none ∧ (r.txBuffer (y % c)).skb = none
  cmd : (r.desc (P % c)).cmd = true
  dd : (r.desc (P % c)).dd = false
  beyond : ∀ y, P < y → y ≤ B → (r.txBuffer (y % c)).len = 0
  held : gather c r.mapAt T (B + 1) = nonempty ms
  first : ∃ rest, ms = ((r.txBuffer (T % c)).dma, (r.txBuffer (T % c)).len) :: rest

section Call

variable {c B : Nat} {r₀ r : IxgbeRing} {H D T P Q x y : Nat} {ms : List (Nat × Nat)} {size : Nat}

theorem Call.kept (h : Call c B r₀ r T ms) (hTB : T ≤ B) (hB : B < H + c) (hy : H ≤ y)
    (hyT : y < T) : r.desc (y % c) = r₀.desc (y % c) ∧
      r.txBuffer (y % c) = r₀.txBuffer (y % c) := by
  refine h.outside _ fun z hz hzB heq => ?_
  have hzy := slot_injective heq (by omega) (by omega)
  omega

theorem Call.behind (h : Call c B r₀ r T ms) (hHT : H ≤ T) (hy : B < y) (hyc : y < H + c) :
    r.txBuffer (y % c) = r₀.txBuffer (y % c) := by
  refine (h.outside _ fun z hz hzB heq => ?_).2
  have hzy := slot_injective heq (by omega) (by omega)
  omega

theorem Call.frames (h : Call c B r₀ r T ms) (hTB : T ≤ B) (hB : B < H + c)
    (hframes : Frames c r₀ D H T) : Frames c r D H T :=
  hframes.congr (fun _ hx hxT => (h.kept hTB hB hx hxT).2)
    fun _ hx hxT => (h.kept hTB hB hx hxT).1

theorem Call.gather_skbAt (h : Call c B r₀ r T ms) (hTB : T ≤ B) (hB : B < H + c) :
    gather c r.skbAt H T = gather c r₀.skbAt H T :=
  gather_congr fun y hy hyT => by
    rw [skbAt, skbAt, (h.kept hTB hB hy hyT).2]

theorem Call.gather_heldAt (h : Call c B r₀ r T ms) (hTB : T ≤ B) (hB : B < H + c) :
    gather c r.heldAt H T = gather c r₀.heldAt H T :=
  gather_congr fun _ hy hyT => heldAt_congr (h.kept hTB hB hy hyT).2

theorem Unwound.laid (h : Unwound c B r₀ r T ms) (hTB : T ≤ B) (hB : B < H + c)
    (hlaid : Laid c r₀ H D T) : Laid c r H D T := by
  have hHT := hlaid.head_le.trans hlaid.le_tail
  refine ⟨h.count, hlaid.count_lt, hlaid.head_le, hlaid.le_tail, hlaid.lap, h.use,
    h.tdh.trans hlaid.tdh, h.tdt.trans hlaid.tdt, h.frames hTB hB hlaid.frames,
    fun y hy hyc => ?_, ?_, ?_, h.handles⟩
  · by_cases hyB : y ≤ B
    · exact h.clear y hy hyB
    · rw [h.behind hHT (by omega) hyc]
      exact hlaid.clear y hy hyc
  · rw [h.freed, h.gather_skbAt hTB hB, h.submitted, List.range_succ, List.append_assoc]
    refine List.Perm.trans ?_ (hlaid.skbs.append_right _)
    rw [List.append_assoc]
    exact List.perm_append_comm.append_left _
  · rw [h.gather_heldAt hTB hB, h.mapped]
    refine (hlaid.maps.append (accounts_nonempty ms)).perm ((h.maps.append_right _).trans ?_)
    rw [List.append_assoc, List.append_assoc]
    exact List.perm_append_comm.append_left _

theorem Queued.accounts (h : Queued c B r₀ r T P ms)
    (hheld : gather c r.mapAt T (P + 1) = nonempty ms) :
    Accounts (gather c r.heldAt T (P + 1)) ms := by
  have hTP := h.le
  have hPB := h.bound
  obtain ⟨rest, hms⟩ := h.first
  have hbehind : gather c r.heldAt (T + 1) (P + 1) = gather c r.mapAt (T + 1) (P + 1) :=
    gather_congr fun y hy hyP => if_pos (h.rest y (by omega) (by omega)).1
  have hhere : r.heldAt (T % c) = some ((r.txBuffer (T % c)).dma, (r.txBuffer (T % c)).len) :=
    if_neg (by rw [h.watch]; exact nofun)
  have hrest : gather c r.mapAt (T + 1) (P + 1) = nonempty rest := by
    rw [gather_cons (by omega), hms, mapAt, nonempty, List.filter_cons] at hheld
    by_cases hlen : (r.txBuffer (T % c)).len = 0
    · simpa [nonempty, hlen] using hheld
    · simpa [nonempty, hlen] using hheld
  rw [gather_cons (by omega), hhere, hbehind, hrest, hms]
  exact (accounts_refl [_]).append (accounts_nonempty rest)

theorem Queued.laid (h : Queued c B r₀ r T P ms) (hB : B + 1 < H + c) (hlaid : Laid c r₀ H D T) :
    Laid c r H D (P + 1) := by
  have hHT := hlaid.head_le.trans hlaid.le_tail
  have hTP := h.le
  have hPB := h.bound
  have htail := hlaid.le_tail
  have hTB : T ≤ B := hTP.trans hPB
  have hBc : B < H + c := by omega
  -- the new frame is behind all that the device has done
  have hframe : FrameAt c r D T (P + 1) := by
    refine ⟨by omega, h.watch, fun y hy hyP => h.rest y hy (by omega), h.cmd, ?_⟩
    rw [Nat.add_sub_cancel, h.dd]
    exact iff_of_false (by decide) (by omega)
  refine ⟨h.count, hlaid.count_lt, hlaid.head_le, by omega, by omega, h.use,
    h.tdh.trans hlaid.tdh, h.tdt, (h.frames hTB hBc hlaid.frames).snoc hframe,
    fun y hy hyc => ?_, ?_, ?_, h.handles⟩
  · by_cases hyB : y ≤ B
    · obtain ⟨hwatch, hskb⟩ := h.rest y (by omega) hyB
      exact ⟨hwatch, hskb, h.beyond y (by omega) hyB⟩
    · rw [h.behind hHT (by omega) hyc]
      exact hlaid.clear y (by omega) hyc
  · have hrest : gather c r.skbAt (T + 1) (P + 1) = [] :=
      gather_eq_nil fun y hy hyP => (h.rest y (by omega) (by omega)).2
    have hfirst : r.skbAt (T % c) = some r₀.submitted := h.skb
    have hnew : gather c r.skbAt T (P + 1) = [r₀.submitted] := by
      rw [gather_cons (by omega), hfirst, hrest]
      rfl
    rw [h.freed, gather_append hHT (by omega), h.gather_skbAt hTB hBc, hnew, h.submitted,
      List.range_succ, ← List.append_assoc]
    exact hlaid.skbs.append_right _
  -- the slots that were reserved and not used hold no mapping
  · have hbehind : gather c r.mapAt (P + 1) (B + 1) = [] :=
      gather_eq_nil fun y hy hyB => by
        rw [mapAt, if_pos (h.beyond y (by omega) (by omega))]
    have hheld := h.held
    rw [gather_append (b := P + 1) (by omega) (by omega), hbehind, List.append_nil] at hheld
    rw [h.unmapped, gather_append hHT (by omega), h.gather_heldAt hTB hBc, h.mapped,
      ← List.append_assoc]
    exact hlaid.maps.append (h.accounts hheld)

theorem slot_ne {z : Nat} (hB : B < T + c) (hx : T ≤ x) (hxB : x ≤ B) (hz : T ≤ z) (hzB : z ≤ B)
    (hne : x ≠ z) : x % c ≠ z % c :=
  fun heq => hne (slot_injective heq (by omega) (by omega))

theorem Mapping.setDesc (h : Mapping c B r₀ r T Q ms) (hx : T ≤ x) (hxB : x ≤ B)
    (f : TxDesc → TxDesc) : Mapping c B r₀ (r.setDesc (x % c) f) T Q ms :=
  { h with
    outside := fun k hk => by
      rw [setDesc_of_ne fun heq => hk x hx hxB heq.symm]
      exact h.outside k hk }

theorem Mapping.record (h : Mapping c B r₀ r T Q ms) (hB : B < T + c) (hy : T ≤ y) (hQy : Q ≤ y)
    (hyx : y ≤ x) (hxB : x ≤ B) (hfirst : ms = [] ↔ y = T) (size : Nat) :
    Mapping c B r₀ (r.recordMapping (y % c) (x % c) size) T (y + 1)
      (ms ++ [(r.mapped.length, size)]) := by
  have hbuffer : ∀ k, k ≠ y % c →
      (r.recordMapping (y % c) (x % c) size).txBuffer k = r.txBuffer k := fun k hk =>
    Function.update_of_ne hk _ _
  have hself : (r.recordMapping (y % c) (x % c) size).txBuffer (y % c) =
      { r.txBuffer (y % c) with len := size, dma := r.mapped.length } :=
    Function.update_self ..
  refine ⟨⟨h.count, h.clean, h.idle, h.tdh, h.submitted, ?_, ?_, fun k hk => ?_⟩, h.tdt, h.freed,
    h.unmapped, fun z hz hzB => ?_, fun z hz hzB => ?_, ?_, fun _ => ?_⟩
  · show r.mapped ++ _ = _
    rw [h.mapped, List.append_assoc]
  · show (r.mapped ++ _).map Prod.fst = List.range (r.mapped ++ _).length
    rw [List.map_append, h.handles, List.length_append, List.length_singleton, List.range_succ]
    rfl
  · obtain ⟨hdesc, hold⟩ := h.outside k hk
    refine ⟨?_, ?_⟩
    · rw [recordMapping, setDesc_of_ne fun heq => hk x (by omega) hxB heq.symm]
      exact hdesc
    · rw [hbuffer k fun heq => hk y hy (by omega) heq.symm]
      exact hold
  · by_cases hzy : z = y
    · rw [hzy, hself]
      exact h.inside y hy (by omega)
    · rw [hbuffer _ (slot_ne hB hz hzB hy (by omega) hzy)]
      exact h.inside z hz hzB
  · rw [hbuffer _ (slot_ne hB (by omega) hzB hy (by omega) (by omega))]
    exact h.beyond z (by omega) hzB
  · -- the buffers from `y` on held nothing, and now the one of `y` does
    have hold : gather c r.mapAt T y = nonempty ms := by
      have hnone : gather c r.mapAt y (B + 1) = [] := gather_eq_nil fun z hz hzB => by
        rw [mapAt, if_pos (h.beyond z (by omega) (by omega))]
      have hheld := h.held
      rw [gather_append hy (by omega), hnone, List.append_nil] at hheld
      exact hheld
    have hbefore : gather c (r.recordMapping (y % c) (x % c) size).mapAt T y =
        gather c r.mapAt T y := gather_congr fun z hz hzy => by
      rw [mapAt, mapAt, hbuffer _ (slot_ne hB hz (by omega) hy (by omega) (by omega))]
    have hbehind : gather c (r.recordMapping (y % c) (x % c) size).mapAt (y + 1) (B + 1) = [] :=
      gather_eq_nil fun z hz hzB => by
        rw [mapAt, hbuffer _ (slot_ne hB (by omega) (by omega) hy (by omega) (by omega)),
          if_pos (h.beyond z (by omega) (by omega))]
    have hhere : ((r.recordMapping (y % c) (x % c) size).mapAt (y % c)).toList =
        nonempty [(r.mapped.length, size)] := by
      rw [mapAt, hself]
      by_cases hsize : size = 0
      · simp [nonempty, hsize]
      · simp [nonempty, hsize]
    rw [gather_append hy (by omega), hbefore, hold, gather_cons (by omega), hbehind, hhere,
      List.append_nil, nonempty, nonempty, nonempty, List.filter_append]
  · by_cases hms : ms = []
    · obtain rfl := hfirst.mp hms
      rw [hself, hms]
      exact ⟨[], rfl⟩
    · have hyT : T ≠ y := fun heq => hms (hfirst.mpr heq.symm)
      obtain ⟨rest, hrest⟩ := h.first hms
      rw [hbuffer _ (slot_ne hB le_rfl (by omega) hy (by omega) hyT), hrest]
      exact ⟨_, rfl⟩

theorem Mapping.queue (h : Mapping c B r₀ r T Q ms) (hB : B < T + c) (hx : T ≤ x) (hxB : x ≤ B)
    (hQx : Q ≤ x + 1) (hdd : (r.desc (x % c)).dd = false) (hms : ms ≠ []) (size : Nat) :
    Queued c B r₀ (r.queueFrame (T % c) (x % c) size) T x ms := by
  have hc : 0 < c := by omega
  have hbuffer : ∀ k, k ≠ T % c →
      (r.queueFrame (T % c) (x % c) size).txBuffer k = r.txBuffer k := fun k hk =>
    Function.update_of_ne hk _ _
  have hself : (r.queueFrame (T % c) (x % c) size).txBuffer (T % c) =
      { r.txBuffer (T % c) with nextToWatch := some (x % c) } :=
    Function.update_self ..
  have hdesc : (r.queueFrame (T % c) (x % c) size).desc (x % c) =
      { r.desc (x % c) with context := false, size, cmd := true } :=
    Function.update_self ..
  have hnext : nextSlot r.count (x % c) = (x + 1) % c := by
    rw [h.count]
    exact nextSlot_mod hc x
  refine ⟨⟨h.count, h.clean, h.idle, h.tdh, h.submitted, h.mapped, h.handles, fun k hk => ?_⟩, hx,
    hxB, hnext, hnext, h.freed, h.unmapped, ?_, ?_, fun z hz hzB => ?_, ?_, ?_,
    fun z hz hzB => ?_, ?_, ?_⟩
  · obtain ⟨hdesc', hold⟩ := h.outside k hk
    refine ⟨?_, ?_⟩
    · rw [← hdesc']
      exact Function.update_of_ne (fun heq => hk x hx hxB heq.symm) _ _
    · rw [hbuffer k fun heq => hk T le_rfl (by omega) heq.symm]
      exact hold
  · rw [hself]
  · rw [hself]
    exact (h.inside T le_rfl (by omega)).2.trans (if_pos rfl)
  · rw [hbuffer _ (slot_ne hB (by omega) hzB le_rfl (by omega) (by omega))]
    obtain ⟨hwatch, hskb⟩ := h.inside z (by omega) hzB
    exact ⟨hwatch, hskb.trans (if_neg (by omega))⟩
  · rw [hdesc]
  · rw [hdesc]
    exact hdd
  · rw [hbuffer _ (slot_ne hB (by omega) hzB le_rfl (by omega) (by omega))]
    exact h.beyond z (by omega) hzB
  -- the watch of the first slot is no part of what the slots map
  · rw [← h.held]
    refine gather_congr fun z hz hzB => ?_
    rw [mapAt, mapAt]
    by_cases hzT : z = T
    · rw [hzT, hself]
    · rw [hbuffer _ (slot_ne hB hz (by omega) le_rfl (by omega) hzT)]
  · rw [hself]
    exact h.first hms

/-! ## Unwinding -/

theorem unmapAndFree_txBuffer_of_ne {i k : Nat} (hk : k ≠ i) :
    (r.ixgbeUnmapAndFreeTxResource i).txBuffer k = r.txBuffer k :=
  Function.update_of_ne hk _ _

theorem unmapAndFree_clear (i : Nat) : ((r.ixgbeUnmapAndFreeTxResource i).txBuffer i).Clear := by
  rw [ixgbeUnmapAndFreeTxResource, setBuffer_self]
  exact ⟨rfl, rfl, rfl⟩

theorem unmapAndFree_unmapped (i : Nat) :
    (r.ixgbeUnmapAndFreeTxResource i).unmapped = r.unmapped ++ (r.mapAt i).toList := by
  show (if (r.txBuffer i).len ≠ 0 then r.unmapped ++ _ else r.unmapped) = _
  rw [mapAt]
  by_cases hlen : (r.txBuffer i).len = 0
  · rw [if_neg (not_not.mpr hlen), if_pos hlen, Option.toList_none, List.append_nil]
  · rw [if_pos hlen, if_neg hlen]
    rfl

theorem Mapping.unwinding (h : Mapping c B r₀ r T Q ms) (hx : T ≤ x) (hxB : x ≤ B)
    (hQx : Q ≤ x + 1) : Unwinding c B r₀ r T x ms := by
  refine { h.toCall with
    tdt := h.tdt
    freed := h.freed
    inside := fun y hy hyx => h.inside y hy (by omega)
    clear := fun y hy hyB => ?_
    maps := ?_ }
  · obtain ⟨hwatch, hskb⟩ := h.inside y (by omega) hyB
    exact ⟨hwatch, hskb.trans (if_neg (by omega)), h.beyond y (by omega) hyB⟩
  · have hbehind : gather c r.mapAt (x + 1) (B + 1) = [] := gather_eq_nil fun y hy hyB => by
      rw [mapAt, if_pos (h.beyond y (by omega) (by omega))]
    have hheld := h.held
    rw [gather_append (b := x + 1) (by omega) (by omega), hbehind, List.append_nil] at hheld
    rw [h.unmapped, hheld]

theorem Unwinding.back (h : Unwinding c B r₀ r T (x + 1) ms) (hB : B < T + c) (hx : T ≤ x)
    (hxB : x + 1 ≤ B) :
    Unwinding c B r₀ (r.ixgbeUnmapAndFreeTxResource ((x + 1) % c)) T x ms := by
  have hother : ∀ y, T ≤ y → y ≤ B → y ≠ x + 1 →
      (r.ixgbeUnmapAndFreeTxResource ((x + 1) % c)).txBuffer (y % c) = r.txBuffer (y % c) :=
    fun y hy hyB hne => unmapAndFree_txBuffer_of_ne (slot_ne hB hy hyB (by omega) hxB hne)
  obtain ⟨-, hskb⟩ := h.inside (x + 1) (by omega) le_rfl
  refine ⟨⟨h.count, h.clean, h.idle, h.tdh, h.submitted, h.mapped, h.handles, fun k hk => ?_⟩,
    h.tdt, ?_, fun y hy hyx => ?_, fun y hy hyB => ?_, ?_⟩
  · rw [unmapAndFree_txBuffer_of_ne fun heq => hk (x + 1) (by omega) hxB heq.symm]
    exact h.outside k hk
  · show r.freed ++ ((r.txBuffer ((x + 1) % c)).skb).toList = r₀.freed
    rw [hskb, if_neg (by omega), Option.toList_none, List.append_nil]
    exact h.freed
  · rw [hother y hy (by omega) (by omega)]
    exact h.inside y hy (by omega)
  -- the slots from here on are clear: this one now, the others before
  · by_cases hyx : y = x + 1
    · rw [hyx]
      exact unmapAndFree_clear _
    · rw [hother y (by omega) hyB hyx]
      exact h.clear y (by omega) hyB
  · have hbefore : gather c (r.ixgbeUnmapAndFreeTxResource ((x + 1) % c)).mapAt T (x + 1) =
        gather c r.mapAt T (x + 1) := gather_congr fun y hy hyx => by
      rw [mapAt, mapAt, hother y hy (by omega) (by omega)]
    have hmaps := h.maps
    rw [gather_append (b := x + 1) (by omega) (by omega), gather_single] at hmaps
    rw [unmapAndFree_unmapped, hbefore]
    refine List.Perm.trans ?_ hmaps
    rw [List.append_assoc]
    exact List.perm_append_comm.append_left _

theorem Unwinding.finish (h : Unwinding c B r₀ r T T ms) (hB : B < T + c) (hTB : T ≤ B) :
    Unwound c B r₀ { r.ixgbeUnmapAndFreeTxResource (T % c) with nextToUse := T % c } T ms := by
  obtain ⟨-, hskb⟩ := h.inside T le_rfl le_rfl
  refine ⟨⟨h.count, h.clean, h.idle, h.tdh, h.submitted, h.mapped, h.handles, fun k hk => ?_⟩, rfl,
    h.tdt, ?_, fun y hy hyB => ?_, ?_⟩
  · rw [unmapAndFree_txBuffer_of_ne fun heq => hk T le_rfl hTB heq.symm]
    exact h.outside k hk
  · show r.freed ++ ((r.txBuffer (T % c)).skb).toList = _
    rw [hskb, if_pos rfl, h.freed]
    rfl
  · by_cases hyT : y = T
    · rw [hyT]
      exact unmapAndFree_clear _
    · rw [unmapAndFree_txBuffer_of_ne (slot_ne hB hy hyB le_rfl hTB hyT)]
      exact h.clear y (by omega) hyB
  · have hmaps := h.maps
    rw [gather_single] at hmaps
    rw [unmapAndFree_unmapped]
    exact hmaps

/-- **Unwinding** ends at the first buffer. -/
theorem dmaError_spec (fuel : Nat) (h : Unwinding c B r₀ r T x ms) (hB : B < T + c) (hx : T ≤ x)
    (hxB : x ≤ B) (hfuel : x - T < fuel) :
    ∃ t, dmaError (T % c) fuel r (x % c) = .ok t ∧ Unwound c B r₀ t T ms := by
  have hc : 0 < c := by omega
  induction fuel generalizing r x with
  | zero => omega
  | succ fuel ih =>
    rw [dmaError]
    by_cases hfirst : x = T
    · subst hfirst
      rw [if_pos rfl]
      exact ⟨_, rfl, h.finish hB hxB⟩
    · obtain ⟨z, rfl⟩ := Nat.exists_eq_add_of_lt (show T < x by omega)
      have hprev : prevSlot (r.ixgbeUnmapAndFreeTxResource ((T + z + 1) % c)).count
          ((T + z + 1) % c) = (T + z) % c := by
        have hcount : (r.ixgbeUnmapAndFreeTxResource ((T + z + 1) % c)).count = c := h.count
        rw [hcount]
        exact prevSlot_mod hc (T + z)
      rw [if_neg (slot_ne hB (by omega) hxB le_rfl (by omega) (by omega)), hprev]
      exact ih (h.back hB (by omega) hxB) (by omega) (by omega) (by omega)

/-! ## `ixgbe_tx_map` -/

theorem setOlinfoStatus_dd {i : Nat} : ((r.setOlinfoStatus i).desc i).dd = false := by
  rw [setOlinfoStatus, setDesc_self]

def moreDescs (size : Nat) : Nat := (size - 1) / ixgbeMaxDataPerTxd

theorem moreDescs_of_le (h : size ≤ ixgbeMaxDataPerTxd) : moreDescs size = 0 := by
  have hpos : 0 < ixgbeMaxDataPerTxd := by decide
  exact Nat.div_eq_of_lt (by omega)

theorem moreDescs_of_gt (h : size > ixgbeMaxDataPerTxd) :
    moreDescs size = moreDescs (size - ixgbeMaxDataPerTxd) + 1 := by
  have hpos : 0 < ixgbeMaxDataPerTxd := by decide
  rw [moreDescs, moreDescs, Nat.div_eq_sub_div hpos (by omega), Nat.sub_right_comm]

theorem fillDescs_spec {dma : Nat × Nat} (h : Mapping c B r₀ r T Q ms) (hc : 0 < c) (hx : T ≤ x)
    (hxB : x + moreDescs size ≤ B) (hdd : (r.desc (x % c)).dd = false) :
    ∃ r' left, r.fillDescs (x % c) dma size = (r', (x + moreDescs size) % c, left) ∧
      Mapping c B r₀ r' T Q ms ∧ (r'.desc ((x + moreDescs size) % c)).dd = false := by
  induction size using Nat.strong_induction_on generalizing r x dma with
  | _ size ih =>
    have hpos : 0 < ixgbeMaxDataPerTxd := by decide
    rw [fillDescs]
    -- a piece over the size of a descriptor takes one more each time round
    by_cases hbig : size > ixgbeMaxDataPerTxd
    · have hmore := moreDescs_of_gt hbig
      have hnext : nextSlot (r.setCmdTypeLen (x % c) ixgbeMaxDataPerTxd false).count (x % c) =
          (x + 1) % c := by
        have hcount : (r.setCmdTypeLen (x % c) ixgbeMaxDataPerTxd false).count = c := h.count
        rw [hcount]
        exact nextSlot_mod hc x
      have hshift : x + moreDescs size = x + 1 + moreDescs (size - ixgbeMaxDataPerTxd) := by
        omega
      rw [if_pos hbig, hshift]
      dsimp only
      rw [hnext]
      refine ih (size - ixgbeMaxDataPerTxd) (by omega) ?_ (by omega) (by omega) ?_
      · exact ((h.setDesc hx (by omega) _).setDesc (by omega) (by omega) _).setDesc (by omega)
          (by omega) _
      · rw [setDesc_self]
        exact setOlinfoStatus_dd
    · rw [if_neg hbig, moreDescs_of_le (by omega), Nat.add_zero]
      exact ⟨r, size, rfl, h, hdd⟩

theorem mapPiece_spec (h : Mapping c B r₀ r T Q ms) (hB : B < T + c) (hy : T ≤ y) (hQy : Q ≤ y)
    (hyx : y ≤ x) (hxB : x + moreDescs size ≤ B) (hdd : (r.desc (x % c)).dd = false)
    (hfirst : ms = [] ↔ y = T) :
    ∃ r' left, (r.recordMapping (y % c) (x % c) size).fillDescs (x % c) (r.mapped.length, 0) size =
        (r', (x + moreDescs size) % c, left) ∧
      Mapping c B r₀ r' T (y + 1) (ms ++ [(r.mapped.length, size)]) ∧
      (r'.desc ((x + moreDescs size) % c)).dd = false := by
  refine fillDescs_spec (h.record hB hy hQy hyx (by omega) hfirst size) (by omega) (by omega)
    hxB ?_
  rw [recordMapping, setDesc_self]
  exact hdd

theorem mapPieces_end (mapFails : Nat → Bool) {dataLen k : Nat} (frags : List Nat)
    (h : Mapping c B r₀ r T Q ms) (hB : B < T + c) (hy : T ≤ y) (hQy : Q ≤ y) (hyx : y ≤ x)
    (hxB : x + moreDescs size ≤ B) (hdd : (r.desc (x % c)).dd = false) (hfirst : ms = [] ↔ y = T)
    (hend : mapFails k = true ∨ dataLen = 0) :
    ∃ t ms', mapPieces (T % c) mapFails r (y % c) (x % c) size dataLen k frags = .ok t ∧
      (Unwound c B r₀ t T ms' ∨ ∃ P, Queued c B r₀ t T P ms') := by
  rw [mapPieces]
  by_cases hfail : mapFails k = true
  · rw [if_pos hfail, h.count]
    obtain ⟨t, ht, hunwound⟩ := dmaError_spec (c + 1)
      (h.unwinding (x := x) (by omega) (by omega) (by omega)) hB (by omega) (by omega) (by omega)
    exact ⟨t, ms, ht, .inl hunwound⟩
  · obtain ⟨r', left, hfill, h', hdd'⟩ := mapPiece_spec h hB hy hQy hyx hxB hdd hfirst
    rw [if_neg hfail, hfill]
    rw [if_pos (hend.resolve_left hfail)]
    exact ⟨_, _, rfl, .inr ⟨_, h'.queue hB (by omega) hxB (by omega) hdd' (by simp) left⟩⟩

/-- **Mapping** a frame queues it or gives it up, within the positions it may use. -/
theorem mapPieces_spec (mapFails : Nat → Bool) {dataLen k : Nat} (frags : List Nat)
    (h : Mapping c B r₀ r T Q ms) (hB : B < T + c) (hy : T ≤ y) (hQy : Q ≤ y) (hyx : y ≤ x)
    (hxB : x + moreDescs size + frags.length ≤ B) (hdd : (r.desc (x % c)).dd = false)
    (hfirst : ms = [] ↔ y = T) (hfrags : ∀ f ∈ frags, f ≤ ixgbeMaxDataPerTxd)
    (hlen : dataLen ≤ frags.sum) :
    ∃ t ms', mapPieces (T % c) mapFails r (y % c) (x % c) size dataLen k frags = .ok t ∧
      (Unwound c B r₀ t T ms' ∨ ∃ P, Queued c B r₀ t T P ms') := by
  induction frags generalizing r x y size dataLen k Q ms with
  | nil =>
    have hnone := Nat.le_zero.mp hlen
    exact mapPieces_end mapFails [] h hB hy hQy hyx (by omega) hdd hfirst (.inr hnone)
  | cons f frags ih =>
    by_cases hend : mapFails k = true ∨ dataLen = 0
    · exact mapPieces_end mapFails (f :: frags) h hB hy hQy hyx (by omega) hdd hfirst
        hend
    · rw [not_or] at hend
      obtain ⟨hfail, hmore⟩ := hend
      rw [List.length_cons] at hxB
      rw [List.sum_cons] at hlen
      have hpiece : x + moreDescs size ≤ B := by omega
      obtain ⟨r', left, hfill, h', hdd'⟩ := mapPiece_spec h hB hy hQy hyx hpiece hdd hfirst
      have hnext : nextSlot (r'.setCmdTypeLen ((x + moreDescs size) % c) left false).count
          ((x + moreDescs size) % c) = (x + moreDescs size + 1) % c := by
        have hcount : (r'.setCmdTypeLen ((x + moreDescs size) % c) left false).count = c := h'.count
        rw [hcount]
        exact nextSlot_mod (by omega) _
      -- a fragment fits into one descriptor, so the room that was reserved is enough
      have hsmall : moreDescs (min dataLen f) = 0 :=
        moreDescs_of_le ((min_le_right _ _).trans (hfrags f (by simp)))
      rw [mapPieces, if_neg hfail, hfill]
      dsimp only
      rw [if_neg hmore, hnext]
      have hbound : x + moreDescs size + 1 + moreDescs (min dataLen f) + frags.length ≤ B := by
        rw [hsmall]
        omega
      have hlater : ms ++ [(r.mapped.length, size)] = [] ↔ x + moreDescs size + 1 = T :=
        iff_of_false (by simp) (by omega)
      exact ih ((h'.setDesc (by omega) (by omega) _).setDesc (by omega) (by omega) _) (by omega)
        (by omega) le_rfl hbound setOlinfoStatus_dd hlater
        (fun g hg => hfrags g (by simp [hg])) (by omega)

end Call

end VmkDrivers.Wfs
