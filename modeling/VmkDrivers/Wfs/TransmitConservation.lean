/-
  VmkDrivers.Wfs.TransmitConservation

  What a transmit ring keeps, whatever frames are handed over, whichever
  mappings fail and however far the device is (`transmit_conserved`).
-/

import VmkDrivers.Wfs.TransmitFrames

namespace VmkDrivers.Wfs

open VmkDrivers.Lib IxgbeRing

/-! ## What is reserved -/

/-- A frame whose descriptors can be counted in 16 bits. -/
def TxSkb.Fits (skb : TxSkb) : Prop :=
  (skb.headlen + (ixgbeMaxDataPerTxd - 1)) / ixgbeMaxDataPerTxd + skb.frags.length + 3 < 2 ^ 16

theorem TxSkb.Fits.reserved {skb : TxSkb} (h : skb.Fits) :
    skb.reserved =
      (skb.headlen + (ixgbeMaxDataPerTxd - 1)) / ixgbeMaxDataPerTxd + skb.frags.length + 3 := by
  rw [TxSkb.Fits] at h
  have hhead : skb.headlen + (ixgbeMaxDataPerTxd - 1) < 2 ^ 32 := by
    rw [ixgbeMaxDataPerTxd] at h ⊢
    omega
  rw [TxSkb.reserved, TxSkb.descCount, txdUseCount, Nat.mod_eq_of_lt hhead, Nat.mod_add_mod,
    Nat.add_assoc, Nat.mod_add_mod, ← Nat.add_assoc, Nat.mod_eq_of_lt h]

theorem TxSkb.Fits.moreDescs_le {skb : TxSkb} (h : skb.Fits) {size : Nat}
    (hsize : size ≤ skb.headlen) : moreDescs size + skb.frags.length + 3 ≤ skb.reserved := by
  have hmore : moreDescs size ≤
      (skb.headlen + (ixgbeMaxDataPerTxd - 1)) / ixgbeMaxDataPerTxd :=
    Nat.div_le_div_right (by omega)
  rw [h.reserved]
  omega

theorem mapLengths_le (skb : TxSkb) (fcoe : Bool) :
    (mapLengths skb fcoe).1 ≤ skb.headlen ∧
      (mapLengths skb fcoe).2 ≤ skb.frags.sum := by
  have hlt := skb.len_lt
  have hge := skb.len_ge
  rw [mapLengths, TxSkb.dataLen]
  cases fcoe with
  | false => exact ⟨le_rfl, le_rfl⟩
  | true =>
    rw [if_pos rfl]
    split <;> dsimp only <;> omega

/-! ## `ixgbe_xmit_frame_ring` -/

section Xmit

variable {c B : Nat} {r₀ r : IxgbeRing} {H D T x : Nat} {skb : TxSkb}

theorem takeOn_spec (h : Laid c r H D T) (hTB : T ≤ B) (hB : B < H + c) :
    Mapping c B r (r.takeOn skb) T T [] := by
  have hHT := h.head_le.trans h.le_tail
  have hbuffer : ∀ k, k ≠ T % c → (r.takeOn skb).txBuffer k = r.txBuffer k := fun k hk =>
    setBuffer_of_ne (by rw [h.use]; exact hk)
  have hself : (r.takeOn skb).txBuffer (T % c) =
      { r.txBuffer (T % c) with
        skb := some r.submitted, bytecount := skb.len, gsoSegs := 1 } := by
    rw [← h.use]
    exact setBuffer_self
  have hclear : ∀ y, T ≤ y → y ≤ B → (r.txBuffer (y % c)).Clear := fun y hy hyB =>
    h.clear y hy (by omega)
  have hlen : ∀ y, T ≤ y → y ≤ B → ((r.takeOn skb).txBuffer (y % c)).len = 0 := by
    intro y hy hyB
    by_cases hyT : y = T
    · rw [hyT, hself]
      exact (hclear T le_rfl hTB).len
    · rw [hbuffer _ (slot_ne (by omega) hy hyB le_rfl hTB hyT)]
      exact (hclear y hy hyB).len
  refine ⟨⟨h.count, rfl, rfl, rfl, rfl, ?_, h.handles, fun k hk => ⟨rfl, ?_⟩⟩, rfl, rfl, rfl,
    fun y hy hyB => ?_, hlen, ?_, fun hne => absurd rfl hne⟩
  · rw [List.append_nil]
    rfl
  · exact hbuffer k fun heq => hk T le_rfl hTB heq.symm
  · by_cases hyT : y = T
    · rw [hyT, hself, if_pos rfl]
      exact ⟨(hclear T le_rfl hTB).nextToWatch, rfl⟩
    · rw [hbuffer _ (slot_ne (by omega) hy hyB le_rfl hTB hyT), if_neg hyT]
      exact ⟨(hclear y hy hyB).nextToWatch, (hclear y hy hyB).skb⟩
  · exact gather_eq_nil fun y hy hyB => if_pos (hlen y hy (by omega))

theorem Mapping.setSegments (h : Mapping c B r₀ r T T []) (hTB : T ≤ B) (gsoSegs hdrLen : Nat) :
    Mapping c B r₀ (r.setSegments (T % c) gsoSegs hdrLen) T T [] := by
  have hsame : ∀ k, ((r.setSegments (T % c) gsoSegs hdrLen).txBuffer k).nextToWatch =
        (r.txBuffer k).nextToWatch ∧
      ((r.setSegments (T % c) gsoSegs hdrLen).txBuffer k).skb = (r.txBuffer k).skb ∧
      ((r.setSegments (T % c) gsoSegs hdrLen).txBuffer k).len = (r.txBuffer k).len := by
    intro k
    by_cases hk : k = T % c
    · rw [hk, IxgbeRing.setSegments, setBuffer_self]
      exact ⟨rfl, rfl, rfl⟩
    · rw [IxgbeRing.setSegments, setBuffer_of_ne hk]
      exact ⟨rfl, rfl, rfl⟩
  have hlen : ∀ y, T ≤ y → y ≤ B →
      ((r.setSegments (T % c) gsoSegs hdrLen).txBuffer (y % c)).len = 0 := fun y hy hyB =>
    (hsame _).2.2.trans (h.beyond y hy hyB)
  refine ⟨⟨h.count, h.clean, h.idle, h.tdh, h.submitted, h.mapped, h.handles, fun k hk => ?_⟩,
    h.tdt, h.freed, h.unmapped, fun y hy hyB => ?_, hlen, ?_, fun hne => absurd rfl hne⟩
  · rw [IxgbeRing.setSegments, setBuffer_of_ne fun heq => hk T le_rfl hTB heq.symm]
    exact h.outside k hk
  · rw [(hsame _).1, (hsame _).2.1]
    exact h.inside y hy hyB
  · exact gather_eq_nil fun y hy hyB => if_pos (hlen y hy (by omega))

theorem Mapping.ctxtdesc (h : Mapping c B r₀ r T T []) (hc : 0 < c) (hTB : T ≤ B)
    (huse : r.nextToUse = T % c) :
    Mapping c B r₀ r.ixgbeTxCtxtdesc T T [] ∧ r.ixgbeTxCtxtdesc.nextToUse = (T + 1) % c := by
  refine ⟨{ h with outside := fun k hk => ?_ }, ?_⟩
  · have hne : k ≠ r.nextToUse := by
      rw [huse]
      exact fun heq => hk T le_rfl hTB heq.symm
    exact ⟨(Function.update_of_ne hne _ _).trans (h.outside k hk).1, (h.outside k hk).2⟩
  · have hlt := Nat.mod_lt T hc
    rw [ixgbeTxCtxtdesc]
    dsimp only
    rw [huse, h.count, ← nextSlot_mod hc, nextSlot]
    split <;> split <;> omega

theorem Mapping.outDrop (h : Mapping c B r₀ r T T []) (hB : B < T + c) (hTB : T ≤ B)
    (huse : r.nextToUse = T % c) : Unwound c B r₀ (r.outDrop (T % c)) T [] := by
  obtain ⟨-, hskb⟩ := h.inside T le_rfl hTB
  have hbuffer : ∀ k, k ≠ T % c → (r.outDrop (T % c)).txBuffer k = r.txBuffer k := fun _ hk =>
    setBuffer_of_ne hk
  refine ⟨⟨h.count, h.clean, h.idle, h.tdh, h.submitted, h.mapped, h.handles, fun k hk => ?_⟩,
    huse, h.tdt, ?_, fun y hy hyB => ?_, ?_⟩
  · rw [hbuffer k fun heq => hk T le_rfl hTB heq.symm]
    exact h.outside k hk
  · show r.freed ++ ((r.txBuffer (T % c)).skb).toList = _
    rw [hskb, if_pos rfl, h.freed]
    rfl
  · by_cases hyT : y = T
    · rw [hyT, IxgbeRing.outDrop, setBuffer_self]
      exact ⟨(h.inside T le_rfl hTB).1, rfl, h.beyond T le_rfl hTB⟩
    · obtain ⟨hwatch, hskb⟩ := h.inside y hy hyB
      rw [hbuffer _ (slot_ne hB hy hyB le_rfl hTB hyT)]
      exact ⟨hwatch, hskb.trans (if_neg hyT), h.beyond y hy hyB⟩
  · show r.unmapped.Perm _
    rw [h.unmapped, nonempty, List.filter_nil, List.append_nil]

def Ended (c B : Nat) (r₀ r : IxgbeRing) (T : Nat) : Prop :=
  ∃ ms, Unwound c B r₀ r T ms ∨ ∃ P, Queued c B r₀ r T P ms

theorem ixgbeTxMap_spec (fcoe : Bool) (mapFails : Nat → Bool) (h : Mapping c B r₀ r T T [])
    (hB : B < T + c) (hfits : skb.Fits) (hroom : T + skb.reserved ≤ B + 1) (hx : T ≤ x)
    (hxT : x ≤ T + 1) (huse : r.nextToUse = x % c) :
    ∃ t, r.ixgbeTxMap (T % c) skb fcoe mapFails = .ok t ∧ Ended c B r₀ t T := by
  obtain ⟨hsize, hdata⟩ := mapLengths_le skb fcoe
  have hmore := hfits.moreDescs_le hsize
  have hxB : x + moreDescs (mapLengths skb fcoe).1 + skb.frags.length ≤ B := by omega
  obtain ⟨t, ms, ht, hend⟩ := mapPieces_spec mapFails (k := 0) (x := x) (y := T)
    skb.frags (h.setDesc hx (by omega) fun d => { d with dd := false }) hB le_rfl le_rfl hx
    hxB setOlinfoStatus_dd (iff_of_true rfl rfl) skb.frags_le hdata
  refine ⟨t, ?_, ms, hend⟩
  rw [ixgbeTxMap, huse]
  exact ht

/-- The frame is taken on, and the next descriptor is that of position `x`. -/
structure Taken (c B : Nat) (r₀ r : IxgbeRing) (T x : Nat) : Prop extends
    Mapping c B r₀ r T T [] where
  le : T ≤ x
  le_succ : x ≤ T + 1
  use : r.nextToUse = x % c

theorem Taken.context (h : Taken c B r₀ r T T) (hc : 0 < c) (hTB : T ≤ B) :
    Taken c B r₀ r.ixgbeTxCtxtdesc T (T + 1) := by
  obtain ⟨hmapping, huse⟩ := h.toMapping.ctxtdesc hc hTB h.use
  exact ⟨hmapping, by omega, le_rfl, huse⟩

theorem Taken.segments (h : Taken c B r₀ r T x) (hTB : T ≤ B) (gsoSegs hdrLen : Nat) :
    Taken c B r₀ (r.setSegments (T % c) gsoSegs hdrLen) T x :=
  ⟨h.toMapping.setSegments hTB gsoSegs hdrLen, h.le, h.le_succ, h.use⟩

theorem Taken.drop (h : Taken c B r₀ r T T) (hB : B < T + c) (hTB : T ≤ B) :
    Ended c B r₀ (r.outDrop (T % c)) T :=
  ⟨[], .inl (h.toMapping.outDrop hB hTB h.use)⟩

theorem ixgbeFso_spec (skb : TxSkb) (h : Taken c B r₀ r T T) (hc : 0 < c) (hTB : T ≤ B) :
    r.ixgbeFso (T % c) skb = (r, false) ∨
      ∃ r', r.ixgbeFso (T % c) skb = (r', true) ∧ Taken c B r₀ r' T (T + 1) := by
  rw [ixgbeFso]
  split
  · exact .inl rfl
  split
  · exact .inl rfl
  split
  · exact .inl rfl
  refine .inr ⟨_, rfl, ?_⟩
  split
  · exact (h.segments hTB _ _).context hc hTB
  · exact h.context hc hTB

theorem ixgbeTso_spec (skb : TxSkb) (h : Taken c B r₀ r T T) (hc : 0 < c) (hTB : T ≤ B)
    (expandHead : Bool) :
    r.ixgbeTso (T % c) skb expandHead = (r, none) ∨
      r.ixgbeTso (T % c) skb expandHead = (r, some false) ∨
      ∃ r', r.ixgbeTso (T % c) skb expandHead = (r', some true) ∧
        Taken c B r₀ r' T (T + 1) := by
  rw [ixgbeTso]
  split
  · exact .inr (.inl rfl)
  split
  · exact .inr (.inl rfl)
  split
  · exact .inl rfl
  · exact .inr (.inr ⟨_, rfl, (h.segments hTB _ _).context hc hTB⟩)

theorem ixgbeTxCsum_spec (skb : TxSkb) (h : Taken c B r₀ r T T) (hc : 0 < c) (hTB : T ≤ B)
    (adapter : TxAdapter) : ∃ x, Taken c B r₀ (r.ixgbeTxCsum adapter skb) T x := by
  rw [ixgbeTxCsum]
  split
  · exact ⟨T, h⟩
  · exact ⟨T + 1, h.context hc hTB⟩

theorem Taken.txMap {fcoe : Bool} {mapFails : Nat → Bool} (h : Taken c B r₀ r T x)
    (hB : B < T + c) (hfits : skb.Fits) (hroom : T + skb.reserved ≤ B + 1) :
    ∃ t, (r.ixgbeTxMap (T % c) skb fcoe mapFails).map (·, false) = .ok (t, false) ∧
      Ended c B r₀ t T := by
  obtain ⟨t, ht, hend⟩ :=
    ixgbeTxMap_spec fcoe mapFails h.toMapping hB hfits hroom h.le
      h.le_succ h.use
  exact ⟨t, by rw [ht]; rfl, hend⟩

theorem ixgbeXmitFrameRing_taken (h : Laid c r H D T) (hTB : T ≤ B) (hB : B < H + c)
    (hfits : skb.Fits) (hroom : T + skb.reserved ≤ B + 1)
    (hstop : r.ixgbeMaybeStopTx skb.reserved = false) (adapter : TxAdapter) (expandHead : Bool)
    (mapFails : Nat → Bool) :
    ∃ t, r.ixgbeXmitFrameRing adapter skb expandHead mapFails = .ok (t, false) ∧
      Ended c B r t T := by
  have hc := h.count_pos
  have hHT := h.head_le.trans h.le_tail
  have hBT : B < T + c := by omega
  have htaken : Taken c B r (r.takeOn skb) T T := ⟨takeOn_spec h hTB hB, le_rfl, by omega, h.use⟩
  rw [ixgbeXmitFrameRing, if_neg (by rw [hstop]; decide)]
  rw [h.use]
  cases skb.offloadProtocol with
  | none => exact ⟨_, rfl, htaken.drop hBT hTB⟩
  | some protocol =>
    dsimp only
    split
    · rcases ixgbeFso_spec skb htaken hc hTB with hfso | ⟨r', hfso, htaken'⟩
      · rw [hfso]
        exact ⟨_, rfl, htaken.drop hBT hTB⟩
      · rw [hfso]
        exact htaken'.txMap hBT hfits hroom
    · rcases ixgbeTso_spec skb htaken hc hTB expandHead with
        htso | htso | ⟨r', htso, htaken'⟩
      · rw [htso]
        exact ⟨_, rfl, htaken.drop hBT hTB⟩
      · obtain ⟨x, htaken'⟩ := ixgbeTxCsum_spec skb htaken hc hTB adapter
        rw [htso]
        exact htaken'.txMap hBT hfits hroom
      · rw [htso]
        exact htaken'.txMap hBT hfits hroom

theorem ixgbeMaybeStopTx_eq (size : Nat) :
    r.ixgbeMaybeStopTx size = decide (r.ixgbeDescUnused < size) := by
  rw [ixgbeMaybeStopTx, maybeStopTxAgain]
  split
  · next hge => exact (decide_eq_false (by omega)).symm
  · rfl

end Xmit

/-! ## Positions of a ring -/

namespace IxgbeRing

variable (r : IxgbeRing)

/-- The slots in use, from `next_to_clean` on. -/
def used : Nat := (r.nextToUse + r.count - r.nextToClean) % r.count

def passed : Nat := (r.tdh + r.count - r.nextToClean) % r.count

/-- The position of `next_to_use`. -/
def tail : Nat := r.nextToClean + r.used

/-- **Conservation.** The slots in use are a row of frames and leave one slot; each skb and each
    mapping is in one of them or has been released. -/
def Conserved : Prop := Resting r.count r r.nextToClean (r.nextToClean + r.passed) r.tail

end IxgbeRing

section Positions

variable {c : Nat} {r : IxgbeRing} {H D T p e s : Nat}

theorem slot_sub (hs : c ∣ s) (hp : s ≤ p) : (p - s) % c = p % c := by
  obtain ⟨k, rfl⟩ := hs
  obtain ⟨d, rfl⟩ := Nat.exists_eq_add_of_le hp
  rw [Nat.add_sub_cancel_left, Nat.mul_add_mod]

theorem Frames.sub (h : Frames c r D p e) (hs : c ∣ s) (hp : s ≤ p) :
    Frames c r (D - s) (p - s) (e - s) := by
  induction h with
  | nil p => exact .nil (p - s)
  | @cons p q e hframe _ ih =>
    have hlt := hframe.lt
    have hlast : (q - s - 1) % c = (q - 1) % c := by
      rw [Nat.sub_right_comm]
      exact slot_sub hs (by omega)
    refine .cons ⟨by omega, ?_, fun x hx hxq => ?_, ?_, ?_⟩ (ih (by omega))
    · rw [slot_sub hs hp, hlast]
      exact hframe.watch
    · have hrest := hframe.rest (x + s) (by omega) (by omega)
      rwa [← slot_sub hs (Nat.le_add_left s x), Nat.add_sub_cancel] at hrest
    · rw [hlast]
      exact hframe.cmd
    · rw [hlast, hframe.dd]
      omega

theorem gather_sub {α : Type*} {f : Nat → Option α} (hs : c ∣ s) (hp : s ≤ p) (hpe : p ≤ e) :
    gather c f (p - s) (e - s) = gather c f p e := by
  obtain ⟨k, rfl⟩ := Nat.exists_eq_add_of_le hpe
  rw [← filterMap_range_slot, Nat.sub_add_comm hp, ← filterMap_range_slot, slot_sub hs hp]

theorem Resting.sub (h : Resting c r H D T) (hs : c ∣ s) (hH : s ≤ H) :
    Resting c r (H - s) (D - s) (T - s) := by
  have hHD := h.head_le
  have hDT := h.le_tail
  have hlap := h.lap
  refine ⟨⟨h.count, h.count_lt, by omega, by omega, by omega, ?_, ?_, ?_, h.frames.sub hs hH,
    fun y hy hyc => ?_, ?_, ?_, h.handles⟩, ?_, h.idle⟩
  · rw [slot_sub hs (by omega)]
    exact h.use
  · rw [slot_sub hs (by omega)]
    exact h.tdh
  · rw [slot_sub hs (by omega)]
    exact h.tdt
  · have hclear := h.clear (y + s) (by omega) (by omega)
    rwa [← slot_sub hs (Nat.le_add_left s y), Nat.add_sub_cancel] at hclear
  · rw [gather_sub hs hH (by omega)]
    exact h.skbs
  · rw [gather_sub hs hH (by omega)]
    exact h.maps
  · rw [slot_sub hs hH]
    exact h.clean

theorem Resting.used_eq (h : Resting c r H D T) : r.used = T - H := by
  rw [used, h.use, h.clean, h.count]
  exact slot_distance (h.head_le.trans h.le_tail) h.lap

theorem Resting.passed_eq (h : Resting c r H D T) : r.passed = D - H := by
  have hDT := h.le_tail
  have hlap := h.lap
  rw [passed, h.tdh, h.clean, h.count]
  exact slot_distance h.head_le (by omega)

theorem Resting.conserved (h : Resting c r H D T) : r.Conserved := by
  have hle := Nat.mod_le H c
  have hHD := h.head_le
  have hDT := h.le_tail
  have hclean := h.clean
  have hsub := h.sub (Nat.dvd_sub_mod H) (Nat.sub_le H (H % c))
  rw [IxgbeRing.Conserved, tail, h.used_eq, h.passed_eq, h.count]
  convert hsub using 1 <;> omega

end Positions

/-! ## What a step keeps -/

def RingEvent.Fits : RingEvent → Prop
  | .xmit _ skb _ _ => skb.Fits
  | _ => True

/-- What an event may do to a ring `r`, that is `t` afterwards. -/
def RingEvent.Keeps (r t : IxgbeRing) : RingEvent → Prop
  | .xmit adapter skb expandHead mapFails =>
    (r.ixgbeXmitFrameRing adapter skb expandHead mapFails = .ok (t, true) ∧
      r.count ≤ r.used + skb.reserved ∧ t = r) ∨
    (r.ixgbeXmitFrameRing adapter skb expandHead mapFails = .ok (t, false) ∧
      r.used + skb.reserved < r.count ∧
      (∀ y, r.nextToClean ≤ y → y < r.tail → t.desc (y % r.count) = r.desc (y % r.count) ∧
        t.txBuffer (y % r.count) = r.txBuffer (y % r.count)) ∧
      Ended r.count (r.tail + skb.reserved - 1) r t r.tail)
  | .clean down workLimit => ∃ answer n,
      r.ixgbeCleanTxIrq down workLimit = .ok (t, answer) ∧ n ≤ r.passed ∧
        TakenBack r.count r t r.nextToClean (r.nextToClean + n) ∧
        (answer = true → down = false → t.NothingDone)
  | .device => t = r.complete ∧ r.passed < r.used ∧ t.passed = r.passed + 1

section Keeps

variable {r : IxgbeRing} {s : RingState}

theorem xmit_keeps (h : r.Conserved) {skb : TxSkb} (hfits : skb.Fits) (adapter : TxAdapter)
    (expandHead : Bool) (mapFails : Nat → Bool) :
    ∃ t, r.exec (.xmit adapter skb expandHead mapFails) = some (.ok t) ∧ t.Conserved ∧
      t.count = r.count ∧ RingEvent.Keeps r t (.xmit adapter skb expandHead mapFails) := by
  have hunused := h.toLaid.descUnused h.clean
  have hused := h.used_eq
  have hlap := h.lap
  have hHT := h.head_le.trans h.le_tail
  have hreserved : 3 ≤ skb.reserved := by
    rw [hfits.reserved]
    exact Nat.le_add_left 3 _
  cases hstop : r.ixgbeMaybeStopTx skb.reserved with
  | true =>
    have hbusy : r.ixgbeXmitFrameRing adapter skb expandHead mapFails = .ok (r, true) := by
      rw [ixgbeXmitFrameRing, if_pos hstop]
    refine ⟨r, ?_, h, rfl, .inl ⟨hbusy, ?_, rfl⟩⟩
    · rw [exec, hbusy]
      rfl
    · rw [ixgbeMaybeStopTx_eq] at hstop
      have hfew := of_decide_eq_true hstop
      omega
  | false =>
    have hroom : r.used + skb.reserved < r.count := by
      rw [ixgbeMaybeStopTx_eq] at hstop
      have henough := of_decide_eq_false hstop
      omega
    have hTB : r.tail ≤ r.tail + skb.reserved - 1 := by omega
    have hB : r.tail + skb.reserved - 1 + 1 < r.nextToClean + r.count := by
      rw [tail]
      omega
    obtain ⟨t, ht, hend⟩ :=
      ixgbeXmitFrameRing_taken h.toLaid hTB (by omega) hfits (by omega) hstop adapter expandHead
        mapFails
    have hkeeps : RingEvent.Keeps r t (.xmit adapter skb expandHead mapFails) := by
      refine .inr ⟨ht, hroom, fun y hy hyT => ?_, hend⟩
      obtain ⟨ms, hend | ⟨P, hend⟩⟩ := hend
      · exact hend.toCall.kept hTB (by omega) hy hyT
      · exact hend.toCall.kept hTB (by omega) hy hyT
    have hexec : r.exec (.xmit adapter skb expandHead mapFails) = some (.ok t) := by
      rw [exec, ht]
      rfl
    obtain ⟨ms, hend | ⟨P, hend⟩⟩ := hend
    · have hlaid := hend.laid hTB (by omega) h.toLaid
      have hresting : Resting r.count t r.nextToClean (r.nextToClean + r.passed) r.tail :=
        ⟨hlaid, hend.clean.trans h.clean, hend.toCall.idle.trans h.idle⟩
      exact ⟨t, hexec, hresting.conserved, hend.count, hkeeps⟩
    · have hlaid := hend.laid hB h.toLaid
      have hresting : Resting r.count t r.nextToClean (r.nextToClean + r.passed) (P + 1) :=
        ⟨hlaid, hend.clean.trans h.clean, hend.toCall.idle.trans h.idle⟩
      exact ⟨t, hexec, hresting.conserved, hend.count, hkeeps⟩

theorem clean_keeps (h : r.Conserved) (down : Bool) (workLimit : BitVec 32) :
    ∃ t, r.exec (.clean down workLimit) = some (.ok t) ∧ t.Conserved ∧ t.count = r.count ∧
      RingEvent.Keeps r t (.clean down workLimit) := by
  cases down with
  | true =>
    have hclean : (r.nextToClean + 0) % r.count = r.nextToClean := h.clean.symm
    refine ⟨r, rfl, h, rfl, true, 0, rfl, Nat.zero_le _, ⟨?_, ?_, ?_, fun _ _ _ => rfl⟩, nofun⟩
    · rw [hclean]
    · rw [Nat.add_zero, gather_self, List.append_nil]
    · rw [Nat.add_zero, gather_self, List.append_nil]
  | false =>
    obtain ⟨t, answer, q, ht, hresting, hq, htaken, hstop⟩ := ixgbeCleanTxIrq_spec h workLimit
    obtain ⟨n, rfl⟩ := Nat.exists_eq_add_of_le hq
    have hnD := hresting.head_le
    refine ⟨t, ?_, hresting.conserved, hresting.count, answer, n, ht, by omega, htaken,
      fun hanswer _ => hstop hanswer⟩
    rw [exec, ht]
    rfl

theorem device_keeps (h : r.Conserved) (hexec : r.exec .device = some s) :
    ∃ t, s = .ok t ∧ t.Conserved ∧ t.count = r.count ∧ RingEvent.Keeps r t .device := by
  rw [exec] at hexec
  split at hexec
  · cases hexec
  · next hwait =>
    cases hexec
    have hDT : r.nextToClean + r.passed < r.tail := by
      refine lt_of_le_of_ne h.le_tail fun heq => hwait ?_
      rw [h.tdh, h.tdt, heq]
    have hlaid := h.toLaid.complete hDT
    have hresting : Resting r.count r.complete r.nextToClean (r.nextToClean + r.passed + 1)
        r.tail := ⟨hlaid, h.clean, h.idle⟩
    have hpassed := hresting.passed_eq
    rw [tail] at hDT
    exact ⟨r.complete, rfl, hresting.conserved, rfl, rfl, by omega, by omega⟩

theorem ringStep_keeps (h : r.Conserved) {e : RingEvent} (hfits : e.Fits)
    (hstep : RingStep (.ok r) e s) :
    ∃ t, s = .ok t ∧ t.Conserved ∧ t.count = r.count ∧ e.Keeps r t := by
  obtain ⟨r', hr', hexec⟩ := hstep
  cases hr'
  cases e with
  | xmit adapter skb expandHead mapFails =>
    obtain ⟨t, ht, hconserved⟩ := xmit_keeps h hfits adapter expandHead mapFails
    exact ⟨t, Option.some.inj (hexec.symm.trans ht), hconserved⟩
  | clean down workLimit =>
    obtain ⟨t, ht, hconserved⟩ := clean_keeps h down workLimit
    exact ⟨t, Option.some.inj (hexec.symm.trans ht), hconserved⟩
  | device => exact device_keeps h hexec

theorem fresh_conserved {count : Nat} (hpos : 0 < count) (hlt : count < 2 ^ 16) :
    (fresh count).Conserved := by
  have hresting : Resting count (fresh count) 0 0 0 := by
    refine ⟨⟨rfl, hlt, le_rfl, le_rfl, by omega, ?_, ?_, ?_, .nil 0,
      fun _ _ _ => ⟨rfl, rfl, rfl⟩, ?_, ?_, rfl⟩, ?_, rfl⟩
    · exact (Nat.zero_mod count).symm
    · exact (Nat.zero_mod count).symm
    · exact (Nat.zero_mod count).symm
    · rw [gather_self]
      exact .refl _
    · rw [gather_self]
      exact accounts_refl []
    · exact (Nat.zero_mod count).symm
  exact hresting.conserved

end Keeps

/-- **Transmit ring conservation.** -/
theorem transmit_conserved {count : Nat} (hpos : 0 < count) (hlt : count < 2 ^ 16)
    {es : List RingEvent} {s : RingState}
    (hrun : Run (Guarded RingStep fun _ e => e.Fits) (.ok (.fresh count)) es s) :
    ∃ r, s = .ok r ∧ r.count = count ∧ r.Conserved ∧
      ∀ e u, e.Fits → RingStep s e u → ∃ t, u = .ok t ∧ t.Conserved ∧ e.Keeps r t := by
  have hinv : ∃ r, s = .ok r ∧ r.count = count ∧ r.Conserved := by
    refine hrun.invariant (I := fun s => ∃ r, s = .ok r ∧ r.count = count ∧ r.Conserved) ?_
      ⟨_, rfl, rfl, fresh_conserved hpos hlt⟩
    rintro _ e u ⟨r, rfl, hcount, hr⟩ ⟨hfits, hstep⟩
    obtain ⟨t, rfl, ht, hsame, -⟩ := ringStep_keeps hr hfits hstep
    exact ⟨t, rfl, hsame.trans hcount, ht⟩
  obtain ⟨r, rfl, hcount, hr⟩ := hinv
  refine ⟨r, rfl, hcount, hr, fun e u hfits hstep => ?_⟩
  obtain ⟨t, rfl, ht, -, hkeeps⟩ := ringStep_keeps hr hfits hstep
  exact ⟨t, rfl, ht, hkeeps⟩

def skbPlain : TxSkb := { headlen := 60, frags := [] }

theorem xmit_plain_fits : (RingEvent.xmit {} skbPlain true fun _ => false).Fits := by
  rw [RingEvent.Fits, TxSkb.Fits]
  decide

theorem xmit_plain_step :
    ∃ s, RingStep (.ok (.fresh 64)) (.xmit {} skbPlain true fun _ => false) s :=
  ⟨_, _, rfl, rfl⟩

/-- A ring of 64 slots with one frame in it. -/
theorem transmit_conserved_one : ∃ s,
    Run (Guarded RingStep fun _ e => e.Fits) (.ok (.fresh 64))
      [.xmit {} skbPlain true fun _ => false] s ∧
    ∃ r, s = .ok r ∧ r.count = 64 ∧ r.Conserved ∧
      ∀ e u, e.Fits → RingStep s e u → ∃ t, u = .ok t ∧ t.Conserved ∧ e.Keeps r t := by
  obtain ⟨s, hs⟩ := xmit_plain_step
  have hrun : Run (Guarded RingStep fun _ e => e.Fits) (.ok (.fresh 64))
      [.xmit {} skbPlain true fun _ => false] s := .single ⟨xmit_plain_fits, hs⟩
  exact ⟨s, hrun, transmit_conserved (by decide) (by decide) hrun⟩

theorem Resting.idle_done {c H T : Nat} {r : IxgbeRing} (h : Resting c r H T T)
    (hdone : r.NothingDone) : H = T := by
  have hrow : ∀ {p e}, Frames c r T p e → p = H → e = T → H = T := by
    intro p e hframes hp he
    cases hframes with
    | nil p => exact hp.symm.trans he
    | cons hframe hrest =>
      have hwatch := hframe.watch
      rw [hp, ← h.clean] at hwatch
      have hlt := hframe.lt
      have hle := hrest.le
      have hdd := hframe.dd.mpr (by omega)
      rw [hdone _ hwatch] at hdd
      cases hdd
  exact hrow h.frames rfl rfl

section Unaccounted

variable {r : IxgbeRing} {first buffer i size dataLen k frag c x : Nat} {dma : Nat × Nat}
  {mapFails : Nat → Bool} {frags : List Nat}

theorem fillDescs_of_le (h : size ≤ ixgbeMaxDataPerTxd) :
    r.fillDescs i dma size = (r, i, size) := by
  rw [fillDescs, if_neg (by omega)]

theorem fillDescs_of_gt (dma : Nat × Nat) (h : size > ixgbeMaxDataPerTxd) :
    ∃ r' : IxgbeRing, r'.count = r.count ∧ r'.nextToClean = r.nextToClean ∧
      r.fillDescs i dma size = r'.fillDescs (nextSlot r.count i)
        (dma.1, dma.2 + ixgbeMaxDataPerTxd) (size - ixgbeMaxDataPerTxd) := by
  refine ⟨((r.setCmdTypeLen i ixgbeMaxDataPerTxd false).setOlinfoStatus
    (nextSlot r.count i)).setDesc (nextSlot r.count i)
      fun d => { d with bufferAddr := (dma.1, dma.2 + ixgbeMaxDataPerTxd) }, rfl, rfl, ?_⟩
  rw [fillDescs, if_pos h]
  rfl

theorem fillDescs_indices {clean : Nat} (dma : Nat × Nat) (hc : 0 < c) (hcount : r.count = c)
    (hclean : r.nextToClean = clean) :
    (r.fillDescs (x % c) dma size).2.1 = (x + moreDescs size) % c ∧
      (r.fillDescs (x % c) dma size).1.count = c ∧
      (r.fillDescs (x % c) dma size).1.nextToClean = clean := by
  induction size using Nat.strong_induction_on generalizing r x dma with
  | _ size ih =>
    have hpos : 0 < ixgbeMaxDataPerTxd := by decide
    by_cases hbig : size > ixgbeMaxDataPerTxd
    · obtain ⟨r', hcount', hclean', hstep⟩ := fillDescs_of_gt (r := r) (i := x % c) dma hbig
      have hshift : x + moreDescs size = x + 1 + moreDescs (size - ixgbeMaxDataPerTxd) := by
        rw [moreDescs_of_gt hbig]
        omega
      rw [hstep, hcount, nextSlot_mod hc, hshift]
      exact ih _ (by omega) _ (hcount'.trans hcount) (hclean'.trans hclean)
    · rw [fillDescs_of_le (by omega), moreDescs_of_le (by omega), Nat.add_zero]
      exact ⟨rfl, hcount, hclean⟩

theorem mapPieces_last (hfail : mapFails k = false) (hdata : dataLen = 0) :
    mapPieces first mapFails r buffer i size dataLen k frags =
      .ok (((r.recordMapping buffer i size).fillDescs i (r.mapped.length, 0) size).1.queueFrame
        first ((r.recordMapping buffer i size).fillDescs i (r.mapped.length, 0) size).2.1
        ((r.recordMapping buffer i size).fillDescs i (r.mapped.length, 0) size).2.2) := by
  rw [mapPieces.eq_def, if_neg (by rw [hfail]; decide)]
  exact if_pos hdata

theorem mapPieces_more (hfail : mapFails k = false) (h : size ≤ ixgbeMaxDataPerTxd)
    (hmore : dataLen ≠ 0) :
    mapPieces first mapFails r buffer i size dataLen k (frag :: frags) =
      mapPieces first mapFails (((r.recordMapping buffer i size).setCmdTypeLen i size
          false).setOlinfoStatus (nextSlot r.count i)) (nextSlot r.count i) (nextSlot r.count i)
        (min dataLen frag) (dataLen - min dataLen frag) (k + 1) frags := by
  rw [mapPieces, if_neg (by rw [hfail]; decide), fillDescs_of_le h]
  exact if_neg hmore

theorem ixgbeXmitFrameRing_plain {skb : TxSkb} {t : IxgbeRing}
    (hstop : r.ixgbeMaybeStopTx skb.reserved = false)
    (hprotocol : skb.offloadProtocol = some .other) (htag : skb.vlanTag = false)
    (hplain : skb.checksumPartial = false)
    (hmap : mapPieces r.nextToUse mapFails
      ((r.takeOn skb).setOlinfoStatus r.nextToUse) r.nextToUse r.nextToUse skb.headlen skb.dataLen
        0 skb.frags = .ok t) :
    r.ixgbeXmitFrameRing {} skb true mapFails = .ok (t, false) := by
  have htso : (r.takeOn skb).ixgbeTso r.nextToUse skb true = (r.takeOn skb, some false) := by
    rw [ixgbeTso, if_pos (by rw [hplain]; decide)]
  have hcsum : (r.takeOn skb).ixgbeTxCsum {} skb = r.takeOn skb := by
    rw [ixgbeTxCsum, if_pos (by rw [hplain, htag]; decide)]
  have htxmap : (r.takeOn skb).ixgbeTxMap r.nextToUse skb false mapFails = .ok t := hmap
  rw [ixgbeXmitFrameRing, if_neg (by rw [hstop]; decide), hprotocol]
  dsimp only
  rw [if_neg (by decide), htso]
  dsimp only
  rw [if_neg (by decide), hcsum, htxmap]
  rfl

theorem ixgbeXmitFrameRing_head {skb : TxSkb} (mapFails : Nat → Bool) (hc : 0 < c)
    (hcount : r.count = c) (huse : r.nextToUse = x % c) (hstop : r.ixgbeMaybeStopTx skb.reserved = false)
    (hprotocol : skb.offloadProtocol = some .other) (htag : skb.vlanTag = false)
    (hplain : skb.checksumPartial = false) (hfail : mapFails 0 = false) (hdata : skb.dataLen = 0) :
    ∃ t, r.ixgbeXmitFrameRing {} skb true mapFails = .ok (t, false) ∧
      t.nextToUse = (x + moreDescs skb.headlen + 1) % c ∧ t.count = c ∧
      t.nextToClean = r.nextToClean := by
  set r' := ((r.takeOn skb).setOlinfoStatus r.nextToUse).recordMapping r.nextToUse r.nextToUse
    skb.headlen with hr'
  have hcount' : r'.count = c := hcount
  obtain ⟨hindex, hfilled, hclean⟩ :=
    fillDescs_indices (((r.takeOn skb).setOlinfoStatus r.nextToUse).mapped.length, 0) (x := x) hc
      hcount' rfl
  rw [← huse] at hindex hfilled hclean
  refine ⟨_, ixgbeXmitFrameRing_plain hstop hprotocol htag hplain (mapPieces_last hfail hdata),
    ?_, hfilled, hclean⟩
  rw [← nextSlot_mod hc, ← hindex, ← hfilled]
  rfl

end Unaccounted

def skbEmptyFrag : TxSkb := { headlen := 60, frags := [0, 100] }

def emptyFragRing : IxgbeRing :=
  ((((((((((fresh 64).takeOn skbEmptyFrag).setOlinfoStatus 0).recordMapping 0 0
    60).setCmdTypeLen 0 60 false).setOlinfoStatus 1).recordMapping 1 1 0).setCmdTypeLen 1 0
    false).setOlinfoStatus 2).recordMapping 2 2 100).queueFrame 0 2 100

theorem xmit_emptyFrag :
    (fresh 64).ixgbeXmitFrameRing {} skbEmptyFrag true (fun _ => false) =
      .ok (emptyFragRing, false) := by
  refine ixgbeXmitFrameRing_plain (by decide) (by decide) rfl rfl ?_
  have hfirst : (fresh 64).nextToUse = 0 := rfl
  have hhead : skbEmptyFrag.headlen = 60 := rfl
  have hdata : skbEmptyFrag.dataLen = 100 := by decide
  have hfrags : skbEmptyFrag.frags = [0, 100] := rfl
  rw [hfirst, hhead, hdata, hfrags, mapPieces_more rfl (by decide) (by decide),
    mapPieces_more rfl (by decide) (by decide)]
  refine (mapPieces_last rfl rfl).trans ?_
  rw [fillDescs_of_le (by decide)]
  rfl

def skbBigHead : TxSkb := { headlen := 2 ^ 30, frags := [] }

theorem xmit_bigHead : ∃ t, (fresh 100).ixgbeXmitFrameRing {} skbBigHead true (fun _ => false) =
      .ok (t, false) ∧ t.used = 36 := by
  have hmore : moreDescs skbBigHead.headlen = 65535 := by decide
  have hstop : (fresh 100).ixgbeMaybeStopTx skbBigHead.reserved = false := by decide
  obtain ⟨t, ht, huse, hcount, hclean⟩ :=
    ixgbeXmitFrameRing_head (r := fresh 100) (c := 100) (x := 0) (fun _ => false)
      (by decide) rfl rfl hstop (by decide) rfl rfl rfl (by decide)
  have hzero : t.nextToClean = 0 := hclean
  refine ⟨t, ht, ?_⟩
  rw [used, huse, hcount, hzero, hmore]

theorem run_emptyFrag : ∃ r, Run RingStep (.ok (.fresh 64))
      [.xmit {} skbEmptyFrag true fun _ => false, .device, .device, .device, .clean false 256]
      (.ok r) ∧
    r.used = 0 ∧ r.mapped = [(0, 60), (1, 0), (2, 100)] ∧ r.unmapped = [(0, 60), (2, 100)] := by
  have hxmit : RingStep (.ok (.fresh 64)) (.xmit {} skbEmptyFrag true fun _ => false)
      (.ok emptyFragRing) := by
    refine ⟨_, rfl, ?_⟩
    rw [exec, xmit_emptyFrag]
    rfl
  refine ⟨_, .cons hxmit (.cons ⟨_, rfl, rfl⟩ (.cons ⟨_, rfl, rfl⟩ (.cons ⟨_, rfl, rfl⟩
    (.single ⟨_, rfl, rfl⟩)))), ?_⟩
  exact ⟨by decide, rfl, by decide⟩

/-- A mapping of no bytes is left behind, and a head of 1 GiB takes 36 slots of a ring of 100, of
    which 3 were reserved. -/
theorem transmit_unaccounted :
    (∃ r, Run RingStep (.ok (.fresh 64))
        [.xmit {} skbEmptyFrag true fun _ => false, .device, .device, .device, .clean false 256]
        (.ok r) ∧
      r.used = 0 ∧ r.mapped = [(0, 60), (1, 0), (2, 100)] ∧ r.unmapped = [(0, 60), (2, 100)]) ∧
    skbBigHead.reserved = 3 ∧ ∃ t,
      (fresh 100).ixgbeXmitFrameRing {} skbBigHead true (fun _ => false) =
        .ok (t, false) ∧ t.used = 36 :=
  ⟨run_emptyFrag, by decide, xmit_bigHead⟩

end VmkDrivers.Wfs
