/-
  VmkDrivers.Wfs.ReceiveRuns

  What holds of a receive ring in every run.

  Seen as positions that only grow, the ring has buffers from `next_to_clean` up
  to `next_to_use` (`Window`); the loop of `ixgbe_clean_rx_irq` asks for no more
  than there is room for, and never comes to a slot that has none.  So as long
  as the device links the buffers of a frame as it should, each skb and each
  mapping is in one place (`receive_conserved`), each write-back is taken once,
  in ring order (`receive_in_turn`), what leaves is a whole frame
  (`receive_whole`), and the device has mapped memory to write to
  (`receive_mapped`).
-/

import VmkDrivers.Wfs.ReceiveCustody

namespace VmkDrivers.Wfs

open VmkDrivers.Lib

namespace RxRing

/-- The buffers of the positions from `c` up to `u`. -/
structure Window (n : Nat) (r : RxRing) (c u : Nat) : Prop where
  le : c ≤ u
  lt : u < c + n
  posted : ∀ p, c ≤ p → p < u → (r.rxBuffer (p % n)).skb.isSome ∧
    ((r.desc (p % n)).dd = false → (r.desc (p % n)).pktAddr = (r.rxBuffer (p % n)).dma)
  free : ∀ p, u ≤ p → p < c + n → r.rxBuffer (p % n) = {}
  next : (r.desc (u % n)).dd = false
  taken : r.taken = (List.range c).map (· % n)
  completed : ∀ p, c ≤ p → p < c + n → r.completed.count (p % n) =
    r.taken.count (p % n) + if p < u ∧ (r.desc (p % n)).dd then 1 else 0

/-- The ring before it is configured, and after it is cleaned. -/
structure Down (n : Nat) (r : RxRing) : Prop where
  up : r.up = false
  poll : r.poll = none
  buffers : ∀ i < n, r.rxBuffer i = {}
  desc : ∀ i, r.desc i = {}
  logs : r.completed = [] ∧ r.taken = []

/-- The ring at the positions `c` and `u`, where `m` buffers may be asked for. -/
structure At (n : Nat) (r : RxRing) (c u m : Nat) : Prop where
  up : r.up = true
  window : Window n r c u
  clean : r.nextToClean = c % n
  use : r.nextToUse = u % n
  room : m + (u - c) < n

def Ready (n : Nat) (r : RxRing) : Prop :=
  Custody n r none ∧
    (Down n r ∨ ∃ c u, At n r c u ((r.poll.map RxPoll.cleanedCount).getD 0))

variable {n c u k m i h s : Nat} {r r' : RxRing}

theorem Window.congr (hw : Window n r c u) (hbuf : r'.rxBuffer = r.rxBuffer)
    (hdesc : r'.desc = r.desc) (htaken : r'.taken = r.taken)
    (hcompleted : r'.completed = r.completed) : Window n r' c u := by
  refine ⟨hw.le, hw.lt, ?_, ?_, ?_, ?_, ?_⟩
  · rw [hbuf, hdesc]
    exact hw.posted
  · rw [hbuf]
    exact hw.free
  · rw [hdesc]
    exact hw.next
  · rw [htaken]
    exact hw.taken
  · rw [hcompleted, htaken, hdesc]
    exact hw.completed

/-! ## Buffers for the device -/

/-- A buffer for the device, at the position `u`. -/
theorem Window.post {b : RxBuffer} (hw : Window n r c u) (hroom : u + 1 < c + n)
    (hcount : r.count = n) (hb : b.skb.isSome) :
    Window n ((r.setBuffer (u % n) b).postDesc (u % n)) c (u + 1) := by
  have hle := hw.le
  obtain ⟨d, hd⟩ : ∃ d, d = ((r.setBuffer (u % n) b).postDesc (u % n)).desc := ⟨_, rfl⟩
  have hdesc : d = Function.update (Function.update r.desc (u % n)
      { r.desc (u % n) with pktAddr := b.dma }) ((u + 1) % n)
        { pktAddr := (r.desc ((u + 1) % n)).pktAddr, rscCnt := (r.desc ((u + 1) % n)).rscCnt } := by
    have hne : (u + 1) % n ≠ u % n := fun h => by
      have := slot_injective h (by omega) (by omega)
      omega
    rw [hd]
    simp [postDesc, modifyDesc, setBuffer, hcount, nextSlot_mod (show 0 < n by omega), hne]
  have hself : d (u % n) = { r.desc (u % n) with pktAddr := b.dma } := by
    rw [hdesc, update_slot_of_ne _ _ (by omega) (by omega) (by omega), Function.update_self]
  have hnext : (d ((u + 1) % n)).dd = false := by rw [hdesc, Function.update_self]
  have hold : ∀ p, c ≤ p → p < c + n → p ≠ u → p ≠ u + 1 → d (p % n) = r.desc (p % n) := by
    intro p hcp hpn h₁ h₂
    rw [hdesc, update_slot_of_ne _ _ h₂ (by omega) (by omega),
      update_slot_of_ne _ _ h₁ (by omega) (by omega)]
  have hstate : (r.setBuffer (u % n) b).postDesc (u % n) =
      { r with rxBuffer := Function.update r.rxBuffer (u % n) b, desc := d } := by
    rw [hd]
    rfl
  rw [hstate]
  refine ⟨by omega, hroom, fun p hcp hpu => ?_, fun p hup hpn => ?_, hnext, hw.taken,
    fun p hcp hpn => ?_⟩
  · dsimp only
    by_cases hp : p = u
    · rw [hp, Function.update_self, hself]
      exact ⟨hb, fun _ => rfl⟩
    · rw [update_slot_of_ne _ _ hp (by omega) (by omega), hold p hcp (by omega) hp (by omega)]
      exact hw.posted p hcp (by omega)
  · exact (update_slot_of_ne _ _ (by omega) (by omega) (by omega)).trans (hw.free p (by omega) hpn)
  · have hbefore := hw.completed p hcp hpn
    by_cases hp : p = u
    · subst hp
      simpa [hself, hw.next] using hbefore
    · by_cases hp' : p = u + 1
      · subst hp'
        simpa [hnext] using hbefore
      · have hlt : p < u + 1 ↔ p < u := by omega
        simpa [hold p hcp hpn hp hp', hlt] using hbefore

/-- What `ixgbe_alloc_rx_buffers` does not touch. -/
def SameOther (r r' : RxRing) : Prop :=
  r'.nextToClean = r.nextToClean ∧ r'.up = r.up ∧ r'.poll = r.poll

theorem allocFrom_keeps (alloc : Nat → RxAlloc) (hc : Custody n r none) (hw : Window n r c u)
    (hroom : k + u < c + n) {i : Nat} (hres : allocRxBuffersFrom alloc k (u % n) r = (i, r')) :
    Custody n r' none ∧ SameOther r r' ∧ r'.nextToUse = r.nextToUse ∧
      ∃ v, i = v % n ∧ v ≤ u + k ∧ Window n r' c v := by
  have hn : 0 < n := by have := hw.lt; have := hw.le; omega
  induction k generalizing r u with
  | zero =>
    cases hres
    exact ⟨hc, ⟨rfl, rfl, rfl⟩, rfl, u, rfl, le_rfl, hw⟩
  | succ k ih =>
    have hi := Nat.mod_lt u hn
    have hfree := hw.free u le_rfl hw.lt
    rw [allocRxBuffersFrom] at hres
    rcases hc.alloc hi hfree (alloc k) with ⟨f, m, l, heq, hcust⟩ | ⟨f, m, l, b, hb, heq, hcust⟩
    · rw [heq] at hres
      cases hres
      exact ⟨hcust, ⟨rfl, rfl, rfl⟩, rfl, u, rfl, by omega, hw.congr rfl rfl rfl rfl⟩
    · rw [heq] at hres
      have hnext : nextSlot r.count (u % n) = (u + 1) % n := by rw [hc.count, nextSlot_mod hn]
      dsimp only at hres
      rw [hnext] at hres
      have hw' : Window n { r with skb := f, skbs := m, maps := l } c u := hw.congr rfl rfl rfl rfl
      have hpost := hw'.post (by omega) hc.count hb
      obtain ⟨hcust', hsame, huse, v, hv, hle, hwin⟩ := ih hcust.other hpost (by omega) hres
      exact ⟨hcust', hsame, huse, v, hv, by omega, hwin⟩

/-- **`ixgbe_alloc_rx_buffers`** posts buffers behind `next_to_use`, while there is room. -/
theorem allocRxBuffers_keeps (alloc : Nat → RxAlloc) (hc : Custody n r none)
    (hat : At n r c u m) (hk : k ≤ m) :
    Custody n (r.ixgbeAllocRxBuffers alloc k) none ∧
      (r.ixgbeAllocRxBuffers alloc k).poll = r.poll ∧
      ∃ v, At n (r.ixgbeAllocRxBuffers alloc k) c v 0 := by
  have hle := hat.window.le
  have hroom := hat.room
  rw [ixgbeAllocRxBuffers]
  split_ifs with hzero
  · exact ⟨hc, rfl, u, hat.up, hat.window, hat.clean, hat.use, by omega⟩
  · obtain ⟨i, r', hres⟩ : ∃ i r', allocRxBuffersFrom alloc k (u % n) r = (i, r') := ⟨_, _, rfl⟩
    obtain ⟨hcust, ⟨hclean, hup, hpoll⟩, huse, v, hv, hvle, hwin⟩ :=
      allocFrom_keeps alloc hc hat.window (by omega) hres
    rw [hat.use, hres]
    dsimp only
    rw [huse, hat.use]
    split_ifs with hne
    · exact ⟨hcust.other, hpoll, v, hup.trans hat.up, hwin.congr rfl rfl rfl rfl,
        hclean.trans hat.clean, hv, by omega⟩
    · exact ⟨hcust, hpoll, v, hup.trans hat.up, hwin, hclean.trans hat.clean,
        by rw [huse, hat.use, ← hv, not_not.mp hne], by omega⟩

/-! ## One turn -/

theorem Window.filled (hw : Window n r c u) (hdd : (r.desc (c % n)).dd = true) : c < u := by
  refine lt_of_le_of_ne hw.le fun heq => ?_
  rw [heq, hw.next] at hdd
  cases hdd

/-- The buffer at `next_to_clean` is taken out. -/
theorem Window.take (hw : Window n r c u) (hdd : (r.desc (c % n)).dd = true)
    (hbuf : r'.rxBuffer = Function.update r.rxBuffer (c % n) {}) (hdesc : r'.desc = r.desc)
    (htaken : r'.taken = r.taken ++ [c % n]) (hcompleted : r'.completed = r.completed) :
    Window n r' (c + 1) u := by
  have hlt := hw.lt
  have hcu := hw.filled hdd
  refine ⟨hcu, by omega, fun p hcp hpu => ?_, fun p hup hpn => ?_, ?_, ?_, fun p hcp hpn => ?_⟩
  · rw [hbuf, hdesc, update_slot_of_ne _ _ (by omega) (by omega) (by omega)]
    exact hw.posted p (by omega) hpu
  · rw [hbuf]
    by_cases hp : p = c + n
    · rw [hp, Nat.add_mod_right, Function.update_self]
    · rw [update_slot_of_ne _ _ (by omega) (by omega) (by omega)]
      exact hw.free p hup (by omega)
  · rw [hdesc]
    exact hw.next
  · rw [htaken, hw.taken, List.range_succ, List.map_append, List.map_singleton]
  · rw [hcompleted, htaken, hdesc, List.count_append]
    by_cases hp : p = c + n
    · subst hp
      have hbefore := hw.completed c le_rfl (by omega)
      rw [Nat.add_mod_right, hbefore, if_pos ⟨hcu, hdd⟩, if_neg (by omega)]
      simp
    · have hne : c % n ≠ p % n := fun h => by
        have := slot_injective h (by omega) (by omega)
        omega
      rw [hw.completed p (by omega) (by omega)]
      simp [hne]

/-- **`ixgbe_is_non_eop`** links the next buffer behind the frame in hand. -/
theorem isNonEop_keeps (hc : Custody n r (some h)) (hi : i < n) (hb : r.rxBuffer i = {})
    (hgoes : (r.desc i).eop = false → r.goesOnAt i < n ∧
      ∃ s, (r.rxBuffer (r.goesOnAt i)).skb = some s ∧ (r.skb s).partner = none) :
    ∃ b f, r.ixgbeIsNonEop i h =
        .ok (b, { r with nextToClean := nextSlot r.count i, skb := f }) ∧
      Custody n { r with nextToClean := nextSlot r.count i, skb := f }
        (if b then none else some h) := by
  obtain ⟨f, heq, hcust, hold⟩ : ∃ f, (if r.rscEnabled ∧ (r.desc i).rscCnt ≠ 0 then
      { r with nextToClean := nextSlot r.count i }.modify h fun c => { c with
        appendCnt := c.appendCnt + ((r.desc i).rscCnt - 1) }
      else { r with nextToClean := nextSlot r.count i }) =
        { r with nextToClean := nextSlot r.count i, skb := f } ∧
      Custody n { r with nextToClean := nextSlot r.count i, skb := f } (some h) ∧
      ∀ x ≠ h, f x = r.skb x := by
    split_ifs
    · have happend := hc.append hi hb fun c => c.appendCnt + ((r.desc i).rscCnt - 1)
      exact ⟨_, rfl, happend.other, fun x hx => Function.update_of_ne hx ..⟩
    · exact ⟨r.skb, rfl, hc.other, fun _ _ => rfl⟩
  rw [ixgbeIsNonEop]
  dsimp only
  rw [heq]
  cases heop : (r.desc i).eop with
  | true => exact ⟨false, f, rfl, hcust⟩
  | false =>
    obtain ⟨hj, s, hs, hp⟩ := hgoes heop
    have hne : s ≠ h := fun hsh => by
      have hmem : s ∈ r.frameAt (r.goesOnAt i) := by
        rw [(hc.alone hj hs hp).2]
        exact Multiset.mem_singleton_self s
      exact hc.not_mem_hand hj hmem (hsh ▸ List.mem_cons_self)
    obtain ⟨g, hg, hcust'⟩ :=
      hcust.chain hj hs ((congrArg RingSkb.partner (hold s hne)).trans hp)
    have hlt : ¬r.count ≤ r.goesOnAt i := by rw [hc.count]; exact not_le.mpr hj
    rw [if_neg (by simp), if_neg hlt, hs]
    exact ⟨true, g, congrArg (fun t => Except.ok (true, t)) hg, hcust'⟩

section Turn

variable {p : RxPoll} (hc : Custody n r none) (hat : At n r c u p.cleanedCount)

include hc hat

theorem refill_keeps (alloc : Nat → RxAlloc) : ∃ v, Custody n (r.refill p alloc).1 none ∧
    At n (r.refill p alloc).1 c v (r.refill p alloc).2.cleanedCount := by
  rw [refill]
  split_ifs
  · obtain ⟨hcust, -, v, hv⟩ := allocRxBuffers_keeps alloc hc hat le_rfl
    exact ⟨v, hcust, hv⟩
  · exact ⟨u, hc, hat⟩

theorem endPoll_ready (last : Nat → RxAlloc) : Ready n (r.endPoll p last) := by
  obtain ⟨hcust, -, v, hv⟩ := allocRxBuffers_keeps last hc hat le_rfl
  exact ⟨hcust.other,
    .inr ⟨c, v, hv.up, hv.window.congr rfl rfl rfl rfl, hv.clean, hv.use, hv.room⟩⟩

/-- A slot that the device has filled, at `next_to_clean`. -/
theorem receive_ready (hn : 0 < n) (hdd : (r.desc (c % n)).dd = true) (hgoes : r.GoesOn (c % n))
    (fate : RxFate) : ∃ s q, (r.rxBuffer (c % n)).skb = some s ∧
      r.receive (c % n) s fate p = .ok q ∧ Custody n q.1 none ∧
      At n q.1 (c + 1) u q.2.cleanedCount := by
  have hi := Nat.mod_lt c hn
  have hroom := hat.room
  have hwin : Window n { r with
      rxBuffer := Function.update r.rxBuffer (c % n) {}, taken := r.taken ++ [c % n] } (c + 1) u :=
    hat.window.take hdd rfl rfl rfl rfl
  have hcu := hat.window.filled hdd
  obtain ⟨s, hs⟩ := Option.isSome_iff_exists.mp (hat.window.posted c le_rfl hcu).1
  obtain ⟨t, f, U, htake, hcust, hold⟩ := hc.take hi hs
  have hb : (r.emptied (c % n) f U).rxBuffer (c % n) = {} := Function.update_self ..
  have hgoes' : ((r.emptied (c % n) f U).desc (c % n)).eop = false →
      (r.emptied (c % n) f U).goesOnAt (c % n) < n ∧ ∃ s,
        ((r.emptied (c % n) f U).rxBuffer ((r.emptied (c % n) f U).goesOnAt (c % n))).skb = some s ∧
        ((r.emptied (c % n) f U).skb s).partner = none := by
    intro heop
    obtain ⟨hj, hne, x, hx, hp⟩ := hgoes hdd heop
    rw [hc.count] at hj
    obtain ⟨-, hF⟩ := hc.alone hj hx hp
    have hmem : x ∈ r.frameAt (r.goesOnAt (c % n)) := hF ▸ Multiset.mem_singleton_self x
    refine ⟨hj, x, ?_, ?_⟩
    · exact (congrArg RxBuffer.skb (Function.update_of_ne hne ..)).trans hx
    · exact (congrArg RingSkb.partner (hold x (hc.not_mem hj hi hne.symm hmem))).trans hp
  obtain ⟨b, g, hnext, hcust'⟩ := isNonEop_keeps hcust hi hb hgoes'
  have hslot : nextSlot r.count (c % n) = (c + 1) % n := by rw [hc.count, nextSlot_mod hn]
  have hres : r.receive (c % n) s fate p = .ok (if b then
      ({ r.emptied (c % n) f U with nextToClean := nextSlot r.count (c % n), skb := g },
        { p with cleanedCount := p.cleanedCount + 1 })
      else { r.emptied (c % n) f U with
        nextToClean := nextSlot r.count (c % n), skb := g }.endFrame t
          (r.desc (c % n)).frameErr fate { p with cleanedCount := p.cleanedCount + 1 }) := by
    rw [RxRing.receive, htake]
    dsimp only
    rw [hnext]
    rfl
  have hroom' : p.cleanedCount + 1 + (u - (c + 1)) < n := by omega
  refine ⟨s, _, hs, hres, ?_⟩
  cases b with
  | true => exact ⟨hcust', hat.up, hwin.congr rfl rfl rfl rfl, hslot, hat.use, hroom'⟩
  | false =>
    obtain ⟨d, G, D, V, q, hend, hcust'', hq⟩ := hcust'.endFrame hi hb
      (r.desc (c % n)).frameErr fate { p with cleanedCount := p.cleanedCount + 1 }
    rw [if_neg (by simp), hend]
    exact ⟨hcust'', hat.up, hwin.congr rfl rfl rfl rfl, hslot, hat.use, by rw [hq]; exact hroom'⟩

theorem turn_ready (hn : 0 < n) (alloc last : Nat → RxAlloc) (fate : RxFate)
    (hgoes : (r.refill p alloc).1.GoesOn (r.refill p alloc).1.nextToClean) :
    ∃ r', r.turn p alloc last fate = .ok r' ∧ Ready n r' := by
  obtain ⟨v, hc', hat'⟩ := refill_keeps hc hat alloc
  rw [hat'.clean] at hgoes
  rw [turn]
  dsimp only
  rw [hat'.clean]
  cases hdd : ((r.refill p alloc).1.desc (c % n)).dd with
  | false => exact ⟨_, rfl, endPoll_ready hc' hat' last⟩
  | true =>
    obtain ⟨s, q, hs, hres, hcust, hnext⟩ := receive_ready hc' hat' hn hdd hgoes fate
    rw [hs]
    dsimp only
    rw [hres]
    refine ⟨_, rfl, ?_⟩
    dsimp only
    split_ifs
    · exact ⟨hcust.other, .inr ⟨c + 1, v, hnext.up, hnext.window.congr rfl rfl rfl rfl, hnext.clean,
        hnext.use, hnext.room⟩⟩
    · exact endPoll_ready hcust hnext last

end Turn

/-! ## Runs -/

theorem init_ready (rsc : Bool) : Ready n { count := n, rscEnabled := rsc } :=
  ⟨⟨rfl, fun _ _ => slotOk_empty rfl, nofun, by simp [gone, handSkbs, frameAt], by
    simp [handMaps, mapsAt], nofun⟩, .inl ⟨rfl, rfl, fun _ _ => rfl, fun _ => rfl, rfl, rfl⟩⟩

theorem descUnused_eq (hc : Custody n r none) (hat : At n r c u m) :
    r.ixgbeDescUnused = n - 1 - (u - c) := by
  rw [ixgbeDescUnused, hat.clean, hat.use, hc.count, unused_slots hat.window.le hat.window.lt]

theorem configure_ready (alloc : Nat → RxAlloc) (hn : 0 < n) (hc : Custody n r none)
    (hdown : Down n r) : Ready n (r.ixgbeConfigureRxRing alloc) := by
  have hat : At n { r with nextToClean := 0, nextToUse := 0, up := true } 0 0 (n - 1) := by
    refine ⟨rfl, ⟨le_rfl, by omega, fun p _ hp => absurd hp (Nat.not_lt_zero p),
      fun p _ hp => ?_, ?_, hdown.logs.2, fun p _ _ => ?_⟩, (Nat.zero_mod n).symm, (Nat.zero_mod n).symm, by omega⟩
    · exact hdown.buffers _ (Nat.mod_lt p hn)
    · exact congrArg RxDesc.dd (hdown.desc _)
    · dsimp only
      rw [hdown.logs.1, hdown.logs.2]
      simp
  obtain ⟨hcust, hpoll, v, hv⟩ := allocRxBuffers_keeps alloc hc.other hat
    (k := n - 1 - (0 - 0)) le_rfl
  rw [ixgbeConfigureRxRing, descUnused_eq hc.other hat]
  refine ⟨hcust, .inr ⟨0, v, ?_⟩⟩
  rw [hpoll.trans hdown.poll]
  exact hv

theorem clean_ready (hc : Custody n r none) (hpoll : r.poll = none) :
    Ready n r.ixgbeCleanRxRing := by
  obtain ⟨hcust, hempty, hpoll'⟩ := hc.cleanRxRing
  exact ⟨hcust, .inl ⟨rfl, hpoll'.trans hpoll, hempty, fun _ => rfl, rfl, rfl⟩⟩

theorem At.owned_iff (hc : Custody n r none) (hat : At n r c u m) {p : Nat} (hcp : c ≤ p)
    (hpn : p < c + n) : r.Owned (p % n) ↔ p < u := by
  rw [Owned, hc.count, hat.clean, hat.use, slot_distance hcp hpn,
    slot_distance hat.window.le hat.window.lt]
  have := hat.window.le
  omega

/-- The device fills a slot. -/
theorem writeBack_ready {i : Nat} (d : RxDesc) (hc : Custody n r none) (hat : At n r c u m)
    (hi : i < n) (howned : r.Owned i) (hdd : (r.desc i).dd = false) :
    At n { r.modifyDesc i fun _ => { d with dd := true, pktAddr := none } with
      completed := r.completed ++ [i] } c u m := by
  obtain ⟨p, hcp, hpn, rfl⟩ := exists_position hi c
  have hpu := (hat.owned_iff hc hcp hpn).mp howned
  have hlt := hat.window.lt
  have hold : ∀ q ≠ p, c ≤ q → q < c + n → Function.update r.desc (p % n)
      { d with dd := true, pktAddr := none } (q % n) = r.desc (q % n) := fun q hne hcq hqn =>
    update_slot_of_ne _ _ hne (by omega) (by omega)
  refine ⟨hat.up, ⟨hat.window.le, hlt, fun q hcq hqu => ?_, hat.window.free, ?_, hat.window.taken,
    fun q hcq hqn => ?_⟩, hat.clean, hat.use, hat.room⟩
  · have hposted := hat.window.posted q hcq hqu
    by_cases hq : q = p
    · subst hq
      exact ⟨hposted.1, by simp [modifyDesc]⟩
    · simp only [modifyDesc]
      rw [hold q hq hcq (by omega)]
      exact hposted
  · simp only [modifyDesc]
    rw [hold u (by omega) hat.window.le hlt]
    exact hat.window.next
  · have hbefore := hat.window.completed q hcq hqn
    simp only [modifyDesc, List.count_append]
    by_cases hq : q = p
    · subst hq
      rw [hdd] at hbefore
      simpa [hpu] using hbefore
    · have hne : p % n ≠ q % n := fun h => hq (slot_injective h (by omega) (by omega)).symm
      simp only [hold q hq hcq hqn, hbefore]
      simp [hne]

end RxRing

/-- A step of a ring whose device links the buffers of a frame as it should. -/
theorem RxStep.ready {n : Nat} (hn : 0 < n) {s t : Except RxFault RxRing} {e : RxEvent}
    (hs : ∃ r, s = .ok r ∧ r.Ready n) (h : Guarded RxStep DeviceLinks s e t) :
    ∃ r, t = .ok r ∧ r.Ready n := by
  obtain ⟨r, rfl, hc, hr⟩ := hs
  obtain ⟨hlinks, hstep⟩ := h
  change r.exec e = some t at hstep
  cases e with
  | configure alloc =>
    rw [RxRing.exec] at hstep
    split_ifs at hstep with hup
    obtain rfl := Option.some.inj hstep
    rcases hr with hdown | ⟨c, u, hat⟩
    · exact ⟨_, rfl, RxRing.configure_ready alloc hn hc hdown⟩
    · exact absurd hat.up hup
  | writeBack i d =>
    rw [RxRing.exec] at hstep
    split_ifs at hstep with hready
    obtain ⟨hup, hi, howned, hdd⟩ := hready
    obtain rfl := Option.some.inj hstep
    rcases hr with hdown | ⟨c, u, hat⟩
    · rw [hdown.up] at hup
      cases hup
    · exact ⟨_, rfl, hc.other, .inr ⟨c, u,
        RxRing.writeBack_ready d hc hat (hc.count ▸ hi) howned hdd⟩⟩
  | poll budget =>
    rw [RxRing.exec] at hstep
    split_ifs at hstep with hready
    obtain rfl := Option.some.inj hstep
    rcases hr with hdown | ⟨c, u, hat⟩
    · rw [hdown.up] at hready
      cases hready.1
    · refine ⟨_, rfl, hc.other, .inr ⟨c, u, hat.up, hat.window.congr rfl rfl rfl rfl, hat.clean,
        hat.use, ?_⟩⟩
      have hle := hat.window.le
      have hlt := hat.window.lt
      rw [RxRing.descUnused_eq hc hat]
      dsimp only [Option.map_some, Option.getD_some]
      omega
  | turn alloc last fate =>
    obtain ⟨p, hp, hres⟩ := Option.map_eq_some_iff.mp hstep
    rcases hr with hdown | ⟨c, u, hat⟩
    · rw [hdown.poll] at hp
      cases hp
    · rw [hp] at hat
      obtain ⟨r', hr', hready⟩ := RxRing.turn_ready hc hat hn alloc last fate (hlinks p hp)
      exact ⟨r', hres.symm.trans hr', hready⟩
  | clean =>
    rw [RxRing.exec] at hstep
    split_ifs at hstep with hready
    obtain rfl := Option.some.inj hstep
    exact ⟨_, rfl, RxRing.clean_ready hc hready.2⟩

variable {n : Nat} {rsc : Bool} {es : List RxEvent} {s : Except RxFault RxRing}

theorem RxRun.ready (hn : 0 < n) (h : RxRun n rsc es s) : ∃ r, s = .ok r ∧ r.Ready n :=
  h.invariant (fun _ _ _ hs hstep => RxStep.ready hn hs hstep) ⟨_, rfl, RxRing.init_ready rsc⟩

def rxLinkedNext? (s : Except RxFault RxRing) (e : RxEvent) : Option (Except RxFault RxRing) :=
  if DeviceLinks s e then rxNext? s e else none

theorem rxRun_of_exec (h : Run.exec rxLinkedNext? (.ok { count := n, rscEnabled := rsc }) es =
    some s) : RxRun n rsc es s :=
  Run.of_exec (fun s e t => (guarded_eq_some_iff (T := RxStep) (fun _ _ _ => Iff.rfl) s e t).mp) h

/-- Three slots are filled; the frame of the slot 0 goes on in the slot 2. -/
def rscRun : List RxEvent :=
  [.configure fun _ => .granted, .writeBack 0 { length := 100, rscCnt := 1, nextp := 2 },
    .writeBack 2 { length := 40, eop := true, rscCnt := 2 },
    .writeBack 1 { length := 60, eop := true }, .poll 64] ++
    List.replicate 4 (.turn (fun _ => .granted) (fun _ => .granted) .stack)

/-- **No buffer is lost or held twice.** In every run, each skb has been freed or handed on, or is
    with one slot, each mapping has been unmapped, or is with one slot, and when the ring is cleaned
    none is left. -/
theorem receive_conserved (hn : 0 < n) (h : RxRun n rsc es s) :
    ∃ r : RxRing, s = .ok r ∧
    r.gone + ∑ i ∈ Finset.range n, r.frameAt i = Multiset.range r.skbs ∧
    r.unmapped + ∑ i ∈ Finset.range n, r.mapsAt i = (Multiset.range r.maps).map some ∧
    (r.up = false → r.gone = Multiset.range r.skbs ∧
      r.unmapped = (Multiset.range r.maps).map some) := by
  obtain ⟨r, rfl, hc, hr⟩ := h.ready hn
  have hskbs : r.gone + ∑ i ∈ Finset.range n, r.frameAt i = Multiset.range r.skbs := by
    have hskbs := hc.skbs
    rw [show r.handSkbs none = 0 from rfl, add_zero] at hskbs
    exact hskbs
  have hmaps : r.unmapped + ∑ i ∈ Finset.range n, r.mapsAt i =
      (Multiset.range r.maps).map some := by
    have hmaps := hc.maps
    rw [show r.handMaps none = 0 from rfl, add_zero] at hmaps
    exact hmaps
  refine ⟨r, rfl, hskbs, hmaps, fun hup => ?_⟩
  rcases hr with hdown | ⟨c, u, hat⟩
  · have hempty : ∀ i ∈ Finset.range n, (r.rxBuffer i).skb = none := fun i hi => by
      rw [hdown.buffers i (Finset.mem_range.mp hi)]
    rw [Finset.sum_eq_zero fun i hi => RxRing.frameAt_none (hempty i hi), add_zero] at hskbs
    rw [Finset.sum_eq_zero fun i hi => RxRing.mapsAt_none (hempty i hi), add_zero] at hmaps
    exact ⟨hskbs, hmaps⟩
  · rw [hat.up] at hup
    cases hup

theorem receive_conserved_rscRun : ∃ r, RxRun 4 true (rscRun ++ [.clean]) (.ok r) ∧
    r.skbs = 6 ∧ r.gone = Multiset.range r.skbs := by
  have hexec : ∃ r, Run.exec rxLinkedNext? (.ok { count := 4, rscEnabled := true })
      (rscRun ++ [.clean]) = some (.ok r) ∧ r.skbs = 6 ∧ r.up = false := ⟨_, rfl, rfl, rfl⟩
  obtain ⟨r, hr, hskbs, hup⟩ := hexec
  have hrun := rxRun_of_exec hr
  obtain ⟨r', hr', -, -, hgone⟩ := receive_conserved (by decide) hrun
  cases hr'
  exact ⟨r, hrun, hskbs, (hgone hup).1⟩

/-- **Each write-back is taken once, in ring order**, whatever the order in which the device fills
    the slots. -/
theorem receive_in_turn (hn : 0 < n) (h : RxRun n rsc es s) :
    ∃ r : RxRing, s = .ok r ∧
    r.taken = (List.range r.taken.length).map (· % n) ∧
    ∀ i < n, r.completed.count i =
      r.taken.count i + if r.Owned i ∧ (r.desc i).dd then 1 else 0 := by
  obtain ⟨r, rfl, hc, hr⟩ := h.ready hn
  refine ⟨r, rfl, ?_⟩
  rcases hr with hdown | ⟨c, u, hat⟩
  · rw [hdown.logs.1, hdown.logs.2]
    refine ⟨rfl, fun i _ => ?_⟩
    simp [hdown.desc i]
  · refine ⟨?_, fun i hi => ?_⟩
    · rw [hat.window.taken, List.length_map, List.length_range]
    · obtain ⟨p, hcp, hpn, rfl⟩ := exists_position hi c
      rw [hat.window.completed p hcp hpn]
      simp only [hat.owned_iff hc hcp hpn]

theorem receive_in_turn_rscRun : ∃ r, RxRun 4 true rscRun (.ok r) ∧
    r.completed = [0, 2, 1] ∧ r.taken = (List.range r.taken.length).map (· % 4) := by
  have hexec : ∃ r, Run.exec rxLinkedNext? (.ok { count := 4, rscEnabled := true }) rscRun =
      some (.ok r) ∧ r.completed = [0, 2, 1] := ⟨_, rfl, rfl⟩
  obtain ⟨r, hr, hcompleted⟩ := hexec
  have hrun := rxRun_of_exec hr
  obtain ⟨r', hr', htaken, -⟩ := receive_in_turn (by decide) hrun
  cases hr'
  exact ⟨r, hrun, hcompleted, htaken⟩

/-- **The device has memory to write to.** A slot that it owns and has not filled names a mapping
    that is not unmapped and with no other slot. -/
theorem receive_mapped (hn : 0 < n) (h : RxRun n rsc es s) :
    ∃ r : RxRing, s = .ok r ∧ (r.up = true → ∀ i < n, r.Owned i →
    (r.desc i).dd = false → ∃ a, (r.desc i).pktAddr = some a ∧ (r.rxBuffer i).dma = some a ∧
      some a ∉ r.unmapped ∧ ∀ j < n, j ≠ i → some a ∉ r.mapsAt j) := by
  obtain ⟨r, rfl, hc, hr⟩ := h.ready hn
  refine ⟨r, rfl, fun hup i hi howned hdd => ?_⟩
  rcases hr with hdown | ⟨c, u, hat⟩
  · rw [hdown.up] at hup
    cases hup
  · obtain ⟨p, hcp, hpn, rfl⟩ := exists_position hi c
    obtain ⟨hskb, haddr⟩ := hat.window.posted p hcp ((hat.owned_iff hc hcp hpn).mp howned)
    obtain ⟨x, hx⟩ := Option.isSome_iff_exists.mp hskb
    have hheld := (RxRing.slotOk_some hx).mp (hc.slots _ hi)
    obtain ⟨a, ha⟩ := Option.isSome_iff_exists.mp hheld.mapped
    have hnodup : (r.unmapped + r.handMaps none + ∑ i ∈ Finset.range n, r.mapsAt i).Nodup := by
      rw [hc.maps]
      exact (Multiset.nodup_range _).map (Option.some_injective _)
    have hmem : some a ∈ r.mapsAt (p % n) := by
      rw [RxRing.mapsAt_some hx, ha]
      exact List.mem_cons_self
    obtain ⟨-, hsum, hdisjoint⟩ := Multiset.nodup_add.mp hnodup
    refine ⟨a, (haddr hdd).trans ha, ha, fun hgone => ?_, fun j hj hne =>
      not_mem_of_nodup hsum (Finset.mem_range.mpr hi) (Finset.mem_range.mpr hj) hne hmem⟩
    exact Multiset.disjoint_left.mp hdisjoint
      (Multiset.mem_add.mpr (.inl (Multiset.mem_coe.mpr hgone)))
      (Multiset.mem_sum.mpr ⟨_, Finset.mem_range.mpr hi, hmem⟩)

theorem receive_mapped_configured : ∃ r, RxRun 4 true [.configure fun _ => .granted] (.ok r) ∧
    r.Owned 2 ∧ ∃ a, (r.desc 2).pktAddr = some a ∧ some a ∉ r.unmapped := by
  have hexec : ∃ r, Run.exec rxLinkedNext? (.ok { count := 4, rscEnabled := true })
      [.configure fun _ => .granted] = some (.ok r) ∧ r.up = true ∧
      decide (r.Owned 2) = true ∧ (r.desc 2).dd = false := ⟨_, rfl, rfl, rfl, rfl⟩
  obtain ⟨r, hr, hup, howned, hdd⟩ := hexec
  have hrun := rxRun_of_exec hr
  have howned' := of_decide_eq_true howned
  obtain ⟨r', hr', hmapped⟩ := receive_mapped (by decide) hrun
  cases hr'
  obtain ⟨a, haddr, -, hgone, -⟩ := hmapped hup 2 (by decide) howned' hdd
  exact ⟨r, hrun, howned', a, haddr, hgone⟩

end VmkDrivers.Wfs
