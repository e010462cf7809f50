/-
  VmkDrivers.Wfs.Flood

  A data frame in a ring.

  The two copies of a frame go round in opposite ways.  Two numbers tell where
  a copy is and what it has led to, whatever the order of the receptions: how
  many links it has crossed and how often it was received (`Net.Flooded`).
  Nothing but its source and dead links stops a frame for all stations, and
  nothing recognises its second copy.
-/

import VmkDrivers.Wfs.DataFrames
import VmkDrivers.Wfs.RapsStorm

namespace VmkDrivers.Wfs

open VmkDrivers.Lib

/-! ## The log -/

section Log

variable {V : Type} (p : Prop)

/-- The links crossed in direction `d`, the latest first. -/
def crossedLinks (log : List (NetEvent V)) (d : Dir) : List V :=
  log.filterMap fun
    | .crossed _ _ d' l => if d' = d then some l else none
    | _ => none

def passedBy (log : List (NetEvent V)) : List V :=
  log.filterMap fun
    | .passed _ v => some v
    | _ => none

@[simp] theorem crossedLinks_append (l m : List (NetEvent V)) (d : Dir) :
    crossedLinks (l ++ m) d = crossedLinks l d ++ crossedLinks m d :=
  List.filterMap_append

@[simp] theorem passedBy_append (l m : List (NetEvent V)) :
    passedBy (l ++ m) = passedBy l ++ passedBy m :=
  List.filterMap_append

theorem crossedLinks_passed [Decidable p] (v : V) (d : Dir) :
    crossedLinks (if p then [.passed 0 v] else []) d = [] := by
  split <;> rfl

theorem crossedLinks_crossed [Decidable p] (l : V) (d e : Dir) :
    crossedLinks (if p then [.crossed 0 1 e l] else []) d = if p ∧ e = d then [l] else [] := by
  by_cases hp : p <;> by_cases he : e = d <;> simp [crossedLinks, hp, he]

theorem passedBy_passed [Decidable p] (v : V) :
    passedBy (if p then [.passed 0 v] else []) = if p then [v] else [] := by
  split <;> rfl

theorem passedBy_crossed [Decidable p] (l : V) (e : Dir) :
    passedBy (if p then [.crossed 0 1 e l] else []) = [] := by
  split <;> rfl

theorem crossedLinks_map (l : List (Flight V)) (link : Dir → V) (d : Dir) :
    crossedLinks (l.map fun f => .crossed 0 f.gen f.dir (link f.dir)) d =
      (l.filter fun f => f.dir = d).map fun _ => link d := by
  induction l with
  | nil => rfl
  | cons f l ih =>
    by_cases hdir : f.dir = d
    · simpa [crossedLinks, hdir] using ih
    · simpa [crossedLinks, hdir] using ih

theorem passedBy_map (l : List (Flight V)) (link : Dir → V) :
    passedBy (l.map fun f => .crossed 0 f.gen f.dir (link f.dir)) = [] := by
  induction l with
  | nil => rfl
  | cons f l ih =>
    rw [List.map_cons]
    exact ih

end Log

section Ring

variable {V π : Type} [Fintype V] (T : Topology V)

/-! ## Connected stations -/

/-- A live link leads from `v` to `w`. -/
def Topology.Neighbours (v w : V) : Prop := ∃ d, T.deadOn v d = false ∧ T.ring.step d v = w

/-- Live links lead from `s` to `t`. -/
def Topology.Connected : V → V → Prop := Relation.ReflTransGen T.Neighbours

variable [DecidableEq V]

theorem Topology.Connected.exists_way {T : Topology V} {s t : V} (h : T.Connected s t) :
    ∃ d, ∀ k < T.ring.dist d s t, T.deadOn (T.ring.place d s k) d = false := by
  induction h with
  | refl =>
    refine ⟨.cw, fun k hk => ?_⟩
    rw [T.ring.dist_eq_zero.mpr rfl] at hk
    exact absurd hk (Nat.not_lt_zero k)
  | @tail v w _ hnext ih =>
    obtain ⟨d, hway⟩ := ih
    obtain ⟨e, hlive, rfl⟩ := hnext
    by_cases hback : e = d.other ∧ s ≠ v
    · -- a step back
      obtain ⟨rfl, hne⟩ := hback
      refine ⟨d, fun k hk => hway k ?_⟩
      exact hk.trans (T.ring.dist_step_other_lt d hne)
    · refine ⟨e, fun k hk => ?_⟩
      have hle := T.ring.dist_step_le e s v
      by_cases hv : k = T.ring.dist e s v
      · rwa [hv, T.ring.place_dist]
      · obtain rfl : e = d := by
          refine (Dir.eq_or_eq_other d e).resolve_right fun hother => hback ⟨hother, ?_⟩
          rintro rfl
          have hzero : T.ring.dist e s s = 0 := T.ring.dist_eq_zero.mpr rfl
          omega
        exact hway k (by omega)

/-! ## The copies of a frame -/

/-- The copy that goes `d` and was received `r d` times was received by `t`. -/
def Topology.heard (s : V) (r : Dir → Nat) (t : V) (d : Dir) : Nat :=
  if 0 < T.ring.dist d s t ∧ T.ring.dist d s t ≤ r d then 1 else 0

/-- The copies of a frame of `s`, and what they have led to: the one that goes `d` has crossed
    `c d` links and was received `r d` times. -/
structure Net.Flooded (s : V) (skb : Skb) (c r : Dir → Nat) (net : Net V π) : Prop where
  settled : ∀ v, T.Settled v (net.station v).iwa
  bounds : ∀ d, r d ≤ c d ∧ c d ≤ r d + 1 ∧ c d ≤ Fintype.card V
  live : ∀ d, ∀ k < c d, T.deadOn (T.ring.place d s k) d = false
  flight : ∀ d, (net.flight.filter fun f => f.dir = d) =
    if r d < c d then [T.copyAt s skb d (c d)] else []
  crossed : ∀ d, crossedLinks net.log d =
    ((List.range (c d)).map fun k => T.ring.link d (T.ring.place d s k)).reverse
  passed : ∀ t, (passedBy net.log).count t =
    if skb.isFor (T.id t) then Dir.both (T.heard s r t) else 0

variable {T} {rb : Balancer Nat} {net net' : Net V π} {s : V} {skb : Skb} {c r : Dir → Nat}

omit [DecidableEq V] in
theorem filter_copyAt (p : Prop) [Decidable p] (d e : Dir) (k : Nat) :
    ((if p then [T.copyAt s skb e k] else []).filter fun f => f.dir = d) =
      if p ∧ e = d then [T.copyAt s skb e k] else [] := by
  by_cases hp : p <;> by_cases he : e = d <;> simp [Topology.copyAt, hp, he]

theorem Net.Flooded.received (h : net.Flooded T s skb c r) {i : Nat} {f : Flight V}
    (hget : net.flight[i]? = some f) :
    r f.dir < c f.dir ∧ f = T.copyAt s skb f.dir (c f.dir) ∧ ∀ d,
      ((net.flight.eraseIdx i).filter fun g => g.dir = d) =
        if d ≠ f.dir ∧ r d < c d then [T.copyAt s skb d (c d)] else [] := by
  obtain ⟨hi, hf⟩ := List.getElem?_eq_some_iff.mp hget
  have hperm := List.getElem_cons_eraseIdx_perm hi
  rw [hf] at hperm
  have hway : ∀ d, ((f :: net.flight.eraseIdx i).filter fun g => g.dir = d).Perm
      (if r d < c d then [T.copyAt s skb d (c d)] else []) := by
    intro d
    rw [← h.flight d]
    exact hperm.filter _
  have hself := hway f.dir
  rw [List.filter_cons_of_pos (by simp)] at hself
  by_cases hcopy : r f.dir < c f.dir
  · rw [if_pos hcopy] at hself
    obtain ⟨hf', hrest⟩ := List.cons.inj (List.perm_singleton.mp hself)
    refine ⟨hcopy, hf', fun d => ?_⟩
    by_cases hd : d = f.dir
    · rw [hd, hrest, if_neg fun hne => hne.1 rfl]
    · have hother := hway d
      rw [List.filter_cons_of_neg (by simpa using Ne.symm hd)] at hother
      split at hother
      · next hflight => rw [if_pos ⟨hd, hflight⟩, List.perm_singleton.mp hother]
      · next hnone => rw [if_neg fun hboth => hnone hboth.2, hother.eq_nil]
  · rw [if_neg hcopy] at hself
    exact absurd hself.eq_nil (List.cons_ne_nil _ _)

theorem heard_update (d : Dir) (t : V) :
    Dir.both (T.heard s (Function.update r d (r d + 1)) t) =
      Dir.both (T.heard s r t) +
        if r d + 1 < Fintype.card V ∧ T.ring.place d s (r d + 1) = t then 1 else 0 := by
  have hother : T.heard s (Function.update r d (r d + 1)) t d.other = T.heard s r t d.other := by
    unfold Topology.heard
    rw [Function.update_of_ne (Dir.other_ne d)]
  have hlt := T.ring.dist_lt d s t
  have hhere : (r d + 1 < Fintype.card V ∧ T.ring.place d s (r d + 1) = t) ↔
      T.ring.dist d s t = r d + 1 := by
    constructor
    · rintro ⟨hround, hplace⟩
      exact T.ring.dist_eq hround hplace
    · intro hdist
      rw [← hdist]
      exact ⟨hlt, T.ring.place_dist d s t⟩
  rw [Dir.both_eq _ d, Dir.both_eq (T.heard s r t) d, hother, if_congr hhere rfl rfl]
  unfold Topology.heard
  rw [Function.update_self]
  split_ifs <;> omega

/-- The copies that are not in flight are back at their source or before a dead link. -/
def Topology.Stopped (T : Topology V) (s : V) (c r : Dir → Nat) : Prop :=
  ∀ d, r d = c d → c d = Fintype.card V ∨ T.deadOn (T.ring.place d s (c d)) d = true

/-- The forwarded frame can be copied and sent. -/
def RxInputs.Unhindered (inp : RxInputs) : Prop := inp.copy = true ∧ inp.ringFwd = true

omit [DecidableEq V] in
theorem Topology.Stopped.step (h : T.Stopped s c r) (hall : skb.dest = wfsidAll) {inp : RxInputs}
    (hinp : inp.Unhindered) {d : Dir} (hflying : r d < c d) (hround : c d ≤ Fintype.card V) :
    T.Stopped s
      (Function.update c d (c d +
        if c d < Fintype.card V ∧ T.Onward inp d (T.ring.place d s (c d)) skb then 1 else 0))
      (Function.update r d (r d + 1)) := by
  intro e hstop
  by_cases he : e = d
  · subst he
    rw [Function.update_self, Function.update_self] at hstop
    rw [Function.update_self]
    by_cases hgo : c e < Fintype.card V ∧ T.Onward inp e (T.ring.place e s (c e)) skb
    · rw [if_pos hgo] at hstop
      omega
    · rw [if_neg hgo, Nat.add_zero]
      by_cases hlast : c e < Fintype.card V
      · refine .inr (Bool.eq_true_of_not_eq_false fun hlive => hgo ⟨hlast, ?_, hlive, hinp⟩)
        rw [hall]
        exact (WfsId.byte_ne_all _).symm
      · exact .inl (by omega)
  · rw [Function.update_of_ne he, Function.update_of_ne he] at hstop
    rw [Function.update_of_ne he]
    exact h e hstop

theorem heard_source (d : Dir) : T.heard s r s d = 0 := by
  refine if_neg fun h => ?_
  rw [T.ring.dist_eq_zero.mpr rfl] at h
  exact absurd h.1 (Nat.lt_irrefl 0)

theorem heard_le_one (t : V) (d : Dir) : T.heard s r t d ≤ 1 := by
  unfold Topology.heard
  split <;> omega

namespace Net.Flooded

variable (h : net.Flooded T s skb c r) {t : V}
include h

theorem not_mem_source : s ∉ passedBy net.log := by
  rw [← List.count_eq_zero, h.passed, Dir.both, heard_source, heard_source, ite_self]

theorem isFor_of_mem (ht : t ∈ passedBy net.log) : skb.isFor (T.id t) := by
  by_contra hfor
  have hcount := h.passed t
  rw [if_neg hfor, List.count_eq_zero] at hcount
  exact hcount ht

theorem nodup_crossed (d : Dir) : (crossedLinks net.log d).Nodup := by
  rw [h.crossed d, List.nodup_reverse]
  refine List.Nodup.map_on ?_ List.nodup_range
  intro j hj k hk hlink
  have hround := (h.bounds d).2.2
  rw [List.mem_range] at hj hk
  exact T.ring.place_inj d s (by omega) (by omega) (T.ring.link_injective d hlink)

theorem dead_of_heard_twice (hcw : T.heard s r t .cw = 1) (hccw : T.heard s r t .ccw = 1) (l : V) :
    T.dead l = false := by
  have hheard : ∀ d, T.heard s r t d = 1 → 0 < T.ring.dist d s t ∧ T.ring.dist d s t ≤ c d := by
    intro d hd
    have hcond : 0 < T.ring.dist d s t ∧ T.ring.dist d s t ≤ r d := by
      by_contra hno
      rw [Topology.heard, if_neg hno] at hd
      omega
    exact ⟨hcond.1, hcond.2.trans (h.bounds d).1⟩
  obtain ⟨hpos, hreach⟩ := hheard .cw hcw
  obtain ⟨-, hreach'⟩ := hheard .ccw hccw
  have hne : s ≠ t := fun heq => hpos.ne' (T.ring.dist_eq_zero.mpr heq)
  have hround : T.ring.dist .ccw s t + T.ring.dist .cw s t = Fintype.card V :=
    T.ring.dist_other .cw hne
  obtain ⟨k, hk, rfl⟩ := T.ring.exists_link .cw s l
  by_cases hnear : k < c .cw
  · exact h.live .cw k hnear
  · -- the link is one of those the other copy has crossed
    have hlink := T.ring.link_place_other .ccw s hk
    rw [Dir.other] at hlink
    rw [hlink]
    exact h.live .ccw _ (by omega)

theorem heard_of_live (hstopped : T.Stopped s c r) (hflight : net.flight = []) {d : Dir}
    (hne : s ≠ t) (hlive : ∀ k < T.ring.dist d s t, T.deadOn (T.ring.place d s k) d = false) :
    T.heard s r t d = 1 := by
  have hrest : r d = c d := by
    have hle := (h.bounds d).1
    have hfly := h.flight d
    rw [hflight, List.filter_nil] at hfly
    split at hfly
    · exact nomatch hfly
    · omega
  refine if_pos ⟨Nat.pos_of_ne_zero fun hzero => hne (T.ring.dist_eq_zero.mp hzero), ?_⟩
  rw [hrest]
  rcases hstopped d hrest with hround | hdead
  · rw [hround]
    exact (T.ring.dist_lt d s t).le
  · by_contra hshort
    rw [hlive _ (Nat.lt_of_not_le hshort)] at hdead
    exact Bool.false_ne_true hdead

end Net.Flooded

/-! ## Transmission -/

/-- `ixgbe_xmit_frame` at station `s`. -/
def Net.transmit (T : Topology V) (inp : TxInputs) (s : V) (frame : EthSkb) (net : Net V π) :
    Except Fault (Net V π) := do
  let (st, sent) ← ixgbeXmitFrame inp (net.station s) frame
  let new := T.launchAll s 0 0 sent
  pure {
    station := Function.update net.station s st
    flight := net.flight ++ new
    log := (new.map fun f => .crossed 0 f.gen f.dir (T.ring.link f.dir s)) ++ net.log }

omit [DecidableEq V] in
theorem Topology.launchAll_onPorts {taken : Port → Bool} (hsrc : T.Owns s skb.src)
    (hlive : ∀ p, taken p = true → T.deadOn s (T.facing s p) = false) (d : Dir) :
    ((T.launchAll s 0 0 (onPorts taken skb)).filter fun f => f.dir = d) =
      if taken (T.portFacing s d) = true then [T.copyAt s skb d 1] else [] := by
  have hgen : T.genOf s 0 skb = 1 := if_pos hsrc.symm
  have hport : ∀ p, T.launchAll s 0 0 (if taken p then [(p, skb)] else []) =
      if taken p = true then [T.copyAt s skb (T.facing s p) 1] else [] := by
    intro p
    by_cases hp : taken p = true
    · have hlaunch := T.launchAll_copy (T.ring.place_zero (T.facing s p) s) rfl hgen
      rw [if_neg (by rw [hlive p hp]; decide)] at hlaunch
      rw [if_pos hp, if_pos hp, hlaunch]
    · rw [if_neg hp, if_neg hp]
      rfl
  have happend : T.launchAll s 0 0 (onPorts taken skb) =
      (if taken .primary = true then [T.copyAt s skb (T.primary s) 1] else []) ++
        if taken .secondary = true then [T.copyAt s skb (T.primary s).other 1] else [] := by
    refine Eq.trans ?_ (congrArg₂ (· ++ ·) (hport .primary) (hport .secondary))
    simp only [launchAll, onPorts, List.map_append, List.filter_append]
  rw [happend, List.filter_append, filter_copyAt, filter_copyAt]
  by_cases hd : T.primary s = d
  · subst hd
    simp [Topology.portFacing]
  · have hother : (T.primary s).other = d :=
      ((Dir.eq_or_eq_other (T.primary s) d).resolve_left (Ne.symm hd)).symm
    simp [Topology.portFacing, hd, hother]

/-- Stations in operation with nothing between them. -/
structure Net.Quiet (T : Topology V) (net : Net V π) : Prop where
  settled : ∀ v, T.Settled v (net.station v).iwa
  flight : net.flight = []
  log : net.log = []

variable {inp : TxInputs} {l : Nat × RxInputs} {ls : List (Nat × RxInputs)}

theorem Net.Quiet.transmit {net₀ : Net V π} (h : net₀.Quiet T) {frame : EthSkb}
    (hencap : ixgbeWfsEncap (net₀.station s).iwa.core (net₀.station s).fib inp.key
      (net₀.station s).dataSeqno inp.pktbuf inp.headroom frame = .ok (some skb))
    (htransmit : net₀.transmit T inp s frame = .ok net) :
    ∃ c, net.Flooded T s skb c (fun _ => 0) ∧ (skb.dest ≠ wfsidAll → ∃ d, c d = 0) ∧
      (skb.dest = wfsidAll → inp.Unhindered → T.Stopped s c fun _ => 0) := by
  obtain ⟨⟨st, sent⟩, hxmit, hdone⟩ := bind_eq_ok.mp htransmit
  cases hdone
  obtain ⟨heq, taken, rfl, hlive, hsingle, hall⟩ := (h.settled s).sends hencap hxmit
  have hsrc : T.Owns s skb.src := by
    rw [Topology.Owns, (isData_of_encap hencap).2, (h.settled s).wfsId]
  refine ⟨fun d => if taken (T.portFacing s d) = true then 1 else 0, ?_, ?_, ?_⟩
  · constructor
    case settled =>
      intro v
      rw [show (Function.update net₀.station s st v).iwa = _ from update_iwa heq v]
      exact h.settled v
    case bounds =>
      intro d
      have hcard : 0 < Fintype.card V := Fintype.card_pos_iff.mpr ⟨s⟩
      split <;> omega
    case live =>
      intro d k hk
      split at hk
      · next htaken =>
        obtain rfl : k = 0 := by omega
        have hdir := hlive _ htaken
        rwa [T.facing_portFacing] at hdir
      · exact absurd hk (Nat.not_lt_zero k)
    case flight =>
      intro d
      rw [h.flight, List.nil_append, T.launchAll_onPorts hsrc hlive]
      split
      · rfl
      · rfl
    case crossed =>
      intro d
      rw [h.log, List.append_nil, crossedLinks_map _ (fun e => T.ring.link e s),
        T.launchAll_onPorts hsrc hlive]
      split
      · rfl
      · rfl
    case passed =>
      intro t
      rw [h.log, List.append_nil, passedBy_map _ (fun e => T.ring.link e s), List.count_nil]
      have hnone : ∀ d, T.heard s (fun _ => 0) t d = 0 :=
        fun d => if_neg fun h => absurd h.2 (Nat.not_le.mpr h.1)
      rw [Dir.both, hnone, hnone, ite_self]
  · intro hone
    obtain ⟨p, hp⟩ := hsingle hone
    refine ⟨T.facing s p, ?_⟩
    simp only [T.portFacing_facing, hp]
    rfl
  · intro htoAll hinp d hd
    dsimp only at hd ⊢
    have hfree : taken (T.portFacing s d) = false := by
      refine Bool.eq_false_of_not_eq_true fun htaken => ?_
      rw [if_pos htaken] at hd
      omega
    have hdead := hall htoAll hinp _ hfree
    rw [T.facing_portFacing] at hdead
    refine .inr ?_
    rwa [← hd]

/-! ## Receptions -/

variable [EventStore π]

/-- **One reception.** A copy is received once more, and unless it is back at its source or not
    handed on it crosses one more link. -/
theorem Net.Flooded.step (h : net.Flooded T s skb c r) (hdata : skb.IsData)
    (hsrc : T.Owns s skb.src) (hstep : NetStep T rb net l net') :
    ∃ d, r d < c d ∧
      net'.Flooded T s skb
        (Function.update c d (c d +
          if c d < Fintype.card V ∧ T.Onward l.2 d (T.ring.place d s (c d)) skb then 1 else 0))
        (Function.update r d (r d + 1)) := by
  obtain ⟨f, hget, hreceive⟩ := hstep
  obtain ⟨hflying, hf, hothers⟩ := h.received hget
  obtain ⟨-, hbehind, hround⟩ := h.bounds f.dir
  generalize f.dir = e at *
  subst hf
  obtain ⟨hiwa, hflight, hlog⟩ :=
    Net.receive_copy h.settled hdata hsrc (by omega) hround hreceive
  refine ⟨e, hflying, ?_⟩
  have hnext : r e + 1 = c e := by omega
  constructor
  case settled =>
    intro v
    rw [hiwa]
    exact h.settled v
  case bounds =>
    intro d
    -- the other way round the ring is as it was
    by_cases hd : d = e
    · subst hd
      rw [Function.update_self, Function.update_self]
      split <;> omega
    · rw [Function.update_of_ne hd, Function.update_of_ne hd]
      exact h.bounds d
  case live =>
    intro d k hk
    by_cases hd : d = e
    · subst hd
      rw [Function.update_self] at hk
      by_cases hold : k < c d
      · exact h.live d k hold
      -- the link that is crossed now is up
      · split at hk
        · next hgo =>
          obtain rfl : k = c d := by omega
          exact hgo.2.2.1
        · omega
    · rw [Function.update_of_ne hd] at hk
      exact h.live d k hk
  case flight =>
    intro d
    rw [hflight, List.filter_append, hothers d, filter_copyAt]
    by_cases hd : d = e
    · subst hd
      rw [if_neg fun hne => hne.1 rfl, Function.update_self, Function.update_self, List.nil_append,
        if_congr (and_iff_left rfl) rfl rfl, hnext]
      split
      · rw [if_pos (Nat.lt_succ_self _)]
      · rw [Nat.add_zero, if_neg (Nat.lt_irrefl _)]
    · have hother : ¬e = d := Ne.symm hd
      rw [Function.update_of_ne hd, Function.update_of_ne hd]
      simp only [hother, and_false, if_false, List.append_nil, ne_eq, hd, not_false_eq_true,
        true_and]
  case crossed =>
    intro d
    rw [hlog, crossedLinks_append, crossedLinks_append, h.crossed d, crossedLinks_passed,
      crossedLinks_crossed, List.nil_append]
    by_cases hd : d = e
    · subst hd
      rw [if_congr (and_iff_left rfl) rfl rfl, Function.update_self]
      split
      · rw [List.range_succ, List.map_append, List.reverse_append]
        rfl
      · rfl
    · rw [Function.update_of_ne hd, if_neg fun hgo => hd hgo.2.symm, List.nil_append]
  case passed =>
    intro t
    rw [hlog, heard_update, passedBy_append, passedBy_append, List.count_append, List.count_append,
      h.passed t, hnext, passedBy_passed, passedBy_crossed, List.count_nil, Nat.add_zero]
    -- only the station that has received it can have passed it up
    by_cases hplace : T.ring.place e s (c e) = t
    · rw [hplace]
      by_cases hfor : skb.isFor (T.id t)
      · rw [if_pos hfor, if_pos hfor, if_congr (and_iff_left hfor) rfl rfl,
          if_congr (and_iff_left rfl) rfl rfl]
        split
        · rw [List.count_singleton_self]
          omega
        · rw [List.count_nil]
          omega
      · rw [if_neg hfor, if_neg hfor, if_neg fun hgo => hfor hgo.2]
        rfl
    · have hnone : (if c e < Fintype.card V ∧ skb.isFor (T.id (T.ring.place e s (c e))) then
          [T.ring.place e s (c e)] else []).count t = 0 := by
        split
        · exact List.count_eq_zero.mpr fun hmem => hplace (List.mem_singleton.mp hmem).symm
        · rfl
      rw [hnone, Nat.zero_add]
      split
      · rw [if_neg fun hgo => hplace hgo.2, Nat.add_zero]
      · rfl

/-- **All receptions.** Each of them is one of a copy; a way that no copy goes stays without. -/
theorem Net.Flooded.run (h : net.Flooded T s skb c r) (hdata : skb.IsData) (hsrc : T.Owns s skb.src)
    (hrun : Run (NetStep T rb) net ls net') :
    ∃ c' r', net'.Flooded T s skb c' r' ∧ Dir.both r' = Dir.both r + ls.length ∧
      (∀ d, c d = 0 → c' d = 0) ∧
      (skb.dest = wfsidAll → (∀ l ∈ ls, l.2.Unhindered) → T.Stopped s c r → T.Stopped s c' r') := by
  induction hrun generalizing c r with
  | nil net => exact ⟨c, r, h, rfl, fun _ hd => hd, fun _ _ hstopped => hstopped⟩
  | @cons net net₁ net' l ls hstep _ ih =>
    obtain ⟨d, hflying, h₁⟩ := h.step hdata hsrc hstep
    obtain ⟨c', r', h', hcount, hnone, hstopped⟩ := ih h₁
    refine ⟨c', r', h', ?_, fun e he => hnone e ?_, fun hall hls hs => ?_⟩
    · rw [hcount, Dir.both_update, List.length_cons]
      omega
    · have hne : e ≠ d := by
        rintro rfl
        omega
      rwa [Function.update_of_ne hne]
    · obtain ⟨hl, hls⟩ := List.forall_mem_cons.mp hls
      exact hstopped hall hls (hs.step hall hl hflying (h.bounds d).2.2)

def Net.next? (T : Topology V) (rb : Balancer Nat) (net : Net V π) (l : Nat × RxInputs) :
    Option (Net V π) := do
  let f ← net.flight[l.1]?
  (net.receive T rb l.2 f (net.flight.eraseIdx l.1)).toOption

theorem netStep_of_next? (h : net.next? T rb l = some net') : NetStep T rb net l net' := by
  obtain ⟨f, hget, hnext⟩ := Option.bind_eq_some_iff.mp h
  refine ⟨f, hget, ?_⟩
  cases hreceive : net.receive T rb l.2 f (net.flight.eraseIdx l.1) with
  | error e =>
    rw [hreceive] at hnext
    exact nomatch hnext
  | ok net'' =>
    rw [hreceive] at hnext
    exact congrArg _ (Option.some.inj hnext)

/-! ## Frames in a quiet ring -/

theorem Net.Quiet.flooded {net₀ net₁ : Net V π} (h : net₀.Quiet T) {frame : EthSkb}
    (hencap : ixgbeWfsEncap (net₀.station s).iwa.core (net₀.station s).fib inp.key
      (net₀.station s).dataSeqno inp.pktbuf inp.headroom frame = .ok (some skb))
    (htransmit : net₀.transmit T inp s frame = .ok net₁)
    (hrun : Run (NetStep T rb) net₁ ls net) :
    ∃ c r, net.Flooded T s skb c r ∧ Dir.both r = ls.length ∧
      (skb.dest ≠ wfsidAll → ∃ d, c d = 0) ∧
      (skb.dest = wfsidAll → inp.Unhindered → (∀ l ∈ ls, l.2.Unhindered) → T.Stopped s c r) := by
  obtain ⟨c₁, h₁, hsingle, hstopped₁⟩ := h.transmit hencap htransmit
  have hsrc : T.Owns s skb.src := by
    rw [Topology.Owns, (isData_of_encap hencap).2, (h.settled s).wfsId]
  obtain ⟨c, r, hend, hcount, hnone, hstopped⟩ := h₁.run (isData_of_encap hencap).1 hsrc hrun
  refine ⟨c, r, hend, ?_, fun hone => ?_, fun hall hinp hls => ?_⟩
  · rw [hcount]
    exact Nat.zero_add _
  · obtain ⟨d, hd⟩ := hsingle hone
    exact ⟨d, hnone d hd⟩
  · exact hstopped hall hls (hstopped₁ hall hinp)

end Ring

/-! ### A ring of three stations -/

def ringOfThreeWith (dead : Fin 3 → Bool) : Topology (Fin 3) := { ringOfThree with dead }

def quietRing (dead : Fin 3 → Bool) : Net (Fin 3) EvBufPool where
  station v :=
    { iwa := { Iwa.probed ((ringOfThreeWith dead).id v) Mac.broadcast (fun _ => 0)
        (EvBufPool.ixgbeWfsFsmInit fun _ => true).1 with
          state := .opened
          link := fun p => !(ringOfThreeWith dead).deadOn v ((ringOfThreeWith dead).facing v p)
          linkUp := true
          carrier := true }
      fib := (Fib.ixgbeWfsFibInit fun _ => true).1 }
  flight := []

theorem quiet_quietRing (dead : Fin 3 → Bool) : (quietRing dead).Quiet (ringOfThreeWith dead) where
  settled _ := ⟨rfl, rfl, fun _ => rfl, fun _ _ => rfl, fun _ _ => rfl⟩
  flight := rfl
  log := rfl

def broadcastFrame : EthSkb where
  data i := if i < 6 then 0xff else 2
  len := 60
  vlanTci := 0

def sending : TxInputs where
  key := ⟨0, Mac.broadcast⟩
  pktbuf := sfMessage

theorem encap_broadcastFrame (dead : Fin 3 → Bool) : ∃ pkt,
    ixgbeWfsEncap ((quietRing dead).station 0).iwa.core ((quietRing dead).station 0).fib sending.key
      ((quietRing dead).station 0).dataSeqno sending.pktbuf sending.headroom broadcastFrame =
        .ok (some pkt) ∧ pkt.dest = wfsidAll :=
  ⟨_, rfl, rfl⟩

/-- Station 0 sends the frame: whether a copy is left after some receptions, and the stations
    that passed it. -/
def afterReceptions (dead : Fin 3 → Bool) (ls : List (Nat × RxInputs)) :
    Option (Bool × List (Fin 3)) := do
  let net₁ ← ((quietRing dead).transmit (ringOfThreeWith dead) sending 0 broadcastFrame).toOption
  let net ← Run.exec (Net.next? (ringOfThreeWith dead) .plain) net₁ ls
  pure (net.flight.isEmpty, passedBy net.log)

theorem run_of_afterReceptions {dead : Fin 3 → Bool} {ls : List (Nat × RxInputs)}
    {passed : List (Fin 3)} (h : afterReceptions dead ls = some (true, passed)) :
    ∃ net₁ net,
      (quietRing dead).transmit (ringOfThreeWith dead) sending 0 broadcastFrame = .ok net₁ ∧
      Run (NetStep (ringOfThreeWith dead) .plain) net₁ ls net ∧ net.flight = [] ∧
      passedBy net.log = passed := by
  simp only [afterReceptions, Option.bind_eq_bind, Option.bind_eq_some_iff] at h
  obtain ⟨net₁, hsend, net, hexec, hdone⟩ := h
  obtain ⟨hempty, hpassed⟩ := Prod.mk.inj (Option.some.inj hdone)
  have hrun : Run (NetStep (ringOfThreeWith dead) .plain) net₁ ls net :=
    Run.of_exec (T := NetStep (ringOfThreeWith dead) .plain)
      (fun _ _ _ hnext => netStep_of_next? hnext) hexec
  refine ⟨net₁, net, ?_, hrun, List.isEmpty_iff.mp hempty, hpassed⟩
  cases hok : (quietRing dead).transmit (ringOfThreeWith dead) sending 0 broadcastFrame with
  | error e =>
    rw [hok] at hsend
    exact nomatch hsend
  | ok n =>
    rw [hok] at hsend
    exact congrArg _ (Option.some.inj hsend)

/-! ### Flooding -/

section Ring

variable {V π : Type} [Fintype V] [DecidableEq V] [EventStore π] {T : Topology V}
  {rb : Balancer Nat} {s : V} {skb : Skb}

/-- **Flooding dies out and reaches everybody.** Whatever the order of the receptions, a frame
    sent in a quiet ring is received at most twice as often as there are stations, crosses no
    link twice one way, comes to no station's stack that it is not for and never to that of its
    source.  Nothing but a station's forwarding table keeps a copy from being received.  When
    no copy is left, a frame for all stations that could always be copied and sent has come
    to every station connected to its source. -/
theorem flood_dies_out_and_reaches {net₀ net₁ net : Net V π} (hquiet : net₀.Quiet T)
    {inp : TxInputs} {frame : EthSkb}
    (hencap : ixgbeWfsEncap (net₀.station s).iwa.core (net₀.station s).fib inp.key
      (net₀.station s).dataSeqno inp.pktbuf inp.headroom frame = .ok (some skb))
    (htransmit : net₀.transmit T inp s frame = .ok net₁) {ls : List (Nat × RxInputs)}
    (hrun : Run (NetStep T rb) net₁ ls net) :
    ls.length ≤ 2 * Fintype.card V ∧
      (∀ d, (crossedLinks net.log d).Nodup) ∧
      s ∉ passedBy net.log ∧
      (skb.dest ≠ wfsidAll → ∀ t ∈ passedBy net.log, T.Owns t skb.dest) ∧
      (∀ i f, net.flight[i]? = some f → ∀ rx : RxInputs,
        (∃ fib, (net.station f.dest).fib.ixgbeWfsFibUpdate rb rx.key rx.kmalloc rx.kmalloc'
          f.skb.vlanTci (macAt f.skb.inner 6) (innerIp f.skb.inner) f.skb.src = .ok fib) →
        ∃ net', NetStep T rb net (i, rx) net') ∧
      (skb.dest = wfsidAll → inp.Unhindered → (∀ l ∈ ls, l.2.Unhindered) → net.flight = [] →
        ∀ t, t ≠ s → T.Connected s t → t ∈ passedBy net.log) := by
  obtain ⟨c, r, hend, hcount, -, hstopped⟩ := hquiet.flooded hencap htransmit hrun
  refine ⟨?_, hend.nodup_crossed, hend.not_mem_source, fun hone t ht => ?_, ?_, ?_⟩
  · have hcw := hend.bounds .cw
    have hccw := hend.bounds .ccw
    have hboth : Dir.both r = r .cw + r .ccw := rfl
    omega
  · exact ((hend.isFor_of_mem ht).resolve_left hone).symm
  · rintro i f hget rx ⟨fib, hfib⟩
    obtain ⟨-, hf, -⟩ := hend.received hget
    have hdata : f.skb.IsData := by
      rw [hf]
      exact (isData_of_encap hencap).1
    obtain ⟨out, hout⟩ : ∃ out, ixgbeProcessSkbFields rb rx (T.portFacing f.dest f.dir.other)
        (net.station f.dest) f.skb = .ok out := receive_ok hdata hfib
    have hreceive : ∃ net', net.receive T rb rx f (net.flight.eraseIdx i) = .ok net' :=
      ⟨_, by simp only [Net.receive, hout, bind, Except.bind]; rfl⟩
    obtain ⟨net', hnet⟩ := hreceive
    exact ⟨net', f, hget, hnet⟩
  · intro hall hinp hls hnone t hne hconnected
    obtain ⟨d, hlive⟩ := hconnected.exists_way
    have hheard := hend.heard_of_live (hstopped hall hinp hls) hnone hne.symm hlive
    rw [← List.count_pos_iff, hend.passed, if_pos (.inl hall), Dir.both_eq _ d, hheard]
    omega

end Ring

theorem connected_ringCut : (ringOfThreeWith fun l => l = 2).Connected 0 2 :=
  .tail (.single ⟨.cw, rfl, rfl⟩) ⟨.cw, rfl, rfl⟩

theorem afterReceptions_ringCut :
    afterReceptions (fun l => l = 2) [(0, {}), (0, {})] = some (true, [2, 1]) := by
  decide +kernel

theorem flood_dies_out_and_reaches_ringCut : ∃ net₁ net,
    (quietRing fun l => l = 2).transmit (ringOfThreeWith fun l => l = 2) sending 0 broadcastFrame =
      .ok net₁ ∧
    Run (NetStep (ringOfThreeWith fun l => l = 2) .plain) net₁ [(0, {}), (0, {})] net ∧
    2 ∈ passedBy net.log := by
  obtain ⟨net₁, net, hsend, hrun, hflight, -⟩ := run_of_afterReceptions afterReceptions_ringCut
  obtain ⟨pkt, hencap, hall⟩ := encap_broadcastFrame fun l => l = 2
  obtain ⟨-, -, -, -, -, hreach⟩ :=
    flood_dies_out_and_reaches (quiet_quietRing fun l => l = 2) hencap hsend hrun
  refine ⟨net₁, net, hsend, hrun, hreach hall ⟨rfl, fun _ => rfl⟩ ?_ hflight 2 (by decide)
    connected_ringCut⟩
  simp [RxInputs.Unhindered]

/-- A copy that station 1 has no memory for never comes to station 2. -/
theorem flood_lost_ringCut : ∃ pkt net₁ net,
    ixgbeWfsEncap ((quietRing fun l => l = 2).station 0).iwa.core
      ((quietRing fun l => l = 2).station 0).fib sending.key
      ((quietRing fun l => l = 2).station 0).dataSeqno sending.pktbuf sending.headroom
      broadcastFrame = .ok (some pkt) ∧ pkt.dest = wfsidAll ∧
    (quietRing fun l => l = 2).Quiet (ringOfThreeWith fun l => l = 2) ∧
    (quietRing fun l => l = 2).transmit (ringOfThreeWith fun l => l = 2) sending 0 broadcastFrame =
      .ok net₁ ∧
    Run (NetStep (ringOfThreeWith fun l => l = 2) .plain) net₁ [(0, { copy := false })] net ∧
    net.flight = [] ∧ (ringOfThreeWith fun l => l = 2).Connected 0 2 ∧ 2 ∉ passedBy net.log := by
  have hout : afterReceptions (fun l => l = 2) [(0, { copy := false })] = some (true, [1]) := by
    decide +kernel
  obtain ⟨net₁, net, hsend, hrun, hflight, hpassed⟩ := run_of_afterReceptions hout
  obtain ⟨pkt, hencap, hall⟩ := encap_broadcastFrame fun l => l = 2
  refine ⟨pkt, net₁, net, hencap, hall, quiet_quietRing _, hsend, hrun, hflight,
    connected_ringCut, ?_⟩
  rw [hpassed]
  decide

section Ring

variable {V π : Type} [Fintype V] [DecidableEq V] [EventStore π] {T : Topology V}
  {rb : Balancer Nat} {s : V} {skb : Skb}

/-- **Copies of a frame.** Each station passes a frame for one station, and any frame in a ring
    with a dead link, at most once, and every frame at most twice.  In a ring without dead links
    every other station passes a frame for all stations exactly twice if it could always be
    copied and sent. -/
theorem flood_passes {net₀ net₁ net : Net V π} (hquiet : net₀.Quiet T) {inp : TxInputs}
    {frame : EthSkb}
    (hencap : ixgbeWfsEncap (net₀.station s).iwa.core (net₀.station s).fib inp.key
      (net₀.station s).dataSeqno inp.pktbuf inp.headroom frame = .ok (some skb))
    (htransmit : net₀.transmit T inp s frame = .ok net₁) {ls : List (Nat × RxInputs)}
    (hrun : Run (NetStep T rb) net₁ ls net) :
    ((skb.dest ≠ wfsidAll ∨ ∃ l, T.dead l = true) → (passedBy net.log).Nodup) ∧
      (∀ t, (passedBy net.log).count t ≤ 2) ∧
      (skb.dest = wfsidAll → (∀ l, T.dead l = false) → inp.Unhindered →
        (∀ l ∈ ls, l.2.Unhindered) → net.flight = [] →
        ∀ t, t ≠ s → (passedBy net.log).count t = 2) := by
  obtain ⟨c, r, hend, -, hsingle, hstopped⟩ := hquiet.flooded hencap htransmit hrun
  have hcount : ∀ t, (passedBy net.log).count t ≤ T.heard s r t .cw + T.heard s r t .ccw := by
    intro t
    rw [hend.passed, Dir.both]
    split <;> omega
  refine ⟨fun honce => ?_, fun t => ?_, fun hall hlinks hinp hls hnone t hne => ?_⟩
  · rw [List.nodup_iff_count_le_one]
    intro t
    have hcw := heard_le_one (T := T) (s := s) (r := r) t .cw
    have hccw := heard_le_one (T := T) (s := s) (r := r) t .ccw
    have ht := hcount t
    by_contra htwice
    rcases honce with hone | ⟨l, hdead⟩
    · -- one of the copies is missing
      obtain ⟨d, hd⟩ := hsingle hone
      have hnever : T.heard s r t d = 0 := by
        have hle := (hend.bounds d).1
        exact if_neg fun h => by omega
      cases d <;> omega
    · have hlive := hend.dead_of_heard_twice (t := t) (by omega) (by omega) l
      exact Bool.false_ne_true (hlive.symm.trans hdead)
  · have hcw := heard_le_one (T := T) (s := s) (r := r) t .cw
    have hccw := heard_le_one (T := T) (s := s) (r := r) t .ccw
    have ht := hcount t
    omega
  · have hheard : ∀ d, T.heard s r t d = 1 := fun d =>
      hend.heard_of_live (hstopped hall hinp hls) hnone hne.symm fun k _ => hlinks _
    rw [hend.passed, if_pos (.inl hall), Dir.both, hheard, hheard]

end Ring

def allRound : List (Nat × RxInputs) := List.replicate 6 (0, {})

theorem flood_passes_ringCut : ∃ net₁ net,
    (quietRing fun l => l = 2).transmit (ringOfThreeWith fun l => l = 2) sending 0 broadcastFrame =
      .ok net₁ ∧
    Run (NetStep (ringOfThreeWith fun l => l = 2) .plain) net₁ [(0, {}), (0, {})] net ∧
    (passedBy net.log).Nodup := by
  obtain ⟨net₁, net, hsend, hrun, -, -⟩ := run_of_afterReceptions afterReceptions_ringCut
  obtain ⟨pkt, hencap, -⟩ := encap_broadcastFrame fun l => l = 2
  exact ⟨net₁, net, hsend, hrun,
    (flood_passes (quiet_quietRing fun l => l = 2) hencap hsend hrun).1 (.inr ⟨2, by decide⟩)⟩

/-- In a ring without dead links station 1 passes a frame twice. -/
theorem flood_twice : ∃ pkt net₁ net,
    ixgbeWfsEncap ((quietRing fun _ => false).station 0).iwa.core
      ((quietRing fun _ => false).station 0).fib sending.key
      ((quietRing fun _ => false).station 0).dataSeqno sending.pktbuf sending.headroom
      broadcastFrame = .ok (some pkt) ∧ pkt.dest = wfsidAll ∧
    (quietRing fun _ => false).Quiet (ringOfThreeWith fun _ => false) ∧
    (quietRing fun _ => false).transmit (ringOfThreeWith fun _ => false) sending 0 broadcastFrame =
      .ok net₁ ∧
    Run (NetStep (ringOfThreeWith fun _ => false) .plain) net₁ allRound net ∧
    (passedBy net.log).count 1 = 2 := by
  have hout : afterReceptions (fun _ => false) allRound = some (true, [1, 2, 2, 1]) := by
    decide +kernel
  obtain ⟨net₁, net, hsend, hrun, -, hpassed⟩ := run_of_afterReceptions hout
  obtain ⟨pkt, hencap, hall⟩ := encap_broadcastFrame fun _ => false
  refine ⟨pkt, net₁, net, hencap, hall, quiet_quietRing _, hsend, hrun, ?_⟩
  rw [hpassed]
  decide

end VmkDrivers.Wfs
