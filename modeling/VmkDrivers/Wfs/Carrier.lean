/-
  VmkDrivers.Wfs.Carrier

  The carrier of the shared interface, which both ports write: `ixgbe_down` and
  `ixgbe_open` turn it off, and the watchdog of a port turns it on or off when
  the `link_up` of the port changes and `iwa->link_up` with it.

  A reset or a reopening does not touch `link_up`.  If the watchdogs then find
  the links as they were, nothing turns the carrier on again: it is off exactly
  if it was turned off with a `link_up` set and one was set ever since
  (`carrier_follows_iff`).
-/

import VmkDrivers.Lib.Transition
import VmkDrivers.Wfs.Defs

namespace VmkDrivers.Wfs

open VmkDrivers.Lib

/-! ## Ports and operations -/

structure PortLink where
  down : Bool := true
  needLinkUpdate : Bool := false
  linkUp : Bool := false
  /-- What `check_link` reports. -/
  hwLink : Bool := false
  /-- The watchdog has run to its end since the last transition, reset or open of a port. -/
  settled : Bool := false

structure CardLink where
  port : Port → PortLink := fun _ => {}
  opened : Bool := false
  linkUp : Bool := false
  /-- `netif_carrier_ok` -/
  carrier : Bool := false

/-- How `ixgbe_open` fares with a port. -/
inductive OpenOutcome where
  | opens
  /-- `__IXGBE_TESTING` is set. -/
  | testing
  /-- An allocation or the request of the interrupts fails. -/
  | fails
deriving DecidableEq

inductive CarrierOp where
  | openDev (outcome : Port → OpenOutcome)
  | closeDev
  /-- `ixgbe_reinit_locked`, for a hung transmit queue or a new MTU. -/
  | reinit (p : Port)
  /-- The link of the port comes or goes, and the interrupt says so. -/
  | setLink (p : Port) (up : Bool)
  /-- `ixgbe_watchdog_subtask`; `late` is whether `IXGBE_TRY_LINK_TIMEOUT` has passed. -/
  | watchdog (p : Port) (late : Bool)

namespace CardLink

/-- Something of the port `p` changes. -/
def setPort (s : CardLink) (p : Port) (f : PortLink → PortLink) : CardLink :=
  { s with port := Function.update s.port p (f (s.port p)) }

variable (s : CardLink)

@[simp] theorem setPort_self (p : Port) (f : PortLink → PortLink) :
    (s.setPort p f).port p = f (s.port p) := Function.update_self ..

theorem setPort_of_ne {p q : Port} (h : q ≠ p) (f : PortLink → PortLink) :
    (s.setPort p f).port q = s.port q := Function.update_of_ne h ..

@[simp] theorem setPort_other (p : Port) (f : PortLink → PortLink) :
    (s.setPort p f).port p.other = s.port p.other := s.setPort_of_ne p.other_ne f

@[simp] theorem setPort_linkUp (p : Port) (f : PortLink → PortLink) :
    (s.setPort p f).linkUp = s.linkUp := rfl

@[simp] theorem setPort_carrier (p : Port) (f : PortLink → PortLink) :
    (s.setPort p f).carrier = s.carrier := rfl

def unsettle (s : CardLink) : CardLink :=
  { s with port := fun p => { s.port p with settled := false } }

/-! ## Up and down -/

def ixgbeUpComplete (s : CardLink) (p : Port) : CardLink :=
  s.setPort p fun a => { a with down := false, needLinkUpdate := true }

def ixgbeDown (s : CardLink) (p : Port) : CardLink :=
  if (s.port p).down then s
  else { s.setPort p fun a => { a with down := true, needLinkUpdate := false } with
    carrier := false }

def ixgbeReinitLocked (s : CardLink) (p : Port) : CardLink :=
  ((s.ixgbeDown p).ixgbeUpComplete p).unsettle

/-- `ixgbe_open`: the ports one after the other, and `netif_carrier_off` with each.  What an error
    undoes is not seen here; the primary stays up when the secondary fails. -/
def ixgbeOpen (s : CardLink) (outcome : Port → OpenOutcome) : CardLink :=
  if s.opened then s
  else
    match outcome .primary, outcome .secondary with
    | .testing, _ => s
    | .fails, _ => { s with carrier := false }.unsettle
    | .opens, .opens =>
      { (s.ixgbeUpComplete .primary).ixgbeUpComplete .secondary with
        opened := true, carrier := false }.unsettle
    | .opens, _ => { s.ixgbeUpComplete .primary with carrier := false }.unsettle

def ixgbeClose (s : CardLink) : CardLink :=
  if s.opened then { (s.ixgbeDown .primary).ixgbeDown .secondary with opened := false }
  else s

/-! ## The watchdog -/

/-- `ixgbe_watchdog_update_link`, with whether the link changed. -/
def ixgbeWatchdogUpdateLink (s : CardLink) (p : Port) (late : Bool) : CardLink × Bool :=
  let a := s.port p
  if a.needLinkUpdate then
    (s.setPort p fun a => { a with
      needLinkUpdate := a.needLinkUpdate && !(a.hwLink || late)
      linkUp := a.hwLink }, a.linkUp != a.hwLink)
  else (s, false)

def ixgbeWatchdogLinkIsUp (s : CardLink) (_p : Port) : CardLink :=
  if s.linkUp then s else { s with linkUp := true, carrier := true }

def ixgbeWatchdogLinkIsDown (s : CardLink) (p : Port) : CardLink :=
  let s := s.setPort p fun a => { a with linkUp := false }
  if (s.port p.other).linkUp then s else { s with linkUp := false, carrier := false }

def ixgbeWatchdogSubtask (s : CardLink) (p : Port) (late : Bool) : CardLink :=
  if (s.port p).down then s
  else
    let (s, changed) := s.ixgbeWatchdogUpdateLink p late
    let s :=
      if changed then
        if (s.port p).linkUp then s.ixgbeWatchdogLinkIsUp p else s.ixgbeWatchdogLinkIsDown p
      else s
    s.setPort p fun a => { a with settled := true }

/-! ## Steps -/

/-- `ixgbe_reset_subtask` leaves a port alone that is down, and the MTU of an interface that is
    not running is set without a reset. -/
def Enabled (s : CardLink) : CarrierOp → Prop
  | .reinit p => (s.port p).down = false
  | _ => True

def exec (s : CardLink) : CarrierOp → CardLink
  | .openDev outcome => s.ixgbeOpen outcome
  | .closeDev => s.ixgbeClose
  | .reinit p => s.ixgbeReinitLocked p
  | .setLink p up =>
    -- there is no interrupt from a port that is down
    (s.setPort p fun a => { a with
      hwLink := up, needLinkUpdate := a.needLinkUpdate || !a.down }).unsettle
  | .watchdog p late => s.ixgbeWatchdogSubtask p late

/-! ## What is promised -/

/-- One of the ports has its `link_up` set. -/
def seesLink (s : CardLink) : Bool := (s.port .primary).linkUp || (s.port .secondary).linkUp

/-- The interface is open and both watchdogs have seen what there is to see. -/
def Settled (s : CardLink) : Prop := s.opened = true ∧ ∀ p, (s.port p).settled = true

/-- The carrier and `iwa->link_up` are what the ports see. -/
def CarrierFollows (s : CardLink) : Prop :=
  s.Settled → s.carrier = s.seesLink ∧ s.linkUp = s.seesLink

/-- The operation turns the carrier off, whatever the links. -/
def CutsCarrier (s : CardLink) : CarrierOp → Prop
  | .openDev outcome => s.opened = false ∧ outcome .primary ≠ .testing
  | .closeDev => s.opened = true ∧ ∃ p, (s.port p).down = false
  | .reinit _ => True
  | .setLink .. | .watchdog .. => False

end CardLink

def CarrierStep (s : CardLink) (op : CarrierOp) (t : CardLink) : Prop :=
  s.Enabled op ∧ t = s.exec op

theorem CarrierStep.unique {s t t' : CardLink} {op : CarrierOp} (h : CarrierStep s op t)
    (h' : CarrierStep s op t') : t = t' := h.2.trans h'.2.symm

namespace CardLink

variable {s t : CardLink} {p : Port} {op : CarrierOp}

/-! ## What an operation does to the carrier -/

theorem seesLink_eq (s : CardLink) (p : Port) :
    s.seesLink = ((s.port p).linkUp || (s.port p.other).linkUp) := by
  cases p with
  | primary => rfl
  | secondary => exact Bool.or_comm ..

/-- `t` sees the same links as `s`. -/
structure SameLinks (s t : CardLink) : Prop where
  port : ∀ p, (t.port p).linkUp = (s.port p).linkUp
  linkUp : t.linkUp = s.linkUp

theorem SameLinks.seesLink (h : SameLinks s t) : t.seesLink = s.seesLink := by
  rw [CardLink.seesLink, h.port, h.port, CardLink.seesLink]

theorem SameLinks.trans {u : CardLink} (h : SameLinks s t) (h' : SameLinks t u) : SameLinks s u :=
  ⟨fun p => (h'.port p).trans (h.port p), h'.linkUp.trans h.linkUp⟩

theorem setPort_sameLinks (s : CardLink) (p : Port) {f : PortLink → PortLink}
    (hf : (f (s.port p)).linkUp = (s.port p).linkUp) : SameLinks s (s.setPort p f) := by
  refine ⟨fun q => ?_, rfl⟩
  by_cases hq : q = p
  · rw [hq, setPort_self, hf]
  · rw [s.setPort_of_ne hq]

theorem unsettle_sameLinks (s : CardLink) : SameLinks s s.unsettle := ⟨fun _ => rfl, rfl⟩

theorem carrier_sameLinks (s : CardLink) (opened carrier : Bool) :
    SameLinks s { s with opened, carrier } := ⟨fun _ => rfl, rfl⟩

theorem ixgbeUpComplete_sameLinks (s : CardLink) (p : Port) :
    SameLinks s (s.ixgbeUpComplete p) := s.setPort_sameLinks p rfl

theorem ixgbeDown_spec (s : CardLink) (p : Port) :
    SameLinks s (s.ixgbeDown p) ∧ (s.ixgbeDown p).port p.other = s.port p.other ∧
      (s.ixgbeDown p).carrier = (s.carrier && (s.port p).down) := by
  unfold ixgbeDown
  split
  · next hdown =>
    rw [hdown, Bool.and_true]
    exact ⟨⟨fun _ => rfl, rfl⟩, rfl, rfl⟩
  · next hdown =>
    rw [Bool.eq_false_iff.mpr hdown, Bool.and_false]
    refine ⟨(s.setPort_sameLinks p rfl).trans (carrier_sameLinks _ _ false), ?_, rfl⟩
    exact Function.update_of_ne p.other_ne _ _

/-- **An operation other than the watchdog** leaves the `link_up` flags alone. -/
theorem exec_spec (h : s.Enabled op) (hop : ∀ p late, op ≠ .watchdog p late) :
    SameLinks s (s.exec op) ∧ (s.CutsCarrier op → (s.exec op).carrier = false) ∧
      (¬s.CutsCarrier op → (s.exec op).carrier = s.carrier) := by
  cases op with
  | watchdog p late => exact absurd rfl (hop p late)
  | setLink p up =>
    exact ⟨(s.setPort_sameLinks p rfl).trans (unsettle_sameLinks _), False.elim, fun _ => rfl⟩
  | reinit p =>
    obtain ⟨hsame, -, hcarrier⟩ := s.ixgbeDown_spec p
    refine ⟨(hsame.trans (ixgbeUpComplete_sameLinks _ p)).trans (unsettle_sameLinks _),
      fun _ => ?_, fun hno => absurd trivial hno⟩
    have hdown : (s.port p).down = false := h
    rw [hdown, Bool.and_false] at hcarrier
    exact hcarrier
  | closeDev =>
    rw [exec, ixgbeClose]
    split
    · next hopened =>
      obtain ⟨hsame, hother, hpri⟩ := s.ixgbeDown_spec .primary
      obtain ⟨hsame', -, hsec⟩ := (s.ixgbeDown .primary).ixgbeDown_spec .secondary
      rw [Port.other] at hother
      rw [hpri, hother] at hsec
      refine ⟨(hsame.trans hsame').trans (carrier_sameLinks _ false _), ?_, ?_⟩
      · rintro ⟨-, p, hp⟩
        cases p <;> simp [hsec, hp]
      · intro hno
        have hdown : ∀ p, (s.port p).down = true := by
          intro p
          by_contra hp
          exact hno ⟨hopened, p, Bool.eq_false_iff.mpr hp⟩
        simp [hsec, hdown]
    · next hopened => exact ⟨⟨fun _ => rfl, rfl⟩, fun hcut => absurd hcut.1 hopened, fun _ => rfl⟩
  | openDev outcome =>
    rw [exec, ixgbeOpen]
    split
    · next hopened =>
      refine ⟨⟨fun _ => rfl, rfl⟩, fun hcut => ?_, fun _ => rfl⟩
      rw [hcut.1] at hopened
      cases hopened
    · next hclosed =>
      have hclosed' : s.opened = false := Bool.eq_false_iff.mpr hclosed
      -- with each outcome but the first the carrier goes off
      split
      · next htesting => exact ⟨⟨fun _ => rfl, rfl⟩, fun hcut => absurd htesting hcut.2, fun _ => rfl⟩
      · next hfails =>
        refine ⟨(carrier_sameLinks _ _ false).trans (unsettle_sameLinks _), fun _ => rfl, ?_⟩
        exact fun hno => absurd ⟨hclosed', by rw [hfails]; decide⟩ hno
      · next hopens _ =>
        refine ⟨(((s.ixgbeUpComplete_sameLinks .primary).trans
          (ixgbeUpComplete_sameLinks _ .secondary)).trans (carrier_sameLinks _ true false)).trans
          (unsettle_sameLinks _), fun _ => rfl, ?_⟩
        exact fun hno => absurd ⟨hclosed', by rw [hopens]; decide⟩ hno
      · next hopens _ =>
        refine ⟨((s.ixgbeUpComplete_sameLinks .primary).trans
          (carrier_sameLinks _ _ false)).trans (unsettle_sameLinks _), fun _ => rfl, ?_⟩
        exact fun hno => absurd ⟨hclosed', by rw [hopens]; decide⟩ hno

theorem ixgbeWatchdogLinkIsUp_spec (s : CardLink) (p : Port) :
    let t := s.ixgbeWatchdogLinkIsUp p
    t.port = s.port ∧ t.linkUp = true ∧ t.carrier = (s.carrier || !s.linkUp) := by
  unfold ixgbeWatchdogLinkIsUp
  split
  · next h => simp [h]
  · next h => simp [h]

theorem ixgbeWatchdogLinkIsDown_spec (s : CardLink) (p : Port) :
    let t := s.ixgbeWatchdogLinkIsDown p
    (t.port p).linkUp = false ∧ (t.port p.other).linkUp = (s.port p.other).linkUp ∧
      t.linkUp = ((s.port p.other).linkUp && s.linkUp) ∧
      t.carrier = ((s.port p.other).linkUp && s.carrier) := by
  unfold ixgbeWatchdogLinkIsDown
  dsimp only
  rw [setPort_other]
  split
  · next h => simp [h]
  · next h => simp [h]

/-- **The watchdog** of a port finds its `link_up` to be `up`. -/
theorem watchdog_spec (s : CardLink) (p : Port) (late : Bool) :
    ∃ up, let t := s.ixgbeWatchdogSubtask p late
      (t.port p).linkUp = up ∧ (t.port p.other).linkUp = (s.port p.other).linkUp ∧
      t.linkUp = (if up = (s.port p).linkUp then s.linkUp
        else up || (s.port p.other).linkUp && s.linkUp) ∧
      t.carrier = (if up = (s.port p).linkUp then s.carrier
        else if up then s.carrier || !s.linkUp else (s.port p.other).linkUp && s.carrier) := by
  unfold ixgbeWatchdogSubtask
  split
  · exact ⟨(s.port p).linkUp, rfl, rfl, by simp, by simp⟩
  · unfold ixgbeWatchdogUpdateLink
    dsimp only
    split
    · refine ⟨(s.port p).hwLink, ?_⟩
      generalize hu : s.setPort p _ = u
      have huport : (u.port p).linkUp = (s.port p).hwLink := by
        rw [← hu, setPort_self]
      have huother : (u.port p.other).linkUp = (s.port p.other).linkUp := by
        rw [← hu, setPort_other]
      have huup : u.linkUp = s.linkUp := by rw [← hu, setPort_linkUp]
      have hucarrier : u.carrier = s.carrier := by rw [← hu, setPort_carrier]
      split
      · next hchanged =>
        have hne : (s.port p).hwLink ≠ (s.port p).linkUp := (bne_iff_ne.mp hchanged).symm
        rw [if_neg hne, if_neg hne]
        split
        · next hup =>
          obtain ⟨hport, hlink, hcarrier⟩ := u.ixgbeWatchdogLinkIsUp_spec p
          rw [huport] at hup
          simp [hport, hlink, hcarrier, huport, huother, huup, hucarrier, hup]
        · next hdown =>
          obtain ⟨hport, hother, hlink, hcarrier⟩ := u.ixgbeWatchdogLinkIsDown_spec p
          rw [huport] at hdown
          simp [hport, hother, hlink, hcarrier, huother, huup, hucarrier, hdown]
      · next hsame =>
        have heq : (s.port p).hwLink = (s.port p).linkUp := by
          have hbne : ((s.port p).linkUp != (s.port p).hwLink) = false := Bool.eq_false_iff.mpr hsame
          exact (bne_eq_false_iff_eq.mp hbne).symm
        simp [huport, huother, huup, hucarrier, heq]
    · refine ⟨(s.port p).linkUp, ?_⟩
      simp

/-! ## Runs -/

/-- The invariant: `iwa->link_up` is what the ports see, and there is no carrier without that. -/
structure Consistent (s : CardLink) : Prop where
  linkUp : s.linkUp = s.seesLink
  carrier : s.carrier = true → s.seesLink = true

def Lost (s : CardLink) : Prop := s.seesLink = true ∧ s.carrier = false

theorem Consistent.carrierFollows_iff (h : Consistent s) :
    s.CarrierFollows ↔ (s.Settled → ¬s.Lost) := by
  refine forall_congr' fun _ => ?_
  rw [and_iff_left h.linkUp, Lost]
  have hcarrier := h.carrier
  cases hc : s.carrier <;> cases hl : s.seesLink <;> simp_all

theorem Consistent.sameLinks (h : Consistent s) (hsame : SameLinks s t)
    (hcarrier : t.carrier = true → s.carrier = true) : Consistent t := by
  constructor
  · rw [hsame.linkUp, hsame.seesLink, h.linkUp]
  · rw [hsame.seesLink]
    exact fun hc => h.carrier (hcarrier hc)

theorem watchdog_step (h : Consistent s) (p : Port) (late : Bool) :
    Consistent (s.ixgbeWatchdogSubtask p late) ∧
      ((s.ixgbeWatchdogSubtask p late).Lost ↔
        s.Lost ∧ (s.ixgbeWatchdogSubtask p late).seesLink = true) := by
  obtain ⟨up, hport, hother, hlink, hcarrier⟩ := s.watchdog_spec p late
  have hiwa := h.linkUp
  have hsees := h.carrier
  generalize s.ixgbeWatchdogSubtask p late = t at hport hother hlink hcarrier
  -- everything is a matter of the flags of the two ports, `iwa->link_up` and the carrier
  have hconsistent : Consistent t ↔
      t.linkUp = t.seesLink ∧ (t.carrier = true → t.seesLink = true) :=
    ⟨fun h => ⟨h.linkUp, h.carrier⟩, fun h => ⟨h.1, h.2⟩⟩
  rw [hconsistent]
  unfold Lost
  rw [seesLink_eq s p] at hiwa hsees ⊢
  rw [seesLink_eq t p, hport, hother, hlink, hcarrier, hiwa]
  have hflags : ∀ a b c up : Bool, (c = true → (a || b) = true) →
      ((if up = a then a || b else up || b && (a || b)) = (up || b) ∧
        ((if up = a then c else if up then c || !(a || b) else b && c) = true →
          (up || b) = true)) ∧
      ((up || b) = true ∧ (if up = a then c else if up then c || !(a || b) else b && c) = false ↔
        ((a || b) = true ∧ c = false) ∧ (up || b) = true) := by
    decide
  exact hflags _ _ _ _ hsees

theorem other_step (h : Consistent s) (henabled : s.Enabled op)
    (hop : ∀ p late, op ≠ .watchdog p late) :
    Consistent (s.exec op) ∧
      ((s.exec op).Lost ↔ (s.CutsCarrier op ∨ s.Lost) ∧ (s.exec op).seesLink = true) := by
  obtain ⟨hsame, hcut, hno⟩ := exec_spec henabled hop
  by_cases hcuts : s.CutsCarrier op
  · refine ⟨h.sameLinks hsame fun hc => ?_, ?_⟩
    · rw [hcut hcuts] at hc
      cases hc
    · simp [Lost, hcut hcuts, hcuts]
  · refine ⟨h.sameLinks hsame fun hc => hno hcuts ▸ hc, ?_⟩
    unfold Lost
    rw [hno hcuts, or_iff_right hcuts, hsame.seesLink]
    exact ⟨fun hl => ⟨hl, hl.1⟩, fun hl => hl.1⟩

/-- **One step.** The carrier is lost if it is turned off, or was lost before, and a port still
    sees a link. -/
theorem carrier_step (h : Consistent s) (hstep : CarrierStep s op t) :
    Consistent t ∧ (t.Lost ↔ (s.CutsCarrier op ∨ s.Lost) ∧ t.seesLink = true) := by
  obtain ⟨henabled, rfl⟩ := hstep
  cases op with
  | watchdog p late =>
    obtain ⟨hkeep, hlost⟩ := watchdog_step h p late
    refine ⟨hkeep, hlost.trans (and_congr_left' ?_)⟩
    exact ⟨.inr, fun hor => hor.resolve_left id⟩
  | openDev | closeDev | reinit | setLink => exact other_step h henabled nofun

instance (s : CardLink) : DecidablePred s.Enabled
  | .openDev _ => .isTrue trivial
  | .closeDev => .isTrue trivial
  | .reinit p => inferInstanceAs (Decidable ((s.port p).down = false))
  | .setLink .. => .isTrue trivial
  | .watchdog .. => .isTrue trivial

instance (s : CardLink) : Decidable s.Settled :=
  inferInstanceAs (Decidable (s.opened = true ∧ ∀ p, (s.port p).settled = true))

def next? (s : CardLink) (op : CarrierOp) : Option CardLink :=
  if s.Enabled op then some (s.exec op) else none

theorem next?_eq_some_iff (s : CardLink) (op : CarrierOp) (t : CardLink) :
    s.next? op = some t ↔ CarrierStep s op t := by
  unfold next? CarrierStep
  split
  · next h => simp [h, eq_comm]
  · next h => simp [h]

/-- **The carrier** follows the ports, once their watchdogs have run, unless it was turned off
    with a `link_up` set and one was set ever since. -/
theorem carrier_follows_iff {ops : List CarrierOp} (hrun : Run CarrierStep {} ops t) :
    t.CarrierFollows ↔
      (t.Settled → ¬Since CarrierStep CutsCarrier (fun s => s.seesLink = true) {} ops) := by
  have hstart : Consistent {} := ⟨rfl, nofun⟩
  have hkeep : ∀ a op b, Consistent a → CarrierStep a op b → Consistent b :=
    fun a op b ha hab => (carrier_step ha hab).1
  have hend : Consistent t := hrun.invariant hkeep hstart
  rw [hend.carrierFollows_iff]
  refine forall_congr' fun _ => not_congr ?_
  refine since_iff (T := CarrierStep) (I := Consistent) (fun _ _ _ _ h h' => CarrierStep.unique h h')
    (fun _ _ _ h hstep => carrier_step h hstep) hrun hstart ?_
  exact fun hlost => nomatch hlost.1

def lossRun : List CarrierOp :=
  [.openDev fun _ => .opens, .setLink .primary true, .setLink .secondary true,
    .watchdog .primary false, .watchdog .secondary false, .setLink .secondary false,
    .watchdog .secondary false, .watchdog .primary false]

theorem carrier_follows_lossRun :
    ¬Since CarrierStep CutsCarrier (fun s => s.seesLink = true) {} lossRun := by
  obtain ⟨t, ht, hsettled, hcarrier, hlink⟩ : ∃ t, Run.exec next? {} lossRun = some t ∧ t.Settled ∧
      t.carrier = t.seesLink ∧ t.linkUp = t.seesLink :=
    ⟨_, rfl, by decide, by decide, by decide⟩
  have hrun := (Run.exec_eq_some_iff next?_eq_some_iff).mp ht
  exact (carrier_follows_iff hrun).mp (fun _ => ⟨hcarrier, hlink⟩) hsettled

def resetRun : List CarrierOp :=
  [.openDev fun _ => .opens, .setLink .primary true, .setLink .secondary true,
    .watchdog .primary false, .watchdog .secondary false, .reinit .primary,
    .watchdog .primary false, .watchdog .secondary false]

theorem carrier_lost_resetRun :
    ∃ t, Run CarrierStep {} resetRun t ∧ t.Settled ∧ t.linkUp = true ∧ t.carrier = false ∧
      ¬t.CarrierFollows := by
  obtain ⟨t, ht, hsettled, hcarrier, hlink, hsees⟩ : ∃ t, Run.exec next? {} resetRun = some t ∧
      t.Settled ∧ t.carrier = false ∧ t.linkUp = true ∧ t.seesLink = true :=
    ⟨_, rfl, by decide, by decide, by decide, by decide⟩
  refine ⟨t, (Run.exec_eq_some_iff next?_eq_some_iff).mp ht, hsettled, hlink, hcarrier, ?_⟩
  intro hfollows
  have heq := (hfollows hsettled).1
  rw [hcarrier, hsees] at heq
  cases heq

end CardLink

end VmkDrivers.Wfs
