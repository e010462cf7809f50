/-
  VmkDrivers.Wfs.Statistics

  The statistics of the interface (`ixgbe_update_stats`, `ixgbe_get_stats`), as
  compiled for Linux 2.6.18, without `HAVE_NETDEV_STATS_IN_NETDEV`.

  Both ports count into the `net_stats` of the primary: the update of the
  primary sets the counters and the one of the secondary adds what its rings
  counted since they were made.  An update of the secondary after another thus
  counts the same frames again, and one of the primary drops what the secondary
  had (`net_stats_sum_iff`).

  Of the hardware statistics there is what gets into `net_stats`.
-/

import VmkDrivers.Wfs.Defs

namespace VmkDrivers.Wfs

/-! ## Counters -/

/-- `struct ixgbe_queue_stats`. -/
structure QueueStats where
  packets : UInt64 := 0
  bytes : UInt64 := 0

/-- The counters of `struct ixgbe_hw_stats` that are used here. -/
structure HwStats where
  crcerrs : UInt64 := 0
  mpc : Vector UInt64 8 := Vector.replicate 8 0
  mprc : UInt64 := 0
  rlec : UInt64 := 0

structure StatsRegs where
  crcerrs : UInt32 := 0
  mpc : Vector UInt32 8 := Vector.replicate 8 0
  bprc : UInt32 := 0
  mprc : UInt32 := 0
  rlec : UInt32 := 0

/-- `struct net_device_stats`. -/
structure NetStats where
  rxPackets : UInt64 := 0
  txPackets : UInt64 := 0
  rxBytes : UInt64 := 0
  txBytes : UInt64 := 0
  multicast : UInt64 := 0
  rxErrors : UInt64 := 0
  rxDropped : UInt64 := 0
  rxLengthErrors : UInt64 := 0
  rxCrcErrors : UInt64 := 0
  rxMissedErrors : UInt64 := 0

structure StatsAdapter where
  down : Bool := false
  resetting : Bool := false
  macType : MacType := .mac82599EB
  rxRing : List QueueStats := []
  txRing : List QueueStats := []
  stats : HwStats := {}

/-! ## The update -/

def StatsAdapter.readHw (adapter : StatsAdapter) (regs : StatsRegs) : HwStats where
  crcerrs := adapter.stats.crcerrs + regs.crcerrs.toUInt64
  mpc := adapter.stats.mpc.zipWith (fun old new => old + new.toUInt64) regs.mpc
  mprc :=
    let mprc := adapter.stats.mprc + regs.mprc.toUInt64
    if adapter.macType = .mac82598EB then mprc - regs.bprc.toUInt64 else mprc
  rlec := adapter.stats.rlec + regs.rlec.toUInt64

abbrev StatsAdapter.Skips (adapter : StatsAdapter) : Prop :=
  adapter.down = true ∨ adapter.resetting = true

/-- `ixgbe_update_stats`, with the `net_stats` of the primary. -/
def StatsAdapter.ixgbeUpdateStats (adapter : StatsAdapter) (isWfsPrimary : Bool)
    (regs : StatsRegs) (netStats : NetStats) : StatsAdapter × NetStats :=
  if adapter.Skips then (adapter, netStats)
  else
    let bytes := (adapter.rxRing.map QueueStats.bytes).sum
    let packets := (adapter.rxRing.map QueueStats.packets).sum
    let netStats :=
      if isWfsPrimary then { netStats with rxBytes := bytes, rxPackets := packets }
      else { netStats with
        rxBytes := netStats.rxBytes + bytes, rxPackets := netStats.rxPackets + packets }
    let bytes := (adapter.txRing.map QueueStats.bytes).sum
    let packets := (adapter.txRing.map QueueStats.packets).sum
    let netStats :=
      if isWfsPrimary then { netStats with txBytes := bytes, txPackets := packets }
      else { netStats with
        txBytes := netStats.txBytes + bytes, txPackets := netStats.txPackets + packets }
    let hwstats := adapter.readHw regs
    let totalMpc := hwstats.mpc.toList.sum
    let netStats :=
      if isWfsPrimary then { netStats with
        multicast := hwstats.mprc
        rxErrors := hwstats.crcerrs + hwstats.rlec
        rxDropped := 0
        rxLengthErrors := hwstats.rlec
        rxCrcErrors := hwstats.crcerrs
        rxMissedErrors := totalMpc }
      else { netStats with
        multicast := netStats.multicast + hwstats.mprc
        rxErrors := netStats.rxErrors + (hwstats.crcerrs + hwstats.rlec)
        rxDropped := 0
        rxLengthErrors := netStats.rxLengthErrors + hwstats.rlec
        rxCrcErrors := netStats.rxCrcErrors + hwstats.crcerrs
        rxMissedErrors := netStats.rxMissedErrors + totalMpc }
    ({ adapter with stats := hwstats }, netStats)

/-! ## Totals -/

/-- Bytes and packets, received and sent. -/
@[ext]
structure Totals where
  rxBytes : UInt64
  rxPackets : UInt64
  txBytes : UInt64
  txPackets : UInt64
deriving DecidableEq

namespace Totals

instance : Zero Totals := ⟨⟨0, 0, 0, 0⟩⟩

instance : Add Totals :=
  ⟨fun a b => ⟨a.rxBytes + b.rxBytes, a.rxPackets + b.rxPackets, a.txBytes + b.txBytes,
    a.txPackets + b.txPackets⟩⟩

theorem add_zero (a : Totals) : a + 0 = a := by
  apply Totals.ext <;> exact UInt64.add_zero _

theorem add_assoc (a b c : Totals) : a + b + c = a + (b + c) := by
  apply Totals.ext <;> exact UInt64.add_assoc ..

theorem add_comm (a b : Totals) : a + b = b + a := by
  apply Totals.ext <;> exact UInt64.add_comm ..

theorem add_left_cancel_iff (a b c : Totals) : a + b = a + c ↔ b = c := by
  constructor
  · intro h
    rw [Totals.ext_iff] at h ⊢
    exact ⟨(UInt64.add_right_inj _).mp h.1, (UInt64.add_right_inj _).mp h.2.1,
      (UInt64.add_right_inj _).mp h.2.2.1, (UInt64.add_right_inj _).mp h.2.2.2⟩
  · exact congrArg (a + ·)

end Totals

def StatsAdapter.totals (adapter : StatsAdapter) : Totals where
  rxBytes := (adapter.rxRing.map QueueStats.bytes).sum
  rxPackets := (adapter.rxRing.map QueueStats.packets).sum
  txBytes := (adapter.txRing.map QueueStats.bytes).sum
  txPackets := (adapter.txRing.map QueueStats.packets).sum

def NetStats.totals (net : NetStats) : Totals where
  rxBytes := net.rxBytes
  rxPackets := net.rxPackets
  txBytes := net.txBytes
  txPackets := net.txPackets

variable {adapter : StatsAdapter}

/-- **The update** of the primary sets the counters, the one of the secondary adds to them. -/
theorem StatsAdapter.ixgbeUpdateStats_totals (h : ¬adapter.Skips) (isWfsPrimary : Bool)
    (regs : StatsRegs) (net : NetStats) :
    (adapter.ixgbeUpdateStats isWfsPrimary regs net).2.totals =
      if isWfsPrimary then adapter.totals else net.totals + adapter.totals := by
  unfold StatsAdapter.ixgbeUpdateStats
  rw [if_neg h]
  cases isWfsPrimary <;> rfl

theorem StatsAdapter.ixgbeUpdateStats_skips (h : adapter.Skips) (isWfsPrimary : Bool)
    (regs : StatsRegs) (net : NetStats) :
    adapter.ixgbeUpdateStats isWfsPrimary regs net = (adapter, net) := by
  rw [StatsAdapter.ixgbeUpdateStats, if_pos h]

/-! ## The two ports -/

structure CardStats where
  adapter : Port → StatsAdapter
  netStats : NetStats := {}
  /-- The totals that the latest update of a port has read. -/
  latest : Port → Option Totals := fun _ => none
  /-- The totals that the secondary's updates have read since the latest one of the primary. -/
  readSince : List Totals := []

inductive StatsOp where
  /-- A call of `ixgbe_update_stats`, from the watchdog of the port or `ixgbe_get_stats`. -/
  | update (p : Port) (regs : StatsRegs)
  /-- The rings count, or are made anew. -/
  | count (p : Port) (rxRing txRing : List QueueStats)
  | setBits (p : Port) (down resetting : Bool)

namespace CardStats

/-- `ixgbe_update_stats` of the port `p`. -/
def ixgbeUpdateStats (s : CardStats) (p : Port) (regs : StatsRegs) : CardStats :=
  let (adapter, netStats) := (s.adapter p).ixgbeUpdateStats (p = .primary) regs s.netStats
  let s := { s with adapter := Function.update s.adapter p adapter, netStats }
  if adapter.Skips then s
  else { s with
    latest := Function.update s.latest p (some adapter.totals)
    readSince := if p = .primary then [] else adapter.totals :: s.readSince }

def ixgbeGetStats (s : CardStats) (regs : Port → StatsRegs) : CardStats :=
  (s.ixgbeUpdateStats .primary (regs .primary)).ixgbeUpdateStats .secondary (regs .secondary)

def exec (s : CardStats) : StatsOp → CardStats
  | .update p regs => s.ixgbeUpdateStats p regs
  | .count p rxRing txRing =>
    { s with adapter := Function.update s.adapter p { s.adapter p with rxRing, txRing } }
  | .setBits p down resetting =>
    { s with adapter := Function.update s.adapter p { s.adapter p with down, resetting } }

/-- The statistics after `ops`. -/
def after (adapter : Port → StatsAdapter) (ops : List StatsOp) : CardStats :=
  ops.foldl exec { adapter }

/-- The counters are the sum of what the two latest updates have read, if both ports had one. -/
def NetIsSum (s : CardStats) : Prop :=
  ∀ pri sec, s.latest .primary = some pri → s.latest .secondary = some sec →
    s.netStats.totals = pri + sec

/-- What the secondary's updates have read since the latest one of the primary is what the latest
    of them has: there was one only, or the others add nothing. -/
def ReadOnce (s : CardStats) : Prop :=
  ∀ pri sec, s.latest .primary = some pri → s.latest .secondary = some sec →
    s.readSince.sum = sec

/-! ## What the counters are -/

/-- The invariant: the counters are what the primary has read and all that the secondary has read
    since. -/
def CountsAll (s : CardStats) : Prop :=
  ∀ pri, s.latest .primary = some pri → s.netStats.totals = pri + s.readSince.sum

variable {s : CardStats}

theorem ixgbeUpdateStats_skips {p : Port} (h : (s.adapter p).Skips) (regs : StatsRegs) :
    s.ixgbeUpdateStats p regs = s := by
  unfold ixgbeUpdateStats
  rw [StatsAdapter.ixgbeUpdateStats_skips h]
  simp only [if_pos h, Function.update_eq_self]

theorem ixgbeUpdateStats_other (s : CardStats) (p : Port) (regs : StatsRegs) :
    (s.ixgbeUpdateStats p regs).adapter p.other = s.adapter p.other := by
  unfold ixgbeUpdateStats
  dsimp only
  split <;> exact Function.update_of_ne p.other_ne _ _

theorem ixgbeUpdateStats_reads {p : Port} (h : ¬(s.adapter p).Skips) (regs : StatsRegs) :
    let t := s.ixgbeUpdateStats p regs
    t.netStats.totals =
        (if p = .primary then (s.adapter p).totals
          else s.netStats.totals + (s.adapter p).totals) ∧
      t.latest = Function.update s.latest p (some (s.adapter p).totals) ∧
      t.readSince = if p = .primary then [] else (s.adapter p).totals :: s.readSince := by
  -- the update leaves the bits and the rings of the adapter alone
  have hsame : ∀ b net, ((s.adapter p).ixgbeUpdateStats b regs net).1 =
      { s.adapter p with stats := (s.adapter p).readHw regs } := by
    intro b net
    rw [StatsAdapter.ixgbeUpdateStats, if_neg h]
  have htotals := StatsAdapter.ixgbeUpdateStats_totals h (decide (p = .primary)) regs s.netStats
  simp only [decide_eq_true_eq] at htotals
  have hno : ¬StatsAdapter.Skips { s.adapter p with stats := (s.adapter p).readHw regs } := h
  unfold ixgbeUpdateStats
  simp only [hsame, if_neg hno]
  exact ⟨htotals, rfl, rfl⟩

/-- **One update** keeps the invariant, whatever the other port did. -/
theorem CountsAll.update (h : CountsAll s) (p : Port) (regs : StatsRegs) :
    CountsAll (s.ixgbeUpdateStats p regs) := by
  by_cases hskip : (s.adapter p).Skips
  · rw [ixgbeUpdateStats_skips hskip]
    exact h
  · obtain ⟨hnet, hlatest, hsince⟩ := ixgbeUpdateStats_reads hskip regs
    intro pri hpri
    rw [hlatest] at hpri
    rw [hnet, hsince]
    cases p with
    | primary =>
      rw [Function.update_self] at hpri
      rw [if_pos rfl, if_pos rfl, Option.some.inj hpri]
      exact (Totals.add_zero pri).symm
    | secondary =>
      rw [Function.update_of_ne (by decide)] at hpri
      rw [if_neg (by decide), if_neg (by decide), h pri hpri, List.sum_cons, Totals.add_assoc,
        Totals.add_comm (List.sum _)]

theorem CountsAll.exec (h : CountsAll s) (op : StatsOp) : CountsAll (s.exec op) := by
  cases op with
  | update p regs => exact h.update p regs
  | count p rxRing txRing => exact h
  | setBits p down resetting => exact h

theorem countsAll_after (adapter : Port → StatsAdapter) (ops : List StatsOp) :
    CountsAll (after adapter ops) := by
  have hstart : CountsAll { adapter } := nofun
  unfold after
  generalize ({ adapter } : CardStats) = s at hstart
  induction ops generalizing s with
  | nil => exact hstart
  | cons op ops ih => exact ih _ (hstart.exec op)

theorem ixgbeGetStats_sum (h : ∀ p, ¬(s.adapter p).Skips) (regs : Port → StatsRegs) :
    (s.ixgbeGetStats regs).netStats.totals =
      (s.adapter .primary).totals + (s.adapter .secondary).totals := by
  have hother := s.ixgbeUpdateStats_other .primary (regs .primary)
  rw [Port.other] at hother
  have hpri := (ixgbeUpdateStats_reads (h .primary) (regs .primary)).1
  have hsec := ixgbeUpdateStats_reads (s := s.ixgbeUpdateStats .primary (regs .primary))
    (p := .secondary) (by rw [hother]; exact h .secondary) (regs .secondary)
  rw [ixgbeGetStats, hsec.1, if_neg (by decide), hpri, if_pos rfl, hother]

/-- **The counters** are the sum of the two ports exactly if what the secondary has read since
    the primary's latest update is what it has read in its own latest. -/
theorem net_stats_sum_iff (adapter : Port → StatsAdapter) (ops : List StatsOp) :
    (after adapter ops).NetIsSum ↔ (after adapter ops).ReadOnce := by
  have hall := countsAll_after adapter ops
  refine forall₂_congr fun pri sec => ?_
  refine forall₂_congr fun hpri _ => ?_
  rw [hall pri hpri]
  exact Totals.add_left_cancel_iff ..

/-- The watchdog of the secondary runs twice after the one of the primary. -/
theorem net_stats_not_sum :
    ¬(after (fun _ => {}) [.count .primary [⟨1, 100⟩] [], .count .secondary [⟨1, 60⟩] [],
      .update .primary {}, .update .secondary {}, .update .secondary {}]).NetIsSum := by
  intro h
  have hsum := h ⟨100, 1, 0, 0⟩ ⟨60, 1, 0, 0⟩ (by decide) (by decide)
  exact absurd hsum (by decide)

end CardStats

end VmkDrivers.Wfs
