/-
  VmkDrivers.Wfs.BertCommand

  The `bert` command of `wfsctl` (`cmd_bert`, `getnum`, `getbw`).

  Each argument is read as far as its number goes, and only the number is
  tested.  What is sent to the driver is the test that was typed exactly if the
  arguments are numerals throughout and the pattern and the bandwidth fit their
  fields (`cmd_bert_iff`).

  A `long` has 64 bits, and the product with the unit of a bandwidth wraps
  around in them.
-/

import VmkDrivers.Lib.Strtol
import VmkDrivers.Wfs.BertStart

namespace VmkDrivers.Wfs

open VmkDrivers.Lib

/-! ## Numbers -/

/-- The test for an error behind `strtol`, in `getnum` and in `getbw`. -/
def Strtol.failed (r : Strtol) : Bool :=
  r.erange ∧ (r.val = longMax 64 ∨ r.val = longMin 64) ∨ r.erange ∧ r.val = 0

def getnum (str : List Char) (base : Nat) : Int :=
  let r := strtol 64 base str
  if Strtol.failed r then -1 else r.val

/-- The unit in `getbw`, by the character behind the number. -/
def bwUnit (endptr : List Char) : Nat :=
  if endptr.head? = some 'k' ∨ endptr.head? = some 'K' then 1000
  else if endptr.head? = some 'm' ∨ endptr.head? = some 'M' then 1000000
  else if endptr.head? = some 'g' ∨ endptr.head? = some 'G' then 1000000000
  else 1

def getbw (str : List Char) : Int :=
  let r := strtol 64 10 str
  if Strtol.failed r then -1 else ((r.val * bwUnit r.endptr).bmod (2 ^ 64)).tdiv 8

/-- A number that a `long` holds. -/
def FitsLong (n : Int) : Prop := longMin 64 ≤ n ∧ n ≤ longMax 64

instance (n : Int) : Decidable (FitsLong n) :=
  inferInstanceAs (Decidable (longMin 64 ≤ n ∧ n ≤ longMax 64))

variable (str : List Char) (x : Int)

theorem failed_iff (base : Nat) :
    Strtol.failed (strtol 64 base str) ↔ ¬FitsLong (lead base str) := by
  unfold Strtol.failed
  rw [decide_eq_true_iff]
  constructor
  · intro herr hfits
    rw [strtol_of_fits hfits.1 hfits.2] at herr
    simp at herr
  · intro hcut
    obtain ⟨herange, hval⟩ := strtol_of_not_fits hcut
    exact .inl ⟨herange, hval⟩

theorem getnum_eq (base : Nat) :
    getnum str base = if FitsLong (lead base str) then lead base str else -1 := by
  unfold getnum
  by_cases hfits : FitsLong (lead base str)
  · rw [if_neg (mt (failed_iff str base).mp (not_not_intro hfits)), if_pos hfits,
      strtol_of_fits hfits.1 hfits.2]
  · -- a number that is cut is never zero, so the second half of the test is idle
    rw [if_pos ((failed_iff str base).mpr hfits), if_neg hfits]

theorem getbw_eq :
    getbw str = if FitsLong (lead 10 str) then
        ((lead 10 str * bwUnit (behind 10 str)).bmod (2 ^ 64)).tdiv 8
      else -1 := by
  unfold getbw
  by_cases hfits : FitsLong (lead 10 str)
  · rw [if_neg (mt (failed_iff str 10).mp (not_not_intro hfits)), if_pos hfits,
      strtol_of_fits hfits.1 hfits.2]
  · rw [if_pos ((failed_iff str 10).mpr hfits), if_neg hfits]

/-! ## The command -/

/-- The arguments of `bert`; an interval is given to `bert interval` only. -/
structure BertArgs where
  wfsid : List Char
  pattern : List Char
  size : List Char
  bandwidth : List Char
  interval : Option (List Char) := none

def refuseIf (bad : Prop) [Decidable bad] (what : String) (arg : List Char) :
    Except String Unit :=
  if bad then .error ("ERROR: invalid " ++ what ++ " '" ++ String.ofList arg ++ "'.\n")
  else .ok ()

def patternBase : List Char → Nat × List Char
  | '0' :: 'x' :: p => (16, p)
  | '0' :: p => (8, p)
  | 'b' :: p => (2, p)
  | p => (10, p)

/-- `rand`, as a pattern. -/
def patternRand : List Char := ['r', 'a', 'n', 'd']

/-- `pkt_pattern_flag`, and the value of the pattern; `rand` is what `rand()` returns. -/
def patternArg (rand : Nat) (arg : List Char) : Except String (UInt8 × Int) :=
  if arg = patternRand then .ok (1, rand % 256)
  else do
    let (base, p) := patternBase arg
    let val := getnum p base
    refuseIf (val < 0) "pattern" arg
    pure (0, val)

/-- The fifth argument, where there is one (`argc == 5`). -/
def intervalArg : Option (List Char) → Except String Unit
  | some arg => refuseIf (getnum arg 10 ≤ 0) "interval" arg
  | none => .ok ()

/-- `cmd_bert`, up to its first request: the configuration that `WFSCTL_SET_BERT_CFG` hands
    over, or the message for the argument that is refused. -/
def cmdBert (rand : Nat) (argv : BertArgs) : Except String WfsctlBertCfg := do
  let wfsid := getnum argv.wfsid 10
  refuseIf (wfsid < 0 ∨ wfsid < wfsidMin.toNat ∨ wfsid > wfsidMax.toNat) "wfsid" argv.wfsid
  let (flag, pattern) ← patternArg rand argv.pattern
  let size := getnum argv.size 10
  refuseIf (size ≤ 0 ∨ size > bertDataSizeMax) "data size" argv.size
  let bandwidth := getbw argv.bandwidth
  refuseIf (bandwidth ≤ 0) "bandwidth" argv.bandwidth
  intervalArg argv.interval
  pure
    { onoff := 1
      wfsid := UInt8.ofInt wfsid
      pktPatternFlag := flag
      pktPattern := UInt8.ofInt pattern
      pktSize := (UInt16.ofInt size).toUInt32
      bandwidth := UInt32.ofInt bandwidth }

/-! ## What was typed -/

inductive PatternNumeral : List Char → Nat → Prop
  | hex {s : List Char} {v : Nat} (h : Numeral 16 s v) : PatternNumeral ('0' :: 'x' :: s) v
  | oct {s : List Char} {v : Nat} (h : Numeral 8 ('0' :: s) v) : PatternNumeral ('0' :: s) v
  | bin {s : List Char} {v : Nat} (h : Numeral 2 s v) : PatternNumeral ('b' :: s) v
  | dec {s : List Char} {v : Nat} (h_zero : s.head? ≠ some '0') (h : Numeral 10 s v) :
      PatternNumeral s v

def bwSuffixes : List (List Char × Nat) :=
  [([], 1), (['k'], 1000), (['K'], 1000), (['m'], 1000000), (['M'], 1000000),
    (['g'], 1000000000), (['G'], 1000000000)]

inductive BandwidthNumeral : List Char → Nat → Prop
  | mk {s t : List Char} {n unit : Nat} (h : Numeral 10 s n) (h_unit : (t, unit) ∈ bwSuffixes) :
      BandwidthNumeral (s ++ t) (n * unit / 8)

structure BertArgs.Denotes (rand : Nat) (argv : BertArgs) (cfg : WfsctlBertCfg) : Prop where
  onoff : cfg.onoff = 1
  wfsid : Numeral 10 argv.wfsid cfg.wfsid.toNat
  pattern : if argv.pattern = patternRand then
      cfg.pktPatternFlag = 1 ∧ cfg.pktPattern.toNat = rand % 256
    else cfg.pktPatternFlag = 0 ∧ PatternNumeral argv.pattern cfg.pktPattern.toNat
  size : Numeral 10 argv.size cfg.pktSize.toNat
  size_range : 1 ≤ cfg.pktSize.toNat ∧ cfg.pktSize.toNat ≤ bertDataSizeMax
  bandwidth : BandwidthNumeral argv.bandwidth cfg.bandwidth.toNat
  interval : ∀ arg ∈ argv.interval, ∃ n, Numeral 10 arg n

/-- The test that is sent is the test that was typed, and what denotes no test is refused. -/
def BertArgs.SendsTyped (argv : BertArgs) : Prop :=
  ∀ rand, (∀ cfg, cmdBert rand argv = .ok cfg → argv.Denotes rand cfg) ∧
    ((¬∃ cfg, argv.Denotes rand cfg) → ∃ e, cmdBert rand argv = .error e)

/-! ## What is tested -/

def patternLead (arg : List Char) : Int := lead (patternBase arg).1 (patternBase arg).2

def bandwidthBits (arg : List Char) : Int := lead 10 arg * bwUnit (behind 10 arg)

structure BertArgs.LeadsPass (argv : BertArgs) : Prop where
  wfsid : wfsidMin.toNat ≤ lead 10 argv.wfsid ∧ lead 10 argv.wfsid ≤ wfsidMax.toNat
  pattern : argv.pattern ≠ patternRand →
    0 ≤ patternLead argv.pattern ∧ patternLead argv.pattern ≤ longMax 64
  size : 0 < lead 10 argv.size ∧ lead 10 argv.size ≤ bertDataSizeMax
  bandwidth : FitsLong (lead 10 argv.bandwidth) ∧
    8 ≤ (bandwidthBits argv.bandwidth).bmod (2 ^ 64)
  interval : ∀ arg ∈ argv.interval, 0 < lead 10 arg ∧ lead 10 arg ≤ longMax 64

def BertArgs.leadCfg (rand : Nat) (argv : BertArgs) : WfsctlBertCfg where
  onoff := 1
  wfsid := UInt8.ofInt (lead 10 argv.wfsid)
  pktPatternFlag := if argv.pattern = patternRand then 1 else 0
  pktPattern :=
    UInt8.ofInt (if argv.pattern = patternRand then rand % 256 else patternLead argv.pattern)
  pktSize := (UInt16.ofInt (lead 10 argv.size)).toUInt32
  bandwidth := UInt32.ofInt (((bandwidthBits argv.bandwidth).bmod (2 ^ 64)).tdiv 8)

theorem longMin_eq : longMin 64 = -9223372036854775808 := by decide

variable {str arg : List Char} {base : Nat}

theorem getnum_of_nonneg (h : 0 ≤ getnum str base) :
    getnum str base = lead base str ∧ lead base str ≤ longMax 64 := by
  rw [getnum_eq] at h ⊢
  split_ifs at h ⊢ with hfits
  · exact ⟨rfl, hfits.2⟩
  · omega

theorem getnum_of_fits (h_min : 0 ≤ lead base str) (h_max : lead base str ≤ longMax 64) :
    getnum str base = lead base str := by
  rw [getnum_eq, if_pos]
  unfold FitsLong
  rw [longMin_eq]
  omega

theorem getnum_range_iff {lo hi : Int} (h_lo : 0 ≤ lo) (h_hi : hi ≤ longMax 64) :
    lo ≤ getnum str base ∧ getnum str base ≤ hi ↔ lo ≤ lead base str ∧ lead base str ≤ hi := by
  constructor
  · rintro ⟨hmin, hmax⟩
    obtain ⟨hlead, _⟩ := getnum_of_nonneg (by omega : 0 ≤ getnum str base)
    omega
  · rintro ⟨hmin, hmax⟩
    have hlead := getnum_of_fits (by omega : 0 ≤ lead base str) (by omega)
    omega

theorem tdiv_eight_pos_iff : 0 < x.tdiv 8 ↔ 8 ≤ x := by
  by_cases hx : 0 ≤ x
  · rw [Int.tdiv_eq_ediv_of_nonneg hx]
    omega
  · rw [← Int.neg_neg x, Int.neg_tdiv, Int.tdiv_eq_ediv_of_nonneg (by omega)]
    omega

theorem getbw_pos_iff (str : List Char) :
    0 < getbw str ↔ FitsLong (lead 10 str) ∧ 8 ≤ (bandwidthBits str).bmod (2 ^ 64) := by
  rw [getbw_eq]
  split_ifs with hfits
  · simp only [hfits, true_and]
    exact tdiv_eight_pos_iff _
  · simp only [hfits, false_and, iff_false]
    omega

theorem getbw_of_fits (h : FitsLong (lead 10 str)) :
    getbw str = ((bandwidthBits str).bmod (2 ^ 64)).tdiv 8 := by
  rw [getbw_eq, if_pos h]
  rfl

theorem refuseIf_eq_ok {bad : Prop} [Decidable bad] {what : String} {u : Unit} :
    refuseIf bad what arg = .ok u ↔ ¬bad := by
  unfold refuseIf
  split <;> simp_all

theorem patternArg_eq_ok {rand : Nat} {flag : UInt8} {val : Int} :
    patternArg rand arg = .ok (flag, val) ↔
      (arg ≠ patternRand → 0 ≤ patternLead arg ∧ patternLead arg ≤ longMax 64) ∧
        flag = (if arg = patternRand then 1 else 0) ∧
        val = if arg = patternRand then ((rand % 256 : Nat) : Int) else patternLead arg := by
  unfold patternArg
  by_cases hrand : arg = patternRand
  · simp [hrand, eq_comm]
  · simp only [hrand, if_false, bind_eq_ok, refuseIf_eq_ok]
    constructor
    · rintro ⟨_, hval, heq⟩
      cases heq
      obtain ⟨hlead, hmax⟩ := getnum_of_nonneg (Int.not_lt.mp hval)
      refine ⟨fun _ => ⟨?_, hmax⟩, rfl, hlead⟩
      unfold patternLead
      omega
    · rintro ⟨hrange, rfl, rfl⟩
      obtain ⟨hmin, hmax⟩ := hrange hrand
      have hlead := getnum_of_fits hmin hmax
      unfold patternLead at hmin
      refine ⟨(), by omega, ?_⟩
      rw [hlead]
      rfl

theorem wfsid_test_iff (arg : List Char) :
    ¬(getnum arg 10 < 0 ∨ getnum arg 10 < wfsidMin.toNat ∨ getnum arg 10 > wfsidMax.toNat) ↔
      wfsidMin.toNat ≤ lead 10 arg ∧ lead 10 arg ≤ wfsidMax.toNat := by
  rw [← getnum_range_iff (by decide) (by decide)]
  omega

theorem size_test_iff (arg : List Char) :
    ¬(getnum arg 10 ≤ 0 ∨ getnum arg 10 > bertDataSizeMax) ↔
      0 < lead 10 arg ∧ lead 10 arg ≤ bertDataSizeMax := by
  have hrange : 1 ≤ getnum arg 10 ∧ getnum arg 10 ≤ bertDataSizeMax ↔
      1 ≤ lead 10 arg ∧ lead 10 arg ≤ bertDataSizeMax :=
    getnum_range_iff (by decide) (by decide)
  omega

theorem getnum_wfsid (h : wfsidMin.toNat ≤ lead 10 arg ∧ lead 10 arg ≤ wfsidMax.toNat) :
    getnum arg 10 = lead 10 arg := by
  apply getnum_of_fits
  · omega
  · exact le_trans h.2 (by decide)

theorem getnum_size (h : 0 < lead 10 arg ∧ lead 10 arg ≤ bertDataSizeMax) :
    getnum arg 10 = lead 10 arg := by
  apply getnum_of_fits
  · omega
  · exact le_trans h.2 (by decide)

theorem intervalArg_eq_ok {interval : Option (List Char)} {u : Unit} :
    intervalArg interval = .ok u ↔
      ∀ arg ∈ interval, 0 < lead 10 arg ∧ lead 10 arg ≤ longMax 64 := by
  cases interval with
  | none => simp [intervalArg]
  | some arg =>
    simp only [intervalArg, refuseIf_eq_ok, Option.mem_def, Option.some.injEq, forall_eq',
      Int.not_le]
    constructor
    · intro hpos
      obtain ⟨hlead, hmax⟩ := getnum_of_nonneg (by omega : 0 ≤ getnum arg 10)
      exact ⟨by omega, hmax⟩
    · rintro ⟨hpos, hmax⟩
      rw [getnum_of_fits (by omega) hmax]
      exact hpos

/-- **What the command sends** is made of the numbers at the front of its arguments. -/
theorem cmdBert_eq_ok {rand : Nat} {argv : BertArgs} {cfg : WfsctlBertCfg} :
    cmdBert rand argv = .ok cfg ↔ argv.LeadsPass ∧ argv.leadCfg rand = cfg := by
  unfold cmdBert
  simp only [bind_eq_ok, refuseIf_eq_ok, intervalArg_eq_ok]
  constructor
  · rintro ⟨_, hwfsid, ⟨flag, pattern⟩, hpattern, _, hsize, _, hbandwidth, _, hinterval, heq⟩
    obtain ⟨hrange, rfl, rfl⟩ := patternArg_eq_ok.mp hpattern
    have hbw := (getbw_pos_iff _).mp (Int.not_le.mp hbandwidth)
    have hid := (wfsid_test_iff _).mp hwfsid
    have hlen := (size_test_iff _).mp hsize
    refine ⟨⟨hid, hrange, hlen, hbw, hinterval⟩, ?_⟩
    rw [← Except.ok.inj heq, getnum_wfsid hid, getnum_size hlen, getbw_of_fits hbw.1]
    rfl
  · rintro ⟨⟨hid, hpattern, hlen, hbw, hinterval⟩, rfl⟩
    refine ⟨(), (wfsid_test_iff _).mpr hid, (_, _), patternArg_eq_ok.mpr ⟨hpattern, rfl, rfl⟩,
      (), (size_test_iff _).mpr hlen, (), ?_, (), hinterval, ?_⟩
    · exact Int.not_le.mpr ((getbw_pos_iff _).mpr hbw)
    · rw [getnum_wfsid hid, getnum_size hlen, getbw_of_fits hbw.1]
      rfl

/-! ## Numerals throughout -/

def PlainPattern (arg : List Char) : Prop :=
  IsNumeral (patternBase arg).1 (patternBase arg).2 ∨
    ((patternBase arg).1 = 8 ∧ (patternBase arg).2 = [])

def PlainBandwidth (arg : List Char) : Prop :=
  IsNumeral 10 (arg.takeWhile (isDigitOf 10)) ∧
    arg.dropWhile (isDigitOf 10) ∈ bwSuffixes.map Prod.fst

/-- Numerals throughout, with a pattern and a bandwidth that fit their fields. -/
structure BertArgs.Plain (argv : BertArgs) : Prop where
  wfsid : IsNumeral 10 argv.wfsid
  pattern : argv.pattern ≠ patternRand →
    PlainPattern argv.pattern ∧ patternLead argv.pattern < 2 ^ 8
  size : IsNumeral 10 argv.size
  bandwidth : PlainBandwidth argv.bandwidth ∧ bandwidthBits argv.bandwidth / 8 < 2 ^ 32
  interval : ∀ arg ∈ argv.interval, IsNumeral 10 arg

theorem patternNumeral_iff {v : Nat} :
    PatternNumeral arg v ↔ PlainPattern arg ∧ patternLead arg = v := by
  unfold PlainPattern patternLead
  have hnot {base : Nat} {s : List Char} {c : Char} (h : Numeral base s v) (hc : c ∈ s)
      (hd : isDigitOf base c = false) : False := by
    have := h.isNumeral.2 c hc
    rw [hd] at this
    cases this
  fun_cases patternBase arg with
  | case1 p =>
    have hiff : PatternNumeral ('0' :: 'x' :: p) v ↔ Numeral 16 p v := by
      constructor
      · intro h
        cases h with
        | hex h => exact h
        | oct h =>
          -- the mark is no octal digit
          exact (hnot h (by simp : 'x' ∈ _) (by decide)).elim
        | dec hzero h => exact absurd rfl hzero
      · exact .hex
    rw [hiff, numeral_iff_lead]
    simp
  | case2 p hx =>
    have hiff : PatternNumeral ('0' :: p) v ↔ Numeral 8 ('0' :: p) v := by
      constructor
      · intro h
        cases h with
        | hex h => exact (hx _ rfl).elim
        | oct h => exact h
        | dec hzero h => exact absurd rfl hzero
      · exact .oct
    rw [hiff, numeral_zero_cons_iff (by decide)]
    simp
  | case3 p =>
    have hiff : PatternNumeral ('b' :: p) v ↔ Numeral 2 p v := by
      constructor
      · intro h
        cases h with
        | bin h => exact h
        | dec hzero h =>
          -- nor is this mark a decimal one
          exact (hnot h List.mem_cons_self (by decide)).elim
      · exact .bin
    rw [hiff, numeral_iff_lead]
    simp
  | case4 p hhex hoct hbin =>
    have hiff : PatternNumeral arg v ↔ Numeral 10 arg v := by
      constructor
      · intro h
        cases h with
        | hex h => exact (hoct _ rfl).elim
        | oct h => exact (hoct _ rfl).elim
        | bin h => exact (hbin _ rfl).elim
        | dec hzero h => exact h
      · intro h
        refine .dec ?_ h
        intro hzero
        obtain ⟨s, hs⟩ := List.head?_eq_some_iff.mp hzero
        exact hoct s hs
    rw [hiff, numeral_iff_lead]
    simp

theorem bwSuffixes_read : ∀ u ∈ bwSuffixes,
    (∀ c ∈ u.1.head?, isDigitOf 10 c = false) ∧ bwUnit u.1 = u.2 := by
  intro u hu
  simp only [bwSuffixes, List.mem_cons, List.not_mem_nil, or_false] at hu
  rcases hu with rfl | rfl | rfl | rfl | rfl | rfl | rfl
  all_goals
    constructor
    · rintro c ⟨⟩
      all_goals rfl
    · rfl

theorem bandwidthBits_append {s t : List Char} {unit : Nat} (hs : IsNumeral 10 s)
    (h_unit : (t, unit) ∈ bwSuffixes) :
    bandwidthBits (s ++ t) = (digitsValue 10 s * unit : Nat) := by
  obtain ⟨hbreak, hread⟩ := bwSuffixes_read _ h_unit
  have hbase : (10 : Nat) = 16 → t = [] := fun h => absurd h (by decide)
  unfold bandwidthBits
  rw [lead_numeral hs hbreak hbase, behind_numeral hs hbreak hbase, hread, Int.natCast_mul]

theorem bandwidthNumeral_iff {v : Nat} :
    BandwidthNumeral arg v ↔ PlainBandwidth arg ∧ bandwidthBits arg / 8 = v := by
  constructor
  · rintro ⟨h, hunit⟩
    have hs := h.isNumeral
    obtain ⟨hbreak, _⟩ := bwSuffixes_read _ hunit
    refine ⟨⟨?_, ?_⟩, ?_⟩
    · rw [takeWhile_numeral hs hbreak]
      exact hs
    · rw [dropWhile_numeral hs hbreak]
      exact List.mem_map_of_mem hunit
    · rw [bandwidthBits_append hs hunit, h.digitsValue_eq]
      omega
  · rintro ⟨⟨hs, hsuffix⟩, hv⟩
    obtain ⟨⟨t, unit⟩, hunit, ht⟩ := List.mem_map.mp hsuffix
    have hsplit : arg.takeWhile (isDigitOf 10) ++ t = arg := by
      rw [show t = _ from ht]
      exact List.takeWhile_append_dropWhile
    rw [← hsplit, bandwidthBits_append hs hunit] at hv
    have hvalue : v = digitsValue 10 (arg.takeWhile (isDigitOf 10)) * unit / 8 := by omega
    rw [← hsplit, hvalue]
    exact .mk hs.numeral hunit

theorem PlainBandwidth.exists_bits (h : PlainBandwidth arg) : ∃ n : Nat, bandwidthBits arg = n := by
  obtain ⟨hs, hsuffix⟩ := h
  obtain ⟨⟨t, unit⟩, hunit, ht⟩ := List.mem_map.mp hsuffix
  have hbits := bandwidthBits_append hs hunit
  rw [show t = _ from ht, List.takeWhile_append_dropWhile] at hbits
  exact ⟨_, hbits⟩

theorem toNat_uInt8OfInt : (UInt8.ofInt x).toNat = x % 2 ^ 8 := by
  unfold UInt8.ofInt
  rw [UInt8.toNat_ofNat']
  omega

theorem toNat_uInt16OfInt : (UInt16.ofInt x).toNat = x % 2 ^ 16 := by
  unfold UInt16.ofInt
  rw [UInt16.toNat_ofNat']
  omega

theorem toNat_uInt32OfInt : (UInt32.ofInt x).toNat = x % 2 ^ 32 := by
  unfold UInt32.ofInt
  rw [UInt32.toNat_ofNat']
  omega

section Fields

variable {rand : Nat} {argv : BertArgs} (h : argv.LeadsPass)

include h

theorem leadCfg_wfsid : ((argv.leadCfg rand).wfsid.toNat : Int) = lead 10 argv.wfsid := by
  have hmax : lead 10 argv.wfsid ≤ 8 := h.wfsid.2
  have hmin : 1 ≤ lead 10 argv.wfsid := h.wfsid.1
  unfold BertArgs.leadCfg
  rw [toNat_uInt8OfInt]
  omega

theorem leadCfg_size : ((argv.leadCfg rand).pktSize.toNat : Int) = lead 10 argv.size := by
  have hmax : lead 10 argv.size ≤ 9000 := h.size.2
  have hmin := h.size.1
  unfold BertArgs.leadCfg
  rw [UInt16.toNat_toUInt32, toNat_uInt16OfInt]
  omega

theorem leadCfg_pattern_iff (hrand : argv.pattern ≠ patternRand) :
    patternLead argv.pattern = (argv.leadCfg rand).pktPattern.toNat ↔
      patternLead argv.pattern < 2 ^ 8 := by
  have hmin := (h.pattern hrand).1
  unfold BertArgs.leadCfg
  rw [toNat_uInt8OfInt, if_neg hrand]
  omega

theorem leadCfg_bandwidth_iff (hplain : PlainBandwidth argv.bandwidth) :
    bandwidthBits argv.bandwidth / 8 = (argv.leadCfg rand).bandwidth.toNat ↔
      bandwidthBits argv.bandwidth / 8 < 2 ^ 32 := by
  obtain ⟨n, hn⟩ := hplain.exists_bits
  have hpos := h.bandwidth.2
  unfold BertArgs.leadCfg
  rw [toNat_uInt32OfInt, Int.tdiv_eq_ediv_of_nonneg (by omega), hn]
  constructor
  · omega
  · intro hfits
    -- so far below the bound of 64 bits the product is what it should be
    rw [Int.bmod_eq_of_le] <;> omega

end Fields

variable {argv : BertArgs}

theorem denotes_leadCfg_iff {rand : Nat} (h : argv.LeadsPass) :
    argv.Denotes rand (argv.leadCfg rand) ↔ argv.Plain := by
  constructor
  · intro hd
    -- a numeral denotes the number at its front only, so the field holds that number
    refine ⟨hd.wfsid.isNumeral, fun hrand => ?_, hd.size.isNumeral, ?_, fun arg harg => ?_⟩
    · have hpattern := hd.pattern
      rw [if_neg hrand] at hpattern
      obtain ⟨hplain, hvalue⟩ := patternNumeral_iff.mp hpattern.2
      exact ⟨hplain, (leadCfg_pattern_iff h hrand).mp hvalue⟩
    · obtain ⟨hplain, hvalue⟩ := bandwidthNumeral_iff.mp hd.bandwidth
      exact ⟨hplain, (leadCfg_bandwidth_iff h hplain).mp hvalue⟩
    · exact isNumeral_iff.mpr (hd.interval arg harg)
  · intro hp
    refine ⟨rfl, ?_, ?_, ?_, ?_, ?_, fun arg harg => isNumeral_iff.mp (hp.interval arg harg)⟩
    · exact numeral_iff_lead.mpr ⟨hp.wfsid, (leadCfg_wfsid h).symm⟩
    · split
      · rename_i hrand
        have hbyte := toNat_uInt8OfInt (rand % 256)
        refine ⟨if_pos hrand, ?_⟩
        unfold BertArgs.leadCfg
        dsimp only
        rw [if_pos hrand]
        omega
      · rename_i hrand
        obtain ⟨hplain, hfits⟩ := hp.pattern hrand
        have hvalue : patternLead argv.pattern = (argv.leadCfg rand).pktPattern.toNat :=
          (leadCfg_pattern_iff h hrand).mpr hfits
        exact ⟨if_neg hrand, patternNumeral_iff.mpr ⟨hplain, hvalue⟩⟩
    · exact numeral_iff_lead.mpr ⟨hp.size, (leadCfg_size h).symm⟩
    · have hsize : ((argv.leadCfg rand).pktSize.toNat : Int) = lead 10 argv.size := leadCfg_size h
      have hrange := h.size
      omega
    · obtain ⟨hplain, hfits⟩ := hp.bandwidth
      exact bandwidthNumeral_iff.mpr ⟨hplain, (leadCfg_bandwidth_iff h hplain).mpr hfits⟩

theorem BertArgs.LeadsPass.sendsTyped_iff (h : argv.LeadsPass) : argv.SendsTyped ↔ argv.Plain := by
  constructor
  · intro hsends
    have hsent : cmdBert 0 argv = .ok (argv.leadCfg 0) := cmdBert_eq_ok.mpr ⟨h, rfl⟩
    exact (denotes_leadCfg_iff h).mp ((hsends 0).1 _ hsent)
  · intro hplain rand
    have hdenotes : argv.Denotes rand (argv.leadCfg rand) := (denotes_leadCfg_iff h).mpr hplain
    refine ⟨fun cfg hsent => ?_, fun hnone => absurd ⟨_, hdenotes⟩ hnone⟩
    rw [← (cmdBert_eq_ok.mp hsent).2]
    exact hdenotes

theorem sendsTyped_of_refused (h : ¬argv.LeadsPass) : argv.SendsTyped := by
  intro rand
  refine ⟨fun cfg hsent => absurd (cmdBert_eq_ok.mp hsent).1 h, fun _ => ?_⟩
  cases hcmd : cmdBert rand argv with
  | error e => exact ⟨e, rfl⟩
  | ok cfg => exact absurd (cmdBert_eq_ok.mp hcmd).1 h

/-- **The test that is sent is the one that was typed** exactly if the arguments are numerals
    throughout with values that fit, or the numbers at their front are refused. -/
theorem cmd_bert_iff (argv : BertArgs) : argv.SendsTyped ↔ ¬(argv.LeadsPass ∧ ¬argv.Plain) := by
  by_cases hpass : argv.LeadsPass
  · rw [hpass.sendsTyped_iff]
    exact ⟨fun hplain h => h.2 hplain, fun h => not_not.mp fun hplain => h ⟨hpass, hplain⟩⟩
  · exact ⟨fun _ h => hpass h.1, fun _ => sendsTyped_of_refused hpass⟩

/-- A test with the pattern 300 is sent as one with 44. -/
theorem cmd_bert_wide_pattern :
    ¬BertArgs.SendsTyped
      { wfsid := ['1'], pattern := ['3', '0', '0'], size := ['6', '4'],
        bandwidth := ['1', '0', 'm'] } := by
  intro hsends
  have hpass : BertArgs.LeadsPass
      { wfsid := ['1'], pattern := ['3', '0', '0'], size := ['6', '4'],
        bandwidth := ['1', '0', 'm'] } :=
    ⟨by decide, by decide, by decide, by decide, by decide⟩
  have hwide := ((hpass.sendsTyped_iff.mp hsends).pattern (by decide)).2
  exact absurd hwide (by decide)

end VmkDrivers.Wfs
