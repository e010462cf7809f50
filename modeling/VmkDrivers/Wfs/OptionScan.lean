/-
  VmkDrivers.Wfs.OptionScan

  Does looking for an option end, and does it stay inside the packet?

  `wfspkt_getopt` goes from option to option by their length bytes, as a
  search of `Lib.RecordScan` does; the option area of a packet is what its
  length byte leaves behind the header.  The search never ends if it passes
  over an option of length 0 (`getopt_ends_iff`).  It reads the two bytes of
  every option header it passes over, and what it finds is handed on with the
  first byte inside the area only: reads and fields stay inside exactly if the
  headers and the option found are complete (`optionsInside_iff`).
-/

import VmkDrivers.Lib.RecordScan
import VmkDrivers.Wfs.ReceiveSafety

namespace VmkDrivers.Wfs

open VmkDrivers.Lib

/-- `opt->len` of the option at an offset. -/
def optLen (opts : Nat → UInt8) (o : Nat) : Nat := (opts (o + 1)).toNat

/-- `pkt->len - WFSPKT_HDR_SIZE`. -/
def Skb.optionArea (pkt : Skb) : Int := pkt.len.toNat - wfspktHdrSize

/-- The offset of the `k`-th option. -/
def Skb.optAt (pkt : Skb) (k : Nat) : Nat := recordAt (optLen pkt.opts) k

/-- The outcome of the loop of `wfspkt_getopt`, if it has ended after `n` turns. -/
def getoptTurns (pkt : Skb) (optType : UInt8) (n : Nat) : Option (Option Nat) :=
  scan (optLen pkt.opts) (fun o => pkt.opts o = optType) n pkt.optionArea 0

/-- The offsets that the loop reads in its first `n` turns. -/
def getoptReads (pkt : Skb) (optType : UInt8) (n : Nat) : List Nat :=
  scanReads (optLen pkt.opts) (fun o => pkt.opts o = optType) n pkt.optionArea 0

def Skb.Passes (pkt : Skb) (optType : UInt8) (k : Nat) : Prop :=
  (pkt.optAt k : Int) < pkt.optionArea ∧ ∀ j ≤ k, pkt.opts (pkt.optAt j) ≠ optType

def Skb.IsFirst (pkt : Skb) (optType : UInt8) (k : Nat) : Prop :=
  (pkt.optAt k : Int) < pkt.optionArea ∧ pkt.opts (pkt.optAt k) = optType ∧
    ∀ j < k, pkt.opts (pkt.optAt j) ≠ optType

variable {pkt : Skb} {optType : UInt8} {opts : Nat → UInt8} {r : Option Nat}

theorem passes_iff {k : Nat} :
    Lib.Passes (optLen pkt.opts) (fun o => pkt.opts o = optType) pkt.optionArea k ↔
      pkt.Passes optType k :=
  ⟨fun h => ⟨h.inside, h.miss⟩, fun h => ⟨h.1, h.2⟩⟩

theorem finds_iff {k : Nat} :
    Lib.Finds (optLen pkt.opts) (fun o => pkt.opts o = optType) pkt.optionArea k ↔
      pkt.IsFirst optType k :=
  ⟨fun h => ⟨h.inside, h.found, h.first⟩, fun h => ⟨h.1, h.2.1, h.2.2⟩⟩

/-! ## The end of the loop -/

/-- **`wfspkt_getopt` ends** exactly if no option that it passes over, that is no option up to
    the first one of the type, has length 0. -/
theorem getopt_ends_iff (pkt : Skb) (optType : UInt8) :
    (∃ n r, getoptTurns pkt optType n = some r) ↔
      ∀ k, pkt.Passes optType k → pkt.opts (pkt.optAt k + 1) ≠ 0 := by
  unfold getoptTurns
  rw [scan_ends_iff]
  apply forall_congr'
  intro k
  rw [passes_iff]
  apply imp_congr_right
  intro _
  rw [not_iff_not]
  exact UInt8.toNat_inj (b := 0)

/-- A control packet of `len` bytes with nothing but zeros behind the header. -/
def zeroOptions (len : UInt8) : Skb :=
  { hDest := Mac.broadcast, hSource := Vector.replicate 6 2, hProto := wfspktEthertype
    type := wfspktTypeCtrlRaps, dest := wfsidAll, src := 2, len, opts := fun _ => 0
    skbLen := 60, vlanTci := 0 }

/-- The packet of 20 bytes is accepted as a control packet, and looking for an announce in
    it never ends. -/
theorem getopt_zeroOptions :
    ixgbeWfsDecap (zeroOptions 20) = true ∧ (zeroOptions 20).isCtrl ∧
      ¬∃ n r, getoptTurns (zeroOptions 20) wfsoptAnnounce n = some r := by
  refine ⟨by decide, by decide, fun hends => ?_⟩
  have hpasses : (zeroOptions 20).Passes wfsoptAnnounce 0 := by
    refine ⟨by decide, fun j _ => ?_⟩
    change (0 : UInt8) ≠ wfsoptAnnounce
    decide
  exact (getopt_ends_iff _ _).mp hends 0 hpasses rfl

theorem getoptLoop_ok {fuel len o : Nat} (hfuel : len ≤ fuel)
    (h : getoptLoop opts optType fuel len o = .ok r) :
    ∃ n, scan (optLen opts) (fun o => opts o = optType) n len o = some r := by
  induction fuel generalizing len o with
  | zero =>
    obtain rfl : len = 0 := Nat.le_zero.mp hfuel
    cases h
    exact ⟨1, rfl⟩
  | succ fuel ih =>
    rw [getoptLoop] at h
    by_cases hlen : len = 0
    · rw [if_pos hlen] at h
      cases h
      exact ⟨1, by rw [scan, if_pos (by omega)]⟩
    · rw [if_neg hlen] at h
      by_cases hty : opts o = optType
      · rw [if_pos hty] at h
        cases h
        exact ⟨1, by rw [scan, if_neg (by omega), if_pos hty]⟩
      · rw [if_neg hty] at h
        by_cases hzero : opts (o + 1) = 0
        · rw [if_pos hzero] at h
          cases h
        · rw [if_neg hzero] at h
          have hpos : 0 < (opts (o + 1)).toNat := by
            rw [Nat.pos_iff_ne_zero]
            exact fun heq => hzero (UInt8.toNat_inj.mp heq)
          obtain ⟨n, hn⟩ := ih (by omega) h
          by_cases hover : (opts (o + 1)).toNat ≤ len
          · refine ⟨n + 1, ?_⟩
            rw [scan, if_neg (by omega), if_neg hty, optLen, ← Int.ofNat_sub hover]
            exact hn
          · -- Behind the area both stop.
            have hnone : len - (opts (o + 1)).toNat = 0 := by omega
            rw [hnone] at h
            have hr : r = none := by
              cases fuel with
              | zero => exact (Except.ok.inj h).symm
              | succ fuel =>
                rw [getoptLoop, if_pos rfl] at h
                exact (Except.ok.inj h).symm
            refine ⟨2, ?_⟩
            rw [scan, if_neg (by omega), if_neg hty, scan, if_pos (by rw [optLen]; omega), hr]

theorem getoptLoop_diverges {fuel len o : Nat} {f : Fault}
    (h : getoptLoop opts optType fuel len o = .error f) (n : Nat) :
    scan (optLen opts) (fun o => opts o = optType) n len o = none := by
  induction fuel generalizing len o n with
  | zero => cases h
  | succ fuel ih =>
    rw [getoptLoop] at h
    by_cases hlen : len = 0
    · rw [if_pos hlen] at h
      cases h
    · rw [if_neg hlen] at h
      by_cases hty : opts o = optType
      · rw [if_pos hty] at h
        cases h
      · rw [if_neg hty] at h
        by_cases hzero : opts (o + 1) = 0
        · -- The turn leads back to where it started.
          have hstay : optLen opts o = 0 := congrArg UInt8.toNat hzero
          induction n with
          | zero => rfl
          | succ n ihn =>
            rw [scan, if_neg (by omega), if_neg hty, hstay, Int.natCast_zero, Int.sub_zero]
            exact ihn
        · rw [if_neg hzero] at h
          cases n with
          | zero => rfl
          | succ n =>
            have hnext := ih h n
            by_cases hover : (opts (o + 1)).toNat ≤ len
            · rw [scan, if_neg (by omega), if_neg hty, optLen, ← Int.ofNat_sub hover]
              exact hnext
            · have hnone : len - (opts (o + 1)).toNat = 0 := by omega
              rw [hnone] at h
              cases fuel with
              | zero => cases h
              | succ fuel =>
                rw [getoptLoop, if_pos rfl] at h
                cases h

theorem getoptTurns_area (pkt : Skb) (optType : UInt8) {n : Nat} :
    getoptTurns pkt optType n = some r ↔
      scan (optLen pkt.opts) (fun o => pkt.opts o = optType) n
        ((pkt.len.toNat - wfspktHdrSize : Nat) : Int) 0 = some r := by
  unfold getoptTurns Skb.optionArea
  by_cases hlen : wfspktHdrSize ≤ pkt.len.toNat
  · rw [Int.ofNat_sub hlen]
  · cases n with
    | zero => exact Iff.rfl
    | succ n => rw [scan, scan, if_pos (by omega), if_pos (by omega)]

/-- **The embedding and the loop agree**: what `wfspktGetopt` returns is the outcome of the
    loop. -/
theorem wfspktGetopt_ok_iff :
    wfspktGetopt pkt optType = .ok r ↔ ∃ n, getoptTurns pkt optType n = some r := by
  constructor
  · intro h
    obtain ⟨n, hn⟩ := getoptLoop_ok (Nat.le_refl _) h
    exact ⟨n, (getoptTurns_area pkt optType).mpr hn⟩
  · rintro ⟨n, hn⟩
    have hscan := (getoptTurns_area pkt optType).mp hn
    cases h : wfspktGetopt pkt optType with
    | ok r' =>
      obtain ⟨m, hm⟩ := getoptLoop_ok (Nat.le_refl _) h
      rw [scan_unique hscan hm]
    | error f =>
      rw [getoptLoop_diverges h n] at hscan
      cases hscan

theorem wfspktGetopt_some_iff {o : Nat} :
    wfspktGetopt pkt optType = .ok (some o) ↔ ∃ k, pkt.IsFirst optType k ∧ o = pkt.optAt k := by
  rw [wfspktGetopt_ok_iff]
  unfold getoptTurns
  rw [scan_finds_iff]
  exact exists_congr fun k => and_congr_left fun _ => finds_iff

theorem wfspktGetopt_none_iff :
    wfspktGetopt pkt optType = .ok none ↔
      ∀ k, (pkt.optAt k : Int) < pkt.optionArea →
        pkt.opts (pkt.optAt k) ≠ optType ∧ pkt.opts (pkt.optAt k + 1) ≠ 0 := by
  rw [wfspktGetopt_ok_iff]
  unfold getoptTurns
  rw [scan_misses_iff]
  apply forall_congr'
  intro k
  apply imp_congr_right
  intro _
  apply and_congr_right
  intro _
  rw [not_iff_not]
  exact UInt8.toNat_inj (b := 0)

/-! ## What stays inside the packet -/

def wfsoptHdrSize : Nat := 2

def optSize (optType : UInt8) : Nat :=
  if optType = wfsoptAnnounce then 11 else if optType = wfsoptRaps then 2 else 17

/-- The types that `ixgbe_wfs_recv_control` looks for in a packet. -/
def Skb.LooksFor (pkt : Skb) (optType : UInt8) : Prop :=
  optType = wfsoptAnnounce ∨
    wfspktGetopt pkt wfsoptAnnounce = .ok none ∧
      (optType = wfsoptRaps ∨ wfspktGetopt pkt wfsoptRaps = .ok none ∧ optType = wfsoptBert)

/-- Every byte read while scanning, and the fixed fields of the option handed to its handler,
    are below offset `pkt->len`. -/
def OptionsInside (pkt : Skb) : Prop :=
  ∀ optType, pkt.LooksFor optType →
    (∀ n, ∀ i ∈ getoptReads pkt optType n, wfspktHdrSize + i < pkt.len.toNat) ∧
    ∀ o, wfspktGetopt pkt optType = .ok (some o) →
      wfspktHdrSize + o + wfsoptHdrSize + optSize optType ≤ pkt.len.toNat

def HeadersComplete (pkt : Skb) (optType : UInt8) : Prop :=
  ∀ k, pkt.Passes optType k → (pkt.optAt k + 1 : Int) < pkt.optionArea

def FirstComplete (pkt : Skb) (optType : UInt8) : Prop :=
  ∀ k, pkt.IsFirst optType k →
    (pkt.optAt k + wfsoptHdrSize + optSize optType : Int) ≤ pkt.optionArea

def Skb.Lacks (pkt : Skb) (optType : UInt8) : Prop :=
  ∀ k, (pkt.optAt k : Int) < pkt.optionArea →
    pkt.opts (pkt.optAt k) ≠ optType ∧ pkt.opts (pkt.optAt k + 1) ≠ 0

theorem reads_inside_iff :
    (∀ n, ∀ i ∈ getoptReads pkt optType n, wfspktHdrSize + i < pkt.len.toNat) ↔
      HeadersComplete pkt optType := by
  have hreads : ∀ i, (∃ n, i ∈ getoptReads pkt optType n) ↔
      ∃ k, pkt.Passes optType k ∧ (i = pkt.optAt k ∨ i = pkt.optAt k + 1) ∨
        pkt.IsFirst optType k ∧ i = pkt.optAt k := by
    intro i
    unfold getoptReads
    rw [mem_scanReads_start]
    apply exists_congr
    intro k
    rw [passes_iff, finds_iff]
    rfl
  constructor
  · intro h k hpass
    obtain ⟨n, hn⟩ := (hreads (pkt.optAt k + 1)).mpr ⟨k, .inl ⟨hpass, .inr rfl⟩⟩
    have hin := h n _ hn
    unfold Skb.optionArea
    omega
  · intro h n i hi
    obtain ⟨k, hk⟩ := (hreads i).mp ⟨n, hi⟩
    rcases hk with ⟨hpass, rfl | rfl⟩ | ⟨hfirst, rfl⟩
    · have hin := hpass.1
      unfold Skb.optionArea at hin
      omega
    · have hin := h k hpass
      unfold Skb.optionArea at hin
      omega
    · have hin := hfirst.1
      unfold Skb.optionArea at hin
      omega

theorem found_inside_iff :
    (∀ o, wfspktGetopt pkt optType = .ok (some o) →
      wfspktHdrSize + o + wfsoptHdrSize + optSize optType ≤ pkt.len.toNat) ↔
      FirstComplete pkt optType := by
  constructor
  · intro h k hfirst
    have hin := h _ (wfspktGetopt_some_iff.mpr ⟨k, hfirst, rfl⟩)
    unfold Skb.optionArea
    omega
  · intro h o ho
    obtain ⟨k, hfirst, rfl⟩ := wfspktGetopt_some_iff.mp ho
    have hin := h k hfirst
    unfold Skb.optionArea at hin
    omega

theorem HeadersComplete.of_lacks (h : HeadersComplete pkt optType) (hlacks : pkt.Lacks optType)
    (optType' : UInt8) : HeadersComplete pkt optType' := by
  intro k hpass
  apply h k
  refine ⟨hpass.1, fun j hj => (hlacks j ?_).1⟩
  have hmono := recordAt_mono (optLen pkt.opts) hj
  have hin := hpass.1
  unfold Skb.optAt at hin ⊢
  omega

/-- **What is read of the options lies inside the packet** exactly if the headers before the
    first announce are complete, and so is the option that is handled: the first announce, or
    without an announce the first RAPS option, or without that too the first BERT option. -/
theorem optionsInside_iff (pkt : Skb) :
    OptionsInside pkt ↔
      HeadersComplete pkt wfsoptAnnounce ∧ FirstComplete pkt wfsoptAnnounce ∧
      (pkt.Lacks wfsoptAnnounce → FirstComplete pkt wfsoptRaps ∧
        (pkt.Lacks wfsoptRaps → FirstComplete pkt wfsoptBert)) := by
  constructor
  · intro h
    have hann := h _ (.inl rfl)
    refine ⟨reads_inside_iff.mp hann.1, found_inside_iff.mp hann.2, fun hlacks => ?_⟩
    have hnone := wfspktGetopt_none_iff.mpr hlacks
    refine ⟨found_inside_iff.mp (h _ (.inr ⟨hnone, .inl rfl⟩)).2, fun hlacks' => ?_⟩
    have hnone' := wfspktGetopt_none_iff.mpr hlacks'
    exact found_inside_iff.mp (h _ (.inr ⟨hnone, .inr ⟨hnone', rfl⟩⟩)).2
  · rintro ⟨hheaders, hann, hrest⟩ optType hlooks
    rcases hlooks with rfl | ⟨hnone, hlooks⟩
    · exact ⟨reads_inside_iff.mpr hheaders, found_inside_iff.mpr hann⟩
    · have hlacks : pkt.Lacks wfsoptAnnounce := wfspktGetopt_none_iff.mp hnone
      obtain ⟨hraps, hbert⟩ := hrest hlacks
      refine ⟨reads_inside_iff.mpr (hheaders.of_lacks hlacks _), found_inside_iff.mpr ?_⟩
      rcases hlooks with rfl | ⟨hnone', rfl⟩
      · exact hraps
      · exact hbert (wfspktGetopt_none_iff.mp hnone')

def cutAnnounce : Skb := { zeroOptions 19 with opts := fun _ => wfsoptAnnounce }

/-- It is accepted, and the announce is handed on with all its fields outside the packet. -/
theorem optionsInside_cutAnnounce :
    ixgbeWfsDecap cutAnnounce = true ∧ cutAnnounce.isCtrl ∧
      wfspktGetopt cutAnnounce wfsoptAnnounce = .ok (some 0) ∧ ¬OptionsInside cutAnnounce := by
  have hfound : wfspktGetopt cutAnnounce wfsoptAnnounce = .ok (some 0) := by decide
  refine ⟨by decide, by decide, hfound, fun hinside => ?_⟩
  have hfields := (hinside wfsoptAnnounce (.inl rfl)).2 0 hfound
  revert hfields
  decide

end VmkDrivers.Wfs
