/-
  VmkDrivers.Vmkplexer.ChardevTables

  What the tables of major and minor numbers say about the devices.

  `Tables` is kept by every section: where a device is published
  (`publish_spec`), where one is removed again (`unpublish_spec`,
  `unregCleanup_spec`), and where one is marked to be unregistered
  (`examine_spec`).
-/

import VmkDrivers.Vmkplexer.Chardevs

namespace VmkDrivers.Vmkplexer

open VmkDrivers.Lib

/-! ## Updates -/

section Updates

variable {α : Type} {f : Nat → Option α} {a b : Nat} {v x : α}

theorem update_some_iff : Function.update f a (some v) b = some x ↔
    (b = a ∧ v = x) ∨ (b ≠ a ∧ f b = some x) := by
  rw [Function.update_apply]
  split <;> simp_all

theorem update_none_iff : Function.update f a none b = some x ↔ b ≠ a ∧ f b = some x := by
  rw [Function.update_apply]
  split <;> simp_all

end Updates

/-! ## The free bits -/

section Bits

variable {info : VmkplxrMinorInfo} {d : Chardevs} {major major' minor minor' : Nat}

theorem minorFree_eq (info : VmkplxrMinorInfo) (minor : Nat) :
    info.minorFree minor = (info.minorsFreeBitset (minor / 32)).getLsbD (minor % 32) :=
  Bool.eq_iff_iff.mpr (decide_eq_true_iff.trans (and_bit_ne_zero (Nat.mod_lt _ (by decide))))

theorem majorFree_eq (d : Chardevs) (major : Nat) :
    d.majorFree major = (d.majorsFreeBitset (major / 32)).getLsbD (majorBitNum major) :=
  Bool.eq_iff_iff.mpr (decide_eq_true_iff.trans (and_bit_ne_zero (by unfold majorBitNum; omega)))

theorem minor_bit : (minor' / 32 = minor / 32 ∧ minor' % 32 = minor % 32) ↔ minor' = minor := by
  omega

theorem major_bit :
    (major' / 32 = major / 32 ∧ majorBitNum major' = majorBitNum major) ↔ major' = major := by
  unfold majorBitNum
  omega

@[simp] theorem minorFree_takeMinor :
    (info.takeMinor minor).minorFree minor' = (info.minorFree minor' && !decide (minor' = minor)) := by
  rw [minorFree_eq, minorFree_eq, VmkplxrMinorInfo.takeMinor, minorBitNum,
    getLsbD_clearBit (Nat.mod_lt _ (by decide)) (Nat.mod_lt _ (by decide))]
  simp only [minor_bit]

@[simp] theorem minorFree_freeMinor :
    (info.freeMinor minor).minorFree minor' = (info.minorFree minor' || decide (minor' = minor)) := by
  rw [minorFree_eq, minorFree_eq, VmkplxrMinorInfo.freeMinor, minorBitNum,
    getLsbD_setBit (Nat.mod_lt _ (by decide))]
  simp only [minor_bit]

@[simp] theorem minorFree_setChardev {cdev : Option Nat} :
    (info.setChardev minor cdev).minorFree minor' = info.minorFree minor' := rfl

@[simp] theorem minorFree_fresh : info.fresh.minorFree minor = decide (minor ≠ dynamicMinor) := by
  rw [minorFree_eq, VmkplxrMinorInfo.fresh, minorBitNum,
    getLsbD_clearBit (Nat.mod_lt _ (by decide)) (Nat.mod_lt _ (by decide)), BitVec.getLsbD_allOnes]
  simp only [minor_bit]
  simp [Nat.mod_lt]

theorem majorFree_takeMajor :
    (d.takeMajor major).majorFree major' = (d.majorFree major' && !decide (major' = major)) := by
  rw [majorFree_eq, majorFree_eq, Chardevs.takeMajor,
    getLsbD_clearBit (by unfold majorBitNum; omega) (by unfold majorBitNum; omega)]
  simp only [major_bit]

theorem majorFree_dropMajor {a : Nat} :
    (d.dropMajor major a).majorFree major' = (d.majorFree major' || decide (major' = major)) := by
  rw [majorFree_eq, majorFree_eq, Chardevs.dropMajor, getLsbD_setBit (by unfold majorBitNum; omega)]
  simp only [major_bit]

theorem majorFree_init {a : Nat} {memory : VmkplxrMinorInfo} :
    (Chardevs.init a memory).majorFree major = decide (major ≠ miscMajor ∧ major ≠ dynamicMajor) := by
  rw [majorFree_eq, Chardevs.init, getLsbD_clearBit (by decide) (by unfold majorBitNum; omega),
    getLsbD_clearBit (by decide) (by unfold majorBitNum; omega), BitVec.getLsbD_allOnes]
  simp only [major_bit]
  simp [show majorBitNum major < 32 by unfold majorBitNum; omega]

theorem word_minors {i : Nat} (hi : i < bitsets) :
    info.minorsFreeBitset i ≠ 0#32 ↔ ∃ minor < 256, minor / 32 = i ∧ info.minorFree minor = true := by
  constructor
  · intro hne
    obtain ⟨b, hb, -, hbit⟩ := ffs_spec hne
    refine ⟨b + i * 32, by unfold bitsets at hi; omega, by omega, ?_⟩
    rw [minorFree_eq, show (b + i * 32) / 32 = i by omega, show (b + i * 32) % 32 = b by omega]
    exact hbit
  · rintro ⟨minor, -, rfl, hfree⟩ hzero
    rw [minorFree_eq, hzero, BitVec.getLsbD_zero] at hfree
    cases hfree

theorem findMinor_spec (info : VmkplxrMinorInfo) :
    (info.findMinor = dynamicMinor ∧ ∀ minor < 256, info.minorFree minor = false) ∨
      (info.findMinor < 256 ∧ info.minorFree info.findMinor = true) := by
  unfold VmkplxrMinorInfo.findMinor
  cases hfind : (List.range bitsets).find? fun i => info.minorsFreeBitset i ≠ 0#32 with
  | none =>
    refine .inl ⟨rfl, fun minor hminor => ?_⟩
    by_contra hfree
    have hi : minor / 32 < bitsets := by unfold bitsets; omega
    have hzero := List.find?_range_eq_none.mp hfind _ hi
    exact absurd ((word_minors hi).mpr ⟨minor, hminor, rfl, Bool.not_eq_false _ ▸ hfree⟩)
      (by simpa using hzero)
  | some i =>
    obtain ⟨hne, hmem, -⟩ := List.find?_range_eq_some.mp hfind
    have hi := List.mem_range.mp hmem
    obtain ⟨b, hb, hffs, hbit⟩ := ffs_spec (of_decide_eq_true hne)
    refine .inr ?_
    dsimp only
    rw [hffs, Nat.add_sub_cancel]
    refine ⟨by unfold bitsets at hi; omega, ?_⟩
    rw [minorFree_eq, show (b + i * 32) / 32 = i by omega, show (b + i * 32) % 32 = b by omega]
    exact hbit

theorem findMajor_spec (h : ∀ major, d.majorFree major = true → d.minorInfoPerMajor major = none) :
    (d.findMajor = .ok dynamicMajor ∧ ∀ major < 256, d.majorFree major = false) ∨
      ∃ major < 256, d.findMajor = .ok major ∧ d.majorFree major = true := by
  unfold Chardevs.findMajor
  cases hfind : (List.range bitsets).reverse.find? fun i => d.majorsFreeBitset i ≠ 0#32 with
  | none =>
    refine .inl ⟨rfl, fun major hmajor => ?_⟩
    have hzero := List.find?_eq_none.mp hfind (major / 32)
      (List.mem_reverse.mpr (List.mem_range.mpr (by unfold bitsets; omega)))
    rw [majorFree_eq, show d.majorsFreeBitset (major / 32) = 0#32 by simpa using hzero,
      BitVec.getLsbD_zero]
  | some i =>
    have hne := List.find?_some hfind
    have hi := List.mem_range.mp (List.mem_reverse.mp (List.mem_of_find?_eq_some hfind))
    obtain ⟨b, hb, hffs, hbit⟩ := ffs_spec (of_decide_eq_true hne)
    have hword : (32 - (b + 1) + i * 32) / 32 = i := by omega
    have hnum : majorBitNum (32 - (b + 1) + i * 32) = b := by unfold majorBitNum; omega
    have hfree : d.majorFree (32 - (b + 1) + i * 32) = true := by
      rw [majorFree_eq, hword, hnum]
      exact hbit
    refine .inr ⟨32 - (b + 1) + i * 32, by unfold bitsets at hi; omega, ?_, hfree⟩
    dsimp only
    rw [hffs, vmkAssert, if_pos (by omega), vmkAssert, h _ hfree]
    rfl

theorem allFree_iff : info.allFree = true ↔
    ∀ minor < 256, info.minorFree minor = decide (minor ≠ dynamicMinor) := by
  have hword : ∀ i < bitsets, (info.minorsFreeBitset i = if i ≠ dynamicMinor / 32 then
      BitVec.allOnes 32 else ~~~(1#32 <<< minorBitNum dynamicMinor)) ↔
      ∀ b < 32, info.minorFree (b + i * 32) = decide (b + i * 32 ≠ dynamicMinor) := by
    intro i hi
    have hbits : ∀ b < 32, (if i ≠ dynamicMinor / 32 then BitVec.allOnes 32
        else ~~~(1#32 <<< minorBitNum dynamicMinor)).getLsbD b =
          decide (b + i * 32 ≠ dynamicMinor) := by
      intro b hb
      split
      · next hne =>
        have : b + i * 32 ≠ dynamicMinor := fun heq => hne (by omega)
        rw [BitVec.getLsbD_allOnes]
        simp [hb, this]
      · next heq =>
        rw [BitVec.getLsbD_not, getLsbD_one_shiftLeft (by decide)]
        have : b = minorBitNum dynamicMinor ↔ b + i * 32 = dynamicMinor := by
          unfold minorBitNum dynamicMinor at *
          omega
        simp [hb, this]
    constructor
    · intro heq b hb
      rw [minorFree_eq, show (b + i * 32) / 32 = i by omega, show (b + i * 32) % 32 = b by omega, heq]
      exact hbits b hb
    · intro hall
      refine BitVec.eq_of_getLsbD_eq fun b hb => ?_
      rw [hbits b hb, ← hall b hb, minorFree_eq, show (b + i * 32) / 32 = i by omega,
        show (b + i * 32) % 32 = b by omega]
  unfold VmkplxrMinorInfo.allFree
  rw [List.all_eq_true]
  constructor
  · intro hall minor hminor
    have hi : minor / 32 < bitsets := by unfold bitsets; omega
    have := (hword _ hi).mp (of_decide_eq_true (hall _ (List.mem_range.mpr hi))) (minor % 32)
      (Nat.mod_lt _ (by decide))
    rwa [show minor % 32 + minor / 32 * 32 = minor by omega] at this
  · intro hall i hi
    have hi := List.mem_range.mp hi
    exact decide_eq_true ((hword i hi).mpr fun b hb => hall _ (by unfold bitsets at hi; omega))

end Bits

/-! ## The tables -/

def Chardevs.Installed (d : Chardevs) (major a : Nat) (info : VmkplxrMinorInfo) : Prop :=
  d.minorInfoPerMajor major = some a ∧ d.minorInfos a = some info

/-- The tables say which numbers the devices have, where `start` is what the misc major was given;
    the free bit of the majors in `but`, and whether they have a device, are left open. -/
structure TablesBut (start : Nat × VmkplxrMinorInfo) (but : Nat → Prop) (d : Chardevs) : Prop where
  misc : d.minorInfoPerMajor miscMajor = some start.1
  dynamic : d.minorInfoPerMajor dynamicMajor = none
  installed : ∀ {major a}, d.minorInfoPerMajor major = some a → ∃ info, d.minorInfos a = some info
  inj : ∀ {major major' a}, d.minorInfoPerMajor major = some a →
    d.minorInfoPerMajor major' = some a → major = major'
  owned : ∀ {a info}, d.minorInfos a = some info → ∃ major, d.minorInfoPerMajor major = some a
  major : ∀ major, ¬but major → (d.majorFree major = true ↔
    major ≠ miscMajor ∧ major ≠ dynamicMajor ∧ d.minorInfoPerMajor major = none)
  last : ∀ {major a}, ¬but major → d.minorInfoPerMajor major = some a →
    major = miscMajor ∨ ∃ c cdev, d.chardevs c = some cdev ∧ cdev.major = major
  minor : ∀ {major a info}, d.Installed major a info → ∀ minor, (info.minorFree minor = true ↔
    minor ≠ dynamicMinor ∧
      ∀ c cdev, d.chardevs c = some cdev → cdev.major = major → cdev.minor ≠ minor)
  recorded : ∀ {c cdev}, d.chardevs c = some cdev → cdev.major < 256 ∧ cdev.minor < 255 ∧
    ∃ a info, d.Installed cdev.major a info ∧ info.chardevMinors cdev.minor = some c
  entries : ∀ {info}, d.minorInfos start.1 = some info → ∀ minor,
    info.chardevMinors minor = start.2.chardevMinors minor ∨ info.chardevMinors minor = none ∨
      ∃ c cdev, info.chardevMinors minor = some c ∧ d.chardevs c = some cdev ∧
        cdev.major = miscMajor ∧ cdev.minor = minor

def Tables (start : Nat × VmkplxrMinorInfo) : Chardevs → Prop := TablesBut start fun _ => False

theorem init_minorInfoPerMajor {a a' major : Nat} {memory : VmkplxrMinorInfo} :
    (Chardevs.init a memory).minorInfoPerMajor major = some a' ↔ major = miscMajor ∧ a = a' := by
  rw [Chardevs.init, update_some_iff]
  simp

theorem init_minorInfos {a a' : Nat} {memory info : VmkplxrMinorInfo} :
    (Chardevs.init a memory).minorInfos a' = some info ↔ a' = a ∧ memory.fresh = info := by
  rw [Chardevs.init, update_some_iff]
  simp

theorem tables_init (a : Nat) (memory : VmkplxrMinorInfo) :
    Tables (a, memory) (.init a memory) where
  misc := init_minorInfoPerMajor.mpr ⟨rfl, rfl⟩
  dynamic := rfl
  installed := fun h => by
    obtain ⟨-, rfl⟩ := init_minorInfoPerMajor.mp h
    exact ⟨_, init_minorInfos.mpr ⟨rfl, rfl⟩⟩
  inj := fun h h' => (init_minorInfoPerMajor.mp h).1.trans (init_minorInfoPerMajor.mp h').1.symm
  owned := fun h => ⟨miscMajor, init_minorInfoPerMajor.mpr ⟨rfl, (init_minorInfos.mp h).1.symm⟩⟩
  major := fun major _ => by
    rw [majorFree_init, decide_eq_true_iff]
    refine ⟨fun h => ⟨h.1, h.2, ?_⟩, fun h => ⟨h.1, h.2.1⟩⟩
    exact Option.eq_none_iff_forall_ne_some.mpr fun a' ha' => h.1 (init_minorInfoPerMajor.mp ha').1
  last := fun _ h => .inl (init_minorInfoPerMajor.mp h).1
  minor := fun h minor => by
    obtain ⟨-, rfl⟩ := init_minorInfos.mp h.2
    rw [minorFree_fresh, decide_eq_true_iff]
    exact ⟨fun hne => ⟨hne, nofun⟩, And.left⟩
  recorded := nofun
  entries := fun h minor => by
    obtain ⟨-, rfl⟩ := init_minorInfos.mp h
    exact .inl rfl

section Sections

variable {start : Nat × VmkplxrMinorInfo} {d d' : Chardevs} {but : Nat → Prop}
  {major minor a c : Nat}
  {info info' : VmkplxrMinorInfo} {cdev : VmkplxrCharDev} {memory : Option (Nat × VmkplxrMinorInfo)}

theorem Chardevs.Installed.unique {a' : Nat} (h : d.Installed major a info)
    (h' : d.Installed major a' info') : info = info' := by
  obtain rfl : a = a' := Option.some.inj (h.1.symm.trans h'.1)
  exact Option.some.inj (h.2.symm.trans h'.2)

theorem TablesBut.add (h : Tables start d) (hmajor : major ≠ dynamicMajor)
    (hnone : d.minorInfoPerMajor major = none) (hfresh : d.minorInfos a = none) :
    TablesBut start (· = major) (d.addMinorInfo major a info.fresh) := by
  -- the address is at no other major
  have hunused : ∀ {m}, d.minorInfoPerMajor m ≠ some a := fun heq => by
    obtain ⟨i, hi⟩ := h.installed heq
    rw [hfresh] at hi
    cases hi
  have hptr : ∀ {m b}, (d.addMinorInfo major a info.fresh).minorInfoPerMajor m = some b ↔
      (m = major ∧ a = b) ∨ (m ≠ major ∧ d.minorInfoPerMajor m = some b) := update_some_iff
  have hinfos : ∀ {b i}, (d.addMinorInfo major a info.fresh).minorInfos b = some i ↔
      (b = a ∧ info.fresh = i) ∨ (b ≠ a ∧ d.minorInfos b = some i) := update_some_iff
  have hno : ∀ c cdev, d.chardevs c = some cdev → cdev.major ≠ major := fun c cdev hc heq => by
    obtain ⟨-, -, b, i, hinst, -⟩ := h.recorded hc
    rw [heq, Chardevs.Installed, hnone] at hinst
    cases hinst.1
  refine ⟨?_, ?_, ?_, ?_, ?_, ?_, ?_, ?_, ?_, ?_⟩
  · have hm := h.misc
    exact hptr.mpr (.inr ⟨fun heq => (by rw [heq, hnone] at hm; cases hm), hm⟩)
  · exact (Function.update_of_ne hmajor.symm ..).trans h.dynamic
  · intro m b hm
    rcases hptr.mp hm with ⟨-, rfl⟩ | ⟨-, hm⟩
    · exact ⟨_, hinfos.mpr (.inl ⟨rfl, rfl⟩)⟩
    · obtain ⟨i, hi⟩ := h.installed hm
      exact ⟨i, hinfos.mpr (.inr ⟨fun heq => hunused (heq ▸ hm), hi⟩)⟩
  · intro m m' b hm hm'
    rcases hptr.mp hm with ⟨rfl, rfl⟩ | ⟨-, hd⟩
    · rcases hptr.mp hm' with ⟨rfl, -⟩ | ⟨-, hd'⟩
      · rfl
      · exact absurd hd' hunused
    · rcases hptr.mp hm' with ⟨rfl, rfl⟩ | ⟨-, hd'⟩
      · exact absurd hd hunused
      · exact h.inj hd hd'
  · intro b i hi
    rcases hinfos.mp hi with ⟨rfl, -⟩ | ⟨-, hi⟩
    · exact ⟨major, hptr.mpr (.inl ⟨rfl, rfl⟩)⟩
    · obtain ⟨m, hm⟩ := h.owned hi
      exact ⟨m, hptr.mpr (.inr ⟨fun heq => (by rw [heq, hnone] at hm; cases hm), hm⟩)⟩
  · intro m hm
    rw [show (d.addMinorInfo major a info.fresh).minorInfoPerMajor m = d.minorInfoPerMajor m from
      Function.update_of_ne hm ..]
    exact h.major m id
  · intro m b hm hb
    rcases hptr.mp hb with ⟨rfl, -⟩ | ⟨-, hb⟩
    · exact absurd rfl hm
    · exact h.last id hb
  · rintro m b i ⟨hm, hi⟩ n
    rcases hptr.mp hm with ⟨rfl, rfl⟩ | ⟨-, hd⟩
    · rcases hinfos.mp hi with ⟨-, rfl⟩ | ⟨hne, -⟩
      · rw [minorFree_fresh, decide_eq_true_iff]
        exact ⟨fun hn => ⟨hn, fun c cdev hc heq => absurd heq (hno c cdev hc)⟩, And.left⟩
      · exact absurd rfl hne
    · rcases hinfos.mp hi with ⟨rfl, -⟩ | ⟨-, hi⟩
      · exact absurd hd hunused
      · exact h.minor ⟨hd, hi⟩ n
  · intro c cdev hc
    obtain ⟨hM, hm, b, i, ⟨hb, hi⟩, hrec⟩ := h.recorded hc
    exact ⟨hM, hm, b, i, ⟨hptr.mpr (.inr ⟨hno c cdev hc, hb⟩),
      hinfos.mpr (.inr ⟨fun heq => hunused (heq ▸ hb), hi⟩)⟩, hrec⟩
  · intro i hi
    rcases hinfos.mp hi with ⟨heq, -⟩ | ⟨-, hi⟩
    · exact absurd (heq ▸ h.misc) hunused
    · exact h.entries hi

theorem TablesBut.atMajor {but' : Nat → Prop} (h : TablesBut start but d)
    (hinst : d.Installed major a info) (hptr : d'.minorInfoPerMajor = d.minorInfoPerMajor)
    (hinfos : d'.minorInfos = Function.update d.minorInfos a (some info'))
    (hothers : ∀ {b e}, e.major ≠ major → (d'.chardevs b = some e ↔ d.chardevs b = some e))
    (hbut : ∀ m, m ≠ major → ¬but m) (hbits : ∀ m, m ≠ major → d'.majorFree m = d.majorFree m)
    (hbit : ¬but' major → d'.majorFree major = false)
    (hlast : ¬but' major → ∃ c e, d'.chardevs c = some e ∧ e.major = major)
    (hminor : ∀ n, info'.minorFree n = true ↔ n ≠ dynamicMinor ∧
      ∀ c e, d'.chardevs c = some e → e.major = major → e.minor ≠ n)
    (hrecorded : ∀ {c e}, d'.chardevs c = some e → e.major = major →
      major < 256 ∧ e.minor < 255 ∧ info'.chardevMinors e.minor = some c)
    (hentries : major = miscMajor → ∀ n, info'.chardevMinors n = start.2.chardevMinors n ∨
      info'.chardevMinors n = none ∨ ∃ c e, info'.chardevMinors n = some c ∧
        d'.chardevs c = some e ∧ e.major = major ∧ e.minor = n) :
    TablesBut start but' d' := by
  have hinfo : ∀ {b i}, d'.minorInfos b = some i ↔
      (b = a ∧ info' = i) ∨ (b ≠ a ∧ d.minorInfos b = some i) := by
    rw [hinfos]
    exact update_some_iff
  have hself : d'.minorInfos a = some info' := hinfo.mpr (.inl ⟨rfl, rfl⟩)
  have hat : ∀ {m b}, d.minorInfoPerMajor m = some b → m ≠ major → b ≠ a := fun hm hne hba =>
    hne (h.inj (hba ▸ hm) hinst.1)
  refine ⟨hptr ▸ h.misc, hptr ▸ h.dynamic, fun {m b} hm => ?_, fun hm hm' => ?_, fun {b i} hi => ?_,
    fun m hm => ?_, fun {m b} hne hm => ?_, fun {m b i} hin n => ?_, fun {b e} hb => ?_,
    fun {i} hi n => ?_⟩
  · by_cases hba : b = a
    · exact ⟨info', hba ▸ hself⟩
    · rw [hptr] at hm
      obtain ⟨i, hi⟩ := h.installed hm
      exact ⟨i, hinfo.mpr (.inr ⟨hba, hi⟩)⟩
  · rw [hptr] at hm hm'
    exact h.inj hm hm'
  · rw [hptr]
    rcases hinfo.mp hi with ⟨rfl, -⟩ | ⟨-, hi⟩
    · exact ⟨major, hinst.1⟩
    · exact h.owned hi
  · rw [hptr]
    by_cases heq : m = major
    · subst heq
      simp [hbit hm, hinst.1]
    · rw [hbits m heq]
      exact h.major m (hbut m heq)
  · by_cases heq : m = major
    · subst heq
      exact .inr (hlast hne)
    · rw [hptr] at hm
      exact (h.last (hbut m heq) hm).imp_right fun ⟨c, e, hc, he⟩ =>
        ⟨c, e, (hothers (he ▸ heq)).mpr hc, he⟩
  · obtain ⟨hm, hi⟩ := hin
    rw [hptr] at hm
    by_cases heq : m = major
    · subst heq
      obtain rfl : a = b := Option.some.inj (hinst.1.symm.trans hm)
      obtain rfl : info' = i := Option.some.inj (hself.symm.trans hi)
      exact hminor n
    · obtain ⟨hba, -⟩ | ⟨-, hi⟩ := hinfo.mp hi
      · exact absurd hba (hat hm heq)
      · rw [h.minor ⟨hm, hi⟩ n]
        exact and_congr_right fun _ =>
          ⟨fun hall c e hc he => hall c e ((hothers (he ▸ heq)).mp hc) he,
            fun hall c e hc he => hall c e ((hothers (he ▸ heq)).mpr hc) he⟩
  · by_cases heq : e.major = major
    · obtain ⟨hM, hm, hrec⟩ := hrecorded hb heq
      exact ⟨heq ▸ hM, hm, a, info', ⟨hptr ▸ heq ▸ hinst.1, hself⟩, hrec⟩
    · obtain ⟨hM, hm, b', i, ⟨hb', hi⟩, hrec⟩ := h.recorded ((hothers heq).mp hb)
      exact ⟨hM, hm, b', i, ⟨hptr ▸ hb', hinfo.mpr (.inr ⟨hat hb' heq, hi⟩)⟩, hrec⟩
  · by_cases heq : miscMajor = major
    · obtain rfl : start.1 = a := Option.some.inj (h.misc.symm.trans (heq ▸ hinst.1))
      obtain rfl : info' = i := Option.some.inj (hself.symm.trans hi)
      simpa only [heq] using hentries heq.symm n
    · obtain ⟨hba, -⟩ | ⟨-, hi⟩ := hinfo.mp hi
      · exact absurd hba (hat h.misc heq)
      · exact (h.entries hi n).imp_right (.imp_right fun ⟨c, e, hc, hd, he, hn⟩ =>
          ⟨c, e, hc, (hothers (he ▸ heq)).mpr hd, he, hn⟩)

theorem TablesBut.take (h : TablesBut start (· = major) d) (hinst : d.Installed major a info)
    (hrange : major < 256 ∧ minor < 256) (hfree : info.minorFree minor = true)
    (hnew : d.chardevs c = none) (hmajor : cdev.major = major) (hminor : cdev.minor = minor)
    (hbits : ∀ m, d'.majorFree m = (d.majorFree m && !decide (m = major)))
    (hptr : d'.minorInfoPerMajor = d.minorInfoPerMajor)
    (hinfos : d'.minorInfos = Function.update d.minorInfos a (some info'))
    (hdevs : d'.chardevs = Function.update d.chardevs c (some cdev))
    (hminors : ∀ m, info'.minorFree m = (info.minorFree m && !decide (m = minor)))
    (hrecord : info'.chardevMinors = Function.update info.chardevMinors minor (some c)) :
    Tables start d' := by
  obtain ⟨hneither, hunused⟩ := (h.minor hinst minor).mp hfree
  have hdev : ∀ {b e}, d'.chardevs b = some e ↔
      (b = c ∧ cdev = e) ∨ (b ≠ c ∧ d.chardevs b = some e) := by
    rw [hdevs]
    exact update_some_iff
  -- the devices that there were
  have hold : ∀ {b e}, d.chardevs b = some e → d'.chardevs b = some e := fun hb =>
    hdev.mpr (.inr ⟨fun heq => (by rw [heq, hnew] at hb; cases hb), hb⟩)
  have hself : d'.chardevs c = some cdev := hdev.mpr (.inl ⟨rfl, rfl⟩)
  refine h.atMajor hinst hptr hinfos (fun {b e} hne => ⟨fun hb => ?_, hold⟩) (fun _ => id)
    (fun m hm => by simp [hbits, hm]) (fun _ => by simp [hbits]) (fun _ => ⟨c, cdev, hself, hmajor⟩)
    (fun n => ?_) (fun {b e} hb he => ?_) (fun hmisc n => ?_)
  · rcases hdev.mp hb with ⟨-, rfl⟩ | ⟨-, hb⟩
    · exact absurd hmajor hne
    · exact hb
  · rw [hminors, Bool.and_eq_true, h.minor hinst n, Bool.not_eq_true', decide_eq_false_iff_not]
    constructor
    · rintro ⟨⟨hn, hall⟩, hnm⟩
      refine ⟨hn, fun b e hb he => ?_⟩
      rcases hdev.mp hb with ⟨-, rfl⟩ | ⟨-, hb⟩
      · exact fun heq => hnm (heq.symm.trans hminor)
      · exact hall b e hb he
    · rintro ⟨hn, hall⟩
      exact ⟨⟨hn, fun b e hb he => hall b e (hold hb) he⟩,
        fun hnm => hall c cdev hself hmajor (hminor.trans hnm.symm)⟩
  · rw [hrecord]
    rcases hdev.mp hb with ⟨rfl, rfl⟩ | ⟨-, hb⟩
    · have : minor ≠ 255 := hneither
      exact ⟨hrange.1, by omega, by rw [hminor, Function.update_self]⟩
    · obtain ⟨hM, hm, b', i, hin, hrec⟩ := h.recorded hb
      obtain rfl := hinst.unique (he ▸ hin)
      -- it has another minor
      rw [Function.update_of_ne (hunused b e hb he)]
      exact ⟨he ▸ hM, hm, hrec⟩
  · obtain rfl : start.1 = a := Option.some.inj (h.misc.symm.trans (hmisc ▸ hinst.1))
    rw [hrecord]
    by_cases hn : n = minor
    · subst hn
      rw [Function.update_self]
      exact .inr (.inr ⟨c, cdev, rfl, hself, hmajor, hminor⟩)
    · rw [Function.update_of_ne hn]
      exact (h.entries hinst.2 n).imp_right (.imp_right fun ⟨b, e, hxb, hb, he⟩ =>
        ⟨b, e, hxb, hold hb, hmisc ▸ he⟩)

theorem TablesBut.free (h : Tables start d) (hc : d.chardevs c = some cdev)
    (hinst : d.Installed cdev.major a info)
    (hbits : ∀ m, d'.majorFree m = d.majorFree m)
    (hptr : d'.minorInfoPerMajor = d.minorInfoPerMajor)
    (hinfos : d'.minorInfos = Function.update d.minorInfos a (some info'))
    (hdevs : d'.chardevs = Function.update d.chardevs c none)
    (hminors : ∀ m, info'.minorFree m = (info.minorFree m || decide (m = cdev.minor)))
    (hrecord : info'.chardevMinors = Function.update info.chardevMinors cdev.minor none) :
    TablesBut start (· = cdev.major) d' := by
  obtain ⟨hM, hrange, a', i', hinst', hself⟩ := h.recorded hc
  obtain rfl := hinst.unique hinst'
  have hdev : ∀ {b e}, d'.chardevs b = some e ↔ b ≠ c ∧ d.chardevs b = some e := by
    rw [hdevs]
    exact update_none_iff
  have hold : ∀ {b e}, d.chardevs b = some e → e ≠ cdev → d'.chardevs b = some e := fun hb hne =>
    hdev.mpr ⟨fun heq => hne (Option.some.inj (hb.symm.trans (heq ▸ hc))), hb⟩
  -- the other devices of the major, which have other minors
  have hother : ∀ {b e}, d'.chardevs b = some e → e.major = cdev.major →
      e.minor < 255 ∧ e.minor ≠ cdev.minor ∧ info.chardevMinors e.minor = some b :=
      fun {b e} hb he => by
    obtain ⟨hbc, hb⟩ := hdev.mp hb
    obtain ⟨-, hm, b', i, hin, hrec⟩ := h.recorded hb
    obtain rfl := hinst.unique (he ▸ hin)
    refine ⟨hm, fun heq => hbc ?_, hrec⟩
    rw [heq, hself] at hrec
    exact (Option.some.inj hrec).symm
  refine h.atMajor hinst hptr hinfos (fun hne => ⟨fun hb => (hdev.mp hb).2, fun hb =>
    hold hb fun heq => hne (heq ▸ rfl)⟩) (fun _ _ => id) (fun m _ => hbits m) (absurd rfl)
    (absurd rfl) (fun n => ?_) (fun hb he => ?_) (fun hmisc n => ?_)
  · rw [hminors, Bool.or_eq_true, h.minor hinst n, decide_eq_true_iff]
    constructor
    · rintro (⟨hn, hall⟩ | rfl)
      · exact ⟨hn, fun b e hb he => hall b e (hdev.mp hb).2 he⟩
      · refine ⟨fun hn => ?_, fun b e hb he => (hother hb he).2.1⟩
        rw [hn] at hrange
        exact absurd hrange (by decide)
    · rintro ⟨hn, hall⟩
      by_cases hnm : n = cdev.minor
      · exact .inr hnm
      · exact .inl ⟨hn, fun b e hb he heq =>
          hall b e (hold hb fun hec => hnm (heq.symm.trans (hec ▸ rfl))) he heq⟩
  · obtain ⟨hm, hne, hrec⟩ := hother hb he
    rw [hrecord, Function.update_of_ne hne]
    exact ⟨hM, hm, hrec⟩
  · obtain rfl : start.1 = a := Option.some.inj (h.misc.symm.trans (hmisc ▸ hinst.1))
    rw [hrecord]
    by_cases hn : n = cdev.minor
    · subst hn
      rw [Function.update_self]
      exact .inr (.inl rfl)
    · rw [Function.update_of_ne hn]
      exact (h.entries hinst.2 n).imp_right (.imp_right fun ⟨b, e, hxb, hb, he, hm⟩ =>
        ⟨b, e, hxb, hold hb fun hec => hn (hm.symm.trans (hec ▸ rfl)), hmisc ▸ he, hm⟩)

theorem TablesBut.keep (h : TablesBut start (· = major) d) (hinst : d.Installed major a info)
    (hbit : d.majorFree major = false) (hlast : major = miscMajor ∨ info.allFree = false) :
    Tables start d := by
  refine ⟨h.misc, h.dynamic, h.installed, h.inj, h.owned, fun m _ => ?_, fun {m b} _ hm => ?_,
    h.minor, h.recorded, h.entries⟩
  · by_cases hm : m = major
    · rw [hm, hbit, hinst.1]
      simp
    · exact h.major m hm
  · by_cases heq : m = major
    · subst heq
      refine hlast.imp_right fun hall => ?_
      -- one of the minors is in use
      obtain ⟨n, hn, hne⟩ : ∃ n < 256, info.minorFree n ≠ decide (n ≠ dynamicMinor) := by
        by_contra hno
        have := allFree_iff.mpr fun n hn => by_contra fun hne => hno ⟨n, hn, hne⟩
        rw [hall] at this
        cases this
      by_contra hnone
      refine hne (Bool.eq_iff_iff.mpr ?_)
      rw [h.minor hinst n, decide_eq_true_iff]
      exact ⟨And.left, fun hdyn => ⟨hdyn, fun c e hc he _ => hnone ⟨c, e, hc, he⟩⟩⟩
    · exact h.last heq hm

theorem TablesBut.drop (h : TablesBut start (· = major) d) (hinst : d.Installed major a info)
    (hmisc : major ≠ miscMajor) (hall : info.allFree = true)
    (hbits : ∀ m, d'.majorFree m = (d.majorFree m || decide (m = major)))
    (hptr : d'.minorInfoPerMajor = Function.update d.minorInfoPerMajor major none)
    (hinfos : d'.minorInfos = Function.update d.minorInfos a none)
    (hdevs : d'.chardevs = d.chardevs) : Tables start d' := by
  have hp : ∀ {m b}, d'.minorInfoPerMajor m = some b ↔ m ≠ major ∧ d.minorInfoPerMajor m = some b := by
    rw [hptr]
    exact update_none_iff
  have hinfo : ∀ {b i}, d'.minorInfos b = some i ↔ b ≠ a ∧ d.minorInfos b = some i := by
    rw [hinfos]
    exact update_none_iff
  have hne : ∀ {m b}, m ≠ major → d.minorInfoPerMajor m = some b → b ≠ a := fun hm hb heq =>
    hm (h.inj (heq ▸ hb) hinst.1)
  have hno : ∀ {c e}, d.chardevs c = some e → e.major ≠ major := fun {c e} hc heq => by
    obtain ⟨-, hrange, -⟩ := h.recorded hc
    have hfree := allFree_iff.mp hall e.minor (by omega)
    rw [decide_eq_true (show e.minor ≠ dynamicMinor by unfold dynamicMinor; omega)] at hfree
    exact ((h.minor hinst e.minor).mp hfree).2 c e hc heq rfl
  refine ⟨?_, ?_, fun {m b} hm => ?_, fun hm hm' => ?_, fun {b i} hi => ?_,
    fun m _ => ?_, fun {m b} _ hm => ?_, fun {m b i} hin n => ?_, fun {c e} hc => ?_,
    fun {i} hi n => ?_⟩
  · exact hp.mpr ⟨hmisc.symm, h.misc⟩
  · refine Option.eq_none_iff_forall_ne_some.mpr fun b hb => ?_
    have := (hp.mp hb).2
    rw [h.dynamic] at this
    cases this
  · obtain ⟨hm, hb⟩ := hp.mp hm
    obtain ⟨i, hi⟩ := h.installed hb
    exact ⟨i, hinfo.mpr ⟨hne hm hb, hi⟩⟩
  · exact h.inj (hp.mp hm).2 (hp.mp hm').2
  · obtain ⟨hba, hi⟩ := hinfo.mp hi
    obtain ⟨m, hm⟩ := h.owned hi
    refine ⟨m, hp.mpr ⟨fun heq => hba ?_, hm⟩⟩
    rw [heq, hinst.1] at hm
    exact (Option.some.inj hm).symm
  · rw [hbits m, Bool.or_eq_true, decide_eq_true_iff]
    by_cases hm : m = major
    · subst hm
      have hdyn : m ≠ dynamicMajor := fun heq => by
        have := hinst.1
        rw [heq, h.dynamic] at this
        cases this
      simp [hmisc, hdyn, hptr]
    · rw [h.major m hm, hptr, Function.update_of_ne hm]
      simp [hm]
  · obtain ⟨hm, hb⟩ := hp.mp hm
    rw [hdevs]
    exact h.last hm hb
  · rw [hdevs]
    exact h.minor ⟨(hp.mp hin.1).2, (hinfo.mp hin.2).2⟩ n
  · rw [hdevs] at hc
    obtain ⟨hM, hm, b, i, ⟨hb, hi⟩, hrec⟩ := h.recorded hc
    exact ⟨hM, hm, b, i, ⟨hp.mpr ⟨hno hc, hb⟩, hinfo.mpr ⟨hne (hno hc) hb, hi⟩⟩, hrec⟩
  · rw [hdevs]
    exact h.entries (hinfo.mp hi).2 n

theorem TablesBut.weaken (h : TablesBut start (fun _ => False) d) : TablesBut start but d :=
  ⟨h.misc, h.dynamic, h.installed, h.inj, h.owned, fun m _ => h.major m id, fun _ => h.last id,
    h.minor, h.recorded, h.entries⟩

/-! ## The sections -/

theorem getMinorInfo_spec (h : Tables start d) (hmajor : major ≠ dynamicMajor)
    (hmemory : ∀ a i, memory = some (a, i) → d.minorInfos a = none) :
    (d.getMinorInfo major memory = none ∧ memory = none) ∨
      ∃ a info d₁, d.getMinorInfo major memory = some (a, d₁) ∧ d₁.Installed major a info ∧
        TablesBut start (· = major) d₁ ∧ d₁.chardevs = d.chardevs ∧
        (∀ m b, d.minorInfoPerMajor m = some b → d₁.minorInfoPerMajor m = some b) ∧
        (d₁ = d ∨ ∀ m, info.minorFree m = decide (m ≠ dynamicMinor)) := by
  unfold Chardevs.getMinorInfo
  cases hptr : d.minorInfoPerMajor major with
  | some a =>
    obtain ⟨info, hinfo⟩ := h.installed hptr
    exact .inr ⟨a, info, d, rfl, ⟨hptr, hinfo⟩, h.weaken, rfl, fun _ _ hb => hb, .inl rfl⟩
  | none =>
    cases memory with
    | none => exact .inl ⟨rfl, rfl⟩
    | some p =>
      obtain ⟨a, info⟩ := p
      refine .inr ⟨a, info.fresh, _, rfl, ⟨Function.update_self .., Function.update_self ..⟩,
        .add h hmajor hptr (hmemory a info rfl), rfl, fun m b hb => ?_,
        .inr fun _ => minorFree_fresh⟩
      exact update_some_iff.mpr (.inr ⟨fun heq => (by rw [heq, hptr] at hb; cases hb), hb⟩)

def Chardevs.MinorsTaken (d : Chardevs) (major minor : Nat) : Prop :=
  ∃ a info, d.Installed major a info ∧
    (if minor = dynamicMinor then ∀ m < 256, info.minorFree m = false
      else info.minorFree minor = false)

theorem allocMinor_spec (h : Tables start d) (hmajor : major ≠ dynamicMajor) (hrange : minor < 256)
    (hmemory : ∀ a i, memory = some (a, i) → d.minorInfos a = none) :
    ((∃ status, d.allocMinor major minor memory = .ok (.error status, d)) ∧
        (memory = none ∨ d.MinorsTaken major minor)) ∨
      ∃ a info d₁ m, d.allocMinor major minor memory =
          .ok (.ok (major, m), (d₁.setMinorInfo a (info.takeMinor m)).takeMajor major) ∧
        d₁.Installed major a info ∧ TablesBut start (· = major) d₁ ∧ d₁.chardevs = d.chardevs ∧
        (∀ m b, d.minorInfoPerMajor m = some b → d₁.minorInfoPerMajor m = some b) ∧
        m < 256 ∧ info.minorFree m = true ∧ (minor ≠ dynamicMinor → m = minor) := by
  rcases getMinorInfo_spec h hmajor hmemory with ⟨hget, hnone⟩ |
    ⟨a, info, d₁, hget, hinst, hbut, hdevs, hptr, hnew⟩
  · refine .inl ⟨⟨.noMemory, ?_⟩, .inl hnone⟩
    rw [Chardevs.allocMinor, hget]
  · have hfollow : follow d₁.minorInfos (some a) = .ok info := by
      rw [follow, hinst.2]
      rfl
    rw [Chardevs.allocMinor, hget]
    dsimp only
    rw [hfollow]
    by_cases hdyn : minor = dynamicMinor
    · rcases findMinor_spec info with ⟨hfind, hnone⟩ | ⟨hlt, hfree⟩
      · -- a new `minorInfo` has a free minor
        have hsame : d₁ = d := hnew.resolve_right fun hall => by
          have := hnone 0 (by decide)
          rw [hall 0] at this
          cases this
        subst hsame
        refine .inl ⟨⟨.noMemory, ?_⟩, .inr ⟨a, info, hinst, by rwa [if_pos hdyn]⟩⟩
        simp [bind, Except.bind, hdyn, hfind, pure, Except.pure]
      · have hne : info.findMinor ≠ dynamicMinor := ((hbut.minor hinst _).mp hfree).1
        refine .inr ⟨a, info, d₁, info.findMinor, ?_, hinst, hbut, hdevs, hptr, hlt, hfree,
          fun hn => absurd hdyn hn⟩
        simp [bind, Except.bind, hdyn, hne, hfree, pure, Except.pure]
    · cases hfree : info.minorFree minor with
      | false =>
        have hsame : d₁ = d := hnew.resolve_right fun hall => by
          rw [hall minor, decide_eq_true hdyn] at hfree
          cases hfree
        subst hsame
        refine .inl ⟨⟨.busy, ?_⟩, .inr ⟨a, info, hinst, by rwa [if_neg hdyn]⟩⟩
        simp [bind, Except.bind, hdyn, hfree, pure, Except.pure]
      | true =>
        refine .inr ⟨a, info, d₁, minor, ?_, hinst, hbut, hdevs, hptr, hrange, hfree, fun _ => rfl⟩
        simp [bind, Except.bind, hdyn, hfree, pure, Except.pure]

def Chardevs.Refused (d : Chardevs) (major minor : Nat)
    (memory : Option (Nat × VmkplxrMinorInfo)) : Prop :=
  memory = none ∨
    if major = dynamicMajor then minor ≠ 0 ∨ ∀ m < 256, d.majorFree m = false
    else d.MinorsTaken major minor

theorem allocDevNamespace_spec (h : Tables start d) (hrange : major < 256 ∧ minor < 256)
    (hmemory : ∀ a i, memory = some (a, i) → d.minorInfos a = none) :
    ((∃ status, d.allocDevNamespace major minor memory = .ok (.error status, d)) ∧
        d.Refused major minor memory) ∨
      ∃ M a info d₁ m, d.allocDevNamespace major minor memory =
          .ok (.ok (M, m), (d₁.setMinorInfo a (info.takeMinor m)).takeMajor M) ∧
        d₁.Installed M a info ∧ TablesBut start (· = M) d₁ ∧ d₁.chardevs = d.chardevs ∧
        (∀ m b, d.minorInfoPerMajor m = some b → d₁.minorInfoPerMajor m = some b) ∧
        M < 256 ∧ m < 256 ∧ info.minorFree m = true ∧ (major ≠ dynamicMajor → M = major) ∧
        (minor ≠ dynamicMinor → m = minor) := by
  have hafter : ∀ M, d.searchMajor major = .ok M → M ≠ dynamicMajor → (do
      let majorAllocated ← d.searchMajor major
      if majorAllocated = dynamicMajor then
        return ((.error .noMemory : Except VmkStatus (Nat × Nat)), d)
      else d.allocMinor majorAllocated minor memory) = d.allocMinor M minor memory :=
    fun M hM hne => by
      rw [hM]
      exact if_neg hne
  unfold Chardevs.allocDevNamespace Chardevs.Refused
  by_cases hdyn : major = dynamicMajor
  · rw [if_pos hdyn]
    by_cases hminor : minor = 0
    · have hzero : ¬(minor = dynamicMinor ∧ major = dynamicMajor) := fun hand => by
        rw [hminor] at hand
        cases hand.1
      rw [if_neg (fun hand => hand.2 hminor), if_neg hzero]
      have hsearch : d.searchMajor major = d.findMajor := if_pos hdyn
      rcases findMajor_spec fun m hm => ((h.major m id).mp hm).2.2 with ⟨hfind, hnone⟩ |
        ⟨M, hM, hfind, hfree⟩
      · exact .inl ⟨⟨.noMemory, by rw [hsearch, hfind]; rfl⟩, .inr (.inr hnone)⟩
      · obtain ⟨-, hne, hnot⟩ := (h.major M id).mp hfree
        rw [hafter M (hsearch.trans hfind) hne]
        rcases allocMinor_spec h hne hrange.2 hmemory with ⟨hstatus, hwhy⟩ |
          ⟨a, info, d₁, m, hd, hinst, hbut, hdevs, hptr, hm, hfree, hsame⟩
        · refine .inl ⟨hstatus, .inl (hwhy.resolve_right ?_)⟩
          rintro ⟨a, info, hinst, -⟩
          rw [Chardevs.Installed, hnot] at hinst
          cases hinst.1
        · exact .inr ⟨M, a, info, d₁, m, hd, hinst, hbut, hdevs, hptr, hM, hm, hfree,
            fun hn => absurd hdyn hn, hsame⟩
    · rw [if_pos ⟨hdyn, hminor⟩]
      exact .inl ⟨⟨.badParam, rfl⟩, .inr (.inl hminor)⟩
  · rw [if_neg hdyn, if_neg (fun hand => hdyn hand.1), if_neg (fun hand => hdyn hand.2),
      hafter major (if_neg hdyn) hdyn]
    rcases allocMinor_spec h hdyn hrange.2 hmemory with hrefused |
      ⟨a, info, d₁, m, hd, hinst, hbut, hdevs, hptr, hm, hfree, hsame⟩
    · exact .inl hrefused
    · exact .inr ⟨major, a, info, d₁, m, hd, hinst, hbut, hdevs, hptr, hrange.1, hm, hfree,
        fun _ => rfl, hsame⟩

/-- **Publish**: a request is refused and nothing has changed, or the device is in the tables. -/
theorem publish_spec (h : Tables start d) (hrange : major < 256 ∧ minor < 256)
    (hnew : d.chardevs c = none) (hmemory : ∀ a i, memory = some (a, i) → d.minorInfos a = none)
    (cdev : VmkplxrCharDev) :
    (d.publish major minor c cdev memory = .ok (none, d) ∧ d.Refused major minor memory) ∨
      ∃ a M m d', d.publish major minor c cdev memory = .ok (some (a, M, m), d') ∧
        Tables start d' ∧ d'.minorInfoPerMajor M = some a ∧
        d'.chardevs = Function.update d.chardevs c
          (some { cdev with major := M, minor := m, unregPending := false }) ∧
        (∀ m b, d.minorInfoPerMajor m = some b → d'.minorInfoPerMajor m = some b) ∧
        (major ≠ dynamicMajor → M = major) ∧ (minor ≠ dynamicMinor → m = minor) := by
  unfold Chardevs.publish
  rcases allocDevNamespace_spec h hrange hmemory with ⟨⟨status, hd⟩, hwhy⟩ |
    ⟨M, a, info, d₁, m, hd, hinst, hbut, hdevs, hptr, hM, hm, hfree, hmajor, hminor⟩
  · rw [hd]
    exact .inl ⟨rfl, hwhy⟩
  · rw [hd]
    have hinfo : ((d₁.setMinorInfo a (info.takeMinor m)).takeMajor M).minorInfos a =
        some (info.takeMinor m) := Function.update_self ..
    have hsome : ((d₁.setMinorInfo a (info.takeMinor m)).takeMajor M).minorInfoPerMajor M = some a :=
      hinst.1
    simp only [bind, Except.bind, hsome, follow, hinfo, Option.elim_some, pure, Except.pure]
    refine .inr ⟨a, M, m, _, rfl, ?_, hsome, ?_, hptr, hmajor, hminor⟩
    · have hminors : ∀ n, ((info.takeMinor m).setChardev m (some c)).minorFree n =
          (info.minorFree n && !decide (n = m)) := fun _ => minorFree_takeMinor
      exact hbut.take hinst ⟨hM, hm⟩ hfree (hdevs ▸ hnew) rfl rfl (fun _ => majorFree_takeMajor) rfl
        (Function.update_idem ..) rfl hminors rfl
    · exact congrArg (Function.update · c _) hdevs

/-- **Remove**: a device is taken out of the tables. -/
theorem freeDevNamespace_spec (h : Tables start d) (hc : d.chardevs c = some cdev)
    (hinst : d.Installed cdev.major a info) :
    ∃ d', (d.setMinorInfo a (info.setChardev cdev.minor none)).freeDevNamespace
        cdev.major cdev.minor = .ok (.ok, d') ∧
      Tables start (d'.setChardev c none) ∧ d'.chardevs = d.chardevs ∧
      ∀ m b, d'.minorInfoPerMajor m = some b → d.minorInfoPerMajor m = some b := by
  obtain ⟨-, hrange, -⟩ := h.recorded hc
  have hmajor : cdev.major ≠ dynamicMajor := fun heq => by
    have := hinst.1
    rw [heq, h.dynamic] at this
    cases this
  have htaken : info.minorFree cdev.minor = false := Bool.eq_false_iff.mpr fun hfree =>
    ((h.minor hinst cdev.minor).mp hfree).2 c cdev hc rfl rfl
  have hbit : d.majorFree cdev.major = false := Bool.eq_false_iff.mpr fun hfree => by
    have := ((h.major cdev.major id).mp hfree).2.2
    rw [hinst.1] at this
    cases this
  generalize hd₁ : (d.setMinorInfo a (info.setChardev cdev.minor none)).setMinorInfo a
    ((info.setChardev cdev.minor none).freeMinor cdev.minor) = d₁
  have hinst₁ : d₁.Installed cdev.major a
      ((info.setChardev cdev.minor none).freeMinor cdev.minor) := by
    rw [← hd₁]
    exact ⟨hinst.1, Function.update_self ..⟩
  -- the device is freed later, which makes no difference here
  have hbut : TablesBut start (· = cdev.major) (d₁.setChardev c none) := by
    have hminors : ∀ n, ((info.setChardev cdev.minor none).freeMinor cdev.minor).minorFree n =
        (info.minorFree n || decide (n = cdev.minor)) := fun _ => minorFree_freeMinor
    refine .free h hc hinst ?_ ?_ ?_ ?_ hminors rfl
    · rw [← hd₁]
      exact fun _ => rfl
    · rw [← hd₁]
      rfl
    · rw [← hd₁]
      exact Function.update_idem ..
    · rw [← hd₁]
      rfl
  have hfollow : ∀ {i}, d₁.minorInfos a = some i → follow d₁.minorInfos (some a) = .ok i :=
    fun hi => by rw [follow, hi]; rfl
  have hgoes : (d.setMinorInfo a (info.setChardev cdev.minor none)).freeDevNamespace
      cdev.major cdev.minor = (do
        if ← d₁.lastMinor cdev.major then
          vmkAssert (d₁.majorFree cdev.major = false) .assertion
          return (.ok, d₁.dropMajor cdev.major a)
        else return (.ok, d₁)) := by
    unfold Chardevs.freeDevNamespace
    rw [if_neg (by
      rintro (heq | heq)
      · exact hmajor heq
      · rw [heq] at hrange
        exact absurd hrange (by decide)),
      show (d.setMinorInfo a (info.setChardev cdev.minor none)).minorInfoPerMajor cdev.major = some a
        from hinst.1]
    have hself : follow (d.setMinorInfo a (info.setChardev cdev.minor none)).minorInfos (some a) =
        .ok (info.setChardev cdev.minor none) := by
      rw [follow, show (d.setMinorInfo a (info.setChardev cdev.minor none)).minorInfos a =
        some (info.setChardev cdev.minor none) from Function.update_self ..]
      rfl
    dsimp only
    rw [hself, ← hd₁]
    simp only [bind, Except.bind, vmkAssert, minorFree_setChardev, htaken, if_true]
  have hold : ∀ m b, d₁.minorInfoPerMajor m = some b → d.minorInfoPerMajor m = some b := by
    rw [← hd₁]
    exact fun _ _ hb => hb
  have hdevs : d₁.chardevs = d.chardevs := by
    rw [← hd₁]
    rfl
  have hbit₁ : d₁.majorFree cdev.major = false := by
    rw [← hd₁]
    exact hbit
  have hlast : d₁.lastMinor cdev.major = .ok (!decide (cdev.major = miscMajor) &&
      ((info.setChardev cdev.minor none).freeMinor cdev.minor).allFree) := by
    unfold Chardevs.lastMinor
    split
    · next hmisc => simp [hmisc]
    · next hmisc =>
      unfold Chardevs.majorHasAllFreeMinors
      rw [hinst₁.1, if_neg (by simp), hfollow hinst₁.2, decide_eq_false hmisc]
      rfl
  rw [hgoes, hlast]
  cases hall : (!decide (cdev.major = miscMajor) &&
    ((info.setChardev cdev.minor none).freeMinor cdev.minor).allFree) with
  | false =>
    refine ⟨d₁, rfl, ?_, hdevs, hold⟩
    refine hbut.keep (a := a) hinst₁ hbit₁ ?_
    rcases Bool.and_eq_false_iff.mp hall with hmisc | hnot
    · exact .inl (by simpa using hmisc)
    · exact .inr hnot
  | true =>
    obtain ⟨hmisc, hfree⟩ := (Bool.and_eq_true _ _).mp hall
    refine ⟨d₁.dropMajor cdev.major a, ?_, ?_, hdevs, fun m b hb => hold m b ?_⟩
    · simp only [bind, Except.bind, vmkAssert, hbit₁, if_true]
      rfl
    · exact hbut.drop hinst₁ (by simpa using hmisc) hfree
        (fun _ => majorFree_dropMajor (a := a)) rfl rfl rfl
    · exact (update_none_iff.mp hb).2

theorem unpublish_spec (h : Tables start d) (hc : d.chardevs c = some cdev)
    (ha : d.minorInfoPerMajor cdev.major = some a) :
    ∃ d', d.unpublish a cdev.major cdev.minor c = .ok d' ∧ Tables start d' ∧
      d'.chardevs = Function.update d.chardevs c none ∧
      ∀ m b, d'.minorInfoPerMajor m = some b → d.minorInfoPerMajor m = some b := by
  obtain ⟨info, hinfo⟩ := h.installed ha
  obtain ⟨d', hfree, htables, hdevs, hold⟩ := freeDevNamespace_spec h hc ⟨ha, hinfo⟩
  refine ⟨d'.setChardev c none, ?_, htables, hdevs ▸ rfl, hold⟩
  unfold Chardevs.unpublish
  simp only [bind, Except.bind, follow_some hinfo, hfree]
  rfl

theorem unregCleanup_spec (h : Tables start d) (hc : d.chardevs c = some cdev)
    (hpending : cdev.unregPending = true) :
    ∃ d', d.unregCleanup c = .ok d' ∧ Tables start d' ∧
      d'.chardevs = Function.update d.chardevs c none ∧
      ∀ m b, d'.minorInfoPerMajor m = some b → d.minorInfoPerMajor m = some b := by
  obtain ⟨-, -, a, info, ⟨ha, hinfo⟩, -⟩ := h.recorded hc
  obtain ⟨d', hfree, htables, hdevs, hold⟩ := freeDevNamespace_spec h hc ⟨ha, hinfo⟩
  refine ⟨d'.setChardev c none, ?_, htables, hdevs ▸ rfl, hold⟩
  unfold Chardevs.unregCleanup
  simp only [bind, Except.bind, follow_some hc, hpending, vmkAssert, if_true, ha,
    follow_some hinfo, hfree]
  rfl

theorem Tables.setChardev (h : Tables start d) (hc : d.chardevs c = some cdev)
    {cdev' : VmkplxrCharDev} (hmajor : cdev'.major = cdev.major) (hminor : cdev'.minor = cdev.minor) :
    Tables start (d.setChardev c (some cdev')) := by
  have hdev : ∀ {b e}, (d.setChardev c (some cdev')).chardevs b = some e ↔
      (b = c ∧ cdev' = e) ∨ (b ≠ c ∧ d.chardevs b = some e) := update_some_iff
  -- devices before and behind have the same numbers
  have hafter : ∀ {b e}, d.chardevs b = some e → ∃ e', (d.setChardev c (some cdev')).chardevs b =
      some e' ∧ e'.major = e.major ∧ e'.minor = e.minor := fun {b e} hb => by
    by_cases hbc : b = c
    · rw [hbc, hc] at hb
      cases hb
      exact ⟨cdev', hdev.mpr (.inl ⟨hbc, rfl⟩), hmajor, hminor⟩
    · exact ⟨e, hdev.mpr (.inr ⟨hbc, hb⟩), rfl, rfl⟩
  have hbefore : ∀ {b e}, (d.setChardev c (some cdev')).chardevs b = some e → ∃ e', d.chardevs b =
      some e' ∧ e'.major = e.major ∧ e'.minor = e.minor := fun {b e} hb => by
    rcases hdev.mp hb with ⟨rfl, rfl⟩ | ⟨-, hb⟩
    · exact ⟨cdev, hc, hmajor.symm, hminor.symm⟩
    · exact ⟨e, hb, rfl, rfl⟩
  refine ⟨h.misc, h.dynamic, h.installed, h.inj, h.owned, h.major, fun _ hb => ?_, fun hin n => ?_,
    fun hb => ?_, fun hi n => ?_⟩
  · refine (h.last id hb).imp_right fun ⟨b, e, hb, he⟩ => ?_
    obtain ⟨e', hb', hM, -⟩ := hafter hb
    exact ⟨b, e', hb', hM.trans he⟩
  · rw [h.minor hin n]
    refine and_congr_right fun _ => ⟨fun hall b e hb he => ?_, fun hall b e hb he => ?_⟩
    · obtain ⟨e', hb', hM, hm⟩ := hbefore hb
      exact hm ▸ hall b e' hb' (hM.trans he)
    · obtain ⟨e', hb', hM, hm⟩ := hafter hb
      exact hm ▸ hall b e' hb' (hM.trans he)
  · obtain ⟨e', hb', hM, hm⟩ := hbefore hb
    rw [← hM, ← hm]
    exact h.recorded hb'
  · refine (h.entries hi n).imp_right (.imp_right fun ⟨b, e, hx, hb, hM, hm⟩ => ?_)
    obtain ⟨e', hb', hM', hm'⟩ := hafter hb
    exact ⟨b, e', hx, hb', hM'.trans hM, hm'.trans hm⟩

theorem examine_cases (h : Tables start d) (ha : d.minorInfoPerMajor major = some a)
    (hminor : minor ≠ dynamicMinor) :
    ((∀ c cdev, d.chardevs c = some cdev → cdev.major = major → cdev.minor ≠ minor) ∧
        d.examine major minor a = .ok (.error .badParam, d)) ∨
      ∃ c cdev, d.chardevs c = some cdev ∧ cdev.major = major ∧ cdev.minor = minor ∧
        ((cdev.unregPending = true ∧ d.examine major minor a = .ok (.error .ok, d)) ∨
          (cdev.unregPending = false ∧ d.examine major minor a =
            .ok (.ok cdev.vmkHandle, d.setChardev c (some { cdev with unregPending := true })))) := by
  obtain ⟨info, hinfo⟩ := h.installed ha
  unfold Chardevs.examine
  split
  · next hfree =>
    -- a major with a `minorInfo` is not free
    have := ((h.major major id).mp hfree).2.2
    rw [ha] at this
    cases this
  · simp only [bind, Except.bind, follow_some hinfo]
    split
    · next hfree => exact .inl ⟨((h.minor ⟨ha, hinfo⟩ minor).mp hfree).2, rfl⟩
    · next hfree =>
      -- the minor is taken, so that a device is recorded
      obtain ⟨c, cdev, hc, hM, hm⟩ : ∃ c cdev, d.chardevs c = some cdev ∧ cdev.major = major ∧
          cdev.minor = minor := by
        by_contra hno
        exact hfree ((h.minor ⟨ha, hinfo⟩ minor).mpr
          ⟨hminor, fun c e hc he hm => hno ⟨c, e, hc, he, hm⟩⟩)
      obtain ⟨-, -, b, i, hin, hrec⟩ := h.recorded hc
      rw [hM] at hin
      obtain rfl : a = b := Option.some.inj (ha.symm.trans hin.1)
      obtain rfl : info = i := Option.some.inj (hinfo.symm.trans hin.2)
      rw [hm] at hrec
      refine .inr ⟨c, cdev, hc, hM, hm, ?_⟩
      simp only [hrec, follow_some hc]
      split
      · next hpending => exact .inl ⟨hpending, rfl⟩
      · next hpending => exact .inr ⟨Bool.eq_false_iff.mpr hpending, rfl⟩

/-- **Examine**: nothing changes, or a device is marked. -/
theorem examine_spec (h : Tables start d) (ha : d.minorInfoPerMajor major = some a)
    (hminor : minor ≠ dynamicMinor) :
    (∃ status, d.examine major minor a = .ok (.error status, d)) ∨
      ∃ c cdev, d.chardevs c = some cdev ∧ cdev.major = major ∧ cdev.minor = minor ∧
        cdev.unregPending = false ∧ d.examine major minor a =
          .ok (.ok cdev.vmkHandle, d.setChardev c (some { cdev with unregPending := true })) := by
  rcases examine_cases h ha hminor with ⟨-, hexamine⟩ |
    ⟨c, cdev, hc, hM, hm, ⟨-, hexamine⟩ | ⟨hpending, hexamine⟩⟩
  · exact .inl ⟨_, hexamine⟩
  · exact .inl ⟨_, hexamine⟩
  · exact .inr ⟨c, cdev, hc, hM, hm, hpending, hexamine⟩

theorem examine_free (hfree : d.majorFree major = true) :
    d.examine major minor a = .ok (.error .badParam, d) := if_pos hfree

end Sections

end VmkDrivers.Vmkplexer
