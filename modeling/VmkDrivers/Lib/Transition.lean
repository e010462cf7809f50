/-
  VmkDrivers.Lib.Transition

  Finite runs of labelled transition relations.

  `Run T s ls t` says that the labels `ls` take `s` to `t`, one `T`-step a
  label.  The file packages the three inductions over runs that the rest of
  the development needs: a step-preserved property holds of the last state
  (`Run.invariant`), a simulation carries a run over to another relation
  (`Run.simulate`), and a measure that every step lowers bounds the number
  of steps (`Run.length_le`).

  `Always` and `Since` speak of the states along a run: a property holds in
  all of them exactly if every step meets a guard (`always_iff_guarded`), and
  one that a step brings about lasts as long as another (`since_iff`).
-/

import Mathlib

namespace VmkDrivers.Lib

variable {σ τ ι : Type*}

/-- `Run T s ls t`: the labels `ls` lead from `s` to `t`. -/
inductive Run (T : σ → ι → σ → Prop) : σ → List ι → σ → Prop
  | nil (s : σ) : Run T s [] s
  | cons {s t u : σ} {l : ι} {ls : List ι} :
      T s l t → Run T t ls u → Run T s (l :: ls) u

/-- A transition relation restricted to the steps that meet a guard. -/
def Guarded (T : σ → ι → σ → Prop) (guard : σ → ι → Prop) (s : σ) (l : ι) (t : σ) : Prop :=
  guard s l ∧ T s l t

namespace Run

variable {T : σ → ι → σ → Prop} {U : τ → ι → τ → Prop}

theorem single {s t : σ} {l : ι} (h : T s l t) : Run T s [l] t :=
  .cons h (.nil t)

theorem append {s t u : σ} {ls ms : List ι} (h₁ : Run T s ls t) (h₂ : Run T t ms u) :
    Run T s (ls ++ ms) u := by
  induction h₁ with
  | nil s => exact h₂
  | cons hstep _ ih => exact .cons hstep (ih h₂)

theorem split {s u : σ} {ls ms : List ι} (h : Run T s (ls ++ ms) u) :
    ∃ t, Run T s ls t ∧ Run T t ms u := by
  induction ls generalizing s with
  | nil => exact ⟨s, .nil s, h⟩
  | cons l ls ih =>
    cases h with
    | cons hstep hrest =>
      obtain ⟨t, h₁, h₂⟩ := ih hrest
      exact ⟨t, .cons hstep h₁, h₂⟩

theorem mono {T' : σ → ι → σ → Prop} (hT : ∀ s l t, T s l t → T' s l t)
    {s t : σ} {ls : List ι} (h : Run T s ls t) : Run T' s ls t := by
  induction h with
  | nil s => exact .nil s
  | cons hstep _ ih => exact .cons (hT _ _ _ hstep) ih

/-- **Invariant rule.** A property every step preserves holds at the end of a run. -/
theorem invariant {I : σ → Prop} (hstep : ∀ s l t, I s → T s l t → I t)
    {s t : σ} {ls : List ι} (h : Run T s ls t) (h0 : I s) : I t := by
  induction h with
  | nil s => exact h0
  | cons hs _ ih => exact ih (hstep _ _ _ h0 hs)

/-- **Simulation rule.** If related states make related steps, every run from `s`
    is matched by a run with the same labels from any state related to `s`. -/
theorem simulate {R : σ → τ → Prop} (hstep : ∀ s a l t, R s a → T s l t → ∃ b, U a l b ∧ R t b)
    {s t : σ} {ls : List ι} (h : Run T s ls t) {a : τ} (h0 : R s a) :
    ∃ b, Run U a ls b ∧ R t b := by
  induction h generalizing a with
  | nil s => exact ⟨a, .nil a, h0⟩
  | cons hs _ ih =>
    obtain ⟨b, hb, hR⟩ := hstep _ _ _ _ h0 hs
    obtain ⟨c, hc, hR'⟩ := ih hR
    exact ⟨c, .cons hb hc, hR'⟩

/-- **Termination rule.** If an invariant `I` holds and every step from `I` lowers
    `m`, a run has at most as many steps as `m` dropped. -/
theorem length_le {I : σ → Prop} {m : σ → ℕ} (hstep : ∀ s l t, I s → T s l t → I t ∧ m t < m s)
    {s t : σ} {ls : List ι} (h : Run T s ls t) (h0 : I s) : ls.length + m t ≤ m s := by
  induction h with
  | nil s => simp
  | cons hs _ ih =>
    obtain ⟨hI, hlt⟩ := hstep _ _ _ h0 hs
    have := ih hI
    simp only [List.length_cons]
    omega

theorem guarded {g : ι → Prop} {s t : σ} {ls : List ι} (h : Run T s ls t) (hg : ∀ l ∈ ls, g l) :
    Run (Guarded T fun _ l => g l) s ls t := by
  induction h with
  | nil s => exact .nil s
  | cons hstep _ ih =>
    exact .cons ⟨hg _ List.mem_cons_self, hstep⟩ (ih fun l hl => hg l (List.mem_cons_of_mem _ hl))

theorem guard_labels {g : ι → Prop} {s t : σ} {ls : List ι}
    (h : Run (Guarded T fun _ l => g l) s ls t) : ∀ l ∈ ls, g l := by
  induction h with
  | nil s => exact nofun
  | cons hstep _ ih => exact List.forall_mem_cons.mpr ⟨hstep.1, ih⟩

/-- **Two guards.** Along the runs whose steps meet the one, where an invariant holds, the other says
    the same. -/
theorem guarded_iff {g g' : σ → ι → Prop} {I : σ → Prop}
    (hstep : ∀ s l t, I s → T s l t → (g s l ↔ g' s l) ∧ (g' s l → I t))
    {s t : σ} {ls : List ι} (h0 : I s) : Run (Guarded T g) s ls t ↔ Run (Guarded T g') s ls t := by
  constructor
  · intro h
    induction h with
    | nil s => exact .nil s
    | cons hs _ ih =>
      obtain ⟨hiff, hI⟩ := hstep _ _ _ h0 hs.2
      have hg := hiff.mp hs.1
      exact .cons ⟨hg, hs.2⟩ (ih (hI hg))
  · intro h
    induction h with
    | nil s => exact .nil s
    | cons hs _ ih =>
      obtain ⟨hiff, hI⟩ := hstep _ _ _ h0 hs.2
      exact .cons ⟨hiff.mpr hs.1, hs.2⟩ (ih (hI hs.1))

theorem unique (hdet : ∀ s l t t', T s l t → T s l t' → t = t') {s t t' : σ} {ls : List ι}
    (h : Run T s ls t) (h' : Run T s ls t') : t = t' := by
  induction h with
  | nil s => cases h'; rfl
  | cons hstep _ ih =>
    cases h' with
    | cons hstep' hrest =>
      obtain rfl := hdet _ _ _ _ hstep hstep'
      exact ih hrest

def exec (f : σ → ι → Option σ) (s : σ) (ls : List ι) : Option σ := ls.foldlM f s

theorem of_exec {f : σ → ι → Option σ} (hf : ∀ s l t, f s l = some t → T s l t)
    {s t : σ} {ls : List ι} (h : exec f s ls = some t) : Run T s ls t := by
  induction ls generalizing s with
  | nil =>
    obtain rfl := Option.some.inj h
    exact .nil s
  | cons l ls ih =>
    rw [exec, List.foldlM_cons] at h
    obtain ⟨u, hu, hrest⟩ := Option.bind_eq_some_iff.mp h
    exact .cons (hf _ _ _ hu) (ih hrest)

theorem exec_eq_some_iff {f : σ → ι → Option σ} (hf : ∀ s l t, f s l = some t ↔ T s l t)
    {s t : σ} {ls : List ι} : exec f s ls = some t ↔ Run T s ls t := by
  induction ls generalizing s with
  | nil =>
    constructor
    · intro h
      have hst : s = t := by simpa [exec] using h
      exact hst ▸ .nil s
    · intro h
      cases h
      rfl
  | cons l ls ih =>
    simp only [exec, List.foldlM_cons, Option.bind_eq_bind, Option.bind_eq_some_iff]
    constructor
    · rintro ⟨u, hu, hrest⟩
      exact .cons ((hf _ _ _).mp hu) (ih.mp hrest)
    · intro h
      cases h with
      | cons hstep hrest => exact ⟨_, (hf _ _ _).mpr hstep, ih.mpr hrest⟩

end Run

/-- `P` holds in every state on the way along `ls`. -/
def Always (T : σ → ι → σ → Prop) (P : σ → Prop) (s : σ) (ls : List ι) : Prop :=
  ∀ pre t, pre <+: ls → Run T s pre t → P t

theorem always_nil {T : σ → ι → σ → Prop} {P : σ → Prop} {s : σ} : Always T P s [] ↔ P s := by
  constructor
  · exact fun h => h [] s (List.nil_prefix) (.nil s)
  · intro h pre t hpre hrun
    rw [List.prefix_nil.mp hpre] at hrun
    cases hrun
    exact h

theorem always_cons {T : σ → ι → σ → Prop} (hdet : ∀ s l t t', T s l t → T s l t' → t = t')
    {P : σ → Prop} {s t : σ} {l : ι} {ls : List ι} (hstep : T s l t) :
    Always T P s (l :: ls) ↔ P s ∧ Always T P t ls := by
  constructor
  · intro h
    refine ⟨h [] s List.nil_prefix (.nil s), ?_⟩
    intro pre u hpre hrun
    exact h (l :: pre) u ((List.prefix_cons_inj l).mpr hpre) (.cons hstep hrun)
  · rintro ⟨hs, ht⟩ pre u hpre hrun
    cases hrun with
    | nil => exact hs
    | cons hfirst hrest =>
      obtain ⟨rfl, hpre'⟩ := List.cons_prefix_cons.mp hpre
      rw [hdet _ _ _ _ hfirst hstep] at hrest
      exact ht _ u hpre' hrest

/-- **Guard rule.** If an invariant gives `P`, is kept by the steps that meet the guard, and `P`
    fails after the others, then `P` holds all along a run exactly if every step of it meets
    the guard. -/
theorem always_iff_guarded {T : σ → ι → σ → Prop}
    (hdet : ∀ s l t t', T s l t → T s l t' → t = t') {P I : σ → Prop} {guard : σ → ι → Prop}
    (hI : ∀ s, I s → P s)
    (hstep : ∀ s l t, I s → T s l t → (guard s l → I t) ∧ (P t → guard s l))
    {s t : σ} {ls : List ι} (hrun : Run T s ls t) (h0 : I s) :
    Always T P s ls ↔ Run (Guarded T guard) s ls t := by
  induction hrun with
  | nil s => exact iff_of_true (always_nil.mpr (hI s h0)) (.nil s)
  | @cons s u t l ls hfirst _ ih =>
    obtain ⟨hkeep, hneed⟩ := hstep _ _ _ h0 hfirst
    rw [always_cons hdet hfirst]
    constructor
    · rintro ⟨-, hrest⟩
      have hg := hneed (hrest [] u List.nil_prefix (.nil u))
      exact .cons ⟨hg, hfirst⟩ ((ih (hkeep hg)).mp hrest)
    · intro hg
      cases hg with
      | cons hgfirst hgrest =>
        obtain rfl := hdet _ _ _ _ hgfirst.2 hfirst
        exact ⟨hI _ h0, (ih (hkeep hgfirst.1)).mpr hgrest⟩

theorem always_append_single {T : σ → ι → σ → Prop}
    (hdet : ∀ s l t t', T s l t → T s l t' → t = t') {P : σ → Prop} {s t u : σ} {l : ι}
    {ls : List ι} (hrun : Run T s ls t) (hstep : T t l u) :
    Always T P s (ls ++ [l]) ↔ Always T P s ls ∧ P u := by
  constructor
  · intro h
    refine ⟨fun pre v hpre => h pre v (hpre.trans (List.prefix_append ls [l])), ?_⟩
    exact h _ u List.prefix_rfl (hrun.append (.single hstep))
  · rintro ⟨h, hu⟩ pre v hpre hpre_run
    rcases List.prefix_concat_iff.mp hpre with rfl | hpre
    · rwa [hpre_run.unique hdet (hrun.append (.single hstep))]
    · exact h pre v hpre hpre_run

theorem always_append {T : σ → ι → σ → Prop}
    (hdet : ∀ s l t t', T s l t → T s l t' → t = t') {P : σ → Prop} {s t : σ} {ls ms : List ι}
    (hrun : Run T s ls t) :
    Always T P s (ls ++ ms) ↔ Always T P s ls ∧ Always T P t ms := by
  induction hrun with
  | nil s =>
    rw [List.nil_append, always_nil]
    exact ⟨fun h => ⟨h [] s List.nil_prefix (.nil s), h⟩, fun h => h.2⟩
  | @cons s u t l ls hstep _ ih =>
    rw [List.cons_append, always_cons hdet hstep, always_cons hdet hstep, ih, and_assoc]

/-- Along `ls` a step with `C` was taken, and `L` holds in every state after it. -/
def Since (T : σ → ι → σ → Prop) (C : σ → ι → Prop) (L : σ → Prop) (s : σ) (ls : List ι) :
    Prop :=
  ∃ pre l post u v, ls = pre ++ l :: post ∧ Run T s pre u ∧ C u l ∧ T u l v ∧ Always T L v post

theorem since_append_single {T : σ → ι → σ → Prop}
    (hdet : ∀ s l t t', T s l t → T s l t' → t = t') {C : σ → ι → Prop} {L : σ → Prop}
    {s t u : σ} {l : ι} {ls : List ι} (hrun : Run T s ls t) (hstep : T t l u) :
    Since T C L s (ls ++ [l]) ↔ (C t l ∨ Since T C L s ls) ∧ L u := by
  constructor
  · rintro ⟨pre, m, post, v, w, heq, hpre, hC, hm, hL⟩
    rcases List.eq_nil_or_concat post with rfl | ⟨post, l', rfl⟩
    · -- the step is the last one
      obtain ⟨rfl, hlm⟩ := List.append_inj' heq rfl
      obtain rfl := List.singleton_inj.mp hlm
      obtain rfl := hrun.unique hdet hpre
      obtain rfl := hdet _ _ _ _ hstep hm
      exact ⟨.inl hC, always_nil.mp hL⟩
    · rw [List.concat_eq_append] at heq hL
      rw [← List.cons_append, ← List.append_assoc] at heq
      obtain ⟨rfl, hll⟩ := List.append_inj' heq rfl
      obtain rfl := List.singleton_inj.mp hll
      obtain ⟨v', hv', hrest⟩ := hrun.split
      obtain rfl := hpre.unique hdet hv'
      cases hrest with
      | cons hm' hpost =>
        obtain rfl := hdet _ _ _ _ hm hm'
        obtain ⟨hpostL, hu⟩ := (always_append_single hdet hpost hstep).mp hL
        exact ⟨.inr ⟨pre, m, post, _, _, rfl, hpre, hC, hm, hpostL⟩, hu⟩
  · rintro ⟨hC | ⟨pre, m, post, v, w, rfl, hpre, hC, hm, hL⟩, hu⟩
    · exact ⟨ls, l, [], t, u, rfl, hrun, hC, hstep, always_nil.mpr hu⟩
    · obtain ⟨v', hv', hrest⟩ := hrun.split
      obtain rfl := hpre.unique hdet hv'
      cases hrest with
      | cons hm' hpost =>
        obtain rfl := hdet _ _ _ _ hm hm'
        refine ⟨pre, m, post ++ [l], _, _, by simp, hpre, hC, hm, ?_⟩
        exact (always_append_single hdet hpost hstep).mpr ⟨hL, hu⟩

/-- **Since rule.** What a step with `C` brings about, and what then lasts as long as `L` does,
    holds after a run exactly if there was such a step and `L` since. -/
theorem since_iff {T : σ → ι → σ → Prop} (hdet : ∀ s l t t', T s l t → T s l t' → t = t')
    {C : σ → ι → Prop} {L D I : σ → Prop}
    (hstep : ∀ s l t, I s → T s l t → I t ∧ (D t ↔ (C s l ∨ D s) ∧ L t))
    {s t : σ} {ls : List ι} (hrun : Run T s ls t) (hI : I s) (hD : ¬D s) :
    D t ↔ Since T C L s ls := by
  induction ls using List.reverseRecOn generalizing t with
  | nil =>
    cases hrun
    refine iff_of_false hD ?_
    rintro ⟨pre, l, post, _, _, heq, _⟩
    simp at heq
  | append_singleton ls l ih =>
    obtain ⟨u, hu, hlast⟩ := hrun.split
    cases hlast with
    | cons hl hnil =>
      cases hnil
      have hkeep : ∀ a m b, I a → T a m b → I b := fun a m b ha hab => (hstep a m b ha hab).1
      have hIu : I u := hu.invariant hkeep hI
      rw [(hstep _ _ _ hIu hl).2, ih hu, since_append_single hdet hu hl]

theorem guarded_eq_some_iff {T : σ → ι → σ → Prop} {guard : σ → ι → Prop}
    [∀ s l, Decidable (guard s l)] {f : σ → ι → Option σ}
    (hf : ∀ s l t, f s l = some t ↔ T s l t) (s : σ) (l : ι) (t : σ) :
    (if guard s l then f s l else none) = some t ↔ Guarded T guard s l t := by
  unfold Guarded
  split
  · next hg => rw [hf]; exact ⟨fun h => ⟨hg, h⟩, fun h => h.2⟩
  · next hg => simp [hg]

namespace Reaches

variable {T : σ → ι → σ → Prop}

end Reaches

end VmkDrivers.Lib
