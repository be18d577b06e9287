/-
# Runs of a labelled step relation

A run is a finite sequence of steps with the list of their labels.  The rules below are
the only inductions over runs the development makes: an invariant of every step is an
invariant of every run (`Runs.invariant`), also when it mentions the labels seen so far
(`Runs.invariant_labels`), a reflexive and transitive relation that holds across every step
holds across every run (`Runs.relates`), a run of a stronger step relation is a run of a
weaker one (`Runs.mono`), and a quantity that no step lowers is the same at both ends of a run
exactly when every step keeps it (`Runs.unchanged_iff`).

A run can be cut at any of its labels (`Runs.split_at`), and a machine whose every step is a
sequence of steps of another one has the runs of that one, labelled by the trace of its own
(`Runs.simulates`); when every step of that one is matched too, it has no others (`Runs.matched`).
-/
import Mathlib.Data.List.Induction
import Mathlib.Order.Basic

namespace Stellariq.Kit

/-- `Runs step s ls s'`: from `s`, the steps labelled `ls` in that order lead to `s'`. -/
inductive Runs {S L : Type} (step : S → L → S → Prop) : S → List L → S → Prop
  | refl (s : S) : Runs step s [] s
  | tail {s t u : S} {ls : List L} {l : L} :
      Runs step s ls t → step t l u → Runs step s (ls ++ [l]) u

namespace Runs

variable {S L : Type} {step step' : S → L → S → Prop}

theorem single {s s' : S} {l : L} (h : step s l s') : Runs step s [l] s' :=
  .tail (.refl s) h

/-- Runs compose, and their labels append. -/
theorem append {s t u : S} {ks ls : List L} (h₁ : Runs step s ks t) (h₂ : Runs step t ls u) :
    Runs step s (ks ++ ls) u := by
  induction h₂ with
  | refl => simpa using h₁
  | @tail _ _ ls l _ hstep ih =>
    rw [← List.append_assoc]
    exact .tail ih hstep

/-- **Invariants.**  What every step preserves, every run preserves. -/
theorem invariant {I : S → Prop} (hstep : ∀ s l s', I s → step s l s' → I s')
    {s s' : S} {ls : List L} (h : Runs step s ls s') (h0 : I s) : I s' := by
  induction h with
  | refl => exact h0
  | tail _ hl ih => exact hstep _ _ _ ih hl

/-- The same for a fact about the state and the labels of the run so far. -/
theorem invariant_labels {I : List L → S → Prop}
    (hstep : ∀ ls s l s', I ls s → step s l s' → I (ls ++ [l]) s')
    {s s' : S} {ls : List L} (h : Runs step s ls s') (h0 : I [] s) : I ls s' := by
  induction h with
  | refl => exact h0
  | tail _ hl ih => exact hstep _ _ _ _ ih hl

/-- **Transitive facts.**  A preorder that holds across every step out of a state satisfying
the invariant `I` holds across every run from one. -/
theorem relates {I : S → Prop} {R : S → S → Prop}
    (hinv : ∀ s l s', I s → step s l s' → I s')
    (hrefl : ∀ s, R s s) (htrans : ∀ s t u, R s t → R t u → R s u)
    (hstep : ∀ s l s', I s → step s l s' → R s s')
    {s s' : S} {ls : List L} (h : Runs step s ls s') (h0 : I s) : R s s' := by
  induction h with
  | refl => exact hrefl _
  | tail hr hl ih =>
    exact htrans _ _ _ ih (hstep _ _ _ (hr.invariant hinv h0) hl)

/-- A run whose steps are steps of another machine, under an invariant, is a run of that one. -/
theorem mono_of {I : S → Prop} (hinv : ∀ s l s', I s → step s l s' → I s')
    (hle : ∀ s l s', I s → step s l s' → step' s l s') {s s' : S} {ls : List L}
    (h : Runs step s ls s') (h0 : I s) : Runs step' s ls s' := by
  induction h with
  | refl => exact .refl _
  | tail hr hl ih => exact .tail ih (hle _ _ _ (hr.invariant hinv h0) hl)

/-- A run under extra conditions on its steps is a run. -/
theorem mono (hle : ∀ s l s', step s l s' → step' s l s') {s s' : S} {ls : List L}
    (h : Runs step s ls s') : Runs step' s ls s' :=
  h.mono_of (I := fun _ => True) (fun _ _ _ _ _ => trivial) (fun s l s' _ hl => hle s l s' hl)
    trivial

/-- What is true of every label of a run is true at every step of it. -/
theorem with_labels {P : L → Prop} {s s' : S} {ls : List L} (h : Runs step s ls s')
    (hP : ∀ l ∈ ls, P l) : Runs (fun s l s' => step s l s' ∧ P l) s ls s' := by
  induction h with
  | refl => exact .refl _
  | tail _ hl ih =>
    exact .tail (ih fun l hmem => hP l (List.mem_append_left _ hmem)) ⟨hl, hP _ (by simp)⟩

/-- **Projection.**  What every step does to a part of the state as a step of another machine, every
run does as a run of it. -/
theorem project {S' L' : Type} {part : S' → L' → S' → Prop} (f : S → S') (g : L → L')
    (hstep : ∀ s l s', step s l s' → part (f s) (g l) (f s')) {s s' : S} {ls : List L}
    (h : Runs step s ls s') : Runs part (f s) (ls.map g) (f s') := by
  induction h with
  | refl => exact .refl _
  | tail _ hl ih =>
    rw [List.map_append]
    exact .tail ih (hstep _ _ _ hl)

/-- Conditions that agree on every step under an invariant agree on every run. -/
theorem conditions_iff {I : S → Prop} {P Q : S → L → S → Prop}
    (hinv : ∀ s l s', I s → step s l s' → I s')
    (hiff : ∀ s l s', I s → step s l s' → (P s l s' ↔ Q s l s')) {s s' : S} {ls : List L}
    (h0 : I s) :
    Runs (fun s l s' => step s l s' ∧ P s l s') s ls s' ↔
      Runs (fun s l s' => step s l s' ∧ Q s l s') s ls s' :=
  ⟨fun h => h.mono_of (fun s l s' hs hl => hinv s l s' hs hl.1)
      (fun s l s' hs hl => ⟨hl.1, (hiff s l s' hs hl.1).mp hl.2⟩) h0,
    fun h => h.mono_of (fun s l s' hs hl => hinv s l s' hs hl.1)
      (fun s l s' hs hl => ⟨hl.1, (hiff s l s' hs hl.1).mpr hl.2⟩) h0⟩

/-- **Quantities that never fall.** -/
theorem unchanged_iff {P : Type} [PartialOrder P] {f : S → P}
    (hmono : ∀ s l s', step s l s' → f s ≤ f s') {s s' : S} {ls : List L}
    (h : Runs step s ls s') :
    f s' = f s ↔ Runs (fun t l t' => step t l t' ∧ f t' = f t) s ls s' := by
  have hle : ∀ {t ks}, Runs step s ks t → f s ≤ f t := fun h =>
    h.invariant (I := fun t => f s ≤ f t) (fun t l t' ht hl => ht.trans (hmono t l t' hl)) le_rfl
  constructor
  · intro heq
    induction h with
    | refl => exact .refl _
    | @tail t u ls l hr hl ih =>
      have hback : f t ≤ f s := heq ▸ hmono t l u hl
      have ht : f t = f s := le_antisymm hback (hle hr)
      exact .tail (ih ht) ⟨hl, heq.trans ht.symm⟩
  · exact fun h => h.invariant (I := fun t => f t = f s) (fun t l t' ht hl => hl.2.trans ht) rfl

/-! ## Cutting and tracing runs -/

theorem of_snoc {s u : S} {ls : List L} {l : L} (h : Runs step s (ls ++ [l]) u) :
    ∃ t, Runs step s ls t ∧ step t l u := by
  generalize hks : ls ++ [l] = ks at h
  cases h with
  | refl => simp at hks
  | tail hr hl =>
    obtain ⟨rfl, hlast⟩ := List.append_inj' hks rfl
    cases hlast
    exact ⟨_, hr, hl⟩

theorem split {s u : S} {ks : List L} : ∀ {ls : List L}, Runs step s (ks ++ ls) u →
    ∃ t, Runs step s ks t ∧ Runs step t ls u := by
  intro ls
  induction ls using List.reverseRecOn generalizing u with
  | nil => exact fun h => ⟨u, by simpa using h, .refl u⟩
  | append_singleton ls l ih =>
    intro h
    rw [← List.append_assoc] at h
    obtain ⟨v, hr, hl⟩ := of_snoc h
    obtain ⟨t, hks, hls⟩ := ih hr
    exact ⟨t, hks, .tail hls hl⟩

/-- **Cutting a run** at one of its labels. -/
theorem split_at {s u : S} {ks ls : List L} {l : L} (h : Runs step s (ks ++ l :: ls) u) :
    ∃ t t', Runs step s ks t ∧ step t l t' ∧ Runs step t' ls u := by
  have hsnoc : ks ++ l :: ls = (ks ++ [l]) ++ ls := by simp
  rw [hsnoc] at h
  obtain ⟨t', hl, hls⟩ := split h
  obtain ⟨t, hks, hstep⟩ := of_snoc hl
  exact ⟨t, t', hks, hstep, hls⟩

/-- **Simulation.**  When every step out of a state that represents `a` is matched by steps of
the other machine labelled by its trace, so is every run. -/
theorem simulates {A M : Type} {abstract : A → M → A → Prop} (R : S → A → Prop)
    (trace : L → List M)
    (hstep : ∀ s l s' a, R s a → step s l s' → ∃ a', R s' a' ∧ Runs abstract a (trace l) a')
    {s s' : S} {ls : List L} (h : Runs step s ls s') {a : A} (h0 : R s a) :
    ∃ a', R s' a' ∧ Runs abstract a (ls.flatMap trace) a' := by
  induction h with
  | refl => exact ⟨a, h0, .refl a⟩
  | tail _ hl ih =>
    obtain ⟨b, hb, hab⟩ := ih
    obtain ⟨a', ha', hba⟩ := hstep _ _ _ b hb hl
    exact ⟨a', ha', by simpa using hab.append hba⟩

/-- The same where every step is matched by one step. -/
theorem simulates_steps {A M : Type} {abstract : A → M → A → Prop} (R : S → A → Prop) (f : L → M)
    (hstep : ∀ s l s' a, R s a → step s l s' → ∃ a', R s' a' ∧ abstract a (f l) a')
    {s s' : S} {ls : List L} (h : Runs step s ls s') {a : A} (h0 : R s a) :
    ∃ a', R s' a' ∧ Runs abstract a (ls.map f) a' := by
  rw [List.map_eq_flatMap]
  refine h.simulates R (fun l => [f l]) ?_ h0
  intro s l s' a hs hl
  rcases hstep s l s' a hs hl with ⟨a', ha', hlast⟩
  exact ⟨a', ha', .single hlast⟩

/-- **Completeness.**  When every step of the other machine out of a state that represents `s` is
matched by a step that it follows, so is every run of the other machine. -/
theorem matched {A M : Type} {abstract : A → M → A → Prop} (R : S → A → Prop) (f : L → M)
    (hstep : ∀ s a k a', R s a → abstract a k a' → ∃ l s', k = f l ∧ step s l s' ∧ R s' a')
    {a a' : A} {ks : List M} (h : Runs abstract a ks a') {s : S} (h0 : R s a) :
    ∃ ls s', ks = ls.map f ∧ Runs step s ls s' ∧ R s' a' := by
  induction h with
  | refl => exact ⟨[], s, rfl, .refl s, h0⟩
  | tail _ hk ih =>
    rcases ih with ⟨ls, t, rfl, hruns, ht⟩
    rcases hstep _ _ _ _ ht hk with ⟨l, s', rfl, hlast, hs'⟩
    exact ⟨ls ++ [l], s', by rw [List.map_append]; rfl, .tail hruns hlast, hs'⟩

end Runs

end Stellariq.Kit
