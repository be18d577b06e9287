/-
# Two runs side by side

A statement such as "what is in that part of the state cannot influence the call" is about
two runs of one call, from states that differ in that part only: both end the same way, and
the states they leave differ in that part only.  `Relates R V x y s t` says it of two calls
`x` and `y` in general: from `s` and `t` they return values related by `V`, or the same error
code, or are trapped both, and `R` relates the states they had reached.

There is a rule for each way the calls are built.  In the rule for a sequence (`Relates.bind`)
the second parts are related only from states that the first parts can return in, so facts
about a single run are at hand inside the argument about two.
-/
import Stellariq.Kit.Exec

namespace Stellariq.Kit

/-- Two ends of a call that look the same up to `V`. -/
inductive Outcome.Rel {ε α β : Type} (V : α → β → Prop) : Outcome ε α → Outcome ε β → Prop
  | ok {a : α} {b : β} : V a b → Outcome.Rel V (.ok a) (.ok b)
  | err (e : ε) : Outcome.Rel V (.err e) (.err e)
  | trap : Outcome.Rel V .trap .trap

theorem Outcome.Rel.eq {ε α : Type} {o o' : Outcome ε α} (h : Outcome.Rel Eq o o') : o = o' := by
  cases h with
  | ok hab => rw [hab]
  | err e => rfl
  | trap => rfl

namespace Exec

variable {S T ε α β α' β' : Type} {R : S → T → Prop} {s : S} {t : T}

/-- From `s` and `t` the two calls end alike. -/
def Relates (R : S → T → Prop) (V : α → β → Prop) (x : Exec S ε α) (y : Exec T ε β) (s : S)
    (t : T) : Prop :=
  Outcome.Rel V (x s).1 (y t).1 ∧ R (x s).2 (y t).2

/-! ## 1. Single calls -/

theorem relates_pure {V : α → β → Prop} {a : α} {b : β} (hR : R s t) (hV : V a b) :
    Relates R V (pure a : Exec S ε α) (pure b : Exec T ε β) s t :=
  ⟨.ok hV, hR⟩

theorem relates_fail (hR : R s t) (V : α → β → Prop) (e : ε) :
    Relates R V (fail e : Exec S ε α) (fail e : Exec T ε β) s t :=
  ⟨.err e, hR⟩

theorem relates_trap (hR : R s t) (V : α → β → Prop) :
    Relates R V (trap : Exec S ε α) (trap : Exec T ε β) s t :=
  ⟨.trap, hR⟩

theorem relates_gets {V : α → β → Prop} {f : S → α} {g : T → β} (hR : R s t)
    (hV : V (f s) (g t)) : Relates R V (gets f : Exec S ε α) (gets g : Exec T ε β) s t :=
  ⟨.ok hV, hR⟩

theorem relates_modify {f : S → S} {g : T → T} (hR : R (f s) (g t)) :
    Relates R Eq (modify f : Exec S ε Unit) (modify g : Exec T ε Unit) s t :=
  ⟨.ok rfl, hR⟩

theorem relates_failIf {c d : Prop} [Decidable c] [Decidable d] (hR : R s t) (hcd : c ↔ d)
    (e : ε) : Relates R Eq (failIf c e : Exec S ε Unit) (failIf d e : Exec T ε Unit) s t := by
  unfold failIf
  by_cases h : c
  · rw [if_pos h, if_pos (hcd.mp h)]
    exact relates_fail hR Eq e
  · rw [if_neg h, if_neg (hcd.not.mp h)]
    exact relates_pure hR rfl

theorem relates_okOr (hR : R s t) (o : Option α) (e : ε) :
    Relates R Eq (okOr o e : Exec S ε α) (okOr o e : Exec T ε α) s t := by
  cases o with
  | none => exact relates_fail hR Eq e
  | some a => exact relates_pure hR rfl

theorem relates_ofExcept (hR : R s t) (r : Except ε α) :
    Relates R Eq (ofExcept r : Exec S ε α) (ofExcept r : Exec T ε α) s t := by
  cases r with
  | error e => exact relates_fail hR Eq e
  | ok a => exact relates_pure hR rfl

/-! ## 2. Sequences and loops -/

/-- **Two sequences end alike** when their first parts do and, from all states those can have
returned in, their second parts do. -/
theorem Relates.bind {V : α → β → Prop} {W : α' → β' → Prop} {x : Exec S ε α}
    {y : Exec T ε β} {f : α → Exec S ε α'} {g : β → Exec T ε β'} (hxy : Relates R V x y s t)
    (hfg : ∀ a s' b t', x s = (.ok a, s') → y t = (.ok b, t') → V a b → R s' t' →
      Relates R W (f a) (g b) s' t') : Relates R W (x >>= f) (y >>= g) s t := by
  obtain ⟨hend, hR⟩ := hxy
  rcases hx : x s with ⟨a | e | _, s'⟩ <;> rcases hy : y t with ⟨b | e' | _, t'⟩ <;>
    rw [hx, hy] at hend hR <;> cases hend
  · rename_i hV
    have h := hfg a s' b t' hx hy hV hR
    rwa [Relates, bind_of_ok hx, bind_of_ok hy]
  · rw [Relates, bind_of_err hx, bind_of_err hy]
    exact ⟨.err e, hR⟩
  · rw [Relates, bind_of_trap hx, bind_of_trap hy]
    exact ⟨.trap, hR⟩

/-- **Two loops end alike** when their bodies do under an invariant of the first run: of the
remaining elements, the loop variables and the state. -/
theorem relates_forList {body : Nat → α → β → Exec S ε β} {body' : Nat → α → β → Exec T ε β}
    {I : Nat → List α → β → S → Prop}
    (hbody : ∀ i x xs b s t, I i (x :: xs) b s → R s t →
      Relates R Eq (body i x b) (body' i x b) s t ∧
        ∀ b' s', body i x b s = (.ok b', s') → I (i + 1) xs b' s') :
    ∀ (xs : List α) (i : Nat) (b : β) (s : S) (t : T), I i xs b s → R s t →
      Relates R Eq (forList body i xs b) (forList body' i xs b) s t := by
  intro xs
  induction xs with
  | nil => exact fun i b s t _ hR => relates_pure hR rfl
  | cons x xs ih =>
    intro i b s t hI hR
    obtain ⟨hstep, hkeep⟩ := hbody i x xs b s t hI hR
    refine hstep.bind fun b₁ s₁ b₂ t₁ h₁ _ hb hR₁ => ?_
    obtain rfl : b₁ = b₂ := hb
    exact ih (i + 1) b₁ s₁ t₁ (hkeep b₁ s₁ h₁) hR₁

end Exec

end Stellariq.Kit
