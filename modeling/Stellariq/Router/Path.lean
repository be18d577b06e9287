/-
# Which routes are accepted, and which fault is blamed

`validate_path` walks along the steps with a cursor and stops at the first step that it finds
fault with.  Seen from outside there is no cursor: a route is accepted when it is well formed
(`WellFormed`), and otherwise the error tells about the smallest faulty index, or about the
end of the route when no step is faulty (`Blames`).

The token the cursor is at, when the loop comes to step `i`, is where the first `i` steps end
(`endToken`).  Everything follows from that by the rule for the first round of a loop that
fails.
-/
import Stellariq.Router.Route
import Stellariq.TestAdapter
import Mathlib.Data.List.Chain

namespace Stellariq.Router

open Kit

/-! ## 1. Well-formed routes -/

/-- The token that a route from `a` ends at: the last step's, or `a` itself when there are no
steps. -/
def endToken (a : Address) (path : List SwapStep) : Address :=
  (path.getLast?.map SwapStep.tokenOut).getD a

/-- The steps lead from `a` to `b`, each one on from where the one before it ended, and no
minimum is negative. -/
structure WellFormed (a b : Address) (path : List SwapStep) : Prop where
  first : ∀ step ∈ path.head?, step.tokenIn = a
  linked : path.IsChain fun step next => step.tokenOut = next.tokenIn
  last : endToken a path = b
  minimums : ∀ step ∈ path, 0 ≤ step.amountOutMin

@[simp] theorem endToken_nil (a : Address) : endToken a [] = a := rfl

@[simp] theorem endToken_cons (a : Address) (step : SwapStep) (steps : List SwapStep) :
    endToken a (step :: steps) = endToken step.tokenOut steps := by
  cases steps <;> simp [endToken, List.getLast?_cons]

theorem endToken_of_ne_nil (a : Address) {path : List SwapStep} (hne : path ≠ []) :
    endToken a path = (path.getLast hne).tokenOut := by
  rw [endToken, List.getLast?_eq_some_getLast hne, Option.map_some, Option.getD_some]

theorem wellFormed_cons {a b : Address} {step : SwapStep} {steps : List SwapStep} :
    WellFormed a b (step :: steps) ↔
      step.tokenIn = a ∧ 0 ≤ step.amountOutMin ∧ WellFormed step.tokenOut b steps := by
  constructor
  · rintro ⟨hfirst, hlinked, hlast, hmin⟩
    obtain ⟨hnext, hlinked⟩ := List.isChain_cons.mp hlinked
    obtain ⟨hstep, hmin⟩ := List.forall_mem_cons.mp hmin
    rw [endToken_cons] at hlast
    exact ⟨hfirst step rfl, hstep, fun next h => (hnext next h).symm, hlinked, hlast, hmin⟩
  · rintro ⟨hfirst, hstep, hnext, hlinked, hlast, hmin⟩
    refine ⟨?_, List.isChain_cons.mpr ⟨fun next h => (hnext next h).symm, hlinked⟩, ?_,
      List.forall_mem_cons.mpr ⟨hstep, hmin⟩⟩
    · intro first h
      obtain rfl : step = first := Option.some.inj h
      exact hfirst
    · rw [endToken_cons]
      exact hlast

/-- The chained routes, without the recursion. -/
theorem chained_iff_wellFormed {a b : Address} {path : List SwapStep} :
    Chained a path b ↔ WellFormed a b path := by
  induction path generalizing a with
  | nil =>
    constructor
    · rintro rfl
      exact ⟨by simp, .nil, rfl, by simp⟩
    · rintro ⟨-, -, hlast, -⟩
      exact hlast
  | cons step steps ih => rw [Chained, ih, wellFormed_cons]

theorem Chained.endToken_eq {a b : Address} {path : List SwapStep} (hchain : Chained a path b) :
    endToken a path = b :=
  (chained_iff_wellFormed.mp hchain).last

theorem Chained.getLast {a b : Address} {steps : List SwapStep} (hchain : Chained a steps b)
    (hne : steps ≠ []) : (steps.getLast hne).tokenOut = b := by
  rw [← endToken_of_ne_nil a hne]
  exact hchain.endToken_eq

theorem chained_append {a b : Address} {p₁ p₂ : List SwapStep} :
    Chained a (p₁ ++ p₂) b ↔ ∃ m, Chained a p₁ m ∧ Chained m p₂ b := by
  induction p₁ generalizing a with
  | nil => simp [Chained]
  | cons step p₁ ih =>
    simp only [List.cons_append, Chained, ih]
    constructor
    · rintro ⟨h1, h2, m, h3, h4⟩
      exact ⟨m, ⟨h1, h2, h3⟩, h4⟩
    · rintro ⟨m, ⟨h1, h2, h3⟩, h4⟩
      exact ⟨h1, h2, m, h3, h4⟩

/-! ## 2. Faults -/

/-- Step `i` does not start where the steps before it end, or has a negative minimum. -/
def Faulty (a : Address) (path : List SwapStep) (i : Nat) : Prop :=
  ∃ step, path[i]? = some step ∧
    (step.tokenIn ≠ endToken a (path.take i) ∨ step.amountOutMin < 0)

/-- Which error a route from `a` to `b` gets: the smallest faulty index decides, and the end of
the route when there is none. -/
inductive Blames (a b : Address) (path : List SwapStep) : RouterError → Prop
  | broken {i : Nat} {step : SwapStep} : path[i]? = some step →
      (∀ j, j < i → ¬ Faulty a path j) → step.tokenIn ≠ endToken a (path.take i) →
      Blames a b path .discontinuousPath
  | negative {i : Nat} {step : SwapStep} : path[i]? = some step →
      (∀ j, j < i → ¬ Faulty a path j) → step.tokenIn = endToken a (path.take i) →
      step.amountOutMin < 0 → Blames a b path .invalidMinOut
  | astray : (∀ j, ¬ Faulty a path j) → endToken a path ≠ b → Blames a b path .discontinuousPath

theorem faulty_zero {a : Address} {step : SwapStep} {steps : List SwapStep} :
    Faulty a (step :: steps) 0 ↔ step.tokenIn ≠ a ∨ step.amountOutMin < 0 := by
  simp [Faulty]

theorem faulty_succ {a : Address} {step : SwapStep} {steps : List SwapStep} {i : Nat} :
    Faulty a (step :: steps) (i + 1) ↔ Faulty step.tokenOut steps i := by
  simp [Faulty]

/-- **The steps up to an index are chained** exactly when none of them is faulty. -/
theorem chained_take_iff {a : Address} {path : List SwapStep} {n : Nat} :
    Chained a (path.take n) (endToken a (path.take n)) ↔ ∀ j, j < n → ¬ Faulty a path j := by
  induction path generalizing a n with
  | nil => simp [Chained, Faulty]
  | cons step steps ih =>
    cases n with
    | zero => simp [Chained]
    | succ n =>
      rw [List.take_succ_cons, endToken_cons, Chained, ih]
      constructor
      · rintro ⟨hin, hmin, hrest⟩ j hj
        cases j with
        | zero =>
          rw [faulty_zero]
          rintro (h | h)
          · exact h hin
          · exact not_le.mpr h hmin
        | succ j =>
          rw [faulty_succ]
          exact hrest j (Nat.lt_of_succ_lt_succ hj)
      · intro hsound
        have hhead : ¬ (step.tokenIn ≠ a ∨ step.amountOutMin < 0) :=
          fun h => hsound 0 (Nat.succ_pos n) (faulty_zero.mpr h)
        rw [not_or, not_not, not_lt] at hhead
        refine ⟨hhead.1, hhead.2, fun j hj h => ?_⟩
        exact hsound (j + 1) (Nat.succ_lt_succ hj) (faulty_succ.mpr h)

/-- A whole route, up to its end. -/
theorem chained_endToken_iff {a : Address} {path : List SwapStep} :
    Chained a path (endToken a path) ↔ ∀ j, ¬ Faulty a path j := by
  have htake : Chained a (path.take path.length) (endToken a (path.take path.length)) ↔
      ∀ j, j < path.length → ¬ Faulty a path j := chained_take_iff
  rw [List.take_length] at htake
  rw [htake]
  constructor
  · rintro hsound j ⟨step, hstep, hfault⟩
    exact hsound j (List.getElem?_eq_some_iff.mp hstep).1 ⟨step, hstep, hfault⟩
  · exact fun hsound j _ => hsound j

/-! ## 3. The first fault -/

theorem validateStep_eq_error {step : SwapStep} {cursor : Address} {e : RouterError} :
    validateStep (some step) cursor = .error e ↔
      (step.tokenIn ≠ cursor ∧ e = .discontinuousPath) ∨
      (step.tokenIn = cursor ∧ step.amountOutMin < 0 ∧ e = .invalidMinOut) := by
  unfold validateStep
  by_cases h1 : step.tokenIn = cursor
  · by_cases h2 : step.amountOutMin < 0 <;> simp [h1, h2, eq_comm]
  · simp [h1, eq_comm]

/-- **The validation loop stops at the first faulty step**, with the cursor where the steps
before it end. -/
theorem forList_validateStep_error {a : Address} {path : List SwapStep} {e : RouterError} :
    forList (fun _ step cursor => validateStep (some step) cursor) 0 path a = .error e ↔
      ∃ i step, path[i]? = some step ∧ (∀ j, j < i → ¬ Faulty a path j) ∧
        validateStep (some step) (endToken a (path.take i)) = .error e := by
  rw [forList_eq_error]
  constructor
  · rintro ⟨pre, step, post, cursor, rfl, hpre, hstep⟩
    have hchain := (forList_validateStep pre 0 a).mp hpre
    obtain rfl := hchain.endToken_eq
    have htake : (pre ++ step :: post).take pre.length = pre := List.take_left
    refine ⟨pre.length, step, by simp, ?_, by rwa [htake]⟩
    rw [← chained_take_iff, htake]
    exact hchain
  · rintro ⟨i, step, hget, hsound, hstep⟩
    obtain ⟨hi, rfl⟩ := List.getElem?_eq_some_iff.mp hget
    refine ⟨path.take i, path[i], path.drop (i + 1), _, ?_, ?_, hstep⟩
    · rw [List.cons_getElem_drop_succ, List.take_append_drop]
    · exact (forList_validateStep _ 0 a).mpr (chained_take_iff.mpr hsound)

theorem validatePath_eq_error {a b : Address} {path : List SwapStep} {e : RouterError} :
    validatePath a b path = .error e ↔ Blames a b path e := by
  have hloop : forList (fun _ step cursor => validateStep (some step) cursor) 0 path a =
      .error e ↔ _ := forList_validateStep_error
  unfold validatePath
  rw [validate_loop]
  constructor
  · intro he
    cases hv : forList (fun _ step cursor => validateStep (some step) cursor) 0 path a with
    | error e' =>
      rw [hv] at he hloop
      obtain rfl := Except.error.inj he
      obtain ⟨i, step, hget, hsound, hstep⟩ := hloop.mp rfl
      rcases validateStep_eq_error.mp hstep with ⟨hin, rfl⟩ | ⟨hin, hmin, rfl⟩
      · exact .broken hget hsound hin
      · exact .negative hget hsound hin hmin
    | ok cursor =>
      have hchain := (forList_validateStep path 0 a).mp hv
      obtain rfl := hchain.endToken_eq
      rw [hv] at he
      simp only [bind, Except.bind] at he
      split at he
      · rename_i hend
        cases he
        exact .astray (chained_endToken_iff.mp hchain) hend
      · cases he
  · rintro (⟨hget, hsound, hin⟩ | ⟨hget, hsound, hin, hmin⟩ | ⟨hsound, hend⟩)
    · rw [hloop.mpr ⟨_, _, hget, hsound, validateStep_eq_error.mpr (.inl ⟨hin, rfl⟩)⟩]
      rfl
    · rw [hloop.mpr ⟨_, _, hget, hsound, validateStep_eq_error.mpr (.inr ⟨hin, hmin, rfl⟩)⟩]
      rfl
    · rw [(forList_validateStep path 0 a).mpr (chained_endToken_iff.mpr hsound)]
      simp [bind, Except.bind, hend]

/-! ## 4. What is accepted and what is blamed -/

/-- **`validate_path` accepts exactly the well-formed routes and blames the first fault.**  A
route in two parts is accepted exactly when both parts are, the second from where the first
ends. -/
theorem validatePath_blames_first (a b : Address) (path : List SwapStep) :
    (validatePath a b path = .ok () ↔ WellFormed a b path) ∧
      (∀ e, validatePath a b path = .error e ↔ Blames a b path e) ∧
      ∀ p₁ p₂ (hne : p₁ ≠ []), path = p₁ ++ p₂ → p₂ ≠ [] →
        (validatePath a b path = .ok () ↔
          validatePath a (p₁.getLast hne).tokenOut p₁ = .ok () ∧
            validatePath (p₁.getLast hne).tokenOut b p₂ = .ok ()) := by
  refine ⟨?_, fun e => validatePath_eq_error, ?_⟩
  · rw [validatePath_eq_ok, chained_iff_wellFormed]
  · rintro p₁ p₂ hne rfl -
    simp only [validatePath_eq_ok, chained_append]
    constructor
    · rintro ⟨m, h₁, h₂⟩
      rw [h₁.getLast hne]
      exact ⟨h₁, h₂⟩
    · exact fun h => ⟨_, h⟩

section Witness

open TestAdapter.Fixture

/-- The two-hop route is well formed, and so are its hops; where the second step starts at the
wrong token, its negative minimum is not what is blamed. -/
theorem validatePath_blames_first_twoHops :
    WellFormed tokenA tokenC twoHops.path ∧
      (validatePath tokenA tokenB [stepOnPool pool tokenA tokenB 1400] = .ok () ∧
        validatePath tokenB tokenC [stepOnPool pool2 tokenB tokenC 1400] = .ok ()) ∧
      Blames tokenA tokenC
        [stepOnPool pool tokenA tokenB 0, stepOnPool pool2 tokenA tokenC (-1)]
        .discontinuousPath := by
  obtain ⟨hok, -, hsplit⟩ := validatePath_blames_first tokenA tokenC twoHops.path
  have haccepted : validatePath tokenA tokenC twoHops.path = .ok () := by decide
  refine ⟨hok.mp haccepted, ?_, ?_⟩
  · exact (hsplit [stepOnPool pool tokenA tokenB 1400] [stepOnPool pool2 tokenB tokenC 1400]
      (by simp) rfl (by simp)).mp haccepted
  · exact ((validatePath_blames_first tokenA tokenC _).2.1 _).mp (by decide)

end Witness

end Stellariq.Router
