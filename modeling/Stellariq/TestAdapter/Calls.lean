/-
# The test adapter, call by call

The entrypoints of the adapter under one type, as for the contracts.  A call that configures the
adapter returns exactly when it is allowed, and then changes one setting (`configure_eq_ok`); a swap
changes none (`dispatch_store`).  So the settings after any number of calls are those that
the last calls that returned have set (`Store.apply`).
-/
import Stellariq.TestAdapter

namespace Stellariq.TestAdapter

open Kit

variable {σ : Type} {T : Tokens σ} {c : Ctx}

/-! ## 1. Entrypoints -/

inductive Invocation where
  | initializeAdapter (admin : Address)
  | setRate (admin pool : Address) (num denom : Int)
  | setFail (admin pool : Address) (fail : Bool)
  | setMisreport (admin pool : Address) (reported : Int)
  | clearMisreport (admin pool : Address)
  | swap (args : AdapterArgs)
deriving DecidableEq

inductive Value where
  | unit
  | amount (v : Int)
deriving DecidableEq

def returning {α : Type} (f : α → Value) (x : Call σ α) : Call σ Value := do
  let a ← x
  pure (f a)

def dispatch (T : Tokens σ) (c : Ctx) : Invocation → Call σ Value
  | .initializeAdapter admin => returning (fun _ => .unit) (initializeAdapter admin)
  | .setRate admin pool num denom => returning (fun _ => .unit) (setRate c admin pool num denom)
  | .setFail admin pool fail => returning (fun _ => .unit) (setFail c admin pool fail)
  | .setMisreport admin pool reported =>
    returning (fun _ => .unit) (setMisreport c admin pool reported)
  | .clearMisreport admin pool => returning (fun _ => .unit) (clearMisreport c admin pool)
  | .swap args => returning .amount (swap T c args)

def Invocation.isSwap : Invocation → Bool
  | .swap _ => true
  | _ => false

/-- The storage entry that a configuration call writes. -/
def Invocation.key : Invocation → AdapterKey
  | .initializeAdapter _ | .swap _ => .admin
  | .setRate _ pool _ _ => .rate pool
  | .setFail _ pool _ => .fail pool
  | .setMisreport _ pool _ | .clearMisreport _ pool => .misreport pool

/-! ## 2. Settings -/

/-- The settings after the call, if it returned. -/
def Store.apply (st : Store) : Invocation → Store
  | .initializeAdapter admin => { st with admin := some admin }
  | .setRate _ pool num denom =>
    { st with rate := Function.update st.rate pool (some (num, denom)) }
  | .setFail _ pool fail => { st with fail := Function.update st.fail pool (some fail) }
  | .setMisreport _ pool reported =>
    { st with misreport := Function.update st.misreport pool (some reported) }
  | .clearMisreport _ pool => { st with misreport := Function.update st.misreport pool none }
  | .swap _ => st

/-- The call may change the settings `st`: the first one makes an admin, and that one alone sets the
rest, and no rate that is none. -/
def Store.Allows (st : Store) (c : Ctx) : Invocation → Prop
  | .initializeAdapter _ => st.admin = none
  | .setRate admin _ num denom =>
    st.admin = some admin ∧ c.Authorizes admin ∧ 0 ≤ num ∧ 0 < denom
  | .setFail admin _ _ | .setMisreport admin _ _ | .clearMisreport admin _ =>
    st.admin = some admin ∧ c.Authorizes admin
  | .swap _ => st.admin.isSome = true

section Inversion

variable {s s' : State σ} {i : Invocation} {v : Value}

theorem returning_eq_ok {α : Type} {f : α → Value} {x : Call σ α} :
    returning f x s = (.ok v, s') ↔ ∃ a, x s = (.ok a, s') ∧ f a = v :=
  Exec.bind_pure_eq_ok

/-- **A configuration call, exactly.** -/
theorem configure_eq_ok (hi : i.isSwap = false) : dispatch T c i s = (.ok v, s') ↔
    s.store.Allows c i ∧ v = .unit ∧
      s' = { store := s.store.apply i, world := s.world, log := s.log ++ [.write i.key] } := by
  cases i with
  | swap => cases hi
  | initializeAdapter admin =>
    simp only [dispatch, returning_eq_ok, initializeAdapter, Exec.bind_eq_ok, Exec.gets_eq_ok,
      Exec.failIf_eq_ok, write_eq_ok, exists_const, and_assoc, exists_and_left, exists_eq_left,
      exists_eq_left', Bool.not_eq_true, Option.isSome_eq_false_iff, Option.isNone_iff_eq_none]
    constructor
    · rintro ⟨hnone, rfl, rfl⟩
      exact ⟨hnone, rfl, rfl⟩
    · rintro ⟨hnone, rfl, rfl⟩
      exact ⟨hnone, rfl, rfl⟩
  | setRate admin pool num denom =>
    simp only [dispatch, returning_eq_ok, setRate, Exec.bind_eq_ok, requireAdmin_eq_ok,
      Exec.failIf_eq_ok, write_eq_ok, exists_const, and_assoc, exists_and_left, exists_eq_left,
      not_or, not_lt, not_le]
    constructor
    · rintro ⟨hadmin, hauth, hnum, hdenom, rfl, rfl⟩
      exact ⟨⟨hadmin, hauth, hnum, hdenom⟩, rfl, rfl⟩
    · rintro ⟨⟨hadmin, hauth, hnum, hdenom⟩, rfl, rfl⟩
      exact ⟨hadmin, hauth, hnum, hdenom, rfl, rfl⟩
  | setFail admin pool fail =>
    simp only [dispatch, returning_eq_ok, setFail, Exec.bind_eq_ok, requireAdmin_eq_ok,
      write_eq_ok, exists_const, and_assoc, exists_and_left, exists_eq_left]
    constructor
    · rintro ⟨hadmin, hauth, rfl, rfl⟩
      exact ⟨⟨hadmin, hauth⟩, rfl, rfl⟩
    · rintro ⟨⟨hadmin, hauth⟩, rfl, rfl⟩
      exact ⟨hadmin, hauth, rfl, rfl⟩
  | setMisreport admin pool reported =>
    simp only [dispatch, returning_eq_ok, setMisreport, Exec.bind_eq_ok, requireAdmin_eq_ok,
      write_eq_ok, exists_const, and_assoc, exists_and_left, exists_eq_left]
    constructor
    · rintro ⟨hadmin, hauth, rfl, rfl⟩
      exact ⟨⟨hadmin, hauth⟩, rfl, rfl⟩
    · rintro ⟨⟨hadmin, hauth⟩, rfl, rfl⟩
      exact ⟨hadmin, hauth, rfl, rfl⟩
  | clearMisreport admin pool =>
    simp only [dispatch, returning_eq_ok, clearMisreport, Exec.bind_eq_ok, requireAdmin_eq_ok,
      write_eq_ok, exists_const, and_assoc, exists_and_left, exists_eq_left]
    constructor
    · rintro ⟨hadmin, hauth, rfl, rfl⟩
      exact ⟨⟨hadmin, hauth⟩, rfl, rfl⟩
    · rintro ⟨⟨hadmin, hauth⟩, rfl, rfl⟩
      exact ⟨hadmin, hauth, rfl, rfl⟩

/-- **What a call that returned has done to the settings**: one of them is new, and those of the
other contracts are as before. -/
theorem dispatch_store (hok : dispatch T c i s = (.ok v, s')) :
    s.store.Allows c i ∧ s'.store = s.store.apply i ∧ s'.world.rest = s.world.rest := by
  by_cases hi : i.isSwap = false
  · obtain ⟨hallow, -, rfl⟩ := (configure_eq_ok hi).mp hok
    exact ⟨hallow, rfl, rfl⟩
  · cases i with
    | swap args =>
      obtain ⟨r, hswap, -⟩ := returning_eq_ok.mp hok
      obtain ⟨-, -, out, w, hquote, hpay, -, rfl⟩ := swap_eq_ok.mp hswap
      refine ⟨?_, rfl, World.rest_pay hpay⟩
      by_contra hadmin
      rw [Store.quote, if_neg fun h => hadmin h.1] at hquote
      cases hquote
    | _ => exact absurd rfl hi

end Inversion

/-- No allowed call replaces the admin. -/
theorem Store.Allows.admin {st : Store} {i : Invocation} {a : Address} (hallow : st.Allows c i)
    (ha : st.admin = some a) : (st.apply i).admin = some a := by
  cases i with
  | initializeAdapter =>
    have hnone : st.admin = none := hallow
    rw [ha] at hnone
    cases hnone
  | _ => exact ha

/-! ## 3. Sound settings -/

/-- No rate is wrong, and without an admin nothing is set. -/
structure Store.Sound (st : Store) : Prop extends st.Rated where
  fresh : st.admin = none → st = Store.deployed

theorem Store.sound_deployed : Store.deployed.Sound where
  rates _ _ _ h := by cases h
  fresh _ := rfl

/-- **Allowed calls keep settings sound.** -/
theorem Store.Sound.apply {st : Store} (hst : st.Sound) {i : Invocation} (hallow : st.Allows c i) :
    (st.apply i).Sound := by
  cases i with
  | initializeAdapter => exact ⟨⟨hst.rates⟩, fun h => by cases h⟩
  | setRate admin pool num denom =>
    obtain ⟨hadmin, -, hnum, hdenom⟩ := hallow
    refine ⟨⟨fun pool' num' denom' h => ?_⟩, fun h => ?_⟩
    · by_cases hpool : pool' = pool
      · simp only [Store.apply, hpool, Function.update_self, Option.some.injEq,
          Prod.mk.injEq] at h
        omega
      · simp only [Store.apply, Function.update_of_ne hpool] at h
        exact hst.rates pool' num' denom' h
    · rw [Store.apply, hadmin] at h
      cases h
  | setFail | setMisreport | clearMisreport =>
    refine ⟨⟨hst.rates⟩, fun h => ?_⟩
    rw [Store.apply, hallow.1] at h
    cases h
  | swap => exact hst

/-- An adapter that has been initialized is one that the router's results can be computed for. -/
theorem Store.Sound.valid {st : Store} (hst : st.Sound) (hadmin : st.admin.isSome = true) :
    st.Valid :=
  ⟨hst.toRated, hadmin⟩

end Stellariq.TestAdapter
