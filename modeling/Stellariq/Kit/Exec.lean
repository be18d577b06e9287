/-
# Calls that keep their state when they fail

A contract entrypoint ends in one of three ways: it returns a value, it returns one of its
own error codes, or the host traps it.  In the last two cases the host discards everything
the call did, but statements such as "nothing had happened yet when the error was returned"
are about the state BEFORE that rollback.  So a call is modelled as a function that hands
back the state it had reached in every case (`Exec`); what the host keeps of it is a matter
of the transaction around the call.

The file has the monad, the guards a source line `if c { return Err(e) }` turns into
(`failIf`), and the bounded loop `for i in 0..n` (`forRange`).  The proofs use four things
from it: the inversion of a sequence that returned (`bind_eq_ok`), the rules for a sequence
that the host does not trap (`Safe.bind`, `safe_forList`), the rules for the error codes a
sequence can return and the state it leaves with them (`Reads.bind`, `Fails.bind`), and the
reading of an indexed loop over a list as a fold along the list (`forRange_length`).
-/
import Mathlib.Logic.Basic
import Mathlib.Data.List.Basic

namespace Stellariq.Kit

/-- How a call ends: with a value, with an error code of its own, or trapped by the host. -/
inductive Outcome (ε α : Type) where
  | ok (a : α)
  | err (e : ε)
  | trap
deriving DecidableEq, Repr

/-- The call returned a value. -/
def Outcome.isOk {ε α : Type} : Outcome ε α → Bool
  | .ok _ => true
  | _ => false

/-- A call over states `S` with error codes `ε`: how it ends, and the state it had reached
when it ended. -/
def Exec (S ε α : Type) : Type := S → Outcome ε α × S

namespace Exec

variable {S ε α β : Type}

/-- Return without touching the state. -/
protected def pure (a : α) : Exec S ε α := fun s => (.ok a, s)

/-- Sequencing: the second call runs only when the first returned. -/
protected def bind (x : Exec S ε α) (f : α → Exec S ε β) : Exec S ε β := fun s =>
  match x s with
  | (.ok a, s') => f a s'
  | (.err e, s') => (.err e, s')
  | (.trap, s') => (.trap, s')

instance : Monad (Exec S ε) where
  pure := Exec.pure
  bind := Exec.bind

/-- Return an error code. -/
def fail (e : ε) : Exec S ε α := fun s => (.err e, s)

/-- Be trapped by the host. -/
def trap : Exec S ε α := fun s => (.trap, s)

/-- Read the state. -/
def gets (f : S → α) : Exec S ε α := fun s => (.ok (f s), s)

/-- Write the state. -/
def modify (f : S → S) : Exec S ε Unit := fun s => (.ok (), f s)

/-- `if c { return Err(e) }`. -/
def failIf (c : Prop) [Decidable c] (e : ε) : Exec S ε Unit :=
  if c then fail e else pure ()

/-- `o.ok_or(e)?`. -/
def okOr (o : Option α) (e : ε) : Exec S ε α :=
  match o with
  | some a => pure a
  | none => fail e

/-- A host operation that traps when it has no result. -/
def orTrap (o : Option α) : Exec S ε α :=
  match o with
  | some a => pure a
  | none => trap

/-- `r?` for a result that was computed without the state. -/
def ofExcept (r : Except ε α) : Exec S ε α :=
  match r with
  | .ok a => pure a
  | .error e => fail e

/-! ## 1. Inversion: where a sequence of calls can have ended -/

theorem pure_apply (a : α) (s : S) : (pure a : Exec S ε α) s = (.ok a, s) := rfl

theorem bind_apply (x : Exec S ε α) (f : α → Exec S ε β) (s : S) :
    (x >>= f) s = match x s with
      | (.ok a, s') => f a s'
      | (.err e, s') => (.err e, s')
      | (.trap, s') => (.trap, s') := rfl

theorem eq_ok_of_fst {x : Exec S ε α} {s : S} {a : α} (h : (x s).1 = .ok a) :
    x s = (.ok a, (x s).2) := Prod.ext h rfl

theorem exists_ok_of_isOk {x : Exec S ε α} {s : S} (h : (x s).1.isOk = true) :
    ∃ a, x s = (.ok a, (x s).2) := by
  rcases hx : x s with ⟨a | _ | _, s'⟩
  · exact ⟨a, rfl⟩
  · rw [hx] at h; cases h
  · rw [hx] at h; cases h

/-- A returned prefix hands its value and state to the rest. -/
theorem bind_of_ok {x : Exec S ε α} {f : α → Exec S ε β} {s s' : S} {a : α}
    (h : x s = (.ok a, s')) : (x >>= f) s = f a s' := by
  rw [bind_apply, h]

/-- A failed prefix is how the whole sequence failed. -/
theorem bind_of_err {x : Exec S ε α} {f : α → Exec S ε β} {s s' : S} {e : ε}
    (h : x s = (.err e, s')) : (x >>= f) s = (.err e, s') := by
  rw [bind_apply, h]

theorem bind_of_trap {x : Exec S ε α} {f : α → Exec S ε β} {s s' : S}
    (h : x s = (.trap, s')) : (x >>= f) s = (.trap, s') := by
  rw [bind_apply, h]

/-- Sequences associate. -/
theorem bind_assoc {γ : Type} (x : Exec S ε α) (f : α → Exec S ε β) (h : β → Exec S ε γ) :
    (x >>= f) >>= h = x >>= fun a => f a >>= h := by
  funext s
  rcases ho : x s with ⟨_ | _ | _, s'⟩
  · rw [bind_of_ok ho, bind_apply, bind_of_ok ho, bind_apply]
  · rw [bind_of_err ho, bind_of_err (bind_of_err ho)]
  · rw [bind_of_trap ho, bind_of_trap (bind_of_trap ho)]

/-- **A sequence returns exactly when both halves do.** -/
theorem bind_eq_ok {x : Exec S ε α} {f : α → Exec S ε β} {s s'' : S} {b : β} :
    (x >>= f) s = (.ok b, s'') ↔ ∃ a s', x s = (.ok a, s') ∧ f a s' = (.ok b, s'') := by
  constructor
  · intro h
    rcases hx : x s with ⟨_ | _ | _, s'⟩
    · exact ⟨_, s', rfl, by rwa [bind_of_ok hx] at h⟩
    · rw [bind_of_err hx] at h; cases h
    · rw [bind_of_trap hx] at h; cases h
  · rintro ⟨a, s', hx, hf⟩
    rw [bind_of_ok hx, hf]

theorem failIf_of_not {c : Prop} [Decidable c] (h : ¬ c) (e : ε) (s : S) :
    failIf c e s = (.ok (), s) := by
  simp [failIf, h, pure_apply]

theorem failIf_of {c : Prop} [Decidable c] (h : c) (e : ε) (s : S) :
    failIf c e s = (.err e, s) := by
  simp [failIf, h, fail]

@[simp] theorem failIf_eq_ok {c : Prop} [Decidable c] {e : ε} {s s' : S} {u : Unit} :
    failIf c e s = (.ok u, s') ↔ ¬ c ∧ s' = s := by
  by_cases h : c
  · rw [failIf_of h]
    simp [h]
  · rw [failIf_of_not h]
    simp [h, eq_comm]

@[simp] theorem okOr_eq_ok {o : Option α} {e : ε} {s s' : S} {a : α} :
    okOr o e s = (.ok a, s') ↔ o = some a ∧ s' = s := by
  cases o <;> simp [okOr, pure_apply, fail, eq_comm]

@[simp] theorem orTrap_eq_ok {o : Option α} {s s' : S} {a : α} :
    (orTrap o : Exec S ε α) s = (.ok a, s') ↔ o = some a ∧ s' = s := by
  cases o <;> simp [orTrap, pure_apply, trap, eq_comm]

@[simp] theorem ofExcept_eq_ok {r : Except ε α} {s s' : S} {a : α} :
    ofExcept r s = (.ok a, s') ↔ r = .ok a ∧ s' = s := by
  cases r <;> simp [ofExcept, pure_apply, fail, eq_comm]

@[simp] theorem pure_eq_ok {a b : α} {s s' : S} :
    (pure a : Exec S ε α) s = (.ok b, s') ↔ a = b ∧ s' = s := by
  simp [pure_apply, eq_comm]

@[simp] theorem gets_eq_ok {f : S → α} {a : α} {s s' : S} :
    (gets f : Exec S ε α) s = (.ok a, s') ↔ f s = a ∧ s' = s := by
  simp [gets, eq_comm]

@[simp] theorem modify_eq_ok {f : S → S} {u : Unit} {s s' : S} :
    (modify f : Exec S ε Unit) s = (.ok u, s') ↔ s' = f s := by
  simp [modify, eq_comm]

/-- A call whose value is converted. -/
theorem bind_pure_eq_ok {x : Exec S ε α} {f : α → β} {s s' : S} {b : β} :
    (x >>= fun a => pure (f a)) s = (.ok b, s') ↔ ∃ a, x s = (.ok a, s') ∧ f a = b := by
  simp only [bind_eq_ok, pure_eq_ok]
  constructor
  · rintro ⟨a, _, ha, hb, rfl⟩
    exact ⟨a, ha, hb⟩
  · rintro ⟨a, ha, hb⟩
    exact ⟨a, s', ha, hb, rfl⟩

/-- A part of the state that may be missing. -/
theorem gets_okOr_eq_ok {f : S → Option α} {e : ε} {s s' : S} {a : α} :
    (gets f >>= fun o => okOr o e) s = (.ok a, s') ↔ f s = some a ∧ s' = s := by
  simp only [bind_eq_ok, gets_eq_ok, okOr_eq_ok]
  constructor
  · rintro ⟨_, _, ⟨rfl, rfl⟩, h⟩
    exact h
  · intro h
    exact ⟨_, s, ⟨rfl, rfl⟩, h⟩

/-! ## 2. Calls that the host does not trap -/

/-- From `s`, the call ends with a value or an error code of its own. -/
def Safe (x : Exec S ε α) (s : S) : Prop := (x s).1 ≠ .trap

theorem safe_pure (a : α) (s : S) : Safe (pure a : Exec S ε α) s := by
  simp [Safe, pure_apply]

theorem safe_gets (f : S → α) (s : S) : Safe (gets f : Exec S ε α) s := by
  simp [Safe, gets]

theorem safe_modify (f : S → S) (s : S) : Safe (modify f : Exec S ε Unit) s := by
  simp [Safe, modify]

theorem safe_failIf (c : Prop) [Decidable c] (e : ε) (s : S) : Safe (failIf c e) s := by
  by_cases h : c
  · simp [Safe, failIf_of h]
  · simp [Safe, failIf_of_not h]

theorem safe_okOr (o : Option α) (e : ε) (s : S) : Safe (okOr o e) s := by
  cases o <;> simp [Safe, okOr, pure_apply, fail]

theorem safe_ofExcept (r : Except ε α) (s : S) : Safe (ofExcept r) s := by
  cases r <;> simp [Safe, ofExcept, pure_apply, fail]

/-- **A sequence is safe** when its first part is, and its second part is from every state
the first part can return in. -/
theorem Safe.bind {x : Exec S ε α} {f : α → Exec S ε β} {s : S} (hx : Safe x s)
    (hf : ∀ a s', x s = (.ok a, s') → Safe (f a) s') : Safe (x >>= f) s := by
  rcases ho : x s with ⟨a | _ | _, s'⟩
  · have h : (f a s').1 ≠ .trap := hf a s' ho
    rwa [Safe, bind_of_ok ho]
  · rw [Safe, bind_of_err ho]
    simp
  · exact absurd (by rw [ho]) hx

/-! ## 3. The errors of a call -/

/-- The call writes nothing, and its error codes satisfy `P`. -/
def Reads (P : ε → Prop) (x : Exec S ε α) : Prop :=
  ∀ s, (x s).2 = s ∧ ∀ e, (x s).1 = .err e → P e

section Reads

variable {P : ε → Prop}

theorem reads_pure (a : α) : Reads P (pure a : Exec S ε α) :=
  fun _ => ⟨rfl, fun _ h => by simp [pure_apply] at h⟩

theorem reads_gets (f : S → α) : Reads P (gets f : Exec S ε α) :=
  fun _ => ⟨rfl, fun _ h => by simp [gets] at h⟩

theorem reads_fail {e : ε} (he : P e) : Reads P (fail e : Exec S ε α) := by
  refine fun _ => ⟨rfl, fun _ h => ?_⟩
  cases h
  exact he

theorem reads_failIf (c : Prop) [Decidable c] {e : ε} (he : P e) :
    Reads P (failIf c e : Exec S ε Unit) := by
  unfold failIf
  split
  · exact reads_fail he
  · exact reads_pure ()

theorem reads_okOr (o : Option α) {e : ε} (he : P e) : Reads P (okOr o e : Exec S ε α) := by
  cases o with
  | none => exact reads_fail he
  | some a => exact reads_pure a

theorem reads_ofExcept {r : Except ε α} (hr : ∀ e, r = .error e → P e) :
    Reads P (ofExcept r : Exec S ε α) := by
  cases r with
  | error e => exact reads_fail (hr e rfl)
  | ok a => exact reads_pure a

theorem Reads.bind {x : Exec S ε α} {f : α → Exec S ε β} (hx : Reads P x)
    (hf : ∀ a, Reads P (f a)) : Reads P (x >>= f) := by
  intro s
  obtain ⟨hs, he⟩ := hx s
  rcases ho : x s with ⟨a | e | _, s'⟩
  all_goals
    rw [ho] at hs he
    obtain rfl : s' = s := hs
  · rw [bind_of_ok ho]
    exact hf a s'
  · rw [bind_of_err ho]
    refine ⟨rfl, fun e' h => ?_⟩
    cases h
    exact he e rfl
  · rw [bind_of_trap ho]
    exact ⟨rfl, fun e h => by cases h⟩

end Reads

/-- From `s`, an error code that the call returns and the state it leaves satisfy `Q`. -/
def Fails (Q : ε → S → Prop) (x : Exec S ε α) (s : S) : Prop :=
  ∀ e s', x s = (.err e, s') → Q e s'

section Fails

variable {Q : ε → S → Prop} {s : S}

theorem Fails.mono {Q' : ε → S → Prop} {x : Exec S ε α} (hx : Fails Q x s)
    (h : ∀ e s', Q e s' → Q' e s') : Fails Q' x s :=
  fun e s' he => h e s' (hx e s' he)

theorem fails_pure (a : α) : Fails Q (pure a : Exec S ε α) s := by
  simp [Fails, pure_apply]

theorem fails_gets (f : S → α) : Fails Q (gets f : Exec S ε α) s := by
  simp [Fails, gets]

theorem fails_modify (f : S → S) : Fails Q (modify f : Exec S ε Unit) s := by
  simp [Fails, modify]

theorem fails_failIf {c : Prop} [Decidable c] {e : ε} (hQ : c → Q e s) :
    Fails Q (failIf c e) s := by
  by_cases h : c
  · simpa [Fails, failIf_of h] using hQ h
  · simp [Fails, failIf_of_not h]

theorem fails_okOr {o : Option α} {e : ε} (hQ : o = none → Q e s) : Fails Q (okOr o e) s := by
  cases o with
  | none => simpa [Fails, okOr, fail] using hQ rfl
  | some a => exact fails_pure a

/-- A call that writes nothing fails where it started. -/
theorem Reads.fails {P : ε → Prop} {x : Exec S ε α} (hx : Reads P x) :
    Fails (fun e s' => P e ∧ s' = s) x s := by
  intro e s' h
  obtain ⟨hs, he⟩ := hx s
  rw [h] at hs he
  exact ⟨he e rfl, hs⟩

/-- **The errors of a sequence** are those of its first part, and those of its second part
from every state the first part can return in. -/
theorem Fails.bind {x : Exec S ε α} {f : α → Exec S ε β} (hx : Fails Q x s)
    (hf : ∀ a s', x s = (.ok a, s') → Fails Q (f a) s') : Fails Q (x >>= f) s := by
  intro e s' h
  rcases ho : x s with ⟨a | e' | _, s₁⟩
  · rw [bind_of_ok ho] at h
    exact hf a s₁ ho e s' h
  · rw [bind_of_err ho] at h
    cases h
    exact hx e s' ho
  · rw [bind_of_trap ho] at h
    cases h

end Fails

end Exec

/-! ## 4. Bounded loops -/

section Loop

variable {m : Type → Type} [Monad m] {α β : Type}

/-- `for i in start..start + count`, threading the loop variables `b`. -/
def forRange (body : Nat → β → m β) : Nat → Nat → β → m β
  | _, 0, b => pure b
  | i, n + 1, b => body i b >>= forRange body (i + 1) n

/-- The same loop read along a list, with the index passed beside the element. -/
def forList (body : Nat → α → β → m β) : Nat → List α → β → m β
  | _, [], b => pure b
  | i, x :: xs, b => body i x b >>= forList body (i + 1) xs

/-- **An indexed loop over a list never misses an element.**  A body that looks its element
up by index and fails without one runs, over the index range of the list, as the fold along
the list: the failure branch is unreachable. -/
theorem forRange_get (xs : List α) (body : Nat → Option α → β → m β) :
    ∀ (ys : List α) (i : Nat) (b : β), xs.drop i = ys →
      forRange (fun j b => body j xs[j]? b) i ys.length b =
        forList (fun j x b => body j (some x) b) i ys b
  | [], _, _, _ => rfl
  | y :: ys, i, b, h => by
    have hy : xs[i]? = some y := by
      rw [← List.head?_drop, h, List.head?_cons]
    have hys : xs.drop (i + 1) = ys := by
      rw [← List.tail_drop, h, List.tail_cons]
    simp only [List.length_cons, forRange, forList, hy]
    congr 1
    funext b'
    exact forRange_get xs body ys (i + 1) b' hys

/-- The whole list. -/
theorem forRange_length (xs : List α) (body : Nat → Option α → β → m β) (b : β) :
    forRange (fun j b => body j xs[j]? b) 0 xs.length b =
      forList (fun j x b => body j (some x) b) 0 xs b :=
  forRange_get xs body xs 0 b List.drop_zero

/-- **A loop returns an error exactly when a first round does.**  The rounds before it
returned, and their loop variables are what that round started from. -/
theorem forList_eq_error {ε α β : Type} {body : Nat → α → β → Except ε β} {e : ε} :
    ∀ {xs : List α} {i : Nat} {b : β},
      forList body i xs b = .error e ↔
        ∃ pre x post b', xs = pre ++ x :: post ∧ forList body i pre b = .ok b' ∧
          body (i + pre.length) x b' = .error e
  | [], i, b => by simp [forList, pure, Except.pure]
  | x :: xs, i, b => by
    cases hbody : body i x b with
    | error e' =>
      have hhead : forList body i (x :: xs) b = .error e' := by
        simp [forList, hbody, bind, Except.bind]
      rw [hhead]
      constructor
      · intro he
        exact ⟨[], x, xs, b, rfl, rfl, hbody.trans he⟩
      · rintro ⟨pre, y, post, b', hsplit, hpre, hy⟩
        cases pre with
        | nil =>
          obtain ⟨rfl, rfl⟩ := List.cons.inj hsplit
          cases hpre
          exact hbody.symm.trans hy
        | cons z pre =>
          obtain ⟨rfl, rfl⟩ := List.cons.inj hsplit
          simp [forList, hbody, bind, Except.bind] at hpre
    | ok b₁ =>
      have hhead : ∀ ys, forList body i (x :: ys) b = forList body (i + 1) ys b₁ := by
        simp [forList, hbody, bind, Except.bind]
      rw [hhead, forList_eq_error]
      constructor
      · rintro ⟨pre, y, post, b', rfl, hpre, hy⟩
        refine ⟨x :: pre, y, post, b', rfl, (hhead pre).trans hpre, ?_⟩
        rwa [List.length_cons, Nat.add_comm pre.length, ← Nat.add_assoc]
      · rintro ⟨pre, y, post, b', hsplit, hpre, hy⟩
        cases pre with
        | nil =>
          obtain ⟨rfl, rfl⟩ := List.cons.inj hsplit
          cases hpre
          rw [List.length_nil, Nat.add_zero, hbody] at hy
          cases hy
        | cons z pre =>
          obtain ⟨rfl, rfl⟩ := List.cons.inj hsplit
          rw [List.length_cons, Nat.add_comm pre.length, ← Nat.add_assoc] at hy
          exact ⟨pre, y, post, b', rfl, (hhead pre).symm.trans hpre, hy⟩

end Loop

/-- **A loop is safe** when it keeps an invariant of the remaining elements, the loop
variables and the state under which its body is safe. -/
theorem Exec.safe_forList {S ε α β : Type} {body : Nat → α → β → Exec S ε β}
    {I : Nat → List α → β → S → Prop}
    (hbody : ∀ i x xs b s, I i (x :: xs) b s → Exec.Safe (body i x b) s ∧
      ∀ b' s', body i x b s = (.ok b', s') → I (i + 1) xs b' s') :
    ∀ (xs : List α) (i : Nat) (b : β) (s : S), I i xs b s →
      Exec.Safe (forList body i xs b) s := by
  intro xs
  induction xs with
  | nil => exact fun i b s _ => Exec.safe_pure b s
  | cons x xs ih =>
    intro i b s hI
    obtain ⟨hsafe, hkeep⟩ := hbody i x xs b s hI
    exact hsafe.bind fun b' s' h => ih (i + 1) b' s' (hkeep b' s' h)

theorem Exec.reads_forRange {S ε β : Type} {P : ε → Prop} {body : Nat → β → Exec S ε β}
    (hbody : ∀ i b, Exec.Reads P (body i b)) :
    ∀ (n i : Nat) (b : β), Exec.Reads P (forRange body i n b) := by
  intro n
  induction n with
  | zero => exact fun i b => Exec.reads_pure b
  | succ n ih => exact fun i b => (hbody i b).bind fun b' => ih (i + 1) b'

/-- **The errors of a loop** are those its body has under an invariant of the remaining
elements, the loop variables and the state. -/
theorem Exec.fails_forList {S ε α β : Type} {Q : ε → S → Prop}
    {body : Nat → α → β → Exec S ε β} {I : List α → β → S → Prop}
    (hbody : ∀ i x xs b s, I (x :: xs) b s → Exec.Fails Q (body i x b) s ∧
      ∀ b' s', body i x b s = (.ok b', s') → I xs b' s') :
    ∀ (xs : List α) (i : Nat) (b : β) (s : S), I xs b s →
      Exec.Fails Q (forList body i xs b) s := by
  intro xs
  induction xs with
  | nil => exact fun i b s _ => Exec.fails_pure b
  | cons x xs ih =>
    intro i b s hI
    obtain ⟨hfails, hkeep⟩ := hbody i x xs b s hI
    exact hfails.bind fun b' s' h => ih (i + 1) b' s' (hkeep b' s' h)

/-- **What every round of a loop keeps** holds when the loop is left. -/
theorem Exec.forRange_keeps {S ε β : Type} {body : Nat → β → Exec S ε β}
    {I : Nat → β → S → Prop}
    (hbody : ∀ i b s b' s', I i b s → body i b s = (.ok b', s') → I (i + 1) b' s') :
    ∀ (n i : Nat) (b : β) (s : S) (b' : β) (s' : S), I i b s →
      forRange body i n b s = (.ok b', s') → I (i + n) b' s' := by
  intro n
  induction n with
  | zero =>
    intro i b s b' s' hI h
    obtain ⟨rfl, rfl⟩ := Exec.pure_eq_ok.mp h
    exact hI
  | succ n ih =>
    intro i b s b' s' hI h
    obtain ⟨b₁, s₁, h₁, h₂⟩ := Exec.bind_eq_ok.mp h
    have hrest : I (i + 1 + n) b' s' := ih (i + 1) b₁ s₁ b' s' (hbody i b s b₁ s₁ hI h₁) h₂
    rwa [Nat.add_assoc, Nat.add_comm 1] at hrest

/-- **A loop can be cut** before any of its rounds. -/
theorem Exec.forRange_add {S ε β : Type} (body : Nat → β → Exec S ε β) :
    ∀ (n m i : Nat) (b : β),
      forRange body i (n + m) b = forRange body i n b >>= forRange body (i + n) m := by
  intro n
  induction n with
  | zero =>
    intro m i b
    rw [Nat.zero_add]
    rfl
  | succ n ih =>
    intro m i b
    rw [Nat.succ_add_eq_add_succ, Nat.add_succ, forRange, forRange, Exec.bind_assoc]
    refine congrArg (body i b >>= ·) ?_
    funext b'
    rw [ih m (i + 1) b', Nat.add_assoc, Nat.add_comm 1 n]

end Stellariq.Kit
