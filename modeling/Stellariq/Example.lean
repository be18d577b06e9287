/-
# The example contract

`contracts/example/src/lib.rs`: a greeting that can be stored once by `initialize` and any number
of times by `set_greeting`, and a counter.  Nothing is authorized, a `panic!` is a trap, and
`count + 1` traps when it overflows.

The contract goes by the calls that it has accepted and by nothing else
(`accepted_calls_decide`).  So its histories can be listed: the two stores of a greeting do not know
each other, and `initialize` is accepted only where no greeting was stored in either way.  It is
also what resets the counter, so counts that were made before it are lost.
-/
import Stellariq.Kit.Chronicle

namespace Stellariq.Example

open Kit

/-! ## 1. The contract -/

/-- `DataKey::Greeting` and `COUNTER`. -/
inductive DataKey where
  | greeting
  | counter
deriving DecidableEq, Repr

structure Store where
  greeting : Option Symbol
  counter : Option Int

def Store.undeployed : Store := { greeting := none, counter := none }

def I32_MAX : Int := 2 ^ 31 - 1
def I32_MIN : Int := -2 ^ 31

def checkedI32 (v : Int) : Option Int := if I32_MIN ≤ v ∧ v ≤ I32_MAX then some v else none

abbrev State (σ : Type) : Type := Running Store DataKey Empty Empty σ

abbrev Call (σ α : Type) : Type := Exec (State σ) Empty α

variable {σ : Type}

/-- `initialize`, whose name is a keyword here. -/
def initializeExample (greeting : Symbol) : Call σ Unit := do
  let stored ← Exec.gets fun s => s.store.greeting
  Exec.orTrap (if stored.isSome = true then none else some ())
  write .greeting fun st => { st with greeting := some greeting }
  write .counter fun st => { st with counter := some 0 }

def greeting : Call σ Symbol := do
  let stored ← Exec.gets fun s => s.store.greeting
  Exec.orTrap stored

def setGreeting (greeting : Symbol) : Call σ Unit :=
  write .greeting fun st => { st with greeting := some greeting }

def count : Call σ Int := Exec.gets fun s => s.store.counter.getD 0

def increment : Call σ Int := do
  let count ← Exec.gets fun s => s.store.counter.getD 0
  let next ← Exec.orTrap (checkedI32 (count + 1))
  write .counter fun st => { st with counter := some next }
  pure next

def hello (_name : Symbol) : Call σ Symbol := pure ⟨"Hello"⟩

inductive Invocation where
  | initializeExample (greeting : Symbol)
  | greeting
  | setGreeting (greeting : Symbol)
  | increment
  | count
  | hello (name : Symbol)
deriving DecidableEq

inductive Value where
  | unit
  | symbol (a : Symbol)
  | int (n : Int)
deriving DecidableEq

/-- The value of a call, as a value of an entrypoint. -/
def returning {α : Type} (f : α → Value) (x : Call σ α) : Call σ Value := do
  let a ← x
  pure (f a)

/-- The entrypoints, which need nothing of their host and their circumstances. -/
def dispatch (_ : Unit) (_ : Ctx) : Invocation → Call σ Value
  | .initializeExample g => returning (fun _ => .unit) (initializeExample g)
  | .greeting => returning .symbol greeting
  | .setGreeting g => returning (fun _ => .unit) (setGreeting g)
  | .increment => returning .int increment
  | .count => returning .int count
  | .hello name => returning .symbol (hello name)

/-- The steps of the example contract at the address `self`. -/
abbrev Step (self : Address) : Chain Store σ →
    Label Unit Invocation Value DataKey Empty Empty Empty → Chain Store σ → Prop :=
  TxStep dispatch self

/-! ## 2. What the accepted calls come to -/

/-- The greeting after a call. -/
def Invocation.greets (stored : Option Symbol) : Invocation → Option Symbol
  | .initializeExample g => some g
  | .setGreeting g => some g
  | _ => stored

/-- The counter after a call. -/
def Invocation.counts (n : Int) : Invocation → Int
  | .initializeExample _ => 0
  | .increment => n + 1
  | _ => n

def greetingOf (past : List Invocation) : Option Symbol := past.foldl Invocation.greets none

def countOf (past : List Invocation) : Int := past.foldl Invocation.counts 0

@[simp] theorem greetingOf_snoc (past : List Invocation) (i : Invocation) :
    greetingOf (past ++ [i]) = i.greets (greetingOf past) := by simp [greetingOf]

@[simp] theorem countOf_snoc (past : List Invocation) (i : Invocation) :
    countOf (past ++ [i]) = i.counts (countOf past) := by simp [countOf]

theorem countOf_nonneg (past : List Invocation) : 0 ≤ countOf past := by
  induction past using List.reverseRecOn with
  | nil => exact le_refl _
  | append_singleton past i ih =>
    rw [countOf_snoc]
    cases i <;> simp only [Invocation.counts] <;> omega

/-- The reasons to refuse a call. -/
def refusals (past : List Invocation) : Invocation → List (Guard Empty)
  | .initializeExample _ => [.host ((greetingOf past).isSome = true)]
  | .greeting => [.host (greetingOf past = none)]
  | .increment => [.host (I32_MAX < countOf past + 1)]
  | _ => []

def reply (past : List Invocation) : Invocation → Value
  | .greeting => .symbol ((greetingOf past).getD ⟨""⟩)
  | .increment => .int (countOf past + 1)
  | .count => .int (countOf past)
  | .hello _ => .symbol ⟨"Hello"⟩
  | _ => .unit

/-- The storage is what the accepted calls come to. -/
structure Remembers (st : Store) (past : List Invocation) : Prop where
  greeting : st.greeting = greetingOf past
  counter : st.counter.getD 0 = countOf past

section Calls

variable {st : Store} {past : List Invocation} {s : State σ}

theorem returning_eq_ok {α : Type} {f : α → Value} {x : Call σ α} {s' : State σ} {v : Value} :
    returning f x s = (.ok v, s') ↔ ∃ a, x s = (.ok a, s') ∧ f a = v :=
  Exec.bind_pure_eq_ok

theorem checkedI32_if_of_nonneg {v : Int} (hv : 0 ≤ v) :
    checkedI32 v = if I32_MAX < v then none else some v :=
  within_if_of_le (le_trans (by decide) hv)

theorem Remembers.obeys (hst : Remembers s.store past) (c : Ctx) (i : Invocation) :
    Obeys (dispatch () c i) s (refusals past i) (reply past i) := by
  have hgreeting : (Exec.gets fun s => s.store.greeting : Call σ _) s
      = (.ok (greetingOf past), s) := Exec.gets_eq_ok.mpr ⟨hst.greeting, rfl⟩
  have hcounter : (Exec.gets fun s => s.store.counter.getD 0 : Call σ _) s
      = (.ok (countOf past), s) := Exec.gets_eq_ok.mpr ⟨hst.counter, rfl⟩
  cases i with
  | initializeExample g =>
    refine Obeys.map (a := ()) ?_ _
    refine .bind_nil hgreeting ?_
    exact .bind_cons (ends_orTrap rfl s) fun _ => rfl
  | greeting =>
    cases hg : greetingOf past with
    | none =>
      refine .bind_stopped (g := .host True) ?_ (by simp [refusals, hg, Guard.host])
      rw [Example.greeting, Exec.bind_of_ok hgreeting, hg]
      rfl
    | some g =>
      have hread : Example.greeting s = (.ok g, s) := by
        rw [Example.greeting, Exec.bind_of_ok hgreeting, hg]
        rfl
      have hcall : dispatch () c .greeting s = (.ok (.symbol g), s) :=
        returning_eq_ok.mpr ⟨g, hread, rfl⟩
      have hrefusals : Clear (refusals past .greeting) := by simp [refusals, hg]
      rw [Obeys, verdict_of_clear hrefusals, hcall, reply, hg, Option.getD_some]
  | setGreeting g => rfl
  | increment =>
    have hn := countOf_nonneg past
    refine Obeys.map ?_ _
    refine .bind_nil hcounter ?_
    exact .bind_cons (ends_orTrap (checkedI32_if_of_nonneg (by omega)) s) fun _ => rfl
  | count => exact .bind_nil hcounter rfl
  | hello name => rfl

theorem Remembers.viewed {i : Invocation} (hst : Remembers st past)
    (hg : i.greets (greetingOf past) = greetingOf past)
    (hn : i.counts (countOf past) = countOf past) : Remembers st (past ++ [i]) :=
  ⟨by rw [greetingOf_snoc, hg, hst.greeting], by rw [countOf_snoc, hn, hst.counter]⟩

/-- Only the storage changes, and nothing is seen of that. -/
theorem Remembers.leaves {s' : State σ} {c : Ctx} {i : Invocation} {v : Value}
    (hst : Remembers s.store past) (hok : dispatch () c i s = (.ok v, s')) :
    Remembers s'.store (past ++ [i]) ∧ s'.world = s.world ∧ seenOf s'.log = seenOf s.log := by
  cases i with
  | initializeExample g =>
    rcases returning_eq_ok.mp hok with ⟨_, hx, rfl⟩
    simp only [initializeExample, Exec.bind_eq_ok, Exec.gets_eq_ok, Exec.orTrap_eq_ok,
      write_eq_ok] at hx
    rcases hx with ⟨_, _, ⟨-, rfl⟩, _, _, ⟨-, rfl⟩, _, _, rfl, rfl⟩
    refine ⟨⟨by simp [Invocation.greets], by simp [Invocation.counts]⟩, rfl, ?_⟩
    simp [seenOf, HostOp.seen]
  | greeting =>
    rcases returning_eq_ok.mp hok with ⟨_, hx, rfl⟩
    simp only [Example.greeting, Exec.bind_eq_ok, Exec.gets_eq_ok, Exec.orTrap_eq_ok] at hx
    rcases hx with ⟨_, _, ⟨-, rfl⟩, -, rfl⟩
    exact ⟨hst.viewed rfl rfl, rfl, rfl⟩
  | setGreeting g =>
    rcases returning_eq_ok.mp hok with ⟨_, hx, rfl⟩
    rw [setGreeting, write_eq_ok] at hx
    subst hx
    refine ⟨⟨by simp [Invocation.greets], ?_⟩, rfl, by simp [seenOf, HostOp.seen]⟩
    simpa [Invocation.counts] using hst.counter
  | increment =>
    rcases returning_eq_ok.mp hok with ⟨_, hx, rfl⟩
    simp only [increment, Exec.bind_eq_ok, Exec.gets_eq_ok, Exec.orTrap_eq_ok, write_eq_ok,
      Exec.pure_eq_ok] at hx
    rcases hx with ⟨_, _, ⟨rfl, rfl⟩, n, _, ⟨hn, rfl⟩, _, _, rfl, rfl, rfl⟩
    have hnext : n = countOf past + 1 := by
      rw [hst.counter, checkedI32, Option.ite_none_right_eq_some] at hn
      exact (Option.some.inj hn.2).symm
    refine ⟨⟨?_, ?_⟩, rfl, by simp [seenOf, HostOp.seen]⟩
    · simpa [Invocation.greets] using hst.greeting
    · simpa [Invocation.counts] using hnext
  | count =>
    rcases returning_eq_ok.mp hok with ⟨_, hx, rfl⟩
    rcases Exec.gets_eq_ok.mp hx with ⟨-, rfl⟩
    exact ⟨hst.viewed rfl rfl, rfl, rfl⟩
  | hello name =>
    rcases returning_eq_ok.mp hok with ⟨_, hx, rfl⟩
    rcases Exec.pure_eq_ok.mp hx with ⟨-, rfl⟩
    exact ⟨hst.viewed rfl rfl, rfl, rfl⟩

end Calls

/-! ## 3. The contract is its history -/

theorem dispatch_follows : Follows (dispatch (σ := σ)) (chronicle refusals reply) Remembers where
  ends _ c i w hst := Remembers.obeys (s := ⟨_, w, []⟩) hst c i
  leaves := by
    intro st past h c i w v s hst hok
    rcases hst.leaves (s := ⟨st, w, []⟩) hok with ⟨hst', hworld, hlog⟩
    exact ⟨hst', hworld.symm, hlog.symm⟩

/-- **The accepted calls decide everything.**  From deployment on, in every run, every call ends as
the calls accepted so far say, and the lists of calls that can have been accepted are exactly those
in which every `initialize` comes before any store of a greeting, every `greeting` after one, and
no increment leads beyond the largest `i32`. -/
theorem accepted_calls_decide (self : Address) (b : Chain Unit σ) :
    (∀ ls b', Runs (Step self) (b.holding Store.undeployed) ls b' → ∀ c i,
      (dispatch () c i b'.start).1 = verdict (refusals (accepted ls) i) (reply (accepted ls) i)) ∧
    ∀ is, (∃ ls b', Runs (Step self) (b.holding Store.undeployed) ls b' ∧ accepted ls = is) ↔
      ∀ past i later, is = past ++ i :: later →
        match i with
        | .initializeExample _ => greetingOf past = none
        | .greeting => greetingOf past ≠ none
        | .increment => countOf past + 1 ≤ I32_MAX
        | _ => True := by
  have h0 : Remembers Store.undeployed [] := ⟨rfl, rfl⟩
  constructor
  · intro ls b' hrun c i
    rcases dispatch_follows.chronicled h0 hrun with ⟨hst, -⟩
    exact Remembers.obeys (s := b'.start) hst c i
  · intro is
    refine (dispatch_follows.histories h0 ()).trans ?_
    refine forall_congr' fun past => forall_congr' fun i => forall_congr' fun later => ?_
    refine imp_congr_right fun _ => ?_
    cases i <;> simp [refusals]

end Stellariq.Example
