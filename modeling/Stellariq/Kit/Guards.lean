/-
# Calls read as lists of checks

Most of what an entrypoint does is to refuse.  A `Guard` is one reason to refuse: whether it
applies, and the error code it gives, or none when it is the host that refuses.  A list of guards
is a decision table: the call ends with the first that fires, and returns when none does
(`verdict`).

`Obeys x s gs a` says that the call `x` ends as such a table says from the state `s`.  A table for a
sequence is the table of its first part and then that of its second part (`Obeys.bind`), where the
second part matters only in the state in which the first has returned; so of a first part one also
has to know that state (`Ends`).  A failed call may have changed its state before it failed, and
the table says nothing about that: the host discards it.
-/
import Stellariq.Kit.Host

namespace Stellariq.Kit

/-! ## 1. Tables -/

/-- A reason to refuse: whether it applies, and the error code it gives, if any. -/
structure Guard (ε : Type) where
  fires : Bool
  code : Option ε
deriving DecidableEq, Repr

namespace Guard

variable {ε α β : Type}

/-- The contract refuses with `e` when `p`. -/
def err (p : Prop) [Decidable p] (e : ε) : Guard ε := ⟨decide p, some e⟩

/-- The host traps the call when `p`. -/
def host (p : Prop) [Decidable p] : Guard ε := ⟨decide p, none⟩

@[simp] theorem fires_err (p : Prop) [Decidable p] (e : ε) : (err p e).fires = decide p := rfl

@[simp] theorem fires_host (p : Prop) [Decidable p] : (host p : Guard ε).fires = decide p := rfl

/-- How a call ends that the guard has stopped. -/
def outcome (g : Guard ε) : Outcome ε α :=
  match g.code with
  | some e => .err e
  | none => .trap

theorem outcome_isOk (g : Guard ε) : (g.outcome : Outcome ε α).isOk = false := by
  rcases g with ⟨_, _ | e⟩ <;> rfl

end Guard

section Verdict

variable {ε α : Type} {gs hs : List (Guard ε)} {g : Guard ε} {a b : α}

/-- No guard of the table fires. -/
def Clear (gs : List (Guard ε)) : Prop := gs.find? Guard.fires = none

instance : Decidable (Clear gs) := by
  unfold Clear; infer_instance

/-- The end of a call with the table `gs` that returns `a` when nothing stops it. -/
def verdict (gs : List (Guard ε)) (a : α) : Outcome ε α :=
  match gs.find? Guard.fires with
  | some g => g.outcome
  | none => .ok a

@[simp] theorem clear_nil : Clear ([] : List (Guard ε)) := rfl

@[simp] theorem clear_cons : Clear (g :: gs) ↔ g.fires = false ∧ Clear gs := by
  cases h : g.fires <;> simp [Clear, h]

@[simp] theorem clear_append : Clear (gs ++ hs) ↔ Clear gs ∧ Clear hs := by
  simp [Clear, List.find?_append]

theorem verdict_cons (g : Guard ε) (gs : List (Guard ε)) (a : α) :
    verdict (g :: gs) a = if g.fires = true then g.outcome else verdict gs a := by
  cases h : g.fires <;> simp [verdict, h]

theorem verdict_of_clear (h : Clear gs) (a : α) : verdict gs a = .ok a := by
  rw [verdict, h]

/-- A table that is not clear never lets the call return. -/
theorem verdict_isOk_iff : (verdict gs a).isOk = true ↔ Clear gs := by
  unfold verdict Clear
  cases gs.find? Guard.fires with
  | none => simp [Outcome.isOk]
  | some g => simp [Guard.outcome_isOk]

theorem verdict_eq_ok : verdict gs a = .ok b ↔ Clear gs ∧ a = b := by
  by_cases h : Clear gs
  · rw [verdict_of_clear h]
    simp [h]
  · have hne : verdict gs a ≠ .ok b := fun he => h (verdict_isOk_iff.mp (by rw [he]; rfl))
    simp [h, hne]

end Verdict

/-! ## 2. Calls that obey a table -/

section Obeys

variable {S ε α β : Type} {x : Exec S ε α} {f : α → Exec S ε β} {s t : S}
  {gs hs : List (Guard ε)} {g : Guard ε} {a : α} {b : β}

/-- From `s` the call ends with the first guard that fires, and returns `a` when none does. -/
def Obeys (x : Exec S ε α) (s : S) (gs : List (Guard ε)) (a : α) : Prop := (x s).1 = verdict gs a

/-- The same, and where it returns it leaves the state `t`. -/
structure Ends (x : Exec S ε α) (s : S) (gs : List (Guard ε)) (a : α) (t : S) : Prop where
  obeys : Obeys x s gs a
  state : ∀ b t', x s = (.ok b, t') → t' = t

theorem Ends.eq_ok (h : Ends x s gs a t) (hc : Clear gs) : x s = (.ok a, t) := by
  have hx : x s = (.ok a, (x s).2) := Exec.eq_ok_of_fst (h.obeys.trans (verdict_of_clear hc a))
  rw [hx, h.state a _ hx]

theorem ends_of_ok (h : x s = (.ok a, t)) : Ends x s [] a t := by
  refine ⟨congrArg Prod.fst h, fun b t' hb => ?_⟩
  rw [h] at hb
  cases hb
  rfl

/-- A call with one guard. -/
theorem ends_single (hstop : g.fires = true → (x s).1 = g.outcome)
    (hpass : g.fires = false → x s = (.ok a, t)) : Ends x s [g] a t := by
  cases hg : g.fires with
  | true =>
    have h := hstop hg
    refine ⟨by simpa [Obeys, verdict, hg] using h, fun b t' hb => ?_⟩
    rw [hb] at h
    have hfail := g.outcome_isOk (α := α)
    rw [← h] at hfail
    cases hfail
  | false =>
    have h := hpass hg
    refine ⟨by simp [Obeys, verdict, hg, h], fun b t' hb => ?_⟩
    rw [h] at hb
    cases hb
    rfl

namespace Obeys

/-- A first part that is stopped for certain. -/
theorem bind_stopped (h : (x s).1 = g.outcome) (hg : gs.find? Guard.fires = some g) :
    Obeys (x >>= f) s gs b := by
  rw [Obeys, verdict, hg]
  rcases g with ⟨_, _ | e⟩ <;> rcases ho : x s with ⟨_ | _ | _, s'⟩ <;> rw [ho] at h <;> cases h
  · rw [Exec.bind_of_trap ho]
    rfl
  · rw [Exec.bind_of_err ho]
    rfl

/-- A first part that its table does not let return. -/
theorem bind_refused (hx : Obeys x s gs a) (hc : ¬ Clear gs) : Obeys (x >>= f) s gs b := by
  obtain ⟨g, hg⟩ := Option.ne_none_iff_exists'.mp hc
  refine bind_stopped ?_ hg
  rw [hx, verdict, hg]

/-- **A sequence** obeys the table of its first part and then the table of its second. -/
theorem bind (hx : Ends x s gs a t) (hf : x s = (.ok a, t) → Obeys (f a) t hs b) :
    Obeys (x >>= f) s (gs ++ hs) b := by
  by_cases hc : Clear gs
  · have hok := hx.eq_ok hc
    have hrest : verdict (gs ++ hs) b = verdict hs b := by
      rw [verdict, List.find?_append, hc, Option.none_or, verdict]
    rw [Obeys, Exec.bind_of_ok hok, hrest]
    exact hf hok
  · have hfirst : verdict (gs ++ hs) b = verdict gs b := by
      obtain ⟨g, hg⟩ := Option.ne_none_iff_exists'.mp hc
      rw [verdict, List.find?_append, hg, Option.some_or, verdict, hg]
    rw [Obeys, hfirst]
    exact hx.obeys.bind_refused hc

/-- A first part with one guard. -/
theorem bind_cons (hx : Ends x s [g] a t) (hf : x s = (.ok a, t) → Obeys (f a) t hs b) :
    Obeys (x >>= f) s (g :: hs) b := bind hx hf

/-- A first part that always returns. -/
theorem bind_nil (hx : x s = (.ok a, t)) (hf : Obeys (f a) t hs b) : Obeys (x >>= f) s hs b :=
  bind (ends_of_ok hx) fun _ => hf

/-- A call whose value is converted. -/
theorem map (hx : Obeys x s gs a) (f : α → β) : Obeys (x >>= fun a => pure (f a)) s gs (f a) := by
  by_cases hc : Clear gs
  · have hok : x s = (.ok a, (x s).2) := Exec.eq_ok_of_fst (hx.trans (verdict_of_clear hc a))
    rw [Obeys, verdict_of_clear hc, Exec.bind_of_ok hok, Exec.pure_apply]
  · exact hx.bind_refused hc

end Obeys

theorem ends_failIf {p q : Prop} [Decidable p] [Decidable q] (h : p ↔ q) (e : ε) (s : S) :
    Ends (Exec.failIf p e) s [.err q e] () s := by
  refine ends_single (fun hq => ?_) fun hq => ?_
  · rw [Exec.failIf_of (h.mpr (of_decide_eq_true hq))]
    rfl
  · exact Exec.failIf_of_not (h.not.mpr (of_decide_eq_false hq)) e s

theorem ends_okOr {o : Option α} {p : Prop} [Decidable p] {a : α}
    (h : o = if p then none else some a) (e : ε) (s : S) :
    Ends (Exec.okOr o e) s [.err p e] a s := by
  refine ends_single (fun hp => ?_) fun hp => ?_
  · rw [h, if_pos (of_decide_eq_true hp)]
    rfl
  · rw [h, if_neg (of_decide_eq_false hp)]
    rfl

theorem ends_orTrap {o : Option α} {p : Prop} [Decidable p] {a : α}
    (h : o = if p then none else some a) (s : S) :
    Ends (Exec.orTrap o : Exec S ε α) s [.host p] a s := by
  refine ends_single (fun hp => ?_) fun hp => ?_
  · rw [h, if_pos (of_decide_eq_true hp)]
    rfl
  · rw [h, if_neg (of_decide_eq_false hp)]
    rfl

theorem checkedU32_if (n : Nat) : checkedU32 n = if U32_MAX < n then none else some n := by
  by_cases h : U32_MAX < n <;> simp [checkedU32, h, not_le.mpr, not_lt.mp]

theorem checkedU64_if (n : Nat) : checkedU64 n = if U64_MAX < n then none else some n := by
  by_cases h : U64_MAX < n <;> simp [checkedU64, h, not_le.mpr, not_lt.mp]

/-- A bound that cannot be broken from below. -/
theorem within_if_of_le {lo hi v : Int} (h : lo ≤ v) :
    (if lo ≤ v ∧ v ≤ hi then some v else none) = if hi < v then none else some v := by
  by_cases hv : hi < v <;> simp [h, hv, not_le.mpr, not_lt.mp]

theorem checkedI128_if (v : Int) :
    checkedI128 v = if ¬ (I128_MIN ≤ v ∧ v ≤ I128_MAX) then none else some v := by
  rw [checkedI128, ite_not]

end Obeys

section HostSteps

variable {R K E X σ ε : Type} {s : Running R K E X σ} {c : Ctx}

theorem ends_requireAuth (c : Ctx) (a : Address) (s : Running R K E X σ) :
    Ends (requireAuth c a : Exec (Running R K E X σ) ε Unit) s [.host (¬ c.Authorizes a)] () s := by
  refine ends_single (fun h => ?_) fun h => ?_
  · rw [requireAuth, if_neg (of_decide_eq_true h)]
    rfl
  · exact requireAuth_eq_ok.mpr ⟨not_not.mp (of_decide_eq_false h), rfl⟩

theorem ends_balance (T : Tokens σ) (t x : Address) (s : Running R K E X σ) :
    Ends (balance T t x : Exec (Running R K E X σ) ε Int) s
      [.host (T.isToken s.world t = false)] (s.world.bal t x) s := by
  refine ends_single (fun h => ?_) fun h => ?_
  · have hno : T.isToken s.world t = false := of_decide_eq_true h
    simp [balance, hno, Guard.outcome, Guard.host]
  · exact balance_eq_ok.mpr ⟨by simpa using of_decide_eq_false h, rfl, rfl⟩

/-- A payment that the sender stands by is refused by the token only. -/
theorem ends_transfer {T : Tokens σ} {t src dst : Address} {a : Int}
    (hauth : src = c.self ∨ c.Authorizes src) :
    Ends (transfer T c t src dst a : Exec (Running R K E X σ) ε Unit) s
      [.host (s.world.pay T t src dst a = none)] ()
      { s with
        world := (s.world.pay T t src dst a).getD s.world
        log := s.log ++ [.transfer t src dst a] } := by
  cases hp : s.world.pay T t src dst a with
  | none =>
    refine ends_single (fun _ => ?_) fun h => absurd h (by simp [Guard.host])
    rw [transfer, if_pos hauth, hp]
    rfl
  | some w =>
    refine ends_single (fun h => absurd h (by simp [Guard.host])) fun _ => ?_
    rw [transfer_eq_ok]
    exact ⟨hauth, w, hp, rfl⟩

theorem ends_updateWasm (c : Ctx) (hash : WasmHash) (s : Running R K E X σ) :
    Ends (updateWasm c hash : Exec (Running R K E X σ) ε Unit) s
      [.host (c.uploaded hash = false)] () { s with log := s.log ++ [.updateWasm hash] } := by
  refine ends_single (fun h => ?_) fun h => ?_
  · have hno : c.uploaded hash = false := of_decide_eq_true h
    simp [updateWasm, hno, Guard.outcome, Guard.host]
  · exact updateWasm_eq_ok.mpr ⟨by simpa using of_decide_eq_false h, rfl⟩

end HostSteps

end Stellariq.Kit
