/-
# What a call leaves behind, however it ends

The host rolls a failed call back, but what the call did before it failed has been done: an adapter
was called, a token contract ran.  `Leaves I x s` says that the state the call `x` had reached from
`s` satisfies `I` however it ended, so it speaks of the attempts as well as of the successes; the
log of the running call is part of that state.

There is a rule for each way the calls are built.  A guard or a read leaves the state it found; in
a sequence (`Leaves.bind`) the second part may use what the first one returned and from where.  What
is left behind can also be what makes two calls the same (`bind_congr`, `forRange_congr`).
-/
import Stellariq.Kit.Host

namespace Stellariq.Kit

namespace Exec

variable {S ε α β : Type} {I : S → Prop} {s : S}

/-- However `x` ends, the state it had reached from `s` satisfies `I`. -/
def Leaves (I : S → Prop) (x : Exec S ε α) (s : S) : Prop := I (x s).2

/-! ## 1. Single calls -/

theorem leaves_pure (hs : I s) (a : α) : Leaves I (pure a : Exec S ε α) s := hs

theorem leaves_gets (hs : I s) (f : S → α) : Leaves I (gets f : Exec S ε α) s := hs

theorem leaves_failIf (hs : I s) (c : Prop) [Decidable c] (e : ε) :
    Leaves I (failIf c e : Exec S ε Unit) s := by
  by_cases h : c
  · rwa [Leaves, failIf_of h]
  · rwa [Leaves, failIf_of_not h]

theorem leaves_okOr (hs : I s) (o : Option α) (e : ε) : Leaves I (okOr o e) s := by
  cases o <;> exact hs

theorem leaves_ofExcept (hs : I s) (r : Except ε α) : Leaves I (ofExcept r) s := by
  cases r <;> exact hs

/-! ## 2. Sequences and loops -/

/-- **A sequence** leaves what its first part leaves, or what its second part leaves from a state
that the first part has returned in. -/
theorem Leaves.bind {x : Exec S ε α} {f : α → Exec S ε β} (hx : Leaves I x s)
    (hf : ∀ a s', x s = (.ok a, s') → I s' → Leaves I (f a) s') : Leaves I (x >>= f) s := by
  rcases ho : x s with ⟨a | e | _, s'⟩
  · have hs' : I s' := by rwa [Leaves, ho] at hx
    have h : I (f a s').2 := hf a s' ho hs'
    rwa [Leaves, bind_of_ok ho]
  · rw [Leaves, bind_of_err ho]
    rwa [Leaves, ho] at hx
  · rw [Leaves, bind_of_trap ho]
    rwa [Leaves, ho] at hx

/-- **A loop** leaves what each of its rounds leaves. -/
theorem leaves_forRange {body : Nat → β → Exec S ε β}
    (hbody : ∀ i b s, I s → Leaves I (body i b) s) :
    ∀ (n i : Nat) (b : β) (s : S), I s → Leaves I (forRange body i n b) s := by
  intro n
  induction n with
  | zero => exact fun i b s hs => leaves_pure hs b
  | succ n ih =>
    intro i b s hs
    exact (hbody i b s hs).bind fun b' s' _ hs' => ih (i + 1) b' s' hs'

/-- Two sequences that begin alike are the same when they go on alike. -/
theorem bind_congr {x : Exec S ε α} {f g : α → Exec S ε β} (hx : Leaves I x s)
    (hfg : ∀ a s', x s = (.ok a, s') → I s' → f a s' = g a s') : (x >>= f) s = (x >>= g) s := by
  rcases ho : x s with ⟨a | e | _, s'⟩
  · rw [Leaves, ho] at hx
    rw [bind_of_ok ho, bind_of_ok ho, hfg a s' ho hx]
  · rw [bind_of_err ho, bind_of_err ho]
  · rw [bind_of_trap ho, bind_of_trap ho]

/-- Two loops are the same when their rounds are. -/
theorem forRange_congr {body body' : Nat → β → Exec S ε β}
    (hleaves : ∀ i b s, I s → Leaves I (body i b) s)
    (hbody : ∀ i b s, I s → body i b s = body' i b s) :
    ∀ (n i : Nat) (b : β) (s : S), I s → forRange body i n b s = forRange body' i n b s := by
  intro n
  induction n with
  | zero => exact fun i b s _ => rfl
  | succ n ih =>
    intro i b s hs
    calc forRange body i (n + 1) b s
        = (body i b >>= forRange body' (i + 1) n) s :=
          bind_congr (hleaves i b s hs) fun b' s' _ hs' => ih (i + 1) b' s' hs'
      _ = (body' i b >>= forRange body' (i + 1) n) s := by
          rw [bind_apply, bind_apply, hbody i b s hs]

end Exec

/-! ## 3. Host operations -/

section Host

variable {R K E X σ ε : Type} {I : Running R K E X σ → Prop} {s : Running R K E X σ}

theorem leaves_requireAuth (hs : I s) (c : Ctx) (a : Address) :
    Exec.Leaves I (requireAuth c a : Exec (Running R K E X σ) ε Unit) s := by
  unfold requireAuth
  split <;> exact hs

theorem leaves_balance (hs : I s) (T : Tokens σ) (t x : Address) :
    Exec.Leaves I (balance T t x : Exec (Running R K E X σ) ε Int) s := by
  unfold Exec.Leaves balance
  split <;> exact hs

theorem leaves_transfer (hs : I s) {T : Tokens σ} {c : Ctx} {t src dst : Address} {a : Int}
    (hpay : ∀ w, s.world.pay T t src dst a = some w →
      I { s with world := w, log := s.log ++ [.transfer t src dst a] }) :
    Exec.Leaves I (transfer T c t src dst a : Exec (Running R K E X σ) ε Unit) s := by
  unfold Exec.Leaves transfer
  split
  · cases hp : s.world.pay T t src dst a with
    | none => exact hs
    | some w => exact hpay w hp
  · exact hs

theorem leaves_write {k : K} {f : R → R}
    (hs : I { s with store := f s.store, log := s.log ++ [.write k] }) :
    Exec.Leaves I (write k f : Exec (Running R K E X σ) ε Unit) s := hs

theorem leaves_touch {f : R → R} (hs : I { s with store := f s.store }) :
    Exec.Leaves I (touch f : Exec (Running R K E X σ) ε Unit) s := hs

theorem leaves_publish {e : E} (hs : I { s with log := s.log ++ [.event e] }) :
    Exec.Leaves I (publish e : Exec (Running R K E X σ) ε Unit) s := hs

theorem leaves_updateWasm {c : Ctx} {hash : WasmHash} (hs : I s)
    (hup : I { s with log := s.log ++ [.updateWasm hash] }) :
    Exec.Leaves I (updateWasm c hash : Exec (Running R K E X σ) ε Unit) s := by
  unfold Exec.Leaves updateWasm
  split
  · exact hup
  · exact hs

end Host

end Stellariq.Kit
