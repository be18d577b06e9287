/-
# A contract on a chain

The life of a contract between calls: its storage, the world around it, and the ledger clock.
A step is one call of an entrypoint, by anybody and under any circumstances, or something that
happens elsewhere on the chain.  The host keeps what a call did when it returned a value and
discards all of it otherwise, and it never lets the contract's storage be written from elsewhere
or the clock run backwards.

The entrypoints are a parameter (`dispatch`), so that a run of a contract is a run of
`TxStep dispatch self`.
-/
import Stellariq.Kit.Host
import Stellariq.Kit.Runs

namespace Stellariq.Kit

/-! ## 1. Calls and steps -/

/-- A contract's storage, the rest of the chain, and the time and number of the last ledger. -/
structure Chain (R σ : Type) where
  store : R
  world : World σ
  now : Nat
  seq : Nat

/-- The state in which a call starts: nothing has been done yet. -/
def Chain.start {R K E X σ : Type} (b : Chain R σ) : Running R K E X σ :=
  { store := b.store, world := b.world, log := [] }

/-- One call from outside: what was called and under which circumstances, how it ended, and what
the host has kept of it. -/
structure Tx (H I V K E X ε : Type) where
  host : H
  ctx : Ctx
  call : I
  outcome : Outcome ε V
  ops : List (HostOp K E X)

inductive Label (H I V K E X ε : Type) where
  | tx (t : Tx H I V K E X ε)
  | elsewhere

section

variable {H I V R K E X σ ε : Type}

/-- The events that a step left in the event log. -/
def Label.events : Label H I V K E X ε → List E
  | .tx t => eventsOf t.ops
  | .elsewhere => []

/-- The step was a call, and it returned. -/
def Label.returned : Label H I V K E X ε → Bool
  | .tx t => t.outcome.isOk
  | .elsewhere => false

/-- The event log of a run. -/
def journal (ls : List (Label H I V K E X ε)) : List E := ls.flatMap Label.events

theorem journal_snoc (ls : List (Label H I V K E X ε)) (l : Label H I V K E X ε) :
    journal (ls ++ [l]) = journal ls ++ l.events := by
  simp [journal]

/-- The steps of the contract `dispatch` at the address `self`. -/
inductive TxStep (dispatch : H → Ctx → I → Exec (Running R K E X σ) ε V) (self : Address) :
    Chain R σ → Label H I V K E X ε → Chain R σ → Prop
  | returned {b : Chain R σ} {h : H} {c : Ctx} {i : I} {v : V} {s : Running R K E X σ} :
      c.self = self → b.now ≤ c.timestamp → b.seq ≤ c.sequence →
      dispatch h c i b.start = (.ok v, s) →
      TxStep dispatch self b (.tx ⟨h, c, i, .ok v, s.log⟩)
        ⟨s.store, s.world, c.timestamp, c.sequence⟩
  | failed {b : Chain R σ} {h : H} {c : Ctx} {i : I} {o : Outcome ε V} :
      c.self = self → b.now ≤ c.timestamp → b.seq ≤ c.sequence →
      (dispatch h c i b.start).1 = o → o.isOk = false →
      TxStep dispatch self b (.tx ⟨h, c, i, o, []⟩) ⟨b.store, b.world, c.timestamp, c.sequence⟩
  | elsewhere {b : Chain R σ} {w : World σ} {now seq : Nat} :
      b.now ≤ now → b.seq ≤ seq →
      TxStep dispatch self b .elsewhere ⟨b.store, w, now, seq⟩

variable {dispatch : H → Ctx → I → Exec (Running R K E X σ) ε V} {self : Address}

/-- The clock never runs backwards. -/
theorem Runs.clock {b b' : Chain R σ} {ls : List (Label H I V K E X ε)}
    (h : Runs (TxStep dispatch self) b ls b') : b.now ≤ b'.now ∧ b.seq ≤ b'.seq := by
  induction h with
  | refl => exact ⟨le_refl _, le_refl _⟩
  | tail _ hstep ih =>
    cases hstep with
    | returned _ hnow hseq _ => exact ⟨le_trans ih.1 hnow, le_trans ih.2 hseq⟩
    | failed _ hnow hseq _ _ => exact ⟨le_trans ih.1 hnow, le_trans ih.2 hseq⟩
    | elsewhere hnow hseq => exact ⟨le_trans ih.1 hnow, le_trans ih.2 hseq⟩

/-- **Storage invariants.**  What every returned call preserves of the storage, every run does. -/
theorem Runs.store_invariant {P : R → Prop}
    (hcall : ∀ h c i v (b : Chain R σ) (s : Running R K E X σ), P b.store →
      dispatch h c i b.start = (.ok v, s) → P s.store)
    {b b' : Chain R σ} {ls : List (Label H I V K E X ε)}
    (hrun : Runs (TxStep dispatch self) b ls b') (h0 : P b.store) : P b'.store := by
  refine Runs.invariant (I := fun b => P b.store) (fun b l b' hb hstep => ?_) hrun h0
  cases hstep with
  | returned _ _ _ hd => exact hcall _ _ _ _ _ _ hb hd
  | failed => exact hb
  | elsewhere => exact hb

/-! ## 2. Running calls -/

/-- Make one call, and keep what the host keeps. -/
def Chain.exec (dispatch : H → Ctx → I → Exec (Running R K E X σ) ε V) (b : Chain R σ) (h : H)
    (c : Ctx) (i : I) : Label H I V K E X ε × Chain R σ :=
  match dispatch h c i b.start with
  | (.ok v, s) => (.tx ⟨h, c, i, .ok v, s.log⟩, ⟨s.store, s.world, c.timestamp, c.sequence⟩)
  | (o, _) => (.tx ⟨h, c, i, o, []⟩, ⟨b.store, b.world, c.timestamp, c.sequence⟩)

/-- Make the calls one after the other. -/
def Chain.execAll (dispatch : H → Ctx → I → Exec (Running R K E X σ) ε V) :
    Chain R σ → List (H × Ctx × I) → List (Label H I V K E X ε) × Chain R σ
  | b, [] => ([], b)
  | b, (h, c, i) :: calls =>
    let r := b.exec dispatch h c i
    let rest := r.2.execAll dispatch calls
    (r.1 :: rest.1, rest.2)

/-- A call can be made in every state, and is a step. -/
theorem Chain.exec_step {b : Chain R σ} {h : H} {c : Ctx} {i : I} (hself : c.self = self)
    (hnow : b.now ≤ c.timestamp) (hseq : b.seq ≤ c.sequence) :
    TxStep dispatch self b (b.exec dispatch h c i).1 (b.exec dispatch h c i).2 := by
  unfold Chain.exec
  rcases hd : dispatch h c i b.start with ⟨o | e | _, s⟩
  · exact .returned hself hnow hseq hd
  · exact .failed hself hnow hseq (by rw [hd]) rfl
  · exact .failed hself hnow hseq (by rw [hd]) rfl

theorem Chain.exec_of_ok {b : Chain R σ} {h : H} {c : Ctx} {i : I} {v : V}
    {s : Running R K E X σ} (hok : dispatch h c i b.start = (.ok v, s)) :
    b.exec dispatch h c i
      = (.tx ⟨h, c, i, .ok v, s.log⟩, ⟨s.store, s.world, c.timestamp, c.sequence⟩) := by
  rw [Chain.exec, hok]

theorem Chain.exec_of_returned {b : Chain R σ} {h : H} {c : Ctx} {i : I}
    (hret : (b.exec dispatch h c i).1.returned = true) :
    ∃ v s, dispatch h c i b.start = (.ok v, s) ∧
      (b.exec dispatch h c i).2 = ⟨s.store, s.world, c.timestamp, c.sequence⟩ := by
  rcases hd : dispatch h c i b.start with ⟨v | e | _, s⟩
  · exact ⟨v, s, rfl, by rw [Chain.exec_of_ok hd]⟩
  · rw [Chain.exec, hd] at hret
    cases hret
  · rw [Chain.exec, hd] at hret
    cases hret

theorem Chain.exec_clock {b : Chain R σ} {h : H} {c : Ctx} {i : I} :
    (b.exec dispatch h c i).2.now = c.timestamp ∧ (b.exec dispatch h c i).2.seq = c.sequence := by
  unfold Chain.exec
  rcases dispatch h c i b.start with ⟨o | e | _, s⟩ <;> exact ⟨rfl, rfl⟩

theorem Chain.exec_ne_elsewhere {b : Chain R σ} {h : H} {c : Ctx} {i : I} :
    (b.exec dispatch h c i).1 ≠ .elsewhere := by
  unfold Chain.exec
  rcases dispatch h c i b.start with ⟨o | e | _, s⟩ <;> simp

/-- The label of a call tells what was called, and how it ended. -/
theorem Chain.exec_tx {b : Chain R σ} {h : H} {c : Ctx} {i : I} :
    ∃ t, (b.exec dispatch h c i).1 = .tx t ∧ t.host = h ∧ t.ctx = c ∧ t.call = i ∧
      t.outcome = (dispatch h c i b.start).1 := by
  unfold Chain.exec
  rcases dispatch h c i b.start with ⟨o | e | _, s⟩ <;> exact ⟨_, rfl, rfl, rfl, rfl, rfl⟩

/-- **Calls made one after the other in one ledger are a run**, and nothing happens elsewhere. -/
theorem Chain.execAll_calls : ∀ (calls : List (H × Ctx × I)) (b : Chain R σ),
    (∀ x ∈ calls, x.2.1.self = self ∧ x.2.1.timestamp = b.now ∧ x.2.1.sequence = b.seq) →
      Runs (fun b l b' => TxStep dispatch self b l b' ∧ l ≠ .elsewhere) b
        (b.execAll dispatch calls).1 (b.execAll dispatch calls).2
  | [], b, _ => .refl b
  | (h, c, i) :: calls, b, hall => by
    obtain ⟨⟨hself, hnow, hseq⟩, hrest⟩ := List.forall_mem_cons.mp hall
    have hnow' : (b.exec dispatch h c i).2.now = c.timestamp := Chain.exec_clock.1
    have hseq' : (b.exec dispatch h c i).2.seq = c.sequence := Chain.exec_clock.2
    have hstep : TxStep dispatch self b (b.exec dispatch h c i).1 (b.exec dispatch h c i).2 :=
      Chain.exec_step hself (le_of_eq hnow.symm) (le_of_eq hseq.symm)
    have hruns := Chain.execAll_calls calls (b.exec dispatch h c i).2 fun x hx => by
      rw [hnow', hseq', hnow, hseq]
      exact hrest x hx
    exact (Runs.single ⟨hstep, Chain.exec_ne_elsewhere⟩).append hruns

theorem Chain.execAll_runs (calls : List (H × Ctx × I)) (b : Chain R σ)
    (hall : ∀ x ∈ calls, x.2.1.self = self ∧ x.2.1.timestamp = b.now ∧ x.2.1.sequence = b.seq) :
    Runs (TxStep dispatch self) b (b.execAll dispatch calls).1 (b.execAll dispatch calls).2 :=
  (Chain.execAll_calls calls b hall).mono fun _ _ _ h => h.1

end

end Stellariq.Kit
