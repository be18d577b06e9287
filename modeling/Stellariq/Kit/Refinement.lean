/-
# A contract and its reference machine

Two contracts with the same entrypoints that store different things: the one that runs, and one
that says what it is for and writes no storage entries at all.  The first answers as the second
(`Answers`) when every call of both, from storages that correspond and in one world, ends in the
same way and, where it returns, leaves corresponding storages, the same world and the same
transfers, calls and events.

Then everything that can be seen of the first from outside can be seen of the second (`sound`), and
nothing else can be seen of the second (`complete`): their runs are the same up to the writes.

A reference machine is best given by a rule book: for each call a table of the reasons to refuse
it, and what is so if none applies (`Ruling`).
-/
import Stellariq.Kit.Guards
import Stellariq.Kit.Transactions

namespace Stellariq.Kit

/-! ## 1. What can be seen -/

section Seen

variable {H I V K E X ε : Type}

/-- The operation, unless it writes the storage. -/
def HostOp.seen : HostOp K E X → Option (HostOp Empty E X)
  | .transfer t src dst a => some (.transfer t src dst a)
  | .call x => some (.call x)
  | .write _ => none
  | .event e => some (.event e)
  | .updateWasm hash => some (.updateWasm hash)

/-- The operations of a call but for its writes. -/
def seenOf (ops : List (HostOp K E X)) : List (HostOp Empty E X) := ops.filterMap HostOp.seen

theorem seenOf_append (ops ops' : List (HostOp K E X)) :
    seenOf (ops ++ ops') = seenOf ops ++ seenOf ops' := List.filterMap_append

/-- What can be seen of a step. -/
def Label.seen : Label H I V K E X ε → Label H I V Empty E X ε
  | .tx t =>
    .tx { host := t.host, ctx := t.ctx, call := t.call, outcome := t.outcome, ops := seenOf t.ops }
  | .elsewhere => .elsewhere

end Seen

/-! ## 2. Reference machines -/

section Answers

variable {H I V R R' K E X σ ε : Type}

/-- The contract `serve` answers as the contract `serve'`, as long as `Rel` relates their
storages. -/
structure Answers (serve : H → Ctx → I → Exec (Running R K E X σ) ε V)
    (serve' : H → Ctx → I → Exec (Running R' Empty E X σ) ε V) (Rel : R → R' → Prop) : Prop where
  ends : ∀ {st : R} {st' : R'} (h : H) (c : Ctx) (i : I) (w : World σ), Rel st st' →
    (serve h c i ⟨st, w, []⟩).1 = (serve' h c i ⟨st', w, []⟩).1
  leaves : ∀ {st : R} {st' : R'} {h : H} {c : Ctx} {i : I} {w : World σ} {v : V}
    {s : Running R K E X σ} {s' : Running R' Empty E X σ}, Rel st st' →
    serve h c i ⟨st, w, []⟩ = (.ok v, s) → serve' h c i ⟨st', w, []⟩ = (.ok v, s') →
    Rel s.store s'.store ∧ s'.world = s.world ∧ s'.log = seenOf s.log

/-- The chain with another storage for the contract. -/
def Chain.holding (b : Chain R σ) (st : R') : Chain R' σ :=
  { store := st, world := b.world, now := b.now, seq := b.seq }

/-- The chain `e` is `b` with a storage that corresponds. -/
def Holds (Rel : R → R' → Prop) (b : Chain R σ) (e : Chain R' σ) : Prop :=
  ∃ st, Rel b.store st ∧ e = b.holding st

namespace Answers

variable {serve : H → Ctx → I → Exec (Running R K E X σ) ε V}
  {serve' : H → Ctx → I → Exec (Running R' Empty E X σ) ε V} {Rel : R → R' → Prop}
  {self : Address} {b b' : Chain R σ} {st : R'}

/-- A step can be followed. -/
theorem follow (hans : Answers serve serve' Rel) {l : Label H I V K E X ε}
    (hstep : TxStep serve self b l b') (hst : Rel b.store st) :
    ∃ st', Rel b'.store st' ∧ TxStep serve' self (b.holding st) l.seen (b'.holding st') := by
  cases hstep with
  | @returned h c i v s hself hnow hseq hd =>
    have hend := hans.ends h c i b.world hst
    obtain ⟨s', hd'⟩ : ∃ s', serve' h c i ⟨st, b.world, []⟩ = (.ok v, s') :=
      ⟨_, Exec.eq_ok_of_fst (hend.symm.trans (congrArg Prod.fst hd))⟩
    obtain ⟨hrel, hworld, hlog⟩ := hans.leaves hst hd hd'
    have hstep' : TxStep serve' self (b.holding st) _ _ := .returned hself hnow hseq hd'
    rw [hworld, hlog] at hstep'
    exact ⟨s'.store, hrel, hstep'⟩
  | @failed h c i o hself hnow hseq ho hfail =>
    exact ⟨st, hst, .failed hself hnow hseq ((hans.ends h c i b.world hst).symm.trans ho) hfail⟩
  | elsewhere hnow hseq => exact ⟨st, hst, .elsewhere hnow hseq⟩

/-- A step of the reference machine can be made. -/
theorem lead (hans : Answers serve serve' Rel) {m : Label H I V Empty E X ε} {e : Chain R' σ}
    (hstep : TxStep serve' self (b.holding st) m e) (hst : Rel b.store st) :
    ∃ l b', m = l.seen ∧ TxStep serve self b l b' ∧ Rel b'.store e.store ∧
      e = b'.holding e.store := by
  cases hstep with
  | @returned h c i v s' hself hnow hseq hd' =>
    have hend := hans.ends h c i b.world hst
    obtain ⟨s, hd⟩ : ∃ s, serve h c i b.start = (.ok v, s) :=
      ⟨_, Exec.eq_ok_of_fst (hend.trans (congrArg Prod.fst hd'))⟩
    obtain ⟨hrel, hworld, hlog⟩ := hans.leaves hst hd hd'
    refine ⟨_, _, ?_, .returned hself hnow hseq hd, hrel, ?_⟩
    · rw [Label.seen, hlog]
    · rw [Chain.holding, hworld]
  | @failed h c i o hself hnow hseq ho hfail =>
    exact ⟨_, _, rfl, .failed hself hnow hseq ((hans.ends h c i b.world hst).trans ho) hfail, hst,
      rfl⟩
  | elsewhere hnow hseq => exact ⟨.elsewhere, _, rfl, .elsewhere hnow hseq, hst, rfl⟩

/-- **Nothing is seen but what the reference machine shows.** -/
theorem sound (hans : Answers serve serve' Rel) {ls : List (Label H I V K E X ε)}
    (hrun : Runs (TxStep serve self) b ls b') (hst : Rel b.store st) :
    ∃ st', Rel b'.store st' ∧
      Runs (TxStep serve' self) (b.holding st) (ls.map Label.seen) (b'.holding st') := by
  have hfollow : ∀ b (l : Label H I V K E X ε) b' (e : Chain R' σ), Holds Rel b e →
      TxStep serve self b l b' → ∃ e', Holds Rel b' e' ∧ TxStep serve' self e l.seen e' := by
    rintro b l b' _ ⟨st, hst, rfl⟩ hstep
    obtain ⟨st', hst', hlast⟩ := hans.follow hstep hst
    exact ⟨_, ⟨st', hst', rfl⟩, hlast⟩
  obtain ⟨_, ⟨st', hst', rfl⟩, hruns⟩ := hrun.simulates_steps _ _ hfollow ⟨st, hst, rfl⟩
  exact ⟨st', hst', hruns⟩

/-- **Whatever the reference machine shows can be seen.** -/
theorem complete (hans : Answers serve serve' Rel) {ms : List (Label H I V Empty E X ε)}
    {e : Chain R' σ} (hrun : Runs (TxStep serve' self) (b.holding st) ms e)
    (hst : Rel b.store st) :
    ∃ ls b', ms = ls.map Label.seen ∧ Runs (TxStep serve self) b ls b' ∧ Rel b'.store e.store ∧
      e = b'.holding e.store := by
  have hlead : ∀ b e (m : Label H I V Empty E X ε) (e' : Chain R' σ), Holds Rel b e →
      TxStep serve' self e m e' →
        ∃ (l : Label H I V K E X ε) (b' : Chain R σ), m = l.seen ∧ TxStep serve self b l b' ∧
          Holds Rel b' e' := by
    rintro b _ m e' ⟨st, hst, rfl⟩ hstep
    obtain ⟨l, b', hm, hlast, hst', he⟩ := hans.lead hstep hst
    exact ⟨l, b', hm, hlast, e'.store, hst', he⟩
  obtain ⟨ls, b', hms, hruns, st', hst', rfl⟩ := hrun.matched _ _ hlead ⟨st, hst, rfl⟩
  exact ⟨ls, b', hms, hruns, hst', rfl⟩

end Answers

end Answers

/-! ## 3. Rule books -/

section Rules

variable {H I V R R' K E X σ ε : Type}

/-- What becomes of a call: the reasons to refuse it, in the order in which they are looked at, and
otherwise the answer and what is so afterwards. -/
structure Ruling (R V E X σ ε : Type) where
  guards : List (Guard ε)
  reply : V
  store : R
  world : World σ
  ops : List (HostOp Empty E X)

/-- A ruling that changes nothing. -/
def Ruling.answer (st : R) (w : World σ) (guards : List (Guard ε)) (reply : V) :
    Ruling R V E X σ ε :=
  { guards, reply, store := st, world := w, ops := [] }

/-- The ruling leaves everything as it was. -/
def Ruling.Idle (r : Ruling R V E X σ ε) (st : R) (w : World σ) : Prop :=
  r.store = st ∧ r.world = w ∧ r.ops = []

theorem Ruling.idle_answer (st : R) (w : World σ) (guards : List (Guard ε)) (reply : V) :
    (Ruling.answer st w guards reply : Ruling R V E X σ ε).Idle st w := ⟨rfl, rfl, rfl⟩

/-- The machine that goes by the book: a call ends with the first reason to refuse it, if there is
one. -/
def serveBy (rule : R → H → World σ → Ctx → I → Ruling R V E X σ ε) (h : H) (c : Ctx) (i : I) :
    Exec (Running R Empty E X σ) ε V := fun s =>
  let r := rule s.store h s.world c i
  (verdict r.guards r.reply,
    if Clear r.guards then { store := r.store, world := r.world, log := s.log ++ r.ops } else s)

theorem serveBy_eq_ok {rule : R → H → World σ → Ctx → I → Ruling R V E X σ ε} {h : H} {c : Ctx}
    {i : I} {v : V} {s s' : Running R Empty E X σ} :
    serveBy rule h c i s = (.ok v, s') ↔
      Clear (rule s.store h s.world c i).guards ∧ (rule s.store h s.world c i).reply = v ∧
        s' = { store := (rule s.store h s.world c i).store
               world := (rule s.store h s.world c i).world
               log := s.log ++ (rule s.store h s.world c i).ops } := by
  rw [serveBy, Prod.mk.injEq, verdict_eq_ok, and_assoc]
  refine and_congr_right fun hc => and_congr_right fun _ => ?_
  rw [if_pos hc, eq_comm]

/-- The contract `serve` goes by the book `rule`, as long as `Rel` relates the storages. -/
structure Follows (serve : H → Ctx → I → Exec (Running R K E X σ) ε V)
    (rule : R' → H → World σ → Ctx → I → Ruling R' V E X σ ε) (Rel : R → R' → Prop) : Prop where
  ends : ∀ {st : R} {st' : R'} (h : H) (c : Ctx) (i : I) (w : World σ), Rel st st' →
    Obeys (serve h c i) ⟨st, w, []⟩ (rule st' h w c i).guards (rule st' h w c i).reply
  leaves : ∀ {st : R} {st' : R'} {h : H} {c : Ctx} {i : I} {w : World σ} {v : V}
    {s : Running R K E X σ}, Rel st st' → serve h c i ⟨st, w, []⟩ = (.ok v, s) →
    Rel s.store (rule st' h w c i).store ∧ (rule st' h w c i).world = s.world ∧
      (rule st' h w c i).ops = seenOf s.log

theorem Follows.answers {serve : H → Ctx → I → Exec (Running R K E X σ) ε V}
    {rule : R' → H → World σ → Ctx → I → Ruling R' V E X σ ε} {Rel : R → R' → Prop}
    (hfol : Follows serve rule Rel) : Answers serve (serveBy rule) Rel where
  ends h c i w hst := hfol.ends h c i w hst
  leaves := by
    intro st st' h c i w v s s' hst hok hok'
    obtain ⟨-, -, rfl⟩ := serveBy_eq_ok.mp hok'
    exact hfol.leaves hst hok

end Rules

end Stellariq.Kit
