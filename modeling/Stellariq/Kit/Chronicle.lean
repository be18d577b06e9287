/-
# Contracts that are their history

The simplest reference machine stores nothing but the calls that it has accepted, and refuses or
answers a call by what those were (`chronicle`).  Whatever follows such a rule book is a function of
its past: in every run its storage is related to the calls accepted in the run
(`Follows.chronicled`), and the histories that it can have are the lists in which every call is
acceptable after the ones before it (`Orderly`, `chronicle_reaches`).
-/
import Stellariq.Kit.Refinement

namespace Stellariq.Kit

section Chronicle

variable {H I V R K E X σ ε : Type} {self : Address}

/-! ## 1. Accepted calls -/

/-- The call, if it returned. -/
def Label.accepted : Label H I V K E X ε → Option I
  | .tx t => if t.outcome.isOk = true then some t.call else none
  | .elsewhere => none

/-- The calls of a run that returned. -/
def accepted (ls : List (Label H I V K E X ε)) : List I := ls.filterMap Label.accepted

theorem accepted_snoc (ls : List (Label H I V K E X ε)) (l : Label H I V K E X ε) :
    accepted (ls ++ [l]) = accepted ls ++ l.accepted.toList := by
  rw [accepted, List.filterMap_append]
  cases h : l.accepted <;> simp [accepted, h]

@[simp] theorem accepted_seen (ls : List (Label H I V K E X ε)) :
    accepted (ls.map Label.seen) = accepted ls := by
  rw [accepted, List.filterMap_map]
  refine congrArg (fun f => ls.filterMap f) ?_
  funext l
  cases l <;> rfl

/-! ## 2. The rule book -/

variable {guards : List I → I → List (Guard ε)} {reply : List I → I → V}

/-- The rule book of a contract that remembers the calls it has accepted. -/
def chronicle (guards : List I → I → List (Guard ε)) (reply : List I → I → V) (past : List I)
    (_ : H) (w : World σ) (_ : Ctx) (i : I) : Ruling (List I) V E X σ ε :=
  { guards := guards past i, reply := reply past i, store := past ++ [i], world := w, ops := [] }

/-- Every call of the list is acceptable after the ones before it. -/
def Orderly (guards : List I → I → List (Guard ε)) (is : List I) : Prop :=
  ∀ past i later, is = past ++ i :: later → Clear (guards past i)

theorem orderly_nil : Orderly guards [] := by
  intro past i later h
  simp at h

theorem orderly_snoc {is : List I} {i : I} :
    Orderly guards (is ++ [i]) ↔ Orderly guards is ∧ Clear (guards is i) := by
  constructor
  · intro h
    refine ⟨?_, h is i [] rfl⟩
    intro past j later heq
    exact h past j (later ++ [i]) (by simp [heq])
  · rintro ⟨h, hi⟩ past j later heq
    rcases List.eq_nil_or_concat later with rfl | ⟨later, k, rfl⟩
    · rcases List.append_inj' heq rfl with ⟨rfl, hj⟩
      rwa [← List.singleton_inj.mp hj]
    · rw [List.concat_eq_append, ← List.cons_append, ← List.append_assoc] at heq
      exact h past j later (List.append_inj' heq rfl).1

section Runs

variable {e e' : Chain (List I) σ} {ms : List (Label H I V Empty E X ε)}

/-- What the machine remembers is what it has accepted. -/
theorem chronicle_accepted
    (hrun : Runs (TxStep (serveBy (chronicle guards reply)) self) e ms e') :
    e'.store = e.store ++ accepted ms := by
  induction hrun with
  | refl => exact (List.append_nil _).symm
  | tail _ hstep ih =>
    rw [accepted_snoc]
    cases hstep with
    | returned _ _ _ hok =>
      rcases serveBy_eq_ok.mp hok with ⟨-, -, rfl⟩
      rw [← List.append_assoc, ← ih]
      rfl
    | failed _ _ _ _ hfail => simp [Label.accepted, hfail, ih]
    | elsewhere => simp [Label.accepted, ih]

/-- It accepts nothing out of order. -/
theorem chronicle_orderly
    (hrun : Runs (TxStep (serveBy (chronicle guards reply)) self) e ms e')
    (h0 : Orderly guards e.store) : Orderly guards e'.store := by
  refine Runs.store_invariant (P := Orderly guards) ?_ hrun h0
  intro h c i v b s hb hok
  rcases serveBy_eq_ok.mp hok with ⟨hc, -, rfl⟩
  exact orderly_snoc.mpr ⟨hb, hc⟩

/-- **Every orderly history is that of a run.** -/
theorem chronicle_reaches (h : H) {is : List I} (his : Orderly guards is)
    (h0 : e.store = []) : ∃ (ms : List (Label H I V Empty E X ε)) (e' : Chain (List I) σ),
      Runs (TxStep (serveBy (chronicle guards reply)) self) e ms e' ∧ accepted ms = is := by
  induction is using List.reverseRecOn with
  | nil => exact ⟨[], e, .refl e, rfl⟩
  | append_singleton is i ih =>
    rcases orderly_snoc.mp his with ⟨his', hi⟩
    rcases ih his' with ⟨ms, e₁, hrun, hms⟩
    have hstore : e₁.store = is := by rw [chronicle_accepted hrun, h0, hms, List.nil_append]
    -- anybody, right away
    let c : Ctx :=
      { self, auths := fun _ => true, timestamp := e₁.now, sequence := e₁.seq, freshUntil := 0,
        uploaded := fun _ => false }
    have hclear : Clear (guards e₁.store i) := by rwa [hstore]
    have hok : serveBy (chronicle guards reply) h c i
        (e₁.start : Running (List I) Empty E X σ)
        = (.ok (reply e₁.store i), ⟨e₁.store ++ [i], e₁.world, []⟩) :=
      serveBy_eq_ok.mpr ⟨hclear, rfl, rfl⟩
    refine ⟨_, _, .tail hrun (.returned rfl (le_refl _) (le_refl _) hok), ?_⟩
    rw [accepted_snoc, hms]
    rfl

end Runs

/-! ## 3. Contracts that go by it -/

namespace Follows

variable {serve : H → Ctx → I → Exec (Running R K E X σ) ε V} {Rel : R → List I → Prop}
  {b b' : Chain R σ} {ls : List (Label H I V K E X ε)}

/-- **A contract that goes by such a book is a function of the calls it has accepted**, and it
accepts nothing out of order. -/
theorem chronicled (hfol : Follows serve (chronicle guards reply) Rel) (h0 : Rel b.store [])
    (hrun : Runs (TxStep serve self) b ls b') :
    Rel b'.store (accepted ls) ∧ Orderly guards (accepted ls) := by
  rcases hfol.answers.sound hrun h0 with ⟨past, hrel, hruns⟩
  have hpast : past = accepted ls := by
    have h := chronicle_accepted hruns
    rwa [accepted_seen, Chain.holding, Chain.holding, List.nil_append] at h
  have horderly : Orderly guards past := chronicle_orderly hruns orderly_nil
  subst hpast
  exact ⟨hrel, horderly⟩

/-- **The histories of such a contract** are the orderly ones. -/
theorem histories (hfol : Follows serve (chronicle guards reply) Rel) (h0 : Rel b.store [])
    (h : H) {is : List I} :
    (∃ ls b', Runs (TxStep serve self) b ls b' ∧ accepted ls = is) ↔ Orderly guards is := by
  constructor
  · rintro ⟨ls, b', hrun, rfl⟩
    exact (hfol.chronicled h0 hrun).2
  · intro his
    rcases chronicle_reaches (e := b.holding []) h his rfl with ⟨ms, e, hruns, hms⟩
    rcases hfol.answers.complete hruns h0 with ⟨ls, b', rfl, hrun, -, -⟩
    exact ⟨ls, b', hrun, (accepted_seen ls).symm.trans hms⟩

end Follows

end Chronicle

end Stellariq.Kit
