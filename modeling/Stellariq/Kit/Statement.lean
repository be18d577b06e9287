/-
# Statements of account

Somebody who sees nothing of a machine but its events can keep accounts: he remembers what the
events so far have told him (a state `G`) and books every event as a change of balances, at every
token and every holder (`Reader`).  What he has booked for one token and one holder is the
`statement`.

* `statement_append`: a log can be read in two sittings;
* `statement_sum`: of an interleaved log of two machines, each reader needs only his own part;
* `statement_group`: what is booked for several holders together is the sum over them;
* `accounts`: if every step of a machine changes the balances by what a reader who is up to date
  books for its events, and by what came from outside, then every run does.

The other half of accounting are changes that cancel out over all holders (`Cancels`).
-/
import Stellariq.Kit.Ledger
import Stellariq.Kit.Runs
import Mathlib.Algebra.BigOperators.Finprod

namespace Stellariq.Kit

/-! ## 1. Readers of a log -/

/-- What a reader of events of type `E` remembers, and the change of balances that he books for an
event. -/
structure Reader (G E T H : Type) where
  next : G → E → G
  flow : G → E → T → H → Int

namespace Reader

variable {G G' E E' T H : Type}

/-- What the reader remembers after the events `es`. -/
def upTo (R : Reader G E T H) (g : G) (es : List E) : G := es.foldl R.next g

/-- What he has booked for the token `t` and the holder `x`. -/
def statement (R : Reader G E T H) (t : T) (x : H) : G → List E → Int
  | _, [] => 0
  | g, e :: es => R.flow g e t x + R.statement t x (R.next g e) es

/-- Two readers beside each other, of one interleaved log. -/
def sum (R : Reader G E T H) (R' : Reader G' E' T H) : Reader (G × G') (E ⊕ E') T H where
  next g e := e.elim (fun e => (R.next g.1 e, g.2)) fun e => (g.1, R'.next g.2 e)
  flow g e := e.elim (R.flow g.1) (R'.flow g.2)

variable (R : Reader G E T H) (R' : Reader G' E' T H) (t : T) (x : H)

theorem upTo_append (g : G) (es es' : List E) :
    R.upTo g (es ++ es') = R.upTo (R.upTo g es) es' := List.foldl_append

theorem statement_append : ∀ (g : G) (es es' : List E),
    R.statement t x g (es ++ es') = R.statement t x g es + R.statement t x (R.upTo g es) es'
  | g, [], es' => by simp [statement, upTo]
  | g, e :: es, es' => by
    rw [List.cons_append, statement, statement, statement_append, add_assoc]
    rfl

theorem statement_singleton (g : G) (e : E) : R.statement t x g [e] = R.flow g e t x :=
  add_zero _

/-- Events that are booked as nothing, to whatever the reader remembers. -/
theorem statement_eq_zero {es : List E} (h : ∀ e ∈ es, ∀ g, R.flow g e t x = 0) :
    ∀ g, R.statement t x g es = 0 := by
  induction es with
  | nil => exact fun _ => rfl
  | cons e es ih =>
    intro g
    rw [statement, h e List.mem_cons_self g, ih fun e he => h e (List.mem_cons_of_mem _ he)]
    rfl

/-- The two parts of an interleaved log, where it has only one of them. -/
@[simp] theorem lefts_inl (es : List E) :
    (es.map fun e => (.inl e : E ⊕ E')).filterMap Sum.getLeft? = es := by
  rw [List.filterMap_map]
  exact List.filterMap_some

@[simp] theorem rights_inl (es : List E) :
    (es.map fun e => (.inl e : E ⊕ E')).filterMap Sum.getRight? = [] := by
  simp [List.filterMap_map]

@[simp] theorem lefts_inr (es : List E') :
    (es.map fun e => (.inr e : E ⊕ E')).filterMap Sum.getLeft? = [] := by
  simp [List.filterMap_map]

@[simp] theorem rights_inr (es : List E') :
    (es.map fun e => (.inr e : E ⊕ E')).filterMap Sum.getRight? = es := by
  rw [List.filterMap_map]
  exact List.filterMap_some

/-- **Each reader needs only his own part of the log.** -/
theorem statement_sum : ∀ (g : G × G') (es : List (E ⊕ E')),
    (R.sum R').statement t x g es
      = R.statement t x g.1 (es.filterMap Sum.getLeft?) +
        R'.statement t x g.2 (es.filterMap Sum.getRight?)
  | _, [] => rfl
  | g, .inl e :: es => by
    have hflow : (R.sum R').flow g (.inl e) t x = R.flow g.1 e t x := rfl
    have hnext : (R.sum R').next g (.inl e) = (R.next g.1 e, g.2) := rfl
    have hleft : (Sum.inl e :: es).filterMap Sum.getLeft?
        = e :: es.filterMap Sum.getLeft? := rfl
    have hright : (Sum.inl e :: es).filterMap Sum.getRight?
        = es.filterMap Sum.getRight? := rfl
    rw [hleft, hright, statement, statement, hflow, hnext, statement_sum, add_assoc]
  | g, .inr e :: es => by
    have hflow : (R.sum R').flow g (.inr e) t x = R'.flow g.2 e t x := rfl
    have hnext : (R.sum R').next g (.inr e) = (g.1, R'.next g.2 e) := rfl
    have hleft : (Sum.inr e :: es).filterMap Sum.getLeft?
        = es.filterMap Sum.getLeft? := rfl
    have hright : (Sum.inr e :: es).filterMap Sum.getRight?
        = e :: es.filterMap Sum.getRight? := rfl
    rw [hleft, hright, statement, statement, hflow, hnext, statement_sum, add_left_comm]

theorem upTo_sum : ∀ (g : G × G') (es : List (E ⊕ E')),
    (R.sum R').upTo g es
      = (R.upTo g.1 (es.filterMap Sum.getLeft?), R'.upTo g.2 (es.filterMap Sum.getRight?))
  | _, [] => rfl
  | g, .inl e :: es => upTo_sum (R.next g.1 e, g.2) es
  | g, .inr e :: es => upTo_sum (g.1, R'.next g.2 e) es

/-- A reader who books for the holders in `V` together. -/
def group (V : Finset H) : Reader G E T Unit where
  next := R.next
  flow g e t _ := ∑ y ∈ V, R.flow g e t y

theorem statement_group (V : Finset H) : ∀ (g : G) (es : List E),
    (R.group V).statement t () g es = ∑ y ∈ V, R.statement t y g es
  | _, [] => by simp [statement]
  | g, e :: es => by
    simp only [statement, Finset.sum_add_distrib, ← statement_group V (R.next g e) es]
    rfl

/-- **The rule of statements.**  `Knows s g`: the memory `g` is up to date in the state `s`. -/
theorem accounts {S L : Type} {step : S → L → S → Prop} (Knows : S → G → Prop)
    (events : L → List E) (outside : L → Int) (bal : S → Int)
    (hstep : ∀ s l s' g, Knows s g → step s l s' → Knows s' (R.upTo g (events l)) ∧
      bal s' = bal s + R.statement t x g (events l) + outside l)
    {s s' : S} {ls : List L} (hrun : Runs step s ls s') {g : G} (h0 : Knows s g) :
    Knows s' (R.upTo g (ls.flatMap events)) ∧
      bal s' = bal s + R.statement t x g (ls.flatMap events) + (ls.map outside).sum := by
  induction hrun with
  | refl => exact ⟨h0, by simp [statement]⟩
  | @tail _ _ ls l _ hl ih =>
    obtain ⟨hknows, hbal⟩ := ih
    obtain ⟨hknows', hbal'⟩ := hstep _ _ _ _ hknows hl
    rw [List.flatMap_append, List.flatMap_singleton, upTo_append, statement_append, List.map_append,
      List.sum_append, hbal', hbal]
    refine ⟨hknows', ?_⟩
    simp only [List.map_cons, List.map_nil, List.sum_cons, List.sum_nil]
    omega

end Reader

/-! ## 2. Changes that cancel out -/

/-- The changes of the holders cancel out. -/
def Cancels {H : Type} (f : H → Int) : Prop := ∑ᶠ x, f x = 0

/-- A move between two holders cancels out. -/
theorem cancels_move {T H : Type} [DecidableEq T] [DecidableEq H] (t t' : T) (src dst : H)
    (a : Int) : Cancels fun x => Ledger.point t dst a t' x - Ledger.point t src a t' x := by
  have hfin : ∀ y : H, (Function.support fun x => Ledger.point t y a t' x).Finite := by
    intro y
    refine (Set.finite_singleton y).subset fun x hx => ?_
    by_contra hne
    exact hx (Ledger.point_of_holder_ne hne ..)
  have hone : ∀ y : H, ∑ᶠ x, Ledger.point t y a t' x = Ledger.point t y a t' y := by
    intro y
    exact finsum_eq_single _ y fun x hne => Ledger.point_of_holder_ne hne ..
  rw [Cancels, finsum_sub_distrib (hfin dst) (hfin src), hone, hone]
  simp [Ledger.point]

/-- **When changes cancel out**, those of one group and those of the one other holder who has any
are opposite. -/
theorem Cancels.group {H : Type} [DecidableEq H] {f : H → Int} (hf : Cancels f) {V : Finset H}
    {y : H} (hy : y ∉ V) (hrest : ∀ x, x ∉ V → x ≠ y → f x = 0) :
    ∑ x ∈ V, f x = - f y := by
  have hsub : Function.support f ⊆ ↑(insert y V) := by
    intro x hx
    by_contra hnot
    rw [Finset.coe_insert, Set.mem_insert_iff, not_or] at hnot
    exact hx (hrest x hnot.2 hnot.1)
  rw [Cancels, finsum_eq_sum_of_support_subset f hsub, Finset.sum_insert hy] at hf
  omega

end Stellariq.Kit
