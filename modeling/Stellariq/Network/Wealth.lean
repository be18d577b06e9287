/-
# No free money

Suppose that there are prices at which no exchange ever gives more than it gets
(`AdapterCall.Fair`).  Then the router adds nothing to that: a settled route is fair from end to
end, however many exchanges it leads over, and so is every settlement record in its log.  At these
prices the holdings of an account outside the exchanges therefore never become worth more, in any
run of the network, than what it was given through the donations contract and from elsewhere
(`no_free_money`).  In particular there is no sequence of swaps, over whatever routes, that ends
with more than it began with.

The worth of a balance is the sum of the worths of its entries in the two logs, so this is the
statement of account (`account_of_runs`), valued.
-/
import Stellariq.Kit.Prices
import Stellariq.Network.Statement
import Stellariq.Router.Events

namespace Stellariq.Router

open Kit

variable {σ : Type} {h : Host σ} {c : Ctx} {self : Address} {π : Prices Address}

/-! ## 1. Fair hops and fair routes -/

/-- The call delivered no more than its input was worth. -/
def AdapterCall.Fair (π : Prices Address) (x : AdapterCall) : Prop :=
  x.delivered * π.price x.args.tokenOut ≤ x.args.amountIn * π.price x.args.tokenIn

instance (x : AdapterCall) : Decidable (x.Fair π) := by
  unfold AdapterCall.Fair; infer_instance

/-- **A route of fair hops is fair from end to end.** -/
theorem Settles.fair {reg : Symbol → Option Address} {dest : Address} {steps : List SwapStep}
    {w w' : World σ} {a v : Int} {xs : List AdapterCall}
    (hs : Settles h c reg dest steps w a xs w' v) {b b' : Address} (hchain : Chained b steps b')
    (hfair : ∀ x ∈ xs, x.Fair π) : v * π.price b' ≤ a * π.price b := by
  induction hs generalizing b with
  | nil =>
    obtain rfl : b = b' := hchain
    exact le_refl _
  | @cons step steps w₀ w₁ w₂ a v x xs hhop _ ih =>
    obtain ⟨rfl, -, hchain⟩ := hchain
    rw [List.forall_mem_cons] at hfair
    have hhead : x.delivered * π.price step.tokenOut ≤ a * π.price step.tokenIn := by
      have := hfair.1
      rwa [AdapterCall.Fair, hhop.args] at this
    exact (ih hchain hfair.2).trans hhead

/-- A settlement record whose output is worth no more than its input. -/
def FairRecord (π : Prices Address) : RouterEvent → Prop
  | .hopExecuted r => r.amountOut * π.price r.tokenOut ≤ r.amountIn * π.price r.tokenIn
  | .swapExecuted r => r.amountOut * π.price r.tokenOut ≤ r.amountIn * π.price r.tokenIn
  | _ => True

/-- The records of the hops say what the calls did. -/
theorem routeRecords_fair {reg : Symbol → Option Address} {dest trader : Address}
    {steps : List SwapStep} {w w' : World σ} {a v : Int} {xs : List AdapterCall}
    (hs : Settles h c reg dest steps w a xs w' v) (hfair : ∀ x ∈ xs, x.Fair π)
    (executionId i : Nat) :
    ∀ r ∈ routeRecords executionId trader i steps xs, FairRecord π (.hopExecuted r) := by
  induction hs generalizing i with
  | nil => exact fun r hr => by cases hr
  | @cons step steps w₀ w₁ w₂ a v x xs hhop _ ih =>
    rw [List.forall_mem_cons] at hfair
    have hhead : FairRecord π (.hopExecuted (hopRecord executionId trader i step x)) := by
      have := hfair.1
      rw [AdapterCall.Fair, hhop.args] at this
      rw [FairRecord, hopRecord, hhop.args]
      exact this
    exact List.forall_mem_cons.mpr ⟨hhead, ih hfair.2 (i + 1)⟩

/-- **What a call publishes is fair** when its adapter calls were. -/
theorem Performs.fair {i : Invocation} {v : Value} {s s' : State σ} (hp : Performs h c s i v s') :
    ∃ ops, s'.log = s.log ++ ops ∧
      ((∀ x ∈ callsOf ops, x.Fair π) → ∀ e ∈ eventsOf ops, FairRecord π e) := by
  by_cases hi : ∀ p, i ≠ .swap p
  · obtain ⟨-, ops, hlog, -, -, hev⟩ := hp.quiet hi
    refine ⟨ops, hlog, fun _ e he => ?_⟩
    have hnone := hev e he
    cases e with
    | hopExecuted => cases hnone
    | swapExecuted => cases hnone
    | _ => trivial
  · push Not at hi
    obtain ⟨p, rfl⟩ := hi
    cases hp with
    | view hview => cases hview
    | @swap p v w₁ w' xs had _ _ hset _ =>
      refine ⟨_, rfl, fun hfair e he => ?_⟩
      rw [callsOf_swapOps hset.length_eq] at hfair
      rw [eventsOf_swapOps, List.mem_append, List.mem_singleton] at he
      rcases he with he | rfl
      · obtain ⟨r, hr, rfl⟩ := List.mem_map.mp he
        exact routeRecords_fair hset hfair _ _ r hr
      · exact hset.fair had.chained hfair

theorem step_fair {b b' : Chain Store σ} {t : Tx (Host σ) Invocation Value DataKey RouterEvent
    AdapterCall RouterError} (hstep : Step self b (.tx t) b')
    (hfair : ∀ x ∈ callsOf t.ops, x.Fair π) : ∀ e ∈ eventsOf t.ops, FairRecord π e := by
  cases hstep with
  | returned _ _ _ hd =>
    obtain ⟨ops, hlog, hev⟩ := (dispatch_performs hd).fair (π := π)
    obtain rfl : _ = ops := hlog
    exact hev hfair
  | failed => exact fun e he => by cases he

/-- A fair record is worth nothing to anybody, or less. -/
theorem worth_traderReader_nonpos {e : RouterEvent} (he : FairRecord π e) (y : Address) (g : Unit) :
    π.worth (fun t => traderReader.flow g e t y) ≤ 0 := by
  cases e with
  | swapExecuted r =>
    have hflow : (fun t => traderReader.flow g (.swapExecuted r) t y) = fun t =>
        Ledger.point r.tokenOut r.trader r.amountOut t y -
          Ledger.point r.tokenIn r.trader r.amountIn t y := rfl
    have hworth : r.amountOut * π.price r.tokenOut ≤ r.amountIn * π.price r.tokenIn := he
    rw [hflow, Prices.worth_sub, Prices.worth_point, Prices.worth_point]
    split
    · omega
    · exact le_refl _
  | _ => exact le_of_eq π.worth_zero

end Stellariq.Router

namespace Stellariq.Network

open Kit

variable {σ : Type} {a : Sites} {n n' : Net σ} {ls : List (NetLabel σ)} {π : Prices Address}

/-! ## 2. Runs -/

/-- The adapter calls of the step were fair. -/
def NetLabel.Fair (π : Prices Address) : NetLabel σ → Prop
  | .router t => ∀ x ∈ callsOf t.ops, x.Fair π
  | .donations _ | .outside _ => True

instance : ∀ l : NetLabel σ, Decidable (l.Fair π)
  | .router t => inferInstanceAs (Decidable (∀ x ∈ callsOf t.ops, x.Fair π))
  | .donations _ | .outside _ => inferInstanceAs (Decidable True)

theorem routerLog_fair (hrun : Runs (fun n l n' => Step a n l n' ∧ l.Fair π) n ls n') :
    ∀ e ∈ routerLog ls, Router.FairRecord π e := by
  induction hrun with
  | refl => simp [routerLog, journal]
  | @tail _ _ ls l _ hl ih =>
    intro e he
    rw [routerLog, journal, List.flatMap_append, List.filterMap_append, List.mem_append] at he
    rcases he with he | he
    · exact ih e he
    · rw [List.flatMap_singleton] at he
      obtain ⟨hstep, hfair⟩ := hl
      cases hstep with
      | router h =>
        rw [NetLabel.events, Reader.lefts_inl] at he
        exact Router.step_fair h hfair e he
      | donations h =>
        rw [NetLabel.events, Reader.lefts_inr] at he
        cases he
      | outside => cases he

/-- **No free money.**  In every run of the network in which the exchanges are fair at the prices
`π`, every settlement record is fair, and what an account outside the exchanges holds at the end is
worth no more than what it held at the beginning and was given in between. -/
theorem no_free_money {V : Set Address} (h0 : Donations.Genesis n.atDonations)
    (hrun : Runs (fun n l n' => Step a n l n' ∧ l.Clean V ∧ l.Fair π) n ls n') :
    (∀ e ∈ routerLog ls, Router.FairRecord π e) ∧
    ∀ y, y ∉ V → π.worth (n'.world.bal · y) ≤ π.worth (n.world.bal · y) +
      π.worth (Donations.donationReader.statement · y (fun _ => none) (donationsLog ls)) +
      (ls.map fun l => π.worth (l.flow · y)).sum := by
  have hlog := routerLog_fair (hrun.mono fun _ _ _ h => ⟨h.1, h.2.2⟩)
  refine ⟨hlog, fun y hy => ?_⟩
  have hbal : (n'.world.bal · y) = fun t => n.world.bal t y +
      (Router.traderReader.statement t y () (routerLog ls) +
        Donations.donationReader.statement t y (fun _ => none) (donationsLog ls)) +
      (ls.map fun l => l.flow t y).sum :=
    funext fun t => account_of_runs h0 (hrun.mono fun _ _ _ h => ⟨h.1, h.2.1⟩) hy t
  have htrades := π.worth_statement_nonpos Router.traderReader y
    (fun e he g => Router.worth_traderReader_nonpos (hlog e he) y g) ()
  have hflows : π.worth (fun t => (ls.map fun l => l.flow t y).sum)
      = (ls.map fun l => π.worth (l.flow · y)).sum := π.worth_sum (fun l t => l.flow t y) ls
  rw [hbal, π.worth_add, π.worth_add, π.worth_add, hflows]
  omega

namespace Appeal

open TestAdapter.Fixture

/-- Two A are worth three B or C. -/
def prices : Prices Address where
  listed := {tokenA, tokenB, tokenC}
  price t := if t = tokenA then 3 else if t = tokenB ∨ t = tokenC then 2 else 0
  nonneg t := by
    split
    · decide
    · split <;> decide
  unlisted t ht := by
    simp only [Finset.mem_insert, Finset.mem_singleton, not_or] at ht
    rw [if_neg ht.1, if_neg (not_or.mpr ht.2)]

theorem fair_log : ∀ l ∈ log, l.Fair prices := by decide +kernel

theorem fair : Runs (fun n l n' => Step sites n l n' ∧ l.Clean ↑({adapterId} : Finset Address) ∧
    l.Fair prices) deployed log given :=
  (clean.with_labels fair_log).mono fun _ _ _ h => ⟨h.1.1, h.1.2.clean, h.2⟩

end Appeal

theorem no_free_money_appeal :
    Appeal.prices.worth (Appeal.given.world.bal · TestAdapter.Fixture.trader) ≤ 27000 := by
  obtain ⟨-, hworth⟩ := no_free_money Appeal.genesis Appeal.fair
  refine (hworth TestAdapter.Fixture.trader (by decide)).trans ?_
  decide +kernel

end Stellariq.Network
