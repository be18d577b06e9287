/-
# What the settlement events say

The events of a successful swap are one record for each hop, in route order, and then one summary
(`eventsOf_swapOps`).  The records are read by index (`routeRecords_getElem?`): the `i`-th one is
about the `i`-th step of the route and the `i`-th adapter call, so that everything the events say
about each other is something the calls and the steps say about each other.
-/
import Stellariq.Router.Path
import Stellariq.Router.Settlement

namespace Stellariq.Router

open Kit

variable {σ : Type} {h : Host σ} {c : Ctx}

/-! ## 1. The records of a route -/

/-- The hop records of the steps, from hop index `i` on. -/
def routeRecords (executionId : Nat) (trader : Address) :
    Nat → List SwapStep → List AdapterCall → List HopExecuted
  | i, step :: steps, x :: xs =>
    hopRecord executionId trader i step x :: routeRecords executionId trader (i + 1) steps xs
  | _, _, _ => []

theorem length_routeRecords {executionId : Nat} {trader : Address} :
    ∀ (steps : List SwapStep) (xs : List AdapterCall) (i : Nat), xs.length = steps.length →
      (routeRecords executionId trader i steps xs).length = steps.length
  | [], [], _, _ => rfl
  | step :: steps, x :: xs, i, hlen => by
    rw [routeRecords, List.length_cons, List.length_cons,
      length_routeRecords steps xs (i + 1) (by simpa using hlen)]

/-- **The records by index**: the `k`-th one is about the `k`-th step and the `k`-th call. -/
theorem routeRecords_getElem? {executionId : Nat} {trader : Address} {r : HopExecuted} :
    ∀ (steps : List SwapStep) (xs : List AdapterCall) (i k : Nat),
      (routeRecords executionId trader i steps xs)[k]? = some r ↔
        ∃ step x, steps[k]? = some step ∧ xs[k]? = some x ∧
          r = hopRecord executionId trader (i + k) step x
  | [], xs, i, k => by simp [routeRecords]
  | step :: steps, [], i, k => by simp [routeRecords]
  | step :: steps, x :: xs, i, 0 => by simp [routeRecords, eq_comm]
  | step :: steps, x :: xs, i, k + 1 => by
    have hk : i + 1 + k = i + (k + 1) := by omega
    simp only [routeRecords, List.getElem?_cons_succ]
    rw [routeRecords_getElem? steps xs (i + 1) k, hk]

theorem eventsOf_routeOps {executionId : Nat} {trader : Address} :
    ∀ (steps : List SwapStep) (xs : List AdapterCall) (i : Nat),
      eventsOf (routeOps c trader executionId i steps xs)
        = (routeRecords executionId trader i steps xs).map .hopExecuted
  | [], _, _ => rfl
  | _ :: _, [], _ => rfl
  | step :: steps, x :: xs, i => by
    rw [routeOps, eventsOf_append, eventsOf_routeOps steps xs (i + 1)]
    rfl

/-- **The events of a settled swap**: the hop records, then the summary. -/
theorem eventsOf_swapOps {p : SwapParams} {executionId : Nat} {xs : List AdapterCall} {v : Int} :
    eventsOf (swapOps c p executionId xs v)
      = (routeRecords executionId p.trader 0 p.path xs).map .hopExecuted ++
        [.swapExecuted (swapRecord c p executionId v)] := by
  calc eventsOf (swapOps c p executionId xs v)
      = eventsOf (routeOps c p.trader executionId 0 p.path xs ++
          [.event (.swapExecuted (swapRecord c p executionId v))]) := rfl
    _ = eventsOf (routeOps c p.trader executionId 0 p.path xs) ++
          [.swapExecuted (swapRecord c p executionId v)] := by rw [eventsOf_append]; rfl
    _ = _ := by rw [eventsOf_routeOps]

/-! ## 2. Routes and calls by index -/

/-- Consecutive steps of a chained route meet in one token. -/
theorem Chained.meet {a b : Address} {steps : List SwapStep} (hchain : Chained a steps b)
    {i : Nat} {step step' : SwapStep} (hi : steps[i]? = some step)
    (hi' : steps[i + 1]? = some step') : step'.tokenIn = step.tokenOut := by
  have hlinked := List.isChain_iff_getElem.mp (chained_iff_wellFormed.mp hchain).linked
  obtain ⟨_, rfl⟩ := List.getElem?_eq_some_iff.mp hi
  obtain ⟨hlt, rfl⟩ := List.getElem?_eq_some_iff.mp hi'
  exact (hlinked i hlt).symm

theorem Chained.head {a b : Address} {steps : List SwapStep} (hchain : Chained a steps b)
    {step : SwapStep} (hhead : steps[0]? = some step) : step.tokenIn = a := by
  rw [← List.head?_eq_getElem?] at hhead
  exact (chained_iff_wellFormed.mp hchain).first step hhead

theorem Chained.last {a b : Address} {steps : List SwapStep} (hchain : Chained a steps b)
    {i : Nat} {step : SwapStep} (hi : steps[i]? = some step) (hlast : i + 1 = steps.length) :
    step.tokenOut = b := by
  obtain rfl : steps.length - 1 = i := by omega
  rw [← List.getLast?_eq_getElem?] at hi
  rw [← hchain.endToken_eq, endToken, hi]
  rfl

section Amounts

variable {reg : Symbol → Option Address} {dest : Address} {steps : List SwapStep}
  {w w' : World σ} {a v : Int} {xs : List AdapterCall}

/-- The first call of a settled route is fed the amount the route starts with. -/
theorem Settles.amountIn_head (hs : Settles h c reg dest steps w a xs w' v) {x : AdapterCall}
    (hx : xs[0]? = some x) : x.args.amountIn = a := by
  cases hs with
  | nil => simp at hx
  | cons hhop _ =>
    obtain rfl : _ = x := by simpa using hx
    rw [hhop.args]

/-- Each call is fed what the call before it delivered. -/
theorem Settles.amountIn_succ (hs : Settles h c reg dest steps w a xs w' v) {i : Nat}
    {x x' : AdapterCall} (hx : xs[i]? = some x) (hx' : xs[i + 1]? = some x') :
    x'.args.amountIn = x.delivered := by
  induction hs generalizing i with
  | nil => simp at hx
  | @cons _ _ _ _ _ _ _ y ys hhop hrest ih =>
    cases i with
    | succ i => exact ih hx hx'
    | zero =>
      obtain rfl : y = x := by simpa using hx
      exact hrest.amountIn_head (by simpa using hx')

/-- The last call delivered what the route ends with. -/
theorem Settles.delivered_last (hs : Settles h c reg dest steps w a xs w' v) {i : Nat}
    {x : AdapterCall} (hx : xs[i]? = some x) (hlast : i + 1 = steps.length) : x.delivered = v := by
  induction hs generalizing i with
  | nil => simp at hx
  | @cons _ _ _ _ _ _ _ y ys hhop hrest ih =>
    cases i with
    | succ i => exact ih hx (by simpa using hlast)
    | zero =>
      obtain rfl : y = x := by simpa using hx
      obtain rfl : _ = [] := by simpa using hlast.symm
      cases hrest
      rfl

end Amounts

/-! ## 3. The settlement events tell the truth -/

/-- **The events of a successful swap**: one record for each hop and one summary, chained to each
other, and in agreement with the route and with what the adapter calls did to balances. -/
theorem events_tell_truth {p : SwapParams} {s s' : State σ} {v : Int}
    (hok : swap h c p s = (.ok v, s')) :
    ∃ (hops : List HopExecuted) (summary : SwapExecuted),
      eventsOf (s.since s') = hops.map .hopExecuted ++ [.swapExecuted summary] ∧
      hops.length = p.path.length ∧ (callsOf (s.since s')).length = p.path.length ∧
      (∀ (i : Nat) (r : HopExecuted), hops[i]? = some r →
        ∃ step x recipient, p.path[i]? = some step ∧ (callsOf (s.since s'))[i]? = some x ∧
          recipient = (if i + 1 = p.path.length then p.trader else c.self) ∧
          r.executionId = summary.executionId ∧ r.trader = p.trader ∧ r.hopIndex = i ∧
          r.protocol = step.protocol ∧ r.pool = step.pool ∧ r.tokenIn = step.tokenIn ∧
          r.tokenOut = step.tokenOut ∧ x.args.recipient = recipient ∧
          r.amountOut = x.after.bal step.tokenOut recipient -
            x.before.bal step.tokenOut recipient) ∧
      (∀ r, hops[0]? = some r → r.amountIn = p.amountIn ∧ r.tokenIn = summary.tokenIn) ∧
      (∀ (i : Nat) (r r' : HopExecuted), hops[i]? = some r → hops[i + 1]? = some r' →
        r'.amountIn = r.amountOut ∧ r'.tokenIn = r.tokenOut) ∧
      summary.protocols = p.path.map SwapStep.protocol ∧ summary.trader = p.trader ∧
      summary.tokenIn = p.tokenIn ∧ summary.tokenOut = p.tokenOut ∧
      summary.amountIn = p.amountIn ∧ summary.amountOut = v ∧
      (∀ (i : Nat) (r : HopExecuted) (x : AdapterCall), i + 1 = p.path.length →
        hops[i]? = some r → (callsOf (s.since s'))[i]? = some x →
        r.tokenOut = summary.tokenOut ∧ r.amountOut = v ∧
          v = x.after.bal p.tokenOut p.trader - x.before.bal p.tokenOut p.trader) := by
  obtain ⟨had, -, w₁, xs, w', -, hset, -, rfl⟩ := swap_eq_ok_iff.mp hok
  have hlen : xs.length = p.path.length := hset.length_eq
  rw [Running.since_eq rfl, callsOf_swapOps hlen]
  refine ⟨_, _, eventsOf_swapOps, length_routeRecords p.path xs 0 hlen, hlen, ?_, ?_, ?_, rfl, rfl,
    rfl, rfl, rfl, rfl, ?_⟩
  · intro i r hr
    obtain ⟨step, x, hstep, hx, rfl⟩ := (routeRecords_getElem? p.path xs 0 i).mp hr
    obtain ⟨_, _, _, hhop⟩ := hset.get hstep hx
    refine ⟨step, x, _, hstep, hx, rfl, rfl, rfl, Nat.zero_add i, rfl, rfl, rfl, rfl, ?_, ?_⟩
    · rw [hhop.args]
    · simp only [hopRecord, AdapterCall.delivered]
      rw [hhop.args]
  · intro r hr
    obtain ⟨step, x, hstep, hx, rfl⟩ := (routeRecords_getElem? p.path xs 0 0).mp hr
    exact ⟨hset.amountIn_head hx, had.chained.head hstep⟩
  · intro i r r' hr hr'
    obtain ⟨step, x, hstep, hx, rfl⟩ := (routeRecords_getElem? p.path xs 0 i).mp hr
    obtain ⟨step', x', hstep', hx', rfl⟩ := (routeRecords_getElem? p.path xs 0 (i + 1)).mp hr'
    exact ⟨hset.amountIn_succ hx hx', had.chained.meet hstep hstep'⟩
  · intro i r x hlast hr hx
    obtain ⟨step, x', hstep, hx', rfl⟩ := (routeRecords_getElem? p.path xs 0 i).mp hr
    obtain rfl : x = x' := Option.some.inj (hx.symm.trans hx')
    have hout : step.tokenOut = p.tokenOut := had.chained.last hstep hlast
    have hv : x.delivered = v := hset.delivered_last hx hlast
    obtain ⟨_, _, _, hhop⟩ := hset.get hstep hx
    refine ⟨hout, hv, ?_⟩
    rw [← hv, AdapterCall.delivered, hhop.args, if_pos hlast, hout]

section Witness

open TestAdapter.Fixture

theorem events_tell_truth_twoHops :
    ∃ (hops : List HopExecuted) (summary : SwapExecuted),
      eventsOf (funded.since swapped) = hops.map .hopExecuted ++ [.swapExecuted summary] ∧
      hops.length = 2 ∧ summary.amountOut = 1500 := by
  obtain ⟨hops, summary, hev, hlen, -, -, -, -, -, -, -, -, -, hout, -⟩ :=
    events_tell_truth swap_twoHops
  exact ⟨hops, summary, hev, hlen, hout⟩

end Witness

end Stellariq.Router
