/-
# Who ends up with what

The adapters of a route are arbitrary: each call may report anything, fail, or rearrange the
balances of the whole chain, in collusion with the others.  What the host guarantees is that
none of them debits the trader or the router.  From that alone:

* `swap_never_steals`: the trader pays at most `amount_in` of the input token, loses nothing
  else, and receives at least what the swap returned, which is at least the minimum;
* `router_keeps_nothing`: no stray balance of the router is ever spent, and nothing the router
  pulled or received along the route stays with it.

Both are read off one induction over the settled route each.  For the trader it is enough
that no hop takes anything from the trader and that the last one pays (`Settles.paid`).  For the
router the balances are accounted for exactly (`Settles.router_bal`): what is left over at the end
is the sum of what each adapter call credited to the router beyond the delivery it was asked
for (`AdapterCall.stray`).
-/
import Stellariq.Router.Route
import Stellariq.TestAdapter
import Mathlib.Algebra.Order.BigOperators.Group.List

namespace Stellariq.Router

open Kit

variable {σ : Type} {h : Host σ} {c : Ctx} {reg : Symbol → Option Address} {dest : Address}

/-! ## 1. Reading a settled route by index -/

/-- One adapter call for each step. -/
theorem Settles.length_eq {steps : List SwapStep} {w w' : World σ} {a v : Int}
    {xs : List AdapterCall} (hs : Settles h c reg dest steps w a xs w' v) :
    xs.length = steps.length := by
  induction hs with
  | nil => rfl
  | cons _ _ ih => rw [List.length_cons, List.length_cons, ih]

/-- The `i`-th call settled the `i`-th step, and only the last one paid out of the router. -/
theorem Settles.get {steps : List SwapStep} {w w' : World σ} {a v : Int}
    {xs : List AdapterCall} (hs : Settles h c reg dest steps w a xs w' v) {i : Nat}
    {step : SwapStep} {x : AdapterCall} (hi : steps[i]? = some step) (hx : xs[i]? = some x) :
    ∃ u u' b, HopSettles h c reg (if i + 1 = steps.length then dest else c.self) step u b x u' := by
  induction hs generalizing i with
  | nil => simp at hi
  | @cons step' steps' w₀ w₁ _ b _ x' xs' hhop hrest ih =>
    cases i with
    | zero =>
      simp only [List.getElem?_cons_zero, Option.some.injEq] at hi hx
      subst hi hx
      refine ⟨w₀, w₁, b, ?_⟩
      have hlast : (0 + 1 = (step' :: steps').length) = (steps' = []) := by
        rw [List.length_cons, ← List.length_eq_zero_iff]
        exact propext ⟨fun _ => by omega, fun _ => by omega⟩
      simpa only [hlast] using hhop
    | succ i =>
      simp only [List.getElem?_cons_succ] at hi hx
      obtain ⟨u, u', b', hhop'⟩ := ih hi hx
      refine ⟨u, u', b', ?_⟩
      simpa only [List.length_cons, Nat.add_right_cancel_iff] using hhop'

/-- An adapter that was called is not the router. -/
theorem HopSettles.adapter_ne {recipient : Address} {step : SwapStep} {w w' : World σ} {a : Int}
    {x : AdapterCall} (hx : HopSettles h c reg recipient step w a x w') : x.adapter ≠ c.self := by
  obtain ⟨_, _, _, _, _, hcall, _⟩ := hx.called
  intro he
  rw [callAdapter, if_pos he] at hcall
  cases hcall

theorem HopSettles.delivered_pos {recipient : Address} {step : SwapStep} {w w' : World σ} {a : Int}
    {x : AdapterCall} (hx : HopSettles h c reg recipient step w a x w') : 0 < x.delivered := by
  obtain ⟨_, _, _, _, _, _, _, hr, hrd⟩ := hx.called
  exact lt_of_lt_of_le hr hrd

/-- What the call delivered, read off the worlds around it. -/
theorem HopSettles.delivered_eq {recipient : Address} {step : SwapStep} {w w₁ w' : World σ}
    {a : Int} {x : AdapterCall} (hx : HopSettles h c reg recipient step w a x w')
    (hbefore : x.before = w₁.ledger) :
    x.delivered = w'.bal step.tokenOut recipient - w₁.bal step.tokenOut recipient := by
  rw [AdapterCall.delivered, hx.args, hx.after, hbefore]
  rfl

/-! ## 2. The trader -/

/-- A hop that debits nobody but the router takes nothing from `y`. -/
theorem HopSettles.bal_le {recipient y : Address} {step : SwapStep} {w w' : World σ} {a : Int}
    {x : AdapterCall} (hx : HopSettles h c reg recipient step w a x w') (hy : y ≠ c.self)
    {t : Address} (hdebit : x.before.bal t y ≤ x.after.bal t y) : w.bal t y ≤ w'.bal t y := by
  obtain ⟨w₁, _, hpay, hbefore, _⟩ := hx.called
  calc w.bal t y ≤ w₁.bal t y := World.le_bal_pay hpay hy t
    _ = x.before.bal t y := by rw [hbefore]; rfl
    _ ≤ x.after.bal t y := hdebit
    _ = w'.bal t y := by rw [hx.after]; rfl

/-- A hop raises its recipient's balance of the output token by what it delivered. -/
theorem HopSettles.paid {recipient : Address} {step : SwapStep} {w w' : World σ} {a : Int}
    {x : AdapterCall} (hx : HopSettles h c reg recipient step w a x w')
    (hr : recipient ≠ c.self) :
    w.bal step.tokenOut recipient + x.delivered ≤ w'.bal step.tokenOut recipient := by
  obtain ⟨w₁, _, hpay, hbefore, _⟩ := hx.called
  have h1 : w.bal step.tokenOut recipient ≤ w₁.bal step.tokenOut recipient :=
    World.le_bal_pay hpay hr _
  have h2 := hx.delivered_eq hbefore
  omega

/-- **A route takes nothing from a third party**: `y` is not the router, and no adapter call
debited it. -/
theorem Settles.bal_le {steps : List SwapStep} {w w' : World σ} {a v : Int}
    {xs : List AdapterCall} (hs : Settles h c reg dest steps w a xs w' v) {y : Address}
    (hy : y ≠ c.self) {t : Address} (hdebit : ∀ x ∈ xs, x.before.bal t y ≤ x.after.bal t y) :
    w.bal t y ≤ w'.bal t y := by
  induction hs with
  | nil => exact le_refl _
  | cons hhop _ ih =>
    rw [List.forall_mem_cons] at hdebit
    exact le_trans (hhop.bal_le hy hdebit.1) (ih hdebit.2)

/-- **A route pays its destination** the amount it ends with, in the token it ends at. -/
theorem Settles.paid {steps : List SwapStep} {w w' : World σ} {a v : Int}
    {xs : List AdapterCall} (hs : Settles h c reg dest steps w a xs w' v) {b b' : Address}
    (hchain : Chained b steps b') (hne : steps ≠ []) (hdest : dest ≠ c.self)
    (hdebit : ∀ x ∈ xs, x.before.bal b' dest ≤ x.after.bal b' dest) :
    w.bal b' dest + v ≤ w'.bal b' dest := by
  induction hs generalizing b with
  | nil => exact absurd rfl hne
  | @cons step steps w₀ w₁ w₂ a v x xs hhop hrest ih =>
    rw [List.forall_mem_cons] at hdebit
    obtain ⟨-, -, hchain⟩ := hchain
    cases steps with
    | nil =>
      cases hrest
      rw [if_pos rfl] at hhop
      rw [← show step.tokenOut = b' from hchain]
      exact hhop.paid hdest
    | cons step' steps' =>
      have h1 : w₀.bal b' dest ≤ w₁.bal b' dest := hhop.bal_le hdest hdebit.1
      have h2 : w₁.bal b' dest + v ≤ w₂.bal b' dest := ih hchain (by simp) hdebit.2
      omega

/-! ## 3. The log of a settled swap -/

section Log

variable {p : SwapParams} {executionId : Nat}

/-- The adapter calls in the log of a route are the calls that settled it. -/
theorem callsOf_routeOps {trader : Address} : ∀ (steps : List SwapStep) (xs : List AdapterCall)
    (i : Nat), xs.length = steps.length →
      callsOf (routeOps c trader executionId i steps xs) = xs
  | [], [], _, _ => rfl
  | step :: steps, x :: xs, i, hlen => by
    rw [routeOps, callsOf_append,
      callsOf_routeOps steps xs (i + 1) (by simpa using hlen)]
    rfl

theorem callsOf_swapOps {xs : List AdapterCall} {v : Int} (hlen : xs.length = p.path.length) :
    callsOf (swapOps c p executionId xs v) = xs := by
  have hroute : callsOf (routeOps c p.trader executionId 0 p.path xs) = xs :=
    callsOf_routeOps p.path xs 0 hlen
  calc callsOf (swapOps c p executionId xs v)
      = callsOf (routeOps c p.trader executionId 0 p.path xs ++
          [.event (.swapExecuted (swapRecord c p executionId v))]) := rfl
    _ = xs ++ [] := by rw [callsOf_append, hroute]; rfl
    _ = xs := List.append_nil xs

end Log

/-- **A successful swap, in terms of the adapter calls it made.** -/
theorem swap_settles {p : SwapParams} {s s' : State σ} {v : Int}
    (hok : swap h c p s = (.ok v, s')) :
    Admitted h c p s ∧ p.amountOutMin ≤ v ∧
      (callsOf (s.since s')).length = p.path.length ∧
      ∃ w₁, s.world.pay h.toTokens p.tokenIn p.trader c.self p.amountIn = some w₁ ∧
        Settles h c s.store.adapterOf p.trader p.path w₁ p.amountIn (callsOf (s.since s'))
          s'.world v := by
  obtain ⟨had, -, w₁, xs, w', hpay, hset, hmin, rfl⟩ := swap_eq_ok_iff.mp hok
  rw [Running.since_eq rfl, callsOf_swapOps hset.length_eq]
  exact ⟨had, hmin, hset.length_eq, w₁, hpay, hset⟩

/-- With test adapters, the `i`-th call was made at the adapter of the `i`-th step, and all it
did to anybody else is one credit of the recipient. -/
theorem testAdapter_calls {T : Tokens TestAdapter.Deployments} {c₀ : Ctx} {p : SwapParams}
    {s s' : State TestAdapter.Deployments} {v : Int}
    (hok : swap (TestAdapter.host T c₀) c p s = (.ok v, s')) {i : Nat} {step : SwapStep}
    {x : AdapterCall} (hstep : p.path[i]? = some step)
    (hx : (callsOf (s.since s'))[i]? = some x) :
    s.store.adapterOf step.protocol = some x.adapter ∧ ∃ out, 0 ≤ out ∧
      ∀ y, y ≠ x.adapter → ∀ t, x.after.bal t y = x.before.bal t y +
        Ledger.point step.tokenOut (if i + 1 = p.path.length then p.trader else c.self) out
          t y := by
  obtain ⟨-, -, -, w₁, -, hset⟩ := swap_settles hok
  obtain ⟨_, _, _, hhop⟩ := hset.get hstep hx
  obtain ⟨_, _, _, hbefore, _, hcall, _⟩ := hhop.called
  rw [callAdapter, if_neg hhop.adapter_ne] at hcall
  obtain ⟨out, hout, hbal⟩ := TestAdapter.invoke_bal hcall
  refine ⟨hhop.registered, out, hout, ?_⟩
  intro y hy t
  have h := hbal y hy t
  rw [hhop.args] at h
  rw [hbefore, hhop.after]
  exact h

/-! ## 4. A malicious adapter can grief but not steal -/

/-- **No adapter can steal from the trader.**  Whatever the adapters did, as long as none of
the calls that were made debited the trader. -/
theorem swap_never_steals {p : SwapParams} {s s' : State σ} {v : Int}
    (hok : swap h c p s = (.ok v, s'))
    (hdebit : ∀ x ∈ callsOf (s.since s'), ∀ t,
      x.before.bal t p.trader ≤ x.after.bal t p.trader) :
    p.amountOutMin ≤ v ∧
      (callsOf (s.since s')).length = p.path.length ∧
      (∀ (i : Nat) (step : SwapStep) (x : AdapterCall), p.path[i]? = some step →
        (callsOf (s.since s'))[i]? = some x →
        ∃ r, x.report = .ok r ∧ 0 < x.delivered ∧ r ≤ x.delivered ∧
          step.amountOutMin ≤ x.delivered) ∧
      s.world.bal p.tokenOut p.trader + v - (if p.tokenIn = p.tokenOut then p.amountIn else 0)
        ≤ s'.world.bal p.tokenOut p.trader ∧
      s.world.bal p.tokenIn p.trader - p.amountIn ≤ s'.world.bal p.tokenIn p.trader ∧
      ∀ t, t ≠ p.tokenIn → s.world.bal t p.trader ≤ s'.world.bal t p.trader := by
  obtain ⟨had, hmin, hlen, w₁, hpay, hset⟩ := swap_settles hok
  have htrader : p.trader ≠ c.self := had.authorized.1
  have hne : p.path ≠ [] := List.ne_nil_of_length_pos had.nonempty
  -- what the pull leaves the trader with
  have hpull : ∀ t, w₁.bal t p.trader
      = s.world.bal t p.trader - if p.tokenIn = t then p.amountIn else 0 := by
    intro t
    rw [World.bal_pay hpay, Ledger.point_of_holder_ne htrader]
    simp [Ledger.point, eq_comm]
  -- and what the route adds to it
  have hroute : ∀ t, w₁.bal t p.trader ≤ s'.world.bal t p.trader := fun t =>
    hset.bal_le htrader fun x hx => hdebit x hx t
  have hpaid : w₁.bal p.tokenOut p.trader + v ≤ s'.world.bal p.tokenOut p.trader :=
    hset.paid had.chained hne htrader fun x hx => hdebit x hx p.tokenOut
  refine ⟨hmin, hlen, ?_, ?_, ?_, ?_⟩
  · intro i step x hi hx
    obtain ⟨_, _, _, hhop⟩ := hset.get hi hx
    obtain ⟨_, r, _, _, _, _, hrep, _, hrd⟩ := hhop.called
    exact ⟨r, hrep, hhop.delivered_pos, hrd, hhop.min_le⟩
  · have h1 := hpull p.tokenOut
    omega
  · have h1 := hpull p.tokenIn
    have h2 := hroute p.tokenIn
    rw [if_pos rfl] at h1
    omega
  · intro t ht
    have h1 := hpull t
    have h2 := hroute t
    rw [if_neg (Ne.symm ht)] at h1
    omega

section Witness

open TestAdapter.Fixture

/-- What the calls of the two-hop run did to anybody but the adapter. -/
theorem twoHops_calls {i : Nat} {x : AdapterCall}
    (hx : (callsOf (funded.since swapped))[i]? = some x) :
    ∃ step out, twoHops.path[i]? = some step ∧ 0 ≤ out ∧ ∀ y, y ≠ adapterId → ∀ t,
      x.after.bal t y = x.before.bal t y +
        Ledger.point step.tokenOut (if i + 1 = 2 then trader else routerId) out t y := by
  obtain ⟨-, -, hlen, -⟩ := swap_settles swap_twoHops
  obtain ⟨hi, -⟩ := List.getElem?_eq_some_iff.mp hx
  obtain ⟨step, hstep⟩ : ∃ step, twoHops.path[i]? = some step :=
    ⟨_, List.getElem?_eq_getElem (by omega)⟩
  obtain ⟨hreg, out, hout, hbal⟩ := testAdapter_calls swap_twoHops hstep hx
  have hall : ∀ step ∈ twoHops.path, funded.store.adapterOf step.protocol = some adapterId := by
    decide
  have hx : adapterId = x.adapter :=
    Option.some.inj ((hall step (List.mem_of_getElem? hstep)).symm.trans hreg)
  exact ⟨step, out, hstep, hout, fun y hy => hbal y (hx ▸ hy)⟩

theorem twoHops_debits {y : Address} (hy : y ≠ adapterId) :
    ∀ x ∈ callsOf (funded.since swapped), ∀ t, x.before.bal t y ≤ x.after.bal t y := by
  intro x hx t
  obtain ⟨i, hi⟩ := List.getElem?_of_mem hx
  obtain ⟨step, out, -, hout, hbal⟩ := twoHops_calls hi
  have hnn := Ledger.point_nonneg hout step.tokenOut t (if i + 1 = 2 then trader else routerId) y
  rw [hbal y hy t]
  omega

theorem swap_never_steals_twoHops :
    funded.world.bal tokenC trader + 1500 - (if tokenA = tokenC then 1000 else 0)
        ≤ swapped.world.bal tokenC trader ∧
      funded.world.bal tokenA trader - 1000 ≤ swapped.world.bal tokenA trader := by
  obtain ⟨-, -, -, hout, hin, -⟩ :=
    swap_never_steals swap_twoHops (twoHops_debits (by decide))
  exact ⟨hout, hin⟩

end Witness

/-! ## 5. The router keeps nothing -/

/-- What an adapter call did to the router's balance of `t`, beyond the delivery it was asked
to make to the router. -/
def AdapterCall.stray (x : AdapterCall) (self t : Address) : Int :=
  x.after.bal t self - x.before.bal t self -
    if x.args.recipient = self ∧ t = x.args.tokenOut then x.delivered else 0

/-- One hop, at the router: the input leaves, a delivery to the router comes in, and the rest
is stray. -/
theorem HopSettles.router_bal {recipient : Address} {step : SwapStep} {w w' : World σ} {a : Int}
    {x : AdapterCall} (hx : HopSettles h c reg recipient step w a x w') (t : Address) :
    w'.bal t c.self = w.bal t c.self - Ledger.point step.tokenIn c.self a t c.self +
      x.stray c.self t +
      if recipient = c.self then Ledger.point step.tokenOut c.self x.delivered t c.self else 0 := by
  obtain ⟨w₁, _, hpay, hbefore, _⟩ := hx.called
  have h1 := World.bal_pay hpay t c.self
  rw [Ledger.point_of_holder_ne hx.adapter_ne.symm] at h1
  have h2 : x.before.bal t c.self = w₁.bal t c.self := by rw [hbefore]; rfl
  have h3 : x.after.bal t c.self = w'.bal t c.self := by rw [hx.after]; rfl
  rw [AdapterCall.stray, h2, h3, hx.args]
  by_cases hr : recipient = c.self
  · by_cases ht : t = step.tokenOut
    · simp only [hr, ht, and_self, if_true, Ledger.point] at h1 ⊢
      omega
    · simp only [hr, ht, and_false, if_true, if_false, Ledger.point, false_and] at h1 ⊢
      omega
  · simp only [hr, false_and, if_false]
    omega

/-- **The router's balances, accounted for.**  A route from token `b` consumes the amount it
starts with and leaves the router exactly the stray credits of its calls. -/
theorem Settles.router_bal {steps : List SwapStep} {w w' : World σ} {a v : Int}
    {xs : List AdapterCall} (hs : Settles h c reg dest steps w a xs w' v) {b b' : Address}
    (hchain : Chained b steps b') (hne : steps ≠ []) (hdest : dest ≠ c.self) (t : Address) :
    w'.bal t c.self = w.bal t c.self - Ledger.point b c.self a t c.self +
      (xs.map fun x => x.stray c.self t).sum := by
  induction hs generalizing b with
  | nil => exact absurd rfl hne
  | @cons step steps w₀ w₁ w₂ a v x xs hhop hrest ih =>
    obtain ⟨rfl, -, hchain⟩ := hchain
    have h1 := hhop.router_bal t
    rw [List.map_cons, List.sum_cons]
    cases steps with
    | nil =>
      cases hrest
      rw [if_pos rfl, if_neg hdest] at h1
      rw [h1, List.map_nil, List.sum_nil, add_zero, add_zero]
    | cons step' steps' =>
      have h2 := ih hchain (by simp)
      simp only [reduceCtorEq, if_false, if_true] at h1
      omega

/-- A call that does not debit the router has no negative stray. -/
theorem AdapterCall.stray_nonneg {x : AdapterCall} {self t : Address}
    (hdebit : x.before.bal t self ≤ x.after.bal t self) : 0 ≤ x.stray self t := by
  unfold AdapterCall.stray AdapterCall.delivered
  split
  · rename_i hr
    rw [hr.1, ← hr.2]
    omega
  · omega

/-- The stray of a call vanishes where all it may credit to the router is the delivery. -/
theorem AdapterCall.stray_eq_zero {x : AdapterCall} {self t : Address}
    (hdebit : x.before.bal t self ≤ x.after.bal t self)
    (hcredit : x.before.bal t self < x.after.bal t self →
      x.args.recipient = self ∧ t = x.args.tokenOut) : x.stray self t = 0 := by
  unfold AdapterCall.stray AdapterCall.delivered
  by_cases hr : x.args.recipient = self ∧ t = x.args.tokenOut
  · rw [if_pos hr, hr.1, ← hr.2]
    omega
  · rw [if_neg hr]
    have hle : x.after.bal t self ≤ x.before.bal t self :=
      not_lt.mp fun hlt => hr (hcredit hlt)
    omega

/-- A successful swap leaves the router with what it had, and the stray credits. -/
theorem swap_router_bal {p : SwapParams} {s s' : State σ} {v : Int}
    (hok : swap h c p s = (.ok v, s')) (t : Address) :
    s'.world.bal t c.self = s.world.bal t c.self +
      ((callsOf (s.since s')).map fun x => x.stray c.self t).sum := by
  obtain ⟨had, -, -, w₁, hpay, hset⟩ := swap_settles hok
  have hne : p.path ≠ [] := List.ne_nil_of_length_pos had.nonempty
  have h1 := World.bal_pay hpay t c.self
  rw [Ledger.point_of_holder_ne had.authorized.1.symm] at h1
  have h2 := hset.router_bal had.chained hne had.authorized.1 t
  omega

/-- **The router keeps nothing and spends nothing of its own.**  Its balances never shrink;
and they are exactly what they were as soon as the only thing any adapter call credits to the
router is the hop's output token on a hop that is not the last. -/
theorem router_keeps_nothing {p : SwapParams} {s s' : State σ} {v : Int}
    (hok : swap h c p s = (.ok v, s'))
    (hdebit : ∀ x ∈ callsOf (s.since s'), ∀ t, x.before.bal t c.self ≤ x.after.bal t c.self) :
    (∀ t, s.world.bal t c.self ≤ s'.world.bal t c.self) ∧
      ((∀ (i : Nat) (step : SwapStep) (x : AdapterCall) (t : Address), p.path[i]? = some step →
          (callsOf (s.since s'))[i]? = some x → x.before.bal t c.self < x.after.bal t c.self →
          t = step.tokenOut ∧ i + 1 < p.path.length) →
        ∀ t, s'.world.bal t c.self = s.world.bal t c.self) := by
  obtain ⟨had, -, hlen, w₁, hpay, hset⟩ := swap_settles hok
  constructor
  · intro t
    have hnn : 0 ≤ ((callsOf (s.since s')).map fun x => x.stray c.self t).sum := by
      refine List.sum_nonneg ?_
      intro y hy
      obtain ⟨x, hx, rfl⟩ := List.mem_map.mp hy
      exact AdapterCall.stray_nonneg (hdebit x hx t)
    rw [swap_router_bal hok t]
    omega
  · intro hcredit t
    have hz : ((callsOf (s.since s')).map fun x => x.stray c.self t).sum = 0 := by
      refine List.sum_eq_zero ?_
      intro y hy
      obtain ⟨x, hx, rfl⟩ := List.mem_map.mp hy
      refine AdapterCall.stray_eq_zero (hdebit x hx t) fun hlt => ?_
      obtain ⟨i, hi⟩ := List.getElem?_of_mem hx
      obtain ⟨hil, -⟩ := List.getElem?_eq_some_iff.mp hi
      obtain ⟨step, hstep⟩ : ∃ step, p.path[i]? = some step :=
        ⟨_, List.getElem?_eq_getElem (by omega)⟩
      -- the call that made the credit is not the last one, so it paid the router
      obtain ⟨rfl, hlast⟩ := hcredit i step x t hstep hi hlt
      obtain ⟨_, _, _, hhop⟩ := hset.get hstep hi
      rw [hhop.args, if_neg (by omega)]
      exact ⟨rfl, rfl⟩
    rw [swap_router_bal hok t, hz, add_zero]

section Witness

open TestAdapter.Fixture

theorem router_keeps_nothing_twoHops :
    swapped.world.bal tokenA routerId = funded.world.bal tokenA routerId ∧
      swapped.world.bal tokenB routerId = funded.world.bal tokenB routerId := by
  have hkeeps := router_keeps_nothing swap_twoHops (twoHops_debits (y := routerId) (by decide))
  have hexact := hkeeps.2 fun i step x t hstep hx hlt => by
    obtain ⟨step', out, hstep', -, hbal⟩ := twoHops_calls hx
    obtain rfl : step = step' := Option.some.inj (hstep.symm.trans hstep')
    have hi : i < 2 := (List.getElem?_eq_some_iff.mp hstep).1
    have h := hbal routerId (by decide) t
    by_cases hlast : i + 1 = 2
    · rw [if_pos hlast, Ledger.point_of_holder_ne (by decide)] at h
      exact absurd hlt (by simp only [ctx] at *; omega)
    · by_cases ht : t = step.tokenOut
      · exact ⟨ht, show i + 1 < 2 by omega⟩
      · rw [Ledger.point_of_token_ne ht] at h
        exact absurd hlt (by simp only [ctx] at *; omega)
  exact ⟨hexact tokenA, hexact tokenB⟩

end Witness

end Stellariq.Router
