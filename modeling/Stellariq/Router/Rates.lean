/-
# Over test adapters, a swap computes the product of the rates

The router knows nothing of prices, and a test adapter nothing of routes.  Put together they
compute: each step turns an amount into that amount times the rate of its pool, rounded down,
so a route returns the left fold of these roundings (`swap_computes_rates`), whatever the
adapters report.

Whether the route succeeds is read off the same amounts.  `legs` lists them beside the adapters
that serve the steps, and `Leg.Fills` is what one leg needs; the only condition on more than
the leg itself is the stock: what the adapter had of the output token, plus what the route has
forwarded to it, less what it has paid out.  The induction over the route carries exactly this
balance (`Stocked`), for every holder but the router and the trader.
-/
import Stellariq.Router.Exact

namespace Stellariq.Router

open Kit
open TestAdapter (Deployments)

/-! ## 1. What a route over test adapters computes -/

/-- One step of a route: who serves it, and the amounts it turns into each other. -/
structure Leg where
  step : SwapStep
  adapter : Address
  store : TestAdapter.Store
  amountIn : Int
  amountOut : Int

/-- The adapter of a step.  (The guards let no step through that has none.) -/
def adapterFor (s : State Deployments) (step : SwapStep) : Address :=
  (s.store.adapterOf step.protocol).getD step.pool

/-- The storage of the adapter of a step. -/
def storeFor (s : State Deployments) (step : SwapStep) : TestAdapter.Store :=
  (s.world.rest (adapterFor s step)).getD TestAdapter.Store.deployed

/-- What a step turns an amount into: the amount times the rate, rounded down. -/
def outputFor (s : State Deployments) (amountIn : Int) (step : SwapStep) : Int :=
  (storeFor s step).output step.pool amountIn

/-- The step, fed with the amount `a`. -/
def legFor (s : State Deployments) (a : Int) (step : SwapStep) : Leg :=
  { step, adapter := adapterFor s step, store := storeFor s step, amountIn := a,
    amountOut := outputFor s a step }

/-- The legs of a route, each fed with what the one before it puts out. -/
def legs (s : State Deployments) : Int → List SwapStep → List Leg
  | _, [] => []
  | a, step :: steps => legFor s a step :: legs s (outputFor s a step) steps

/-- How much of the token `t` the legs forward to `y`. -/
def inputsTo (ls : List Leg) (t y : Address) : Int :=
  (ls.map fun l => Ledger.point l.step.tokenIn l.adapter l.amountIn t y).sum

/-- How much of the token `t` the legs make `y` pay out. -/
def outputsBy (ls : List Leg) (t y : Address) : Int :=
  (ls.map fun l => Ledger.point l.step.tokenOut l.adapter l.amountOut t y).sum

/-- The pool turns `a` into `b` and the adapter has enough in stock for it. -/
structure Fills (st : TestAdapter.Store) (step : SwapStep) (a b stock : Int) : Prop where
  unflagged : (st.fail step.pool).getD false = false
  fits : a * (st.rateOf step.pool).1 ≤ I128_MAX
  positive : 0 < b
  min_le : step.amountOutMin ≤ b
  report : ∀ m, st.misreport step.pool = some m → 0 < m ∧ m ≤ b
  stocked : b ≤ stock

/-- What a leg needs, after the legs `before` it: its stock is what the adapter had, plus the
inputs of this and the earlier legs, less the outputs of the earlier ones. -/
def Leg.Fills (w : World Deployments) (before : List Leg) (l : Leg) : Prop :=
  Router.Fills l.store l.step l.amountIn l.amountOut
    (w.bal l.step.tokenOut l.adapter + inputsTo (before ++ [l]) l.step.tokenOut l.adapter -
      outputsBy before l.step.tokenOut l.adapter)

/-! ## 2. One hop -/

section Hop

variable {T : Tokens Deployments} {c k : Ctx} {reg : Symbol → Option Address}
  {recipient adapter : Address} {step : SwapStep} {w u : World Deployments} {a b : Int}
  {st : TestAdapter.Store}

/-- What the adapter holds once the input of the hop has been forwarded to it. -/
theorem bal_forwarded (hin : T.Exact step.tokenIn) (ha : 0 ≤ a)
    (hle : a ≤ w.bal step.tokenIn c.self) (hself : adapter ≠ c.self) (t : Address) :
    (forwarded w step.tokenIn c.self adapter a).bal t adapter =
      w.bal t adapter + Ledger.point step.tokenIn adapter a t adapter := by
  rw [World.bal_pay (pay_eq_forwarded hin ha hle), Ledger.point_of_holder_ne hself, sub_zero]

/-- **One hop over a test adapter**: it delivers exactly the pool's output, when the pool fills
it, and pays it out of its own balance. -/
theorem hopDelivers_iff (hreg : reg step.protocol = some adapter)
    (hst : w.rest adapter = some st) (hvalid : st.Valid) (hself : adapter ≠ c.self)
    (hrec : recipient ≠ adapter) (hin : T.Exact step.tokenIn) (ha : 0 < a)
    (hle : a ≤ w.bal step.tokenIn c.self) :
    HopDelivers (TestAdapter.host T k) c reg recipient step w a b u ↔
      st.output step.pool a = b ∧
      Fills st step a b
        (w.bal step.tokenOut adapter + Ledger.point step.tokenIn adapter a step.tokenOut adapter) ∧
      (forwarded w step.tokenIn c.self adapter a).pay T step.tokenOut adapter recipient b
        = some u := by
  have hbal := bal_forwarded (w := w) hin (le_of_lt ha) hle hself
  have hcall : callAdapter (TestAdapter.host T k) c adapter
        ⟨step.pool, step.tokenIn, step.tokenOut, a, step.amountOutMin, recipient⟩
        (forwarded w step.tokenIn c.self adapter a)
      = TestAdapter.invoke T k adapter
        ⟨step.pool, step.tokenIn, step.tokenOut, a, step.amountOutMin, recipient⟩
        (forwarded w step.tokenIn c.self adapter a) := if_neg hself
  -- what the payment of an output does to the recipient
  have hcredit : ∀ {out : Int},
      (forwarded w step.tokenIn c.self adapter a).pay T step.tokenOut adapter recipient out
        = some u →
      u.bal step.tokenOut recipient =
        (forwarded w step.tokenIn c.self adapter a).bal step.tokenOut recipient + out := by
    intro out hpay
    rw [World.bal_pay hpay, Ledger.point_self, Ledger.point_of_holder_ne hrec, sub_zero]
  constructor
  · rintro ⟨_, r, hreg', hrun, hdelta, hr, hrb, hmin, -⟩
    obtain rfl := Option.some.inj (hreg.symm.trans hreg')
    rw [hcall] at hrun
    obtain ⟨_, hst', -, -, out, hquote, hpay, rfl⟩ := TestAdapter.invoke_eq_ok.mp hrun
    obtain rfl := Option.some.inj (hst.symm.trans hst')
    obtain ⟨hflag, hfits, hval⟩ := (hvalid.quote_eq_some ha).mp hquote
    obtain rfl : out = b := by
      have := hcredit hpay
      omega
    refine ⟨hval, ⟨hflag, hfits, lt_of_lt_of_le hr hrb, hmin, fun m hm => ?_, ?_⟩, hpay⟩
    · rw [hm] at hr hrb
      exact ⟨hr, hrb⟩
    · rw [← hbal]
      exact World.covered_of_pay hpay
  · rintro ⟨hval, hfills, hpay⟩
    have hreport : 0 < (st.misreport step.pool).getD b ∧ (st.misreport step.pool).getD b ≤ b := by
      cases hm : st.misreport step.pool with
      | none => exact ⟨hfills.positive, le_refl b⟩
      | some m => exact hfills.report m hm
    have hquote : st.quote step.pool a = some b :=
      (hvalid.quote_eq_some ha).mpr ⟨hfills.unflagged, hfills.fits, hval⟩
    have hheld : a ≤ (forwarded w step.tokenIn c.self adapter a).bal step.tokenIn adapter := by
      have := World.bal_nonneg w step.tokenIn adapter
      rw [hbal, Ledger.point_self]
      omega
    obtain ⟨hnum, hdenom⟩ := hvalid.rateOf step.pool
    refine ⟨adapter, _, hreg, ?_, hcredit hpay, hreport.1, hreport.2, hfills.min_le, ?_⟩
    · rw [hcall]
      exact TestAdapter.invoke_eq_ok.mpr
        ⟨st, hst, hin.isToken _, hheld, b, hquote, hpay, rfl⟩
    · calc b = a * (st.rateOf step.pool).1 / (st.rateOf step.pool).2 := hval.symm
        _ ≤ a * (st.rateOf step.pool).1 := Int.ediv_le_self _ (mul_nonneg (le_of_lt ha) hnum)
        _ ≤ I128_MAX := hfills.fits

end Hop

/-! ## 3. The route -/

/-- The step is served by an initialized test adapter with valid rates, which is neither the
router nor the trader. -/
structure Serves (c : Ctx) (trader : Address) (s : State Deployments) (step : SwapStep) : Prop where
  registered : s.store.adapterOf step.protocol = some (adapterFor s step)
  deployed : s.world.rest (adapterFor s step) = some (storeFor s step)
  valid : (storeFor s step).Valid
  ne_router : adapterFor s step ≠ c.self
  ne_trader : adapterFor s step ≠ trader

/-- Every leg of the list is filled, after the legs `before` it. -/
def AllFill (w : World Deployments) : List Leg → List Leg → Prop
  | _, [] => True
  | before, l :: ls => l.Fills w before ∧ AllFill w (before ++ [l]) ls

theorem allFill_iff {w : World Deployments} {before ls : List Leg} :
    AllFill w before ls ↔
      ∀ (i : Nat) (l : Leg), ls[i]? = some l → l.Fills w (before ++ ls.take i) := by
  induction ls generalizing before with
  | nil => simp [AllFill]
  | cons l ls ih =>
    rw [AllFill, ih]
    constructor
    · rintro ⟨hl, hls⟩ (_ | i) l' hi
      · obtain rfl : l = l' := by simpa using hi
        simpa using hl
      · simpa using hls i l' (by simpa using hi)
    · intro hall
      refine ⟨by simpa using hall 0 l rfl, fun i l' hi => ?_⟩
      simpa using hall (i + 1) l' (by simpa using hi)

/-- What the route has done so far to everybody but the router and the trader. -/
structure Stocked (c : Ctx) (trader : Address) (s : State Deployments) (before : List Leg)
    (w : World Deployments) : Prop where
  rest : w.rest = s.world.rest
  bal : ∀ t y, y ≠ c.self → y ≠ trader →
    w.bal t y = s.world.bal t y + inputsTo before t y - outputsBy before t y

theorem inputsTo_snoc (before : List Leg) (l : Leg) (t y : Address) :
    inputsTo (before ++ [l]) t y =
      inputsTo before t y + Ledger.point l.step.tokenIn l.adapter l.amountIn t y := by
  simp [inputsTo]

theorem outputsBy_snoc (before : List Leg) (l : Leg) (t y : Address) :
    outputsBy (before ++ [l]) t y =
      outputsBy before t y + Ledger.point l.step.tokenOut l.adapter l.amountOut t y := by
  simp [outputsBy]

section Route

variable {T : Tokens Deployments} {c k : Ctx} {trader : Address} {s : State Deployments}

/-- One more leg. -/
theorem Stocked.leg {before : List Leg} {l : Leg} {w w' : World Deployments}
    {recipient : Address} (hstock : Stocked c trader s before w)
    (hin : T.Exact l.step.tokenIn) (ha : 0 ≤ l.amountIn)
    (hle : l.amountIn ≤ w.bal l.step.tokenIn c.self)
    (hrec : recipient = c.self ∨ recipient = trader)
    (hpay : (forwarded w l.step.tokenIn c.self l.adapter l.amountIn).pay T l.step.tokenOut
      l.adapter recipient l.amountOut = some w') :
    Stocked c trader s (before ++ [l]) w' := by
  have hforward : w.pay T l.step.tokenIn c.self l.adapter l.amountIn
      = some (forwarded w l.step.tokenIn c.self l.adapter l.amountIn) :=
    pay_eq_forwarded hin ha hle
  refine ⟨?_, fun t y hself htrader => ?_⟩
  · rw [World.rest_pay hpay, World.rest_pay hforward, hstock.rest]
  · have hy : y ≠ recipient := by
      rcases hrec with rfl | rfl
      · exact hself
      · exact htrader
    rw [World.bal_pay hpay, World.bal_pay hforward, Ledger.point_of_holder_ne hself,
      Ledger.point_of_holder_ne hy, hstock.bal t y hself htrader, inputsTo_snoc, outputsBy_snoc]
    omega

/-- What the adapter of a leg has in stock when its input has been forwarded. -/
theorem Stocked.fills_iff {before : List Leg} {l : Leg} {w : World Deployments}
    (hstock : Stocked c trader s before w) (hself : l.adapter ≠ c.self)
    (htrader : l.adapter ≠ trader) :
    l.Fills s.world before ↔
      Fills l.store l.step l.amountIn l.amountOut (w.bal l.step.tokenOut l.adapter +
        Ledger.point l.step.tokenIn l.adapter l.amountIn l.step.tokenOut l.adapter) := by
  have heq : s.world.bal l.step.tokenOut l.adapter
        + inputsTo (before ++ [l]) l.step.tokenOut l.adapter
        - outputsBy before l.step.tokenOut l.adapter =
      w.bal l.step.tokenOut l.adapter +
        Ledger.point l.step.tokenIn l.adapter l.amountIn l.step.tokenOut l.adapter := by
    rw [hstock.bal _ _ hself htrader, inputsTo_snoc]
    omega
  rw [Leg.Fills, heq]

/-- **A route over test adapters** delivers exactly when every leg is filled, and then the last
amount is the left fold of the outputs. -/
theorem delivers_iff_allFill (htrader : trader ≠ c.self) {v : Int} :
    ∀ (steps : List SwapStep) (before : List Leg) (w : World Deployments) (a : Int)
      (t b' : Address), Chained t steps b' → T.Exact t →
      (∀ step ∈ steps, T.Exact step.tokenOut) → (∀ step ∈ steps, Serves c trader s step) →
      Stocked c trader s before w → 0 < a → (steps ≠ [] → a ≤ w.bal t c.self) →
      ((∃ amounts w', Delivers (TestAdapter.host T k) c s.store.adapterOf trader steps w
            (a :: amounts) w' ∧ (a :: amounts).getLast? = some v) ↔
        AllFill s.world before (legs s a steps) ∧ steps.foldl (outputFor s) a = v)
  | [], before, w, a, _, _, _, _, _, _, _, _, _ => by
    constructor
    · rintro ⟨amounts, w', hd, hlast⟩
      cases hd
      exact ⟨trivial, by simpa using hlast⟩
    · rintro ⟨-, rfl⟩
      exact ⟨[], w, .nil w a, rfl⟩
  | step :: steps, before, w, a, t, b', hchain, ht, hout, hserves, hstock, ha, hle => by
    obtain ⟨rfl, -, hchain⟩ := hchain
    rw [List.forall_mem_cons] at hout hserves
    obtain ⟨hserve, hserves⟩ := hserves
    have hle : a ≤ w.bal step.tokenIn c.self := hle (by simp)
    have hrec : (if steps = [] then trader else c.self) = c.self ∨
        (if steps = [] then trader else c.self) = trader := by
      split
      · exact Or.inr rfl
      · exact Or.inl rfl
    have hapart : (if steps = [] then trader else c.self) ≠ adapterFor s step := by
      split
      · exact hserve.ne_trader.symm
      · exact hserve.ne_router.symm
    have hhop (b : Int) (w₁ : World Deployments) := hopDelivers_iff (k := k) (b := b) (u := w₁)
      hserve.registered (hstock.rest ▸ hserve.deployed) hserve.valid hserve.ne_router hapart ht ha
      hle
    have hfill : (legFor s a step).Fills s.world before ↔ _ :=
      hstock.fills_iff hserve.ne_router hserve.ne_trader
    -- the rest of the route, once the first hop has been made
    have hrest {w₁ : World Deployments} (hpos : 0 < outputFor s a step)
        (hpay : (forwarded w step.tokenIn c.self (adapterFor s step) a).pay T step.tokenOut
          (adapterFor s step) (if steps = [] then trader else c.self) (outputFor s a step)
            = some w₁) := by
      refine delivers_iff_allFill (v := v) htrader steps (before ++ [legFor s a step]) w₁
        (outputFor s a step) step.tokenOut b' hchain hout.1 hout.2 hserves
        (hstock.leg ht (le_of_lt ha) hle hrec hpay) hpos fun hne => ?_
      rw [if_neg hne] at hpay
      exact World.le_bal_of_pay hpay hserve.ne_router.symm
    simp only [legs, AllFill, List.foldl_cons, hfill]
    constructor
    · rintro ⟨_, w', hds, hlast⟩
      cases hds with
      | @cons _ _ _ w₁ _ _ b amounts hd hds =>
        obtain ⟨rfl, hfills, hpay⟩ := (hhop _ w₁).mp hd
        obtain ⟨hall, hfold⟩ := (hrest hfills.positive hpay).mp
          ⟨amounts, w', hds, List.getLast?_cons_cons.symm.trans hlast⟩
        exact ⟨⟨hfills, hall⟩, hfold⟩
    · rintro ⟨⟨hfills, hall⟩, hfold⟩
      obtain ⟨w₁, hpay⟩ : ∃ w₁, (forwarded w step.tokenIn c.self (adapterFor s step) a).pay T
          step.tokenOut (adapterFor s step) (if steps = [] then trader else c.self)
          (outputFor s a step) = some w₁ := by
        refine World.exists_pay hout.1 (le_of_lt hfills.positive) ?_
        rw [bal_forwarded ht (le_of_lt ha) hle hserve.ne_router]
        exact hfills.stocked
      obtain ⟨amounts, w', hds, hlast⟩ := (hrest hfills.positive hpay).mpr ⟨hall, hfold⟩
      exact ⟨_, w', .cons ((hhop _ w₁).mpr ⟨rfl, hfills, hpay⟩) hds,
        List.getLast?_cons_cons.trans hlast⟩

end Route

/-! ## 4. The swap -/

/-- The adapters registered for the steps of the call are initialized test adapters with valid
rates, and neither the router nor the trader is one of them. -/
structure OnTestAdapters (c : Ctx) (p : SwapParams) (s : State Deployments) : Prop where
  deployed : ∀ step ∈ p.path, ∀ adapter, s.store.adapterOf step.protocol = some adapter →
    ∃ st, s.world.rest adapter = some st ∧ st.Valid
  apart : ∀ step ∈ p.path, ∀ adapter, s.store.adapterOf step.protocol = some adapter →
    adapter ≠ c.self ∧ adapter ≠ p.trader

theorem OnTestAdapters.serves {c : Ctx} {p : SwapParams} {s : State Deployments}
    (hon : OnTestAdapters c p s) {step : SwapStep} (hstep : step ∈ p.path)
    (hreg : (s.store.adapterOf step.protocol).isSome = true) : Serves c p.trader s step := by
  obtain ⟨adapter, hadapter⟩ := Option.isSome_iff_exists.mp hreg
  obtain ⟨st, hst, hvalid⟩ := hon.deployed step hstep adapter hadapter
  have hfor : adapterFor s step = adapter := by rw [adapterFor, hadapter, Option.getD_some]
  have hstore : storeFor s step = st := by rw [storeFor, hfor, hst, Option.getD_some]
  obtain ⟨hrouter, htrader⟩ := hon.apart step hstep adapter hadapter
  exact {
    registered := by rw [hfor, hadapter]
    deployed := by rw [hfor, hstore, hst]
    valid := by rw [hstore]; exact hvalid
    ne_router := by rw [hfor]; exact hrouter
    ne_trader := by rw [hfor]; exact htrader }

section Swap

variable {T : Tokens Deployments} {c k : Ctx} {p : SwapParams} {s : State Deployments}

/-- An admitted call with an execution id to take returns `v` exactly when every leg is filled,
`v` is what they come to, and it meets the minimum. -/
theorem swap_ok_iff_allFill (htok : ∀ t ∈ routeTokens p, T.Exact t) (hon : OnTestAdapters c p s)
    (had : Admitted (TestAdapter.host T k) c p s) (hnonce : s.store.nonce.getD 0 < U64_MAX)
    {v : Int} :
    (∃ s', swap (TestAdapter.host T k) c p s = (.ok v, s')) ↔
      AllFill s.world [] (legs s p.amountIn p.path) ∧
        p.path.foldl (outputFor s) p.amountIn = v ∧ p.amountOutMin ≤ v := by
  have htrader : p.trader ≠ c.self := had.authorized.1
  have hin : T.Exact p.tokenIn := htok _ (List.mem_cons_self ..)
  have hpay : s.world.pay T p.tokenIn p.trader c.self p.amountIn
      = some (forwarded s.world p.tokenIn p.trader c.self p.amountIn) :=
    pay_eq_forwarded hin (le_of_lt had.amountIn_pos) had.funded
  have hstock : Stocked c p.trader s []
      (forwarded s.world p.tokenIn p.trader c.self p.amountIn) := by
    refine ⟨World.rest_pay hpay, fun t y hself hne => ?_⟩
    rw [World.bal_pay hpay, Ledger.point_of_holder_ne hself, Ledger.point_of_holder_ne hne]
    simp [inputsTo, outputsBy]
  have hroute := delivers_iff_allFill (k := k) (v := v) htrader p.path [] _ p.amountIn p.tokenIn
    p.tokenOut had.chained hin
    (fun step hstep => htok _ (List.mem_cons_of_mem _ (List.mem_map_of_mem hstep)))
    (fun step hstep => hon.serves hstep (had.registered step hstep)) hstock had.amountIn_pos
    fun _ => World.le_bal_of_pay hpay htrader.symm
  rw [(swap_returns_iff (h := TestAdapter.host T k) htok had.authorized).2 v]
  constructor
  · rintro ⟨-, -, -, -, -, -, -, -, -, -, -, amounts, w', hds, hlast, hmin⟩
    obtain ⟨hall, hfold⟩ := hroute.mp ⟨amounts, w', hds, hlast⟩
    exact ⟨hall, hfold, hmin⟩
  · rintro ⟨hall, hfold, hmin⟩
    obtain ⟨amounts, w', hds, hlast⟩ := hroute.mpr ⟨hall, hfold⟩
    exact ⟨had.initialized, had.unpaused, had.amountIn_pos, had.amountOutMin_pos, had.timely,
      had.nonempty, had.bounded, had.chained, had.registered, had.funded, hnonce, amounts, w', hds,
      hlast, hmin⟩

/-- **Over test adapters, a swap computes the truncated product of the rates**: what it returns
is the left fold of `a ↦ ⌊a * num / denom⌋` along the steps.  A call that passes the router's
guards, that of the execution id among them, succeeds exactly when every leg is filled and the
last output meets the minimum of the call. -/
theorem swap_computes_rates (htok : ∀ t ∈ routeTokens p, T.Exact t) (hon : OnTestAdapters c p s) :
    (∀ v s', swap (TestAdapter.host T k) c p s = (.ok v, s') →
      v = p.path.foldl (outputFor s) p.amountIn) ∧
    (Admitted (TestAdapter.host T k) c p s → s.store.nonce.getD 0 < U64_MAX →
      ((∃ v s', swap (TestAdapter.host T k) c p s = (.ok v, s')) ↔
        (∀ (i : Nat) (l : Leg), (legs s p.amountIn p.path)[i]? = some l →
          l.Fills s.world ((legs s p.amountIn p.path).take i)) ∧
        p.amountOutMin ≤ p.path.foldl (outputFor s) p.amountIn)) := by
  constructor
  · intro v s' hok
    obtain ⟨had, hnonce, -⟩ := swap_eq_ok_iff.mp hok
    exact ((swap_ok_iff_allFill htok hon had hnonce).mp ⟨s', hok⟩).2.1.symm
  · intro had hnonce
    have hall : AllFill s.world [] (legs s p.amountIn p.path) ↔
        ∀ (i : Nat) (l : Leg), (legs s p.amountIn p.path)[i]? = some l →
          l.Fills s.world ((legs s p.amountIn p.path).take i) := allFill_iff
    rw [← hall]
    constructor
    · rintro ⟨v, s', hok⟩
      obtain ⟨hfill, rfl, hmin⟩ := (swap_ok_iff_allFill htok hon had hnonce).mp ⟨s', hok⟩
      exact ⟨hfill, hmin⟩
    · rintro ⟨hfill, hmin⟩
      exact ⟨_, (swap_ok_iff_allFill htok hon had hnonce).mpr ⟨hfill, rfl, hmin⟩⟩

end Swap

section Witness

open TestAdapter.Fixture

theorem onTestAdapters_twoHops : OnTestAdapters ctx twoHops funded := by
  have hall : ∀ step ∈ twoHops.path, funded.store.adapterOf step.protocol = some adapterId := by
    decide
  have hid : ∀ step ∈ twoHops.path, ∀ adapter,
      funded.store.adapterOf step.protocol = some adapter → adapter = adapterId :=
    fun step hstep adapter h => Option.some.inj (h.symm.trans (hall step hstep))
  refine ⟨fun step hstep adapter h => ?_, fun step hstep adapter h => ?_⟩
  · rw [hid step hstep adapter h]
    refine ⟨_, rfl, ⟨fun pool' num denom hrate => ?_⟩, rfl⟩
    have hrate : Function.update TestAdapter.Store.deployed.rate pool (some (3, 2)) pool'
        = some (num, denom) := hrate
    by_cases hpool : pool' = pool
    · rw [hpool, Function.update_self] at hrate
      cases hrate
      decide
    · rw [Function.update_of_ne hpool] at hrate
      cases hrate
  · rw [hid step hstep adapter h]
    decide

/-- 1000 at the rate 3 to 2, then at 1 to 1. -/
theorem swap_computes_rates_twoHops :
    (1500 : Int) = twoHops.path.foldl (outputFor funded) 1000 ∧
      ∀ (i : Nat) (l : Leg), (legs funded 1000 twoHops.path)[i]? = some l →
        l.Fills funded.world ((legs funded 1000 twoHops.path).take i) := by
  obtain ⟨hval, hiff⟩ := swap_computes_rates (T := Tokens.standard) (c := ctx) (k := ctx)
    (p := twoHops) (s := funded) (fun t _ => Tokens.standard_exact t) onTestAdapters_twoHops
  obtain ⟨had, hnonce, -⟩ := swap_eq_ok_iff.mp swap_twoHops
  exact ⟨hval 1500 swapped swap_twoHops, ((hiff had hnonce).mp ⟨1500, swapped, swap_twoHops⟩).1⟩

end Witness

end Stellariq.Router
