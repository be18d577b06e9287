/-
# Trading at fixed rates

A stretch of a run in which nobody changes the settings of an exchange or the registry.  Within it
every swap that returns is a fixed function of its request (`outputAt`), and so is what it does to
everybody's balances (`tradeFlow`).  So:

* `order_of_trades_irrelevant`: whoever orders the trades gains nothing by it.  Two stretches with
  the same trades in different orders return the same for each and leave the same balances;
* `splitting_never_pays`: orders over one route that are placed one by one return no more in all
  than the route makes of their sum, however much else happens in between.
-/
import Stellariq.Network.Venues
import Stellariq.Router.Authority
import Stellariq.Router.Filters
import Stellariq.RateMath

namespace Stellariq.Router

open Kit
open TestAdapter (Deployments)

/-! ## 1. What a trade moves -/

/-- What the exchange of a step gets and pays. -/
def venueFlow (reg : Symbol → Option Address) (step : SwapStep) (amountIn amountOut : Int)
    (t y : Address) : Int :=
  match reg step.protocol with
  | none => 0
  | some x => Ledger.point step.tokenIn x amountIn t y - Ledger.point step.tokenOut x amountOut t y

/-- What the exchanges of a route get and pay. -/
def routeFlow (reg : Symbol → Option Address) (settings : Address → Option TestAdapter.Store) :
    List SwapStep → Int → Address → Address → Int
  | [], _, _, _ => 0
  | step :: steps, a, t, y =>
    venueFlow reg step a (outputAt reg settings a step) t y +
      routeFlow reg settings steps (outputAt reg settings a step) t y

/-- What the request returns, when it returns. -/
def tradeOutput (reg : Symbol → Option Address) (settings : Address → Option TestAdapter.Store)
    (p : SwapParams) : Int :=
  p.path.foldl (outputAt reg settings) p.amountIn

/-- What the request moves, when it returns. -/
def tradeFlow (reg : Symbol → Option Address) (settings : Address → Option TestAdapter.Store)
    (p : SwapParams) (t y : Address) : Int :=
  Ledger.point p.tokenOut p.trader (tradeOutput reg settings p) t y -
    Ledger.point p.tokenIn p.trader p.amountIn t y + routeFlow reg settings p.path p.amountIn t y

section Flow

variable {T : Tokens Deployments} {c k : Ctx} {reg : Symbol → Option Address}
  {recipient dest : Address} {step : SwapStep} {steps : List SwapStep}
  {w w' : World Deployments} {a v : Int} {x : AdapterCall} {xs : List AdapterCall}

/-- A hop pays the router's input to the exchange, and the output from there to the recipient. -/
theorem HopSettles.flow (hx : HopSettles (TestAdapter.host T k) c reg recipient step w a x w')
    (hrec : recipient = c.self ∨ w.rest recipient = none) (t y : Address) :
    w'.bal t y = w.bal t y - Ledger.point step.tokenIn c.self a t y +
      venueFlow reg step a x.delivered t y +
      Ledger.point step.tokenOut recipient x.delivered t y := by
  obtain ⟨_, _, out, -, -, hforward, hpay, hdelivered⟩ := hx.served
  rw [hdelivered (hx.recipient_ne hrec), venueFlow, hx.registered, World.bal_pay hpay,
    World.bal_pay hforward]
  dsimp only
  omega

/-- **What a settled route moves**: its input from the router, its output to the destination, and
at the exchanges in between what their rates say. -/
theorem Settles.flow (hs : Settles (TestAdapter.host T k) c reg dest steps w a xs w' v)
    {b b' : Address} (hchain : Chained b steps b') (hne : steps ≠ []) (ha : 0 < a)
    (hdest : w.rest dest = none) (hsound : ∀ y st, w.rest y = some st → st.Sound) (t y : Address) :
    w'.bal t y = w.bal t y - Ledger.point b c.self a t y + routeFlow reg w.rest steps a t y +
      Ledger.point b' dest v t y := by
  induction hs generalizing b with
  | nil => exact absurd rfl hne
  | @cons step steps w₀ w₁ w₂ a v x xs hhop hrest ih =>
    obtain ⟨rfl, -, hchain⟩ := hchain
    have hrec : (if steps = [] then dest else c.self) = c.self ∨
        w₀.rest (if steps = [] then dest else c.self) = none := by
      split
      · exact .inr hdest
      · exact .inl rfl
    have hflow := hhop.flow hrec t y
    have hout : x.delivered = outputAt reg w₀.rest a step := hhop.computes ha hrec hsound
    rw [routeFlow, ← hout]
    cases steps with
    | nil =>
      cases hrest
      obtain rfl : step.tokenOut = b' := hchain
      rw [hflow, if_pos rfl, routeFlow]
      omega
    | cons step' steps' =>
      have hlater := ih hchain (by simp) hhop.delivered_pos (hhop.rest ▸ hdest) (hhop.rest ▸ hsound)
      rw [if_neg (by simp)] at hflow
      rw [hlater, hflow, hhop.rest]
      omega

/-- **What a swap that returned moved.** -/
theorem swap_flow {p : SwapParams} {s s' : State Deployments}
    (hok : swap (TestAdapter.host T k) c p s = (.ok v, s')) (htrader : s.world.rest p.trader = none)
    (hsound : ∀ y st, s.world.rest y = some st → st.Sound) :
    v = tradeOutput s.store.adapterOf s.world.rest p ∧ s'.world.rest = s.world.rest ∧
      ∀ t y, s'.world.bal t y = s.world.bal t y +
        tradeFlow s.store.adapterOf s.world.rest p t y := by
  obtain ⟨had, -, -, w₁, hpay, hset⟩ := swap_settles hok
  have hrest : w₁.rest = s.world.rest := World.rest_pay hpay
  have hv : v = tradeOutput s.store.adapterOf s.world.rest p := by
    have h := hset.computes had.amountIn_pos (hrest ▸ htrader) (hrest ▸ hsound)
    rwa [hrest] at h
  refine ⟨hv, hset.rest.trans hrest, fun t y => ?_⟩
  have hflow := hset.flow had.chained (List.ne_nil_of_length_pos had.nonempty) had.amountIn_pos
    (hrest ▸ htrader) (hrest ▸ hsound) t y
  rw [hflow, World.bal_pay hpay, hrest, tradeFlow, ← hv]
  omega

end Flow

/-! ## 2. The trades of a run -/

/-- The swap that returned in the step, and what it returned. -/
def tradesOf {σ : Type} : RouterLabel σ → List (SwapParams × Int)
  | .tx t =>
    match t.call, t.outcome with
    | .swap p, .ok (.amount v) => [(p, v)]
    | _, _ => []
  | .elsewhere => []

theorem tradesOf_eq_nil {σ : Type} {t : Tx (Host σ) Invocation Value DataKey RouterEvent
    AdapterCall RouterError} (ht : (∀ p, t.call ≠ .swap p) ∨ t.outcome.isOk = false) :
    tradesOf (.tx t) = [] := by
  rw [tradesOf]
  split
  · rename_i p v hcall hout
    rcases ht with ht | ht
    · exact absurd hcall (ht p)
    · rw [hout] at ht
      cases ht
  · rfl

/-- **A step of the router over test adapters**: its trade is at the rates, and is all that it
moves. -/
theorem step_trade {self : Address} {b b' : Chain Store Deployments} {t : Tx (Host Deployments)
    Invocation Value DataKey RouterEvent AdapterCall RouterError}
    (hstep : Step self b (.tx t) b') (hhost : ∃ T, t.host = TestAdapter.host T t.ctx)
    (htrader : ∀ d ∈ tradesOf (.tx t), b.world.rest d.1.trader = none)
    (hsound : ∀ y st, b.world.rest y = some st → st.Sound) :
    (∀ d ∈ tradesOf (.tx t), d.2 = tradeOutput b.store.adapterOf b.world.rest d.1) ∧
      ∀ u y, b'.world.bal u y = b.world.bal u y +
        ((tradesOf (.tx t)).map fun d =>
          tradeFlow b.store.adapterOf b.world.rest d.1 u y).sum := by
  obtain ⟨T, hhost⟩ := hhost
  cases hstep with
  | @failed h c i o _ _ _ _ ho =>
    obtain rfl : h = TestAdapter.host T c := hhost
    rw [tradesOf_eq_nil (.inr ho)]
    simp
  | @returned h c i v s _ _ _ hd =>
    obtain rfl : h = TestAdapter.host T c := hhost
    by_cases hi : ∀ p, i ≠ .swap p
    · have hworld : s.world = b.world := ((dispatch_performs hd).quiet hi).1
      rw [tradesOf_eq_nil (.inl hi)]
      simp [hworld]
    · push Not at hi
      obtain ⟨p, rfl⟩ := hi
      obtain ⟨w, hok, rfl⟩ := returning_eq_ok.mp hd
      obtain ⟨hv, -, hflow⟩ := swap_flow hok (htrader (p, w) (by simp [tradesOf])) hsound
      simp only [tradesOf, List.mem_singleton, forall_eq, List.map_cons, List.map_nil,
        List.sum_cons, List.sum_nil, add_zero]
      exact ⟨hv, hflow⟩

end Stellariq.Router

namespace Stellariq.Network

open Kit
open TestAdapter (Deployments)

variable {a : Sites} {n n₀ n₁ n₂ n' : Net Deployments} {l : VenueLabel}
  {ks ls ls₁ ls₂ : List VenueLabel}

/-- The swaps that returned in a run, and what they returned. -/
def trades (ls : List VenueLabel) : List (SwapParams × Int) :=
  ls.flatMap fun l => Router.tradesOf l.toRouter

theorem trades_snoc (ls : List VenueLabel) (l : VenueLabel) :
    trades (ls ++ [l]) = trades ls ++ Router.tradesOf l.toRouter := by
  simp [trades]

/-- The step changes neither the settings of an exchange nor the registry. -/
def VenueLabel.Fixed : VenueLabel → Prop
  | .contract l => ∀ p, ¬ Router.Rewires p l.toRouter
  | .adapter _ _ i o => o.isOk = true → i.isSwap = true
  | .deploy _ => False
  | .outside => True

/-- No exchange trades. -/
def TradersApart (n : Net Deployments) (l : VenueLabel) : Prop :=
  ∀ d ∈ Router.tradesOf l.toRouter, n.world.rest d.1.trader = none

/-- The rates are the same: those of all exchanges, and whose they are. -/
structure SameRates (n n' : Net Deployments) : Prop where
  settings : n'.world.rest = n.world.rest
  adapters : n'.router.adapterOf = n.router.adapterOf

theorem SameRates.refl (n : Net Deployments) : SameRates n n := ⟨rfl, rfl⟩

theorem SameRates.trans (h₁ : SameRates n n₁) (h₂ : SameRates n₁ n₂) : SameRates n n₂ :=
  ⟨h₂.settings.trans h₁.settings, h₂.adapters.trans h₁.adapters⟩

theorem sameRates_step (hstep : VenueStep a n l n') (hl : l.Fixed) : SameRates n n' := by
  constructor
  · funext x
    rw [venueStep_rest hstep x]
    cases l with
    | adapter y c i o =>
      cases o with
      | ok v =>
        cases i with
        | swap => simp [VenueLabel.configure, TestAdapter.Store.apply]
        | _ => cases hl rfl
      | _ => rfl
    | deploy => exact hl.elim
    | _ => rfl
  · funext p
    refine Router.step_adapterOf (venueStep_atRouter hstep) ?_
    cases l with
    | contract l => exact hl p
    | _ => rintro ⟨t, ht, -⟩; cases ht

/-- **The trades of a step**: they are at the rates. -/
theorem trades_step (hn : SoundVenues n) (hstep : VenueStep a n l n') (hl : TradersApart n l) :
    ∀ d ∈ Router.tradesOf l.toRouter,
      d.2 = Router.tradeOutput n.router.adapterOf n.world.rest d.1 := by
  cases hstep with
  | contract h hhere =>
    cases h with
    | router h => exact (Router.step_trade h hhere hl hn).1
    | donations => simp [VenueLabel.toRouter, NetLabel.toRouter, Router.tradesOf]
    | outside => exact hhere.elim
  | adapter => simp [VenueLabel.toRouter, Router.tradesOf]
  | deploy => simp [VenueLabel.toRouter, Router.tradesOf]
  | outside => simp [VenueLabel.toRouter, Router.tradesOf]

/-- A step at fixed rates. -/
def FixedStep (a : Sites) (n : Net Deployments) (l : VenueLabel) (n' : Net Deployments) : Prop :=
  VenueStep a n l n' ∧ l.Fixed ∧ TradersApart n l

/-- **The trades of a stretch at fixed rates.** -/
theorem trades_of_runs (hn : SoundVenues n) (hrun : Runs (FixedStep a) n ls n') :
    SameRates n n' ∧ ∀ d ∈ trades ls,
      d.2 = Router.tradeOutput n.router.adapterOf n.world.rest d.1 := by
  have hall := hrun.invariant_labels
    (I := fun ls m => SoundVenues m ∧ SameRates n m ∧ ∀ d ∈ trades ls,
      d.2 = Router.tradeOutput n.router.adapterOf n.world.rest d.1)
    (fun ls m l m' ⟨hm, hsame, hls⟩ ⟨hstep, hfixed, hapart⟩ => by
      refine ⟨soundVenues_step hm hstep, hsame.trans (sameRates_step hstep hfixed), ?_⟩
      rw [trades_snoc, List.forall_mem_append]
      refine ⟨hls, ?_⟩
      rw [← hsame.settings, ← hsame.adapters]
      exact trades_step hm hstep hapart)
    ⟨hn, SameRates.refl n, by simp [trades]⟩
  exact hall.2

/-! ## 3. The order of trades -/

/-- A call of the router at fixed rates. -/
def Trading (a : Sites) (n : Net Deployments) (l : VenueLabel) (n' : Net Deployments) : Prop :=
  FixedStep a n l n' ∧ ∃ t, l = .contract (.router t)

/-- **What a call of the router moved.** -/
theorem flow_step {tx : RouterTx Deployments} (hn : SoundVenues n)
    (hstep : VenueStep a n (.contract (.router tx)) n')
    (hl : TradersApart n (.contract (.router tx))) (t y : Address) :
    n'.world.bal t y = n.world.bal t y + ((Router.tradesOf (.tx tx)).map fun d =>
      Router.tradeFlow n.router.adapterOf n.world.rest d.1 t y).sum := by
  cases hstep with
  | contract h hhere =>
    cases h with
    | router h => exact (Router.step_trade h hhere hl hn).2 t y

/-- **What a stretch of calls of the router moved** is what its trades moved. -/
theorem flow_of_runs (hn : SoundVenues n) (hrun : Runs (Trading a) n ls n') (t y : Address) :
    n'.world.bal t y = n.world.bal t y + ((trades ls).map fun d =>
      Router.tradeFlow n.router.adapterOf n.world.rest d.1 t y).sum := by
  have hall := hrun.invariant_labels
    (I := fun ls m => SoundVenues m ∧ SameRates n m ∧
      m.world.bal t y = n.world.bal t y + ((trades ls).map fun d =>
        Router.tradeFlow n.router.adapterOf n.world.rest d.1 t y).sum)
    (fun ls m l m' ⟨hm, hsame, hbal⟩ ⟨⟨hstep, hfixed, hapart⟩, htx⟩ => by
      refine ⟨soundVenues_step hm hstep, hsame.trans (sameRates_step hstep hfixed), ?_⟩
      obtain ⟨tx, rfl⟩ := htx
      rw [trades_snoc, List.map_append, List.sum_append, ← add_assoc, ← hbal, ← hsame.settings,
        ← hsame.adapters]
      exact flow_step hm hstep hapart t y)
    ⟨hn, SameRates.refl n, by simp [trades]⟩
  exact hall.2.2

/-- The trades of a stretch are their requests, at the rates. -/
theorem trades_eq_map (hn : SoundVenues n) (hrun : Runs (FixedStep a) n ls n') :
    trades ls = ((trades ls).map Prod.fst).map fun p =>
      (p, Router.tradeOutput n.router.adapterOf n.world.rest p) := by
  rw [List.map_map]
  refine (List.map_id _).symm.trans (List.map_congr_left fun d hd => ?_)
  exact Prod.ext rfl ((trades_of_runs hn hrun).2 d hd)

/-- **The order of trades does not matter.**  In a reachable state of the network, two stretches of
calls of the router at fixed rates in which the same requests returned, in whatever order, returned
the same for each of them and leave everybody with the same balances. -/
theorem order_of_trades_irrelevant (h0 : ∀ x, n₀.world.rest x = none)
    (hpre : Runs (VenueStep a) n₀ ks n) (hrun₁ : Runs (Trading a) n ls₁ n₁)
    (hrun₂ : Runs (Trading a) n ls₂ n₂)
    (hperm : ((trades ls₁).map Prod.fst).Perm ((trades ls₂).map Prod.fst)) :
    (trades ls₁).Perm (trades ls₂) ∧ ∀ t y, n₁.world.bal t y = n₂.world.bal t y := by
  have hn : SoundVenues n := soundVenues_of_runs h0 hpre
  have hall : (trades ls₁).Perm (trades ls₂) := by
    rw [trades_eq_map hn (hrun₁.mono fun _ _ _ h => h.1),
      trades_eq_map hn (hrun₂.mono fun _ _ _ h => h.1)]
    exact hperm.map _
  refine ⟨hall, fun t y => ?_⟩
  rw [flow_of_runs hn hrun₁, flow_of_runs hn hrun₂, (hall.map _).sum_eq]

namespace Market

open TestAdapter.Fixture

/-- Swaps of the trader, one after the other. -/
def orders (ps : List SwapParams) : List VenueCall :=
  ps.map fun p => .contract (.router chain ctx (.swap p))

theorem swap_trading {m : Net Deployments} {p : SwapParams} (hnow : m.now = 1000) (hseq : m.seq = 1)
    (hm : m.world.rest p.trader = none) :
    let r := venue m (.contract (.router chain ctx (.swap p)))
    Trading sites m r.1 r.2 ∧ r.2.now = 1000 ∧ r.2.seq = 1 := by
  intro r
  have hat : (VenueCall.contract (.router chain ctx (.swap p))).At sites m.now m.seq := by
    refine ⟨⟨rfl, hnow.symm, hseq.symm⟩, fun h c i heq => ?_⟩
    cases heq
    exact ⟨Tokens.standard, rfl⟩
  obtain ⟨hstep, hnow', hseq'⟩ := venue_step hat
  obtain ⟨t, ht, hcall, -⟩ :=
    m.exec_router (h := chain) (c := ctx) (i := .swap p)
  have hr : r.1 = .contract (.router t) := congrArg VenueLabel.contract ht
  refine ⟨⟨⟨hstep, ?_, ?_⟩, t, hr⟩, hnow'.trans hnow, hseq'.trans hseq⟩
  · rw [hr]
    rintro protocol ⟨t', ht', -, hrewires⟩
    obtain rfl : t = t' := Label.tx.inj ht'
    rw [hcall] at hrewires
    rcases hrewires with ⟨x, hx⟩ | hx <;> cases hx
  · rw [TradersApart, hr]
    intro d hd
    simp only [VenueLabel.toRouter, NetLabel.toRouter, Router.tradesOf, hcall] at hd
    split at hd
    · rename_i hp _
      cases hp
      rw [List.mem_singleton.mp hd]
      exact hm
    · cases hd

theorem orders_runs : ∀ (ps : List SwapParams) (m : Net Deployments), m.now = 1000 → m.seq = 1 →
    (∀ p ∈ ps, m.world.rest p.trader = none) →
      Runs (Trading sites) m (venueAll m (orders ps)).1 (venueAll m (orders ps)).2
  | [], m, _, _, _ => .refl m
  | p :: ps, m, hnow, hseq, hm => by
    obtain ⟨hp, hps⟩ := List.forall_mem_cons.mp hm
    obtain ⟨hstep, hnow', hseq'⟩ := swap_trading hnow hseq hp
    refine (Runs.single hstep).append (orders_runs ps _ hnow' hseq' fun q hq => ?_)
    rw [(sameRates_step hstep.1.1 hstep.1.2.1).settings]
    exact hps q hq

@[irreducible] def ready : Net Deployments := (venueAll empty setup).2

theorem setup_runs : Runs (VenueStep sites) empty (venueAll empty setup).1 ready := by
  rw [ready]
  exact venueAll_runs setup empty fun call hcall =>
    calls_at call (List.mem_append_left _ hcall)

/-- 333 A to 499 B, or a multiple of it. -/
def odd (k : Int) : SwapParams :=
  { twoHops with
    amountIn := 333 * k
    amountOutMin := 1
    path := [stepOnPool pool tokenA tokenB 0, stepOnPool pool2 tokenB tokenC 0] }

theorem odd_runs (ks : List Int) : Runs (Trading sites) ready
    (venueAll ready (orders (ks.map odd))).1 (venueAll ready (orders (ks.map odd))).2 := by
  refine orders_runs _ _ (by decide +kernel) (by decide +kernel) fun p hp => ?_
  obtain ⟨k, -, rfl⟩ := List.mem_map.mp hp
  have htrader : (ready.world.rest trader).isNone = true := by decide +kernel
  exact Option.isNone_iff_eq_none.mp htrader

/-- The trades of a stretch of such orders. -/
def traded (ks : List Int) : List (SwapParams × Int) :=
  trades (venueAll ready (orders (ks.map odd))).1

end Market

/-- 333 before 666, and 666 before 333. -/
theorem order_of_trades_irrelevant_market :
    (venueAll Market.ready (Market.orders ([1, 2].map Market.odd))).2.world.bal
        TestAdapter.Fixture.tokenC TestAdapter.Fixture.trader
      = (venueAll Market.ready (Market.orders ([2, 1].map Market.odd))).2.world.bal
        TestAdapter.Fixture.tokenC TestAdapter.Fixture.trader :=
  (order_of_trades_irrelevant (fun _ => rfl) Market.setup_runs (Market.odd_runs [1, 2])
    (Market.odd_runs [2, 1]) (by decide +kernel)).2 _ _

/-! ## 4. One order or many -/

/-- The rate of an adapter. -/
theorem exists_rate {st : TestAdapter.Store} (hst : st.Rated) (pool : Address) :
    ∃ r : Rate, ∀ x, st.output pool x = r.apply x := by
  obtain ⟨hnum, hdenom⟩ := hst.rateOf pool
  exact ⟨⟨_, _, hnum, hdenom⟩, fun _ => rfl⟩

/-- **A route over sound adapters is a chain of rates.** -/
theorem exists_rates (hn : SoundVenues n) (reg : Symbol → Option Address)
    (path : List SwapStep) :
    ∃ rates : List Rate, ∀ x, path.foldl (Router.outputAt reg n.world.rest) x
      = Rate.chain rates x := by
  induction path with
  | nil => exact ⟨[], fun _ => rfl⟩
  | cons step path ih =>
    obtain ⟨rates, hrates⟩ := ih
    have hst : (((reg step.protocol).bind n.world.rest).getD TestAdapter.Store.deployed).Sound := by
      cases hbind : (reg step.protocol).bind n.world.rest with
      | none => exact TestAdapter.Store.sound_deployed
      | some st =>
        obtain ⟨y, -, hy⟩ := Option.bind_eq_some_iff.mp hbind
        exact hn y st hy
    obtain ⟨r, hr⟩ := exists_rate hst.toRated step.pool
    refine ⟨r :: rates, fun x => ?_⟩
    rw [List.foldl_cons, hrates, Router.outputAt, hr, Rate.chain_cons]

/-- Routes that differ in their minimums only compute the same. -/
theorem foldl_sameSteps {path path' : List SwapStep} (hsame : Router.SameSteps path path')
    (reg : Symbol → Option Address) (st : Address → Option TestAdapter.Store) (x : Int) :
    path'.foldl (Router.outputAt reg st) x = path.foldl (Router.outputAt reg st) x := by
  induction hsame generalizing x with
  | nil => rfl
  | cons hstep _ ih =>
    rw [List.foldl_cons, List.foldl_cons, ih, hstep]
    rfl

/-- **Splitting an order never pays.**  In a reachable state of the network, take any of the trades
over one route that return in a stretch at fixed rates, whatever else happens in it.  In all they
return no more than the route makes of the sum of their inputs; and so no more than one order of
that sum returns, wherever in a stretch at these rates it does. -/
theorem splitting_never_pays (h0 : ∀ x, n₀.world.rest x = none)
    (hpre : Runs (VenueStep a) n₀ ks n) (hrun₁ : Runs (FixedStep a) n ls₁ n₁)
    (hrun₂ : Runs (FixedStep a) n ls₂ n₂) (ds : List (SwapParams × Int)) (path : List SwapStep)
    (hds : ∀ d ∈ ds, d ∈ trades ls₁ ∧ Router.SameSteps path d.1.path) :
    (ds.map Prod.snd).sum ≤ path.foldl (Router.outputAt n.router.adapterOf n.world.rest)
      (ds.map fun d => d.1.amountIn).sum ∧
    ∀ p v, (p, v) ∈ trades ls₂ → Router.SameSteps path p.path →
      p.amountIn = (ds.map fun d => d.1.amountIn).sum → (ds.map Prod.snd).sum ≤ v := by
  have hn : SoundVenues n := soundVenues_of_runs h0 hpre
  obtain ⟨rates, hrates⟩ := exists_rates hn n.router.adapterOf path
  have hreturns {ls : List VenueLabel} {m : Net Deployments} (hrun : Runs (FixedStep a) n ls m)
      {d : SwapParams × Int} (hd : d ∈ trades ls) (hpath : Router.SameSteps path d.1.path) :
      d.2 = Rate.chain rates d.1.amountIn := by
    rw [(trades_of_runs hn hrun).2 d hd, Router.tradeOutput, foldl_sameSteps hpath, hrates]
  have hsum : (ds.map Prod.snd).sum ≤ Rate.chain rates (ds.map fun d => d.1.amountIn).sum := by
    calc (ds.map Prod.snd).sum
        = ((ds.map fun d => d.1.amountIn).map (Rate.chain rates)).sum := by
          rw [List.map_map]
          exact congrArg List.sum
            (List.map_congr_left fun d hd => hreturns hrun₁ (hds d hd).1 (hds d hd).2)
      _ ≤ Rate.chain rates (ds.map fun d => d.1.amountIn).sum := Rate.sum_chain_le rates _
  refine ⟨(hrates _).symm ▸ hsum, fun p v hp hpath hin => ?_⟩
  have hv : v = Rate.chain rates p.amountIn := hreturns hrun₂ hp hpath
  rw [hv, hin]
  exact hsum

/-- 499 and 499 for 333 each, and 999 for 666. -/
theorem splitting_never_pays_market :
    Market.traded [1, 1] = [(Market.odd 1, 499), (Market.odd 1, 499)] ∧
      Market.traded [2] = [(Market.odd 2, 999)] ∧
      ((Market.traded [1, 1]).map Prod.snd).sum ≤ ((Market.traded [2]).map Prod.snd).sum := by
  have htwo : Market.traded [1, 1] = [(Market.odd 1, 499), (Market.odd 1, 499)] := by
    decide +kernel
  have hone : Market.traded [2] = [(Market.odd 2, 999)] := by decide +kernel
  have hroute (d : SwapParams × Int) (hd : d ∈ Market.traded [1, 1]) :
      Router.SameSteps (Market.odd 1).path d.1.path := by
    simp only [htwo, List.mem_cons, List.not_mem_nil, or_false, or_self] at hd
    rw [hd]
    exact .cons rfl (.cons rfl .nil)
  have hin : (Market.odd 2).amountIn
      = ((Market.traded [1, 1]).map fun d => d.1.amountIn).sum := by
    rw [htwo]
    rfl
  obtain ⟨-, hsplit⟩ := splitting_never_pays (fun _ => rfl) Market.setup_runs
    ((Market.odd_runs [1, 1]).mono fun _ _ _ h => h.1)
    ((Market.odd_runs [2]).mono fun _ _ _ h => h.1)
    (Market.traded [1, 1]) (Market.odd 1).path (fun d hd => ⟨hd, hroute d hd⟩)
  refine ⟨htwo, hone, ?_⟩
  have hle := hsplit (Market.odd 2) 999
    (show _ ∈ Market.traded [2] by rw [hone]; exact List.mem_singleton_self _)
    (.cons rfl (.cons rfl .nil)) hin
  simpa [hone] using hle

end Stellariq.Network
