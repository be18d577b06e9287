/-
# Quoting a swap, and sending it

Before the trader signs, the swap is simulated; the minimum of the request that is sent is then what
`min_out_with_slippage` leaves of the amount that the simulation returned.  In between the chain
goes on.  `quote_then_send` says what the quote is worth by then:

* an order that goes through never returns less than the tolerance allows;
* as long as the world is as it was, and nobody has touched the protocols of the route, it goes
  through exactly when it is unpaused, signed and in time, and then at the quoted amount;
* where the same request would now settle at another amount, that amount decides.

What a simulation depends on is the route, the adapters of its protocols and the world (`Quotes`):
not the clock, the caller, the execution id, the minimum or the deadline.
-/
import Stellariq.Router.Filters
import Stellariq.Router.Authority
import Stellariq.RateMath

namespace Stellariq.Router

open Kit

variable {σ : Type} {h : Host σ} {c c' : Ctx} {self : Address} {q : SwapParams}
  {reg reg' : Symbol → Option Address}

/-! ## 1. What a quote depends on -/

/-- From the world `w`, over the adapters `reg`, the request settles at `v` and leaves `w'`. -/
structure Quotes (h : Host σ) (c : Ctx) (reg : Symbol → Option Address) (w : World σ)
    (q : SwapParams) (v : Int) (w' : World σ) : Prop where
  amountIn_pos : 0 < q.amountIn
  nonempty : 1 ≤ q.path.length
  bounded : q.path.length ≤ MAX_HOPS
  chained : Chained q.tokenIn q.path q.tokenOut
  isToken : h.isToken w q.tokenIn = true
  funded : q.amountIn ≤ w.bal q.tokenIn q.trader
  settles : ∃ w₁ xs, w.pay h.toTokens q.tokenIn q.trader c.self q.amountIn = some w₁ ∧
    Settles h c reg q.trader q.path w₁ q.amountIn xs w' v

/-- An order of `trader` with this deadline may be placed now. -/
structure Sendable (c : Ctx) (st : Store) (trader : Address) (deadline : Nat) : Prop where
  unpaused : st.paused.getD false = false
  authorized : c.Authorizes trader
  timely : c.timestamp ≤ deadline
  countable : st.nonce.getD 0 < U64_MAX

/-- The steps of a settled route are registered. -/
theorem Settles.isSome_of_mem {dest : Address} {steps : List SwapStep} {w w' : World σ} {a v : Int}
    {xs : List AdapterCall} (hs : Settles h c reg dest steps w a xs w' v) {step : SwapStep}
    (hstep : step ∈ steps) : (reg step.protocol).isSome = true := by
  induction hs with
  | nil => cases hstep
  | cons hhop _ ih =>
    rcases List.mem_cons.mp hstep with rfl | hstep
    · rw [hhop.registered]
      rfl
    · exact ih hstep

/-- **A swap is a quote that may be sent and meets its minimum.** -/
theorem swap_returns_iff_quotes {s : State σ} {v : Int} {w' : World σ} :
    (∃ s', swap h c q s = (.ok v, s') ∧ s'.world = w') ↔
      s.store.admin.isSome = true ∧ Sendable c s.store q.trader q.deadline ∧
        (0 < q.amountOutMin ∧ q.amountOutMin ≤ v) ∧
        Quotes h c s.store.adapterOf s.world q v w' := by
  simp only [swap_eq_ok_iff]
  constructor
  · rintro ⟨s', ⟨had, hn, w₁, xs, w'', hpay, hset, hmin, rfl⟩, rfl⟩
    exact ⟨had.initialized, ⟨had.unpaused, had.authorized, had.timely, hn⟩,
      ⟨had.amountOutMin_pos, hmin⟩, had.amountIn_pos, had.nonempty, had.bounded, had.chained,
      had.isToken, had.funded, w₁, xs, hpay, hset⟩
  · rintro ⟨hinit, hsend, ⟨hpos, hmin⟩, hq⟩
    obtain ⟨w₁, xs, hpay, hset⟩ := hq.settles
    refine ⟨_, ⟨⟨hinit, hsend.unpaused, hsend.authorized, hq.amountIn_pos, hpos, hsend.timely,
      hq.nonempty, hq.bounded, hq.chained, fun step hstep => hset.isSome_of_mem hstep, hq.isToken,
      hq.funded⟩, hsend.countable, w₁, xs, w', hpay, hset, hmin, rfl⟩, rfl⟩

/-- **A quote that falls short** of the minimum of the order makes the order fail so. -/
theorem swap_of_quotes_short {s : State σ} {v : Int} {w' : World σ}
    (hinit : s.store.admin.isSome = true) (hsend : Sendable c s.store q.trader q.deadline)
    (hq : Quotes h c s.store.adapterOf s.world q v w') (hpos : 0 < q.amountOutMin)
    (hshort : v < q.amountOutMin) : (swap h c q s).1 = .err .insufficientOutput := by
  obtain ⟨w₁, xs, hpay, hset⟩ := hq.settles
  have had : Admitted h c q s := ⟨hinit, hsend.unpaused, hsend.authorized, hq.amountIn_pos, hpos,
    hsend.timely, hq.nonempty, hq.bounded, hq.chained, fun step hstep => hset.isSome_of_mem hstep,
    hq.isToken, hq.funded⟩
  have hlen : 0 + q.path.length = q.path.length - 1 + 1 := by
    have := hq.nonempty
    omega
  obtain ⟨s', hfail⟩ : ∃ s', swap h c q s = (.err .insufficientOutput, s') := by
    rw [swap_eq_settleHops had hsend.countable hpay]
    exact ⟨_, (Exec.bind_of_ok ((forList_hop q.path 0 _ _ _ _ hlen).mpr
      ⟨xs, w', v, hset, rfl, rfl⟩)).trans (Exec.bind_of_err (Exec.failIf_of hshort _ _))⟩
  rw [hfail]

/-! ## 2. The same quote later -/

/-- A hop settles the same way in any other call, as long as its adapter is the same. -/
theorem HopSettles.elsewhen {recipient : Address} {step : SwapStep} {w w' : World σ} {a : Int}
    {x : AdapterCall} (hx : HopSettles h c reg recipient step w a x w') (hself : c'.self = c.self)
    (hreg : reg' step.protocol = reg step.protocol) :
    HopSettles h c' reg' recipient step w a x w' := by
  obtain ⟨w₁, r, hpay, hbefore, htok, hcall, hrest⟩ := hx.called
  refine ⟨hreg.trans hx.registered, hx.args, ⟨w₁, r, ?_, hbefore, htok, ?_, hrest⟩, hx.after,
    hx.isToken, hx.fits, hx.min_le⟩
  · rw [hself]
    exact hpay
  · rw [callAdapter, hself]
    exact hcall

theorem Settles.elsewhen {dest : Address} {steps : List SwapStep} {w w' : World σ} {a v : Int}
    {xs : List AdapterCall} (hs : Settles h c reg dest steps w a xs w' v)
    (hself : c'.self = c.self)
    (hreg : ∀ step ∈ steps, reg' step.protocol = reg step.protocol) :
    Settles h c' reg' dest steps w a xs w' v := by
  induction hs with
  | nil => exact .nil _ _
  | cons hhop _ ih =>
    obtain ⟨hstep, hreg⟩ := List.forall_mem_cons.mp hreg
    refine .cons ?_ (ih hreg)
    rw [hself]
    exact hhop.elsewhen hself hstep

/-- **A quote holds** as long as the world and the adapters of the route are the same. -/
theorem Quotes.elsewhen {w w' : World σ} {v : Int} (hq : Quotes h c reg w q v w')
    (hself : c'.self = c.self) (hreg : ∀ step ∈ q.path, reg' step.protocol = reg step.protocol) :
    Quotes h c' reg' w q v w' := by
  obtain ⟨w₁, xs, hpay, hset⟩ := hq.settles
  refine ⟨hq.amountIn_pos, hq.nonempty, hq.bounded, hq.chained, hq.isToken, hq.funded, w₁, xs, ?_,
    hset.elsewhen hself hreg⟩
  rw [hself]
  exact hpay

/-- The request as it is sent. -/
def order (q : SwapParams) (amountOutMin : Int) (deadline : Nat) : SwapParams :=
  { q with amountOutMin, deadline }

/-- A quote does not depend on the minimum and the deadline. -/
theorem Quotes.order {w w' : World σ} {v m : Int} {deadline : Nat}
    (hq : Quotes h c reg w q v w') : Quotes h c reg w (order q m deadline) v w' :=
  ⟨hq.amountIn_pos, hq.nonempty, hq.bounded, hq.chained, hq.isToken, hq.funded, hq.settles⟩

/-- The adapters of the route are the same after a run that has left its protocols alone. -/
theorem adapterOf_of_runs {b b' : Chain Store σ} {ls : List (RouterLabel σ)}
    (hrun : Runs (fun b l b' => Step self b l b' ∧ ∀ step ∈ q.path, ¬ Rewires step.protocol l)
      b ls b') {step : SwapStep} (hmem : step ∈ q.path) :
    b'.store.adapterOf step.protocol = b.store.adapterOf step.protocol :=
  hrun.invariant
    (I := fun d : Chain Store σ =>
      d.store.adapterOf step.protocol = b.store.adapterOf step.protocol)
    (fun _ _ _ hd hl => (step_adapterOf hl.1 (hl.2 step hmem)).trans hd) rfl

/-! ## 3. The order -/

section Order

variable {s : State σ} {u v bps m : Int} {deadline : Nat} {w' : World σ}

/-- What the order may return, when the quote was `v`. -/
def Within (v bps u : Int) : Prop := v * (BPS_DENOM - bps) < (u + 1) * BPS_DENOM

theorem within_iff (hbound : minOutWithSlippage v bps = .ok (some m)) : Within v bps u ↔ m ≤ u := by
  obtain ⟨-, -, hmax, -, rfl⟩ := minOutWithSlippage_eq_some.mp hbound
  exact (Rate.apply_le_iff (r := slippageRate bps hmax)).symm

theorem within_self (hbound : minOutWithSlippage v bps = .ok (some m)) : Within v bps v := by
  obtain ⟨hbps, hv, hmax, -, rfl⟩ := minOutWithSlippage_eq_some.mp hbound
  exact (within_iff hbound).mpr (Rate.apply_le_self (sub_le_self _ hbps) hv)

/-- **An order at the current quote**: it settles at the quote, or gives up where the quote is not
within the tolerance. -/
theorem order_of_quotes (hinit : s.store.admin.isSome = true)
    (hq : Quotes h c s.store.adapterOf s.world q u w')
    (hbound : minOutWithSlippage v bps = .ok (some m)) (hpos : 0 < m)
    (hsend : Sendable c s.store q.trader deadline) :
    (Within v bps u →
      ∃ s', swap h c (order q m deadline) s = (.ok u, s') ∧ s'.world = w') ∧
    (¬ Within v bps u → (swap h c (order q m deadline) s).1 = .err .insufficientOutput) := by
  rw [within_iff hbound, not_le]
  constructor
  · exact fun hle => swap_returns_iff_quotes.mpr ⟨hinit, hsend, ⟨hpos, hle⟩, hq.order⟩
  · exact fun hlt => swap_of_quotes_short hinit hsend hq.order hpos hlt

end Order

/-- **A quote is good for its tolerance.**  After a simulated swap that returned `v`, and any run
that has left the protocols of its route alone, an order with the minimum that the tolerance leaves
of `v` returns only what is within the tolerance.  If the world is the same as well, it returns
exactly when it has a minimum and may be sent, and then what was quoted.  Where the same request
would now return `u`, an order that may be sent returns `u` if that is within the tolerance, and
otherwise fails with `InsufficientOutput`. -/
theorem quote_then_send {b b' : Chain Store σ} {ls : List (RouterLabel σ)} {c₀ : Ctx} {v : Int}
    {s₀ : State σ} {bps m : Int} (deadline : Nat) (hself : c₀.self = self) (hcall : c.self = self)
    (hquote : swap h c₀ q b.start = (.ok v, s₀))
    (hbound : minOutWithSlippage v bps = .ok (some m))
    (hrun : Runs (fun b l b' => Step self b l b' ∧ ∀ step ∈ q.path, ¬ Rewires step.protocol l)
      b ls b') :
    (∀ (h' : Host σ) u s, swap h' c (order q m deadline) b'.start = (.ok u, s) →
      Within v bps u) ∧
    (b'.world = b.world →
      ((∃ u s, swap h c (order q m deadline) b'.start = (.ok u, s)) ↔
        0 < m ∧ Sendable c b'.store q.trader deadline) ∧
      ∀ u s, swap h c (order q m deadline) b'.start = (.ok u, s) → u = v ∧ s.world = s₀.world) ∧
    ∀ (c₁ : Ctx) u s₁, c₁.self = self → swap h c₁ q b'.start = (.ok u, s₁) → 0 < m →
      Sendable c b'.store q.trader deadline →
      (Within v bps u →
        ∃ s, swap h c (order q m deadline) b'.start = (.ok u, s) ∧ s.world = s₁.world) ∧
      (¬ Within v bps u →
        (swap h c (order q m deadline) b'.start).1 = .err .insufficientOutput) := by
  obtain ⟨hinit, -, -, hq⟩ := swap_returns_iff_quotes.mp ⟨s₀, hquote, rfl⟩
  have hinit' : b'.store.admin.isSome = true :=
    initialized_of_runs (hrun.mono fun _ _ _ hl => hl.1) hinit
  refine ⟨fun h' u s hok => ?_, fun hworld => ?_, fun c₁ u s₁ hself₁ hnow hpos hsend => ?_⟩
  · obtain ⟨-, -, ⟨-, hmin⟩, -⟩ := swap_returns_iff_quotes.mp ⟨s, hok, rfl⟩
    exact (within_iff hbound).mpr hmin
  · -- the quote is still good, so what may be sent settles at it
    have hq' : Quotes h c b'.store.adapterOf b'.world q v s₀.world := by
      rw [hworld]
      exact hq.elsewhen (hcall.trans hself.symm) fun _ => adapterOf_of_runs hrun
    have hsettles (hpos : 0 < m) (hsend : Sendable c b'.store q.trader deadline) :
        ∃ s, swap h c (order q m deadline) b'.start = (.ok v, s) ∧ s.world = s₀.world :=
      (order_of_quotes hinit' hq' hbound hpos hsend).1 (within_self hbound)
    constructor
    · constructor
      · rintro ⟨u, s, hok⟩
        obtain ⟨-, hsend, ⟨hpos, -⟩, -⟩ := swap_returns_iff_quotes.mp ⟨s, hok, rfl⟩
        exact ⟨hpos, hsend⟩
      · rintro ⟨hpos, hsend⟩
        obtain ⟨s, hok, -⟩ := hsettles hpos hsend
        exact ⟨v, s, hok⟩
    · intro u s hok
      obtain ⟨-, hsend, ⟨hpos, -⟩, -⟩ := swap_returns_iff_quotes.mp ⟨s, hok, rfl⟩
      obtain ⟨s', hok', hworld'⟩ := hsettles hpos hsend
      rw [hok] at hok'
      cases hok'
      exact ⟨rfl, hworld'⟩
  · obtain ⟨-, -, -, hnow⟩ := swap_returns_iff_quotes.mp ⟨s₁, hnow, rfl⟩
    exact order_of_quotes hinit' (hnow.elsewhen (hcall.trans hself₁.symm) fun _ _ => rfl) hbound
      hpos hsend

namespace Simulation

open TestAdapter.Fixture

def quoted : Chain Store TestAdapter.Deployments :=
  { store := funded.store, world := funded.world, now := 1000, seq := 1 }

theorem quote : swap chain ctx twoHops quoted.start = (.ok 1500, swapped) := swap_twoHops

theorem bound : minOutWithSlippage 1500 100 = .ok (some 1485) := by decide

/-- Another protocol is registered in the meantime. -/
def later : RouterLabel TestAdapter.Deployments × Chain Store TestAdapter.Deployments :=
  quoted.exec dispatch chain ctx (.setProtocol ⟨"other"⟩ pool)

theorem later_step : Step routerId quoted later.1 later.2 ∧
    ∀ step ∈ twoHops.path, ¬ Rewires step.protocol later.1 := by
  refine ⟨Chain.exec_step rfl (le_refl _) (le_refl _), fun step hstep => ?_⟩
  obtain ⟨t, ht, -, -, hcall, -⟩ : ∃ t, later.1 = .tx t ∧ _ := Chain.exec_tx
  rw [ht]
  rintro ⟨t', ht', -, hp⟩
  obtain rfl : t = t' := Label.tx.inj ht'
  have hprotocol : ∀ step ∈ twoHops.path, step.protocol = ⟨"test"⟩ := by decide
  rw [hcall, hprotocol step hstep] at hp
  rcases hp with ⟨x, hp⟩ | hp
  · injection hp with hp
    exact absurd hp (by decide)
  · cases hp

theorem later_world : later.2.world = quoted.world := by
  obtain ⟨s, hok⟩ : ∃ s, dispatch chain ctx (.setProtocol ⟨"other"⟩ pool) quoted.start
      = (.ok .unit, s) := ⟨_, Exec.eq_ok_of_fst (by decide +kernel)⟩
  rw [later, Chain.exec_of_ok hok]
  cases dispatch_performs hok with
  | setProtocol => rfl
  | view hview => cases hview

end Simulation

/-- With one percent of tolerance, the minimum is 1485 and the order returns 1500. -/
theorem quote_then_send_later : ∃ s, swap TestAdapter.Fixture.chain TestAdapter.Fixture.ctx
    (order TestAdapter.Fixture.twoHops 1485 5000) Simulation.later.2.start = (.ok 1500, s) := by
  obtain ⟨-, hsame, -⟩ := quote_then_send (c := TestAdapter.Fixture.ctx) 5000 rfl rfl
    Simulation.quote Simulation.bound (Runs.single Simulation.later_step)
  obtain ⟨hreturns, hamount⟩ := hsame Simulation.later_world
  obtain ⟨u, s, hok⟩ := hreturns.mpr
    ⟨by decide, by decide +kernel, by decide, by decide, by decide +kernel⟩
  obtain ⟨rfl, -⟩ := hamount u s hok
  exact ⟨s, hok⟩

end Stellariq.Router
