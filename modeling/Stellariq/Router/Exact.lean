/-
# Exactly when a swap succeeds

With tokens that trap only for want of a balance, an authorized `swap` is never trapped, and it
succeeds exactly on the admitted calls whose route delivers: there are amounts, one for each
token of the route, such that at every hop the adapter accepts the amount it is sent, reports no
more than it delivers, and delivers the next amount, which meets the minimum of the hop
(`Delivers`).

What makes both halves work is that the router can always forward the next hop: the amount it
forwards was measured as the INCREASE of its own balance, which was not negative before.  This is
why `Delivers` does not ask for the router's transfers to go through.
-/
import Stellariq.Router.Settlement

namespace Stellariq.Router

open Kit

variable {σ : Type} {h : Host σ} {c : Ctx}

/-! ## 1. Routes that deliver -/

/-- The world after a transfer, which changes nothing when the balance does not cover it. -/
def forwarded (w : World σ) (t src dst : Address) (a : Int) : World σ :=
  { w with ledger := (w.ledger.transfer t src dst a).getD w.ledger }

/-- From `w`, the hop `step` turns the amount `a` at the router into the amount `b` at
`recipient`, and leaves the world `w'`. -/
def HopDelivers (h : Host σ) (c : Ctx) (reg : Symbol → Option Address) (recipient : Address)
    (step : SwapStep) (w : World σ) (a b : Int) (w' : World σ) : Prop :=
  ∃ adapter r,
    reg step.protocol = some adapter ∧
    callAdapter h c adapter
        ⟨step.pool, step.tokenIn, step.tokenOut, a, step.amountOutMin, recipient⟩
        (forwarded w step.tokenIn c.self adapter a) = .ok (r, w') ∧
    w'.bal step.tokenOut recipient =
      (forwarded w step.tokenIn c.self adapter a).bal step.tokenOut recipient + b ∧
    0 < r ∧ r ≤ b ∧ step.amountOutMin ≤ b ∧ b ≤ I128_MAX

/-- The steps turn the first of the amounts into the second, the second into the third and so
on, and leave the world `w'`. -/
inductive Delivers (h : Host σ) (c : Ctx) (reg : Symbol → Option Address) (dest : Address) :
    List SwapStep → World σ → List Int → World σ → Prop
  | nil (w : World σ) (a : Int) : Delivers h c reg dest [] w [a] w
  | cons {step : SwapStep} {steps : List SwapStep} {w w' w'' : World σ} {a b : Int}
      {amounts : List Int} :
      HopDelivers h c reg (if steps = [] then dest else c.self) step w a b w' →
      Delivers h c reg dest steps w' (b :: amounts) w'' →
      Delivers h c reg dest (step :: steps) w (a :: b :: amounts) w''

theorem pay_eq_forwarded {T : Tokens σ} {t src dst : Address} {a : Int} {w : World σ}
    (hT : T.Exact t) (ha : 0 ≤ a) (hle : a ≤ w.bal t src) :
    w.pay T t src dst a = some (forwarded w t src dst a) := by
  obtain ⟨w', hw'⟩ : ∃ w', w.pay T t src dst a = some w' := World.exists_pay hT ha hle
  obtain ⟨-, L, hL, rfl⟩ := World.pay_eq_some.mp hw'
  rw [hw', forwarded, hL, Option.getD_some]

/-! ## 2. The router covers every forward -/

/-- A hop that pays the router leaves it with what it delivered, at the least. -/
theorem HopSettles.covered {reg : Symbol → Option Address} {step : SwapStep} {w w' : World σ}
    {a : Int} {x : AdapterCall} (hx : HopSettles h c reg c.self step w a x w') :
    x.delivered ≤ w'.bal step.tokenOut c.self := by
  obtain ⟨w₁, _, _, hbefore, _⟩ := hx.called
  have h1 := hx.delivered_eq hbefore
  have h2 := World.bal_nonneg w₁ step.tokenOut c.self
  omega

/-- While steps remain in the hop loop, the router covers the input of the next. -/
structure Backed (c : Ctx) (last i : Nat) (steps : List SwapStep) (q : Progress) (s : State σ) :
    Prop where
  index : i + steps.length = last + 1
  covered : ∃ b b', Chained b steps b' ∧ (steps ≠ [] → q.hopAmountIn ≤ s.world.bal b c.self)

theorem Backed.hop {trader : Address} {last executionId i : Nat} {step : SwapStep}
    {steps : List SwapStep} {q q' : Progress} {s s' : State σ}
    (hI : Backed c last i (step :: steps) q s)
    (hok : hop h c trader last executionId i (some step) q s = (.ok q', s')) :
    Backed c last (i + 1) steps q' s' := by
  obtain ⟨x, w', hhop, rfl, rfl⟩ := hop_eq_ok.mp hok
  obtain ⟨b, b', ⟨rfl, -, hchain⟩, -⟩ := hI.covered
  have hi : i + (steps.length + 1) = last + 1 := hI.index
  refine ⟨by omega, _, b', hchain, fun hne => ?_⟩
  have hlast : i ≠ last := by
    have := List.length_pos_iff.mpr hne
    omega
  rw [if_neg hlast] at hhop
  exact hhop.covered

/-- **A settled hop delivers**, and the other way round where the router covers the input. -/
theorem hopSettles_iff_hopDelivers {reg : Symbol → Option Address} {recipient : Address}
    {step : SwapStep} {w w' : World σ} {a b : Int} (hin : h.Exact step.tokenIn)
    (hout : h.Exact step.tokenOut) (ha : 0 ≤ a) (hle : a ≤ w.bal step.tokenIn c.self) :
    (∃ x, HopSettles h c reg recipient step w a x w' ∧ x.delivered = b) ↔
      HopDelivers h c reg recipient step w a b w' := by
  have hpay (adapter : Address) : w.pay h.toTokens step.tokenIn c.self adapter a
      = some (forwarded w step.tokenIn c.self adapter a) := pay_eq_forwarded hin ha hle
  constructor
  · rintro ⟨x, hx, rfl⟩
    obtain ⟨w₁, r, hw₁, hbefore, -, hcall, -, hr, hrd⟩ := hx.called
    obtain rfl : forwarded w step.tokenIn c.self x.adapter a = w₁ :=
      Option.some.inj ((hpay x.adapter).symm.trans hw₁)
    rw [hx.args] at hcall
    refine ⟨x.adapter, r, hx.registered, hcall, ?_, hr, hrd, hx.min_le, hx.fits⟩
    have hd := hx.delivered_eq hbefore
    omega
  · rintro ⟨adapter, r, hreg, hcall, hbal, hr, hrb, hmin, hfits⟩
    have hd : w'.bal step.tokenOut recipient
        - (forwarded w step.tokenIn c.self adapter a).bal step.tokenOut recipient = b := by
      omega
    refine ⟨⟨adapter, ⟨step.pool, step.tokenIn, step.tokenOut, a, step.amountOutMin, recipient⟩,
      (forwarded w step.tokenIn c.self adapter a).ledger, .ok r, w'.ledger⟩, ?_, hd⟩
    exact {
      registered := hreg
      args := rfl
      called := ⟨_, r, hpay adapter, rfl, hout.isToken _, hcall, rfl, hr,
        le_of_le_of_eq hrb hd.symm⟩
      after := rfl
      isToken := hout.isToken _
      fits := le_of_eq_of_le hd hfits
      min_le := le_of_le_of_eq hmin hd.symm }

/-- **A settled route delivers**, and the other way round where the router covers the input of
the first hop: it then covers every one. -/
theorem settles_iff_delivers {reg : Symbol → Option Address} {dest : Address} :
    ∀ (steps : List SwapStep) (b b' : Address) (w w' : World σ) (a v : Int),
      Chained b steps b' → h.Exact b → (∀ step ∈ steps, h.Exact step.tokenOut) →
      0 ≤ a → a ≤ w.bal b c.self →
      ((∃ xs, Settles h c reg dest steps w a xs w' v) ↔
        ∃ amounts, Delivers h c reg dest steps w (a :: amounts) w' ∧
          (a :: amounts).getLast? = some v)
  | [], b, b', w, w', a, v, _, _, _, _, _ => by
    constructor
    · rintro ⟨xs, hs⟩
      cases hs
      exact ⟨[], .nil w _, rfl⟩
    · rintro ⟨amounts, hd, hlast⟩
      cases hd
      obtain rfl : a = v := by simpa using hlast
      exact ⟨[], .nil w _⟩
  | step :: steps, b, b', w, w', a, v, hchain, hb, hsteps, ha, hle => by
    obtain ⟨rfl, -, hchain⟩ := hchain
    rw [List.forall_mem_cons] at hsteps
    obtain ⟨hout, hsteps⟩ := hsteps
    constructor
    · rintro ⟨_, hs⟩
      cases hs with
      | @cons _ _ _ w₁ _ _ _ x xs hhop hrest =>
        have hd := (hopSettles_iff_hopDelivers hb hout ha hle).mp ⟨x, hhop, rfl⟩
        have hpos : 0 ≤ x.delivered := le_of_lt hhop.delivered_pos
        cases steps with
        | nil =>
          cases hrest
          exact ⟨[x.delivered], .cons hd (.nil w' _), by simp⟩
        | cons step' steps' =>
          rw [if_neg (by simp)] at hhop
          obtain ⟨amounts, hds, hlast⟩ := (settles_iff_delivers (step' :: steps') _ b' w₁ w' _ _
            hchain hout hsteps hpos hhop.covered).mp ⟨xs, hrest⟩
          exact ⟨x.delivered :: amounts, .cons hd hds, by simpa using hlast⟩
    · rintro ⟨_, hds, hlast⟩
      cases hds with
      | @cons _ _ _ w₁ _ _ a' amounts hd hds =>
        obtain ⟨x, hhop, rfl⟩ := (hopSettles_iff_hopDelivers hb hout ha hle).mpr hd
        have hpos : 0 ≤ x.delivered := le_of_lt hhop.delivered_pos
        have hlast' : (x.delivered :: amounts).getLast? = some v := by simpa using hlast
        cases steps with
        | nil =>
          cases hds
          obtain rfl : x.delivered = v := by simpa using hlast'
          exact ⟨[x], .cons hhop (.nil w' _)⟩
        | cons step' steps' =>
          have hhop' := hhop
          rw [if_neg (by simp)] at hhop'
          obtain ⟨xs, hs⟩ := (settles_iff_delivers (step' :: steps') _ b' w₁ w' _ _
            hchain hout hsteps hpos hhop'.covered).mpr ⟨amounts, hds, hlast'⟩
          exact ⟨x :: xs, .cons hhop hs⟩

/-! ## 3. No trap is reachable -/

theorem readAdmin_safe (s : State σ) : Exec.Safe readAdmin s :=
  (Exec.safe_gets _ s).bind fun _ s' _ => Exec.safe_okOr _ _ s'

theorem checkRegistered_safe (pre : Option SwapStep) (s : State σ) :
    Exec.Safe (checkRegistered pre) s := by
  refine (Exec.safe_okOr _ _ s).bind fun pre s₁ _ => ?_
  exact (Exec.safe_gets _ s₁).bind fun _ s₂ _ => Exec.safe_failIf _ _ s₂

theorem nextNonce_safe (s : State σ) : Exec.Safe nextNonce s := by
  refine Exec.Safe.bind ?_ fun current s₁ _ => ?_
  · exact (readAdmin_safe s).bind fun _ s₁ _ => Exec.safe_gets _ s₁
  · refine (Exec.safe_okOr _ _ s₁).bind fun next s₂ _ => ?_
    exact (Exec.safe_modify _ s₂).bind fun _ s₃ _ => Exec.safe_pure next s₃

theorem trySwap_safe (adapter : Address) (args : AdapterArgs) (s : State σ) :
    Exec.Safe (trySwap h c adapter args) s := by
  unfold Exec.Safe trySwap
  cases callAdapter h c adapter args s.world <;> simp

/-- The guards trap only where the trader has not authorized the call. -/
theorem checkSwap_safe {p : SwapParams} (hin : h.Exact p.tokenIn) (hauth : c.Authorizes p.trader)
    (s : State σ) : Exec.Safe (checkSwap h c p) s := by
  refine (readAdmin_safe s).bind fun _ s₁ _ => ?_
  refine (Exec.safe_gets _ s₁).bind fun _ s₂ _ => ?_
  refine (Exec.safe_failIf _ _ s₂).bind fun _ s₃ _ => ?_
  refine (safe_requireAuth hauth).bind fun _ s₄ _ => ?_
  refine (Exec.safe_failIf _ _ s₄).bind fun _ s₅ _ => ?_
  refine (Exec.safe_failIf _ _ s₅).bind fun _ s₆ _ => ?_
  refine (Exec.safe_failIf _ _ s₆).bind fun _ s₇ _ => ?_
  refine (Exec.safe_failIf _ _ s₇).bind fun _ s₈ _ => ?_
  refine (Exec.safe_failIf _ _ s₈).bind fun _ s₉ _ => ?_
  refine (Exec.safe_ofExcept _ s₉).bind fun _ s₁₀ _ => ?_
  refine Exec.Safe.bind ?_ fun _ s₁₁ _ => ?_
  · rw [registry_loop]
    refine Exec.safe_forList (I := fun _ _ _ _ => True) ?_ _ _ _ _ trivial
    intro i step steps u s' _
    exact ⟨checkRegistered_safe (some step) s', fun _ _ _ => trivial⟩
  · refine (safe_balance (hin.isToken _) _).bind fun _ s₁₂ _ => ?_
    exact Exec.safe_failIf _ _ s₁₂

/-- A hop whose input the router covers is not trapped. -/
theorem hop_safe {trader : Address} {last executionId i : Nat} {step : SwapStep} {p : Progress}
    {s : State σ} (hin : h.Exact step.tokenIn) (hout : h.Exact step.tokenOut)
    (ha : 0 ≤ p.hopAmountIn) (hle : p.hopAmountIn ≤ s.world.bal step.tokenIn c.self) :
    Exec.Safe (hop h c trader last executionId i (some step) p) s := by
  refine (Exec.safe_okOr _ _ s).bind fun _ s₁ h1 => ?_
  obtain ⟨hstep, rfl⟩ := Exec.okOr_eq_ok.mp h1
  obtain rfl := Option.some.inj hstep
  refine (Exec.safe_gets _ s₁).bind fun _ s₂ h2 => ?_
  obtain ⟨-, rfl⟩ := Exec.gets_eq_ok.mp h2
  refine (Exec.safe_okOr _ _ s₂).bind fun adapter s₃ h3 => ?_
  obtain ⟨-, rfl⟩ := Exec.okOr_eq_ok.mp h3
  refine (safe_transfer hin (Or.inl rfl) ha hle).bind fun _ s₄ _ => ?_
  refine (safe_balance (hout.isToken _) _).bind fun _ s₅ _ => ?_
  refine (trySwap_safe _ _ s₅).bind fun _ s₆ _ => ?_
  refine (Exec.safe_failIf _ _ s₆).bind fun _ s₇ _ => ?_
  refine (safe_balance (hout.isToken _) _).bind fun _ s₈ _ => ?_
  refine (Exec.safe_okOr _ _ s₈).bind fun _ s₉ _ => ?_
  refine (Exec.safe_failIf _ _ s₉).bind fun _ s₁₀ _ => ?_
  refine (Exec.safe_failIf _ _ s₁₀).bind fun _ s₁₁ _ => ?_
  refine (Exec.safe_modify _ s₁₁).bind fun _ s₁₂ _ => ?_
  exact Exec.safe_pure _ s₁₂

/-- What the hop loop keeps. -/
structure Covered (h : Host σ) (c : Ctx) (last i : Nat) (steps : List SwapStep) (q : Progress)
    (s : State σ) : Prop extends Backed c last i steps q s where
  tokens : ∀ step ∈ steps, h.Exact step.tokenIn ∧ h.Exact step.tokenOut
  nonneg : 0 ≤ q.hopAmountIn

theorem Covered.step {trader : Address} {last executionId i : Nat} {step : SwapStep}
    {steps : List SwapStep} {p : Progress} {s : State σ}
    (hI : Covered h c last i (step :: steps) p s) :
    Exec.Safe (hop h c trader last executionId i (some step) p) s ∧
      ∀ q s', hop h c trader last executionId i (some step) p s = (.ok q, s') →
        Covered h c last (i + 1) steps q s' := by
  obtain ⟨b, b', ⟨rfl, -, -⟩, hle⟩ := hI.covered
  have htok := List.forall_mem_cons.mp hI.tokens
  refine ⟨hop_safe htok.1.1 htok.1.2 hI.nonneg (hle (by simp)), ?_⟩
  intro q s' hq
  have hback : Backed c last (i + 1) steps q s' := hI.toBacked.hop hq
  obtain ⟨x, w', hhop, rfl, rfl⟩ := hop_eq_ok.mp hq
  exact ⟨hback, htok.2, le_of_lt hhop.delivered_pos⟩

/-- What holds of the tokens a chained route moves holds at every step. -/
theorem Chained.tokens {P : Address → Prop} {a b : Address} {steps : List SwapStep}
    (hchain : Chained a steps b) (ha : P a) (hout : ∀ step ∈ steps, P step.tokenOut) :
    ∀ step ∈ steps, P step.tokenIn ∧ P step.tokenOut := by
  induction steps generalizing a with
  | nil => simp
  | cons step steps ih =>
    obtain ⟨rfl, -, hchain⟩ := hchain
    rw [List.forall_mem_cons] at hout
    exact List.forall_mem_cons.mpr ⟨⟨ha, hout.1⟩, ih hchain hout.1 hout.2⟩

/-- From an admitted call on, nothing traps. -/
theorem settle_safe {p : SwapParams} {s : State σ} (htok : ∀ t ∈ routeTokens p, h.Exact t)
    (had : Admitted h c p s) : Exec.Safe (settle h c p) s := by
  have hin : h.Exact p.tokenIn := htok _ (List.mem_cons_self ..)
  refine (safe_transfer hin (Or.inr had.authorized) (le_of_lt had.amountIn_pos)
    had.funded).bind fun _ s₁ h1 => ?_
  obtain ⟨-, w₁, hpay, rfl⟩ := transfer_eq_ok.mp h1
  refine (Exec.safe_okOr _ _ _).bind fun last s₁ h2 => ?_
  obtain ⟨hlast, rfl⟩ := Exec.okOr_eq_ok.mp h2
  obtain ⟨hlen, rfl⟩ := checkedSub_eq_some.mp hlast
  refine (nextNonce_safe _).bind fun executionId s₂ h3 => ?_
  obtain ⟨-, -, -, rfl⟩ := nextNonce_eq_ok.mp h3
  refine Exec.Safe.bind ?_ fun _ s₃ _ => ?_
  · rw [hop_loop]
    refine Exec.safe_forList (I := Covered h c (p.path.length - 1))
      (fun i step steps q s' hI => hI.step) _ _ _ _ ?_
    refine ⟨⟨by omega, _, _, had.chained, fun _ => ?_⟩, ?_, le_of_lt had.amountIn_pos⟩
    · exact World.le_bal_of_pay hpay had.authorized.1.symm
    · exact had.chained.tokens hin fun step hstep =>
        htok _ (List.mem_cons_of_mem _ (List.mem_map_of_mem hstep))
  · refine (Exec.safe_failIf _ _ s₃).bind fun _ s₄ _ => ?_
    refine (Exec.safe_modify _ s₄).bind fun _ s₅ _ => ?_
    refine (Exec.safe_modify _ s₅).bind fun _ s₆ _ => ?_
    exact Exec.safe_pure _ s₆

/-! ## 4. The exact success condition -/

/-- **Exactly when a swap succeeds, and that it is never trapped.**  The tokens of the route are
well-behaved and the trader has authorized the call; nothing is assumed about the adapters. -/
theorem swap_returns_iff {p : SwapParams} {s : State σ} (htok : ∀ t ∈ routeTokens p, h.Exact t)
    (hauth : c.Authorizes p.trader) :
    (swap h c p s).1 ≠ .trap ∧
      ∀ v, (∃ s', swap h c p s = (.ok v, s')) ↔
        s.store.admin.isSome = true ∧ s.store.paused.getD false = false ∧
        0 < p.amountIn ∧ 0 < p.amountOutMin ∧ c.timestamp ≤ p.deadline ∧
        1 ≤ p.path.length ∧ p.path.length ≤ MAX_HOPS ∧
        Chained p.tokenIn p.path p.tokenOut ∧
        (∀ step ∈ p.path, (s.store.adapterOf step.protocol).isSome = true) ∧
        p.amountIn ≤ s.world.bal p.tokenIn p.trader ∧ s.store.nonce.getD 0 < U64_MAX ∧
        ∃ amounts w',
          Delivers h c s.store.adapterOf p.trader p.path
            (forwarded s.world p.tokenIn p.trader c.self p.amountIn) (p.amountIn :: amounts) w' ∧
          (p.amountIn :: amounts).getLast? = some v ∧ p.amountOutMin ≤ v := by
  have hin : h.Exact p.tokenIn := htok _ (List.mem_cons_self ..)
  have hout : ∀ step ∈ p.path, h.Exact step.tokenOut := fun step hstep =>
    htok _ (List.mem_cons_of_mem _ (List.mem_map_of_mem hstep))
  -- the pull: it goes through, and leaves the router with the input of the first hop
  have hpull (had : Admitted h c p s) :
      s.world.pay h.toTokens p.tokenIn p.trader c.self p.amountIn
          = some (forwarded s.world p.tokenIn p.trader c.self p.amountIn) ∧
        p.amountIn
          ≤ (forwarded s.world p.tokenIn p.trader c.self p.amountIn).bal p.tokenIn c.self := by
    have hpay : s.world.pay h.toTokens p.tokenIn p.trader c.self p.amountIn
        = some (forwarded s.world p.tokenIn p.trader c.self p.amountIn) :=
      pay_eq_forwarded hin (le_of_lt had.amountIn_pos) had.funded
    exact ⟨hpay, World.le_bal_of_pay hpay hauth.1.symm⟩
  have hroute (had : Admitted h c p s) (v : Int) (w' : World σ) :
      (∃ xs, Settles h c s.store.adapterOf p.trader p.path
          (forwarded s.world p.tokenIn p.trader c.self p.amountIn) p.amountIn xs w' v) ↔
        ∃ amounts, Delivers h c s.store.adapterOf p.trader p.path
            (forwarded s.world p.tokenIn p.trader c.self p.amountIn) (p.amountIn :: amounts) w' ∧
          (p.amountIn :: amounts).getLast? = some v :=
    settles_iff_delivers p.path _ _ _ w' _ v had.chained hin hout (le_of_lt had.amountIn_pos)
      (hpull had).2
  constructor
  · refine (checkSwap_safe hin hauth s).bind fun _ s₁ h1 => ?_
    obtain ⟨had, rfl⟩ := checkSwap_eq_ok.mp h1
    exact settle_safe htok had
  · intro v
    constructor
    · rintro ⟨s', hok⟩
      obtain ⟨had, hn, w₁, xs, w', hpay, hset, hmin, -⟩ := swap_eq_ok_iff.mp hok
      obtain rfl := Option.some.inj ((hpull had).1.symm.trans hpay)
      obtain ⟨amounts, hdel, hlast⟩ := (hroute had v w').mp ⟨xs, hset⟩
      exact ⟨had.initialized, had.unpaused, had.amountIn_pos, had.amountOutMin_pos, had.timely,
        had.nonempty, had.bounded, had.chained, had.registered, had.funded, hn, amounts, w', hdel,
        hlast, hmin⟩
    · rintro ⟨hinit, hpaused, hpos, hminpos, htime, hne, hmax, hchain, hreg, hfund, hn, amounts,
        w', hdel, hlast, hmin⟩
      have had : Admitted h c p s :=
        ⟨hinit, hpaused, hauth, hpos, hminpos, htime, hne, hmax, hchain, hreg, hin.isToken _,
          hfund⟩
      obtain ⟨xs, hset⟩ := (hroute had v w').mpr ⟨amounts, hdel, hlast⟩
      exact ⟨_, swap_eq_ok_iff.mpr ⟨had, hn, _, xs, w', (hpull had).1, hset, hmin, rfl⟩⟩

section Witness

open TestAdapter.Fixture

theorem swap_returns_iff_twoHops :
    (swap chain ctx twoHops funded).1 ≠ .trap ∧
      ∃ amounts w', Delivers chain ctx funded.store.adapterOf trader twoHops.path
          (forwarded funded.world tokenA trader routerId 1000) (1000 :: amounts) w' ∧
        ((1000 : Int) :: amounts).getLast? = some 1500 := by
  obtain ⟨hsafe, hiff⟩ := swap_returns_iff (h := chain) (c := ctx) (p := twoHops) (s := funded)
    (fun t _ => Tokens.standard_exact t) (by decide)
  obtain ⟨-, -, -, -, -, -, -, -, -, -, -, amounts, w', hdel, hlast, -⟩ :=
    (hiff 1500).mp ⟨swapped, swap_twoHops⟩
  exact ⟨hsafe, amounts, w', hdel, hlast⟩

end Witness

end Stellariq.Router
