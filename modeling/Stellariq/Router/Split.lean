/-
# A route and its legs

For adapters that do not care whom they pay (`RecipientBlind`), swapping over a route is the same
as swapping over its first steps and then over the rest.  The two executions differ in one place:
at the junction the amount stays at the router, or goes to the trader and is pulled back.  Both
lead to the same WORLD (`HopSettles.redirect`), so from there on they are the same execution, and
nothing about the later adapters is needed.

`localSwap` is the class of adapters one has in mind: what an adapter pays and reports is decided
from the pool, the tokens, the input, its own configuration and its own balances.  They are
recipient-blind, and so are the test adapters.
-/
import Stellariq.Router.Path
import Stellariq.Router.Settlement

namespace Stellariq.Router

open Kit

variable {σ : Type} {h : Host σ} {c : Ctx} {reg : Symbol → Option Address}

/-! ## 1. Adapters that do not care whom they pay -/

/-- From `w`, the worlds `w'` and `w''` differ only in who was paid some amount of `t`: `x` in
the first, `y` in the second.  Neither was paid any other amount of `t`. -/
def PaidAlike (t x y : Address) (w w' w'' : World σ) : Prop :=
  ∃ d, w'.bal t x = w.bal t x + d ∧ w''.bal t y = w.bal t y + d ∧ w''.rest = w'.rest ∧
    ∀ t' z, w''.bal t' z - Ledger.point t y d t' z = w'.bal t' z - Ledger.point t x d t' z

/-- The effect of a call does not depend on its recipient, apart from who is paid. -/
def RecipientBlind (h : Host σ) : Prop :=
  ∀ adapter args w r w' y, adapter ≠ args.recipient → adapter ≠ y →
    h.adapterSwap adapter args w = .ok (r, w') →
    ∃ w'', h.adapterSwap adapter { args with recipient := y } w = .ok (r, w'') ∧
      PaidAlike args.tokenOut args.recipient y w w' w''

/-- A payment to `x` or to `y`. -/
theorem paidAlike_of_pay {T : Tokens σ} {t src x y : Address} {d : Int} {w w' : World σ}
    (hT : T.Exact t) (hx : src ≠ x) (hy : src ≠ y) (hpay : w.pay T t src x d = some w') :
    ∃ w'', w.pay T t src y d = some w'' ∧ PaidAlike t x y w w' w'' := by
  obtain ⟨w'', hpay'⟩ : ∃ w'', w.pay T t src y d = some w'' :=
    World.exists_pay hT (World.nonneg_of_pay hpay) (World.covered_of_pay hpay)
  refine ⟨w'', hpay', d, ?_, ?_, ?_, fun t' z => ?_⟩
  · rw [World.bal_pay hpay, Ledger.point_self, Ledger.point_of_holder_ne hx.symm, sub_zero]
  · rw [World.bal_pay hpay', Ledger.point_self, Ledger.point_of_holder_ne hy.symm, sub_zero]
  · rw [World.rest_pay hpay, World.rest_pay hpay']
  · rw [World.bal_pay hpay, World.bal_pay hpay']
    omega

/-- Adapters that decide what to report, what to pay out of their own balances, and their next
configuration from the pool, the tokens, the input, their configuration and their balances. -/
def localSwap {κ : Type} (T : Tokens (Address → κ))
    (price : Address → Address → Address → Address → Int → κ → (Address → Int) →
      Except AdapterFault (Int × Int × κ)) : AdapterSwap (Address → κ) :=
  fun adapter args w =>
    match price adapter args.pool args.tokenIn args.tokenOut args.amountIn (w.rest adapter)
        (fun t => w.bal t adapter) with
    | .error fault => .error fault
    | .ok (report, out, k) =>
      match w.pay T args.tokenOut adapter args.recipient out with
      | none => .error .invoke
      | some w' => .ok (report, { w' with rest := Function.update w'.rest adapter k })

/-- **Local adapters do not care whom they pay.** -/
theorem localSwap_blind {κ : Type} {T : Tokens (Address → κ)} (hT : ∀ t, T.Exact t)
    (price : Address → Address → Address → Address → Int → κ → (Address → Int) →
      Except AdapterFault (Int × Int × κ)) :
    RecipientBlind { T with adapterSwap := localSwap T price } := by
  intro adapter args w r w' y hx hy hcall
  simp only [localSwap] at hcall ⊢
  cases hprice : price adapter args.pool args.tokenIn args.tokenOut args.amountIn
      (w.rest adapter) (fun t => w.bal t adapter) with
  | error fault =>
    rw [hprice] at hcall
    cases hcall
  | ok decision =>
    obtain ⟨report, out, k⟩ := decision
    simp only [hprice] at hcall ⊢
    cases hpay : w.pay T args.tokenOut adapter args.recipient out with
    | none =>
      rw [hpay] at hcall
      cases hcall
    | some w₁ =>
      rw [hpay] at hcall
      cases hcall
      obtain ⟨w₂, hpay', d, hbx, hby, hrest, hbal⟩ := paidAlike_of_pay (hT _) hx hy hpay
      simp only [hpay']
      refine ⟨_, rfl, d, hbx, hby, ?_, hbal⟩
      simp only [hrest]

/-- **Test adapters do not care whom they pay.** -/
theorem testAdapter_blind {T : Tokens TestAdapter.Deployments} (hT : ∀ t, T.Exact t) (c : Ctx) :
    RecipientBlind (TestAdapter.host T c) := by
  intro adapter args w r w' y hx hy hcall
  obtain ⟨st, hst, htok, hheld, out, hout, hpay, hr⟩ := TestAdapter.invoke_eq_ok.mp hcall
  obtain ⟨w'', hpay', halike⟩ := paidAlike_of_pay (hT _) hx hy hpay
  exact ⟨w'', TestAdapter.invoke_eq_ok.mpr ⟨st, hst, htok, hheld, out, hout, hpay', hr⟩, halike⟩

/-! ## 2. The junction -/

/-- A payment on from `y` to `x` makes up for who was paid. -/
theorem PaidAlike.pay {T : Tokens σ} {t x y : Address} {w w' w'' : World σ}
    (hT : T.Exact t) (halike : PaidAlike t x y w w' w'') {d : Int} (hd : 0 ≤ d)
    (hx : w'.bal t x = w.bal t x + d) : w''.pay T t y x d = some w' := by
  obtain ⟨d', hbx, hby, hrest, hbal⟩ := halike
  obtain rfl : d' = d := by omega
  have hle : d' ≤ w''.bal t y := by
    have := World.bal_nonneg w t y
    omega
  obtain ⟨w₁, hpay⟩ : ∃ w₁, w''.pay T t y x d' = some w₁ := World.exists_pay hT hd hle
  have hledger : w₁.ledger = w'.ledger := by
    ext t' z
    have h1 : w₁.ledger.bal t' z = w''.bal t' z + Ledger.point t x d' t' z
        - Ledger.point t y d' t' z := World.bal_pay hpay t' z
    have h2 : w''.bal t' z - Ledger.point t y d' t' z
        = w'.ledger.bal t' z - Ledger.point t x d' t' z := hbal t' z
    omega
  have hrest' : w₁.rest = w'.rest := (World.rest_pay hpay).trans hrest
  rw [hpay]
  cases w₁
  cases w'
  simp only at hledger hrest'
  rw [hledger, hrest']

/-- **One hop, paid to `y` instead of `x`.**  It settles as well, with the same delivery. -/
theorem HopSettles.redirect (hblind : RecipientBlind h) {x y : Address} {step : SwapStep}
    {w w' : World σ} {a : Int} {xc : AdapterCall} (hhop : HopSettles h c reg x step w a xc w')
    (hout : h.Exact step.tokenOut) (hx : xc.adapter ≠ x) (hy : xc.adapter ≠ y) :
    ∃ yc w'', HopSettles h c reg y step w a yc w'' ∧ yc.delivered = xc.delivered ∧
      ∃ w₁, PaidAlike step.tokenOut x y w₁ w' w'' ∧
        w'.bal step.tokenOut x = w₁.bal step.tokenOut x + xc.delivered := by
  obtain ⟨w₁, r, hpay, hbefore, htok, hcall, hrep, hr, hrd⟩ := hhop.called
  have hd := hhop.delivered_eq hbefore
  rw [callAdapter, if_neg hhop.adapter_ne, hhop.args] at hcall
  obtain ⟨w'', hcall', halike⟩ := hblind _ _ _ _ _ y hx hy hcall
  obtain ⟨d, hbx, hby, hrest, hbal⟩ := halike
  have hd' : w''.bal step.tokenOut y - w₁.bal step.tokenOut y = xc.delivered := by
    simp only at hbx hby
    omega
  refine ⟨⟨xc.adapter, ⟨step.pool, step.tokenIn, step.tokenOut, a, step.amountOutMin, y⟩,
    w₁.ledger, .ok r, w''.ledger⟩, w'', ?_, hd', w₁, ⟨d, hbx, hby, hrest, hbal⟩, by omega⟩
  exact {
    registered := hhop.registered
    args := rfl
    called := ⟨w₁, r, hpay, rfl, htok, by rw [callAdapter, if_neg hhop.adapter_ne]; exact hcall',
      rfl, hr, le_of_le_of_eq hrd hd'.symm⟩
    after := rfl
    isToken := hout.isToken _
    fits := le_of_eq_of_le hd' hhop.fits
    min_le := le_of_le_of_eq hhop.min_le hd'.symm }

/-- **A route, paid to `y` instead of `x`.**  The last hop is the only difference. -/
theorem Settles.redirect (hblind : RecipientBlind h) {x y m : Address} :
    ∀ {steps : List SwapStep} {b : Address} {w w' : World σ} {a u : Int} {xs : List AdapterCall},
      Settles h c reg x steps w a xs w' u → steps ≠ [] → Chained b steps m →
      (∀ step ∈ steps, h.Exact step.tokenOut) →
      (∀ step ∈ steps, ∀ a, reg step.protocol = some a → a ≠ c.self → a ≠ x ∧ a ≠ y) →
      ∃ ys w'', Settles h c reg y steps w a ys w'' u ∧ 0 ≤ u ∧
        ∃ w₁, PaidAlike m x y w₁ w' w'' ∧ w'.bal m x = w₁.bal m x + u
  | [], _, _, _, _, _, _, _, hne, _, _, _ => absurd rfl hne
  | [step], b, w, w', a, u, xs, hs, _, hchain, htok, hadapter => by
    obtain ⟨-, -, rfl⟩ := hchain
    obtain ⟨hout, -⟩ := List.forall_mem_cons.mp htok
    obtain ⟨hstep, -⟩ := List.forall_mem_cons.mp hadapter
    cases hs with
    | cons hhop hrest =>
      cases hrest
      rw [if_pos rfl] at hhop
      obtain ⟨hx, hy⟩ := hstep _ hhop.registered hhop.adapter_ne
      obtain ⟨yc, w'', hhop', hd, hjunction⟩ := hhop.redirect hblind hout hx hy
      refine ⟨[yc], w'', ?_, le_of_lt hhop.delivered_pos, hjunction⟩
      rw [← hd]
      exact .cons (by rwa [if_pos rfl]) (.nil w'' _)
  | step :: step' :: steps, b, w, w', a, u, xs, hs, _, hchain, htok, hadapter => by
    obtain ⟨-, -, hchain⟩ := hchain
    obtain ⟨-, htok⟩ := List.forall_mem_cons.mp htok
    obtain ⟨-, hadapter⟩ := List.forall_mem_cons.mp hadapter
    cases hs with
    | cons hhop hrest =>
      obtain ⟨ys, w'', hs', hu, hjunction⟩ :=
        Settles.redirect hblind hrest (by simp) hchain htok hadapter
      refine ⟨_ :: ys, w'', .cons ?_ hs', hu, hjunction⟩
      rw [if_neg (by simp)] at hhop ⊢
      exact hhop

theorem PaidAlike.symm {t x y : Address} {w w' w'' : World σ} (halike : PaidAlike t x y w w' w'') :
    PaidAlike t y x w w'' w' := by
  obtain ⟨d, hbx, hby, hrest, hbal⟩ := halike
  exact ⟨d, hby, hbx, hrest.symm, fun t' z => (hbal t' z).symm⟩

section Junction

variable {trader m b : Address} {steps : List SwapStep} {w w' w'' : World σ} {a u : Int}
  {xs : List AdapterCall}

/-- **To the trader and back.**  A route that ends at the router can as well be paid to the trader
and pulled back: that leads to the same world. -/
theorem Settles.to_trader (hblind : RecipientBlind h)
    (hs : Settles h c reg c.self steps w a xs w' u) (hne : steps ≠ []) (hchain : Chained b steps m)
    (htok : ∀ step ∈ steps, h.Exact step.tokenOut)
    (hm : h.Exact m) (hadapter : ∀ step ∈ steps, reg step.protocol ≠ some trader) :
    ∃ ys w'', Settles h c reg trader steps w a ys w'' u ∧
      w''.pay h.toTokens m trader c.self u = some w' := by
  obtain ⟨ys, w'', hs', hu, w₁, halike, hx⟩ := hs.redirect hblind hne hchain htok
    fun step hstep a ha hself => ⟨hself, fun he => hadapter step hstep (by rw [ha, he])⟩
  exact ⟨ys, w'', hs', halike.pay hm hu hx⟩

/-- And the other way round. -/
theorem Settles.to_router (hblind : RecipientBlind h)
    (hs : Settles h c reg trader steps w a xs w'' u) (hne : steps ≠ []) (hchain : Chained b steps m)
    (htok : ∀ step ∈ steps, h.Exact step.tokenOut)
    (hm : h.Exact m) (hadapter : ∀ step ∈ steps, reg step.protocol ≠ some trader)
    (hpay : w''.pay h.toTokens m trader c.self u = some w') :
    ∃ ys, Settles h c reg c.self steps w a ys w' u := by
  obtain ⟨ys, w₂, hs', hu, w₁, halike, hx⟩ := hs.redirect hblind hne hchain htok
    fun step hstep a ha hself => ⟨fun he => hadapter step hstep (by rw [ha, he]), hself⟩
  have hself : w₂.bal m c.self = w₁.bal m c.self + u := by
    obtain ⟨d, hbx, hby, -, -⟩ := halike
    omega
  have hpay' := halike.symm.pay hm hu hself
  obtain rfl : w₂ = w' := Option.some.inj (hpay'.symm.trans hpay)
  exact ⟨ys, hs'⟩

end Junction

/-! ## 3. Splitting a route -/

/-- A route settles when its first part settles at the router and the rest from there. -/
theorem settles_append {dest : Address} {p₂ : List SwapStep} {v : Int} {w' : World σ}
    (hne : p₂ ≠ []) : ∀ {p₁ : List SwapStep} {w : World σ} {a : Int},
      (∃ xs, Settles h c reg dest (p₁ ++ p₂) w a xs w' v) ↔
        ∃ xs ys wj u, Settles h c reg c.self p₁ w a xs wj u ∧
          Settles h c reg dest p₂ wj u ys w' v
  | [], w, a => by
    constructor
    · rintro ⟨ys, hs⟩
      exact ⟨[], ys, w, a, .nil w a, hs⟩
    · rintro ⟨xs, ys, wj, u, hnil, hs⟩
      cases hnil
      exact ⟨ys, hs⟩
  | step :: p₁, w, a => by
    have hrest : p₁ ++ p₂ ≠ [] := by simp [hne]
    rw [List.cons_append]
    constructor
    · rintro ⟨_, hs⟩
      cases hs with
      | cons hhop hs =>
        obtain ⟨xs, ys, wj, u, hs₁, hs₂⟩ := (settles_append hne).mp ⟨_, hs⟩
        refine ⟨_ :: xs, ys, wj, u, .cons ?_ hs₁, hs₂⟩
        rw [if_neg hrest] at hhop
        rwa [ite_self]
    · rintro ⟨_, ys, wj, u, hs₁, hs₂⟩
      cases hs₁ with
      | cons hhop hs₁ =>
        obtain ⟨xs, hs⟩ := (settles_append hne).mpr ⟨_, ys, wj, u, hs₁, hs₂⟩
        refine ⟨_ :: xs, .cons ?_ hs⟩
        rw [ite_self] at hhop
        rwa [if_neg hrest]

/-- A route of at least one step ends with a positive amount. -/
theorem Settles.amount_pos {dest : Address} {steps : List SwapStep} {w w' : World σ} {a v : Int}
    {xs : List AdapterCall} (hs : Settles h c reg dest steps w a xs w' v) (hne : steps ≠ []) :
    0 < v := by
  induction hs with
  | nil => exact absurd rfl hne
  | @cons step steps _ _ _ _ _ _ _ hhop hrest ih =>
    cases steps with
    | nil =>
      cases hrest
      exact hhop.delivered_pos
    | cons => exact ih (by simp)

/-- The swap over the first part of the route, with a minimum of its own. -/
def firstLeg (p : SwapParams) (p₁ : List SwapStep) (m : Address) (amountOutMin : Int) :
    SwapParams := { p with tokenOut := m, amountOutMin, path := p₁ }

/-- The swap of the junction amount over the rest of the route. -/
def secondLeg (p : SwapParams) (p₂ : List SwapStep) (m : Address) (amountIn : Int) :
    SwapParams := { p with tokenIn := m, amountIn, path := p₂ }

/-- The state the next call starts in. -/
def nextCall (s : State σ) : State σ := { s with log := [] }

section Legs

variable {p : SwapParams} {p₁ p₂ : List SwapStep} {m : Address} {s : State σ} {v u : Int}

/-- **Apart.**  What a swap over the whole route does, the two legs do. -/
theorem swap_apart (hblind : RecipientBlind h) (hpath : p.path = p₁ ++ p₂) (h₁ : p₁ ≠ [])
    (h₂ : p₂ ≠ []) (hchain₁ : Chained p.tokenIn p₁ m) (hchain₂ : Chained m p₂ p.tokenOut)
    (hm : h.Exact m) (htok : ∀ step ∈ p₁, h.Exact step.tokenOut)
    (hadapter : ∀ step ∈ p₁, s.store.adapterOf step.protocol ≠ some p.trader)
    (hn : s.store.nonce.getD 0 < U64_MAX - 1) {s' : State σ}
    (hok : swap h c p s = (.ok v, s')) :
    ∃ u, 0 < u ∧ ∀ min₁, 0 < min₁ → min₁ ≤ u → ∃ s₁ s₂,
      swap h c (firstLeg p p₁ m min₁) s = (.ok u, s₁) ∧
      swap h c (secondLeg p p₂ m u) (nextCall s₁) = (.ok v, s₂) ∧ s₂.world = s'.world := by
  obtain ⟨had, -, w₁, xs, w', hpay, hset, hmin, rfl⟩ := swap_eq_ok_iff.mp hok
  have hbounded := had.bounded
  have hregistered := had.registered
  rw [hpath] at hset hregistered
  rw [hpath, List.length_append] at hbounded
  obtain ⟨hreg₁, hreg₂⟩ := List.forall_mem_append.mp hregistered
  obtain ⟨xs₁, xs₂, wj, u, hset₁, hset₂⟩ := (settles_append h₂).mp ⟨xs, hset⟩
  obtain ⟨ys, wt, hset₁', hpay'⟩ := hset₁.to_trader hblind h₁ hchain₁ htok hm hadapter
  refine ⟨u, hset₁.amount_pos h₁, ?_⟩
  intro min₁ hpos hle
  have had₁ : Admitted h c (firstLeg p p₁ m min₁) s := {
    initialized := had.initialized
    unpaused := had.unpaused
    authorized := had.authorized
    amountIn_pos := had.amountIn_pos
    amountOutMin_pos := hpos
    timely := had.timely
    nonempty := List.length_pos_iff.mpr h₁
    bounded := le_trans (Nat.le_add_right _ _) hbounded
    chained := hchain₁
    registered := hreg₁
    isToken := had.isToken
    funded := had.funded }
  have hswap₁ := swap_eq_ok_iff.mpr ⟨had₁, by omega, w₁, ys, wt, hpay, hset₁', hle, rfl⟩
  refine ⟨_, _, hswap₁, swap_eq_ok_iff.mpr ⟨?_, ?_, wj, xs₂, w', hpay', hset₂, hmin, rfl⟩, rfl⟩
  · exact {
      initialized := had.initialized
      unpaused := had.unpaused
      authorized := had.authorized
      amountIn_pos := hset₁.amount_pos h₁
      amountOutMin_pos := had.amountOutMin_pos
      timely := had.timely
      nonempty := List.length_pos_iff.mpr h₂
      bounded := le_trans (Nat.le_add_left _ _) hbounded
      chained := hchain₂
      registered := hreg₂
      isToken := hm.isToken _
      funded := World.covered_of_pay hpay' }
  · show s.store.nonce.getD 0 + 1 < U64_MAX
    omega

/-- **Together.**  What the two legs do, a swap over the whole route does. -/
theorem swap_together (hblind : RecipientBlind h) (hpath : p.path = p₁ ++ p₂) (h₁ : p₁ ≠ [])
    (h₂ : p₂ ≠ []) (hlen : p.path.length ≤ MAX_HOPS) (hm : h.Exact m)
    (htok : ∀ step ∈ p₁, h.Exact step.tokenOut)
    (hadapter : ∀ step ∈ p₁, s.store.adapterOf step.protocol ≠ some p.trader)
    {min₁ : Int} {s₁ s₂ : State σ}
    (hok₁ : swap h c (firstLeg p p₁ m min₁) s = (.ok u, s₁))
    (hok₂ : swap h c (secondLeg p p₂ m u) (nextCall s₁) = (.ok v, s₂)) :
    ∃ s', swap h c p s = (.ok v, s') ∧ s'.world = s₂.world := by
  obtain ⟨had₁, hn, w₁, ys, wt, hpay, hset₁, -, rfl⟩ := swap_eq_ok_iff.mp hok₁
  obtain ⟨had₂, -, wj, xs₂, w', hpay', hset₂, hmin, rfl⟩ := swap_eq_ok_iff.mp hok₂
  obtain ⟨xs₁, hset₁'⟩ := Settles.to_router hblind hset₁ h₁ had₁.chained htok hm hadapter hpay'
  obtain ⟨xs, hset⟩ : ∃ xs,
      Settles h c s.store.adapterOf p.trader p.path w₁ p.amountIn xs w' v := by
    rw [hpath]
    exact (settles_append h₂).mpr ⟨xs₁, xs₂, wj, u, hset₁', hset₂⟩
  have had : Admitted h c p s := {
    initialized := had₁.initialized
    unpaused := had₁.unpaused
    authorized := had₁.authorized
    amountIn_pos := had₁.amountIn_pos
    amountOutMin_pos := had₂.amountOutMin_pos
    timely := had₁.timely
    nonempty := by
      rw [hpath, List.length_append]
      exact le_trans had₁.nonempty (Nat.le_add_right _ _)
    bounded := hlen
    chained := by
      rw [hpath]
      exact chained_append.mpr ⟨m, had₁.chained, had₂.chained⟩
    registered := by
      rw [hpath]
      exact List.forall_mem_append.mpr ⟨had₁.registered, had₂.registered⟩
    isToken := had₁.isToken
    funded := had₁.funded }
  exact ⟨_, swap_eq_ok_iff.mpr ⟨had, hn, w₁, xs, w', hpay, hset, hmin, rfl⟩, rfl⟩

/-- **A multi-hop route is equivalent to doing its legs separately.** -/
theorem swap_splits (hblind : RecipientBlind h) (hpath : p.path = p₁ ++ p₂) (h₁ : p₁ ≠ [])
    (h₂ : p₂ ≠ []) (hlen : p.path.length ≤ MAX_HOPS) (hm : (p₁.getLast h₁).tokenOut = m)
    (htok : ∀ t ∈ routeTokens p, h.Exact t)
    (hadapter : ∀ step ∈ p.path, s.store.adapterOf step.protocol ≠ some p.trader)
    (hn : s.store.nonce.getD 0 < U64_MAX - 1) :
    (∀ v, (∃ s', swap h c p s = (.ok v, s')) ↔
      ∃ u min₁ s₁ s₂, 0 < min₁ ∧ min₁ ≤ u ∧
        swap h c (firstLeg p p₁ m min₁) s = (.ok u, s₁) ∧
        swap h c (secondLeg p p₂ m u) (nextCall s₁) = (.ok v, s₂)) ∧
    ∀ v v' u min₁ s' s₁ s₂, swap h c p s = (.ok v, s') →
      swap h c (firstLeg p p₁ m min₁) s = (.ok u, s₁) →
      swap h c (secondLeg p p₂ m u) (nextCall s₁) = (.ok v', s₂) →
      v' = v ∧ ∀ t x, s₂.world.bal t x = s'.world.bal t x := by
  have hsplit : ∀ step ∈ p₁ ++ p₂, step ∈ p.path := fun step hstep => by rwa [hpath]
  have htok₁ : ∀ step ∈ p₁, h.Exact step.tokenOut := fun step hstep =>
    htok _ (List.mem_cons_of_mem _ (List.mem_map_of_mem
      (hsplit step (List.mem_append_left _ hstep))))
  have hexact : h.Exact m := by
    rw [← hm]
    exact htok₁ _ (List.getLast_mem h₁)
  have hadapter₁ : ∀ step ∈ p₁, s.store.adapterOf step.protocol ≠ some p.trader :=
    fun step hstep => hadapter step (hsplit step (List.mem_append_left _ hstep))
  constructor
  · intro v
    constructor
    · rintro ⟨s', hok⟩
      obtain ⟨had, -⟩ := swap_eq_ok_iff.mp hok
      have hchain := had.chained
      rw [hpath] at hchain
      obtain ⟨m', hchain₁, hchain₂⟩ := chained_append.mp hchain
      obtain rfl : m = m' := hm.symm.trans (hchain₁.getLast h₁)
      obtain ⟨u, hu, hlegs⟩ := swap_apart hblind hpath h₁ h₂ hchain₁ hchain₂ hexact htok₁
        hadapter₁ hn hok
      obtain ⟨s₁, s₂, hok₁, hok₂, -⟩ := hlegs u hu (le_refl u)
      exact ⟨u, u, s₁, s₂, hu, le_refl u, hok₁, hok₂⟩
    · rintro ⟨u, min₁, s₁, s₂, -, -, hok₁, hok₂⟩
      obtain ⟨s', hok, -⟩ := swap_together hblind hpath h₁ h₂ hlen hexact htok₁ hadapter₁ hok₁
        hok₂
      exact ⟨s', hok⟩
  · intro v v' u min₁ s' s₁ s₂ hok hok₁ hok₂
    obtain ⟨s'', hok', hworld⟩ := swap_together hblind hpath h₁ h₂ hlen hexact htok₁ hadapter₁
      hok₁ hok₂
    rw [hok] at hok'
    cases hok'
    exact ⟨rfl, fun t x => by rw [hworld]⟩

end Legs

section Witness

open TestAdapter.Fixture

theorem swap_splits_twoHops :
    ∃ u min₁ s₁ s₂, 0 < min₁ ∧ min₁ ≤ u ∧
      swap chain ctx (firstLeg twoHops [stepOnPool pool tokenA tokenB 1400] tokenB min₁) funded
        = (.ok u, s₁) ∧
      swap chain ctx (secondLeg twoHops [stepOnPool pool2 tokenB tokenC 1400] tokenB u)
        (nextCall s₁) = (.ok 1500, s₂) := by
  obtain ⟨hiff, -⟩ := swap_splits (testAdapter_blind Tokens.standard_exact ctx)
    (show twoHops.path = [stepOnPool pool tokenA tokenB 1400] ++
      [stepOnPool pool2 tokenB tokenC 1400] from rfl)
    (by simp) (by simp) (by decide) rfl (fun t _ => Tokens.standard_exact t)
    (show ∀ step ∈ twoHops.path, funded.store.adapterOf step.protocol ≠ some twoHops.trader by
      decide)
    (by decide)
  exact (hiff 1500).mp ⟨swapped, swap_twoHops⟩

end Witness

end Stellariq.Router
