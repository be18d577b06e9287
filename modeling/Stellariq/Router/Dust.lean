/-
# Stray tokens at the router cannot influence a swap

Anyone can send tokens to the router.  `swap` reads the router's balances at every hop but the
last, and pays out of them, so it has to be shown that no extra there leaks into an amount, a
check or a transfer.  `swap_ignores_dust` does, by comparing the run of a call with the run of
the same call where the router holds more: they end the same way, with the same operations,
and leave the same balances but for the extra, which is still there.

Of the rest of the chain it is assumed that it does not look at the router's balances
(`Blind`).  Two facts about the hop loop carry the argument.  What is read of the router's
balances is only a difference, in which the extra cancels.  And what the router forwards is
covered without the extra (`Backed`), so the extra never makes a transfer go through.
-/
import Stellariq.Kit.Relational
import Stellariq.Router.Exact

namespace Stellariq.Router

open Kit

variable {σ : Type} {router : Address} {extra : Address → Int}

/-! ## 1. States that differ in the router's balances -/

/-- The second world is the first, but that `router` holds `extra t` more of every token `t`. -/
structure Dusted (router : Address) (extra : Address → Int) (w w₂ : World σ) : Prop where
  rest : w₂.rest = w.rest
  bal : ∀ t x, w₂.bal t x = w.bal t x + if x = router then extra t else 0

/-- What is left of an adapter call when the balances around it are not looked at: who was
called with what, and the report. -/
def AdapterCall.seen (x : AdapterCall) : Address × AdapterArgs × Option Int :=
  (x.adapter, x.args, x.report.toOption)

/-- The two running calls have the same storage and have done the same things, in worlds that
differ in the extra. -/
structure Alike (router : Address) (extra : Address → Int) (s s₂ : State σ) : Prop where
  store : s₂.store = s.store
  world : Dusted router extra s.world s₂.world
  log : s₂.log.map (HostOp.mapCall AdapterCall.seen) =
    s.log.map (HostOp.mapCall AdapterCall.seen)

theorem Alike.events {s s₂ : State σ} (hR : Alike router extra s s₂) :
    eventsOf s₂.log = eventsOf s.log := by
  rw [← eventsOf_mapCall AdapterCall.seen s₂.log, hR.log, eventsOf_mapCall]

/-- Both calls did one more thing. -/
theorem Alike.snoc {s s₂ : State σ} (hR : Alike router extra s s₂) (store : Store)
    {w w₂ : World σ} (hw : Dusted router extra w w₂) {op op₂ : Op}
    (hop : op₂.mapCall AdapterCall.seen = op.mapCall AdapterCall.seen) :
    Alike router extra { store := store, world := w, log := s.log ++ [op] }
      { store := store, world := w₂, log := s₂.log ++ [op₂] } := by
  refine ⟨rfl, hw, ?_⟩
  rw [List.map_append, List.map_append, hR.log, List.map_singleton, List.map_singleton, hop]

theorem Dusted.bal_of_ne {w w₂ : World σ} (hw : Dusted router extra w w₂) {x : Address}
    (hx : x ≠ router) (t : Address) : w₂.bal t x = w.bal t x := by
  rw [hw.bal, if_neg hx, add_zero]

/-- The other contracts do not look at the balances of `router`: in worlds that differ in an
extra there, the tokens behave the same, and an adapter call succeeds in both or in neither,
with the same report and the same changes of all balances.  (An adapter that debited `router`
would need a balance there that covers the debit.) -/
structure Blind (h : Host σ) (router : Address) : Prop where
  isToken : ∀ {extra w w₂}, (∀ t, 0 ≤ extra t) → Dusted router extra w w₂ →
    ∀ t, h.isToken w₂ t = h.isToken w t
  refuses : ∀ {extra w w₂}, (∀ t, 0 ≤ extra t) → Dusted router extra w w₂ →
    ∀ t src dst a, h.refuses w₂ t src dst a = h.refuses w t src dst a
  adapterSwap : ∀ {extra w w₂}, (∀ t, 0 ≤ extra t) → Dusted router extra w w₂ →
    ∀ adapter args, adapter ≠ router →
      (∀ r w', h.adapterSwap adapter args w = .ok (r, w') →
        ∃ w₂', h.adapterSwap adapter args w₂ = .ok (r, w₂') ∧ Dusted router extra w' w₂') ∧
      ∀ r w₂', h.adapterSwap adapter args w₂ = .ok (r, w₂') →
        ∃ w', h.adapterSwap adapter args w = .ok (r, w')

/-! ## 2. The host operations -/

section Ops

variable {h : Host σ} {c : Ctx} {s s₂ : State σ}

/-- A payment that does not need the extra. -/
theorem Dusted.pay {T : Tokens σ} {w w₂ : World σ} (hw : Dusted router extra w w₂)
    {t src dst : Address} {a : Int} (htok : T.isToken w₂ t = T.isToken w t)
    (href : T.refuses w₂ t src dst a = T.refuses w t src dst a) (hextra : 0 ≤ extra t)
    (hcov : src = router → a ≤ w.bal t src) :
    (∀ w', w.pay T t src dst a = some w' →
      ∃ w₂', w₂.pay T t src dst a = some w₂' ∧ Dusted router extra w' w₂') ∧
    (w.pay T t src dst a = none → w₂.pay T t src dst a = none) := by
  have hle : a ≤ w₂.bal t src ↔ a ≤ w.bal t src := by
    rw [hw.bal]
    by_cases hsrc : src = router
    · have := hcov hsrc
      rw [if_pos hsrc]
      omega
    · rw [if_neg hsrc, add_zero]
  have hiff : (∃ w₂', w₂.pay T t src dst a = some w₂') ↔ ∃ w', w.pay T t src dst a = some w' := by
    rw [World.exists_pay_iff, World.exists_pay_iff, htok, href, hle]
  constructor
  · intro w' hpay
    obtain ⟨w₂', hpay₂⟩ := hiff.mpr ⟨w', hpay⟩
    refine ⟨w₂', hpay₂, ?_, fun t' x' => ?_⟩
    · rw [World.rest_pay hpay, World.rest_pay hpay₂, hw.rest]
    · rw [World.bal_pay hpay, World.bal_pay hpay₂, hw.bal]
      omega
  · intro hpay
    cases hpay₂ : w₂.pay T t src dst a with
    | none => rfl
    | some w₂' =>
      obtain ⟨w', hpay'⟩ := hiff.mp ⟨w₂', hpay₂⟩
      rw [hpay] at hpay'
      cases hpay'

theorem relates_requireAuth (hR : Alike router extra s s₂) (a : Address) :
    Exec.Relates (Alike router extra) Eq (requireAuth c a : Call σ Unit) (requireAuth c a) s
      s₂ := by
  unfold requireAuth
  split
  · exact Exec.relates_pure hR rfl
  · exact Exec.relates_trap hR Eq

theorem relates_write (hR : Alike router extra s s₂) (k : DataKey) (f : Store → Store) :
    Exec.Relates (Alike router extra) Eq (write k f : Call σ Unit) (write k f) s s₂ := by
  refine Exec.relates_modify ?_
  rw [hR.store]
  exact hR.snoc _ hR.world rfl

theorem relates_touch (hR : Alike router extra s s₂) (f : Store → Store) :
    Exec.Relates (Alike router extra) Eq (touch f : Call σ Unit) (touch f) s s₂ := by
  refine Exec.relates_modify ⟨?_, hR.world, hR.log⟩
  rw [hR.store]

theorem relates_publish (hR : Alike router extra s s₂) (e : RouterEvent) :
    Exec.Relates (Alike router extra) Eq (publish e : Call σ Unit) (publish e) s s₂ := by
  refine Exec.relates_modify ?_
  rw [hR.store]
  exact hR.snoc _ hR.world rfl

/-- What is read of a balance differs by the extra. -/
theorem relates_balance (hblind : Blind h router) (hextra : ∀ t, 0 ≤ extra t)
    (hR : Alike router extra s s₂) (t x : Address) :
    Exec.Relates (Alike router extra) (fun b b₂ => b₂ = b + if x = router then extra t else 0)
      (balance h.toTokens t x : Call σ Int) (balance h.toTokens t x) s s₂ := by
  unfold Exec.Relates balance
  rw [hblind.isToken hextra hR.world]
  by_cases ht : h.isToken s.world t = true
  · rw [if_pos ht, if_pos ht]
    refine ⟨.ok ?_, hR⟩
    exact hR.world.bal t x
  · rw [if_neg ht, if_neg ht]
    exact ⟨.trap, hR⟩

theorem relates_transfer (hblind : Blind h router) (hextra : ∀ t, 0 ≤ extra t)
    (hR : Alike router extra s s₂) {t src dst : Address} {a : Int}
    (hcov : src = router → a ≤ s.world.bal t src) :
    Exec.Relates (Alike router extra) Eq (transfer h.toTokens c t src dst a : Call σ Unit)
      (transfer h.toTokens c t src dst a) s s₂ := by
  have hpay := hR.world.pay (hblind.isToken hextra hR.world t)
    (hblind.refuses hextra hR.world t src dst a) (hextra t) hcov
  unfold Exec.Relates transfer
  split
  · cases hw : s.world.pay h.toTokens t src dst a with
    | none =>
      rw [hpay.2 hw]
      exact ⟨.trap, hR⟩
    | some w =>
      obtain ⟨w₂, hw₂, hdust⟩ := hpay.1 w hw
      rw [hw₂]
      refine ⟨.ok rfl, ?_⟩
      rw [hR.store]
      exact hR.snoc _ hdust rfl
  · exact ⟨.trap, hR⟩

theorem relates_trySwap (hblind : Blind h c.self) (hextra : ∀ t, 0 ≤ extra t)
    (hR : Alike c.self extra s s₂) (adapter : Address) (args : AdapterArgs) :
    Exec.Relates (Alike c.self extra) Eq (trySwap h c adapter args) (trySwap h c adapter args)
      s s₂ := by
  have hcall : (∀ r w, callAdapter h c adapter args s.world = .ok (r, w) →
        ∃ w₂, callAdapter h c adapter args s₂.world = .ok (r, w₂) ∧ Dusted c.self extra w w₂) ∧
      ∀ r w₂, callAdapter h c adapter args s₂.world = .ok (r, w₂) →
        ∃ w, callAdapter h c adapter args s.world = .ok (r, w) := by
    unfold callAdapter
    by_cases hself : adapter = c.self
    · simp [hself]
    · rw [if_neg hself, if_neg hself]
      exact hblind.adapterSwap hextra hR.world adapter args hself
  unfold Exec.Relates trySwap
  rw [hR.store]
  cases hrun : callAdapter h c adapter args s.world with
  | ok rw =>
    obtain ⟨r, w⟩ := rw
    obtain ⟨w₂, hrun₂, hdust⟩ := hcall.1 r w hrun
    rw [hrun₂]
    exact ⟨.ok rfl, hR.snoc _ hdust rfl⟩
  | error fault =>
    cases hrun₂ : callAdapter h c adapter args s₂.world with
    | ok rw =>
      obtain ⟨r, w₂⟩ := rw
      obtain ⟨w, hok⟩ := hcall.2 r w₂ hrun₂
      rw [hrun] at hok
      cases hok
    | error fault₂ => exact ⟨.err _, hR.snoc _ hR.world rfl⟩

end Ops

/-! ## 3. The swap -/

section Swap

variable {h : Host σ} {c : Ctx} {s s₂ : State σ} {p : SwapParams}

theorem relates_readAdmin (hR : Alike router extra s s₂) :
    Exec.Relates (Alike router extra) Eq readAdmin readAdmin s s₂ := by
  refine (Exec.relates_gets (V := Eq) hR (by rw [hR.store])).bind fun _ s' _ s₂' _ _ hv hR' => ?_
  obtain rfl := hv
  exact Exec.relates_okOr hR' _ _

theorem relates_checkRegistered (hR : Alike router extra s s₂) (pre : Option SwapStep) :
    Exec.Relates (Alike router extra) Eq (checkRegistered pre) (checkRegistered pre) s s₂ := by
  refine (Exec.relates_okOr hR pre _).bind fun step s₁ _ s₃ _ _ hv hR₁ => ?_
  obtain rfl := hv
  refine (Exec.relates_gets (V := Eq) hR₁ (by rw [hR₁.store])).bind
    fun _ s₄ _ s₅ _ _ hv hR₄ => ?_
  obtain rfl := hv
  exact Exec.relates_failIf hR₄ Iff.rfl _

/-- The guards read no balance of the router, and what they read is the same. -/
theorem relates_checkSwap (hblind : Blind h c.self) (hextra : ∀ t, 0 ≤ extra t)
    (hR : Alike c.self extra s s₂) :
    Exec.Relates (Alike c.self extra) Eq (checkSwap h c p) (checkSwap h c p) s s₂ := by
  refine (relates_readAdmin hR).bind fun _ _ _ _ _ _ _ hR => ?_
  refine (Exec.relates_gets (V := Eq) hR (by rw [hR.store])).bind
    fun _ _ _ _ _ _ hpaused hR => ?_
  obtain rfl := hpaused
  refine (Exec.relates_failIf hR Iff.rfl _).bind fun _ _ _ _ _ _ _ hR => ?_
  refine (relates_requireAuth hR p.trader).bind fun _ _ _ _ hauth _ _ hR => ?_
  have htrader : p.trader ≠ c.self := (requireAuth_eq_ok.mp hauth).1.1
  refine (Exec.relates_failIf hR Iff.rfl _).bind fun _ _ _ _ _ _ _ hR => ?_
  refine (Exec.relates_failIf hR Iff.rfl _).bind fun _ _ _ _ _ _ _ hR => ?_
  refine (Exec.relates_failIf hR Iff.rfl _).bind fun _ _ _ _ _ _ _ hR => ?_
  refine (Exec.relates_failIf hR Iff.rfl _).bind fun _ _ _ _ _ _ _ hR => ?_
  refine (Exec.relates_failIf hR Iff.rfl _).bind fun _ _ _ _ _ _ _ hR => ?_
  refine (Exec.relates_ofExcept hR _).bind fun _ _ _ _ _ _ _ hR => ?_
  refine Exec.Relates.bind (V := Eq) ?_ fun _ _ _ _ _ _ _ hR => ?_
  · rw [registry_loop]
    refine Exec.relates_forList (I := fun _ _ _ _ => True) ?_ _ _ _ _ _ trivial hR
    intro i step steps u s s₂ _ hR
    exact ⟨relates_checkRegistered hR _, fun _ _ _ => trivial⟩
  · refine (relates_balance hblind hextra hR _ _).bind fun held _ held₂ _ _ _ hheld hR => ?_
    rw [if_neg htrader, add_zero] at hheld
    obtain rfl := hheld
    exact Exec.relates_failIf hR Iff.rfl _

/-- **One round of the hop loop**, when the router covers its input without the extra. -/
theorem relates_hop (hblind : Blind h c.self) (hextra : ∀ t, 0 ≤ extra t)
    (hR : Alike c.self extra s s₂) {trader : Address} {last executionId i : Nat}
    {step : SwapStep} {q : Progress} (hcov : q.hopAmountIn ≤ s.world.bal step.tokenIn c.self) :
    Exec.Relates (Alike c.self extra) Eq (hop h c trader last executionId i (some step) q)
      (hop h c trader last executionId i (some step) q) s s₂ := by
  refine (Exec.relates_okOr hR _ _).bind fun _ _ _ _ h₁ _ hv hR₁ => ?_
  obtain rfl := hv
  obtain ⟨hstep, rfl⟩ := Exec.okOr_eq_ok.mp h₁
  obtain rfl := Option.some.inj hstep
  refine Exec.Relates.bind (V := Eq) (Exec.relates_gets hR₁ (by rw [hR₁.store]))
    fun _ _ _ _ h₂ _ hv hR₂ => ?_
  obtain rfl := hv
  obtain ⟨-, rfl⟩ := Exec.gets_eq_ok.mp h₂
  refine (Exec.relates_okOr hR₂ _ _).bind fun adapter _ _ _ h₃ _ hv hR₃ => ?_
  obtain rfl := hv
  obtain ⟨-, rfl⟩ := Exec.okOr_eq_ok.mp h₃
  refine (relates_transfer hblind hextra hR₃ fun _ => hcov).bind fun _ _ _ _ _ _ _ hR => ?_
  refine (relates_balance hblind hextra hR _ _).bind
    fun before _ before₂ _ _ _ hbefore hR => ?_
  refine (relates_trySwap hblind hextra hR _ _).bind fun reported _ _ _ _ _ hv hR => ?_
  obtain rfl := hv
  refine (Exec.relates_failIf hR Iff.rfl _).bind fun _ _ _ _ _ _ _ hR => ?_
  refine (relates_balance hblind hextra hR _ _).bind fun after _ after₂ _ _ _ hafter hR => ?_
  -- the extra cancels
  have hdelta : after₂ - before₂ = after - before := by
    rw [hafter, hbefore, add_sub_add_right_eq_sub]
  rw [hdelta]
  refine (Exec.relates_okOr hR _ _).bind fun delivered _ _ _ _ _ hv hR => ?_
  obtain rfl := hv
  refine (Exec.relates_failIf hR Iff.rfl _).bind fun _ _ _ _ _ _ _ hR => ?_
  refine (Exec.relates_failIf hR Iff.rfl _).bind fun _ _ _ _ _ _ _ hR => ?_
  refine (relates_publish hR _).bind fun _ _ _ _ _ _ _ hR => ?_
  exact Exec.relates_pure hR rfl

theorem relates_nextNonce (hR : Alike router extra s s₂) :
    Exec.Relates (Alike router extra) Eq nextNonce nextNonce s s₂ := by
  refine Exec.Relates.bind (V := Eq) ?_ fun current _ _ _ _ _ hv hR => ?_
  · refine (relates_readAdmin hR).bind fun _ _ _ _ _ _ _ hR => ?_
    exact Exec.relates_gets hR (by rw [hR.store])
  · obtain rfl := hv
    refine (Exec.relates_okOr hR _ _).bind fun next _ _ _ _ _ hv hR => ?_
    obtain rfl := hv
    refine (relates_write hR _ _).bind fun _ _ _ _ _ _ _ hR => ?_
    exact Exec.relates_pure hR rfl

theorem relates_settle (hblind : Blind h c.self) (hextra : ∀ t, 0 ≤ extra t)
    (hR : Alike c.self extra s s₂) (had : Admitted h c p s) :
    Exec.Relates (Alike c.self extra) Eq (settle h c p) (settle h c p) s s₂ := by
  have htrader : p.trader ≠ c.self := had.authorized.1
  refine (relates_transfer hblind hextra hR fun hself => absurd hself htrader).bind
    fun _ s₁ _ _ hpull _ _ hR₁ => ?_
  obtain ⟨-, w₁, hpay, rfl⟩ := transfer_eq_ok.mp hpull
  refine (Exec.relates_okOr hR₁ _ _).bind fun last s₁ _ _ hlast _ hv hR₂ => ?_
  obtain rfl := hv
  obtain ⟨hlen, rfl⟩ := Exec.okOr_eq_ok.mp hlast
  obtain ⟨hne, rfl⟩ := checkedSub_eq_some.mp hlen
  refine (relates_nextNonce hR₂).bind fun executionId s₁ _ _ hnonce _ hv hR₃ => ?_
  obtain rfl := hv
  obtain ⟨-, -, -, rfl⟩ := nextNonce_eq_ok.mp hnonce
  refine Exec.Relates.bind (V := Eq) ?_ fun done _ _ _ _ _ hv hR => ?_
  · rw [hop_loop]
    refine Exec.relates_forList (I := fun i steps q s => Backed c (p.path.length - 1) i steps q s)
      ?_ _ _ _ _ _ ?_ hR₃
    · intro i step steps q s s₂ hI hR
      obtain ⟨b, b', ⟨rfl, -, -⟩, hle⟩ := hI.covered
      exact ⟨relates_hop hblind hextra hR (hle (by simp)), fun q' s' hok => hI.hop hok⟩
    · exact ⟨by omega, _, _, had.chained, fun _ => World.le_bal_of_pay hpay htrader.symm⟩
  · obtain rfl := hv
    refine (Exec.relates_failIf hR Iff.rfl _).bind fun _ _ _ _ _ _ _ hR => ?_
    refine (relates_publish hR _).bind fun _ _ _ _ _ _ _ hR => ?_
    refine (relates_touch hR _).bind fun _ _ _ _ _ _ _ hR => ?_
    exact Exec.relates_pure hR rfl

/-- **Stray tokens at the router cannot influence a swap.**  Where the router holds any extra,
the same call ends the same way, with the same operations and events and the same storage; every
other holder's balances are the same, and the router's differ by exactly the extra. -/
theorem swap_ignores_dust (hblind : Blind h c.self) (hextra : ∀ t, 0 ≤ extra t)
    (hR : Alike c.self extra s s₂) :
    (swap h c p s₂).1 = (swap h c p s).1 ∧
      Alike c.self extra (swap h c p s).2 (swap h c p s₂).2 ∧
      eventsOf (swap h c p s₂).2.log = eventsOf (swap h c p s).2.log ∧
      (∀ t x, x ≠ c.self →
        (swap h c p s₂).2.world.bal t x = (swap h c p s).2.world.bal t x) ∧
      ∀ t, (swap h c p s₂).2.world.bal t c.self =
        (swap h c p s).2.world.bal t c.self + extra t := by
  have hrun : Exec.Relates (Alike c.self extra) Eq (swap h c p) (swap h c p) s s₂ := by
    refine (relates_checkSwap hblind hextra hR).bind fun _ _ _ _ hcheck _ _ hR₁ => ?_
    obtain ⟨had, rfl⟩ := checkSwap_eq_ok.mp hcheck
    exact relates_settle hblind hextra hR₁ had
  obtain ⟨hend, hR'⟩ := hrun
  refine ⟨hend.eq.symm, hR', hR'.events, fun t x hx => hR'.world.bal_of_ne hx t, fun t => ?_⟩
  rw [hR'.world.bal, if_pos rfl]

end Swap

/-! ## 4. Test adapters are blind -/

/-- A test adapter looks at its own balances only. -/
theorem testAdapter_ignores_router {T : Tokens TestAdapter.Deployments}
    (hT : ∀ t, T.Exact t) (c₀ : Ctx) (router : Address) : Blind (TestAdapter.host T c₀) router := by
  have htok : ∀ w w₂ t, T.isToken w₂ t = T.isToken w t := fun w w₂ t => by
    rw [(hT t).isToken, (hT t).isToken]
  have href : ∀ w w₂ t src dst a, T.refuses w₂ t src dst a = T.refuses w t src dst a :=
    fun w w₂ t src dst a => by rw [(hT t).accepts, (hT t).accepts]
  refine ⟨fun _ _ => htok _ _, fun _ _ => href _ _, ?_⟩
  intro extra w w₂ hextra hw adapter args hadapter
  have hpay (out : Int) :
      (∀ w', w.pay T args.tokenOut adapter args.recipient out = some w' →
        ∃ w₂', w₂.pay T args.tokenOut adapter args.recipient out = some w₂' ∧
          Dusted router extra w' w₂') ∧
      (w.pay T args.tokenOut adapter args.recipient out = none →
        w₂.pay T args.tokenOut adapter args.recipient out = none) :=
    hw.pay (htok w w₂ args.tokenOut) (href w w₂ _ adapter _ _) (hextra _)
      fun he => absurd he hadapter
  have hheld := hw.bal_of_ne hadapter args.tokenIn
  constructor
  · intro r w' hok
    obtain ⟨st, hst, hin, hle, out, hout, hp, hr⟩ := TestAdapter.invoke_eq_ok.mp hok
    obtain ⟨w₂', hp₂, hw'⟩ := (hpay out).1 w' hp
    exact ⟨w₂', TestAdapter.invoke_eq_ok.mpr ⟨st, by rw [hw.rest, hst], by rw [htok w w₂, hin],
      by rw [hheld]; exact hle, out, hout, hp₂, hr⟩, hw'⟩
  · intro r w₂' hok
    obtain ⟨st, hst, hin, hle, out, hout, hp₂, hr⟩ := TestAdapter.invoke_eq_ok.mp hok
    cases hp : w.pay T args.tokenOut adapter args.recipient out with
    | none =>
      rw [(hpay out).2 hp] at hp₂
      cases hp₂
    | some w' =>
      exact ⟨w', TestAdapter.invoke_eq_ok.mpr ⟨st, by rw [← hw.rest, hst],
        by rw [← htok w w₂, hin], by rw [← hheld]; exact hle, out, hout, hp, hr⟩⟩

section Witness

open TestAdapter.Fixture

/-- The funded deployment after somebody sent the router 7 of the route's middle token. -/
def dusty : State TestAdapter.Deployments :=
  setup [(tokenB, routerId, 7), (tokenA, trader, 10000), (tokenB, adapterId, 20000),
    (tokenC, adapterId, 20000)]

theorem alike_dusty : Alike routerId (fun t => if t = tokenB then 7 else 0) funded dusty := by
  refine ⟨rfl, ⟨rfl, fun t x => ?_⟩, rfl⟩
  simp only [World.bal, dusty, funded, setup, Ledger.minted, List.map_cons, List.sum_cons]
  by_cases ht : t = tokenB <;> by_cases hx : x = routerId <;> simp [ht, hx, eq_comm, add_comm]

theorem swap_ignores_dust_twoHops :
    (swap chain ctx twoHops dusty).1 = .ok 1500 ∧
      (swap chain ctx twoHops dusty).2.world.bal tokenB routerId =
        swapped.world.bal tokenB routerId + 7 := by
  have hblind : Blind chain routerId :=
    testAdapter_ignores_router Tokens.standard_exact ctx routerId
  obtain ⟨hend, -, -, -, hbal⟩ := swap_ignores_dust (h := chain) (c := ctx) (p := twoHops)
    hblind (fun t => by split <;> decide) alike_dusty
  have h := hbal tokenB
  rw [swap_twoHops] at hend h
  exact ⟨hend, h⟩

end Witness

end Stellariq.Router
