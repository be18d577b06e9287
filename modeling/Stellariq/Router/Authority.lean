/-
# Who governs the router

Every change of the admin, the pause flag and the registry is traced to the call that made it
(`Governs`): the first initialization, which nobody has to authorize and which only an
uninitialized router accepts, or a call that the admin stored at that moment authorized.  The rest
follows from that.  The router stays initialized; and an address that has been rotated away is not
the stored admin of any later state unless somebody appoints it again, so its authorization alone
changes nothing.
-/
import Stellariq.Router.Transactions

namespace Stellariq.Router

open Kit

variable {σ : Type} {h : Host σ} {c : Ctx} {self : Address}

/-! ## 1. One call -/

/-- The admin, the pause flag and the registry are the same. -/
structure SameGovernance (st st' : Store) : Prop where
  admin : st'.admin = st.admin
  paused : st'.paused = st.paused
  protocol : st'.protocol = st.protocol

/-- How the call `i` may have turned the governance of `st` into that of `st'`. -/
inductive Governs (c : Ctx) (i : Invocation) (st st' : Store) : Prop
  | none : SameGovernance st st' → Governs c i st st'
  | first {a : Address} : i = .initializeRouter a → st.admin = none → st'.admin = some a →
      st'.paused = some false → st'.protocol = st.protocol → Governs c i st st'
  | rotation {a a' : Address} : i = .setAdmin a' → st.admin = some a → c.Authorizes a →
      a' ≠ a → st'.admin = some a' → st'.paused = st.paused → st'.protocol = st.protocol →
      Governs c i st st'
  | configuration {a : Address} : ((∃ q, i = .setPaused q) ∨ (∃ p x, i = .setProtocol p x) ∨
        ∃ p, i = .removeProtocol p) →
      st.admin = some a → c.Authorizes a → st'.admin = some a → Governs c i st st'

/-- **What a call that returned has done to the governance.** -/
theorem Performs.governs {i : Invocation} {v : Value} {s s' : State σ}
    (hp : Performs h c s i v s') : Governs c i s.store s'.store := by
  cases hp with
  | initializeRouter hnone => exact .first rfl hnone rfl rfl rfl
  | setAdmin hadm hauth hne => exact .rotation rfl hadm hauth hne rfl rfl rfl
  | setPaused hadm hauth => exact .configuration (Or.inl ⟨_, rfl⟩) hadm hauth hadm
  | setProtocol hadm hauth =>
    exact .configuration (Or.inr (Or.inl ⟨_, _, rfl⟩)) hadm hauth hadm
  | removeProtocol hadm hauth =>
    exact .configuration (Or.inr (Or.inr ⟨_, rfl⟩)) hadm hauth hadm
  | upgrade => exact .none ⟨rfl, rfl, rfl⟩
  | view => exact .none ⟨rfl, rfl, rfl⟩
  | swap => exact .none ⟨rfl, rfl, rfl⟩

/-- The governance changes of a step: none, or those of one call that returned. -/
theorem step_governs {b b' : Chain Store σ} {l : RouterLabel σ} (hstep : Step self b l b') :
    SameGovernance b.store b'.store ∨
      ∃ t, l = .tx t ∧ t.outcome.isOk = true ∧ Governs t.ctx t.call b.store b'.store := by
  cases hstep with
  | returned _ _ _ hd => exact Or.inr ⟨_, rfl, rfl, (dispatch_performs hd).governs⟩
  | failed => exact Or.inl ⟨rfl, rfl, rfl⟩
  | elsewhere => exact Or.inl ⟨rfl, rfl, rfl⟩

/-- A swap or a view leaves the governance alone. -/
theorem Governs.same_of_swap_or_view {i : Invocation} {st st' : Store} (hg : Governs c i st st')
    (hi : (∃ p, i = .swap p) ∨ i.isView = true) : SameGovernance st st' := by
  cases hg with
  | none hs => exact hs
  | first he =>
    subst he
    rcases hi with ⟨p, hp⟩ | hv
    · cases hp
    · cases hv
  | rotation he =>
    subst he
    rcases hi with ⟨p, hp⟩ | hv
    · cases hp
    · cases hv
  | configuration he =>
    rcases he with ⟨q, rfl⟩ | ⟨p, x, rfl⟩ | ⟨p, rfl⟩ <;> rcases hi with ⟨p, hp⟩ | hv <;>
      first | cases hp | cases hv

/-- The step was a successful `set_protocol` or `remove_protocol` of `p`. -/
def Rewires (p : Symbol) (l : RouterLabel σ) : Prop :=
  ∃ t, l = .tx t ∧ t.outcome.isOk = true ∧
    ((∃ x, t.call = .setProtocol p x) ∨ t.call = .removeProtocol p)

theorem Store.adapterOf_setEntry_of_ne {st : Store} {p p' : Symbol} (hp : p ≠ p')
    (e : Option (Entry Address)) : (st.setEntry p' e).adapterOf p = st.adapterOf p := by
  have hentry : Function.update st.protocol p' e p = st.protocol p :=
    Function.update_of_ne hp e st.protocol
  exact congrArg (Option.map Entry.val) hentry

/-- **The adapter of a protocol** stays, unless the protocol is rewired. -/
theorem step_adapterOf {p : Symbol} {b b' : Chain Store σ} {l : RouterLabel σ}
    (hstep : Step self b l b') (hl : ¬ Rewires p l) :
    b'.store.adapterOf p = b.store.adapterOf p := by
  cases hstep with
  | failed => rfl
  | elsewhere => rfl
  | returned _ _ _ hd =>
    cases dispatch_performs hd with
    | @setProtocol _ p' =>
      refine Store.adapterOf_setEntry_of_ne (fun hp => ?_) _
      exact hl ⟨_, rfl, rfl, .inl ⟨_, by rw [hp]⟩⟩
    | @removeProtocol _ p' =>
      refine Store.adapterOf_setEntry_of_ne (fun hp => ?_) _
      exact hl ⟨_, rfl, rfl, .inr (by rw [hp])⟩
    | _ => rfl

/-! ## 2. Debits -/

/-- The transfers of a settled route leave the router's own account. -/
theorem transfersOf_routeOps {trader : Address} {executionId : Nat} :
    ∀ (steps : List SwapStep) (xs : List AdapterCall) (i : Nat),
      ∀ x ∈ transfersOf (routeOps c trader executionId i steps xs), x.2.1 = c.self
  | [], _, _ => by simp [routeOps, transfersOf]
  | _ :: _, [], _ => by simp [routeOps, transfersOf]
  | step :: steps, y :: ys, i => by
    intro x hx
    rw [routeOps, transfersOf_append, List.mem_append] at hx
    rcases hx with hx | hx
    · obtain rfl : x = (step.tokenIn, c.self, y.adapter, y.args.amountIn) := by
        simpa [hopOps, transfersOf, HostOp.transfer?] using hx
      rfl
    · exact transfersOf_routeOps steps ys (i + 1) x hx

/-- The transfers out of accounts other than `self`. -/
def debitsOfOthers (self : Address) (ops : List Op) :
    List (Address × Address × Address × Int) :=
  (transfersOf ops).filter fun x => x.2.1 ≠ self

/-- A settled swap debits the trader once. -/
theorem debitsOfOthers_swapOps {p : SwapParams} {executionId : Nat} {xs : List AdapterCall}
    {v : Int} (htrader : p.trader ≠ c.self) :
    debitsOfOthers c.self (swapOps c p executionId xs v)
      = [(p.tokenIn, p.trader, c.self, p.amountIn)] := by
  have hroute : (transfersOf (routeOps c p.trader executionId 0 p.path xs ++
      [.event (.swapExecuted (swapRecord c p executionId v))])).filter (fun x => x.2.1 ≠ c.self)
      = [] := by
    refine List.filter_eq_nil_iff.mpr ?_
    intro x hx
    rw [transfersOf_append, List.mem_append] at hx
    rcases hx with hx | hx
    · simp [transfersOf_routeOps p.path xs 0 x hx]
    · simp [transfersOf, HostOp.transfer?] at hx
  calc debitsOfOthers c.self (swapOps c p executionId xs v)
      = ((p.tokenIn, p.trader, c.self, p.amountIn) ::
          transfersOf (routeOps c p.trader executionId 0 p.path xs ++
            [.event (.swapExecuted (swapRecord c p executionId v))])).filter
          (fun x => x.2.1 ≠ c.self) := rfl
    _ = [(p.tokenIn, p.trader, c.self, p.amountIn)] := by
      rw [List.filter_cons_of_pos (by simpa using htrader), hroute]

/-- **Debits.**  A call moves tokens of nobody but the router, except for one pull of a swap that
the trader authorized. -/
theorem Performs.debits {i : Invocation} {v : Value} {b : Chain Store σ} {s' : State σ}
    (hp : Performs h c b.start i v s') :
    debitsOfOthers c.self s'.log = [] ∨
      ∃ p, i = .swap p ∧ c.Authorizes p.trader ∧
        debitsOfOthers c.self s'.log = [(p.tokenIn, p.trader, c.self, p.amountIn)] := by
  cases hp with
  | swap had _ _ hset _ =>
    exact Or.inr ⟨_, rfl, had.authorized, debitsOfOthers_swapOps had.authorized.1⟩
  | initializeRouter => exact Or.inl rfl
  | setAdmin => exact Or.inl rfl
  | setPaused => exact Or.inl rfl
  | setProtocol => exact Or.inl rfl
  | removeProtocol => exact Or.inl rfl
  | upgrade => exact Or.inl rfl
  | view => exact Or.inl rfl

theorem step_debits {b b' : Chain Store σ} {l : RouterLabel σ} (hstep : Step self b l b') :
    ∀ t, l = .tx t → debitsOfOthers self t.ops = [] ∨
      ∃ p, t.call = .swap p ∧ t.outcome.isOk = true ∧ t.ctx.Authorizes p.trader ∧
        debitsOfOthers self t.ops = [(p.tokenIn, p.trader, self, p.amountIn)] := by
  intro t ht
  cases hstep with
  | elsewhere => cases ht
  | failed =>
    cases ht
    exact Or.inl rfl
  | returned hself _ _ hd =>
    cases ht
    rw [← hself]
    rcases (dispatch_performs hd).debits with hnil | ⟨p, rfl, hauth, hone⟩
    · exact Or.inl hnil
    · exact Or.inr ⟨p, rfl, rfl, hauth, hone⟩

/-! ## 3. Whole runs -/

/-- An uninitialized router has no configuration. -/
def Unconfigured (st : Store) : Prop :=
  st.admin = none → st.paused = none ∧ st.protocol = fun _ => none

theorem Governs.unconfigured {i : Invocation} {st st' : Store} (hg : Governs c i st st')
    (h0 : Unconfigured st) : Unconfigured st' := by
  intro hnone
  cases hg with
  | none hs =>
    obtain ⟨hp, hr⟩ := h0 (hs.admin.symm.trans hnone)
    exact ⟨hs.paused.trans hp, hs.protocol.trans hr⟩
  | first _ _ hadm => rw [hadm] at hnone; cases hnone
  | rotation _ _ _ _ hadm => rw [hadm] at hnone; cases hnone
  | configuration _ _ _ hadm => rw [hadm] at hnone; cases hnone

theorem unconfigured_of_runs {b b' : Chain Store σ} {ls : List (RouterLabel σ)} {n : Nat}
    (h0 : b.store = Store.deployed n) (hrun : Runs (Step self) b ls b') :
    Unconfigured b'.store := by
  refine Runs.store_invariant (fun h c i v b s hb hd => ?_) hrun ?_
  · exact (dispatch_performs hd).governs.unconfigured hb
  · rw [h0]
    exact fun _ => ⟨rfl, rfl⟩

/-- The router never becomes uninitialized. -/
theorem initialized_of_runs {b b' : Chain Store σ} {ls : List (RouterLabel σ)}
    (hrun : Runs (Step self) b ls b') (hinit : b.store.admin.isSome = true) :
    b'.store.admin.isSome = true := by
  refine Runs.store_invariant (P := fun st => st.admin.isSome = true)
    (fun h c i v b s hb hd => ?_) hrun hinit
  cases (dispatch_performs hd).governs with
  | none hs => exact (congrArg Option.isSome hs.admin).trans hb
  | first _ _ hadm => rw [hadm]; rfl
  | rotation _ _ _ _ hadm => rw [hadm]; rfl
  | configuration _ _ _ hadm => rw [hadm]; rfl

/-- The router is initialized, and its admin is not `x`. -/
def GovernedByOther (x : Address) (st : Store) : Prop := ∃ y, st.admin = some y ∧ y ≠ x

/-- Unless `x` is appointed, it does not become the admin. -/
theorem governedByOther_of_runs {x : Address} {b b' : Chain Store σ} {ls : List (RouterLabel σ)}
    (hrun : Runs (Step self) b ls b')
    (hls : ∀ t, Label.tx t ∈ ls → t.call = .setAdmin x → t.outcome.isOk = false)
    (h0 : GovernedByOther x b.store) : GovernedByOther x b'.store := by
  induction hrun with
  | refl => exact h0
  | tail hrun hstep ih =>
    obtain ⟨y, hy, hne⟩ := ih fun t ht => hls t (List.mem_append_left _ ht)
    rcases step_governs hstep with hs | ⟨t, rfl, hok, hg⟩
    · exact ⟨y, hs.admin.trans hy, hne⟩
    · cases hg with
      | none hs => exact ⟨y, hs.admin.trans hy, hne⟩
      | first _ hnone =>
        rw [hy] at hnone
        cases hnone
      | @rotation a a' hcall _ _ _ hadm =>
        refine ⟨a', hadm, ?_⟩
        rintro rfl
        have hfail := hls t (List.mem_append_right _ (List.mem_singleton.mpr rfl)) hcall
        rw [hok] at hfail
        cases hfail
      | configuration _ hadm _ hadm' => exact ⟨y, (hadm'.trans hadm.symm).trans hy, hne⟩

/-- A step that nobody but `x` authorized changes nothing in a router that `x` does not govern. -/
theorem powerless {x : Address} {b b' : Chain Store σ} {l : RouterLabel σ}
    (hstep : Step self b l b') (hx : GovernedByOther x b.store)
    (hauth : ∀ t, l = .tx t → ∀ a, t.ctx.auths a = true → a = x) :
    SameGovernance b.store b'.store := by
  obtain ⟨y, hy, hne⟩ := hx
  -- what the admin `y` would have to authorize was not authorized
  have hno {t : _} (ht : l = .tx t) {a : Address} (ha : b.store.admin = some a) :
      ¬ t.ctx.Authorizes a := by
    rintro ⟨-, hauths⟩
    rw [hy] at ha
    obtain rfl := Option.some.inj ha
    exact hne (hauth t ht y hauths)
  rcases step_governs hstep with hs | ⟨t, rfl, -, hg⟩
  · exact hs
  · cases hg with
    | none hs => exact hs
    | first _ hnone =>
      rw [hy] at hnone
      cases hnone
    | rotation _ hadm ha => exact absurd ha (hno rfl hadm)
    | configuration _ hadm ha => exact absurd ha (hno rfl hadm)

/-- **The admin changes** at the first initialization, and then only by the admin's own hand. -/
theorem admin_of_step {b b' : Chain Store σ} {l : RouterLabel σ} (hstep : Step self b l b')
    (hne : b'.store.admin ≠ b.store.admin) :
    (∃ t a, l = .tx t ∧ t.outcome.isOk = true ∧ t.call = .initializeRouter a ∧
      b.store.admin = none ∧ b'.store.admin = some a) ∨
    ∃ t a a', l = .tx t ∧ t.outcome.isOk = true ∧ t.call = .setAdmin a' ∧
      b.store.admin = some a ∧ t.ctx.Authorizes a ∧ b'.store.admin = some a' ∧ a' ≠ a := by
  rcases step_governs hstep with hs | ⟨t, rfl, hok, hg⟩
  · exact absurd hs.admin hne
  · cases hg with
    | none hs => exact absurd hs.admin hne
    | first hcall hnone hadm => exact Or.inl ⟨t, _, rfl, hok, hcall, hnone, hadm⟩
    | rotation hcall hadm hauth hne hadm' =>
      exact Or.inr ⟨t, _, _, rfl, hok, hcall, hadm, hauth, hadm', hne⟩
    | configuration _ hadm _ hadm' => exact absurd (hadm'.trans hadm.symm) hne

/-- **The pause flag and the registry change** on the authority of the admin. -/
theorem configuration_of_step {b₀ b b' : Chain Store σ} {ls : List (RouterLabel σ)} {n : Nat}
    {l : RouterLabel σ} (h0 : b₀.store = Store.deployed n) (hrun : Runs (Step self) b₀ ls b)
    (hstep : Step self b l b')
    (hne : b'.store.paused.getD false ≠ b.store.paused.getD false ∨
      b.store.admin.isSome = true ∧ b'.store.paused ≠ b.store.paused ∨
      b'.store.protocol ≠ b.store.protocol) :
    ∃ t a, l = .tx t ∧ t.outcome.isOk = true ∧ b.store.admin = some a ∧ t.ctx.Authorizes a := by
  have hsame (hs : SameGovernance b.store b'.store) : False := by
    rcases hne with hp | ⟨-, hp⟩ | hr
    · exact hp (by rw [hs.paused])
    · exact hp hs.paused
    · exact hr hs.protocol
  rcases step_governs hstep with hs | ⟨t, rfl, hok, hg⟩
  · exact (hsame hs).elim
  · cases hg with
    | none hs => exact (hsame hs).elim
    | first _ hnone _ hp hr =>
      -- the first initialization writes the flag that an absent entry stands for
      obtain ⟨hp0, -⟩ := unconfigured_of_runs h0 hrun hnone
      rcases hne with hne | ⟨hsome, -⟩ | hne
      · rw [hp, hp0] at hne
        exact absurd rfl hne
      · rw [hnone] at hsome
        cases hsome
      · exact absurd hr hne
    | rotation _ hadm hauth => exact ⟨t, _, rfl, hok, hadm, hauth⟩
    | configuration _ hadm hauth => exact ⟨t, _, rfl, hok, hadm, hauth⟩

/-- **Only the current admin governs the router.** -/
theorem only_admin_governs {b₀ b : Chain Store σ} {ls : List (RouterLabel σ)} {n : Nat}
    (h0 : b₀.store = Store.deployed n) (hrun : Runs (Step self) b₀ ls b) :
    -- once initialized, the router stays initialized
    (∀ ls' b', Runs (Step self) b ls' b' → b.store.admin.isSome = true →
      b'.store.admin.isSome = true) ∧
    (∀ l b', Step self b l b' →
      -- the admin changes only through `set_admin`, after the first initialization
      (b'.store.admin ≠ b.store.admin →
        (∃ t a, l = .tx t ∧ t.outcome.isOk = true ∧ t.call = .initializeRouter a ∧
          b.store.admin = none ∧ b'.store.admin = some a) ∨
        ∃ t a a', l = .tx t ∧ t.outcome.isOk = true ∧ t.call = .setAdmin a' ∧
          b.store.admin = some a ∧ t.ctx.Authorizes a ∧ b'.store.admin = some a' ∧ a' ≠ a) ∧
      -- the pause flag and the registry change only with the admin's authorization
      (b'.store.paused.getD false ≠ b.store.paused.getD false ∨
          b.store.admin.isSome = true ∧ b'.store.paused ≠ b.store.paused ∨
          b'.store.protocol ≠ b.store.protocol →
        ∃ t a, l = .tx t ∧ t.outcome.isOk = true ∧ b.store.admin = some a ∧
          t.ctx.Authorizes a) ∧
      -- never in a swap or a view
      (∀ t, l = .tx t → (∃ p, t.call = .swap p) ∨ t.call.isView = true →
        SameGovernance b.store b'.store) ∧
      -- nobody but the router itself is debited, except the trader of a swap, once
      ∀ t, l = .tx t → debitsOfOthers self t.ops = [] ∨
        ∃ p, t.call = .swap p ∧ t.outcome.isOk = true ∧ t.ctx.Authorizes p.trader ∧
          debitsOfOthers self t.ops = [(p.tokenIn, p.trader, self, p.amountIn)]) ∧
    -- an admin that has been rotated away stays powerless
    ∀ x l b₁ ls₂ b₂ l' b₃, b.store.admin = some x → Step self b l b₁ →
      b₁.store.admin ≠ some x → Runs (Step self) b₁ ls₂ b₂ →
      (∀ t, Label.tx t ∈ ls₂ → t.call = .setAdmin x → t.outcome.isOk = false) →
      Step self b₂ l' b₃ → (∀ t, l' = .tx t → ∀ a, t.ctx.auths a = true → a = x) →
      SameGovernance b₂.store b₃.store := by
  refine ⟨fun ls' b' hrun' => initialized_of_runs hrun', fun l b' hstep =>
    ⟨admin_of_step hstep, configuration_of_step h0 hrun hstep, ?_, step_debits hstep⟩, ?_⟩
  · intro t ht hcall
    subst ht
    rcases step_governs hstep with hs | ⟨t', ht', -, hg⟩
    · exact hs
    · cases ht'
      exact hg.same_of_swap_or_view hcall
  · intro x l b₁ ls₂ b₂ l' b₃ hx hstep hne hrun₂ hls₂ hstep' hauth
    refine powerless hstep' (governedByOther_of_runs hrun₂ hls₂ ?_) hauth
    -- the step that took the admin away appointed somebody else
    have hinit : b₁.store.admin.isSome = true :=
      initialized_of_runs (Runs.single hstep) (by rw [hx]; rfl)
    obtain ⟨y, hy⟩ := Option.isSome_iff_exists.mp hinit
    refine ⟨y, hy, ?_⟩
    rintro rfl
    exact hne hy

namespace Handover

open TestAdapter.Fixture

/-- The admin hands the launched router over to the trader. -/
def handed : RouterLabel TestAdapter.Deployments × Chain Store TestAdapter.Deployments :=
  Launch.launched.exec dispatch chain ctx (.setAdmin trader)

/-- The new admin pauses it. -/
def paused : RouterLabel TestAdapter.Deployments × Chain Store TestAdapter.Deployments :=
  handed.2.exec dispatch chain { ctx with auths := fun a => decide (a = trader) } (.setPaused true)

/-- The old admin tries to resume it. -/
def tried : RouterLabel TestAdapter.Deployments × Chain Store TestAdapter.Deployments :=
  paused.2.exec dispatch chain { ctx with auths := fun a => decide (a = admin) } (.setPaused false)

theorem handed_step : Step routerId Launch.launched handed.1 handed.2 :=
  Chain.exec_step rfl (by decide +kernel) (by decide +kernel)

theorem paused_step : Step routerId handed.2 paused.1 paused.2 :=
  Chain.exec_step rfl (by decide +kernel) (by decide +kernel)

theorem tried_step : Step routerId paused.2 tried.1 tried.2 :=
  Chain.exec_step rfl (by decide +kernel) (by decide +kernel)

theorem paused_label : ∃ t, paused.1 = .tx t ∧ t.call = .setPaused true := by
  obtain ⟨t, ht, -, -, hcall, -⟩ : ∃ t, paused.1 = .tx t ∧ _ := Chain.exec_tx
  exact ⟨t, ht, hcall⟩

theorem tried_label : ∃ t, tried.1 = .tx t ∧ t.ctx.auths = fun a => decide (a = admin) := by
  obtain ⟨t, ht, -, hctx, -⟩ : ∃ t, tried.1 = .tx t ∧ _ := Chain.exec_tx
  exact ⟨t, ht, by rw [hctx]⟩

end Handover

/-- Launched, handed over and paused by its new admin, the router stays paused whatever its first
admin authorizes. -/
theorem only_admin_governs_launch :
    (Launch.launched.store.admin = some TestAdapter.Fixture.admin ∧
      ∀ ls' b', Runs (Step TestAdapter.Fixture.routerId) Launch.launched ls' b' →
        b'.store.admin.isSome = true) ∧
      Handover.handed.2.store.admin = some TestAdapter.Fixture.trader ∧
      Handover.paused.2.store.paused = some true ∧
      SameGovernance Handover.paused.2.store Handover.tried.2.store := by
  have hadm : Launch.launched.store.admin = some TestAdapter.Fixture.admin := by
    decide +kernel
  have hadm' : Handover.handed.2.store.admin = some TestAdapter.Fixture.trader := by
    decide +kernel
  have hpaused : Handover.paused.2.store.paused = some true := by decide +kernel
  obtain ⟨hstay, -, hpowerless⟩ := only_admin_governs rfl Launch.runs
  refine ⟨⟨hadm, fun ls' b' hrun => hstay ls' b' hrun (by rw [hadm]; rfl)⟩, hadm', hpaused, ?_⟩
  refine hpowerless TestAdapter.Fixture.admin _ _ _ _ _ _ hadm Handover.handed_step ?_
    (Runs.single Handover.paused_step) ?_ Handover.tried_step ?_
  · rw [hadm']
    decide
  · -- in between, the new admin only sets the flag
    intro t ht hcall
    obtain ⟨t', ht', hcall'⟩ := Handover.paused_label
    obtain rfl : t = t' := Label.tx.inj ((List.mem_singleton.mp ht).trans ht')
    cases hcall.symm.trans hcall'
  · intro t ht x hx
    obtain ⟨t', ht', hauths⟩ := Handover.tried_label
    obtain rfl : t = t' := Label.tx.inj (ht.symm.trans ht')
    rw [hauths] at hx
    exact of_decide_eq_true hx

end Stellariq.Router
