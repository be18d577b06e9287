/-
# The router and the office

The router by the book.  What it stores is an admin, a switch, a register of adapters and a number
(`Office`), and what becomes of a call is one table.  For `swap` the table is as long as the route
makes it: the request, then the faults of the path step by step, the missing protocols, the funds,
and then for each hop what can go wrong with it in the world that the hops before it have left
(`trip`).  Adapters are arbitrary, so a hop's part of the table has what the adapter answered in it.

The router and the office cannot be told apart from outside (`office_equivalent`), from any storage
of the router on.  The first reason in the table decides: of two faults of a request the one that is
looked at first gives the code, and nothing that comes after it has any influence.
-/
import Stellariq.Router.Transactions
import Stellariq.Kit.Refinement

namespace Stellariq.Router

open Kit

variable {σ : Type} {h : Host σ} {c : Ctx} {self : Address}

/-! ## 1. The office -/

/-- What the router stores, as its specification sees it.  Where a ruling of the office traps
because of a token, the abort may carry a code of the token's, which is not modelled. -/
@[ext] structure Office where
  admin : Option Address
  paused : Bool
  registry : Symbol → Option Address
  nonce : Nat

/-- What the storage of the router is, lifetimes aside. -/
def Store.office (st : Store) : Office :=
  { admin := st.admin
    paused := st.paused.getD false
    registry := st.adapterOf
    nonce := st.nonce.getD 0 }

/-- What the office does about a call. -/
abbrev OfficeRuling (σ : Type) : Type :=
  Ruling Office Value RouterEvent AdapterCall σ RouterError

/-- Some steps of a route: what can go wrong with them, and otherwise the adapter calls, the world
they leave and what the last of them delivers. -/
structure Trip (σ : Type) where
  guards : List (Guard RouterError)
  calls : List AdapterCall
  world : World σ
  amount : Int

namespace Trip

/-- A trip that ends before it begins. -/
def stuck (w : World σ) (a : Int) (e : RouterError) : Trip σ :=
  { guards := [.err True e], calls := [], world := w, amount := a }

/-- One trip after another. -/
def andThen (x : Trip σ) (y : World σ → Int → Trip σ) : Trip σ :=
  let rest := y x.world x.amount
  { guards := x.guards ++ rest.guards
    calls := x.calls ++ rest.calls
    world := rest.world
    amount := rest.amount }

/-- One hop with the input `a`, through `adapter`. -/
def hop (h : Host σ) (c : Ctx) (adapter recipient : Address) (step : SwapStep) (w : World σ)
    (a : Int) : Trip σ :=
  let args : AdapterArgs :=
    ⟨step.pool, step.tokenIn, step.tokenOut, a, step.amountOutMin, recipient⟩
  let w₁ := (w.pay h.toTokens step.tokenIn c.self adapter a).getD w
  let sent : List (Guard RouterError) :=
    [.host (w.pay h.toTokens step.tokenIn c.self adapter a = none),
      .host (h.isToken w₁ step.tokenOut = false)]
  match callAdapter h c adapter args w₁ with
  | .error _ =>
    { guards := sent ++ [.err True .swapFailed], calls := [], world := w₁, amount := a }
  | .ok (reported, w') =>
    let delivered := w'.bal step.tokenOut recipient - w₁.bal step.tokenOut recipient
    { guards := sent ++
        [.err (reported ≤ 0) .swapFailed,
          .host (h.isToken w' step.tokenOut = false),
          .err (¬ (I128_MIN ≤ delivered ∧ delivered ≤ I128_MAX)) .swapFailed,
          .err (delivered < reported) .swapFailed,
          .err (delivered < step.amountOutMin) .insufficientOutput]
      calls := [⟨adapter, args, w₁.ledger, .ok reported, w'.ledger⟩]
      world := w'
      amount := delivered }

end Trip

/-- The steps one after the other; the last one delivers to `dest`, the others to the router. -/
def trip (h : Host σ) (c : Ctx) (reg : Symbol → Option Address) (dest : Address) :
    List SwapStep → World σ → Int → Trip σ
  | [], w, a => { guards := [], calls := [], world := w, amount := a }
  | step :: steps, w, a =>
    match reg step.protocol with
    | none => .stuck w a .protocolNotFound
    | some adapter =>
      (Trip.hop h c adapter (if steps = [] then dest else c.self) step w a).andThen
        (trip h c reg dest steps)

namespace Office

/-- The faults of a path from `a` to `b`. -/
def pathFaults (b : Address) : Address → List SwapStep → List (Guard RouterError)
  | a, [] => [.err (a ≠ b) .discontinuousPath]
  | a, step :: steps =>
    .err (step.tokenIn ≠ a) .discontinuousPath :: .err (step.amountOutMin < 0) .invalidMinOut ::
      pathFaults b step.tokenOut steps

/-- What is looked at before funds move. -/
def request (o : Office) (h : Host σ) (w : World σ) (c : Ctx) (p : SwapParams) :
    List (Guard RouterError) :=
  .err (o.paused = true) .paused ::
  .host (¬ c.Authorizes p.trader) ::
  .err (p.amountIn ≤ 0) .zeroAmount ::
  .err (p.amountOutMin ≤ 0) .invalidMinOut ::
  .err (p.deadline < c.timestamp) .expired ::
  .err (p.path.length = 0) .emptyPath ::
  .err (MAX_HOPS < p.path.length) .tooManyHops ::
  (pathFaults p.tokenOut p.tokenIn p.path ++
    (p.path.map (fun step => .err (o.registry step.protocol = none) .protocolNotFound) ++
      [.host (h.isToken w p.tokenIn = false),
        .err (w.bal p.tokenIn p.trader < p.amountIn) .insufficientBalance]))

def swap (o : Office) (h : Host σ) (w : World σ) (c : Ctx) (p : SwapParams) : OfficeRuling σ :=
  let pulled := w.pay h.toTokens p.tokenIn p.trader c.self p.amountIn
  let t := trip h c o.registry p.trader p.path (pulled.getD w) p.amountIn
  { guards := o.request h w c p ++
      (.host (pulled = none) :: .err (U64_MAX < o.nonce + 1) .overflow ::
        (t.guards ++ [.err (t.amount < p.amountOutMin) .insufficientOutput]))
    reply := .amount t.amount
    store := { o with nonce := o.nonce + 1 }
    world := t.world
    ops := seenOf (swapOps c p (o.nonce + 1) t.calls t.amount) }

/-- A call of an initialized router, whose admin is `a`. -/
def governed (o : Office) (w : World σ) (k : Address → OfficeRuling σ) : OfficeRuling σ :=
  match o.admin with
  | none => .answer o w [.err True .notInitialized] .unit
  | some a => k a

/-- A call of the admin `a` alone, refused by the guards `gs` too, that leaves the office `o'`. -/
def ordered (o' : Office) (w : World σ) (c : Ctx) (a : Address) (gs : List (Guard RouterError))
    (ops : List (HostOp Empty RouterEvent AdapterCall)) : OfficeRuling σ :=
  { guards := .host (¬ c.Authorizes a) :: gs, reply := .unit, store := o', world := w, ops }

/-- The rule book. -/
def rule (o : Office) (h : Host σ) (w : World σ) (c : Ctx) : Invocation → OfficeRuling σ
  | .initializeRouter admin =>
    { guards := [.err (o.admin.isSome = true) .alreadyInitialized]
      reply := .unit
      store := { o with admin := some admin, paused := false, nonce := 0 }
      world := w
      ops := [.event (.initialized admin EVENT_SCHEMA_VERSION)] }
  | .setAdmin newAdmin => o.governed w fun a =>
    ordered { o with admin := some newAdmin } w c a [.err (newAdmin = a) .invalidAdmin]
      [.event (.adminChanged a newAdmin EVENT_SCHEMA_VERSION)]
  | .setPaused paused => o.governed w fun a =>
    ordered { o with paused } w c a [] [.event (.pauseChanged a paused EVENT_SCHEMA_VERSION)]
  | .setProtocol protocol adapter => o.governed w fun a =>
    ordered { o with registry := Function.update o.registry protocol (some adapter) } w c a []
      [.event (.protocolSet protocol adapter EVENT_SCHEMA_VERSION)]
  | .removeProtocol protocol => o.governed w fun a =>
    ordered { o with registry := Function.update o.registry protocol none } w c a
      [.err (o.registry protocol = none) .protocolNotFound]
      [.event (.protocolRemoved protocol EVENT_SCHEMA_VERSION)]
  | .upgrade wasmHash => o.governed w fun a =>
    ordered o w c a [.host (c.uploaded wasmHash = false)]
      [.event (.upgraded a wasmHash EVENT_SCHEMA_VERSION), .updateWasm wasmHash]
  | .version => .answer o w [] (.text "0.1.0")
  | .getAdmin => o.governed w fun a => .answer o w [] (.address a)
  | .isPaused => o.governed w fun _ => .answer o w [] (.bool o.paused)
  | .getProtocol protocol => o.governed w fun _ =>
    match o.registry protocol with
    | none => .answer o w [.err True .protocolNotFound] .unit
    | some adapter => .answer o w [] (.address adapter)
  | .swap p => o.governed w fun _ => o.swap h w c p

end Office

/-! ## 2. Trips -/

section Trips

variable {reg : Symbol → Option Address} {dest recipient : Address} {w w' : World σ} {a v : Int}

/-- **One round of the hop loop, by the table.** -/
theorem hop_obeys {trader adapter : Address} {last executionId i : Nat} {step : SwapStep}
    {q : Progress} {s : State σ} (hreg : s.store.adapterOf step.protocol = some adapter)
    (hrec : recipient = if i = last then trader else c.self) :
    Obeys (hop h c trader last executionId i (some step) q) s
      (Trip.hop h c adapter recipient step s.world q.hopAmountIn).guards
      ⟨q.protocols ++ [step.protocol],
        (Trip.hop h c adapter recipient step s.world q.hopAmountIn).amount⟩ := by
  have hlook : (Exec.okOr (s.store.adapterOf step.protocol) .protocolNotFound : Call σ Address) s
      = (.ok adapter, s) := Exec.okOr_eq_ok.mpr ⟨hreg, rfl⟩
  unfold hop Trip.hop
  simp only [← hrec]
  refine .bind_nil rfl (.bind_nil rfl (.bind_nil hlook ?_))
  split
  next fault hcall =>
    refine .bind_cons (ends_transfer (.inl rfl)) ?_
    intro _
    refine .bind_cons (ends_balance h.toTokens _ _ _) ?_
    intro _
    refine .bind_stopped ?_ rfl
    simp only [trySwap, hcall]
    rfl
  next reported w' hcall =>
    refine .bind_cons (ends_transfer (.inl rfl)) ?_
    intro _
    refine .bind_cons (ends_balance h.toTokens _ _ _) ?_
    intro _
    refine .bind_nil (trySwap_eq_ok.mpr ⟨w', hcall, rfl⟩) ?_
    refine .bind_cons (ends_failIf .rfl _ _) ?_
    intro _
    refine .bind_cons (ends_balance h.toTokens _ _ _) ?_
    intro _
    refine .bind_cons (ends_okOr (checkedI128_if _) _ _) ?_
    intro _
    refine .bind_cons (ends_failIf .rfl _ _) ?_
    intro _
    refine .bind_cons (ends_failIf .rfl _ _) ?_
    intro _
    rfl

/-- A hop that settles is the trip of one hop. -/
theorem HopSettles.trip {step : SwapStep} {x : AdapterCall}
    (hx : HopSettles h c reg recipient step w a x w') :
    (Trip.hop h c x.adapter recipient step w a).calls = [x] ∧
      (Trip.hop h c x.adapter recipient step w a).world = w' ∧
      (Trip.hop h c x.adapter recipient step w a).amount = x.delivered := by
  obtain ⟨w₁, r, hpay, hbefore, -, hcall, hreport, -, -⟩ := hx.called
  have hargs := hx.args
  have hafter := hx.after
  rcases x with ⟨adapter, args, before, report, after⟩
  simp only at hpay hbefore hcall hreport hargs hafter
  subst hargs hbefore hreport hafter
  have hgot : (w.pay h.toTokens step.tokenIn c.self adapter a).getD w = w₁ := by
    rw [hpay, Option.getD_some]
  simp only [Trip.hop, hgot, hcall]
  exact ⟨trivial, trivial, rfl⟩

/-- **A route that settles is its trip.** -/
theorem Settles.trip {steps : List SwapStep} {xs : List AdapterCall}
    (hset : Settles h c reg dest steps w a xs w' v) :
    (Router.trip h c reg dest steps w a).calls = xs ∧
      (Router.trip h c reg dest steps w a).world = w' ∧
      (Router.trip h c reg dest steps w a).amount = v := by
  induction hset with
  | nil => exact ⟨rfl, rfl, rfl⟩
  | cons hx _ ih =>
    obtain ⟨hcalls, hworld, hamount⟩ := hx.trip
    obtain ⟨hcalls', hworld', hamount'⟩ := ih
    simp only [Router.trip, hx.registered, Trip.andThen, hcalls, hworld, hamount]
    exact ⟨congrArg _ hcalls', hworld', hamount'⟩

theorem hop_ends {trader adapter : Address} {last executionId i : Nat} {step : SwapStep}
    {q : Progress} {s : State σ} (hreg : s.store.adapterOf step.protocol = some adapter)
    (hrec : recipient = if i = last then trader else c.self) :
    Ends (hop h c trader last executionId i (some step) q) s
      (Trip.hop h c adapter recipient step s.world q.hopAmountIn).guards
      ⟨q.protocols ++ [step.protocol],
        (Trip.hop h c adapter recipient step s.world q.hopAmountIn).amount⟩
      { s with
        world := (Trip.hop h c adapter recipient step s.world q.hopAmountIn).world
        log := s.log ++ (Trip.hop h c adapter recipient step s.world q.hopAmountIn).calls.flatMap
          (hopOps c trader executionId i step) } := by
  refine ⟨hop_obeys hreg hrec, ?_⟩
  intro q' s' hok
  obtain ⟨x, w', hx, -, rfl⟩ := hop_eq_ok.mp hok
  rw [← hrec] at hx
  obtain rfl : adapter = x.adapter := Option.some.inj (hreg.symm.trans hx.registered)
  obtain ⟨hcalls, hworld, -⟩ := hx.trip
  rw [hcalls, hworld, List.flatMap_singleton]

/-- **The hop loop, by the table**, along the remaining steps. -/
theorem route_obeys {trader : Address} {last executionId : Nat} :
    ∀ (steps : List SwapStep) (i : Nat) (q : Progress) (s : State σ),
      i + steps.length = last + 1 →
      Obeys (forList (fun j step q => hop h c trader last executionId j (some step) q) i steps q) s
        (trip h c s.store.adapterOf trader steps s.world q.hopAmountIn).guards
        ⟨q.protocols ++ steps.map SwapStep.protocol,
          (trip h c s.store.adapterOf trader steps s.world q.hopAmountIn).amount⟩
  | [], i, q, s, _ => by
    simp only [forList, trip, List.map_nil, List.append_nil]
    rfl
  | step :: steps, i, q, s, hi => by
    rw [List.length_cons] at hi
    have hlast : (if steps = [] then trader else c.self)
        = if i = last then trader else c.self := by
      rcases steps with _ | ⟨next, steps⟩
      · simp at hi
        simp [hi]
      · simp at hi
        rw [if_neg (by simp), if_neg (by omega)]
    cases hreg : s.store.adapterOf step.protocol with
    | none =>
      have hnone : ((Exec.okOr (s.store.adapterOf step.protocol) .protocolNotFound :
          Call σ Address) s).1 = (Guard.err True RouterError.protocolNotFound).outcome := by
        rw [hreg]
        rfl
      have hstop : Obeys (hop h c trader last executionId i (some step) q) s
          [.err True .protocolNotFound] q :=
        .bind_nil rfl (.bind_nil rfl (.bind_stopped hnone rfl))
      simp only [forList, trip, hreg]
      exact hstop.bind_refused (by simp [Clear, Guard.err])
    | some adapter =>
      have hrest : ∀ q' s', Obeys
          (forList (fun j step q => hop h c trader last executionId j (some step) q) (i + 1) steps
            q') s' _ _ := fun q' s' => route_obeys steps (i + 1) q' s' (by omega)
      simp only [forList, trip, hreg, Trip.andThen]
      refine .bind (hop_ends hreg hlast) ?_
      intro _
      rw [List.map_cons, List.append_cons q.protocols step.protocol (steps.map SwapStep.protocol)]
      exact hrest _ _

theorem route_ends {trader : Address} {last executionId : Nat} {path : List SwapStep}
    {q : Progress} {s : State σ} (hlast : path.length = last + 1) :
    Ends (forRange (fun i q => hop h c trader last executionId i path[i]? q) 0 path.length q) s
      (trip h c s.store.adapterOf trader path s.world q.hopAmountIn).guards
      ⟨q.protocols ++ path.map SwapStep.protocol,
        (trip h c s.store.adapterOf trader path s.world q.hopAmountIn).amount⟩
      { s with
        world := (trip h c s.store.adapterOf trader path s.world q.hopAmountIn).world
        log := s.log ++ routeOps c trader executionId 0 path
          (trip h c s.store.adapterOf trader path s.world q.hopAmountIn).calls } := by
  have hlen : 0 + path.length = last + 1 := by omega
  rw [hop_loop]
  refine ⟨route_obeys path 0 q s hlen, ?_⟩
  intro q' s' hok
  obtain ⟨xs, w', v, hset, -, rfl⟩ := (forList_hop path 0 q q' s s' hlen).mp hok
  obtain ⟨hcalls, hworld, -⟩ := hset.trip
  rw [hcalls, hworld]

end Trips

/-! ## 3. Swaps -/

section Swaps

variable {s : State σ} {p : SwapParams}

/-- **`validate_path`, by the table.** -/
theorem pathFaults_obeys {b : Address} : ∀ (steps : List SwapStep) (i : Nat) (a : Address),
    Obeys (Exec.ofExcept (do
        let cursor ← forList (fun _ step cursor => validateStep (some step) cursor) i steps a
        if cursor ≠ b then .error .discontinuousPath else .ok ())) s
      (Office.pathFaults b a steps) ()
  | [], i, a => by
    by_cases h : a = b
    · simp [forList, h, Obeys, Office.pathFaults, Exec.ofExcept, verdict, Guard.err, pure,
        Except.pure, bind, Except.bind, Exec.pure]
    · simp [forList, h, Obeys, Office.pathFaults, Exec.ofExcept, verdict, Guard.err, pure,
        Except.pure, bind, Except.bind, Exec.fail, Guard.outcome]
  | step :: steps, i, a => by
    rw [Obeys, Office.pathFaults, verdict_cons, verdict_cons]
    by_cases h1 : step.tokenIn = a
    · by_cases h2 : step.amountOutMin < 0
      · simp [forList, validateStep, h1, h2, Exec.ofExcept, Guard.err, bind, Except.bind, Exec.fail,
          Guard.outcome]
      · have hrest := pathFaults_obeys (b := b) steps (i + 1) step.tokenOut
        simpa [forList, validateStep, h1, h2, Guard.err, bind, Except.bind, Obeys] using hrest
    · simp [forList, validateStep, h1, Exec.ofExcept, Guard.err, bind, Except.bind, Exec.fail,
        Guard.outcome]

theorem validatePath_ends (a b : Address) (path : List SwapStep) :
    Ends (Exec.ofExcept (validatePath a b path)) s (Office.pathFaults b a path) () s := by
  refine ⟨?_, ?_⟩
  · rw [validatePath, validate_loop]
    exact pathFaults_obeys path 0 a
  · intro _ _ hok
    exact (Exec.ofExcept_eq_ok.mp hok).2

theorem checkRegistered_ends (step : SwapStep) :
    Ends (checkRegistered (some step)) s
      [.err (s.store.adapterOf step.protocol = none) .protocolNotFound] () s := by
  refine ⟨.bind_nil rfl (.bind_nil rfl (ends_failIf (by simp) _ s).obeys), ?_⟩
  intro _ _ hok
  exact (checkRegistered_eq_ok.mp hok).2

theorem registry_ends (path : List SwapStep) :
    Ends (forRange (fun i (_ : Unit) => checkRegistered path[i]?) 0 path.length ()) s
      (path.map fun step => .err (s.store.adapterOf step.protocol = none) .protocolNotFound)
      () s := by
  rw [registry_loop]
  refine ⟨?_, ?_⟩
  · generalize 0 = i
    induction path generalizing i with
    | nil => rfl
    | cons step steps ih => exact .bind_cons (checkRegistered_ends step) fun _ => ih (i + 1)
  · intro _ _ hok
    exact ((forList_checkRegistered path 0).mp hok).2

/-- **The request, by the table.** -/
theorem checkSwap_ends {a : Address} (hadmin : s.store.admin = some a) :
    Ends (checkSwap h c p) s (s.store.office.request h s.world c p) () s := by
  refine ⟨?_, ?_⟩
  · refine .bind_nil (readAdmin_eq_ok.mpr ⟨hadmin, rfl⟩) (.bind_nil rfl ?_)
    refine .bind_cons (ends_failIf .rfl _ s) fun _ => ?_
    refine .bind_cons (ends_requireAuth c p.trader s) fun _ => ?_
    refine .bind_cons (ends_failIf .rfl _ s) fun _ => ?_
    refine .bind_cons (ends_failIf .rfl _ s) fun _ => ?_
    refine .bind_cons (ends_failIf .rfl _ s) fun _ => ?_
    refine .bind_cons (ends_failIf .rfl _ s) fun _ => ?_
    refine .bind_cons (ends_failIf .rfl _ s) fun _ => ?_
    refine .bind (validatePath_ends p.tokenIn p.tokenOut p.path) fun _ => ?_
    refine .bind (registry_ends p.path) fun _ => ?_
    refine .bind_cons (ends_balance h.toTokens p.tokenIn p.trader s) fun _ => ?_
    exact (ends_failIf .rfl _ s).obeys
  · intro _ _ hok
    exact (checkSwap_eq_ok.mp hok).2

theorem nextNonce_ends {a : Address} (hadmin : s.store.admin = some a) :
    Ends nextNonce s [.err (U64_MAX < s.store.nonce.getD 0 + 1) .overflow]
      (s.store.nonce.getD 0 + 1)
      { s with
        store := { s.store with nonce := some (s.store.nonce.getD 0 + 1) }
        log := s.log ++ [.write .nonce] } := by
  have hpeek : peekNonce s = (.ok (s.store.nonce.getD 0), s) := by
    rw [peekNonce, Exec.bind_of_ok (readAdmin_eq_ok.mpr ⟨hadmin, rfl⟩)]
    rfl
  refine ⟨.bind_nil hpeek (.bind_cons (ends_okOr (checkedU64_if _) _ s) fun _ => rfl), ?_⟩
  intro n s' hok
  obtain ⟨-, -, rfl, rfl⟩ := nextNonce_eq_ok.mp hok
  rfl

/-- **A swap, by the table.** -/
theorem swap_obeys {a : Address} (hadmin : s.store.admin = some a) :
    Obeys (returning .amount (swap h c p)) s (s.store.office.swap h s.world c p).guards
      (s.store.office.swap h s.world c p).reply := by
  refine Obeys.map (.bind (checkSwap_ends hadmin) ?_) Value.amount
  intro hcheck
  have had := (checkSwap_eq_ok.mp hcheck).1
  have hlast : checkedSub p.path.length 1 = some (p.path.length - 1) :=
    checkedSub_eq_some.mpr ⟨had.nonempty, rfl⟩
  have hlen : p.path.length = p.path.length - 1 + 1 := by
    have := had.nonempty
    omega
  refine .bind_cons (ends_transfer (.inr had.authorized)) fun _ => ?_
  refine .bind_nil (Exec.okOr_eq_ok.mpr ⟨hlast, rfl⟩) ?_
  refine .bind_cons (nextNonce_ends hadmin) fun _ => ?_
  refine .bind (route_ends hlen) fun _ => ?_
  refine .bind_cons (ends_failIf .rfl _ _) fun _ => ?_
  rfl

end Swaps

/-! ## 4. Entrypoints -/

section Entrypoints

variable {s s' : State σ}

theorem readAdmin_none (hnone : s.store.admin = none) :
    readAdmin s = (.err .notInitialized, s) := by
  have hread : (Exec.gets fun s => s.store.admin : Call σ _) s = (.ok none, s) :=
    Exec.gets_eq_ok.mpr ⟨hnone, rfl⟩
  rw [readAdmin, Exec.bind_of_ok hread]
  rfl

theorem governed_obeys {x : Call σ Value} {k : Address → OfficeRuling σ}
    (hnone : s.store.admin = none → (x s).1 = .err .notInitialized)
    (hsome : ∀ a, s.store.admin = some a → Obeys x s (k a).guards (k a).reply) :
    Obeys x s (s.store.office.governed s.world k).guards
      (s.store.office.governed s.world k).reply := by
  cases hadmin : s.store.admin with
  | none =>
    simp only [Office.governed, Store.office, hadmin]
    exact hnone hadmin
  | some a =>
    simp only [Office.governed, Store.office, hadmin]
    exact hsome a hadmin

/-- **Every call of the router ends as the office rules.** -/
theorem dispatch_obeys (i : Invocation) :
    Obeys (dispatch h c i) s (s.store.office.rule h s.world c i).guards
      (s.store.office.rule h s.world c i).reply := by
  have hfail : ∀ {α β : Type} {k : Address → Call σ α} {k' : α → Call σ β},
      s.store.admin = none → (((readAdmin >>= k) >>= k') s).1 = .err .notInitialized := by
    intro α β k k' hnone
    exact congrArg Prod.fst (Exec.bind_of_err (Exec.bind_of_err (readAdmin_none hnone)))
  cases i with
  | initializeRouter admin =>
    refine .map (a := ()) (.bind_nil rfl ?_) fun _ => Value.unit
    exact .bind_cons (ends_failIf .rfl _ s) fun _ => rfl
  | setAdmin newAdmin =>
    refine governed_obeys hfail fun a ha => ?_
    refine .map (a := ()) (.bind_nil (readAdmin_eq_ok.mpr ⟨ha, rfl⟩) ?_) _
    refine .bind_cons (ends_requireAuth c a s) fun _ => ?_
    exact .bind_cons (ends_failIf .rfl _ s) fun _ => rfl
  | setPaused paused =>
    refine governed_obeys hfail fun a ha => ?_
    refine .map (a := ()) (.bind_nil (readAdmin_eq_ok.mpr ⟨ha, rfl⟩) ?_) _
    exact .bind_cons (ends_requireAuth c a s) fun _ => rfl
  | setProtocol protocol adapter =>
    refine governed_obeys hfail fun a ha => ?_
    refine .map (a := ()) (.bind_nil (readAdmin_eq_ok.mpr ⟨ha, rfl⟩) ?_) _
    exact .bind_cons (ends_requireAuth c a s) fun _ => rfl
  | removeProtocol protocol =>
    refine governed_obeys hfail fun a ha => ?_
    refine .map (a := ()) (.bind_nil (readAdmin_eq_ok.mpr ⟨ha, rfl⟩) ?_) _
    refine .bind_cons (ends_requireAuth c a s) fun _ => .bind_nil rfl ?_
    exact .bind_cons (ends_failIf (by simp [Store.office, Store.adapterOf]) _ s) fun _ => rfl
  | upgrade wasmHash =>
    refine governed_obeys hfail fun a ha => ?_
    refine .map (a := ()) (.bind_nil (readAdmin_eq_ok.mpr ⟨ha, rfl⟩) ?_) _
    refine .bind_cons (ends_requireAuth c a s) fun _ => .bind_nil rfl ?_
    exact (ends_updateWasm c wasmHash _).obeys
  | version => rfl
  | getAdmin =>
    refine governed_obeys (fun hnone => ?_) fun a ha => ?_
    · exact congrArg Prod.fst (Exec.bind_of_err (readAdmin_none hnone))
    · exact .bind_nil (readAdmin_eq_ok.mpr ⟨ha, rfl⟩) rfl
  | isPaused =>
    refine governed_obeys hfail fun a ha => ?_
    refine .map (a := s.store.office.paused) ?_ Value.bool
    exact .bind_nil (readAdmin_eq_ok.mpr ⟨ha, rfl⟩) rfl
  | getProtocol protocol =>
    refine governed_obeys hfail fun a ha => ?_
    cases hreg : s.store.adapterOf protocol with
    | none =>
      have hgone : Obeys (getProtocol protocol) s [.err True .protocolNotFound] a :=
        .bind_nil (readAdmin_eq_ok.mpr ⟨ha, rfl⟩)
          (.bind_nil (a := none) (Exec.gets_eq_ok.mpr ⟨hreg, rfl⟩) rfl)
      simp only [Store.office, hreg]
      exact hgone.bind_refused (by simp [Clear, Guard.err])
    | some adapter =>
      simp only [Store.office, hreg]
      refine .map (a := adapter) (.bind_nil (readAdmin_eq_ok.mpr ⟨ha, rfl⟩) ?_) Value.address
      exact .bind_nil (a := some adapter) (Exec.gets_eq_ok.mpr ⟨hreg, rfl⟩) rfl
  | swap p =>
    refine governed_obeys (fun hnone => ?_) fun a ha => swap_obeys ha
    exact congrArg Prod.fst
      (Exec.bind_of_err (Exec.bind_of_err (Exec.bind_of_err (readAdmin_none hnone))))

theorem Store.adapterOf_setEntry (st : Store) (protocol : Symbol) (e : Option (Entry Address)) :
    (st.setEntry protocol e).adapterOf
      = Function.update st.adapterOf protocol (e.map Entry.val) := by
  funext p
  by_cases h : p = protocol
  · subst h
    simp [Store.adapterOf, Store.setEntry]
  · simp [Store.adapterOf, Store.setEntry, h]

theorem Office.governed_of_some {o : Office} {a : Address} (ha : o.admin = some a) (w : World σ)
    (k : Address → OfficeRuling σ) : o.governed w k = k a := by
  rw [Office.governed, ha]

theorem Office.governed_idle {o : Office} {w : World σ} {k : Address → OfficeRuling σ}
    (hk : ∀ a, (k a).Idle o w) : (o.governed w k).Idle o w := by
  unfold Office.governed
  split
  · exact Ruling.idle_answer ..
  · exact hk _

theorem Office.view_idle (o : Office) (w : World σ) {i : Invocation} (hi : i.isView = true) :
    (o.rule h w c i).Idle o w := by
  cases i with
  | version => exact Ruling.idle_answer ..
  | getAdmin => exact governed_idle fun a => Ruling.idle_answer ..
  | isPaused => exact governed_idle fun _ => Ruling.idle_answer ..
  | getProtocol protocol =>
    refine governed_idle fun _ => ?_
    split <;> exact Ruling.idle_answer ..
  | _ => cases hi

/-- **A call that returned leaves what the office rules.** -/
theorem Performs.ruled {i : Invocation} {v : Value} (hp : Performs h c s i v s') :
    s'.store.office = (s.store.office.rule h s.world c i).store ∧
      (s.store.office.rule h s.world c i).world = s'.world ∧
      seenOf s'.log = seenOf s.log ++ (s.store.office.rule h s.world c i).ops := by
  have hgov : ∀ {a : Address} {k : Address → OfficeRuling σ}, s.store.admin = some a →
      s.store.office.governed s.world k = k a := fun ha => Office.governed_of_some ha s.world _
  cases hp with
  | initializeRouter => exact ⟨rfl, rfl, seenOf_append _ _⟩
  | setAdmin ha =>
    rw [Office.rule, hgov ha]
    exact ⟨rfl, rfl, seenOf_append _ _⟩
  | setPaused ha =>
    rw [Office.rule, hgov ha]
    exact ⟨rfl, rfl, seenOf_append _ _⟩
  | setProtocol ha =>
    rw [Office.rule, hgov ha]
    refine ⟨Office.ext rfl rfl ?_ rfl, rfl, seenOf_append _ _⟩
    exact Store.adapterOf_setEntry _ _ _
  | removeProtocol ha =>
    rw [Office.rule, hgov ha]
    refine ⟨Office.ext rfl rfl ?_ rfl, rfl, seenOf_append _ _⟩
    exact Store.adapterOf_setEntry _ _ _
  | upgrade ha =>
    rw [Office.rule, hgov ha]
    exact ⟨rfl, rfl, seenOf_append _ _⟩
  | @swap p v w₁ w' xs had _ hpay hset =>
    obtain ⟨a, ha⟩ := Option.isSome_iff_exists.mp had.initialized
    obtain ⟨hcalls, hworld, hamount⟩ := hset.trip
    rw [Office.rule, hgov ha]
    simp only [Office.swap, hpay, Option.getD_some]
    refine ⟨rfl, hworld, ?_⟩
    rw [seenOf_append]
    simp only [Store.office]
    rw [hcalls, hamount]
  | view hview =>
    obtain ⟨hstore, hworld, hops⟩ := s.store.office.view_idle (h := h) (c := c) s.world hview
    rw [hstore, hworld, hops, List.append_nil]
    exact ⟨rfl, rfl, rfl⟩

end Entrypoints

/-! ## 5. The router and the office cannot be told apart -/

/-- **The router goes by the book.** -/
theorem dispatch_follows :
    Follows (dispatch (σ := σ)) Office.rule (fun st o => st.office = o) where
  ends := by
    rintro st _ h c i w rfl
    exact dispatch_obeys (s := ⟨st, w, []⟩) i
  leaves := by
    rintro st _ h c i w v s rfl hok
    obtain ⟨hstore, hworld, hlog⟩ := (dispatch_performs hok).ruled
    exact ⟨hstore, hworld, hlog.symm⟩

/-- The steps of the office, as a contract at the address `self`. -/
abbrev OfficeStep (self : Address) : Chain Office σ →
    Label (Host σ) Invocation Value Empty RouterEvent AdapterCall RouterError → Chain Office σ →
    Prop :=
  TxStep (serveBy Office.rule) self

/-- **The router and the office cannot be told apart.**  Every call ends as the table of the office
says, with any adapters and any tokens; what can be seen of the router in any run can be seen of the
office, and the other way round. -/
theorem office_equivalent (self : Address) (b : Chain Store σ) :
    (∀ h c i, (dispatch h c i b.start).1 =
      verdict (b.store.office.rule h b.world c i).guards
        (b.store.office.rule h b.world c i).reply) ∧
    (∀ ls b', Runs (Step self) b ls b' →
      Runs (OfficeStep self) (b.holding b.store.office) (ls.map Label.seen)
        (b'.holding b'.store.office)) ∧
    ∀ ms e, Runs (OfficeStep self) (b.holding b.store.office) ms e →
      ∃ ls b', ms = ls.map Label.seen ∧ Runs (Step self) b ls b' ∧
        e = b'.holding b'.store.office := by
  refine ⟨fun h c i => dispatch_obeys (s := b.start) i, ?_, ?_⟩
  · intro ls b' hrun
    obtain ⟨o, rfl, hruns⟩ := dispatch_follows.answers.sound hrun rfl
    exact hruns
  · intro ms e hrun
    obtain ⟨ls, b', hms, hruns, hoffice, he⟩ := dispatch_follows.answers.complete hrun rfl
    rw [← hoffice] at he
    exact ⟨ls, b', hms, hruns, he⟩

end Stellariq.Router
