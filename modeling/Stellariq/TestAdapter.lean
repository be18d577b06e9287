/-
# The test adapter

`contracts/test-adapter/src/lib.rs`: the protocol adapter of the router's test suite.  It
prices a swap at a fixed rate per pool, can be told to reject a pool, and can be told to
report something else than it delivers; what it delivers is always honest.

`host` is a chain on which the contracts that can be called are test adapters: the rest of
the world is their storage.  `Fixture` is the deployment the router's tests run on (one router,
one adapter, three tokens, two pools), with the balances as a parameter.
-/
import Stellariq.Router.Contract

namespace Stellariq.TestAdapter

open Kit

/-! ## 1. Storage -/

inductive AdapterKey where
  | admin
  | rate (pool : Address)
  | fail (pool : Address)
  | misreport (pool : Address)
deriving DecidableEq, Repr

structure Store where
  admin : Option Address
  rate : Address → Option (Int × Int)
  fail : Address → Option Bool
  misreport : Address → Option Int

def Store.deployed : Store :=
  { admin := none, rate := fun _ => none, fail := fun _ => none, misreport := fun _ => none }

abbrev State (σ : Type) : Type := Running Store AdapterKey Empty Empty σ

abbrev Call (σ α : Type) : Type := Exec (State σ) AdapterError α

variable {σ : Type}

/-! ## 2. Configuration -/

def initialized : Call σ Unit := do
  let admin ← Exec.gets fun s => s.store.admin
  Exec.failIf (admin.isSome = false) .notInitialized

def requireAdmin (c : Ctx) (admin : Address) : Call σ Unit := do
  let entry ← Exec.gets fun s => s.store.admin
  let stored ← Exec.okOr entry .notInitialized
  Exec.failIf (admin ≠ stored) .notAuthorized
  requireAuth c admin

/-- `initialize`, whose name is a keyword here. -/
def initializeAdapter (admin : Address) : Call σ Unit := do
  let entry ← Exec.gets fun s => s.store.admin
  Exec.failIf (entry.isSome = true) .alreadyInitialized
  write .admin fun st => { st with admin := some admin }

def setRate (c : Ctx) (admin pool : Address) (num denom : Int) : Call σ Unit := do
  requireAdmin c admin
  Exec.failIf (num < 0 ∨ denom ≤ 0) .invalidRate
  write (.rate pool) fun st =>
    { st with rate := Function.update st.rate pool (some (num, denom)) }

def setFail (c : Ctx) (admin pool : Address) (fail : Bool) : Call σ Unit := do
  requireAdmin c admin
  write (.fail pool) fun st => { st with fail := Function.update st.fail pool (some fail) }

def setMisreport (c : Ctx) (admin pool : Address) (reported : Int) : Call σ Unit := do
  requireAdmin c admin
  write (.misreport pool) fun st =>
    { st with misreport := Function.update st.misreport pool (some reported) }

def clearMisreport (c : Ctx) (admin pool : Address) : Call σ Unit := do
  requireAdmin c admin
  write (.misreport pool) fun st =>
    { st with misreport := Function.update st.misreport pool none }

/-! ## 3. Swaps -/

/-- The rate of a pool: 1 to 1 until one is set. -/
def Store.rateOf (st : Store) (pool : Address) : Int × Int := (st.rate pool).getD (1, 1)

/-- `swap`, which leaves the minimum in its arguments to the router. -/
def swap (T : Tokens σ) (c : Ctx) (args : AdapterArgs) : Call σ Int := do
  initialized
  Exec.failIf (args.amountIn ≤ 0) .failed
  let fail ← Exec.gets fun s => (s.store.fail args.pool).getD false
  Exec.failIf (fail = true) .failed
  let held ← balance T args.tokenIn c.self
  Exec.failIf (held < args.amountIn) .failed
  let (num, denom) ← Exec.gets fun s => s.store.rateOf args.pool
  let out ← Exec.okOr (checkedMulDiv args.amountIn num denom) .failed
  transfer T c args.tokenOut c.self args.recipient out
  Exec.gets fun s => (s.store.misreport args.pool).getD out

/-- What the adapter pays for an input, if the pool accepts it. -/
def Store.quote (st : Store) (pool : Address) (amountIn : Int) : Option Int :=
  if st.admin.isSome = true ∧ 0 < amountIn ∧ (st.fail pool).getD false = false then
    checkedMulDiv amountIn (st.rateOf pool).1 (st.rateOf pool).2
  else none

/-- `set_rate` would accept every rate of the adapter. -/
structure Store.Rated (st : Store) : Prop where
  rates : ∀ pool num denom, st.rate pool = some (num, denom) → 0 ≤ num ∧ 0 < denom

/-- An initialized adapter with such rates. -/
structure Store.Valid (st : Store) : Prop extends st.Rated where
  initialized : st.admin.isSome = true

theorem requireAdmin_eq_ok {c : Ctx} {admin : Address} {s s' : State σ} {u : Unit} :
    requireAdmin c admin s = (.ok u, s') ↔
      s.store.admin = some admin ∧ c.Authorizes admin ∧ s' = s := by
  simp only [requireAdmin, Exec.bind_eq_ok, Exec.gets_eq_ok, Exec.okOr_eq_ok, Exec.failIf_eq_ok,
    requireAuth_eq_ok, ne_eq, not_not]
  constructor
  · rintro ⟨_, _, ⟨rfl, rfl⟩, _, _, ⟨hadmin, rfl⟩, _, _, ⟨rfl, rfl⟩, hauth, rfl⟩
    exact ⟨hadmin, hauth, rfl⟩
  · rintro ⟨hadmin, hauth, rfl⟩
    exact ⟨_, _, ⟨rfl, rfl⟩, admin, _, ⟨hadmin, rfl⟩, (), _, ⟨rfl, rfl⟩, hauth, rfl⟩

theorem Store.Rated.rateOf {st : Store} (hst : st.Rated) (pool : Address) :
    0 ≤ (st.rateOf pool).1 ∧ 0 < (st.rateOf pool).2 := by
  unfold Store.rateOf
  cases hrate : st.rate pool with
  | none => decide
  | some rate => exact hst.rates pool rate.1 rate.2 hrate

/-- The input times the pool's rate, rounded down. -/
def Store.output (st : Store) (pool : Address) (amountIn : Int) : Int :=
  amountIn * (st.rateOf pool).1 / (st.rateOf pool).2

theorem Store.Valid.quote_eq_some {st : Store} (hst : st.Valid) {pool : Address} {a out : Int}
    (ha : 0 < a) :
    st.quote pool a = some out ↔
      (st.fail pool).getD false = false ∧ a * (st.rateOf pool).1 ≤ I128_MAX ∧
        st.output pool a = out := by
  obtain ⟨hnum, hdenom⟩ := hst.rateOf pool
  have hdiv : checkedMulDiv a (st.rateOf pool).1 (st.rateOf pool).2 = some out ↔
      a * (st.rateOf pool).1 ≤ I128_MAX ∧ st.output pool a = out :=
    checkedMulDiv_eq_some (le_of_lt ha) hnum hdenom
  unfold Store.quote
  by_cases hfail : (st.fail pool).getD false = false
  · rw [if_pos ⟨hst.initialized, ha, hfail⟩, hdiv]
    exact ⟨fun h => ⟨hfail, h⟩, fun h => h.2⟩
  · rw [if_neg fun h => hfail h.2.2]
    exact ⟨fun h => absurd h (by simp), fun h => absurd h.1 hfail⟩

/-- **A swap, exactly**: the quoted amount goes from the adapter to the recipient, and the
report is the quote unless the pool misreports. -/
theorem swap_eq_ok {T : Tokens σ} {c : Ctx} {args : AdapterArgs} {s s' : State σ} {r : Int} :
    swap T c args s = (.ok r, s') ↔
      T.isToken s.world args.tokenIn = true ∧
        args.amountIn ≤ s.world.bal args.tokenIn c.self ∧
        ∃ out w, s.store.quote args.pool args.amountIn = some out ∧
          s.world.pay T args.tokenOut c.self args.recipient out = some w ∧
          r = (s.store.misreport args.pool).getD out ∧
          s' = { s with
            world := w
            log := s.log ++ [.transfer args.tokenOut c.self args.recipient out] } := by
  simp only [swap, initialized, Exec.bind_eq_ok, Exec.gets_eq_ok, Exec.failIf_eq_ok,
    balance_eq_ok, Exec.okOr_eq_ok, transfer_eq_ok, true_or, true_and, and_assoc,
    exists_and_left, exists_const, exists_eq_left, exists_eq_left', Store.quote]
  constructor
  · rintro ⟨hadm, hin, hfail, htok, hheld, out, hout, _, ⟨w, hpay, rfl⟩, rfl, rfl⟩
    refine ⟨htok, not_lt.mp hheld, out, ?_, w, hpay, rfl, rfl⟩
    rw [if_pos ⟨by rwa [Bool.not_eq_false] at hadm, not_le.mp hin, by simpa using hfail⟩]
    exact hout
  · rintro ⟨htok, hheld, out, hout, w, hpay, rfl, rfl⟩
    split at hout
    · rename_i h
      exact ⟨by simp [h.1], not_le.mpr h.2.1, by simp [h.2.2], htok,
        not_lt.mpr hheld, out, hout, _, ⟨w, hpay, rfl⟩, rfl, rfl⟩
    · cases hout

/-! ## 4. A chain of test adapters -/

/-- Which addresses have a test adapter, and its storage. -/
abbrev Deployments : Type := Address → Option Store

/-- The circumstances of a call that the contract of `c` makes to `callee`. -/
def calleeCtx (c : Ctx) (callee : Address) : Ctx :=
  { c with self := callee, auths := fun a => decide (a = c.self) }

/-- A call of the adapter at an address, from the contract of `c`. -/
def invoke (T : Tokens Deployments) (c : Ctx) : AdapterSwap Deployments :=
  fun adapter args w =>
    match w.rest adapter with
    | none => .error .invoke
    | some st =>
      match swap T (calleeCtx c adapter) args ⟨st, w, []⟩ with
      | (.ok r, s') =>
        .ok (r, { s'.world with rest := Function.update s'.world.rest adapter (some s'.store) })
      | (.err e, _) => .error (.contract e)
      | (.trap, _) => .error .invoke

def host (T : Tokens Deployments) (c : Ctx) : Router.Host Deployments :=
  { T with adapterSwap := invoke T c }

/-- **What the router sees of a test adapter**: a payment out of the adapter's own balance,
and nothing else. -/
theorem invoke_eq_ok {T : Tokens Deployments} {c : Ctx} {adapter : Address}
    {args : AdapterArgs} {w w' : World Deployments} {r : Int} :
    invoke T c adapter args w = .ok (r, w') ↔
      ∃ st, w.rest adapter = some st ∧ T.isToken w args.tokenIn = true ∧
        args.amountIn ≤ w.bal args.tokenIn adapter ∧
        ∃ out, st.quote args.pool args.amountIn = some out ∧
          w.pay T args.tokenOut adapter args.recipient out = some w' ∧
          r = (st.misreport args.pool).getD out := by
  unfold invoke
  cases hst : w.rest adapter with
  | none => simp
  | some st =>
    simp only [Option.some.injEq, exists_eq_left']
    -- the adapter writes none of its storage
    have hsame : ∀ w₁, w₁.rest = w.rest →
        ({ w₁ with rest := Function.update w₁.rest adapter (some st) } : World Deployments)
          = w₁ := by
      intro w₁ hw
      rw [hw, ← hst, Function.update_eq_self, ← hw]
    rcases hrun : swap T (calleeCtx c adapter) args ⟨st, w, []⟩ with ⟨r' | e | _, s'⟩
    · obtain ⟨htok, hheld, out, w₁, hout, hpay, rfl, rfl⟩ := swap_eq_ok.mp hrun
      simp only [Except.ok.injEq, Prod.mk.injEq, hsame w₁ (World.rest_pay hpay)]
      constructor
      · rintro ⟨rfl, rfl⟩
        exact ⟨htok, hheld, out, hout, hpay, rfl⟩
      · rintro ⟨-, -, out', hout', hpay', rfl⟩
        obtain rfl : out = out' := Option.some.inj (hout.symm.trans hout')
        exact ⟨rfl, Option.some.inj (hpay.symm.trans hpay')⟩
    all_goals
      simp only [reduceCtorEq, false_iff]
      rintro ⟨htok, hheld, out, hout, hpay, rfl⟩
      rw [swap_eq_ok.mpr ⟨htok, hheld, out, w', hout, hpay, rfl, rfl⟩] at hrun
      cases hrun

/-- A test adapter credits the recipient, and touches nobody else but itself. -/
theorem invoke_bal {T : Tokens Deployments} {c : Ctx} {adapter : Address}
    {args : AdapterArgs} {w w' : World Deployments} {r : Int}
    (hcall : invoke T c adapter args w = .ok (r, w')) :
    ∃ out, 0 ≤ out ∧ ∀ y, y ≠ adapter → ∀ t,
      w'.bal t y = w.bal t y + Ledger.point args.tokenOut args.recipient out t y := by
  obtain ⟨_, _, _, _, out, _, hpay, _⟩ := invoke_eq_ok.mp hcall
  refine ⟨out, World.nonneg_of_pay hpay, ?_⟩
  intro y hy t
  rw [World.bal_pay hpay, Ledger.point_of_holder_ne hy, sub_zero]

/-! ## 5. The deployment of the router's tests -/

namespace Fixture

def admin : Address := ⟨1⟩
def trader : Address := ⟨2⟩
def routerId : Address := ⟨3⟩
def adapterId : Address := ⟨4⟩
def tokenA : Address := ⟨5⟩
def tokenB : Address := ⟨6⟩
def tokenC : Address := ⟨7⟩
def pool : Address := ⟨8⟩
def pool2 : Address := ⟨9⟩

def DEADLINE : Nat := 1000000

/-- A call of the router at time 1000 that the trader and the admin have authorized. -/
def ctx : Ctx :=
  { self := routerId, auths := fun a => decide (a = trader ∨ a = admin), timestamp := 1000,
    sequence := 1, freshUntil := 4096, uploaded := fun _ => false }

/-- The adapter, initialized, with the rate 3 to 2 on `pool`. -/
def adapters : Deployments := fun a =>
  if a = adapterId then
    some { Store.deployed with
      admin := some admin
      rate := Function.update Store.deployed.rate pool (some (3, 2)) }
  else none

/-- The router, initialized, with the adapter registered as `test`. -/
def store : Router.Store :=
  { admin := some admin, paused := some false, nonce := some 0, instanceUntil := 10000,
    protocol := fun p => if p = ⟨"test"⟩ then some ⟨adapterId, 10000⟩ else none }

/-- The router between calls, with the minted amounts `(token, holder, amount)`. -/
def setup (minted : List (Address × Address × Nat)) : Router.State Deployments :=
  { store, world := { ledger := Ledger.minted minted, rest := adapters }, log := [] }

def chain : Router.Host Deployments := host Tokens.standard ctx

def stepOnPool (pool tokenIn tokenOut : Address) (min : Int) : SwapStep :=
  { protocol := ⟨"test"⟩, pool, tokenIn, tokenOut, amountOutMin := min }

/-- 1000 A to 1500 B on the first pool, then to C on the second. -/
def twoHops : SwapParams :=
  { trader, tokenIn := tokenA, tokenOut := tokenC, amountIn := 1000, amountOutMin := 1400,
    deadline := DEADLINE,
    path := [stepOnPool pool tokenA tokenB 1400, stepOnPool pool2 tokenB tokenC 1400] }

def funded : Router.State Deployments :=
  setup [(tokenA, trader, 10000), (tokenB, adapterId, 20000), (tokenC, adapterId, 20000)]

def swapped : Router.State Deployments := (Router.swap chain ctx twoHops funded).2

theorem swap_twoHops : Router.swap chain ctx twoHops funded = (.ok 1500, swapped) := by
  rw [swapped]
  exact Exec.eq_ok_of_fst (by decide +kernel)

end Fixture

end Stellariq.TestAdapter
