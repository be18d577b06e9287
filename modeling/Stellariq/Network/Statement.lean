/-
# The event logs account for every balance

What happens on the chain is booked in two event logs that know nothing of each other.  Read side by
side they are a complete statement of account:

* `statement_of_account`: of every account outside the exchanges, the balance of every token is
  what it was, plus what the two logs say, plus what came from neither contract; and the router's
  own account never shows anything of a swap;
* `statement_of_venues`: of the exchanges together the same holds with the hop records in the
  place of the swap records.

Both are the rule of statements (`Reader.accounts`), for the two readers beside each other.
-/
import Stellariq.Network.Machine
import Stellariq.Router.Containment
import Stellariq.Router.Statement
import Stellariq.Donations.Statement

namespace Stellariq.Network

open Kit

variable {σ : Type} {a : Sites} {n n' : Net σ} {ls : List (NetLabel σ)}

/-! ## 1. Conditions on the exchanges -/

/-- The adapter calls of the step were clean. -/
def NetLabel.Clean (V : Set Address) : NetLabel σ → Prop
  | .router t => ∀ x ∈ callsOf t.ops, x.Clean V
  | .donations _ | .outside _ => True

/-- Besides, they neither made nor destroyed tokens, and it was not an exchange that traded. -/
def NetLabel.CleanTrade (V : Finset Address) : NetLabel σ → Prop
  | .router t => (∀ x ∈ callsOf t.ops, x.Clean ↑V ∧ x.Conserves) ∧
      ∀ p, t.call = .swap p → p.trader ∉ V
  | .donations _ | .outside _ => True

/-! ## 2. Steps -/

/-- The reader of the donations log knows the payees. -/
def Informed (n : Net σ) (g : Nat → Option (Address × Address)) : Prop :=
  Donations.Kept n.atDonations ∧ g = n.donations.payees

theorem Informed.step {l : NetLabel σ} {g : Nat → Option (Address × Address)}
    (hg : Informed n g) (hstep : Step a n l n') :
    Informed n' (Donations.donationReader.upTo g (l.events.filterMap Sum.getRight?)) := by
  obtain ⟨hkept, rfl⟩ := hg
  refine ⟨Donations.kept_step hkept (step_atDonations hstep), ?_⟩
  cases hstep with
  | router =>
    rw [NetLabel.events, Reader.rights_inl]
    rfl
  | donations h =>
    rw [NetLabel.events, Reader.rights_inr]
    exact (Donations.step_statement h hkept).1.symm
  | outside => rfl

/-- **What a step does to an account outside the exchanges.** -/
theorem step_account {V : Set Address} {l : NetLabel σ} {g : Nat → Option (Address × Address)}
    (hg : Informed n g) (hstep : Step a n l n') (hclean : l.Clean V) {y : Address} (hy : y ∉ V)
    (t : Address) :
    n'.world.bal t y = n.world.bal t y +
      (Router.traderReader.sum Donations.donationReader).statement t y ((), g) l.events +
      l.flow t y := by
  rw [Reader.statement_sum]
  cases hstep with
  | router h =>
    have hbal := Router.step_traderStatement h hclean hy t
    rw [NetLabel.events, Reader.lefts_inl, Reader.rights_inl]
    exact hbal.trans (by simp [Reader.statement, NetLabel.flow, Net.atRouter])
  | donations h =>
    obtain ⟨hkept, rfl⟩ := hg
    have hbal := (Donations.step_statement h hkept).2 t y
    rw [NetLabel.events, Reader.lefts_inr, Reader.rights_inr]
    exact hbal.trans (by simp [Reader.statement, NetLabel.flow, Net.atDonations])
  | outside _ _ hbal =>
    exact (hbal t y).trans (by simp [NetLabel.events, Reader.statement, NetLabel.flow])

/-- **What a step does to the exchanges together.** -/
theorem step_venues {V : Finset Address} {l : NetLabel σ} {g : Nat → Option (Address × Address)}
    (hg : Informed n g) (hself : a.router ∉ V) (hstep : Step a n l n') (hclean : l.CleanTrade V)
    (t : Address) :
    ∑ y ∈ V, n'.world.bal t y = ∑ y ∈ V, n.world.bal t y +
      (Router.venueReader.sum (Donations.donationReader.group V)).statement t () ((), g) l.events +
      ∑ y ∈ V, l.flow t y := by
  rw [Reader.statement_sum, Reader.statement_group]
  cases hstep with
  | router h =>
    have hbal := Router.step_venueStatement h hself hclean.2 hclean.1 t
    rw [NetLabel.events, Reader.lefts_inl, Reader.rights_inl]
    exact hbal.trans (by simp [Reader.statement, NetLabel.flow, Net.atRouter])
  | donations h =>
    obtain ⟨hkept, rfl⟩ := hg
    have hbal := (Donations.step_statement h hkept).2 t
    rw [NetLabel.events, Reader.lefts_inr, Reader.rights_inr]
    refine (Finset.sum_congr rfl fun y _ => hbal y).trans ?_
    simp [Finset.sum_add_distrib, Reader.statement, NetLabel.flow, Net.atDonations]
  | outside _ _ hbal =>
    refine (Finset.sum_congr rfl fun y _ => hbal t y).trans ?_
    simp [Finset.sum_add_distrib, NetLabel.events, Reader.statement, NetLabel.flow]

/-! ## 3. Runs -/

theorem informed_genesis (h0 : Donations.Genesis n.atDonations) : Informed n fun _ => none :=
  ⟨⟨_, Donations.Represents.genesis h0⟩, (Donations.payees_genesis h0).symm⟩

/-- The router's account in the log of a run. -/
theorem routerLog_own {t : Address} (hrun : Runs (Step a) n ls n') :
    ∀ e ∈ routerLog ls, ∀ g, Router.traderReader.flow g e t a.router = 0 := by
  induction hrun with
  | refl => simp [routerLog, journal]
  | @tail _ _ ls l _ hl ih =>
    intro e he
    rw [routerLog, journal, List.flatMap_append, List.filterMap_append, List.mem_append] at he
    rcases he with he | he
    · exact ih e he
    · rw [List.flatMap_singleton] at he
      cases hl with
      | router h =>
        rw [NetLabel.events, Reader.lefts_inl] at he
        exact fun g => Router.step_ownStatement h e he t g
      | donations h =>
        rw [NetLabel.events, Reader.lefts_inr] at he
        cases he
      | outside => cases he

theorem account_of_runs {V : Set Address} (h0 : Donations.Genesis n.atDonations)
    (hrun : Runs (fun n l n' => Step a n l n' ∧ l.Clean V) n ls n') {y : Address} (hy : y ∉ V)
    (t : Address) : n'.world.bal t y = n.world.bal t y +
      (Router.traderReader.statement t y () (routerLog ls) +
        Donations.donationReader.statement t y (fun _ => none) (donationsLog ls)) +
      (ls.map fun l => l.flow t y).sum := by
  have hbook := (Router.traderReader.sum Donations.donationReader).accounts t y
    (fun (n : Net σ) g => Informed n g.2) NetLabel.events (fun l => l.flow t y)
    (fun n => n.world.bal t y)
    (fun n l n' g hg hl => ⟨by rw [Reader.upTo_sum]; exact hg.step hl.1,
      step_account hg hl.1 hl.2 hy t⟩)
    hrun (g := ((), fun _ => none)) (informed_genesis h0)
  rw [Reader.statement_sum] at hbook
  exact hbook.2

/-- **The event logs account for every balance.**  In every interleaving of calls of the router,
calls of the donations contract and movements from elsewhere, an account outside the exchanges has
what it had, plus what the router's log and the log of the donations contract say about it, each
read by itself, plus what came from elsewhere.  The router's own account shows nothing. -/
theorem statement_of_account {V : Set Address} (h0 : Donations.Genesis n.atDonations)
    (hrun : Runs (fun n l n' => Step a n l n' ∧ l.Clean V) n ls n') :
    (∀ t y, y ∉ V → n'.world.bal t y = n.world.bal t y +
      (Router.traderReader.statement t y () (routerLog ls) +
        Donations.donationReader.statement t y (fun _ => none) (donationsLog ls)) +
      (ls.map fun l => l.flow t y).sum) ∧
    ∀ t, Router.traderReader.statement t a.router () (routerLog ls) = 0 := by
  constructor
  · intro t y hy
    exact account_of_runs h0 hrun hy t
  · intro t
    exact Reader.statement_eq_zero _ _ _ (routerLog_own (hrun.mono fun _ _ _ h => h.1)) ()

/-- **The hop records account for the exchanges.**  When the calls neither make nor destroy tokens
and no exchange trades itself, the exchanges together have what they had, plus the inputs and minus
the outputs of the hop records, plus what they were given through the donations contract and from
elsewhere. -/
theorem statement_of_venues {V : Finset Address} (h0 : Donations.Genesis n.atDonations)
    (hself : a.router ∉ V)
    (hrun : Runs (fun n l n' => Step a n l n' ∧ l.CleanTrade V) n ls n') (t : Address) :
    ∑ y ∈ V, n'.world.bal t y = ∑ y ∈ V, n.world.bal t y +
      (Router.venueReader.statement t () () (routerLog ls) +
        ∑ y ∈ V, Donations.donationReader.statement t y (fun _ => none) (donationsLog ls)) +
      (ls.map fun l => ∑ y ∈ V, l.flow t y).sum := by
  have hbook := (Router.venueReader.sum (Donations.donationReader.group V)).accounts t ()
    (fun (n : Net σ) g => Informed n g.2) NetLabel.events (fun l => ∑ y ∈ V, l.flow t y)
    (fun n => ∑ y ∈ V, n.world.bal t y)
    (fun n l n' g hg hl => ⟨by rw [Reader.upTo_sum]; exact hg.step hl.1,
      step_venues hg hself hl.1 hl.2 t⟩)
    hrun (g := ((), fun _ => none)) (informed_genesis h0)
  rw [Reader.statement_sum, Reader.statement_group] at hbook
  exact hbook.2

/-! ## 4. Test adapters -/

/-- The step runs on test adapters, and on accounts in `V` only: it registers none outside, and
none inside trades. -/
def NetLabel.OnTestAdapters (V : Set Address) : NetLabel TestAdapter.Deployments → Prop
  | .router t => (∃ T c, t.host = TestAdapter.host T c) ∧
      (∀ p x, t.call = .setProtocol p x → x ∈ V) ∧ ∀ p, t.call = .swap p → p.trader ∉ V
  | .donations _ | .outside _ => True

/-- All registered adapters are in `V`. -/
def Registered (V : Set Address) (n : Net σ) : Prop :=
  ∀ x, x ∉ V → Router.Unregistered x n.router

theorem registered_step {V : Set Address} {n n' : Net TestAdapter.Deployments}
    {l : NetLabel TestAdapter.Deployments} (hn : Registered V n) (hstep : Step a n l n')
    (hl : l.OnTestAdapters V) : Registered V n' := by
  intro x hx
  refine Router.step_unregistered (hn x hx) (step_atRouter hstep) ?_
  cases l with
  | router t =>
    rintro ⟨-, p, hp⟩
    exact hx (hl.2.1 p x hp)
  | donations => exact id
  | outside => exact id

theorem cleanTrade_of_testAdapters {V : Finset Address} {n n' : Net TestAdapter.Deployments}
    {l : NetLabel TestAdapter.Deployments} (hself : a.router ∉ V) (hn : Registered (↑V) n)
    (hstep : Step a n l n') (hl : l.OnTestAdapters ↑V) : l.CleanTrade V := by
  cases hstep with
  | router h =>
    obtain ⟨⟨T, c, hhost⟩, -, htrader⟩ := hl
    have htrader' : ∀ p, _ = Router.Invocation.swap p → p.trader ∉ V :=
      fun p hp => by simpa using htrader p hp
    refine ⟨Router.step_testAdapters h hhost (fun p x hx => ?_) (by simpa using hself) htrader,
      htrader'⟩
    by_contra hnot
    exact hn x hnot p hx
  | donations => trivial
  | outside => trivial

/-- **On test adapters every run is clean.** -/
theorem clean_of_testAdapters {V : Finset Address} {n n' : Net TestAdapter.Deployments}
    {ls : List (NetLabel TestAdapter.Deployments)} (hself : a.router ∉ V)
    (h0 : Registered (↑V) n)
    (hrun : Runs (fun n l n' => Step a n l n' ∧ l.OnTestAdapters ↑V) n ls n') :
    Runs (fun n l n' => Step a n l n' ∧ l.CleanTrade V) n ls n' :=
  hrun.mono_of (I := Registered (↑V)) (fun _ _ _ hn hl => registered_step hn hl.1 hl.2)
    (fun _ _ _ hn hl => ⟨hl.1, cleanTrade_of_testAdapters hself hn hl.1 hl.2⟩) h0

theorem NetLabel.CleanTrade.clean {V : Finset Address} {l : NetLabel σ} (hl : l.CleanTrade V) :
    l.Clean ↑V := by
  cases l with
  | router t => exact fun x hx => (hl.1 x hx).1
  | donations => trivial
  | outside => trivial

theorem onTestAdapters_router {V : Set Address} {T : Tokens TestAdapter.Deployments} {c₀ c : Ctx}
    {i : Router.Invocation} (hset : ∀ p x, i = .setProtocol p x → x ∈ V)
    (hswap : ∀ p, i = .swap p → p.trader ∉ V) (m : Net TestAdapter.Deployments) :
    (m.exec (.router (TestAdapter.host T c₀) c i)).1.OnTestAdapters V := by
  obtain ⟨t, ht, hhost, -, rfl, -⟩ : ∃ t, (m.atRouter.exec Router.dispatch
    (TestAdapter.host T c₀) c i).1 = .tx t ∧ _ := Chain.exec_tx
  rw [Net.exec, ht]
  exact ⟨⟨T, c₀, hhost⟩, hset, hswap⟩

theorem onTestAdapters_donations {V : Set Address} {T : Tokens TestAdapter.Deployments} {c : Ctx}
    {i : Donations.Invocation} (m : Net TestAdapter.Deployments) :
    (m.exec (.donations T c i)).1.OnTestAdapters V := by
  obtain ⟨t, ht, -⟩ : ∃ t, (m.atDonations.exec Donations.dispatch T c i).1 = .tx t ∧ _ :=
    Chain.exec_tx
  rw [Net.exec, ht]
  trivial

namespace Appeal

open TestAdapter.Fixture

theorem calls_onTestAdapters : ∀ call ∈ calls, call.At sites deployed.now deployed.seq ∧
    ∀ m : Net TestAdapter.Deployments,
      (m.exec call).1.OnTestAdapters ↑({adapterId} : Finset Address) := by
  intro call hcall
  simp only [calls, List.mem_cons, List.not_mem_nil, or_false] at hcall
  rcases hcall with rfl | rfl | rfl | rfl | rfl
  · exact ⟨⟨rfl, rfl, rfl⟩, onTestAdapters_router (by simp) (by simp)⟩
  · exact ⟨⟨rfl, rfl, rfl⟩, onTestAdapters_router (by simp) (by simp)⟩
  · exact ⟨⟨rfl, rfl, rfl⟩, onTestAdapters_donations⟩
  · refine ⟨⟨rfl, rfl, rfl⟩, onTestAdapters_router (by simp) fun p hp => ?_⟩
    cases hp
    decide
  · exact ⟨⟨rfl, rfl, rfl⟩, onTestAdapters_donations⟩

theorem runs : Runs (fun n l n' => Step sites n l n' ∧
    l.OnTestAdapters ↑({adapterId} : Finset Address)) deployed log given :=
  Net.execAll_runs calls deployed calls_onTestAdapters

theorem registered : Registered (σ := TestAdapter.Deployments) ↑({adapterId} : Finset Address)
    deployed :=
  fun _ _ _ => by simp [deployed, Router.Store.adapterOf, Router.Store.deployed]

theorem clean : Runs (fun n l n' => Step sites n l n' ∧ l.CleanTrade {adapterId}) deployed log
    given :=
  clean_of_testAdapters (by decide) registered runs

end Appeal

theorem statement_of_account_appeal :
    Appeal.given.world.bal TestAdapter.Fixture.tokenC Appeal.charity = 1500 ∧
      Appeal.given.world.bal TestAdapter.Fixture.tokenC TestAdapter.Fixture.trader = 0 := by
  obtain ⟨hbal, -⟩ := statement_of_account Appeal.genesis
    (Appeal.clean.mono fun _ _ _ h => ⟨h.1, h.2.clean⟩)
  refine ⟨(hbal _ _ (by decide)).trans ?_, (hbal _ _ (by decide)).trans ?_⟩
  · decide +kernel
  · decide +kernel

theorem statement_of_venues_appeal :
    Appeal.given.world.bal TestAdapter.Fixture.tokenA TestAdapter.Fixture.adapterId = 1000 := by
  have hbal := statement_of_venues Appeal.genesis (by decide) Appeal.clean
    TestAdapter.Fixture.tokenA
  rw [Finset.sum_singleton] at hbal
  refine hbal.trans ?_
  decide +kernel

end Stellariq.Network
