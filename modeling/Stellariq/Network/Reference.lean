/-
# The network of the two specifications

The office and the desk on one chain, with the same steps from elsewhere as the network of the two
contracts (`SpecStep`).  Neither contract's storage can be seen from the other or from outside, so
the two networks show the same: the same calls in the same order, with the same ends, payments,
adapter calls and events, and the same changes of balances from elsewhere, over one world at every
moment (`network_equivalent`).

A step of the network is followed in the part of the contract that was called, and the part of the
other one is as it was; the world, the time and the ledger are shared.
-/
import Stellariq.Network.Machine
import Stellariq.Donations.Desk
import Stellariq.Router.Office

namespace Stellariq.Network

open Kit

variable {σ : Type}

/-! ## 1. The other network -/

/-- The office, the desk, the world, and the time and number of the last ledger. -/
structure Spec (σ : Type) where
  office : Router.Office
  desk : Donations.Desk
  world : World σ
  now : Nat
  seq : Nat

namespace Spec

def atOffice (m : Spec σ) : Chain Router.Office σ := ⟨m.office, m.world, m.now, m.seq⟩

def atDesk (m : Spec σ) : Chain Donations.Desk σ := ⟨m.desk, m.world, m.now, m.seq⟩

/-- The network after the office's part of it became `b`. -/
def afterOffice (m : Spec σ) (b : Chain Router.Office σ) : Spec σ :=
  ⟨b.store, m.desk, b.world, b.now, b.seq⟩

/-- The network after the desk's part of it became `b`. -/
def afterDesk (m : Spec σ) (b : Chain Donations.Desk σ) : Spec σ :=
  ⟨m.office, b.store, b.world, b.now, b.seq⟩

end Spec

/-- A call without what it wrote. -/
def seenTx {H I V K E X ε : Type} (t : Tx H I V K E X ε) : Tx H I V Empty E X ε :=
  { host := t.host, ctx := t.ctx, call := t.call, outcome := t.outcome, ops := seenOf t.ops }

inductive SpecLabel (σ : Type) where
  | office (t : Tx (Router.Host σ) Router.Invocation Router.Value Empty RouterEvent
      Router.AdapterCall RouterError)
  | desk (t : Tx (Tokens σ) Donations.Invocation Donations.Value Empty Donations.DonationEvent
      Empty Donations.DonationError)
  | outside (flow : Address → Address → Int)

/-- What can be seen of a step. -/
def NetLabel.seen : NetLabel σ → SpecLabel σ
  | .router t => .office (seenTx t)
  | .donations t => .desk (seenTx t)
  | .outside flow => .outside flow

inductive SpecStep (a : Sites) : Spec σ → SpecLabel σ → Spec σ → Prop
  | office {m : Spec σ} {t} {b : Chain Router.Office σ} :
      Router.OfficeStep a.router m.atOffice (.tx t) b → SpecStep a m (.office t) (m.afterOffice b)
  | desk {m : Spec σ} {t} {b : Chain Donations.Desk σ} :
      Donations.DeskStep a.donations m.atDesk (.tx t) b → SpecStep a m (.desk t) (m.afterDesk b)
  | outside {m : Spec σ} {w : World σ} {now seq : Nat} {flow : Address → Address → Int} :
      m.now ≤ now → m.seq ≤ seq → (∀ t x, w.bal t x = m.world.bal t x + flow t x) →
      SpecStep a m (.outside flow) ⟨m.office, m.desk, w, now, seq⟩

/-! ## 2. Steps and runs -/

/-- The network with its storages replaced by what they stand for. -/
def Net.spec (n : Net σ) (d : Donations.Desk) : Spec σ :=
  ⟨n.router.office, d, n.world, n.now, n.seq⟩

/-- The network `m` of the specifications is what the network `n` stands for. -/
def Net.Shows (n : Net σ) (m : Spec σ) : Prop :=
  ∃ d, Donations.Stands n.donations d ∧ m = n.spec d

section Steps

variable {a : Sites} {n n' : Net σ} {d : Donations.Desk}

theorem Step.follow {l : NetLabel σ} (hstep : Step a n l n')
    (hst : Donations.Stands n.donations d) :
    ∃ d', Donations.Stands n'.donations d' ∧ SpecStep a (n.spec d) l.seen (n'.spec d') := by
  cases hstep with
  | router h =>
    rcases Router.dispatch_follows.answers.follow h rfl with ⟨o, rfl, hoffice⟩
    exact ⟨d, hst, .office (m := n.spec d) hoffice⟩
  | donations h =>
    rcases Donations.dispatch_follows.answers.follow h hst with ⟨d', hst', hdesk⟩
    exact ⟨d', hst', .desk (m := n.spec d) hdesk⟩
  | outside hnow hseq hflow => exact ⟨d, hst, .outside (m := n.spec d) hnow hseq hflow⟩

theorem Step.lead {k : SpecLabel σ} {m' : Spec σ} (hstep : SpecStep a (n.spec d) k m')
    (hst : Donations.Stands n.donations d) :
    ∃ l n' d', k = l.seen ∧ m' = n'.spec d' ∧ Step a n l n' ∧
      Donations.Stands n'.donations d' := by
  cases hstep with
  | office h =>
    rcases Router.dispatch_follows.answers.lead (b := n.atRouter) h rfl
      with ⟨l, b, hl, hrouter, hoffice, heq⟩
    cases l with
    | elsewhere => cases hl
    | tx t =>
      cases hl
      refine ⟨.router t, n.afterRouter b, d, rfl, ?_, .router hrouter, hst⟩
      rw [heq, ← hoffice]
      rfl
  | desk h =>
    rcases Donations.dispatch_follows.answers.lead (b := n.atDonations) h hst
      with ⟨l, b, hl, hdonations, hst', heq⟩
    cases l with
    | elsewhere => cases hl
    | tx t =>
      cases hl
      refine ⟨.donations t, n.afterDonations b, _, rfl, ?_, .donations hdonations, hst'⟩
      rw [heq]
      rfl
  | outside hnow hseq hflow =>
    exact ⟨_, _, d, rfl, rfl, .outside hnow hseq hflow, hst⟩

theorem runs_follow {ls : List (NetLabel σ)} (hrun : Runs (Step a) n ls n')
    (hst : Donations.Stands n.donations d) :
    ∃ d', Donations.Stands n'.donations d' ∧
      Runs (SpecStep a) (n.spec d) (ls.map NetLabel.seen) (n'.spec d') := by
  have hfollow : ∀ (n : Net σ) l n' m, Net.Shows n m → Step a n l n' →
      ∃ m', Net.Shows n' m' ∧ SpecStep a m l.seen m' := by
    rintro n l n' _ ⟨d, hst, rfl⟩ hstep
    rcases hstep.follow hst with ⟨d', hst', hlast⟩
    exact ⟨_, ⟨d', hst', rfl⟩, hlast⟩
  rcases hrun.simulates_steps _ _ hfollow ⟨d, hst, rfl⟩ with ⟨_, ⟨d', hst', rfl⟩, hruns⟩
  exact ⟨d', hst', hruns⟩

theorem runs_lead {ks : List (SpecLabel σ)} {m' : Spec σ}
    (hrun : Runs (SpecStep a) (n.spec d) ks m') (hst : Donations.Stands n.donations d) :
    ∃ ls n' d', ks = ls.map NetLabel.seen ∧ m' = n'.spec d' ∧ Runs (Step a) n ls n' ∧
      Donations.Stands n'.donations d' := by
  have hlead : ∀ (n : Net σ) m k m', Net.Shows n m → SpecStep a m k m' →
      ∃ l n', k = NetLabel.seen l ∧ Step a n l n' ∧ Net.Shows n' m' := by
    rintro n _ k m' ⟨d, hst, rfl⟩ hstep
    rcases Step.lead hstep hst with ⟨l, n', d', hk, rfl, hlast, hst'⟩
    exact ⟨l, n', hk, hlast, d', hst', rfl⟩
  rcases hrun.matched _ _ hlead ⟨d, hst, rfl⟩ with ⟨ls, n', hks, hruns, d', hst', rfl⟩
  exact ⟨ls, n', d', hks, rfl, hruns, hst'⟩

end Steps

/-- **The two networks show the same.**  From a deployment of the donations contract on, with any
storage of the router and any adapters and tokens, what can be seen of the network can be seen of
the network of the specifications, in the same order and over the same world, and the other way
round. -/
theorem network_equivalent {a : Sites} {n : Net σ} (h0 : Donations.Genesis n.atDonations) :
    ∃ admin, n.donations.admin = some admin ∧
      (∀ ls n', Runs (Step a) n ls n' →
        ∃ d, Donations.Stands n'.donations d ∧
          Runs (SpecStep a) (n.spec (Donations.Desk.opened admin)) (ls.map NetLabel.seen)
            (n'.spec d)) ∧
      ∀ ks m', Runs (SpecStep a) (n.spec (Donations.Desk.opened admin)) ks m' →
        ∃ ls n' d, ks = ls.map NetLabel.seen ∧ m' = n'.spec d ∧ Runs (Step a) n ls n' ∧
          Donations.Stands n'.donations d := by
  rcases Donations.Stands.genesis h0 with ⟨admin, hst⟩
  exact ⟨admin, hst.admin, fun ls n' hrun => runs_follow hrun hst,
    fun ks m' hrun => runs_lead hrun hst⟩

/-- The appeal, as the two specifications show it. -/
theorem network_equivalent_appeal :
    ∃ admin d, Runs (SpecStep Appeal.sites)
        (Appeal.deployed.spec (Donations.Desk.opened admin)) (Appeal.log.map NetLabel.seen)
        (Appeal.given.spec d) ∧
      d.book.receipts.length = 1 := by
  have hrun : Runs (Step Appeal.sites) Appeal.deployed Appeal.log Appeal.given :=
    (Net.execAll_runs (P := fun _ => True) Appeal.calls Appeal.deployed
      (by simp [Appeal.calls, NetCall.At, Appeal.deployed, Appeal.sites, Appeal.ctxDonations,
        TestAdapter.Fixture.ctx])).mono fun _ _ _ h => h.1
  have hcount : Appeal.given.donations.receiptCount = some 1 := by decide +kernel
  rcases network_equivalent Appeal.genesis with ⟨admin, -, hsound, -⟩
  rcases hsound _ _ hrun with ⟨d, hst, hruns⟩
  exact ⟨admin, d, hruns, Option.some.inj (hst.book.receiptCount.symm.trans hcount)⟩

end Stellariq.Network
