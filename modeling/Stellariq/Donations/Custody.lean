/-
# Whose money it is

A donation moves its amount from the donor to the beneficiary of the campaign, and nothing else
moves.  The contract never pays anything out, so its own balances never fall; and they rise
exactly when a donation goes to a campaign that names the contract itself as its beneficiary,
which neither `create_campaign` nor `donate` rules out.  `noncustodial_iff` says this of whole
runs, and `stranded` is such a run: what was given to the campaign stays in the contract.
-/
import Stellariq.Donations.Transactions

namespace Stellariq.Donations

open Kit

variable {σ : Type} {T : Tokens σ} {c : Ctx} {self : Address}

/-! ## 1. One step -/

/-- A step of the contract; what happens elsewhere leaves the contract's own balances alone. -/
def OwnStep (self : Address) (b : Chain Store σ) (l : DonationsLabel σ) (b' : Chain Store σ) :
    Prop :=
  Step self b l b' ∧ (l = .elsewhere → ∀ t, b'.world.bal t self = b.world.bal t self)

/-- The donor, the campaign and the amount of a donation that the contract took. -/
def donated? : DonationsLabel σ → Option (Address × Nat × Int)
  | .tx ⟨_, _, .donate donor id amount _, .ok _, _⟩ => some (donor, id, amount)
  | _ => none

/-- A donation, if there is one, goes to a campaign whose beneficiary is not the contract. -/
def Outward (self : Address) (b : Chain Store σ) (l : DonationsLabel σ) : Prop :=
  ∀ donor id amount x, donated? l = some (donor, id, amount) →
    b.store.campaignAt id = some x → x.beneficiary ≠ self

/-- A donation, if there is one, moves its amount from the donor to the beneficiary, in the token
of the campaign, and nothing else. -/
def Delivers (b : Chain Store σ) (l : DonationsLabel σ) (b' : Chain Store σ) : Prop :=
  ∀ donor id amount, donated? l = some (donor, id, amount) →
    ∃ x, b.store.campaignAt id = some x ∧ 0 < amount ∧ donor ≠ x.beneficiary ∧
      ∀ t holder, b'.world.bal t holder = b.world.bal t holder +
        Ledger.point x.token x.beneficiary amount t holder -
        Ledger.point x.token donor amount t holder

/-- **What a call does with the tokens.** -/
theorem Performs.world {i : Invocation} {v : Value} {s s' : State σ}
    (hp : Performs T c s i v s') :
    ((∀ donor id amount memo, i ≠ .donate donor id amount memo) ∧ s'.world = s.world) ∨
      ∃ donor id amount memo x, i = .donate donor id amount memo ∧
        s.store.campaignAt id = some x ∧ 0 < amount ∧ donor ≠ c.self ∧ donor ≠ x.beneficiary ∧
        s.world.pay T x.token donor x.beneficiary amount = some s'.world := by
  cases hp with
  | setPaused => exact .inl ⟨by simp, rfl⟩
  | createCampaign => exact .inl ⟨by simp, rfl⟩
  | closeCampaign => exact .inl ⟨by simp, rfl⟩
  | getCampaign => exact .inl ⟨by simp, rfl⟩
  | @donate donor id amount memo x _ _ _ hauth hamount _ hx _ _ hne hpay =>
    exact .inr ⟨donor, id, amount, memo, x, rfl, hx, hamount, hauth.1, hne, hpay⟩
  | view hi =>
    refine .inl ⟨?_, rfl⟩
    rcases hi with rfl | rfl | rfl | ⟨_, rfl⟩ | rfl | ⟨_, _, rfl⟩ <;> simp

/-- **The two kinds of steps**: those that leave the contract's balances alone, and donations. -/
theorem own_step {b b' : Chain Store σ} {l : DonationsLabel σ} (hstep : OwnStep self b l b') :
    (donated? l = none ∧ ∀ t, b'.world.bal t self = b.world.bal t self) ∨
      ∃ (T : Tokens σ) (donor : Address) (id : Nat) (amount : Int) (x : Campaign),
        donated? l = some (donor, id, amount) ∧ b.store.campaignAt id = some x ∧ 0 < amount ∧
        donor ≠ self ∧ donor ≠ x.beneficiary ∧
        b.world.pay T x.token donor x.beneficiary amount = some b'.world := by
  obtain ⟨hstep, helse⟩ := hstep
  cases hstep with
  | @returned h c i v s hself _ _ hd =>
    rcases (dispatch_performs hd).world with ⟨hi, hw⟩ | ⟨donor, id, amount, memo, x, rfl, hx, hpos,
      hdonor, hne, hpay⟩
    · refine .inl ⟨?_, fun t => by rw [hw]; rfl⟩
      cases i <;> first | rfl | exact absurd rfl (hi _ _ _ _)
    · exact .inr ⟨h, donor, id, amount, x, rfl, hx, hpos, hself ▸ hdonor, hne, hpay⟩
  | @failed h c i o _ _ _ _ ho =>
    refine .inl ⟨?_, fun _ => rfl⟩
    cases i <;> cases o <;> first | rfl | cases ho
  | elsewhere => exact .inl ⟨rfl, helse rfl⟩

theorem own_step_delivers {b b' : Chain Store σ} {l : DonationsLabel σ}
    (hstep : OwnStep self b l b') : Delivers b l b' := by
  intro donor id amount hl
  rcases own_step hstep with ⟨hnone, -⟩ | ⟨T, _, _, _, x, hl', hx, hpos, -, hne, hpay⟩
  · rw [hnone] at hl
    cases hl
  · rw [hl] at hl'
    cases hl'
    exact ⟨x, hx, hpos, hne, World.bal_pay hpay⟩

/-- The contract pays nothing out. -/
theorem own_step_le {b b' : Chain Store σ} {l : DonationsLabel σ} (hstep : OwnStep self b l b') :
    (fun t => b.world.bal t self) ≤ fun t => b'.world.bal t self := by
  intro t
  rcases own_step hstep with ⟨-, hsame⟩ | ⟨T, donor, _, _, x, -, -, -, hdonor, -, hpay⟩
  · exact (hsame t).ge
  · exact World.le_bal_pay hpay (Ne.symm hdonor) t

/-- **A step leaves the contract's balances as they are exactly when it is outward.** -/
theorem own_step_same_iff {b b' : Chain Store σ} {l : DonationsLabel σ}
    (hstep : OwnStep self b l b') :
    ((fun t => b'.world.bal t self) = fun t => b.world.bal t self) ↔ Outward self b l := by
  rcases own_step hstep with ⟨hnone, hsame⟩ | ⟨T, donor, id, amount, x, hl, hx, hpos, hdonor, hne,
    hpay⟩
  · refine ⟨fun _ donor id amount x hl => ?_, fun _ => funext hsame⟩
    rw [hnone] at hl
    cases hl
  · have hself : ∀ t, b'.world.bal t self
        = b.world.bal t self + Ledger.point x.token x.beneficiary amount t self := by
      intro t
      rw [World.bal_pay hpay, Ledger.point_of_holder_ne (Ne.symm hdonor)]
      omega
    constructor
    · intro hsame donor' id' amount' x' hl' hx' hben
      rw [hl] at hl'
      cases hl'
      rw [hx] at hx'
      cases hx'
      have hrise := hself x.token
      have hkeep := congrFun hsame x.token
      rw [hben, Ledger.point_self] at hrise
      omega
    · intro hout
      have hben : x.beneficiary ≠ self := hout donor id amount x hl hx
      funext t
      rw [hself, Ledger.point_of_holder_ne (Ne.symm hben)]
      omega

/-! ## 2. Runs -/

/-- **When the contract is non-custodial.**  Every donation it takes moves exactly its amount
from the donor to the beneficiary of the campaign; and over a run the contract's own balances are
the same as before exactly when no donation went to a campaign of the contract's own. -/
theorem noncustodial_iff {b b' : Chain Store σ} {ls : List (DonationsLabel σ)}
    (hrun : Runs (OwnStep self) b ls b') :
    Runs (fun b l b' => OwnStep self b l b' ∧ Delivers b l b') b ls b' ∧
      ((∀ t, b'.world.bal t self = b.world.bal t self) ↔
        Runs (fun b l b' => OwnStep self b l b' ∧ Outward self b l) b ls b') := by
  refine ⟨hrun.mono fun _ _ _ h => ⟨h, own_step_delivers h⟩, ?_⟩
  have hiff := hrun.unchanged_iff (f := fun b t => b.world.bal t self) fun _ _ _ => own_step_le
  constructor
  · intro hsame
    exact (hiff.mp (funext hsame)).mono fun _ _ _ h => ⟨h.1, (own_step_same_iff h.1).mp h.2⟩
  · intro hout
    exact congrFun (hiff.mpr (hout.mono fun _ _ _ h => ⟨h.1, (own_step_same_iff h.1).mpr h.2⟩))

theorem own_runs_of_calls {b b' : Chain Store σ} {ls : List (DonationsLabel σ)}
    (hrun : Runs (fun b l b' => Step self b l b' ∧ l ≠ .elsewhere) b ls b') :
    Runs (OwnStep self) b ls b' :=
  hrun.mono fun _ _ _ h => ⟨h.1, fun he => absurd he h.2⟩

/-- With the charity as the beneficiary every donation arrives; with the contract itself the run is
not outward, because of what it leaves behind. -/
theorem noncustodial_iff_drive :
    Runs (fun b l b' => OwnStep Drive.contract b l b' ∧ Delivers b l b') Drive.deployed
        (Drive.log Drive.charity) (Drive.given Drive.charity) ∧
      ¬ Runs (fun b l b' => OwnStep Drive.contract b l b' ∧ Outward Drive.contract b l)
        Drive.deployed (Drive.log Drive.contract) (Drive.given Drive.contract) := by
  refine ⟨(noncustodial_iff (own_runs_of_calls (Drive.runs Drive.charity))).1, ?_⟩
  intro hout
  have hsame := (noncustodial_iff (own_runs_of_calls (Drive.runs Drive.contract))).2.mpr hout
  exact absurd (hsame Drive.token) (by decide +kernel)

/-- With the contract itself as the beneficiary, all of it stays there. -/
theorem stranded :
    Genesis Drive.deployed ∧
      Runs (fun b l b' => Step Drive.contract b l b' ∧ l ≠ .elsewhere) Drive.deployed
        (Drive.log Drive.contract) (Drive.given Drive.contract) ∧
      Drive.deployed.world.bal Drive.token Drive.contract = 0 ∧
      (Drive.given Drive.contract).world.bal Drive.token Drive.contract = 100 :=
  ⟨Drive.genesis, Drive.runs Drive.contract, by decide +kernel, by decide +kernel⟩

end Stellariq.Donations
