/-
# The donation events as a statement of account

A `DonationMade` event names neither the token nor the beneficiary: a reader has to remember them
from the `CampaignCreated` event of the campaign (`donationReader`).  What he remembers is what
the store has (`Store.payees`), because nothing ever changes it, and what he books is what the
call did to the balances of everybody.
-/
import Stellariq.Donations.Authority
import Stellariq.Kit.Statement

namespace Stellariq.Donations

open Kit

variable {σ : Type} {T : Tokens σ} {c : Ctx}

/-! ## 1. The reader -/

/-- The token and the beneficiary of every campaign. -/
def Store.payees (st : Store) (id : Nat) : Option (Address × Address) :=
  (st.campaignAt id).map fun x => (x.token, x.beneficiary)

def donationReader :
    Reader (Nat → Option (Address × Address)) DonationEvent Address Address where
  next g e :=
    match e with
    | .campaignCreated id _ beneficiary token _ _ _ =>
      Function.update g id (some (token, beneficiary))
    | .donationMade .. | .campaignClosed .. => g
  flow g e t x :=
    match e with
    | .donationMade id donor _ amount _ _ =>
      match g id with
      | some (token, beneficiary) =>
        Ledger.point token beneficiary amount t x - Ledger.point token donor amount t x
      | none => 0
    | .campaignCreated .. | .campaignClosed .. => 0

/-! ## 2. Payees -/

section Payees

variable (st : Store)

theorem Store.payees_touchCampaign (id : Nat) : (st.touchCampaign c id).payees = st.payees := by
  funext id'
  simp [payees]

theorem Store.payees_putCampaign (x : Campaign) :
    (st.putCampaign c x).payees
      = Function.update st.payees x.id (some (x.token, x.beneficiary)) := by
  funext id
  by_cases h : id = x.id
  · subst h
    simp [payees]
  · simp [payees, h]

theorem Store.payees_recorded (x : Campaign) (id : Nat) (r : Receipt) :
    (st.recorded c x id r).payees
      = Function.update st.payees x.id (some (x.token, x.beneficiary)) := by
  funext id'
  rw [payees, Store.campaignAt_recorded]
  by_cases h : id' = x.id
  · subst h
    simp [Campaign.donated]
  · simp [payees, h]

/-- Storing a campaign again with the token and the beneficiary it has. -/
theorem Store.update_payees {id : Nat} {x : Campaign} (hx : st.campaignAt id = some x) :
    Function.update st.payees id (some (x.token, x.beneficiary)) = st.payees := by
  rw [Function.update_eq_self_iff, payees, hx]
  rfl

end Payees

/-! ## 3. Calls -/

/-- **The statement of a call.**  A reader who knows the payees knows them after the call, and has
booked what it did to the balances. -/
theorem Performs.statement {i : Invocation} {v : Value} {s s' : State σ} {k : Book}
    (hp : Performs T c s i v s') (hk : Represents s.store k) :
    ∃ ops, s'.log = s.log ++ ops ∧
      s'.store.payees = donationReader.upTo s.store.payees (eventsOf ops) ∧
      ∀ t y, s'.world.bal t y = s.world.bal t y +
        donationReader.statement t y s.store.payees (eventsOf ops) := by
  cases hp with
  | setPaused => exact ⟨_, rfl, rfl, fun t y => (add_zero _).symm⟩
  | createCampaign =>
    refine ⟨_, rfl, ?_, fun t y => (add_zero _).symm⟩
    exact s.store.payees_putCampaign _
  | @closeCampaign caller id x _ hx _ _ =>
    obtain rfl := hk.id_eq hx
    refine ⟨_, rfl, ?_, fun t y => (add_zero _).symm⟩
    calc ((s.store.touchCampaign c x.id).putCampaign c { x with isOpen := false }).payees
        = Function.update (s.store.touchCampaign c x.id).payees x.id
            (some (x.token, x.beneficiary)) := Store.payees_putCampaign _ _
      _ = s.store.payees := by
        rw [Store.payees_touchCampaign, Store.update_payees _ hx]
  | getCampaign =>
    exact ⟨[], (List.append_nil _).symm, s.store.payees_touchCampaign _,
      fun t y => (add_zero _).symm⟩
  | @donate donor id amount memo x r w _ _ _ _ hx _ _ _ hpay _ _ _ =>
    obtain rfl := hk.id_eq hx
    refine ⟨_, rfl, ?_, fun t y => ?_⟩
    · calc ((s.store.touchCampaign c x.id).recorded c x x.id r).payees
          = Function.update (s.store.touchCampaign c x.id).payees x.id
              (some (x.token, x.beneficiary)) := Store.payees_recorded _ _ _ _
        _ = s.store.payees := by
          rw [Store.payees_touchCampaign, Store.update_payees _ hx]
    · have hpayee : s.store.payees x.id = some (x.token, x.beneficiary) := by
        rw [Store.payees, hx]
        rfl
      have hflow : donationReader.statement t y s.store.payees
          [.donationMade x.id donor r.id amount (x.raised + amount) EVENT_SCHEMA_VERSION]
          = Ledger.point x.token x.beneficiary amount t y -
            Ledger.point x.token donor amount t y := by
        rw [Reader.statement_singleton]
        simp only [donationReader, hpayee]
      calc w.bal t y = s.world.bal t y + (Ledger.point x.token x.beneficiary amount t y -
            Ledger.point x.token donor amount t y) := by rw [World.bal_pay hpay]; omega
        _ = _ := by rw [← hflow]; rfl
  | view => exact ⟨[], (List.append_nil _).symm, rfl, fun t y => (add_zero _).symm⟩

theorem step_statement {self : Address} {b b' : Chain Store σ} {x : Tx (Tokens σ) Invocation Value
    DataKey DonationEvent Empty DonationError} (hstep : Step self b (.tx x) b') (hkept : Kept b) :
    b'.store.payees = donationReader.upTo b.store.payees (eventsOf x.ops) ∧
      ∀ t y, b'.world.bal t y = b.world.bal t y +
        donationReader.statement t y b.store.payees (eventsOf x.ops) := by
  obtain ⟨k, hk⟩ := hkept
  cases hstep with
  | returned _ _ _ hd =>
    obtain ⟨ops, hlog, hpayees, hbal⟩ := (dispatch_performs hd).statement hk
    obtain rfl : _ = ops := hlog
    exact ⟨hpayees, hbal⟩
  | failed => exact ⟨rfl, fun t y => (add_zero _).symm⟩

/-- A new contract has no payees. -/
theorem payees_genesis {b : Chain Store σ} (h0 : Genesis b) : b.store.payees = fun _ => none := by
  obtain ⟨c, admin, until_, w, s, hs, rfl⟩ := h0
  simp only [construct, extendInstance, Exec.bind_eq_ok, write_eq_ok, touch_eq_ok] at hs
  obtain ⟨_, _, rfl, _, _, rfl, _, _, rfl, _, _, rfl, rfl⟩ := hs
  rfl

end Stellariq.Donations
