/-
# On whose authority

The acting address is an argument of the call, so it counts for nothing until `require_auth` has
passed for it.  Call by call: what became of the pause flag, of the campaigns, of the receipts and
of the balances, and who authorized that (`Authorized`).  The record of a campaign is stored under
its own id in every reachable state, so a write under the id of a record that was read is a write to
the campaign it was read from.
-/
import Stellariq.Donations.Events

namespace Stellariq.Donations

open Kit

variable {σ : Type} {T : Tokens σ} {c : Ctx} {self : Address}

/-! ## 1. What needs whose authority -/

/-- Nothing was counted and no token was moved. -/
structure Quiet (st st' : Store) (w w' : World σ) (ops : List Op) : Prop where
  raised : ∀ id x x', st.campaignAt id = some x → st'.campaignAt id = some x' →
    x'.raised = x.raised
  totals : ∀ id d, st'.totalAt id d = st.totalAt id d
  receipts : ∀ n, st'.receiptAt n = st.receiptAt n
  world : w' = w
  transfers : transfersOf ops = []

/-- The receipt `r` was added, on the authority of its donor, for one transfer of its amount from
him to the beneficiary of its campaign `x`, in the token of the campaign. -/
structure Donation (c : Ctx) (st st' : Store) (w w' : World σ) (ops : List Op) (r : Receipt)
    (x : Campaign) : Prop where
  authorized : c.Authorizes r.donor
  campaign : st.campaignAt r.campaignId = some x
  unused : st.receiptAt r.id = none
  receipt : st'.receiptAt r.id = some r
  receipts : ∀ n, n ≠ r.id → st'.receiptAt n = st.receiptAt n
  transfers : transfersOf ops = [(x.token, r.donor, x.beneficiary, r.amount)]
  balances : ∀ t holder, w'.bal t holder = w.bal t holder +
    Ledger.point x.token x.beneficiary r.amount t holder -
    Ledger.point x.token r.donor r.amount t holder

/-- What a call of `i` has changed, it has changed on the authority of whom it concerns. -/
structure Authorized (c : Ctx) (i : Invocation) (st st' : Store) (w w' : World σ)
    (ops : List Op) : Prop where
  admin : st'.admin = st.admin
  paused : st'.paused = st.paused ∨ ∃ a, st.admin = some a ∧ c.Authorizes a
  created : ∀ id x, st.campaignAt id = none → st'.campaignAt id = some x →
    c.Authorizes x.creator ∧ x.raised = 0
  closed : ∀ id x x', st.campaignAt id = some x → st'.campaignAt id = some x' →
    x.isOpen = true → x'.isOpen = false →
    c.Authorizes x.creator ∨ ∃ a, st.admin = some a ∧ c.Authorizes a
  counted : Quiet st st' w w' ops ∨ ∃ r x, Donation c st st' w w' ops r x ∧
    i = .donate r.donor r.campaignId r.amount r.memo

/-! ## 2. Calls -/

section

variable {k : Book} {st st' : Store} {i : Invocation} {w : World σ}

theorem Represents.id_eq (hk : Represents st k) {id : Nat} {x : Campaign}
    (hx : st.campaignAt id = some x) : x.id = id := by
  obtain ⟨ch, -, rfl⟩ := hk.campaignAt_eq_some hx
  rfl

/-- A call that writes no campaign, no total and no receipt. -/
theorem Authorized.of_tables (hcampaign : st'.campaignAt = st.campaignAt)
    (htotal : st'.totalAt = st.totalAt) (hreceipt : st'.receiptAt = st.receiptAt)
    (hadmin : st'.admin = st.admin)
    (hpaused : st'.paused = st.paused ∨ ∃ a, st.admin = some a ∧ c.Authorizes a)
    {ops : List Op} (hops : transfersOf ops = []) : Authorized c i st st' w w ops where
  admin := hadmin
  paused := hpaused
  created := by
    intro id x hnone hx
    rw [hcampaign, hnone] at hx
    cases hx
  closed := by
    intro id x x' hx hx' hopen hclosed
    rw [hcampaign, hx] at hx'
    cases hx'
    rw [hopen] at hclosed
    cases hclosed
  counted := by
    refine Or.inl ⟨fun id x x' hx hx' => ?_, fun _ _ => by rw [htotal], fun _ => by rw [hreceipt],
      rfl, hops⟩
    rw [hcampaign, hx] at hx'
    cases hx'
    rfl

/-- A call that stores one campaign, `y`, under the id `n`. -/
theorem Authorized.of_put {n : Nat} {y : Campaign} {w' : World σ} {ops : List Op}
    (htable : ∀ id, st'.campaignAt id = if id = n then some y else st.campaignAt id)
    (hadmin : st'.admin = st.admin) (hpaused : st'.paused = st.paused)
    (hnew : st.campaignAt n = none → c.Authorizes y.creator ∧ y.raised = 0)
    (hclosed : ∀ x, st.campaignAt n = some x → x.isOpen = true → y.isOpen = false →
      c.Authorizes x.creator ∨ ∃ a, st.admin = some a ∧ c.Authorizes a)
    (hcounted : Quiet st st' w w' ops ∨ ∃ r x, Donation c st st' w w' ops r x ∧
      i = .donate r.donor r.campaignId r.amount r.memo) : Authorized c i st st' w w' ops where
  admin := hadmin
  paused := Or.inl hpaused
  created := by
    intro id x hnone hx
    rw [htable] at hx
    split at hx
    · rename_i hid
      cases hx
      exact hnew (hid ▸ hnone)
    · rw [hnone] at hx
      cases hx
  closed := by
    intro id x x' hx hx' hopen hshut
    rw [htable] at hx'
    split at hx'
    · rename_i hid
      cases hx'
      exact hclosed x (hid ▸ hx) hopen hshut
    · rw [hx] at hx'
      cases hx'
      rw [hopen] at hshut
      cases hshut
  counted := hcounted

/-- A stored campaign that raised what it had raised before. -/
theorem Quiet.of_put {n : Nat} {y : Campaign} {ops : List Op}
    (htable : ∀ id, st'.campaignAt id = if id = n then some y else st.campaignAt id)
    (hraised : ∀ x, st.campaignAt n = some x → y.raised = x.raised)
    (htotal : ∀ id d, st'.totalAt id d = st.totalAt id d)
    (hreceipt : ∀ n, st'.receiptAt n = st.receiptAt n) (hops : transfersOf ops = []) :
    Quiet st st' w w ops where
  raised := by
    intro id x x' hx hx'
    rw [htable] at hx'
    split at hx'
    · rename_i hid
      cases hx'
      exact hraised x (hid ▸ hx)
    · rw [hx] at hx'
      cases hx'
      rfl
  totals := htotal
  receipts := hreceipt
  world := rfl
  transfers := hops

theorem Represents.fresh_campaign (hk : Represents st k) :
    st.campaignAt (k.charters.length + 1) = none := by
  rw [hk.campaign, Book.campaign?]
  simp [numbered]

theorem Represents.fresh_receipt (hk : Represents st k) :
    st.receiptAt (k.receipts.length + 1) = none := by
  rw [hk.receipt]
  simp [numbered]

/-- **A donation**, by the donor's hand. -/
theorem Represents.donation (hk : Represents st k) {x : Campaign} {r : Receipt} {w w' : World σ}
    {ops : List Op} (hauth : c.Authorizes r.donor) (hx : st.campaignAt r.campaignId = some x)
    (hpay : w.pay T x.token r.donor x.beneficiary r.amount = some w')
    (hid : r.id = k.receipts.length + 1)
    (hops : transfersOf ops = [(x.token, r.donor, x.beneficiary, r.amount)]) :
    Donation c st ((st.touchCampaign c r.campaignId).recorded c x r.campaignId r) w w' ops r x where
  authorized := hauth
  campaign := hx
  unused := by
    rw [hid]
    exact hk.fresh_receipt
  receipt := by rw [Store.receiptAt_recorded, if_pos rfl]
  receipts := by
    intro n hn
    rw [Store.receiptAt_recorded, if_neg hn]
    rfl
  transfers := hops
  balances := World.bal_pay hpay

end

/-- **Every call acts on the authority of those it concerns.** -/
theorem Performs.authorized {v : Value} {s s' : State σ} {k : Book} {i : Invocation}
    (hp : Performs T c s i v s') (hk : Represents s.store k) :
    ∃ ops, s'.log = s.log ++ ops ∧
      Authorized c i s.store s'.store s.world s'.world ops := by
  cases hp with
  | setPaused hadmin hauth =>
    refine ⟨_, rfl, .of_tables ?_ ?_ ?_ ?_ (Or.inr ⟨_, hadmin, hauth⟩) rfl⟩
    · rfl
    · rfl
    · rfl
    · rfl
  | createCampaign _ hauth _ _ _ _ _ hid =>
    rw [hk.campaignCount, Option.getD_some] at hid
    subst hid
    refine ⟨_, rfl, .of_put (Store.campaignAt_putCampaign _ _) rfl rfl
      (fun _ => ⟨hauth, rfl⟩) (fun _ _ _ hshut => ?_)
      (Or.inl (.of_put (Store.campaignAt_putCampaign _ _) (fun x hx => ?_) (fun _ _ => rfl)
        (fun _ => rfl) rfl))⟩
    · cases hshut
    · -- the id of a new campaign has not been used before
      rw [newCampaign, hk.fresh_campaign] at hx
      cases hx
  | @closeCampaign caller id x hauth hx hcloser hopen =>
    have hid : x.id = id := hk.id_eq hx
    have htable : ∀ id', ((s.store.touchCampaign c id).putCampaign c
        { x with isOpen := false }).campaignAt id'
        = if id' = x.id then some { x with isOpen := false } else s.store.campaignAt id' := by
      intro id'
      rw [Store.campaignAt_putCampaign, Store.campaignAt_touchCampaign]
    have hsame : ∀ y, s.store.campaignAt x.id = some y → y = x := by
      intro y hy
      rw [hid, hx] at hy
      cases hy
      rfl
    refine ⟨_, rfl, .of_put htable rfl rfl (fun hnone => ?_) (fun y hy _ _ => ?_)
      (Or.inl (.of_put htable (fun y hy => ?_) (fun _ _ => rfl) (fun _ => rfl) rfl))⟩
    · rw [hid, hx] at hnone
      cases hnone
    · rw [hsame y hy]
      rcases hcloser with rfl | hadmin
      · exact Or.inl hauth
      · exact Or.inr ⟨caller, hadmin, hauth⟩
    · rw [hsame y hy]
  | getCampaign =>
    exact ⟨[], (List.append_nil _).symm, .of_tables (funext (Store.campaignAt_touchCampaign _ _))
      rfl rfl rfl (Or.inl rfl) rfl⟩
  | @donate donor id amount memo x r w _ hauth _ _ hx hopen _ _ hpay _ _ hr =>
    have hid : x.id = id := hk.id_eq hx
    have htable := fun id' =>
      (Store.campaignAt_recorded (c := c) (s.store.touchCampaign c id) x id r id').trans
        (by rw [Store.campaignAt_touchCampaign])
    rw [hk.receiptCount, Option.getD_some] at hr
    obtain ⟨hrid, rfl, rfl, rfl, rfl, -, -⟩ := newReceipt_eq.mp hr
    refine ⟨_, rfl, ?_⟩
    refine .of_put htable (Store.admin_recorded ..) (Store.paused_recorded ..)
      (fun hnone => ?_) (fun y hy _ hshut => ?_)
      (Or.inr ⟨r, x, hk.donation hauth hx hpay hrid rfl, rfl⟩)
    · rw [hid, hx] at hnone
      cases hnone
    · -- a donation leaves the campaign open
      rw [Campaign.donated, hopen] at hshut
      cases hshut
  | view => exact ⟨[], (List.append_nil _).symm, .of_tables rfl rfl rfl rfl (Or.inl rfl) rfl⟩

/-! ## 3. Runs -/

/-- A step is authorized when the call it makes is; nothing but a call changes the storage. -/
def AuthorizedStep (b : Chain Store σ) (l : DonationsLabel σ) (b' : Chain Store σ) : Prop :=
  (∀ t, l = .tx t → Authorized t.ctx t.call b.store b'.store b.world b'.world t.ops) ∧
    (l = .elsewhere → b'.store = b.store)

theorem step_authorized {b b' : Chain Store σ} {l : DonationsLabel σ} (hb : Kept b)
    (hstep : Step self b l b') : AuthorizedStep b l b' := by
  obtain ⟨k, hk⟩ := hb
  cases hstep with
  | returned _ _ _ hd =>
    refine ⟨fun t ht => ?_, fun h => by cases h⟩
    cases ht
    obtain ⟨ops, hlog, hauth⟩ := (dispatch_performs hd).authorized hk
    have hops : ops = _ := hlog.symm
    exact hops ▸ hauth
  | failed =>
    refine ⟨fun t ht => ?_, fun h => by cases h⟩
    cases ht
    exact .of_tables rfl rfl rfl rfl (Or.inl rfl) rfl
  | elsewhere =>
    refine ⟨fun t ht => ?_, fun _ => rfl⟩
    cases ht

theorem AuthorizedStep.admin {b b' : Chain Store σ} {l : DonationsLabel σ}
    (h : AuthorizedStep b l b') : b'.store.admin = b.store.admin := by
  cases l with
  | tx t => exact (h.1 t rfl).admin
  | elsewhere => rw [h.2 rfl]

/-- **Donation authority.**  In every run every call is authorized by those it concerns, and the
admin is still the one that the constructor stored. -/
theorem authority_of_runs {b b' : Chain Store σ} {ls : List (DonationsLabel σ)} (h0 : Genesis b)
    (hrun : Runs (Step self) b ls b') :
    Runs (fun b l b' => Step self b l b' ∧ AuthorizedStep b l b') b ls b' ∧
      b'.store.admin = b.store.admin := by
  have hall : Runs (fun b l b' => Step self b l b' ∧ AuthorizedStep b l b') b ls b' :=
    hrun.mono_of (I := Kept) (fun _ _ _ => kept_step)
      (fun _ _ _ hb hstep => ⟨hstep, step_authorized hb hstep⟩) ⟨_, Represents.genesis h0⟩
  refine ⟨hall, ?_⟩
  exact hall.invariant (I := fun b₁ => b₁.store.admin = b.store.admin)
    (fun _ _ _ hb hstep => hstep.2.admin.trans hb) rfl

theorem authority_of_runs_drive :
    Runs (fun b l b' => Step Drive.contract b l b' ∧ AuthorizedStep b l b') Drive.deployed
        (Drive.log Drive.charity) (Drive.given Drive.charity) ∧
      (Drive.given Drive.charity).store.admin = some Drive.admin := by
  have hrun : Runs (Step Drive.contract) Drive.deployed (Drive.log Drive.charity)
      (Drive.given Drive.charity) := (Drive.runs Drive.charity).mono fun _ _ _ h => h.1
  obtain ⟨hall, hadmin⟩ := authority_of_runs Drive.genesis hrun
  exact ⟨hall, hadmin.trans (by decide +kernel)⟩

end Stellariq.Donations
