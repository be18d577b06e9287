/-
# The donations contract as a state machine

As for the router: the entrypoints under one type, and what each of them does when it returns
(`Performs`).  The storage operations of the contract are summed up first (`putCampaign`,
`putTotal`, `putReceipt` and the renewals of lifetimes), together with what they do to the three
tables as callers read them (`campaignAt`, `receiptAt`, `totalAt`).
-/
import Stellariq.Donations.Contract
import Stellariq.Kit.Transactions

namespace Stellariq.Donations

open Kit

variable {σ : Type} {T : Tokens σ} {c : Ctx}

/-! ## 1. The tables -/

namespace Store

def campaignAt (st : Store) (id : Nat) : Option Campaign := (st.campaign id).map Entry.val

def receiptAt (st : Store) (id : Nat) : Option Receipt := (st.receipt id).map Entry.val

def totalAt (st : Store) (id : Nat) (donor : Address) : Int :=
  ((st.donorTotal id donor).map Entry.val).getD 0

/-- The instance entry, renewed. -/
def renewed (st : Store) (c : Ctx) : Store :=
  { st with instanceUntil := extendTtl c.sequence TTL_THRESHOLD TTL_EXTEND st.instanceUntil }

def touchCampaign (st : Store) (c : Ctx) (id : Nat) : Store :=
  st.setCampaign id (renew c (st.campaign id))

def putCampaign (st : Store) (c : Ctx) (x : Campaign) : Store :=
  st.setCampaign x.id (renew c (some (Entry.put (st.campaign x.id) c.freshUntil x)))

def putTotal (st : Store) (c : Ctx) (id : Nat) (donor : Address) (total : Int) : Store :=
  st.setDonorTotal id donor
    (renew c (some (Entry.put (st.donorTotal id donor) c.freshUntil total)))

def putReceipt (st : Store) (c : Ctx) (r : Receipt) : Store :=
  st.setReceipt r.id (renew c (some (Entry.put (st.receipt r.id) c.freshUntil r)))

@[simp] theorem campaignAt_putCampaign (st : Store) (x : Campaign) (id : Nat) :
    (st.putCampaign c x).campaignAt id = if id = x.id then some x else st.campaignAt id := by
  by_cases h : id = x.id
  · subst h
    simp [campaignAt, putCampaign, setCampaign, renew]
  · simp [campaignAt, putCampaign, setCampaign, h]

@[simp] theorem campaignAt_touchCampaign (st : Store) (id id' : Nat) :
    (st.touchCampaign c id).campaignAt id' = st.campaignAt id' := by
  by_cases h : id' = id
  · subst h
    cases he : st.campaign id' <;> simp [campaignAt, touchCampaign, setCampaign, renew, he]
  · simp [campaignAt, touchCampaign, setCampaign, h]

@[simp] theorem campaignAt_putTotal (st : Store) (id : Nat) (d : Address) (v : Int) (id' : Nat) :
    (st.putTotal c id d v).campaignAt id' = st.campaignAt id' := rfl

@[simp] theorem campaignAt_putReceipt (st : Store) (r : Receipt) (id : Nat) :
    (st.putReceipt c r).campaignAt id = st.campaignAt id := rfl

@[simp] theorem receiptAt_putReceipt (st : Store) (r : Receipt) (id : Nat) :
    (st.putReceipt c r).receiptAt id = if id = r.id then some r else st.receiptAt id := by
  by_cases h : id = r.id
  · subst h
    simp [receiptAt, putReceipt, setReceipt, renew]
  · simp [receiptAt, putReceipt, setReceipt, h]

@[simp] theorem receiptAt_putCampaign (st : Store) (x : Campaign) (id : Nat) :
    (st.putCampaign c x).receiptAt id = st.receiptAt id := rfl

@[simp] theorem receiptAt_putTotal (st : Store) (id : Nat) (d : Address) (v : Int) (id' : Nat) :
    (st.putTotal c id d v).receiptAt id' = st.receiptAt id' := rfl

@[simp] theorem totalAt_putTotal (st : Store) (id : Nat) (d : Address) (v : Int) (id' : Nat)
    (d' : Address) : (st.putTotal c id d v).totalAt id' d' =
      if id' = id ∧ d' = d then v else st.totalAt id' d' := by
  by_cases h : id' = id
  · subst h
    by_cases hd : d' = d
    · subst hd
      simp [totalAt, putTotal, setDonorTotal, renew]
    · simp [totalAt, putTotal, setDonorTotal, hd]
  · simp [totalAt, putTotal, setDonorTotal, h]

@[simp] theorem totalAt_putCampaign (st : Store) (x : Campaign) (id : Nat) (d : Address) :
    (st.putCampaign c x).totalAt id d = st.totalAt id d := rfl

@[simp] theorem totalAt_putReceipt (st : Store) (r : Receipt) (id : Nat) (d : Address) :
    (st.putReceipt c r).totalAt id d = st.totalAt id d := rfl

end Store

/-! ## 2. Entrypoints -/

inductive Invocation where
  | adminAddress
  | setPaused (paused : Bool)
  | isPaused
  | createCampaign (creator beneficiary token : Address) (title description : Text) (goal : Int)
      (deadline : Nat)
  | closeCampaign (caller : Address) (id : Nat)
  | getCampaign (id : Nat)
  | campaignCount
  | donate (donor : Address) (campaignId : Nat) (amount : Int) (memo : Text)
  | getReceipt (id : Nat)
  | receiptCount
  | donorTotal (campaignId : Nat) (donor : Address)
deriving DecidableEq

inductive Value where
  | unit
  | address (a : Address)
  | bool (b : Bool)
  | count (n : Nat)
  | amount (v : Int)
  | campaign (x : Campaign)
  | receipt (r : Receipt)
deriving DecidableEq

/-- The value of a call, as a value of an entrypoint. -/
def returning {α : Type} (f : α → Value) (x : Call σ α) : Call σ Value := do
  let a ← x
  pure (f a)

def dispatch (T : Tokens σ) (c : Ctx) : Invocation → Call σ Value
  | .adminAddress => returning .address adminAddress
  | .setPaused paused => returning (fun _ => .unit) (setPaused c paused)
  | .isPaused => returning .bool isPaused
  | .createCampaign creator beneficiary token title description goal deadline =>
    returning .count
      (createCampaign c creator beneficiary token title description goal deadline)
  | .closeCampaign caller id => returning (fun _ => .unit) (closeCampaign c caller id)
  | .getCampaign id => returning .campaign (getCampaign c id)
  | .campaignCount => returning .count campaignCount
  | .donate donor campaignId amount memo =>
    returning .count (donate T c donor campaignId amount memo)
  | .getReceipt id => returning .receipt (getReceipt id)
  | .receiptCount => returning .count receiptCount
  | .donorTotal campaignId donor => returning .amount (donorTotal campaignId donor)

abbrev DonationsLabel (σ : Type) : Type :=
  Label (Tokens σ) Invocation Value DataKey DonationEvent Empty DonationError

/-- The steps of the donations contract at the address `self`. -/
abbrev Step (self : Address) : Chain Store σ → DonationsLabel σ → Chain Store σ → Prop :=
  TxStep dispatch self

/-- The chain right after the constructor ran. -/
def Genesis (b : Chain Store σ) : Prop :=
  ∃ (c : Ctx) (admin : Address) (until_ : Nat) (w : World σ) (s : State σ),
    construct c admin ⟨Store.undeployed until_, w, []⟩ = (.ok (), s) ∧
      b = ⟨s.store, s.world, c.timestamp, c.sequence⟩

/-! ## 3. What a call that returned has done -/

/-- The contract was initialized and is not paused. -/
def Live (st : Store) : Prop := st.admin.isSome = true ∧ st.paused.getD false = false

/-- The record that `create_campaign` stores. -/
def newCampaign (c : Ctx) (id : Nat) (creator beneficiary token : Address)
    (title description : Text) (goal : Int) (deadline : Nat) : Campaign :=
  { id, creator, beneficiary, token, title, description, goal, deadline, raised := 0,
    donorCount := 0, donationCount := 0, isOpen := true, createdAt := c.timestamp }

/-- The record that `donate` stores back. -/
def Campaign.donated (x : Campaign) (prev amount : Int) : Campaign :=
  { x with
    donorCount := if prev = 0 then x.donorCount + 1 else x.donorCount
    raised := x.raised + amount
    donationCount := x.donationCount + 1 }

/-- The receipt that `donate` stores. -/
def newReceipt (c : Ctx) (id campaignId : Nat) (donor : Address) (amount : Int) (memo : Text) :
    Receipt :=
  { id, campaignId, donor, amount, memo, timestamp := c.timestamp, ledger := c.sequence }

theorem newReceipt_eq {r : Receipt} {id campaignId : Nat} {donor : Address} {amount : Int}
    {memo : Text} : r = newReceipt c id campaignId donor amount memo ↔
      r.id = id ∧ campaignId = r.campaignId ∧ donor = r.donor ∧ amount = r.amount ∧
        memo = r.memo ∧ r.timestamp = c.timestamp ∧ r.ledger = c.sequence := by
  constructor
  · rintro rfl
    exact ⟨rfl, rfl, rfl, rfl, rfl, rfl, rfl⟩
  · rintro ⟨rfl, rfl, rfl, rfl, rfl, htime, hledger⟩
    rw [newReceipt, ← htime, ← hledger]

/-- The storage after the bookkeeping of a donation to the campaign `x` at `id`. -/
def Store.recorded (st : Store) (c : Ctx) (x : Campaign) (id : Nat) (r : Receipt) : Store :=
  { (((st.putTotal c id r.donor (st.totalAt id r.donor + r.amount)).putCampaign c
      (x.donated (st.totalAt id r.donor) r.amount)).putReceipt c r) with
    receiptCount := some r.id }

section Recorded

variable (st : Store) (x : Campaign) (id : Nat) (r : Receipt)

/-- **The bookkeeping of a donation, table by table.** -/
theorem Store.campaignAt_recorded (id' : Nat) : (st.recorded c x id r).campaignAt id'
    = if id' = x.id then some (x.donated (st.totalAt id r.donor) r.amount)
      else st.campaignAt id' := by
  have htables : (st.recorded c x id r).campaignAt id'
      = (((st.putTotal c id r.donor (st.totalAt id r.donor + r.amount)).putCampaign c
          (x.donated (st.totalAt id r.donor) r.amount)).putReceipt c r).campaignAt id' := rfl
  rw [htables, campaignAt_putReceipt, campaignAt_putCampaign, campaignAt_putTotal]
  rfl

theorem Store.admin_recorded : (st.recorded c x id r).admin = st.admin := by
  unfold Store.recorded
  rfl

theorem Store.paused_recorded : (st.recorded c x id r).paused = st.paused := by
  unfold Store.recorded
  rfl

theorem Store.receiptAt_recorded (n : Nat) : (st.recorded c x id r).receiptAt n
    = if n = r.id then some r else st.receiptAt n := by
  have htables : (st.recorded c x id r).receiptAt n
      = (((st.putTotal c id r.donor (st.totalAt id r.donor + r.amount)).putCampaign c
          (x.donated (st.totalAt id r.donor) r.amount)).putReceipt c r).receiptAt n := rfl
  rw [htables, receiptAt_putReceipt, receiptAt_putCampaign, receiptAt_putTotal]

theorem Store.totalAt_recorded (id' : Nat) (d : Address) : (st.recorded c x id r).totalAt id' d
    = if id' = id ∧ d = r.donor then st.totalAt id r.donor + r.amount
      else st.totalAt id' d := by
  have htables : (st.recorded c x id r).totalAt id' d
      = (((st.putTotal c id r.donor (st.totalAt id r.donor + r.amount)).putCampaign c
          (x.donated (st.totalAt id r.donor) r.amount)).putReceipt c r).totalAt id' d := rfl
  rw [htables, totalAt_putReceipt, totalAt_putCampaign, totalAt_putTotal]

end Recorded

/-- From the state `s`, the call returned `v` and left the state `s'`. -/
inductive Performs (T : Tokens σ) (c : Ctx) (s : State σ) : Invocation → Value → State σ → Prop
  | setPaused {a : Address} {paused : Bool} :
      s.store.admin = some a → c.Authorizes a →
      Performs T c s (.setPaused paused) .unit
        { store := { s.store with paused := some paused }
          world := s.world
          log := s.log ++ [.write .paused] }
  | createCampaign {creator beneficiary token : Address} {title description : Text} {goal : Int}
      {deadline id : Nat} :
      Live s.store → c.Authorizes creator → 0 < goal → c.timestamp < deadline →
      1 ≤ title.len → title.len ≤ MAX_TITLE_LEN → description.len ≤ MAX_TEXT_LEN →
      id = s.store.campaignCount.getD 0 + 1 → id ≤ U32_MAX →
      Performs T c s
        (.createCampaign creator beneficiary token title description goal deadline) (.count id)
        { store := Store.renewed
            { s.store.putCampaign c
                (newCampaign c id creator beneficiary token title description goal deadline) with
              campaignCount := some id } c
          world := s.world
          log := s.log ++ [.write (.campaign id), .write .campaignCount,
            .event (.campaignCreated id creator beneficiary token goal deadline
              EVENT_SCHEMA_VERSION)] }
  | closeCampaign {caller : Address} {id : Nat} {x : Campaign} :
      c.Authorizes caller → s.store.campaignAt id = some x →
      caller = x.creator ∨ s.store.admin = some caller → x.isOpen = true →
      Performs T c s (.closeCampaign caller id) .unit
        { store := (s.store.touchCampaign c id).putCampaign c { x with isOpen := false }
          world := s.world
          log := s.log ++ [.write (.campaign x.id),
            .event (.campaignClosed id x.raised EVENT_SCHEMA_VERSION)] }
  | getCampaign {id : Nat} {x : Campaign} :
      s.store.campaignAt id = some x →
      Performs T c s (.getCampaign id) (.campaign x)
        { s with store := s.store.touchCampaign c id }
  | donate {donor : Address} {id : Nat} {amount : Int} {memo : Text} {x : Campaign} {r : Receipt}
      {w : World σ} :
      Live s.store → c.Authorizes donor → 0 < amount → memo.len ≤ MAX_TEXT_LEN →
      s.store.campaignAt id = some x → x.isOpen = true → c.timestamp ≤ x.deadline →
      donor ≠ x.beneficiary → s.world.pay T x.token donor x.beneficiary amount = some w →
      s.store.totalAt id donor + amount ≤ I128_MAX → x.raised + amount ≤ I128_MAX →
      r = newReceipt c (s.store.receiptCount.getD 0 + 1) id donor amount memo →
      Performs T c s (.donate donor id amount memo) (.count r.id)
        { store := (s.store.touchCampaign c id).recorded c x id r
          world := w
          log := s.log ++ [.transfer x.token donor x.beneficiary amount,
            .write (.donorTotal id donor), .write (.campaign x.id), .write (.receipt r.id),
            .write .receiptCount,
            .event (.donationMade id donor r.id amount (x.raised + amount)
              EVENT_SCHEMA_VERSION)] }
  | view {i : Invocation} {v : Value} :
      (i = .adminAddress ∨ i = .isPaused ∨ i = .campaignCount ∨ (∃ id, i = .getReceipt id) ∨
        i = .receiptCount ∨ ∃ id d, i = .donorTotal id d) →
      Performs T c s i v s

section Inversion

variable {s s' : State σ} {u : Unit}

theorem admin_eq_ok {a : Address} : admin s = (.ok a, s') ↔ s.store.admin = some a ∧ s' = s :=
  Exec.gets_okOr_eq_ok

theorem ensureLive_eq_ok : ensureLive s = (.ok u, s') ↔ Live s.store ∧ s' = s := by
  simp only [ensureLive, isPaused, Exec.bind_eq_ok, admin_eq_ok, Exec.gets_eq_ok,
    Exec.failIf_eq_ok]
  constructor
  · rintro ⟨a, _, ⟨ha, rfl⟩, _, _, ⟨rfl, rfl⟩, hp, rfl⟩
    exact ⟨⟨by rw [ha]; rfl, by rwa [Bool.not_eq_true] at hp⟩, rfl⟩
  · rintro ⟨⟨ha, hp⟩, rfl⟩
    obtain ⟨a, ha⟩ := Option.isSome_iff_exists.mp ha
    exact ⟨a, _, ⟨ha, rfl⟩, _, _, ⟨rfl, rfl⟩, by rw [hp]; simp, rfl⟩

theorem putCampaign_eq_ok {x : Campaign} : putCampaign c x s = (.ok u, s') ↔
    s' = { s with
      store := s.store.putCampaign c x
      log := s.log ++ [.write (.campaign x.id)] } := by
  simp [putCampaign, Exec.bind_eq_ok, Store.putCampaign, Store.setCampaign]

theorem putTotal_eq_ok {id : Nat} {donor : Address} {v : Int} :
    putTotal c id donor v s = (.ok u, s') ↔
      s' = { s with
        store := s.store.putTotal c id donor v
        log := s.log ++ [.write (.donorTotal id donor)] } := by
  simp [putTotal, Exec.bind_eq_ok, Store.putTotal, Store.setDonorTotal]

theorem putReceipt_eq_ok {r : Receipt} : putReceipt c r s = (.ok u, s') ↔
    s' = { s with store := s.store.putReceipt c r, log := s.log ++ [.write (.receipt r.id)] } := by
  simp [putReceipt, Exec.bind_eq_ok, Store.putReceipt, Store.setReceipt]

theorem getCampaign_eq_ok {id : Nat} {x : Campaign} : getCampaign c id s = (.ok x, s') ↔
    s.store.campaignAt id = some x ∧ s' = { s with store := s.store.touchCampaign c id } := by
  simp only [getCampaign, Exec.bind_eq_ok, Exec.gets_eq_ok, Exec.okOr_eq_ok, touch_eq_ok,
    Exec.pure_eq_ok, Store.campaignAt, Option.map_eq_some_iff]
  constructor
  · rintro ⟨_, _, ⟨rfl, rfl⟩, e, _, ⟨he, rfl⟩, _, _, rfl, rfl, rfl⟩
    exact ⟨⟨e, he, rfl⟩, rfl⟩
  · rintro ⟨⟨e, he, rfl⟩, rfl⟩
    exact ⟨_, s, ⟨rfl, rfl⟩, e, s, ⟨he, rfl⟩, (), _, rfl, rfl, rfl⟩

theorem returning_eq_ok {α : Type} {f : α → Value} {x : Call σ α} {v : Value} :
    returning f x s = (.ok v, s') ↔ ∃ a, x s = (.ok a, s') ∧ f a = v :=
  Exec.bind_pure_eq_ok

theorem createCampaign_performs {creator beneficiary token : Address} {title description : Text}
    {goal : Int} {deadline id : Nat}
    (hok : createCampaign c creator beneficiary token title description goal deadline s
      = (.ok id, s')) :
    Performs T c s (.createCampaign creator beneficiary token title description goal deadline)
      (.count id) s' := by
  simp only [createCampaign, campaignCount, extendInstance, Exec.bind_eq_ok, ensureLive_eq_ok,
    requireAuth_eq_ok, Exec.failIf_eq_ok, Exec.gets_eq_ok, Exec.orTrap_eq_ok, checkedU32_eq_some,
    putCampaign_eq_ok, write_eq_ok, touch_eq_ok, publish_eq_ok, Exec.pure_eq_ok, exists_const,
    and_assoc, exists_and_left, exists_eq_left, exists_eq_left', List.append_assoc,
    List.cons_append, List.nil_append, not_le, not_or, not_lt] at hok
  obtain ⟨hlive, hauth, hgoal, hdl, htitle, hlong, hdesc, hmax, rfl, rfl⟩ := hok
  exact .createCampaign hlive hauth hgoal hdl (Nat.one_le_iff_ne_zero.mpr htitle) hlong hdesc rfl
    hmax

theorem checkCloser_eq_ok {caller creator : Address} :
    checkCloser caller creator s = (.ok u, s') ↔
      (caller = creator ∨ s.store.admin = some caller) ∧ s' = s := by
  unfold checkCloser
  by_cases h : caller = creator
  · rw [if_pos h]
    simp [h]
  · rw [if_neg h]
    simp only [Exec.bind_eq_ok, admin_eq_ok, Exec.failIf_eq_ok, ne_eq, Classical.not_not, h,
      false_or]
    constructor
    · rintro ⟨_, _, ⟨ha, rfl⟩, rfl, rfl⟩
      exact ⟨ha, rfl⟩
    · rintro ⟨ha, rfl⟩
      exact ⟨caller, s', ⟨ha, rfl⟩, rfl, rfl⟩

theorem closeCampaign_performs {caller : Address} {id : Nat}
    (hok : closeCampaign c caller id s = (.ok u, s')) :
    Performs T c s (.closeCampaign caller id) .unit s' := by
  simp only [closeCampaign, Exec.bind_eq_ok, requireAuth_eq_ok, getCampaign_eq_ok,
    checkCloser_eq_ok, Exec.failIf_eq_ok, putCampaign_eq_ok, publish_eq_ok, exists_const, and_assoc,
    exists_and_left, exists_eq_left, List.append_assoc, List.cons_append, List.nil_append,
    Bool.not_eq_false] at hok
  obtain ⟨hauth, x, hx, hcloser, hopen, rfl⟩ := hok
  exact .closeCampaign hauth hx hcloser hopen

theorem countDonor_eq_ok {prev : Int} {n k : Nat} :
    countDonor prev n s = (.ok k, s') ↔
      (prev = 0 → n + 1 ≤ U32_MAX) ∧ (if prev = 0 then n + 1 else n) = k ∧ s' = s := by
  unfold countDonor
  by_cases h : prev = 0
  · simp [h, and_assoc]
  · simp [h]

/-- **The checks of a donation.** -/
theorem checkDonation_eq_ok {donor : Address} {id : Nat} {amount : Int} {memo : Text}
    {x : Campaign} : checkDonation c donor id amount memo s = (.ok x, s') ↔
      Live s.store ∧ c.Authorizes donor ∧ 0 < amount ∧ memo.len ≤ MAX_TEXT_LEN ∧
        s.store.campaignAt id = some x ∧ x.isOpen = true ∧ c.timestamp ≤ x.deadline ∧
        donor ≠ x.beneficiary ∧ s' = { s with store := s.store.touchCampaign c id } := by
  simp only [checkDonation, Exec.bind_eq_ok, ensureLive_eq_ok, requireAuth_eq_ok,
    Exec.failIf_eq_ok, getCampaign_eq_ok, Exec.pure_eq_ok, exists_const, and_assoc,
    exists_and_left, exists_eq_left, not_le, not_lt, Bool.not_eq_false]
  constructor
  · rintro ⟨hlive, hauth, hamount, hmemo, x, hx, hopen, hdl, hself, rfl, rfl⟩
    exact ⟨hlive, hauth, hamount, hmemo, hx, hopen, hdl, hself, rfl⟩
  · rintro ⟨hlive, hauth, hamount, hmemo, hx, hopen, hdl, hself, rfl⟩
    exact ⟨hlive, hauth, hamount, hmemo, x, hx, hopen, hdl, hself, rfl, rfl⟩

/-- **The bookkeeping of a donation**, and the bounds it needs. -/
theorem recordDonation_eq_ok {donor : Address} {id : Nat} {amount : Int} {memo : Text}
    {x : Campaign} {rid : Nat} :
    recordDonation c donor id amount memo x s = (.ok rid, s') ↔
      (s.store.totalAt id donor = 0 → x.donorCount + 1 ≤ U32_MAX) ∧
        (I128_MIN ≤ s.store.totalAt id donor + amount ∧
          s.store.totalAt id donor + amount ≤ I128_MAX) ∧
        (I128_MIN ≤ x.raised + amount ∧ x.raised + amount ≤ I128_MAX) ∧
        x.donationCount + 1 ≤ U32_MAX ∧ s.store.receiptCount.getD 0 + 1 ≤ U64_MAX ∧
        rid = s.store.receiptCount.getD 0 + 1 ∧
        s' = { s with
          store := s.store.recorded c x id (newReceipt c rid id donor amount memo)
          log := s.log ++ [.write (.donorTotal id donor), .write (.campaign x.id),
            .write (.receipt rid), .write .receiptCount,
            .event (.donationMade id donor rid amount (x.raised + amount)
              EVENT_SCHEMA_VERSION)] } := by
  simp only [recordDonation, donorTotal, receiptCount, Exec.bind_eq_ok, Exec.gets_eq_ok,
    countDonor_eq_ok, Exec.orTrap_eq_ok, Exec.okOr_eq_ok, checkedI128_eq_some,
    checkedU32_eq_some, checkedU64_eq_some, putTotal_eq_ok, putCampaign_eq_ok, putReceipt_eq_ok,
    write_eq_ok, publish_eq_ok, Exec.pure_eq_ok, exists_const, and_assoc, exists_and_left,
    exists_eq_left, exists_eq_left', List.append_assoc, List.cons_append, List.nil_append]
  constructor
  · rintro ⟨hcount, htlo, hthi, hrlo, hrhi, hdonations, hid, rfl, rfl⟩
    exact ⟨hcount, htlo, hthi, hrlo, hrhi, hdonations, hid, rfl, rfl⟩
  · rintro ⟨hcount, htlo, hthi, hrlo, hrhi, hdonations, hid, rfl, rfl⟩
    exact ⟨hcount, htlo, hthi, hrlo, hrhi, hdonations, hid, rfl, rfl⟩

theorem donate_performs {donor : Address} {id : Nat} {amount : Int} {memo : Text} {rid : Nat}
    (hok : donate T c donor id amount memo s = (.ok rid, s')) :
    Performs T c s (.donate donor id amount memo) (.count rid) s' := by
  simp only [donate, Exec.bind_eq_ok, checkDonation_eq_ok, transfer_eq_ok,
    recordDonation_eq_ok] at hok
  obtain ⟨x, _, ⟨hlive, hauth, hamount, hmemo, hx, hopen, hdl, hself, rfl⟩, _, _,
    ⟨-, w, hpay, rfl⟩, -, htotal, hraised, -, -, rfl, rfl⟩ := hok
  have hp : Performs T c s (.donate donor id amount memo) (.count _) _ :=
    .donate hlive hauth hamount hmemo hx hopen hdl hself hpay htotal.2 hraised.2 rfl
  simp only [List.append_assoc]
  exact hp

/-- **What a call that returned has done.** -/
theorem dispatch_performs {i : Invocation} {v : Value} (hok : dispatch T c i s = (.ok v, s')) :
    Performs T c s i v s' := by
  cases i with
  | adminAddress =>
    obtain ⟨_, hx, rfl⟩ := returning_eq_ok.mp hok
    obtain ⟨-, rfl⟩ := admin_eq_ok.mp hx
    exact .view (by simp)
  | setPaused paused =>
    obtain ⟨_, hx, rfl⟩ := returning_eq_ok.mp hok
    simp only [setPaused, Exec.bind_eq_ok, admin_eq_ok, requireAuth_eq_ok, write_eq_ok] at hx
    obtain ⟨a, _, ⟨ha, rfl⟩, _, _, ⟨hauth, rfl⟩, rfl⟩ := hx
    exact .setPaused ha hauth
  | isPaused =>
    obtain ⟨_, hx, rfl⟩ := returning_eq_ok.mp hok
    obtain ⟨-, rfl⟩ := Exec.gets_eq_ok.mp hx
    exact .view (by simp)
  | createCampaign creator beneficiary token title description goal deadline =>
    obtain ⟨id, hx, rfl⟩ := returning_eq_ok.mp hok
    exact createCampaign_performs hx
  | closeCampaign caller id =>
    obtain ⟨_, hx, rfl⟩ := returning_eq_ok.mp hok
    exact closeCampaign_performs hx
  | getCampaign id =>
    obtain ⟨x, hx, rfl⟩ := returning_eq_ok.mp hok
    obtain ⟨hx', rfl⟩ := getCampaign_eq_ok.mp hx
    exact .getCampaign hx'
  | campaignCount =>
    obtain ⟨_, hx, rfl⟩ := returning_eq_ok.mp hok
    obtain ⟨-, rfl⟩ := Exec.gets_eq_ok.mp hx
    exact .view (by simp)
  | donate donor campaignId amount memo =>
    obtain ⟨_, hx, rfl⟩ := returning_eq_ok.mp hok
    exact donate_performs hx
  | getReceipt id =>
    obtain ⟨_, hx, rfl⟩ := returning_eq_ok.mp hok
    simp only [getReceipt, Exec.bind_eq_ok, Exec.gets_eq_ok, Exec.okOr_eq_ok] at hx
    obtain ⟨_, _, ⟨rfl, rfl⟩, -, rfl⟩ := hx
    exact .view (by simp)
  | receiptCount =>
    obtain ⟨_, hx, rfl⟩ := returning_eq_ok.mp hok
    obtain ⟨-, rfl⟩ := Exec.gets_eq_ok.mp hx
    exact .view (by simp)
  | donorTotal campaignId donor =>
    obtain ⟨_, hx, rfl⟩ := returning_eq_ok.mp hok
    obtain ⟨-, rfl⟩ := Exec.gets_eq_ok.mp hx
    exact .view (by simp)

end Inversion

/-! ## 4. A fund drive -/

namespace Drive

def contract : Address := ⟨0⟩
def admin : Address := ⟨1⟩
def token : Address := ⟨2⟩
def charity : Address := ⟨3⟩
def alice : Address := ⟨4⟩
def bob : Address := ⟨5⟩

def ctx : Ctx :=
  { self := contract, auths := fun _ => true, timestamp := 1000, sequence := 1,
    freshUntil := 10000, uploaded := fun _ => false }

def funded : World Unit :=
  { ledger := Ledger.minted [(token, alice, 100), (token, bob, 100)], rest := () }

def deployed : Chain Store Unit :=
  { store := (construct ctx admin ⟨Store.undeployed 10000, funded, []⟩).2.store
    world := funded
    now := 1000
    seq := 1 }

theorem genesis : Genesis deployed := ⟨ctx, admin, 10000, funded, _, rfl, rfl⟩

/-- A campaign for `beneficiary`, and three donations to it. -/
def calls (beneficiary : Address) : List (Tokens Unit × Ctx × Invocation) :=
  [(Tokens.standard, ctx, .createCampaign charity beneficiary token ⟨[87]⟩ ⟨[]⟩ 500 2000),
    (Tokens.standard, ctx, .donate alice 1 60 ⟨[]⟩),
    (Tokens.standard, ctx, .donate bob 1 30 ⟨[]⟩),
    (Tokens.standard, ctx, .donate alice 1 10 ⟨[]⟩)]

def log (beneficiary : Address) : List (DonationsLabel Unit) :=
  (deployed.execAll dispatch (calls beneficiary)).1

def given (beneficiary : Address) : Chain Store Unit :=
  (deployed.execAll dispatch (calls beneficiary)).2

theorem runs (beneficiary : Address) :
    Runs (fun b l b' => Step contract b l b' ∧ l ≠ .elsewhere) deployed (log beneficiary)
      (given beneficiary) :=
  Chain.execAll_calls (calls beneficiary) deployed (by simp [calls, deployed, ctx])

/-- The charity closes its campaign. -/
def closing : DonationsLabel Unit × Chain Store Unit :=
  (given charity).exec dispatch Tokens.standard ctx (.closeCampaign charity 1)

/-- Bob tries to give some more. -/
def late : DonationsLabel Unit × Chain Store Unit :=
  closing.2.exec dispatch Tokens.standard ctx (.donate bob 1 5 ⟨[]⟩)

theorem closing_step : Step contract (given charity) closing.1 closing.2 :=
  Chain.exec_step rfl (by decide +kernel) (by decide +kernel)

theorem late_step : Step contract closing.2 late.1 late.2 :=
  Chain.exec_step rfl (by decide +kernel) (by decide +kernel)

end Drive

end Stellariq.Donations
