/-
# Rebuilding the public record from the events

Two facts about the event log that an off-chain index relies on.

* Replaying the log rebuilds everything the views of the contract tell, texts and timestamps apart
  (`log_rebuilds`): each entry of the book does to the index what its event does.
* Every event has the id of its campaign as a topic, and for the figures of one campaign the events
  with that topic are enough (`Index.foldl_follow`): the events of other campaigns touch nothing of
  it, and the own ones read nothing of the others.
-/
import Stellariq.Donations.Events

namespace Stellariq.Donations

open Kit

variable {σ : Type} {T : Tokens σ} {c : Ctx} {self : Address}

/-! ## 1. The index -/

/-- A campaign as its events tell of it. -/
structure Profile where
  creator : Address
  beneficiary : Address
  token : Address
  goal : Int
  deadline : Nat
  raised : Int
  donorCount : Nat
  donationCount : Nat
  isOpen : Bool
deriving DecidableEq, Repr

def Campaign.profile (x : Campaign) : Profile :=
  { creator := x.creator, beneficiary := x.beneficiary, token := x.token, goal := x.goal,
    deadline := x.deadline, raised := x.raised, donorCount := x.donorCount,
    donationCount := x.donationCount, isOpen := x.isOpen }

/-- A donation as its event tells of it. -/
structure Gift where
  campaignId : Nat
  donor : Address
  amount : Int
deriving DecidableEq, Repr

def Receipt.gift (r : Receipt) : Gift :=
  { campaignId := r.campaignId, donor := r.donor, amount := r.amount }

@[ext] structure Index where
  campaignCount : Nat
  receiptCount : Nat
  campaign : Nat → Option Profile
  receipt : Nat → Option Gift
  total : Nat → Address → Int

namespace Index

def empty : Index :=
  { campaignCount := 0, receiptCount := 0, campaign := fun _ => none, receipt := fun _ => none,
    total := fun _ _ => 0 }

/-- A donor without a total is a new one, and what the campaign has raised is in the event. -/
def apply (g : Index) : DonationEvent → Index
  | .campaignCreated id creator beneficiary token goal deadline _ =>
    { g with
      campaignCount := id
      campaign := Function.update g.campaign id
        (some { creator, beneficiary, token, goal, deadline, raised := 0, donorCount := 0,
                donationCount := 0, isOpen := true }) }
  | .donationMade id donor receiptId amount raised _ =>
    { campaignCount := g.campaignCount
      receiptCount := receiptId
      campaign := Function.update g.campaign id ((g.campaign id).map fun x =>
        { x with
          raised
          donorCount := if g.total id donor = 0 then x.donorCount + 1 else x.donorCount
          donationCount := x.donationCount + 1 })
      receipt := Function.update g.receipt receiptId (some { campaignId := id, donor, amount })
      total := Function.update g.total id
        (Function.update (g.total id) donor (g.total id donor + amount)) }
  | .campaignClosed id _ _ =>
    { g with
      campaign := Function.update g.campaign id
        ((g.campaign id).map fun x => { x with isOpen := false }) }

end Index

/-- The index after the events `es` of a new contract. -/
def index (es : List DonationEvent) : Index := es.foldl Index.apply Index.empty

/-! ## 2. Following one campaign -/

/-- The first topic of the event. -/
def DonationEvent.campaignId : DonationEvent → Nat
  | .campaignCreated id .. => id
  | .donationMade id .. => id
  | .campaignClosed id _ _ => id

def DonationEvent.about (id : Nat) (e : DonationEvent) : Bool := decide (e.campaignId = id)

namespace Index

/-- The two indexes have the same of the campaign `id` and of its donors. -/
structure Agree (id : Nat) (g g' : Index) : Prop where
  campaign : g.campaign id = g'.campaign id
  total : g.total id = g'.total id

variable {id : Nat} {g g' : Index} {e : DonationEvent}

theorem Agree.other (h : Agree id g g') (he : e.campaignId ≠ id) : Agree id (g.apply e) g' := by
  cases e with
  | campaignCreated => exact ⟨(Function.update_of_ne he.symm ..).trans h.campaign, h.total⟩
  | donationMade =>
    exact ⟨(Function.update_of_ne he.symm ..).trans h.campaign,
      (Function.update_of_ne he.symm ..).trans h.total⟩
  | campaignClosed => exact ⟨(Function.update_of_ne he.symm ..).trans h.campaign, h.total⟩

theorem Agree.same (h : Agree id g g') (he : e.campaignId = id) :
    Agree id (g.apply e) (g'.apply e) := by
  subst he
  cases e with
  | campaignCreated => exact ⟨by simp [apply, DonationEvent.campaignId], h.total⟩
  | donationMade =>
    have hc := h.campaign
    have ht := h.total
    simp only [DonationEvent.campaignId] at hc ht
    exact ⟨by simp [apply, DonationEvent.campaignId, hc, ht],
      by simp [apply, DonationEvent.campaignId, ht]⟩
  | campaignClosed =>
    have hc := h.campaign
    simp only [DonationEvent.campaignId] at hc
    exact ⟨by simp [apply, DonationEvent.campaignId, hc], h.total⟩

/-- **Following one campaign.**  Of the campaign `id`, the events with its topic tell as much as the
whole log. -/
theorem foldl_follow {es : List DonationEvent} (h : Agree id g g') :
    Agree id (es.foldl apply g) ((es.filter (DonationEvent.about id)).foldl apply g') := by
  induction es generalizing g g' with
  | nil => exact h
  | cons e es ih =>
    by_cases he : e.campaignId = id
    · have hpos : e.about id = true := decide_eq_true he
      rw [List.filter_cons_of_pos hpos]
      exact ih (h.same he)
    · have hneg : ¬ e.about id = true := fun h => he (of_decide_eq_true h)
      rw [List.filter_cons_of_neg hneg]
      exact ih (h.other he)

end Index

/-! ## 3. The book, indexed -/

def Book.index (k : Book) : Index :=
  { campaignCount := k.charters.length
    receiptCount := k.receipts.length
    campaign := fun id => (k.campaign? id).map Campaign.profile
    receipt := fun n => (numbered k.receipts n).map Receipt.gift
    total := k.donorTotal }

/-- **An entry does to the index what its event does.** -/
theorem Enters.index {k k' : Book} {e : DonationEvent} (he : Enters k e k') :
    k.index.apply e = k'.index := by
  cases he with
  | create ch =>
    refine Index.ext ?_ rfl ?_ rfl rfl
    · simp [Book.index, Index.apply, Book.create]
    · funext id
      simp only [Book.index, Index.apply, Book.campaign?_create]
      by_cases h : id = k.charters.length + 1
      · subst h
        rw [Function.update_self, if_pos rfl, Book.record_create]
        rfl
      · rw [Function.update_of_ne h, if_neg h]
  | @close id ch hch _ =>
    refine Index.ext rfl rfl ?_ rfl rfl
    funext id'
    simp only [Book.index, Index.apply, Book.campaign?_close]
    by_cases h : id' = id
    · subst h
      rw [Function.update_self, if_pos rfl, Option.map_map, Option.map_map]
      rfl
    · rw [Function.update_of_ne h, if_neg h]
  | @give r ch hid hpos hch _ =>
    refine Index.ext rfl ?_ ?_ ?_ ?_
    · simp [Book.index, Index.apply, Book.give, hid]
    · funext id
      simp only [Book.index, Index.apply, Book.campaign?_give]
      by_cases h : id = r.campaignId
      · subst h
        rw [Function.update_self, if_pos rfl, Book.campaign?_eq_some.mpr ⟨ch, hch, rfl⟩]
        rfl
      · rw [Function.update_of_ne h, if_neg h]
    · funext n
      simp only [Book.index, Index.apply, Book.give, numbered_snoc]
      by_cases h : n = r.id
      · subst h
        rw [Function.update_self, if_pos hid]
        rfl
      · rw [Function.update_of_ne h, if_neg (hid ▸ h)]
    · funext id d
      simp only [Book.index, Index.apply, Book.donorTotal_give]
      by_cases h : id = r.campaignId
      · subst h
        rw [Function.update_self]
        by_cases hd : d = r.donor
        · subst hd
          simp
        · simp [hd]
      · rw [Function.update_of_ne h, if_neg fun hb => h hb.1]

theorem foldl_of_enters {k k' : Book} {es : List DonationEvent} (h : Runs Enters k es k') :
    es.foldl Index.apply k.index = k'.index := by
  induction h with
  | refl => rfl
  | tail _ he ih => rw [List.foldl_append, ih, List.foldl_cons, List.foldl_nil, he.index]

theorem Book.index_empty : Book.empty.index = Index.empty := by
  refine Index.ext rfl rfl ?_ ?_ rfl
  · funext id
    cases id <;> rfl
  · funext n
    cases n <;> rfl

/-! ## 4. The contract, indexed -/

def Store.index (st : Store) : Index :=
  { campaignCount := st.campaignCount.getD 0
    receiptCount := st.receiptCount.getD 0
    campaign := fun id => (st.campaignAt id).map Campaign.profile
    receipt := fun n => (st.receiptAt n).map Receipt.gift
    total := st.totalAt }

theorem Represents.index {st : Store} {k : Book} (hk : Represents st k) : st.index = k.index := by
  refine Index.ext ?_ ?_ ?_ ?_ ?_
  · simp [Store.index, Book.index, hk.campaignCount]
  · simp [Store.index, Book.index, hk.receiptCount]
  · funext id
    simp only [Store.index, Book.index, hk.campaign]
  · funext n
    simp only [Store.index, Book.index, hk.receipt]
  · funext id d
    exact hk.total id d

/-- The index has what the views of the contract answer in the state `s`. -/
structure Index.Answers (g : Index) (T : Tokens σ) (c : Ctx) (s : State σ) : Prop where
  campaignCount : (dispatch T c .campaignCount s).1 = .ok (.count g.campaignCount)
  receiptCount : (dispatch T c .receiptCount s).1 = .ok (.count g.receiptCount)
  donorTotal : ∀ id d, (dispatch T c (.donorTotal id d) s).1 = .ok (.amount (g.total id d))
  getCampaign : ∀ id x, (dispatch T c (.getCampaign id) s).1 = .ok (.campaign x) →
    g.campaign id = some x.profile
  noCampaign : ∀ id, (dispatch T c (.getCampaign id) s).1 = .err .campaignNotFound ↔
    g.campaign id = none
  getReceipt : ∀ n r, (dispatch T c (.getReceipt n) s).1 = .ok (.receipt r) →
    g.receipt n = some r.gift
  noReceipt : ∀ n, (dispatch T c (.getReceipt n) s).1 = .err .receiptNotFound ↔
    g.receipt n = none

/-- **How the two readers that can fail end.** -/
theorem getCampaign_reply (id : Nat) (s : State σ) : (dispatch T c (.getCampaign id) s).1 =
    match s.store.campaignAt id with
    | some x => .ok (.campaign x)
    | none => .err .campaignNotFound := by
  rcases he : s.store.campaign id with _ | e
  · simp [dispatch, returning, getCampaign, Exec.bind_apply, Exec.gets, Exec.okOr, Exec.fail,
      Store.campaignAt, he]
  · simp [dispatch, returning, getCampaign, Exec.bind_apply, Exec.gets, Exec.okOr,
      Exec.pure_apply, touch, Exec.modify, Store.campaignAt, he]

theorem getReceipt_reply (n : Nat) (s : State σ) : (dispatch T c (.getReceipt n) s).1 =
    match s.store.receiptAt n with
    | some r => .ok (.receipt r)
    | none => .err .receiptNotFound := by
  rcases hr : s.store.receiptAt n with _ | r
  · rw [Store.receiptAt] at hr
    simp [dispatch, returning, getReceipt, Exec.bind_apply, Exec.gets, Exec.okOr, Exec.fail, hr]
  · rw [Store.receiptAt] at hr
    simp [dispatch, returning, getReceipt, Exec.bind_apply, Exec.gets, Exec.okOr,
      Exec.pure_apply, hr]

theorem Store.index_answers (T : Tokens σ) (c : Ctx) (s : State σ) :
    s.store.index.Answers T c s where
  campaignCount := rfl
  receiptCount := rfl
  donorTotal _ _ := rfl
  getCampaign id x h := by
    rw [getCampaign_reply] at h
    cases hx : s.store.campaignAt id <;> simp_all [Store.index]
  noCampaign id := by
    rw [getCampaign_reply]
    cases hx : s.store.campaignAt id <;> simp [Store.index, hx]
  getReceipt n r h := by
    rw [getReceipt_reply] at h
    cases hr : s.store.receiptAt n <;> simp_all [Store.index]
  noReceipt n := by
    rw [getReceipt_reply]
    cases hr : s.store.receiptAt n <;> simp [Store.index, hr]

/-- **The log rebuilds the public record.**  In every reachable state, replaying the event log gives
what the views answer, and replaying only the events of one campaign gives what they answer about
that campaign. -/
theorem log_rebuilds {b b' : Chain Store σ} {ls : List (DonationsLabel σ)} (h0 : Genesis b)
    (hrun : Runs (Step self) b ls b') (T : Tokens σ) (c : Ctx) :
    index (journal ls) = b'.store.index ∧ (index (journal ls)).Answers T c b'.start ∧
      ∀ id, (index ((journal ls).filter (DonationEvent.about id))).Agree id b'.store.index := by
  obtain ⟨k, hk, hruns⟩ := runs_enter h0 hrun
  have hindex : index (journal ls) = b'.store.index := by
    rw [hk.index, ← foldl_of_enters hruns, Book.index_empty]
    rfl
  refine ⟨hindex, hindex ▸ Store.index_answers T c b'.start, fun id => ?_⟩
  have hfollow : Index.Agree id ((journal ls).foldl Index.apply .empty)
      (((journal ls).filter (DonationEvent.about id)).foldl Index.apply .empty) :=
    Index.foldl_follow ⟨rfl, rfl⟩
  exact ⟨hfollow.campaign.symm.trans (congrArg (fun g => Index.campaign g id) hindex),
    hfollow.total.symm.trans (congrArg (fun g => Index.total g id) hindex)⟩

/-- The events of the drive tell what became of it. -/
theorem log_rebuilds_drive :
    (index (journal (Drive.log Drive.charity))).campaign 1
        = ((Drive.given Drive.charity).store.campaignAt 1).map Campaign.profile ∧
      (index (journal (Drive.log Drive.charity))).total 1 Drive.alice = 70 := by
  have hrun : Runs (Step Drive.contract) Drive.deployed (Drive.log Drive.charity)
      (Drive.given Drive.charity) := (Drive.runs Drive.charity).mono fun _ _ _ h => h.1
  have hindex := (log_rebuilds Drive.genesis hrun Tokens.standard Drive.ctx).1
  exact ⟨congrFun (congrArg Index.campaign hindex) 1, by rw [hindex]; decide +kernel⟩

end Stellariq.Donations
