/-
# The books

What the contract is for, without its redundancy: a list of campaign charters, a list of
receipts, and the set of closed campaigns (`Book`).  Everything else that the contract stores is a
figure about the receipts: what a campaign raised, its number of donations, its number of donors,
the total of each donor.

The contract keeps these figures one by one (`Represents`), and every entrypoint that changes
anything turns the book by one entry (`Turns`).  So the figures are right in every reachable
state, which is `books_balance`.  Counting a donor when his stored total is zero counts the
distinct donors because every amount is positive: that is a field of `Book`.
-/
import Stellariq.Donations.Transactions
import Stellariq.Kit.Tally

namespace Stellariq.Donations

open Kit

variable {σ : Type} {T : Tokens σ} {c : Ctx} {self : Address}

/-! ## 1. Books -/

/-- What a campaign is created with. -/
structure Charter where
  creator : Address
  beneficiary : Address
  token : Address
  title : Text
  description : Text
  goal : Int
  deadline : Nat
  createdAt : Nat

structure Book where
  /-- the charters of the campaigns `1, 2, ..` -/
  charters : List Charter
  /-- the receipts `1, 2, ..` -/
  receipts : List Receipt
  closed : Finset Nat
  ids : ∀ n r, numbered receipts n = some r → r.id = n
  positive : ∀ r ∈ receipts, 0 < r.amount
  known : ∀ r ∈ receipts, r.campaignId ≤ charters.length
  closed_known : ∀ id ∈ closed, id ≤ charters.length

namespace Book

def empty : Book :=
  { charters := [], receipts := [], closed := ∅
    ids := fun n _ h => by cases n <;> cases h
    positive := fun _ h => absurd h List.not_mem_nil
    known := fun _ h => absurd h List.not_mem_nil
    closed_known := fun _ h => absurd h (Finset.notMem_empty _) }

def receiptsTo (k : Book) (id : Nat) : List Receipt :=
  k.receipts.filter fun r => r.campaignId = id

def donorTotal (k : Book) (id : Nat) (d : Address) : Int :=
  totalOf Receipt.donor Receipt.amount d (k.receiptsTo id)

/-- The record of a campaign, every figure of it computed from the receipts. -/
def record (k : Book) (id : Nat) (ch : Charter) : Campaign :=
  { id
    creator := ch.creator
    beneficiary := ch.beneficiary
    token := ch.token
    title := ch.title
    description := ch.description
    goal := ch.goal
    deadline := ch.deadline
    raised := total Receipt.amount (k.receiptsTo id)
    donorCount := (keys Receipt.donor (k.receiptsTo id)).card
    donationCount := (k.receiptsTo id).length
    isOpen := decide (id ∉ k.closed)
    createdAt := ch.createdAt }

def campaign? (k : Book) (id : Nat) : Option Campaign :=
  (numbered k.charters id).map (k.record id)

theorem positive_receiptsTo (k : Book) (id : Nat) : ∀ r ∈ k.receiptsTo id, 0 < r.amount :=
  fun r hr => k.positive r (List.mem_of_mem_filter hr)

/-- Nothing is booked for a campaign that does not exist yet. -/
theorem receiptsTo_of_lt {k : Book} {id : Nat} (h : k.charters.length < id) :
    k.receiptsTo id = [] := by
  refine List.filter_eq_nil_iff.mpr ?_
  intro r hr he
  have hle := k.known r hr
  have heq : r.campaignId = id := of_decide_eq_true he
  omega

theorem campaign?_eq_some {k : Book} {id : Nat} {x : Campaign} :
    k.campaign? id = some x ↔ ∃ ch, numbered k.charters id = some ch ∧ k.record id ch = x :=
  Option.map_eq_some_iff

/-! ## 2. Entries -/

def create (k : Book) (ch : Charter) : Book :=
  { k with
    charters := k.charters ++ [ch]
    known := by
      intro r hr
      have := k.known r hr
      simp only [List.length_append, List.length_singleton]
      omega
    closed_known := by
      intro id hid
      have := k.closed_known id hid
      simp only [List.length_append, List.length_singleton]
      omega }

def close (k : Book) (id : Nat) (hid : id ≤ k.charters.length) : Book :=
  { k with
    closed := insert id k.closed
    closed_known := by
      intro id' h
      rcases Finset.mem_insert.mp h with rfl | h
      · exact hid
      · exact k.closed_known id' h }

def give (k : Book) (r : Receipt) (hid : r.id = k.receipts.length + 1) (hpos : 0 < r.amount)
    (hknown : r.campaignId ≤ k.charters.length) : Book :=
  { k with
    receipts := k.receipts ++ [r]
    ids := by
      intro n r' h
      rw [numbered_snoc] at h
      split at h
      · cases h
        omega
      · exact k.ids n r' h
    positive := by
      intro r' h
      rcases List.mem_append.mp h with h | h
      · exact k.positive r' h
      · exact List.mem_singleton.mp h ▸ hpos
    known := by
      intro r' h
      rcases List.mem_append.mp h with h | h
      · exact k.known r' h
      · exact List.mem_singleton.mp h ▸ hknown }

section Entries

variable {k : Book} {r : Receipt} {hid : r.id = k.receipts.length + 1} {hpos : 0 < r.amount}
  {hknown : r.campaignId ≤ k.charters.length}

@[simp] theorem receiptsTo_create (ch : Charter) (id : Nat) :
    (k.create ch).receiptsTo id = k.receiptsTo id := rfl

@[simp] theorem receiptsTo_close {id : Nat} (h : id ≤ k.charters.length) (id' : Nat) :
    (k.close id h).receiptsTo id' = k.receiptsTo id' := rfl

@[simp] theorem receiptsTo_give (id : Nat) : (k.give r hid hpos hknown).receiptsTo id
    = if r.campaignId = id then k.receiptsTo id ++ [r] else k.receiptsTo id := by
  by_cases h : r.campaignId = id <;> simp [receiptsTo, give, List.filter_append, h]

theorem campaign?_create (ch : Charter) (id : Nat) :
    (k.create ch).campaign? id = if id = k.charters.length + 1
      then some ((k.create ch).record id ch) else k.campaign? id := by
  by_cases h : id = k.charters.length + 1
  · simp [campaign?, create, numbered_snoc, h]
  · rw [if_neg h]
    simp only [campaign?, create, numbered_snoc, if_neg h]
    rfl

/-- A campaign starts open, with nothing raised. -/
theorem record_create (ch : Charter) :
    (k.create ch).record (k.charters.length + 1) ch =
      { id := k.charters.length + 1, creator := ch.creator, beneficiary := ch.beneficiary,
        token := ch.token, title := ch.title, description := ch.description, goal := ch.goal,
        deadline := ch.deadline, raised := 0, donorCount := 0, donationCount := 0, isOpen := true,
        createdAt := ch.createdAt } := by
  have hnil : k.receiptsTo (k.charters.length + 1) = [] := receiptsTo_of_lt (Nat.lt_succ_self _)
  have hopen : k.charters.length + 1 ∉ k.closed := by
    intro h
    have := k.closed_known _ h
    omega
  simp only [record, receiptsTo_create, hnil]
  simp [create, hopen, total, keys]

theorem campaign?_close {id : Nat} (h : id ≤ k.charters.length) (id' : Nat) :
    (k.close id h).campaign? id' = if id' = id
      then (k.campaign? id).map fun x => { x with isOpen := false } else k.campaign? id' := by
  have hcharters : (k.close id h).charters = k.charters := rfl
  have hclosed : (k.close id h).closed = insert id k.closed := rfl
  by_cases he : id' = id
  · subst he
    simp only [campaign?, hcharters, Option.map_map, if_true]
    congr 1
    funext ch
    simp [record, hclosed]
  · rw [if_neg he]
    simp only [campaign?, hcharters]
    congr 1
    funext ch
    simp [record, hclosed, he]

/-- **One donation, figure by figure.** -/
theorem campaign?_give (id : Nat) :
    (k.give r hid hpos hknown).campaign? id = if id = r.campaignId
      then (k.campaign? id).map fun x => x.donated (k.donorTotal id r.donor) r.amount
      else k.campaign? id := by
  have hcharters : (k.give r hid hpos hknown).charters = k.charters := rfl
  have hclosed : (k.give r hid hpos hknown).closed = k.closed := rfl
  by_cases h : id = r.campaignId
  · subst h
    rw [if_pos rfl]
    simp only [campaign?, hcharters, Option.map_map]
    congr 1
    funext ch
    have hnew : k.donorTotal r.campaignId r.donor = 0 ↔
        r.donor ∉ keys Receipt.donor (k.receiptsTo r.campaignId) :=
      totalOf_eq_zero_iff (k.positive_receiptsTo r.campaignId)
    simp only [record, Campaign.donated, Function.comp_apply, receiptsTo_give, hclosed,
      if_true, total_snoc, card_keys_snoc, List.length_append, List.length_singleton, hnew,
      ite_not]
  · rw [if_neg h]
    simp only [campaign?, hcharters]
    congr 1
    funext ch
    simp only [record, receiptsTo_give, hclosed, if_neg (Ne.symm h)]

theorem donorTotal_give (id : Nat) (d : Address) :
    (k.give r hid hpos hknown).donorTotal id d = if id = r.campaignId ∧ d = r.donor
      then k.donorTotal id d + r.amount else k.donorTotal id d := by
  by_cases h : id = r.campaignId
  · subst h
    by_cases hd : d = r.donor
    · subst hd
      simp [donorTotal, totalOf_snoc]
    · simp [donorTotal, totalOf_snoc, hd, Ne.symm hd]
  · simp [donorTotal, h, Ne.symm h]

end Entries

end Book

/-! ## 3. The contract keeps the book -/

structure Represents (st : Store) (k : Book) : Prop where
  campaignCount : st.campaignCount = some k.charters.length
  receiptCount : st.receiptCount = some k.receipts.length
  campaign : ∀ id, st.campaignAt id = k.campaign? id
  receipt : ∀ n, st.receiptAt n = numbered k.receipts n
  total : ∀ id d, st.totalAt id d = k.donorTotal id d

theorem Represents.campaignAt_eq {st : Store} {k : Book} (hk : Represents st k) {id : Nat}
    {ch : Charter} (hch : numbered k.charters id = some ch) :
    st.campaignAt id = some (k.record id ch) :=
  (hk.campaign id).trans (Book.campaign?_eq_some.mpr ⟨ch, hch, rfl⟩)

theorem Represents.campaignAt_eq_some {st : Store} {k : Book} (hk : Represents st k) {id : Nat}
    {x : Campaign} (hx : st.campaignAt id = some x) :
    ∃ ch, numbered k.charters id = some ch ∧ k.record id ch = x :=
  Book.campaign?_eq_some.mp ((hk.campaign id).symm.trans hx)

/-- A call adds an entry to the book `k`: what it needs, and the book it leaves. -/
inductive Turns (c : Ctx) (st : Store) (k : Book) : Invocation → Book → Prop
  | create {creator beneficiary token : Address} {title description : Text} {goal : Int}
      {deadline : Nat} :
      Live st →
      Turns c st k (.createCampaign creator beneficiary token title description goal deadline)
        (k.create
          { creator, beneficiary, token, title, description, goal, deadline,
            createdAt := c.timestamp })
  | close {caller : Address} {id : Nat} {ch : Charter} (hch : numbered k.charters id = some ch) :
      caller = ch.creator ∨ st.admin = some caller → id ∉ k.closed →
      Turns c st k (.closeCampaign caller id) (k.close id (numbered_bounds hch).2)
  | give {ch : Charter} {r : Receipt} (hid : r.id = k.receipts.length + 1) (hpos : 0 < r.amount)
      (hch : numbered k.charters r.campaignId = some ch) :
      Live st → r.campaignId ∉ k.closed → c.timestamp ≤ ch.deadline → r.donor ≠ ch.beneficiary →
      r.timestamp = c.timestamp → r.ledger = c.sequence →
      Turns c st k (.donate r.donor r.campaignId r.amount r.memo)
        (k.give r hid hpos (numbered_bounds hch).2)

theorem Represents.genesis {b : Chain Store σ} (h0 : Genesis b) :
    Represents b.store Book.empty := by
  obtain ⟨c, admin, until_, w, s, hs, rfl⟩ := h0
  simp only [construct, extendInstance, Exec.bind_eq_ok, write_eq_ok, touch_eq_ok] at hs
  obtain ⟨_, _, rfl, _, _, rfl, _, _, rfl, _, _, rfl, rfl⟩ := hs
  exact
    { campaignCount := rfl
      receiptCount := rfl
      campaign := fun id => by cases id <;> rfl
      receipt := fun n => by cases n <;> rfl
      total := fun _ _ => rfl }

section Entries

variable {st : Store} {k : Book}

theorem Represents.touch (hk : Represents st k) (id : Nat) :
    Represents (st.touchCampaign c id) k :=
  { campaignCount := hk.campaignCount
    receiptCount := hk.receiptCount
    campaign := fun id' => (Store.campaignAt_touchCampaign st id id').trans (hk.campaign id')
    receipt := hk.receipt
    total := hk.total }

theorem Represents.create (hk : Represents st k) (creator beneficiary token : Address)
    (title description : Text) (goal : Int) (deadline : Nat) :
    Represents
      (Store.renewed
        { st.putCampaign c (newCampaign c (k.charters.length + 1) creator beneficiary token title
            description goal deadline) with
          campaignCount := some (k.charters.length + 1) } c)
      (k.create
        { creator, beneficiary, token, title, description, goal, deadline,
          createdAt := c.timestamp }) where
  campaignCount := by simp [Store.renewed, Book.create]
  receiptCount := hk.receiptCount
  campaign := by
    intro id
    refine (Store.campaignAt_putCampaign _ _ id).trans ?_
    rw [Book.campaign?_create, hk.campaign]
    by_cases h : id = k.charters.length + 1
    · subst h
      rw [Book.record_create]
      rfl
    · rw [if_neg h]
      exact if_neg h
  receipt := hk.receipt
  total := hk.total

theorem Represents.close (hk : Represents st k) {id : Nat} {ch : Charter}
    (hch : numbered k.charters id = some ch) :
    Represents (st.putCampaign c { k.record id ch with isOpen := false })
      (k.close id (numbered_bounds hch).2) where
  campaignCount := hk.campaignCount
  receiptCount := hk.receiptCount
  campaign := by
    intro id'
    rw [Store.campaignAt_putCampaign, hk.campaign, Book.campaign?_close,
      Book.campaign?_eq_some.mpr ⟨ch, hch, rfl⟩]
    rfl
  receipt := hk.receipt
  total := hk.total

theorem Represents.give (hk : Represents st k) {r : Receipt} {ch : Charter}
    (hid : r.id = k.receipts.length + 1) (hpos : 0 < r.amount)
    (hch : numbered k.charters r.campaignId = some ch) :
    Represents (st.recorded c (k.record r.campaignId ch) r.campaignId r)
      (k.give r hid hpos (numbered_bounds hch).2) where
  campaignCount := hk.campaignCount
  receiptCount := by simp [Store.recorded, Book.give, hid]
  campaign := by
    intro id
    rw [Store.campaignAt_recorded, hk.campaign, hk.total, Book.campaign?_give]
    by_cases h : id = r.campaignId
    · subst h
      rw [Book.campaign?_eq_some.mpr ⟨ch, hch, rfl⟩]
      rfl
    · rw [if_neg h]
      exact if_neg h
  receipt := by
    intro n
    rw [Store.receiptAt_recorded, hk.receipt, hid, Book.give, numbered_snoc]
  total := by
    intro id d
    rw [Store.totalAt_recorded, Book.donorTotal_give, hk.total, hk.total]
    by_cases h : id = r.campaignId ∧ d = r.donor
    · obtain ⟨rfl, rfl⟩ := h
      rfl
    · rw [if_neg h, if_neg h]

end Entries

/-- **Every entrypoint keeps the book.** -/
theorem Performs.turns {i : Invocation} {v : Value} {s s' : State σ} {k : Book}
    (hp : Performs T c s i v s') (hk : Represents s.store k) :
    ∃ k', Represents s'.store k' ∧ (k' = k ∨ Turns c s.store k i k') := by
  cases hp with
  | setPaused =>
    exact ⟨k, ⟨hk.campaignCount, hk.receiptCount, hk.campaign, hk.receipt, hk.total⟩, .inl rfl⟩
  | createCampaign hlive _ _ _ _ _ _ hid =>
    rw [hk.campaignCount, Option.getD_some] at hid
    subst hid
    exact ⟨_, hk.create .., .inr (.create hlive)⟩
  | closeCampaign _ hx hcloser hopen =>
    obtain ⟨ch, hch, rfl⟩ := hk.campaignAt_eq_some hx
    exact ⟨_, (hk.touch _).close hch, .inr (.close hch hcloser (of_decide_eq_true hopen))⟩
  | getCampaign => exact ⟨k, hk.touch _, .inl rfl⟩
  | donate hlive _ hamount _ hx hopen hdl hne _ _ _ hr =>
    obtain ⟨ch, hch, rfl⟩ := hk.campaignAt_eq_some hx
    rw [hk.receiptCount, Option.getD_some] at hr
    obtain ⟨hid, rfl, rfl, rfl, rfl, htime, hledger⟩ := newReceipt_eq.mp hr
    exact ⟨_, (hk.touch _).give hid hamount hch,
      .inr (.give hid hamount hch hlive (of_decide_eq_true hopen) hdl hne htime hledger)⟩
  | view => exact ⟨k, hk, .inl rfl⟩

/-- **What a step does to the book.** -/
theorem step_book {b b' : Chain Store σ} {l : DonationsLabel σ} {k : Book}
    (hstep : Step self b l b') (hk : Represents b.store k) :
    ∃ k', Represents b'.store k' ∧
      (k' = k ∨ ∃ t, l = .tx t ∧ b'.now = t.ctx.timestamp ∧ Turns t.ctx b.store k t.call k') := by
  cases hstep with
  | returned _ _ _ hd =>
    obtain ⟨k', hk', rfl | ht⟩ := (dispatch_performs hd).turns hk
    · exact ⟨_, hk', .inl rfl⟩
    · exact ⟨k', hk', .inr ⟨_, rfl, rfl, ht⟩⟩
  | failed => exact ⟨k, hk, .inl rfl⟩
  | elsewhere => exact ⟨k, hk, .inl rfl⟩

def Kept (b : Chain Store σ) : Prop := ∃ k, Represents b.store k

theorem kept_step {b b' : Chain Store σ} {l : DonationsLabel σ} (hk : Kept b)
    (hstep : Step self b l b') : Kept b' := by
  obtain ⟨k, hk⟩ := hk
  obtain ⟨k', hk', -⟩ := step_book hstep hk
  exact ⟨k', hk'⟩

theorem kept_of_runs {b b' : Chain Store σ} {ls : List (DonationsLabel σ)} (h0 : Genesis b)
    (hrun : Runs (Step self) b ls b') : Kept b' :=
  hrun.invariant (I := Kept) (fun _ _ _ => kept_step) ⟨_, Represents.genesis h0⟩

/-! ## 4. The books balance -/

/-- The stored receipts, in the order of their ids. -/
def Store.receipts (st : Store) : List Receipt :=
  (List.range' 1 (st.receiptCount.getD 0)).filterMap st.receiptAt

/-- The stored receipts of donations to the campaign `id`. -/
def Store.receiptsTo (st : Store) (id : Nat) : List Receipt :=
  st.receipts.filter fun r => r.campaignId = id

theorem Represents.receipts_eq {st : Store} {k : Book} (hk : Represents st k) :
    st.receipts = k.receipts := by
  have hread : st.receiptAt = numbered k.receipts := funext hk.receipt
  rw [Store.receipts, hk.receiptCount, Option.getD_some, hread, filterMap_numbered]

theorem Represents.receiptsTo {st : Store} {k : Book} (hk : Represents st k) (id : Nat) :
    st.receiptsTo id = k.receiptsTo id := by
  rw [Store.receiptsTo, hk.receipts_eq, Book.receiptsTo]

/-- **The books balance.**  In every reachable state every stored receipt is under its own id and
among those numbered so far, and the five figures kept about a campaign are right: what it raised
(counted by receipts and by donors), the total of each donor, the donations, the donors. -/
theorem books_balance {b b' : Chain Store σ} {ls : List (DonationsLabel σ)} (h0 : Genesis b)
    (hrun : Runs (Step self) b ls b') :
    (∀ n r, b'.store.receiptAt n = some r →
      r.id = n ∧ 1 ≤ n ∧ n ≤ b'.store.receiptCount.getD 0) ∧
    ∀ id x, b'.store.campaignAt id = some x →
      x.raised = total Receipt.amount (b'.store.receiptsTo id) ∧
      (Function.support (b'.store.totalAt id)).Finite ∧
      x.raised = ∑ᶠ d, b'.store.totalAt id d ∧
      (∀ d, b'.store.totalAt id d =
        total Receipt.amount ((b'.store.receiptsTo id).filter fun r => r.donor = d)) ∧
      x.donationCount = (b'.store.receiptsTo id).length ∧
      x.donorCount = ((b'.store.receiptsTo id).map Receipt.donor).toFinset.card := by
  obtain ⟨k, hk⟩ := kept_of_runs h0 hrun
  constructor
  · intro n r hr
    rw [hk.receipt] at hr
    have hb := numbered_bounds hr
    rw [hk.receiptCount, Option.getD_some]
    exact ⟨k.ids n r hr, hb.1, hb.2⟩
  · intro id x hx
    obtain ⟨ch, -, rfl⟩ := hk.campaignAt_eq_some hx
    have htotals : b'.store.totalAt id = fun d =>
        totalOf Receipt.donor Receipt.amount d (k.receiptsTo id) := funext (hk.total id)
    have hfin : (Function.support (b'.store.totalAt id)).Finite := by
      rw [htotals]
      exact (keys Receipt.donor (k.receiptsTo id)).finite_toSet.subset support_totalOf_subset
    rw [hk.receiptsTo]
    refine ⟨rfl, hfin, ?_, hk.total id, rfl, rfl⟩
    rw [htotals]
    exact finsum_totalOf.symm

theorem books_balance_drive :
    (Drive.given Drive.charity).store.totalAt 1 Drive.alice = 70 ∧
      total Receipt.amount ((Drive.given Drive.charity).store.receiptsTo 1) = 100 ∧
      ((((Drive.given Drive.charity).store.receiptsTo 1).map Receipt.donor).toFinset.card = 2) := by
  have hrun : Runs (Step Drive.contract) Drive.deployed (Drive.log Drive.charity)
      (Drive.given Drive.charity) := (Drive.runs Drive.charity).mono fun _ _ _ h => h.1
  have hkept : ((Drive.given Drive.charity).store.campaignAt 1).map
      (fun x => (x.raised, x.donorCount)) = some (100, 2) := by decide +kernel
  obtain ⟨x, hx, hfigures⟩ := Option.map_eq_some_iff.mp hkept
  obtain ⟨hraised, hdonors⟩ := Prod.mk.inj hfigures
  obtain ⟨hsum, -, -, -, -, hcard⟩ := (books_balance Drive.genesis hrun).2 1 x hx
  exact ⟨by decide +kernel, hsum.symm.trans hraised, hcard.symm.trans hdonors⟩

end Stellariq.Donations
