/-
# The event log

An indexer sees nothing of the contract but its events.  Every entry of the book comes with one
event (`Enters`), so a run of the contract is, event by event, a run of the book
(`runs_enter`), and what the log says can be read off the book at the point where the event
was published and compared with the book at the end: the book only grows in between, and a closed
campaign gets no more entries.
-/
import Stellariq.Donations.Frozen

namespace Stellariq.Donations

open Kit

variable {σ : Type} {T : Tokens σ} {c : Ctx} {self : Address}

/-! ## 1. Reading events -/

namespace DonationEvent

def isCreated : DonationEvent → Bool
  | .campaignCreated .. => true
  | _ => false

def isMade : DonationEvent → Bool
  | .donationMade .. => true
  | _ => false

/-- The event says that the campaign `id` was closed. -/
def closes (id : Nat) : DonationEvent → Bool
  | .campaignClosed id' _ _ => id' = id
  | _ => false

/-- The amount, of a donation to the campaign `id`. -/
def gift? (id : Nat) : DonationEvent → Option Int
  | .donationMade id' _ _ amount _ _ => if id' = id then some amount else none
  | _ => none

end DonationEvent

/-- The sum of the donations to the campaign `id` that the log tells of. -/
def given (id : Nat) (es : List DonationEvent) : Int := (es.filterMap (·.gift? id)).sum

theorem given_snoc (id : Nat) (es : List DonationEvent) (e : DonationEvent) :
    given id (es ++ [e]) = given id es + (e.gift? id).getD 0 := by
  cases he : e.gift? id <;> simp [given, List.filterMap_append, he]

/-! ## 2. Entries and their events -/

/-- An entry of the book, and the event that tells of it. -/
inductive Enters (k : Book) : DonationEvent → Book → Prop
  | create (ch : Charter) :
      Enters k
        (.campaignCreated (k.charters.length + 1) ch.creator ch.beneficiary ch.token ch.goal
          ch.deadline EVENT_SCHEMA_VERSION)
        (k.create ch)
  | close {id : Nat} {ch : Charter} (hch : numbered k.charters id = some ch) :
      id ∉ k.closed →
      Enters k
        (.campaignClosed id (total Receipt.amount (k.receiptsTo id)) EVENT_SCHEMA_VERSION)
        (k.close id (numbered_bounds hch).2)
  | give {r : Receipt} {ch : Charter} (hid : r.id = k.receipts.length + 1) (hpos : 0 < r.amount)
      (hch : numbered k.charters r.campaignId = some ch) :
      r.campaignId ∉ k.closed →
      Enters k
        (.donationMade r.campaignId r.donor r.id r.amount
          (total Receipt.amount (k.receiptsTo r.campaignId) + r.amount) EVENT_SCHEMA_VERSION)
        (k.give r hid hpos (numbered_bounds hch).2)

/-- **Every entrypoint publishes the entry it makes.** -/
theorem Performs.enters {i : Invocation} {v : Value} {s s' : State σ} {k : Book}
    (hp : Performs T c s i v s') (hk : Represents s.store k) :
    ∃ k' ops, s'.log = s.log ++ ops ∧ Represents s'.store k' ∧
      Runs Enters k (eventsOf ops) k' := by
  cases hp with
  | setPaused =>
    exact ⟨k, [.write .paused], rfl,
      ⟨hk.campaignCount, hk.receiptCount, hk.campaign, hk.receipt, hk.total⟩, .refl k⟩
  | @createCampaign creator beneficiary token title description goal deadline id _ _ _ _ _ _ _
      hid =>
    rw [hk.campaignCount, Option.getD_some] at hid
    subst hid
    have hentry := Enters.create (k := k)
      { creator, beneficiary, token, title, description, goal, deadline, createdAt := c.timestamp }
    exact ⟨_, _, rfl, hk.create .., Runs.single hentry⟩
  | closeCampaign _ hx _ hopen =>
    obtain ⟨ch, hch, rfl⟩ := hk.campaignAt_eq_some hx
    exact ⟨_, _, rfl, (hk.touch _).close hch,
      Runs.single (.close hch (of_decide_eq_true hopen))⟩
  | getCampaign => exact ⟨k, [], (List.append_nil _).symm, hk.touch _, .refl k⟩
  | donate _ _ hamount _ hx hopen _ _ _ _ _ hr =>
    obtain ⟨ch, hch, rfl⟩ := hk.campaignAt_eq_some hx
    rw [hk.receiptCount, Option.getD_some] at hr
    obtain ⟨hid, rfl, rfl, rfl, -, -, -⟩ := newReceipt_eq.mp hr
    exact ⟨_, _, rfl, (hk.touch _).give hid hamount hch,
      Runs.single (.give hid hamount hch (of_decide_eq_true hopen))⟩
  | view => exact ⟨k, [], (List.append_nil _).symm, hk, .refl k⟩

theorem step_enters {b b' : Chain Store σ} {l : DonationsLabel σ} {k : Book}
    (hk : Represents b.store k) (hstep : Step self b l b') :
    ∃ k', Represents b'.store k' ∧ Runs Enters k l.events k' := by
  cases hstep with
  | returned _ _ _ hd =>
    obtain ⟨k', ops, hlog, hk', hruns⟩ := (dispatch_performs hd).enters hk
    refine ⟨k', hk', ?_⟩
    rw [Label.events, hlog]
    exact hruns
  | failed => exact ⟨k, hk, .refl k⟩
  | elsewhere => exact ⟨k, hk, .refl k⟩

/-- **A run of the contract is a run of the book**, labelled by the event log. -/
theorem runs_enter {b b' : Chain Store σ} {ls : List (DonationsLabel σ)} (h0 : Genesis b)
    (hrun : Runs (Step self) b ls b') :
    ∃ k, Represents b'.store k ∧ Runs Enters Book.empty (journal ls) k :=
  hrun.simulates (fun b k => Represents b.store k) Label.events
    (fun _ _ _ _ => step_enters) (Represents.genesis h0)

/-! ## 3. What the log counts -/

/-- The log `es` tells of everything in the book, and of nothing else. -/
structure Tells (es : List DonationEvent) (k : Book) : Prop where
  created : es.countP DonationEvent.isCreated = k.charters.length
  made : es.countP DonationEvent.isMade = k.receipts.length
  given : ∀ id, given id es = total Receipt.amount (k.receiptsTo id)
  closings : ∀ id, es.countP (DonationEvent.closes id) = if id ∈ k.closed then 1 else 0

theorem tells_nil : Tells [] Book.empty :=
  ⟨rfl, rfl, fun _ => rfl, fun _ => rfl⟩

theorem countP_snoc (p : DonationEvent → Bool) (es : List DonationEvent) (e : DonationEvent) :
    (es ++ [e]).countP p = es.countP p + if p e then 1 else 0 := by
  simp [List.countP_append, List.countP_singleton]

theorem Tells.snoc {es : List DonationEvent} {k k' : Book} {e : DonationEvent}
    (ht : Tells es k) (he : Enters k e k') : Tells (es ++ [e]) k' := by
  cases he with
  | create ch =>
    refine ⟨?_, ?_, fun id => ?_, fun id => ?_⟩
    · rw [countP_snoc, ht.created]
      simp [DonationEvent.isCreated, Book.create]
    · exact (countP_snoc ..).trans ht.made
    · simp [given_snoc, DonationEvent.gift?, ht.given]
    · exact (countP_snoc ..).trans (ht.closings id)
  | @close id ch hch hopen =>
    refine ⟨?_, ?_, fun id' => ?_, fun id' => ?_⟩
    · exact (countP_snoc ..).trans ht.created
    · exact (countP_snoc ..).trans ht.made
    · simp [given_snoc, DonationEvent.gift?, ht.given]
    · have hold := ht.closings id'
      rw [countP_snoc]
      by_cases hid : id' = id
      · subst hid
        rw [hold, if_neg hopen]
        simp [DonationEvent.closes, Book.close]
      · rw [hold]
        simp [DonationEvent.closes, Book.close, hid, Ne.symm hid]
  | @give r ch hid hpos hch hopen =>
    refine ⟨?_, ?_, fun id => ?_, fun id => ?_⟩
    · exact (countP_snoc ..).trans ht.created
    · rw [countP_snoc, ht.made]
      simp [DonationEvent.isMade, Book.give]
    · by_cases h : r.campaignId = id
      · simp [given_snoc, DonationEvent.gift?, ht.given, h, total_snoc]
      · simp [given_snoc, DonationEvent.gift?, ht.given, h]
    · exact (countP_snoc ..).trans (ht.closings id)

/-- **The log tells of the whole book.** -/
theorem tells_of_runs {es : List DonationEvent} {k : Book} (h : Runs Enters Book.empty es k) :
    Tells es k :=
  h.invariant_labels (I := Tells) (fun _ _ _ _ => Tells.snoc) tells_nil

/-! ## 4. What comes after an event -/

section

variable {k k' : Book} {e : DonationEvent} {es : List DonationEvent} {id : Nat}

theorem Enters.extends (he : Enters k e k') : k.Extends k' := by
  cases he with
  | create => exact k.extends_create _
  | close => exact k.extends_close _
  | give => exact k.extends_give ..

theorem Enters.receiptsTo (he : Enters k e k') (hid : e.gift? id = none) :
    k'.receiptsTo id = k.receiptsTo id := by
  cases he with
  | create => rfl
  | close => rfl
  | @give r ch _ _ _ _ =>
    have hne : r.campaignId ≠ id := by
      intro h
      simp [DonationEvent.gift?, h] at hid
    rw [Book.receiptsTo_give, if_neg hne]

/-- A closed campaign gets no more entries. -/
theorem Enters.closed (he : Enters k e k') (hid : id ∈ k.closed) :
    e.gift? id = none ∧ e.closes id = false := by
  cases he with
  | create => exact ⟨rfl, rfl⟩
  | @close id' ch _ hopen =>
    have hne : id' ≠ id := fun h => hopen (h ▸ hid)
    exact ⟨rfl, decide_eq_false hne⟩
  | @give r ch _ _ _ hopen =>
    have hne : r.campaignId ≠ id := fun h => hopen (h ▸ hid)
    exact ⟨if_neg hne, rfl⟩

theorem extends_of_runs (h : Runs Enters k es k') : k.Extends k' :=
  h.relates (I := fun _ => True) (R := Book.Extends) (fun _ _ _ _ _ => trivial)
    Book.Extends.refl (fun _ _ _ => Book.Extends.trans) (fun _ _ _ _ => Enters.extends) trivial

theorem receiptsTo_of_runs (h : Runs Enters k es k') (hid : ∀ e ∈ es, e.gift? id = none) :
    k'.receiptsTo id = k.receiptsTo id := by
  induction h with
  | refl => rfl
  | tail _ he ih =>
    rw [he.receiptsTo (hid _ (by simp)), ih fun e he => hid e (by simp [he])]

theorem closed_of_runs (h : Runs Enters k es k') (hid : id ∈ k.closed) :
    ∀ e ∈ es, e.gift? id = none ∧ e.closes id = false := by
  induction h with
  | refl => exact fun _ h => absurd h List.not_mem_nil
  | tail hr he ih =>
    intro e hmem
    rcases List.mem_append.mp hmem with hmem | hmem
    · exact ih e hmem
    · rw [List.mem_singleton.mp hmem]
      exact he.closed ((extends_of_runs hr).closed id hid)

end

/-! ## 5. The log and the store -/

/-- What is true of an event that was published after `pre` and before `post`. -/
def Told (st : Store) (pre post : List DonationEvent) : DonationEvent → Prop
  | .campaignCreated id creator beneficiary token goal deadline _ =>
    id = pre.countP DonationEvent.isCreated + 1 ∧
      ∃ x, st.campaignAt id = some x ∧ x.creator = creator ∧ x.beneficiary = beneficiary ∧
        x.token = token ∧ x.goal = goal ∧ x.deadline = deadline
  | .donationMade id donor rid amount raised _ =>
    rid = pre.countP DonationEvent.isMade + 1 ∧
      (∃ r, st.receiptAt rid = some r ∧ r.campaignId = id ∧ r.donor = donor ∧
        r.amount = amount) ∧
      raised = given id pre + amount ∧
      ((∀ e ∈ post, e.gift? id = none) → ∃ x, st.campaignAt id = some x ∧ x.raised = raised)
  | .campaignClosed id raised _ =>
    (∀ e ∈ pre, e.closes id = false) ∧
      (∀ e ∈ post, e.gift? id = none ∧ e.closes id = false) ∧
      ∃ x, st.campaignAt id = some x ∧ x.isOpen = false ∧ x.raised = raised

theorem told_of_runs {st : Store} {k : Book} {pre post : List DonationEvent} {e : DonationEvent}
    (hk : Represents st k) (h : Runs Enters Book.empty (pre ++ e :: post) k) :
    Told st pre post e := by
  obtain ⟨k₁, k₂, hpre, he, hpost⟩ := h.split_at
  have htells := tells_of_runs hpre
  have hext := extends_of_runs hpost
  cases he with
  | create ch =>
    have hch := hext.charter (k₁.charters.length + 1) ch (by simp [Book.create, numbered])
    exact ⟨by rw [htells.created], _, hk.campaignAt_eq hch, rfl, rfl, rfl, rfl, rfl⟩
  | @close id ch hch hopen =>
    have hclosed : id ∈ (k₁.close id (numbered_bounds hch).2).closed :=
      Finset.mem_insert_self id k₁.closed
    have hafter := closed_of_runs hpost hclosed
    have hgifts : k.receiptsTo id = k₁.receiptsTo id :=
      (receiptsTo_of_runs hpost fun e he => (hafter e he).1).trans (Book.receiptsTo_close _ id)
    have hbefore : pre.countP (DonationEvent.closes id) = 0 := by
      rw [htells.closings, if_neg hopen]
    refine ⟨fun e he => ?_, hafter, k.record id ch, ?_, ?_, ?_⟩
    · exact Bool.eq_false_of_not_eq_true (List.countP_eq_zero.mp hbefore e he)
    · exact hk.campaignAt_eq (hext.charter id ch hch)
    · exact decide_eq_false (not_not.mpr (hext.closed id hclosed))
    · rw [Book.record, hgifts]
  | @give r ch hid hpos hch hopen =>
    have hnew : numbered (k₁.receipts ++ [r]) r.id = some r := by
      rw [numbered_snoc, if_pos hid]
    refine ⟨by rw [htells.made, hid], ⟨r, (hk.receipt _).trans (hext.receipt _ _ hnew), rfl, rfl,
      rfl⟩, by rw [htells.given], fun hlast => ⟨k.record r.campaignId ch, ?_, ?_⟩⟩
    · exact hk.campaignAt_eq (hext.charter _ ch hch)
    · rw [Book.record, receiptsTo_of_runs hpost hlast, Book.receiptsTo_give, if_pos rfl,
        total_snoc]

/-- A campaign is closed exactly when there is an event for that, and there is at most one. -/
theorem closed_iff_told {st : Store} {k : Book} {es : List DonationEvent} (hk : Represents st k)
    (h : Runs Enters Book.empty es k) (id : Nat) :
    es.countP (DonationEvent.closes id) ≤ 1 ∧
      ((∃ x, st.campaignAt id = some x ∧ x.isOpen = false) ↔
        es.countP (DonationEvent.closes id) = 1) := by
  have hcount := (tells_of_runs h).closings id
  constructor
  · rw [hcount]
    split <;> decide
  · constructor
    · rintro ⟨x, hx, hopen⟩
      obtain ⟨ch, -, rfl⟩ := hk.campaignAt_eq_some hx
      rw [hcount, if_pos (not_not.mp (of_decide_eq_false hopen))]
    · intro hone
      obtain ⟨e, he, hcloses⟩ := List.countP_pos_iff.mp (hone ▸ Nat.one_pos)
      obtain ⟨pre, post, rfl⟩ := List.append_of_mem he
      have htold := told_of_runs hk h
      cases e with
      | campaignClosed id' raised version =>
        obtain ⟨-, -, x, hx, hopen, -⟩ := htold
        have hid : id' = id := of_decide_eq_true hcloses
        exact ⟨x, hid ▸ hx, hopen⟩
      | campaignCreated => cases hcloses
      | donationMade => cases hcloses

/-- **The event log and the store agree.**  In every run every event is what the store says at its
end, and for every campaign, every receipt and every closed campaign of the store there is an
event. -/
theorem log_agrees {b b' : Chain Store σ} {ls : List (DonationsLabel σ)} (h0 : Genesis b)
    (hrun : Runs (Step self) b ls b') :
    (∀ pre e post, journal ls = pre ++ e :: post → Told b'.store pre post e) ∧
      (journal ls).countP DonationEvent.isCreated = b'.store.campaignCount.getD 0 ∧
      (journal ls).countP DonationEvent.isMade = b'.store.receiptCount.getD 0 ∧
      ∀ id, (journal ls).countP (DonationEvent.closes id) ≤ 1 ∧
        ((∃ x, b'.store.campaignAt id = some x ∧ x.isOpen = false) ↔
          (journal ls).countP (DonationEvent.closes id) = 1) := by
  obtain ⟨k, hk, hruns⟩ := runs_enter h0 hrun
  have htells := tells_of_runs hruns
  refine ⟨fun pre e post hsplit => ?_, ?_, ?_, closed_iff_told hk hruns⟩
  · rw [hsplit] at hruns
    exact told_of_runs hk hruns
  · rw [htells.created, hk.campaignCount, Option.getD_some]
  · rw [htells.made, hk.receiptCount, Option.getD_some]

theorem log_agrees_drive :
    (∃ pre post, journal (Drive.log Drive.charity) = pre ++
      .donationMade 1 Drive.alice 3 10 100 EVENT_SCHEMA_VERSION :: post ∧
      given 1 pre + 10 = 100) ∧
      (journal (Drive.log Drive.charity)).countP DonationEvent.isMade = 3 := by
  have hrun : Runs (Step Drive.contract) Drive.deployed (Drive.log Drive.charity)
      (Drive.given Drive.charity) := (Drive.runs Drive.charity).mono fun _ _ _ h => h.1
  obtain ⟨htold, -, hmade, -⟩ := log_agrees Drive.genesis hrun
  have hlog : journal (Drive.log Drive.charity) = (journal (Drive.log Drive.charity)).take 3 ++
      .donationMade 1 Drive.alice 3 10 100 EVENT_SCHEMA_VERSION :: [] := by decide +kernel
  obtain ⟨-, -, hraised, -⟩ := htold _ _ _ hlog
  exact ⟨⟨_, [], hlog, hraised.symm⟩, hmade.trans (by decide +kernel)⟩

end Stellariq.Donations
