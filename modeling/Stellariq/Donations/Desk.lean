/-
# The contract and the desk

The contract, once more and without any of its storage: a desk with an admin, a switch and a book
(`Desk`).  What the desk does about a call is a ruling: the reasons to refuse it, in the order in
which they are looked at, and otherwise the answer, the book afterwards, the payment and the event
(`Desk.rule`).  Everything in a ruling is about the charters and the receipts.  Two places of the
order matter: a donor's own total and the number of donors are added up after the funds have moved
but before the campaign's total is checked, so those two overflows are aborts of the host and the
third is an error code.

From deployment on, the contract and the desk cannot be told apart from outside
(`desk_equivalent`): each sees the same calls, with the same ends, the same payments and the same
events, as the other could have.
-/
import Stellariq.Donations.Overflow
import Stellariq.Kit.Guards
import Stellariq.Kit.Refinement

namespace Stellariq.Donations

open Kit

variable {σ : Type} {T : Tokens σ} {c : Ctx} {self : Address}

/-! ## 1. The desk -/

/-- What the donations contract stores, as its specification sees it.  Where a ruling of the desk
traps because of the token, the abort may carry a code of the token's, which is not modelled. -/
structure Desk where
  admin : Address
  paused : Bool
  book : Book

/-- What the desk does about a call. -/
abbrev DeskRuling (σ : Type) : Type := Ruling Desk Value DonationEvent Empty σ DonationError

namespace Desk

def create (d : Desk) (w : World σ) (c : Ctx) (creator beneficiary token : Address)
    (title description : Text) (goal : Int) (deadline : Nat) : DeskRuling σ :=
  let id := d.book.charters.length + 1
  { guards :=
      [.err (d.paused = true) .paused,
        .host (¬ c.Authorizes creator),
        .err (goal ≤ 0) .invalidGoal,
        .err (deadline ≤ c.timestamp) .invalidDeadline,
        .err (title.len = 0 ∨ MAX_TITLE_LEN < title.len ∨ MAX_TEXT_LEN < description.len)
          .textTooLong,
        .host (U32_MAX < id)]
    reply := .count id
    store := { d with
      book := d.book.create
        { creator, beneficiary, token, title, description, goal, deadline,
          createdAt := c.timestamp } }
    world := w
    ops := [.event (.campaignCreated id creator beneficiary token goal deadline
      EVENT_SCHEMA_VERSION)] }

def close (d : Desk) (w : World σ) (c : Ctx) (caller : Address) (id : Nat) : DeskRuling σ :=
  match hch : numbered d.book.charters id with
  | none => .answer d w [.host (¬ c.Authorizes caller), .err True .campaignNotFound] .unit
  | some ch =>
    { guards :=
        [.host (¬ c.Authorizes caller),
          .err (caller ≠ ch.creator ∧ caller ≠ d.admin) .unauthorized,
          .err (id ∈ d.book.closed) .campaignClosed]
      reply := .unit
      store := { d with book := d.book.close id (numbered_bounds hch).2 }
      world := w
      ops := [.event (.campaignClosed id (total Receipt.amount (d.book.receiptsTo id))
        EVENT_SCHEMA_VERSION)] }

/-- What is looked at before the campaign of a donation is. -/
def opening (d : Desk) (c : Ctx) (donor : Address) (amount : Int) (memo : Text) :
    List (Guard DonationError) :=
  [.err (d.paused = true) .paused,
    .host (¬ c.Authorizes donor),
    .err (amount ≤ 0) .invalidAmount,
    .err (MAX_TEXT_LEN < memo.len) .textTooLong]

def give (d : Desk) (T : Tokens σ) (w : World σ) (c : Ctx) (donor : Address) (id : Nat)
    (amount : Int) (memo : Text) : DeskRuling σ :=
  match hch : numbered d.book.charters id with
  | none => .answer d w (d.opening c donor amount memo ++ [.err True .campaignNotFound]) .unit
  | some ch =>
    let donors := keys Receipt.donor (d.book.receiptsTo id)
    let raised := total Receipt.amount (d.book.receiptsTo id) + amount
    let receiptId := d.book.receipts.length + 1
    { guards := d.opening c donor amount memo ++
        [.err (id ∈ d.book.closed) .campaignClosed,
          .err (ch.deadline < c.timestamp) .campaignExpired,
          .err (donor = ch.beneficiary) .selfDonation,
          .host (w.pay T ch.token donor ch.beneficiary amount = none),
          .host (donor ∉ donors ∧ U32_MAX < donors.card + 1),
          .host (I128_MAX < d.book.donorTotal id donor + amount),
          .err (I128_MAX < raised) .invalidAmount,
          .host (U32_MAX < (d.book.receiptsTo id).length + 1),
          .host (U64_MAX < receiptId)]
      reply := .count receiptId
      store :=
        if hpos : 0 < amount then
          { d with
            book := d.book.give
              { id := receiptId, campaignId := id, donor, amount, memo, timestamp := c.timestamp,
                ledger := c.sequence } rfl hpos (numbered_bounds hch).2 }
        else d
      world := (w.pay T ch.token donor ch.beneficiary amount).getD w
      ops :=
        [.transfer ch.token donor ch.beneficiary amount,
          .event (.donationMade id donor receiptId amount raised EVENT_SCHEMA_VERSION)] }

/-- Look something up that may not be there. -/
def look {α : Type} (d : Desk) (w : World σ) (o : Option α) (e : DonationError) (f : α → Value) :
    DeskRuling σ :=
  match o with
  | none => .answer d w [.err True e] .unit
  | some a => .answer d w [] (f a)

/-- The rule book. -/
def rule (d : Desk) (T : Tokens σ) (w : World σ) (c : Ctx) : Invocation → DeskRuling σ
  | .adminAddress => .answer d w [] (.address d.admin)
  | .setPaused paused =>
    { guards := [.host (¬ c.Authorizes d.admin)], reply := .unit, store := { d with paused },
      world := w, ops := [] }
  | .isPaused => .answer d w [] (.bool d.paused)
  | .createCampaign creator beneficiary token title description goal deadline =>
    d.create w c creator beneficiary token title description goal deadline
  | .closeCampaign caller id => d.close w c caller id
  | .getCampaign id => d.look w (d.book.campaign? id) .campaignNotFound .campaign
  | .campaignCount => .answer d w [] (.count d.book.charters.length)
  | .donate donor campaignId amount memo => d.give T w c donor campaignId amount memo
  | .getReceipt id => d.look w (numbered d.book.receipts id) .receiptNotFound .receipt
  | .receiptCount => .answer d w [] (.count d.book.receipts.length)
  | .donorTotal campaignId donor => .answer d w [] (.amount (d.book.donorTotal campaignId donor))

end Desk

/-- The storage of the contract is what the desk stands for. -/
structure Stands (st : Store) (d : Desk) : Prop where
  admin : st.admin = some d.admin
  paused : st.paused = some d.paused
  book : Represents st d.book

theorem Stands.genesis {b : Chain Store σ} (h0 : Genesis b) :
    ∃ a, Stands b.store { admin := a, paused := false, book := Book.empty } := by
  have hbook := Represents.genesis h0
  obtain ⟨c, a, until_, w, s, hs, rfl⟩ := h0
  simp only [construct, extendInstance, Exec.bind_eq_ok, write_eq_ok, touch_eq_ok] at hs
  obtain ⟨_, _, rfl, _, _, rfl, _, _, rfl, _, _, rfl, rfl⟩ := hs
  exact ⟨a, rfl, rfl, hbook⟩

theorem Stands.touch {st : Store} {d : Desk} (hst : Stands st d) (id : Nat) :
    Stands (st.touchCampaign c id) d :=
  ⟨hst.admin, hst.paused, hst.book.touch id⟩

theorem Book.record_closed (k : Book) (id : Nat) (ch : Charter) :
    (k.record id ch).isOpen = false ↔ id ∈ k.closed := by
  simp [Book.record]

/-! ## 2. The checks of the contract -/

section Checks

variable {s : State σ} {d : Desk}

theorem Stands.admin_eq (hst : Stands s.store d) : Donations.admin s = (.ok d.admin, s) :=
  admin_eq_ok.mpr ⟨hst.admin, rfl⟩

theorem Stands.isPaused_eq (hst : Stands s.store d) : Donations.isPaused s = (.ok d.paused, s) :=
  Exec.gets_eq_ok.mpr ⟨by rw [hst.paused, Option.getD_some], rfl⟩

theorem Stands.ensureLive_ends (hst : Stands s.store d) :
    Ends ensureLive s [.err (d.paused = true) .paused] () s :=
  ⟨.bind_nil hst.admin_eq (.bind_nil hst.isPaused_eq (ends_failIf .rfl _ s).obeys),
    fun _ _ h => (ensureLive_eq_ok.mp h).2⟩

/-- A campaign that the book knows. -/
theorem Stands.getCampaign_eq (hst : Stands s.store d) {id : Nat} {ch : Charter}
    (hch : numbered d.book.charters id = some ch) :
    getCampaign c id s
      = (.ok (d.book.record id ch), { s with store := s.store.touchCampaign c id }) :=
  getCampaign_eq_ok.mpr ⟨hst.book.campaignAt_eq hch, rfl⟩

theorem Stands.getCampaign_none (hst : Stands s.store d) {id : Nat}
    (hch : numbered d.book.charters id = none) :
    (getCampaign c id s).1 = .err .campaignNotFound := by
  have hnone : s.store.campaign id = none := by
    have h := hst.book.campaign id
    rw [Book.campaign?, hch] at h
    exact Option.map_eq_none_iff.mp h
  have hread : (Exec.gets fun s => s.store.campaign id : Call σ _) s = (.ok none, s) :=
    Exec.gets_eq_ok.mpr ⟨hnone, rfl⟩
  rw [getCampaign, Exec.bind_of_ok hread]
  rfl

theorem checkedI128_if_of_nonneg {v : Int} (hv : 0 ≤ v) :
    checkedI128 v = if I128_MAX < v then none else some v :=
  within_if_of_le (le_trans (by decide) hv)

theorem countDonor_ends {prev : Int} {n : Nat} {p : Prop} [Decidable p] (hp : prev = 0 ↔ p)
    (s : State σ) :
    Ends (countDonor prev n) s [.host (p ∧ U32_MAX < n + 1)] (if p then n + 1 else n) s := by
  unfold countDonor
  by_cases h : p
  · rw [if_pos (hp.mpr h), if_pos h]
    refine ends_orTrap ?_ s
    rw [checkedU32_if]
    simp [h]
  · rw [if_neg (hp.not.mpr h), if_neg h]
    exact ends_single (fun hg => absurd (of_decide_eq_true hg).1 h) fun _ => rfl

theorem Stands.checkCloser_ends (hst : Stands s.store d) (caller creator : Address) :
    Ends (checkCloser caller creator) s
      [.err (caller ≠ creator ∧ caller ≠ d.admin) .unauthorized] () s := by
  refine ⟨?_, fun _ _ h => (checkCloser_eq_ok.mp h).2⟩
  unfold checkCloser
  by_cases h : caller = creator
  · rw [if_pos h]
    exact (ends_single (fun hg => absurd h (of_decide_eq_true hg).1) fun _ => rfl).obeys
  · rw [if_neg h]
    refine .bind_nil hst.admin_eq ?_
    simpa [h] using (ends_failIf (p := caller ≠ d.admin) .rfl DonationError.unauthorized s).obeys

theorem Stands.createCampaign_obeys (hst : Stands s.store d) (w : World σ)
    (creator beneficiary token : Address) (title description : Text) (goal : Int)
    (deadline : Nat) :
    Obeys (createCampaign c creator beneficiary token title description goal deadline) s
      (d.create w c creator beneficiary token title description goal deadline).guards
      (d.book.charters.length + 1) := by
  have hcount : campaignCount s = (.ok d.book.charters.length, s) :=
    Exec.gets_eq_ok.mpr ⟨by rw [hst.book.campaignCount, Option.getD_some], rfl⟩
  refine .bind_cons hst.ensureLive_ends fun _ => ?_
  refine .bind_cons (ends_requireAuth c creator s) fun _ => ?_
  refine .bind_cons (ends_failIf .rfl _ s) fun _ => ?_
  refine .bind_cons (ends_failIf .rfl _ s) fun _ => ?_
  refine .bind_cons (ends_failIf .rfl _ s) fun _ => ?_
  refine .bind_nil hcount ?_
  refine .bind_cons (ends_orTrap (checkedU32_if _) s) fun _ => ?_
  exact .bind_nil ((putCampaign_eq_ok (u := ())).mpr rfl) rfl

theorem Stands.closeCampaign_obeys (hst : Stands s.store d) (w : World σ) (caller : Address)
    (id : Nat) :
    Obeys (returning (fun _ => .unit) (closeCampaign c caller id)) s
      (d.close w c caller id).guards (d.close w c caller id).reply := by
  unfold Desk.close returning closeCampaign
  simp only [Exec.bind_assoc]
  split
  next hch =>
    refine .bind_cons (ends_requireAuth c caller s) fun _ => ?_
    exact .bind_stopped (hst.getCampaign_none hch) rfl
  next ch hch =>
    refine .bind_cons (ends_requireAuth c caller s) fun _ => ?_
    refine .bind_nil (hst.getCampaign_eq hch) ?_
    refine .bind_cons ((hst.touch id).checkCloser_ends caller ch.creator) fun _ => ?_
    refine .bind_cons (ends_failIf (d.book.record_closed id ch) _ _) fun _ => ?_
    exact .bind_nil ((putCampaign_eq_ok (u := ())).mpr rfl) rfl

/-- **The bookkeeping of a donation**, by the table of its additions. -/
theorem recordDonation_obeys {p : Prop} [Decidable p] {donor : Address} {id : Nat} {amount : Int}
    {memo : Text} {x : Campaign} {total : Int} {n : Nat} (hnew : total = 0 ↔ p)
    (htotal : s.store.totalAt id donor = total) (hn : s.store.receiptCount = some n)
    (hpos : 0 ≤ total) (hraised : 0 ≤ x.raised) (hamount : 0 < amount) :
    Obeys (recordDonation c donor id amount memo x) s
      [.host (p ∧ U32_MAX < x.donorCount + 1),
        .host (I128_MAX < total + amount),
        .err (I128_MAX < x.raised + amount) .invalidAmount,
        .host (U32_MAX < x.donationCount + 1),
        .host (U64_MAX < n + 1)] (n + 1) := by
  have hread : donorTotal id donor s = (.ok total, s) := Exec.gets_eq_ok.mpr ⟨htotal, rfl⟩
  refine .bind_nil hread ?_
  refine .bind_cons (countDonor_ends hnew s) fun _ => ?_
  refine .bind_cons (ends_orTrap (checkedI128_if_of_nonneg (by omega)) s) fun _ => ?_
  refine .bind_nil ((putTotal_eq_ok (u := ())).mpr rfl) ?_
  refine .bind_cons (ends_okOr (checkedI128_if_of_nonneg (by omega)) _ _) fun _ => ?_
  refine .bind_cons (ends_orTrap (checkedU32_if _) _) fun _ => ?_
  refine .bind_nil ((putCampaign_eq_ok (u := ())).mpr rfl) ?_
  refine .bind_nil (a := n) (Exec.gets_eq_ok.mpr ⟨?_, rfl⟩) ?_
  · exact congrArg (Option.getD · 0) hn
  · refine .bind_cons (ends_orTrap (checkedU64_if _) _) fun _ => ?_
    exact .bind_nil ((putReceipt_eq_ok (u := ())).mpr rfl) rfl

theorem Stands.donate_obeys (hst : Stands s.store d) (donor : Address) (id : Nat) (amount : Int)
    (memo : Text) :
    Obeys (returning .count (donate T c donor id amount memo)) s
      (d.give T s.world c donor id amount memo).guards
      (d.give T s.world c donor id amount memo).reply := by
  unfold Desk.give returning donate checkDonation
  simp only [Exec.bind_assoc]
  split
  next hch =>
    refine .bind_cons hst.ensureLive_ends fun _ => ?_
    refine .bind_cons (ends_requireAuth c donor s) fun _ => ?_
    refine .bind_cons (ends_failIf .rfl _ s) fun _ => ?_
    refine .bind_cons (ends_failIf .rfl _ s) fun _ => ?_
    exact .bind_stopped (hst.getCampaign_none hch) rfl
  next ch hch =>
    have hdonors : d.book.donorTotal id donor = 0 ↔
        donor ∉ keys Receipt.donor (d.book.receiptsTo id) :=
      totalOf_eq_zero_iff (d.book.positive_receiptsTo id)
    refine .bind_cons hst.ensureLive_ends fun _ => ?_
    refine .bind_cons (ends_requireAuth c donor s) fun hauth => ?_
    refine .bind_cons (ends_failIf .rfl _ s) fun hamount => ?_
    refine .bind_cons (ends_failIf .rfl _ s) fun _ => ?_
    refine .bind_nil (hst.getCampaign_eq hch) ?_
    refine .bind_cons (ends_failIf (d.book.record_closed id ch) _ _) fun _ => ?_
    refine .bind_cons (ends_failIf .rfl _ _) fun _ => ?_
    refine .bind_cons (ends_failIf .rfl _ _) fun _ => ?_
    refine .bind_nil (Exec.pure_apply _ _) ?_
    refine .bind_cons (ends_transfer (.inr (requireAuth_eq_ok.mp hauth).1)) fun _ => ?_
    have htotal : 0 ≤ d.book.donorTotal id donor :=
      hst.book.total id donor ▸ hst.book.total_nonneg id donor
    have hraised : 0 ≤ (d.book.record id ch).raised :=
      Kit.total_nonneg (d.book.positive_receiptsTo id)
    refine (recordDonation_obeys hdonors ?_ ?_ htotal hraised ?_).map Value.count
    · exact hst.book.total id donor
    · exact hst.book.receiptCount
    · exact not_le.mp (Exec.failIf_eq_ok.mp hamount).1

/-- **Every call of the contract ends as the desk rules.** -/
theorem Stands.dispatch_obeys (hst : Stands s.store d) (i : Invocation) :
    Obeys (dispatch T c i) s (d.rule T s.world c i).guards (d.rule T s.world c i).reply := by
  cases i with
  | adminAddress => exact .bind_nil hst.admin_eq rfl
  | setPaused paused =>
    refine Obeys.map (a := ()) ?_ _
    refine .bind_nil hst.admin_eq ?_
    exact .bind_cons (ends_requireAuth c d.admin s) fun _ => rfl
  | isPaused => exact .bind_nil hst.isPaused_eq rfl
  | createCampaign creator beneficiary token title description goal deadline =>
    exact (hst.createCampaign_obeys s.world creator beneficiary token title description goal
      deadline).map _
  | closeCampaign caller id => exact hst.closeCampaign_obeys s.world caller id
  | getCampaign id =>
    cases hch : numbered d.book.charters id with
    | none =>
      have hx : d.book.campaign? id = none := by rw [Book.campaign?, hch, Option.map_none]
      simp only [Desk.rule, hx]
      exact .bind_stopped (hst.getCampaign_none hch) rfl
    | some ch =>
      simp only [Desk.rule, Book.campaign?_eq_some.mpr ⟨ch, hch, rfl⟩]
      exact .bind_nil (hst.getCampaign_eq hch) rfl
  | campaignCount =>
    refine .bind_nil (a := d.book.charters.length) (Exec.gets_eq_ok.mpr ⟨?_, rfl⟩) rfl
    rw [hst.book.campaignCount, Option.getD_some]
  | donate donor campaignId amount memo => exact hst.donate_obeys donor campaignId amount memo
  | getReceipt id =>
    have hread : (Exec.gets fun s => (s.store.receipt id).map Entry.val : Call σ _) s
        = (.ok (numbered d.book.receipts id), s) := Exec.gets_eq_ok.mpr ⟨hst.book.receipt id, rfl⟩
    cases hr : numbered d.book.receipts id with
    | none =>
      simp only [Desk.rule, hr]
      refine .bind_stopped ?_ rfl
      rw [getReceipt, Exec.bind_of_ok hread, hr]
      rfl
    | some r =>
      simp only [Desk.rule, hr]
      refine .bind_nil (a := r) (t := s) ?_ rfl
      rw [getReceipt, Exec.bind_of_ok hread, hr]
      rfl
  | receiptCount =>
    refine .bind_nil (a := d.book.receipts.length) (Exec.gets_eq_ok.mpr ⟨?_, rfl⟩) rfl
    rw [hst.book.receiptCount, Option.getD_some]
  | donorTotal campaignId donor =>
    exact .bind_nil (Exec.gets_eq_ok.mpr ⟨hst.book.total campaignId donor, rfl⟩) rfl

end Checks

/-! ## 3. What the calls leave -/

section Leaves

variable {s s' : State σ} {d : Desk}

theorem Desk.close_of_some (d : Desk) (w : World σ) (caller : Address) {id : Nat} {ch : Charter}
    (hch : numbered d.book.charters id = some ch) :
    (d.close w c caller id).store
        = { d with book := d.book.close id (numbered_bounds hch).2 } ∧
      (d.close w c caller id).world = w ∧
      (d.close w c caller id).ops
        = [.event (.campaignClosed id (total Receipt.amount (d.book.receiptsTo id))
            EVENT_SCHEMA_VERSION)] := by
  unfold Desk.close
  split
  next hnone => rw [hch] at hnone; cases hnone
  next => exact ⟨rfl, rfl, rfl⟩

theorem Desk.give_of_some (d : Desk) {w w' : World σ} {donor : Address} {id : Nat} {amount : Int}
    (memo : Text) {ch : Charter} (hch : numbered d.book.charters id = some ch) (hpos : 0 < amount)
    (hpay : w.pay T ch.token donor ch.beneficiary amount = some w') :
    (d.give T w c donor id amount memo).store
        = { d with
            book := d.book.give
              (newReceipt c (d.book.receipts.length + 1) id donor amount memo) rfl hpos
              (numbered_bounds hch).2 } ∧
      (d.give T w c donor id amount memo).world = w' ∧
      (d.give T w c donor id amount memo).ops
        = [.transfer ch.token donor ch.beneficiary amount,
            .event (.donationMade id donor (d.book.receipts.length + 1) amount
              (total Receipt.amount (d.book.receiptsTo id) + amount) EVENT_SCHEMA_VERSION)] := by
  unfold Desk.give
  split
  next hnone => rw [hch] at hnone; cases hnone
  next ch' hch' =>
    obtain rfl : ch = ch' := Option.some.inj (hch.symm.trans hch')
    exact ⟨dif_pos hpos, by rw [hpay, Option.getD_some], rfl⟩

theorem Desk.look_idle {α : Type} (d : Desk) (w : World σ) (o : Option α) (e : DonationError)
    (f : α → Value) : (d.look w o e f).Idle d w := by
  cases o <;> exact Ruling.idle_answer ..

/-- **A call that returned leaves what the desk rules.** -/
theorem Performs.ruled {i : Invocation} {v : Value} (hp : Performs T c s i v s')
    (hst : Stands s.store d) :
    Stands s'.store (d.rule T s.world c i).store ∧ (d.rule T s.world c i).world = s'.world ∧
      seenOf s'.log = seenOf s.log ++ (d.rule T s.world c i).ops := by
  cases hp with
  | setPaused =>
    have hk := hst.book
    exact ⟨⟨hst.admin, rfl, hk.campaignCount, hk.receiptCount, hk.campaign, hk.receipt, hk.total⟩,
      rfl, seenOf_append _ _⟩
  | createCampaign _ _ _ _ _ _ _ hid =>
    rw [hst.book.campaignCount, Option.getD_some] at hid
    subst hid
    exact ⟨⟨hst.admin, hst.paused, hst.book.create ..⟩, rfl, seenOf_append _ _⟩
  | @closeCampaign caller id x _ hx =>
    obtain ⟨ch, hch, rfl⟩ := hst.book.campaignAt_eq_some hx
    obtain ⟨hdesk, hworld, hops⟩ := d.close_of_some (c := c) s.world caller hch
    rw [Desk.rule, hdesk, hworld, hops]
    exact ⟨⟨hst.admin, hst.paused, (hst.book.touch id).close hch⟩, rfl, seenOf_append _ _⟩
  | @getCampaign id x =>
    obtain ⟨hdesk, hworld, hops⟩ :=
      d.look_idle s.world (d.book.campaign? id) .campaignNotFound Value.campaign
    rw [Desk.rule, hdesk, hworld, hops, List.append_nil]
    exact ⟨hst.touch id, rfl, rfl⟩
  | @donate donor id amount memo x r w _ _ hamount _ hx _ _ _ hpay _ _ hr =>
    obtain ⟨ch, hch, rfl⟩ := hst.book.campaignAt_eq_some hx
    rw [hst.book.receiptCount, Option.getD_some] at hr
    subst hr
    obtain ⟨hdesk, hworld, hops⟩ := d.give_of_some (c := c) memo hch hamount hpay
    rw [Desk.rule, hdesk, hworld, hops]
    refine ⟨⟨?_, ?_, (hst.book.touch id).give rfl hamount hch⟩, rfl, seenOf_append _ _⟩
    · exact (Store.admin_recorded ..).trans hst.admin
    · exact (Store.paused_recorded ..).trans hst.paused
  | view hi =>
    have hidle : (d.rule T s.world c i).Idle d s.world := by
      rcases hi with rfl | rfl | rfl | ⟨id, rfl⟩ | rfl | ⟨id, donor, rfl⟩
      case inr.inr.inr.inl => exact d.look_idle s.world _ _ _
      all_goals exact Ruling.idle_answer ..
    obtain ⟨hdesk, hworld, hops⟩ := hidle
    rw [hdesk, hworld, hops, List.append_nil]
    exact ⟨hst, rfl, rfl⟩

end Leaves

/-! ## 4. The contract and the desk cannot be told apart -/

/-- **The contract goes by the book.** -/
theorem dispatch_follows : Follows (dispatch (σ := σ)) Desk.rule Stands where
  ends T c i w hst := Stands.dispatch_obeys (s := ⟨_, w, []⟩) hst i
  leaves := by
    intro st d T c i w v s hst hok
    obtain ⟨hst', hworld, hlog⟩ := (dispatch_performs hok).ruled hst
    exact ⟨hst', hworld, hlog.symm⟩

/-- The steps of the desk, as a contract at the address `self`. -/
abbrev DeskStep (self : Address) : Chain Desk σ →
    Label (Tokens σ) Invocation Value Empty DonationEvent Empty DonationError → Chain Desk σ →
    Prop :=
  TxStep (serveBy Desk.rule) self

/-- The desk on the first day. -/
def Desk.opened (admin : Address) : Desk := { admin, paused := false, book := Book.empty }

/-- **The contract and the desk cannot be told apart.**  A deployed contract has an admin such that
what can be seen of it in any run can be seen of a desk opened by that admin, and the other way
round, with the same world, time and ledger at the end, and a desk that stands for the storage. -/
theorem desk_equivalent {b : Chain Store σ} (h0 : Genesis b) :
    ∃ a, b.store.admin = some a ∧
      (∀ ls b', Runs (Step self) b ls b' →
        ∃ d, Stands b'.store d ∧
          Runs (DeskStep self) (b.holding (Desk.opened a)) (ls.map Label.seen)
            (b'.holding d)) ∧
      ∀ ms e, Runs (DeskStep self) (b.holding (Desk.opened a)) ms e →
        ∃ ls b', ms = ls.map Label.seen ∧ Runs (Step self) b ls b' ∧ Stands b'.store e.store ∧
          e = b'.holding e.store := by
  obtain ⟨a, hst⟩ := Stands.genesis h0
  exact ⟨a, hst.admin, fun ls b' hrun => dispatch_follows.answers.sound hrun hst,
    fun ms e hrun => dispatch_follows.answers.complete hrun hst⟩

theorem desk_equivalent_drive :
    ∃ a d, Runs (DeskStep Drive.contract) (Drive.deployed.holding (Desk.opened a))
        ((Drive.log Drive.charity).map Label.seen) ((Drive.given Drive.charity).holding d) ∧
      d.book.receipts.length = 3 := by
  have hrun : Runs (Step Drive.contract) Drive.deployed (Drive.log Drive.charity)
      (Drive.given Drive.charity) := (Drive.runs Drive.charity).mono fun _ _ _ h => h.1
  have hcount : (Drive.given Drive.charity).store.receiptCount = some 3 := by decide +kernel
  obtain ⟨a, -, hsound, -⟩ := desk_equivalent Drive.genesis
  obtain ⟨d, hst, hruns⟩ := hsound _ _ hrun
  exact ⟨a, d, hruns, Option.some.inj (hst.book.receiptCount.symm.trans hcount)⟩

end Stellariq.Donations
