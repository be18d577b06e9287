/-
# Nothing but the public record

Lifetimes aside, the contract has no hidden state: its admin, its switch, the campaigns and the
receipts decide everything that it will ever do, and all of them can be read.  So two deployments,
each after a history of its own, that tell the same of these four behave the same from then on
(`records_tell_all`).

Of a book the public record is everything but the closed ids of campaigns that do not exist, and a
book without such ids stands for the same storage (`Represents.tidy`).  Hence both deployments stand
for one desk, and what follows of one follows of the other by way of it.
-/
import Stellariq.Donations.Desk

namespace Stellariq.Donations

open Kit

variable {σ : Type} {T : Tokens σ} {c : Ctx} {self : Address}

/-! ## 1. Books from their records -/

namespace Book

/-- The book without an id that no campaign has. -/
def tidy (k : Book) : Book :=
  { k with
    closed := k.closed.erase 0
    closed_known := fun id hid => k.closed_known id (Finset.mem_of_mem_erase hid) }

theorem campaign?_tidy (k : Book) (id : Nat) : k.tidy.campaign? id = k.campaign? id := by
  cases id with
  | zero => rfl
  | succ n =>
    have hclosed : n + 1 ∈ k.tidy.closed ↔ n + 1 ∈ k.closed := by simp [tidy]
    have hrecord : k.tidy.record (n + 1) = k.record (n + 1) := by
      funext ch
      simp only [record, hclosed]
      rfl
    rw [campaign?, campaign?, hrecord]
    rfl

theorem record_inj {k k' : Book} {id : Nat} {ch ch' : Charter}
    (h : k.record id ch = k'.record id ch') : ch = ch' ∧ (id ∈ k.closed ↔ id ∈ k'.closed) := by
  simp only [record, Campaign.mk.injEq, decide_eq_decide] at h
  rcases h with ⟨-, hcreator, hbeneficiary, htoken, htitle, hdescription, hgoal, hdeadline, -, -, -,
    hclosed, hcreated⟩
  refine ⟨?_, not_iff_not.mp hclosed⟩
  cases ch
  cases ch'
  simp_all

/-- **A book is its records.** -/
theorem eq_of_records {k k' : Book} (hcampaign : ∀ id, k.campaign? id = k'.campaign? id)
    (hreceipt : ∀ n, numbered k.receipts n = numbered k'.receipts n) (hk : 0 ∉ k.closed)
    (hk' : 0 ∉ k'.closed) : k = k' := by
  have hrecords : ∀ {id ch}, numbered k.charters id = some ch →
      numbered k'.charters id = some ch ∧ (id ∈ k.closed ↔ id ∈ k'.closed) := by
    intro id ch hch
    have h := (campaign?_eq_some.mpr ⟨ch, hch, rfl⟩).symm.trans (hcampaign id)
    rcases campaign?_eq_some.mp h.symm with ⟨ch', hch', heq⟩
    rcases record_inj heq with ⟨rfl, hclosed⟩
    exact ⟨hch', hclosed.symm⟩
  have hcharters : k.charters = k'.charters := by
    refine numbered_ext ?_
    intro id
    have h := hcampaign id
    cases hch : numbered k.charters id with
    | none =>
      rw [campaign?, campaign?, hch, Option.map_none] at h
      exact (Option.map_eq_none_iff.mp h.symm).symm
    | some ch => exact (hrecords hch).1.symm
  have hclosed : k.closed = k'.closed := by
    refine Finset.ext ?_
    intro id
    cases hch : numbered k.charters id with
    | some ch => exact (hrecords hch).2
    | none =>
      -- an id without a charter is zero or beyond both lists, and closed in neither
      have hnot : ¬ (1 ≤ id ∧ id ≤ k.charters.length) := by
        intro hid
        rcases exists_numbered_iff.mpr hid with ⟨ch, hsome⟩
        rw [hch] at hsome
        cases hsome
      constructor
      · intro hid
        have hle := k.closed_known id hid
        have hzero : id = 0 := by omega
        exact absurd (hzero ▸ hid) hk
      · intro hid
        have hle := k'.closed_known id hid
        rw [← hcharters] at hle
        have hzero : id = 0 := by omega
        exact absurd (hzero ▸ hid) hk'
  have hreceipts : k.receipts = k'.receipts := numbered_ext hreceipt
  cases k
  cases k'
  simp_all

end Book

/-! ## 2. Desks from their views -/

theorem Represents.tidy {st : Store} {k : Book} (hk : Represents st k) : Represents st k.tidy :=
  { campaignCount := hk.campaignCount
    receiptCount := hk.receiptCount
    campaign := fun id => (hk.campaign id).trans (k.campaign?_tidy id).symm
    receipt := hk.receipt
    total := hk.total }

/-- The desk without the closed ids that no campaign has. -/
def Desk.tidy (d : Desk) : Desk := { d with book := d.book.tidy }

theorem Stands.tidy {st : Store} {d : Desk} (hst : Stands st d) : Stands st d.tidy :=
  ⟨hst.admin, hst.paused, hst.book.tidy⟩

/-- The views that are the public record. -/
inductive Invocation.Recorded : Invocation → Prop
  | adminAddress : Recorded .adminAddress
  | isPaused : Recorded .isPaused
  | getCampaign (id : Nat) : Recorded (.getCampaign id)
  | getReceipt (id : Nat) : Recorded (.getReceipt id)

theorem Desk.look_verdict {α : Type} (d : Desk) (w : World σ) (o : Option α) (e : DonationError)
    (f : α → Value) :
    verdict (d.look w o e f).guards (d.look w o e f).reply
      = o.elim (.err e) fun a => .ok (f a) := by
  cases o <;> rfl

/-- **The public record is the desk.** -/
theorem Stands.tidy_eq {st st' : Store} {d d' : Desk} {w w' : World σ} (hst : Stands st d)
    (hst' : Stands st' d')
    (hviews : ∀ i : Invocation, i.Recorded →
      (dispatch T c i ⟨st, w, []⟩).1 = (dispatch T c i ⟨st', w', []⟩).1) :
    d.tidy = d'.tidy := by
  have hrules : ∀ i : Invocation, i.Recorded →
      verdict (d.rule T w c i).guards (d.rule T w c i).reply
        = verdict (d'.rule T w' c i).guards (d'.rule T w' c i).reply := by
    intro i hi
    have h : Obeys (dispatch T c i) ⟨st, w, []⟩ _ _ := hst.dispatch_obeys i
    have h' : Obeys (dispatch T c i) ⟨st', w', []⟩ _ _ := hst'.dispatch_obeys i
    exact h.symm.trans ((hviews i hi).trans h')
  have hadmin : d.admin = d'.admin := by
    have h := hrules _ .adminAddress
    simpa [Desk.rule, Ruling.answer, verdict] using h
  have hpaused : d.paused = d'.paused := by
    have h := hrules _ .isPaused
    simpa [Desk.rule, Ruling.answer, verdict] using h
  have hcampaign : ∀ id, d.book.campaign? id = d'.book.campaign? id := by
    intro id
    have h := hrules _ (.getCampaign id)
    simp only [Desk.rule, Desk.look_verdict] at h
    cases hx : d.book.campaign? id <;> cases hx' : d'.book.campaign? id <;> simp_all
  have hreceipt : ∀ n, numbered d.book.receipts n = numbered d'.book.receipts n := by
    intro n
    have h := hrules _ (.getReceipt n)
    simp only [Desk.rule, Desk.look_verdict] at h
    cases hr : numbered d.book.receipts n <;> cases hr' : numbered d'.book.receipts n <;> simp_all
  have hbook : d.book.tidy = d'.book.tidy := by
    refine Book.eq_of_records ?_ hreceipt (Finset.notMem_erase _ _)
      (Finset.notMem_erase _ _)
    intro id
    rw [Book.campaign?_tidy, Book.campaign?_tidy, hcampaign]
  rw [Desk.tidy, Desk.tidy, hbook, hadmin, hpaused]

/-! ## 3. Futures -/

/-- A deployed contract stands for some desk. -/
theorem stands_of_runs {b₀ b : Chain Store σ} {ls : List (DonationsLabel σ)} (h0 : Genesis b₀)
    (hrun : Runs (Step self) b₀ ls b) : ∃ d, Stands b.store d := by
  rcases Stands.genesis h0 with ⟨a, hst₀⟩
  rcases dispatch_follows.answers.sound hrun hst₀ with ⟨d, hst, -⟩
  exact ⟨d, hst⟩

/-- Storages of one desk end every call alike. -/
theorem Stands.dispatch_congr {st st' : Store} {d : Desk} (hst : Stands st d)
    (hst' : Stands st' d) (w : World σ) (i : Invocation) :
    (dispatch T c i ⟨st, w, []⟩).1 = (dispatch T c i ⟨st', w, []⟩).1 := by
  have h : Obeys (dispatch T c i) ⟨st, w, []⟩ _ _ := hst.dispatch_obeys i
  have h' : Obeys (dispatch T c i) ⟨st', w, []⟩ _ _ := hst'.dispatch_obeys i
  exact h.trans h'.symm

/-- **The public record tells everything.**  Take two histories of a contract, with any tokens and
any calls, after which it is the same time in the same world.  If the four views of the public
record end alike, then whatever can be seen from there on of the one can be seen of the other, and
every call ends alike again after it. -/
theorem records_tell_all {b₀ b₀' b b' bf : Chain Store σ} {ls ls' ms : List (DonationsLabel σ)}
    (h0 : Genesis b₀) (h0' : Genesis b₀') (hrun : Runs (Step self) b₀ ls b)
    (hrun' : Runs (Step self) b₀' ls' b') (hworld : b.world = b'.world) (hnow : b.now = b'.now)
    (hseq : b.seq = b'.seq)
    (hviews : ∀ i : Invocation, i.Recorded →
      (dispatch T c i b.start).1 = (dispatch T c i b'.start).1)
    (hfuture : Runs (Step self) b ms bf) :
    ∃ ms' bf', Runs (Step self) b' ms' bf' ∧ ms'.map Label.seen = ms.map Label.seen ∧
      bf'.world = bf.world ∧ bf'.now = bf.now ∧ bf'.seq = bf.seq ∧
      ∀ (T : Tokens σ) (c : Ctx) (i : Invocation),
        (dispatch T c i bf.start).1 = (dispatch T c i bf'.start).1 := by
  rcases stands_of_runs h0 hrun with ⟨d, hst⟩
  rcases stands_of_runs h0' hrun' with ⟨d', hst'⟩
  have hdesk : d.tidy = d'.tidy := hst.tidy_eq hst' hviews
  have htidy' : Stands b'.store d.tidy := hdesk ▸ hst'.tidy
  have hsame : b.holding d.tidy = b'.holding d.tidy := by
    rw [Chain.holding, Chain.holding, hworld, hnow, hseq]
  -- by way of the desk: what the one shows is a run of it, and a run of it is shown by the other
  rcases dispatch_follows.answers.sound hfuture hst.tidy with ⟨df, hstf, hdeskRun⟩
  rw [hsame] at hdeskRun
  rcases dispatch_follows.answers.complete hdeskRun htidy' with ⟨ms', bf', hms, hruns, hrel, heq⟩
  have hworldf : bf.world = bf'.world := congrArg (fun e : Chain Desk σ => e.world) heq
  have hnowf : bf.now = bf'.now := congrArg (fun e : Chain Desk σ => e.now) heq
  have hseqf : bf.seq = bf'.seq := congrArg (fun e : Chain Desk σ => e.seq) heq
  refine ⟨ms', bf', hruns, hms.symm, hworldf.symm, hnowf.symm, hseqf.symm, ?_⟩
  intro T c i
  have hend := hstf.dispatch_congr (T := T) (c := c) hrel bf.world i
  rw [Chain.start, Chain.start, ← hworldf]
  exact hend

/-- Long after the drive, when its entries are about to expire. -/
def Drive.later : Ctx := { Drive.ctx with sequence := 518000 }

/-- The drive then. -/
def Drive.waited : Chain Store Unit :=
  { store := (Drive.given Drive.charity).store, world := (Drive.given Drive.charity).world,
    now := 1000, seq := 518000 }

/-- The drive then, after somebody has looked at the campaign. -/
def Drive.lookedAt : Chain Store Unit :=
  { Drive.waited with store := Drive.waited.store.touchCampaign Drive.later 1 }

/-- After that the charity closes its campaign. -/
def Drive.lateClosing : DonationsLabel Unit × Chain Store Unit :=
  Drive.lookedAt.exec dispatch Tokens.standard Drive.later (.closeCampaign Drive.charity 1)

/-- A look at a campaign renews its entry, but that is not a thing that the future shows. -/
theorem records_tell_all_drive :
    Drive.lookedAt.store.campaign 1 ≠ Drive.waited.store.campaign 1 ∧
      ∃ ms' bf', Runs (Step Drive.contract) Drive.waited ms' bf' ∧
        ms'.map Label.seen = [Drive.lateClosing.1].map Label.seen ∧
        bf'.world = Drive.lateClosing.2.world := by
  have hdrive : Runs (Step Drive.contract) Drive.deployed (Drive.log Drive.charity)
      (Drive.given Drive.charity) := (Drive.runs Drive.charity).mono fun _ _ _ h => h.1
  have hnow : (Drive.given Drive.charity).now ≤ 1000 := by decide +kernel
  have hseq : (Drive.given Drive.charity).seq ≤ 518000 := by decide +kernel
  have hwait : Step Drive.contract (Drive.given Drive.charity) .elsewhere Drive.waited :=
    .elsewhere hnow hseq
  obtain ⟨x, hx⟩ : ∃ x, Drive.waited.store.campaignAt 1 = some x :=
    Option.isSome_iff_exists.mp (by decide +kernel)
  have hlook : dispatch Tokens.standard Drive.later (.getCampaign 1) Drive.waited.start
      = (.ok (.campaign x), ⟨Drive.lookedAt.store, Drive.waited.world, []⟩) :=
    returning_eq_ok.mpr ⟨x, getCampaign_eq_ok.mpr ⟨hx, rfl⟩, rfl⟩
  have hlooked : Step Drive.contract Drive.waited _ Drive.lookedAt :=
    .returned rfl (le_refl _) (le_refl _) hlook
  have hlast : Step Drive.contract Drive.lookedAt Drive.lateClosing.1 Drive.lateClosing.2 :=
    Chain.exec_step rfl (le_refl _) (le_refl _)
  rcases stands_of_runs Drive.genesis hdrive with ⟨d, hst⟩
  have hst₁ : Stands Drive.lookedAt.store d := hst.touch 1
  have hst₂ : Stands Drive.waited.store d := hst
  rcases records_tell_all (T := Tokens.standard) (c := Drive.later) Drive.genesis Drive.genesis
      (.tail (.tail hdrive hwait) hlooked) (.tail hdrive hwait) rfl rfl rfl
      (fun i _ => hst₁.dispatch_congr hst₂ _ i) (.single hlast)
    with ⟨ms', bf', hruns, hseen, hworld, -⟩
  exact ⟨by decide +kernel, ms', bf', hruns, hseen, hworld⟩

end Stellariq.Donations
