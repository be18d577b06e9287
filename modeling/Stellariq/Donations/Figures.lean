/-
# Figures that fit, and tables that agree

Two more facts about the figures that the contract stores, in every reachable state.

* Each of them is in the range of its machine type: no sum of the contract has ever wrapped or could
  be stored rounded.  The bounds are entries of the tables by which the desk refuses calls, so the
  fact is proved of the desk (`Book.Sized`) and carried over to the contract by `dispatch_follows`.
* The tables agree with one another across all campaigns (`figures_fit`): the donations of the
  campaigns are the receipts, what the campaigns of one token raised is what the receipts of that
  token come to, and what a donor has given to the campaigns is what his receipts come to.
-/
import Stellariq.Donations.Desk
import Mathlib.Order.Interval.Finset.Nat

namespace Stellariq.Donations

open Kit

variable {σ : Type} {T : Tokens σ} {c : Ctx} {self : Address}

/-! ## 1. Books of machine size -/

structure Book.Sized (k : Book) : Prop where
  campaigns : k.charters.length ≤ U32_MAX
  receipts : k.receipts.length ≤ U64_MAX
  donations : ∀ id, (k.receiptsTo id).length ≤ U32_MAX
  raised : ∀ id, total Receipt.amount (k.receiptsTo id) ≤ I128_MAX
  placed : ∀ r ∈ k.receipts, 1 ≤ r.campaignId

theorem Book.sized_empty : Book.empty.Sized where
  campaigns := Nat.zero_le _
  receipts := Nat.zero_le _
  donations := fun _ => Nat.zero_le _
  raised := fun _ => show (0 : Int) ≤ I128_MAX by decide
  placed := fun _ h => absurd h List.not_mem_nil

section Sized

variable {k : Book} {d : Desk} {w : World σ}

theorem Book.Sized.create (hk : k.Sized) (hroom : k.charters.length + 1 ≤ U32_MAX)
    (ch : Charter) : (k.create ch).Sized where
  campaigns := by simpa [Book.create] using hroom
  receipts := hk.receipts
  donations := hk.donations
  raised := hk.raised
  placed := hk.placed

theorem Book.Sized.close (hk : k.Sized) {id : Nat} (hid : id ≤ k.charters.length) :
    (k.close id hid).Sized :=
  ⟨hk.campaigns, hk.receipts, hk.donations, hk.raised, hk.placed⟩

theorem Book.Sized.give (hk : k.Sized) {r : Receipt} (hid : r.id = k.receipts.length + 1)
    (hpos : 0 < r.amount) (hknown : r.campaignId ≤ k.charters.length) (hplace : 1 ≤ r.campaignId)
    (hreceipts : k.receipts.length + 1 ≤ U64_MAX)
    (hdonations : (k.receiptsTo r.campaignId).length + 1 ≤ U32_MAX)
    (hraised : total Receipt.amount (k.receiptsTo r.campaignId) + r.amount ≤ I128_MAX) :
    (k.give r hid hpos hknown).Sized where
  campaigns := hk.campaigns
  receipts := by simpa [Book.give] using hreceipts
  donations := by
    intro id
    rw [Book.receiptsTo_give]
    by_cases h : r.campaignId = id
    · subst h
      simpa using hdonations
    · simpa [h] using hk.donations id
  raised := by
    intro id
    rw [Book.receiptsTo_give]
    by_cases h : r.campaignId = id
    · subst h
      simpa [total_snoc] using hraised
    · simpa [h] using hk.raised id
  placed := by
    intro r' hr'
    rcases List.mem_append.mp hr' with hr' | hr'
    · exact hk.placed r' hr'
    · rw [List.mem_singleton.mp hr']
      exact hplace

/-- **What the desk accepts keeps its figures in range.** -/
theorem Desk.rule_sized (hd : d.book.Sized) {i : Invocation}
    (hc : Clear (d.rule T w c i).guards) : (d.rule T w c i).store.book.Sized := by
  cases i with
  | createCampaign =>
    simp [Desk.rule, Desk.create] at hc
    exact hd.create hc.2.2.2.2.2 _
  | closeCampaign caller id =>
    simp only [Desk.rule, Desk.close] at hc ⊢
    split at hc
    · exact hd
    next ch hch => exact hd.close (numbered_bounds hch).2
  | donate donor id amount memo =>
    simp only [Desk.rule, Desk.give] at hc ⊢
    split at hc
    · exact hd
    next ch hch =>
      simp [Desk.opening] at hc
      obtain ⟨-, -, hpos, -, -, -, -, -, -, -, hraised, hdonations, hreceipts⟩ := hc
      simp only [dif_pos hpos]
      exact hd.give _ hpos _ (numbered_bounds hch).1 hreceipts hdonations hraised
  | getCampaign id =>
    rw [Desk.rule, (d.look_idle w _ _ _).1]
    exact hd
  | getReceipt id =>
    rw [Desk.rule, (d.look_idle w _ _ _).1]
    exact hd
  | _ => exact hd

theorem desk_sized {e e' : Chain Desk σ}
    {ms : List (Label (Tokens σ) Invocation Value Empty DonationEvent Empty DonationError)}
    (hrun : Runs (DeskStep self) e ms e') (h0 : e.store.book.Sized) : e'.store.book.Sized := by
  refine Runs.store_invariant (P := fun d => d.book.Sized) ?_ hrun h0
  intro T c i v b s hb hok
  obtain ⟨hc, -, rfl⟩ := serveBy_eq_ok.mp hok
  exact Desk.rule_sized hb hc

/-- The contract's storage always stands for a desk whose figures are in range. -/
theorem stands_sized {b b' : Chain Store σ} {ls : List (DonationsLabel σ)} (h0 : Genesis b)
    (hrun : Runs (Step self) b ls b') : ∃ d, Stands b'.store d ∧ d.book.Sized := by
  obtain ⟨a, hst⟩ := Stands.genesis h0
  obtain ⟨d, hst', hruns⟩ := dispatch_follows.answers.sound hrun hst
  exact ⟨d, hst', desk_sized hruns Book.sized_empty⟩

end Sized

/-! ## 2. Across the campaigns -/

/-- A figure of the campaign `id`, if there is one. -/
def Store.figure (st : Store) (f : Campaign → Int) (id : Nat) : Int :=
  ((st.campaignAt id).map f).getD 0

/-- The token that a donation was made in. -/
def Store.tokenOf (st : Store) (r : Receipt) : Option Address :=
  (st.campaignAt r.campaignId).map Campaign.token

/-- What the receipts come to, counting of each what `f` says. -/
def Store.counted (st : Store) (f : Receipt → Int) : Int := total f st.receipts

section Across

variable {st : Store} {k : Book}

/-- **What is read off the receipts of each campaign** comes, over all campaigns, to what the
receipts come to. -/
theorem Represents.sum_campaigns (hk : Represents st k) (hsize : k.Sized) {f : Nat → Int}
    {g : Receipt → Int}
    (hf : ∀ id ch, numbered k.charters id = some ch →
      f id = totalOf Receipt.campaignId g id k.receipts) :
    ∑ id ∈ Finset.Icc 1 (st.campaignCount.getD 0), f id = st.counted g := by
  have hkeys : keys Receipt.campaignId k.receipts ⊆ Finset.Icc 1 k.charters.length := by
    intro id hid
    obtain ⟨r, hr, rfl⟩ := mem_keys.mp hid
    exact Finset.mem_Icc.mpr ⟨hsize.placed r hr, k.known r hr⟩
  rw [hk.campaignCount, Option.getD_some, Store.counted, hk.receipts_eq, ← sum_totalOf hkeys]
  refine Finset.sum_congr rfl ?_
  intro id hid
  obtain ⟨ch, hch⟩ := exists_numbered_iff.mpr (Finset.mem_Icc.mp hid)
  exact hf id ch hch

theorem Represents.figure_eq (hk : Represents st k) {id : Nat} {ch : Charter}
    (hch : numbered k.charters id = some ch) (f : Campaign → Int) :
    st.figure f id = f (k.record id ch) := by
  rw [Store.figure, hk.campaignAt_eq hch]
  rfl

theorem Represents.sum_donations (hk : Represents st k) (hsize : k.Sized) :
    ∑ id ∈ Finset.Icc 1 (st.campaignCount.getD 0), st.figure (fun x => x.donationCount) id
      = st.receiptCount.getD 0 := by
  have hsum := hk.sum_campaigns hsize (f := st.figure fun x => x.donationCount)
    (g := fun _ => 1) ?_
  · rw [hsum, Store.counted, hk.receipts_eq, hk.receiptCount, Option.getD_some]
    simp [Kit.total]
  · intro id ch hch
    rw [hk.figure_eq hch]
    simp [totalOf, Kit.total, Book.record, Book.receiptsTo]

theorem Represents.sum_raised (hk : Represents st k) (hsize : k.Sized) (t : Address) :
    ∑ id ∈ Finset.Icc 1 (st.campaignCount.getD 0),
        st.figure (fun x => if x.token = t then x.raised else 0) id
      = st.counted fun r => if st.tokenOf r = some t then r.amount else 0 := by
  refine hk.sum_campaigns hsize ?_
  intro id ch hch
  rw [hk.figure_eq hch, totalOf]
  have htoken : ∀ r ∈ k.receiptsTo id, st.tokenOf r = some ch.token := by
    intro r hr
    have hid : r.campaignId = id := of_decide_eq_true (List.mem_filter.mp hr).2
    rw [Store.tokenOf, hid, hk.campaignAt_eq hch]
    rfl
  have hmap : Kit.total (fun r => if st.tokenOf r = some t then r.amount else 0) (k.receiptsTo id)
      = Kit.total (fun r : Receipt => if ch.token = t then r.amount else 0) (k.receiptsTo id) := by
    refine congrArg List.sum (List.map_congr_left ?_)
    intro r hr
    simp only [htoken r hr, Option.some.injEq]
  refine Eq.trans ?_ hmap.symm
  by_cases h : ch.token = t
  · simp [Book.record, h]
  · simp [Book.record, h, Kit.total]

theorem Represents.sum_given (hk : Represents st k) (hsize : k.Sized) (d : Address) :
    ∑ id ∈ Finset.Icc 1 (st.campaignCount.getD 0), st.totalAt id d
      = st.counted fun r => if r.donor = d then r.amount else 0 := by
  refine hk.sum_campaigns hsize ?_
  intro id ch _
  rw [hk.total, Book.donorTotal, totalOf, totalOf, total_filter]
  simp only [decide_eq_true_eq]
  rfl

end Across

/-- **The figures fit, and the tables agree.**  In every reachable state each counter, each total
and each figure of a campaign is in the range of its type; the campaigns' donations come to the
number of receipts, what the campaigns in a token raised to the receipts in that token, and what a
donor gave the campaigns to his receipts. -/
theorem figures_fit {b b' : Chain Store σ} {ls : List (DonationsLabel σ)} (h0 : Genesis b)
    (hrun : Runs (Step self) b ls b') :
    (b'.store.campaignCount.getD 0 ≤ U32_MAX ∧ b'.store.receiptCount.getD 0 ≤ U64_MAX) ∧
    (∀ id x, b'.store.campaignAt id = some x →
      0 ≤ x.raised ∧ x.raised ≤ I128_MAX ∧ x.donorCount ≤ x.donationCount ∧
        x.donationCount ≤ U32_MAX) ∧
    (∀ id d, 0 ≤ b'.store.totalAt id d ∧ b'.store.totalAt id d ≤ I128_MAX) ∧
    ∑ id ∈ Finset.Icc 1 (b'.store.campaignCount.getD 0),
        b'.store.figure (fun x => x.donationCount) id = b'.store.receiptCount.getD 0 ∧
    (∀ t, ∑ id ∈ Finset.Icc 1 (b'.store.campaignCount.getD 0),
        b'.store.figure (fun x => if x.token = t then x.raised else 0) id
      = b'.store.counted fun r => if b'.store.tokenOf r = some t then r.amount else 0) ∧
    ∀ d, ∑ id ∈ Finset.Icc 1 (b'.store.campaignCount.getD 0), b'.store.totalAt id d
      = b'.store.counted fun r => if r.donor = d then r.amount else 0 := by
  obtain ⟨d, hst, hsize⟩ := stands_sized h0 hrun
  have hk := hst.book
  refine ⟨⟨?_, ?_⟩, ?_, ?_, hk.sum_donations hsize, hk.sum_raised hsize, hk.sum_given hsize⟩
  · rw [hk.campaignCount]
    exact hsize.campaigns
  · rw [hk.receiptCount]
    exact hsize.receipts
  · intro id x hx
    have hpos := hk.raised_nonneg hx
    have hle := hk.donors_le hx
    obtain ⟨ch, -, rfl⟩ := hk.campaignAt_eq_some hx
    exact ⟨hpos, hsize.raised id, hle, hsize.donations id⟩
  · intro id donor
    refine ⟨hk.total_nonneg id donor, ?_⟩
    rw [hk.total]
    exact le_trans (totalOf_le (d.book.positive_receiptsTo id) donor) (hsize.raised id)

theorem figures_fit_drive :
    ∑ id ∈ Finset.Icc 1 1, (Drive.given Drive.charity).store.totalAt id Drive.alice
      = (Drive.given Drive.charity).store.counted
          fun r => if r.donor = Drive.alice then r.amount else 0 := by
  have hrun : Runs (Step Drive.contract) Drive.deployed (Drive.log Drive.charity)
      (Drive.given Drive.charity) := (Drive.runs Drive.charity).mono fun _ _ _ h => h.1
  have hcount : (Drive.given Drive.charity).store.campaignCount.getD 0 = 1 := by decide +kernel
  obtain ⟨-, -, -, -, -, hgiven⟩ := figures_fit Drive.genesis hrun
  rw [hcount] at hgiven
  exact hgiven Drive.alice

end Stellariq.Donations
