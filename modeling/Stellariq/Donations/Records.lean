/-
# What the getters hand out

Everything that `create_campaign` and `donate` check about their arguments is still true of the
records that the getters return later.  The checks of one call are `Checked`; of a whole book, at
the time of the last ledger, they are `Book.Valid`: every charter is well formed and was written in
the past, and every receipt falls into the life of the campaign it names.  Receipts are appended as
time goes on, so their timestamps are in the order of their ids.
-/
import Stellariq.Donations.Book

namespace Stellariq.Donations

open Kit

variable {σ : Type} {T : Tokens σ} {c : Ctx} {self : Address}

/-! ## 1. Checked arguments -/

/-- What an entrypoint has checked about its own arguments, at the time `now`, when it returns. -/
def Invocation.Checked (now : Nat) : Invocation → Prop
  | .createCampaign _ _ _ title description goal deadline =>
    0 < goal ∧ now < deadline ∧ (1 ≤ title.len ∧ title.len ≤ MAX_TITLE_LEN) ∧
      description.len ≤ MAX_TEXT_LEN
  | .donate _ _ amount memo => 0 < amount ∧ memo.len ≤ MAX_TEXT_LEN
  | _ => True

theorem Performs.checked {i : Invocation} {v : Value} {s s' : State σ}
    (hp : Performs T c s i v s') : i.Checked c.timestamp := by
  cases hp with
  | createCampaign _ _ hgoal hdl htitle hlong hdesc =>
    exact ⟨hgoal, hdl, ⟨htitle, hlong⟩, hdesc⟩
  | donate _ _ hamount hmemo => exact ⟨hamount, hmemo⟩
  | setPaused => exact trivial
  | closeCampaign => exact trivial
  | getCampaign => exact trivial
  | view hi => rcases hi with rfl | rfl | rfl | ⟨_, rfl⟩ | rfl | ⟨_, _, rfl⟩ <;> exact trivial

/-! ## 2. Valid books -/

structure Charter.Valid (ch : Charter) : Prop where
  goal : 0 < ch.goal
  deadline : ch.createdAt < ch.deadline
  title : 1 ≤ ch.title.len ∧ ch.title.len ≤ MAX_TITLE_LEN
  description : ch.description.len ≤ MAX_TEXT_LEN

/-- The receipt is for a donation that the campaign `ch` could take. -/
structure Receipt.Fits (r : Receipt) (ch : Charter) : Prop where
  donor : r.donor ≠ ch.beneficiary
  created : ch.createdAt ≤ r.timestamp
  deadline : r.timestamp ≤ ch.deadline

structure Book.Valid (k : Book) (now : Nat) : Prop where
  charter : ∀ id ch, numbered k.charters id = some ch → ch.Valid ∧ ch.createdAt ≤ now
  receipt : ∀ n r, numbered k.receipts n = some r →
    r.memo.len ≤ MAX_TEXT_LEN ∧ r.timestamp ≤ now ∧
      ∃ ch, numbered k.charters r.campaignId = some ch ∧ r.Fits ch
  order : ∀ m n r r', m ≤ n → numbered k.receipts m = some r →
    numbered k.receipts n = some r' → r.timestamp ≤ r'.timestamp

section Valid

variable {k k' : Book} {now now' : Nat}

theorem Book.valid_empty : Book.empty.Valid now where
  charter := fun id _ h => by cases id <;> cases h
  receipt := fun n _ h => by cases n <;> cases h
  order := fun m _ _ _ _ h => by cases m <;> cases h

theorem Book.Valid.later (hv : k.Valid now) (hle : now ≤ now') : k.Valid now' where
  charter := fun id ch h => ⟨(hv.charter id ch h).1, (hv.charter id ch h).2.trans hle⟩
  receipt := by
    intro n r h
    obtain ⟨hmemo, htime, hch⟩ := hv.receipt n r h
    exact ⟨hmemo, htime.trans hle, hch⟩
  order := hv.order

theorem Book.Valid.create (hv : k.Valid now) {ch : Charter} (hch : ch.Valid)
    (hnow : ch.createdAt = now) : (k.create ch).Valid now where
  charter := by
    intro id ch' h
    rw [Book.create, numbered_snoc] at h
    split at h
    · cases h
      exact ⟨hch, hnow.le⟩
    · exact hv.charter id ch' h
  receipt := by
    intro n r h
    obtain ⟨hmemo, htime, ch', hch', hfits⟩ := hv.receipt n r h
    exact ⟨hmemo, htime, ch', numbered_snoc_of_some hch' _, hfits⟩
  order := hv.order

theorem Book.Valid.close (hv : k.Valid now) {id : Nat} (hid : id ≤ k.charters.length) :
    (k.close id hid).Valid now :=
  ⟨hv.charter, hv.receipt, hv.order⟩

theorem Book.Valid.give (hv : k.Valid now) {r : Receipt} {ch : Charter}
    (hid : r.id = k.receipts.length + 1) (hpos : 0 < r.amount)
    (hch : numbered k.charters r.campaignId = some ch) (hmemo : r.memo.len ≤ MAX_TEXT_LEN)
    (htime : r.timestamp = now) (hdonor : r.donor ≠ ch.beneficiary) (hdl : now ≤ ch.deadline) :
    (k.give r hid hpos (numbered_bounds hch).2).Valid now where
  charter := hv.charter
  receipt := by
    intro n r' h
    rw [Book.give, numbered_snoc] at h
    split at h
    · cases h
      have hcreated : ch.createdAt ≤ r.timestamp := htime ▸ (hv.charter _ ch hch).2
      exact ⟨hmemo, htime.le, ch, hch, hdonor, hcreated, htime ▸ hdl⟩
    · exact hv.receipt n r' h
  order := by
    intro m n r₁ r₂ hmn h₁ h₂
    rw [Book.give, numbered_snoc] at h₁ h₂
    split at h₂
    · -- the new receipt is the latest
      cases h₂
      split at h₁
      · cases h₁
        exact le_rfl
      · exact htime ▸ (hv.receipt m r₁ h₁).2.1
    · split at h₁
      · have hb := (numbered_bounds h₂).2
        omega
      · exact hv.order m n r₁ r₂ hmn h₁ h₂

/-- **Checked arguments make valid entries.** -/
theorem Turns.valid {st : Store} {i : Invocation} (ht : Turns c st k i k')
    (hi : i.Checked c.timestamp) (hv : k.Valid c.timestamp) : k'.Valid c.timestamp := by
  cases ht with
  | create =>
    obtain ⟨hgoal, hdl, htitle, hdesc⟩ := hi
    exact hv.create ⟨hgoal, hdl, htitle, hdesc⟩ rfl
  | close hch => exact hv.close (numbered_bounds hch).2
  | give hid hpos hch _ _ hdl hdonor htime _ => exact hv.give hid hpos hch hi.2 htime hdonor hdl

end Valid

/-! ## 3. Steps and runs -/

/-- The contract keeps a book that is valid now. -/
def Sound (b : Chain Store σ) : Prop := ∃ k, Represents b.store k ∧ k.Valid b.now

theorem sound_step {b b' : Chain Store σ} {l : DonationsLabel σ} (hb : Sound b)
    (hstep : Step self b l b') : Sound b' := by
  obtain ⟨k, hk, hv⟩ := hb
  cases hstep with
  | returned _ hnow _ hd =>
    have hp := dispatch_performs hd
    obtain ⟨k', hk', rfl | ht⟩ := hp.turns hk
    · exact ⟨_, hk', hv.later hnow⟩
    · exact ⟨k', hk', ht.valid hp.checked (hv.later hnow)⟩
  | failed _ hnow => exact ⟨k, hk, hv.later hnow⟩
  | elsewhere hnow => exact ⟨k, hk, hv.later hnow⟩

theorem sound_of_runs {b b' : Chain Store σ} {ls : List (DonationsLabel σ)} (h0 : Genesis b)
    (hrun : Runs (Step self) b ls b') : Sound b' :=
  hrun.invariant (I := Sound) (fun _ _ _ => sound_step)
    ⟨_, Represents.genesis h0, Book.valid_empty⟩

/-! ## 4. The getters -/

/-- `get_campaign` returns `x`. -/
def ReadsCampaign (b : Chain Store σ) (c : Ctx) (id : Nat) (x : Campaign) : Prop :=
  (getCampaign c id (b.start : State σ)).1 = .ok x

/-- `get_receipt` returns `r`. -/
def ReadsReceipt (b : Chain Store σ) (n : Nat) (r : Receipt) : Prop :=
  (getReceipt n (b.start : State σ)).1 = .ok r

theorem readsCampaign_iff {b : Chain Store σ} {id : Nat} {x : Campaign} :
    ReadsCampaign b c id x ↔ b.store.campaignAt id = some x := by
  constructor
  · intro h
    exact (getCampaign_eq_ok.mp (Exec.eq_ok_of_fst h)).1
  · intro h
    have hok : getCampaign c id (b.start : State σ) = (.ok x, _) := getCampaign_eq_ok.mpr ⟨h, rfl⟩
    exact congrArg Prod.fst hok

theorem readsReceipt_iff {b : Chain Store σ} {n : Nat} {r : Receipt} :
    ReadsReceipt b n r ↔ b.store.receiptAt n = some r := by
  constructor
  · intro h
    exact (Exec.gets_okOr_eq_ok.mp (Exec.eq_ok_of_fst h)).1
  · intro h
    have hok : getReceipt n (b.start : State σ) = (.ok r, _) :=
      Exec.gets_okOr_eq_ok.mpr ⟨h, rfl⟩
    exact congrArg Prod.fst hok

/-- What is true of a campaign that `get_campaign(id)` returns. -/
structure Campaign.WellFormed (x : Campaign) (id : Nat) : Prop where
  id : x.id = id
  goal : 0 < x.goal
  deadline : x.createdAt < x.deadline
  title : 1 ≤ x.title.len ∧ x.title.len ≤ MAX_TITLE_LEN
  description : x.description.len ≤ MAX_TEXT_LEN

/-- What is true of a receipt that `get_receipt(n)` returns, next to the campaign it names. -/
structure Receipt.WellFormed (r : Receipt) (n : Nat) (x : Campaign) : Prop where
  id : r.id = n
  amount : 0 < r.amount
  memo : r.memo.len ≤ MAX_TEXT_LEN
  donor : r.donor ≠ x.beneficiary
  created : x.createdAt ≤ r.timestamp
  deadline : r.timestamp ≤ x.deadline

theorem Represents.exists_campaign {st : Store} {k : Book} (hk : Represents st k) {id : Nat} :
    (∃ x, st.campaignAt id = some x) ↔ 1 ≤ id ∧ id ≤ k.charters.length := by
  rw [hk.campaign, ← exists_numbered_iff]
  simp [Book.campaign?]

/-- A donor is known to a campaign exactly when his total is not zero. -/
theorem Represents.total_ne_zero {st : Store} {k : Book} (hk : Represents st k) {id : Nat}
    {d : Address} :
    st.totalAt id d ≠ 0 ↔ ∃ n r, st.receiptAt n = some r ∧ r.campaignId = id ∧ r.donor = d := by
  rw [hk.total, Book.donorTotal, Ne, totalOf_eq_zero_iff (k.positive_receiptsTo id),
    Classical.not_not, mem_keys]
  constructor
  · rintro ⟨r, hr, hd⟩
    obtain ⟨hmem, hid⟩ := List.mem_filter.mp hr
    obtain ⟨n, hn⟩ := mem_iff_numbered.mp hmem
    exact ⟨n, r, (hk.receipt n).trans hn, of_decide_eq_true hid, hd⟩
  · rintro ⟨n, r, hn, hid, hd⟩
    rw [hk.receipt] at hn
    exact ⟨r, List.mem_filter.mpr ⟨mem_iff_numbered.mpr ⟨n, hn⟩, decide_eq_true hid⟩, hd⟩

/-- **The records are dense and well formed.**  In every reachable state the campaigns and the
receipts that can be read are those numbered up to the two counters, and what is read is as the
entrypoints have checked it; receipts come in the order of their timestamps, and a donor's total is
not zero exactly when there is a receipt of his. -/
theorem records_well_formed {b b' : Chain Store σ} {ls : List (DonationsLabel σ)}
    (h0 : Genesis b) (hrun : Runs (Step self) b ls b') (c : Ctx) :
    (∃ count, campaignCount (b'.start : State σ) = (.ok count, b'.start) ∧
      ∀ id, (∃ x, ReadsCampaign b' c id x) ↔ 1 ≤ id ∧ id ≤ count) ∧
    (∀ id x, ReadsCampaign b' c id x → x.WellFormed id) ∧
    (∃ count, receiptCount (b'.start : State σ) = (.ok count, b'.start) ∧
      ∀ n, (∃ r, ReadsReceipt b' n r) ↔ 1 ≤ n ∧ n ≤ count) ∧
    (∀ n r, ReadsReceipt b' n r →
      ∃ x, ReadsCampaign b' c r.campaignId x ∧ r.WellFormed n x) ∧
    (∀ m n r r', m ≤ n → ReadsReceipt b' m r → ReadsReceipt b' n r' →
      r.timestamp ≤ r'.timestamp) ∧
    ∀ id d, ∃ v, donorTotal id d (b'.start : State σ) = (.ok v, b'.start) ∧
      (v ≠ 0 ↔ ∃ n r, ReadsReceipt b' n r ∧ r.campaignId = id ∧ r.donor = d) := by
  obtain ⟨k, hk, hv⟩ := sound_of_runs h0 hrun
  simp only [readsCampaign_iff, readsReceipt_iff]
  refine ⟨⟨_, rfl, fun id => ?_⟩, fun id x hx => ?_, ⟨_, rfl, fun n => ?_⟩, fun n r hr => ?_,
    fun m n r r' hmn hr hr' => ?_, fun id d => ⟨_, rfl, hk.total_ne_zero⟩⟩
  · rw [hk.exists_campaign]
    simp [Chain.start, hk.campaignCount]
  · obtain ⟨ch, hch, rfl⟩ := hk.campaignAt_eq_some hx
    obtain ⟨hgoal, hdl, htitle, hdesc⟩ := (hv.charter id ch hch).1
    exact ⟨rfl, hgoal, hdl, htitle, hdesc⟩
  · rw [hk.receipt, exists_numbered_iff]
    simp [Chain.start, hk.receiptCount]
  · rw [hk.receipt] at hr
    obtain ⟨hmemo, -, ch, hch, hfits⟩ := hv.receipt n r hr
    have hx := hk.campaignAt_eq hch
    have hamount : 0 < r.amount := k.positive r (mem_iff_numbered.mpr ⟨n, hr⟩)
    exact ⟨_, hx, k.ids n r hr, hamount, hmemo, hfits.donor, hfits.created, hfits.deadline⟩
  · rw [hk.receipt] at hr hr'
    exact hv.order m n r r' hmn hr hr'

theorem records_well_formed_drive :
    (∃ r, ReadsReceipt (Drive.given Drive.charity) 3 r ∧ r.donor = Drive.alice) ∧
      ∃ count, receiptCount ((Drive.given Drive.charity).start : State Unit)
        = (.ok count, (Drive.given Drive.charity).start) ∧ 3 ≤ count := by
  have hrun : Runs (Step Drive.contract) Drive.deployed (Drive.log Drive.charity)
      (Drive.given Drive.charity) := (Drive.runs Drive.charity).mono fun _ _ _ h => h.1
  obtain ⟨-, -, ⟨count, hcount, hread⟩, -⟩ := records_well_formed Drive.genesis hrun Drive.ctx
  have hthird : ((Drive.given Drive.charity).store.receiptAt 3).map Receipt.donor
      = some Drive.alice := by decide +kernel
  obtain ⟨r, hr, hdonor⟩ := Option.map_eq_some_iff.mp hthird
  have hreads : ReadsReceipt (Drive.given Drive.charity) 3 r := readsReceipt_iff.mpr hr
  exact ⟨⟨r, hreads, hdonor⟩, count, hcount, ((hread 3).mp ⟨r, hreads⟩).2⟩

end Stellariq.Donations
