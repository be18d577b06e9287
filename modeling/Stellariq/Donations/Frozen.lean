/-
# What can no longer change

The book only ever grows (`Book.Extends`): charters and receipts stay where they are and closed
campaigns stay closed.  An entry for a campaign needs the campaign to be open, its deadline not to
have passed and the contract not to be paused (`step_grows`).  The figures of a campaign depend on
nothing but its charter, its receipts and whether it is closed, so wherever the book has no entry
for it, its record and the totals of its donors are what they were.
-/
import Stellariq.Donations.Book

namespace Stellariq.Donations

open Kit

variable {σ : Type} {c : Ctx} {self : Address}

/-! ## 1. What stays -/

/-- The fields of a record that `create_campaign` sets for good, beside its id. -/
def Campaign.charter (x : Campaign) : Charter :=
  { creator := x.creator
    beneficiary := x.beneficiary
    token := x.token
    title := x.title
    description := x.description
    goal := x.goal
    deadline := x.deadline
    createdAt := x.createdAt }

/-- What was raised, the number of donors, the number of donations. -/
def Campaign.figures (x : Campaign) : Int × Nat × Nat :=
  (x.raised, x.donorCount, x.donationCount)

/-- The donations to the campaign `id` are the same in both storages. -/
structure SameDonations (st st' : Store) (id : Nat) : Prop where
  figures : (st'.campaignAt id).map Campaign.figures = (st.campaignAt id).map Campaign.figures
  totals : ∀ d, st'.totalAt id d = st.totalAt id d
  receipts : ∀ n r, r.campaignId = id → (st'.receiptAt n = some r ↔ st.receiptAt n = some r)

/-- Everything about the campaign `id` is the same in both storages. -/
structure Untouched (st st' : Store) (id : Nat) : Prop extends SameDonations st st' id where
  record : st'.campaignAt id = st.campaignAt id

theorem SameDonations.refl (st : Store) (id : Nat) : SameDonations st st id :=
  ⟨rfl, fun _ => rfl, fun _ _ _ => Iff.rfl⟩

theorem SameDonations.trans {st₁ st₂ st₃ : Store} {id : Nat} (h : SameDonations st₁ st₂ id)
    (h' : SameDonations st₂ st₃ id) : SameDonations st₁ st₃ id where
  figures := h'.figures.trans h.figures
  totals := fun d => (h'.totals d).trans (h.totals d)
  receipts := fun n r hr => (h'.receipts n r hr).trans (h.receipts n r hr)

theorem Untouched.refl (st : Store) (id : Nat) : Untouched st st id :=
  ⟨SameDonations.refl st id, rfl⟩

theorem Untouched.trans {st₁ st₂ st₃ : Store} {id : Nat} (h : Untouched st₁ st₂ id)
    (h' : Untouched st₂ st₃ id) : Untouched st₁ st₃ id :=
  ⟨h.toSameDonations.trans h'.toSameDonations, h'.record.trans h.record⟩

/-- What holds between a state of the contract and any later one. -/
structure Frozen (b b' : Chain Store σ) : Prop where
  clock : b.now ≤ b'.now
  identity : ∀ id x, b.store.campaignAt id = some x →
    ∃ x', b'.store.campaignAt id = some x' ∧ x'.id = x.id ∧ x'.charter = x.charter
  closed : ∀ id x, b.store.campaignAt id = some x → x.isOpen = false →
    Untouched b.store b'.store id
  expired : ∀ id x, b.store.campaignAt id = some x → x.deadline < b.now →
    SameDonations b.store b'.store id
  receipts : ∀ n r, b.store.receiptAt n = some r → b'.store.receiptAt n = some r

theorem Frozen.refl (b : Chain Store σ) : Frozen b b where
  clock := le_rfl
  identity := fun _ x hx => ⟨x, hx, rfl, rfl⟩
  closed := fun id _ _ _ => Untouched.refl _ id
  expired := fun id _ _ _ => SameDonations.refl _ id
  receipts := fun _ _ h => h

theorem Frozen.trans {b₁ b₂ b₃ : Chain Store σ} (h : Frozen b₁ b₂) (h' : Frozen b₂ b₃) :
    Frozen b₁ b₃ where
  clock := h.clock.trans h'.clock
  identity := by
    intro id x hx
    obtain ⟨x₂, hx₂, hid, hch⟩ := h.identity id x hx
    obtain ⟨x₃, hx₃, hid', hch'⟩ := h'.identity id x₂ hx₂
    exact ⟨x₃, hx₃, hid'.trans hid, hch'.trans hch⟩
  closed := by
    intro id x hx hopen
    have hsame := h.closed id x hx hopen
    exact hsame.trans (h'.closed id x (hsame.record.trans hx) hopen)
  expired := by
    intro id x hx hdl
    obtain ⟨x₂, hx₂, -, hch⟩ := h.identity id x hx
    have hdl₂ : x₂.deadline = x.deadline := congrArg Charter.deadline hch
    have hlate : x₂.deadline < b₂.now := by
      rw [hdl₂]
      exact lt_of_lt_of_le hdl h.clock
    exact (h.expired id x hx hdl).trans (h'.expired id x₂ hx₂ hlate)
  receipts := fun n r hr => h'.receipts n r (h.receipts n r hr)

/-! ## 2. Books that grow -/

/-- `k'` has everything that `k` has, in the same places. -/
structure Book.Extends (k k' : Book) : Prop where
  charter : ∀ id ch, numbered k.charters id = some ch → numbered k'.charters id = some ch
  receipt : ∀ n r, numbered k.receipts n = some r → numbered k'.receipts n = some r
  closed : ∀ id ∈ k.closed, id ∈ k'.closed

/-- `k'` has no other receipts for the campaign `id` than `k`. -/
structure Book.SameGifts (k k' : Book) (id : Nat) : Prop where
  receiptsTo : k'.receiptsTo id = k.receiptsTo id
  receipts : ∀ n r, r.campaignId = id →
    (numbered k'.receipts n = some r ↔ numbered k.receipts n = some r)

/-- A new entry for the campaign `id` can be made, at the time `now`. -/
def Book.Accepts (k : Book) (st : Store) (now id : Nat) : Prop :=
  Live st ∧ ∃ ch, numbered k.charters id = some ch ∧ id ∉ k.closed ∧ now ≤ ch.deadline

section

variable {k k' : Book} {st st' : Store} {i : Invocation}

theorem Book.Extends.refl (k : Book) : k.Extends k :=
  ⟨fun _ _ h => h, fun _ _ h => h, fun _ h => h⟩

theorem Book.Extends.trans {k₁ k₂ k₃ : Book} (h : k₁.Extends k₂) (h' : k₂.Extends k₃) :
    k₁.Extends k₃ where
  charter := fun id ch hch => h'.charter id ch (h.charter id ch hch)
  receipt := fun n r hr => h'.receipt n r (h.receipt n r hr)
  closed := fun id hid => h'.closed id (h.closed id hid)

theorem Book.extends_create (k : Book) (ch : Charter) : k.Extends (k.create ch) :=
  ⟨fun _ _ h => numbered_snoc_of_some h ch, fun _ _ h => h, fun _ h => h⟩

theorem Book.extends_close (k : Book) {id : Nat} (hid : id ≤ k.charters.length) :
    k.Extends (k.close id hid) :=
  ⟨fun _ _ h => h, fun _ _ h => h, fun _ h => Finset.mem_insert_of_mem h⟩

theorem Book.extends_give (k : Book) {r : Receipt} (hid : r.id = k.receipts.length + 1)
    (hpos : 0 < r.amount) (hknown : r.campaignId ≤ k.charters.length) :
    k.Extends (k.give r hid hpos hknown) :=
  ⟨fun _ _ h => h, fun _ _ h => numbered_snoc_of_some h r, fun _ h => h⟩

theorem Book.SameGifts.refl (k : Book) (id : Nat) : k.SameGifts k id :=
  ⟨rfl, fun _ _ _ => Iff.rfl⟩

/-- A receipt for another campaign is none for this one. -/
theorem Book.sameGifts_give {r : Receipt} {hid : r.id = k.receipts.length + 1}
    {hpos : 0 < r.amount} {hknown : r.campaignId ≤ k.charters.length} {id : Nat}
    (hne : r.campaignId ≠ id) : k.SameGifts (k.give r hid hpos hknown) id where
  receiptsTo := by rw [receiptsTo_give, if_neg hne]
  receipts := by
    intro n r' hr'
    have hsnoc : numbered (k.give r hid hpos hknown).receipts n
        = if n = k.receipts.length + 1 then some r else numbered k.receipts n :=
      numbered_snoc k.receipts r n
    rw [hsnoc]
    by_cases hn : n = k.receipts.length + 1
    · rw [if_pos hn]
      constructor
      · intro h
        cases h
        exact absurd hr' hne
      · intro h
        have hb := numbered_bounds h
        omega
    · rw [if_neg hn]

theorem Turns.extends (h : Turns c st k i k') : k.Extends k' := by
  cases h with
  | create => exact k.extends_create _
  | close => exact k.extends_close _
  | give => exact k.extends_give ..

theorem Turns.sameGifts_or_accepts (h : Turns c st k i k') (id : Nat) :
    k.SameGifts k' id ∨ k.Accepts st c.timestamp id := by
  cases h with
  | create => exact .inl ⟨rfl, fun _ _ _ => Iff.rfl⟩
  | close => exact .inl ⟨rfl, fun _ _ _ => Iff.rfl⟩
  | @give ch r _ _ hch hlive hopen hdl _ _ _ =>
    by_cases hid : r.campaignId = id
    · subst hid
      exact .inr ⟨hlive, ch, hch, hopen, hdl⟩
    · exact .inl (Book.sameGifts_give hid)

theorem Turns.charters_or_live (h : Turns c st k i k') : k'.charters = k.charters ∨ Live st := by
  cases h with
  | create hlive => exact .inr hlive
  | close => exact .inl rfl
  | give => exact .inl rfl

/-- **Growth.**  What a step does to the book, campaign by campaign. -/
theorem step_grows {b b' : Chain Store σ} {l : DonationsLabel σ} (hstep : Step self b l b')
    (hk : Represents b.store k) :
    ∃ k', Represents b'.store k' ∧ k.Extends k' ∧
      (∀ id, k.SameGifts k' id ∨ k.Accepts b.store b'.now id) ∧
      (k'.charters = k.charters ∨ Live b.store) := by
  obtain ⟨k', hk', rfl | ⟨t, -, hnow, hturn⟩⟩ := step_book hstep hk
  · exact ⟨_, hk', Book.Extends.refl _,
      fun id => .inl (Book.SameGifts.refl _ id), .inl rfl⟩
  · rw [hnow]
    exact ⟨k', hk', hturn.extends, hturn.sameGifts_or_accepts, hturn.charters_or_live⟩

/-! ## 3. Reading the storage off the book -/

theorem Represents.sameDonations (hk : Represents st k) (hk' : Represents st' k') {id : Nat}
    (hch : numbered k'.charters id = numbered k.charters id) (hgifts : k.SameGifts k' id) :
    SameDonations st st' id where
  figures := by
    rw [hk.campaign, hk'.campaign, Book.campaign?, Book.campaign?, hch, Option.map_map,
      Option.map_map]
    congr 1
    funext ch
    simp only [Function.comp_apply, Campaign.figures, Book.record, hgifts.receiptsTo]
  totals := by
    intro d
    rw [hk.total, hk'.total, Book.donorTotal, Book.donorTotal, hgifts.receiptsTo]
  receipts := by
    intro n r hr
    rw [hk.receipt, hk'.receipt]
    exact hgifts.receipts n r hr

theorem Represents.untouched (hk : Represents st k) (hk' : Represents st' k') {id : Nat}
    (hch : numbered k'.charters id = numbered k.charters id) (hgifts : k.SameGifts k' id)
    (hclosed : id ∈ k'.closed ↔ id ∈ k.closed) : Untouched st st' id where
  toSameDonations := hk.sameDonations hk' hch hgifts
  record := by
    rw [hk.campaign, hk'.campaign, Book.campaign?, Book.campaign?, hch]
    congr 1
    funext ch
    simp only [Book.record, hgifts.receiptsTo, hclosed]

end

/-! ## 4. Steps -/

section

variable {b b' : Chain Store σ} {l : DonationsLabel σ}

/-- Once the deadline has passed, a step counts nothing for the campaign. -/
theorem step_expired (hb : Kept b) (hstep : Step self b l b') {id : Nat} {x : Campaign}
    (hx : b.store.campaignAt id = some x) (hdl : x.deadline < b'.now) :
    SameDonations b.store b'.store id := by
  obtain ⟨k, hk⟩ := hb
  obtain ⟨ch, hch, rfl⟩ := hk.campaignAt_eq_some hx
  obtain ⟨k', hk', hext, hgifts, -⟩ := step_grows hstep hk
  refine hk.sameDonations hk' ((hext.charter id ch hch).trans hch.symm) ?_
  rcases hgifts id with hsame | ⟨-, ch', hch', -, hdl'⟩
  · exact hsame
  · rw [hch] at hch'
    cases hch'
    exact absurd hdl (not_lt.mpr hdl')

theorem step_closed (hb : Kept b) (hstep : Step self b l b') {id : Nat} {x : Campaign}
    (hx : b.store.campaignAt id = some x) (hopen : x.isOpen = false) :
    Untouched b.store b'.store id := by
  obtain ⟨k, hk⟩ := hb
  obtain ⟨ch, hch, rfl⟩ := hk.campaignAt_eq_some hx
  have hclosed : id ∈ k.closed := not_not.mp (of_decide_eq_false hopen)
  obtain ⟨k', hk', hext, hgifts, -⟩ := step_grows hstep hk
  refine hk.untouched hk' ((hext.charter id ch hch).trans hch.symm) ?_
    (iff_of_true (hext.closed id hclosed) hclosed)
  rcases hgifts id with hsame | ⟨-, _, -, hopen', -⟩
  · exact hsame
  · exact absurd hclosed hopen'

/-- While the contract is paused, a step counts nothing for any campaign. -/
theorem step_paused (hb : Kept b) (hstep : Step self b l b')
    (hpaused : b.store.paused.getD false = true) (id : Nat) :
    SameDonations b.store b'.store id := by
  obtain ⟨k, hk⟩ := hb
  have hlive : ¬ Live b.store := by
    intro h
    rw [h.2] at hpaused
    cases hpaused
  obtain ⟨k', hk', -, hgifts, hcharters⟩ := step_grows hstep hk
  have hsame : k'.charters = k.charters := hcharters.resolve_right hlive
  exact hk.sameDonations hk' (by rw [hsame])
    ((hgifts id).resolve_right fun hacc => hlive hacc.1)

theorem step_frozen (hb : Kept b) (hstep : Step self b l b') : Frozen b b' where
  clock := (Runs.single hstep).clock.1
  identity := by
    intro id x hx
    obtain ⟨k, hk⟩ := hb
    obtain ⟨ch, hch, rfl⟩ := hk.campaignAt_eq_some hx
    obtain ⟨k', hk', hext, -, -⟩ := step_grows hstep hk
    exact ⟨k'.record id ch, hk'.campaignAt_eq (hext.charter id ch hch), rfl, rfl⟩
  closed := fun _ _ hx hopen => step_closed hb hstep hx hopen
  expired := fun _ _ hx hdl =>
    step_expired hb hstep hx (lt_of_lt_of_le hdl (Runs.single hstep).clock.1)
  receipts := by
    intro n r hr
    obtain ⟨k, hk⟩ := hb
    obtain ⟨k', hk', hext, -, -⟩ := step_grows hstep hk
    rw [hk.receipt] at hr
    rw [hk'.receipt]
    exact hext.receipt n r hr

/-- The campaign that a call is about. -/
def Invocation.target (st : Store) : Invocation → Option Nat
  | .createCampaign .. => some (st.campaignCount.getD 0 + 1)
  | .closeCampaign _ id => some id
  | .getCampaign id => some id
  | .donate _ id _ _ => some id
  | .donorTotal id _ => some id
  | _ => none

/-- **Frame.**  A call about one campaign leaves all others as they were. -/
theorem step_other (hb : Kept b) (hstep : Step self b l b') {id : Nat}
    (hid : ∀ t, l = .tx t → t.call.target b.store ≠ some id) :
    Untouched b.store b'.store id := by
  obtain ⟨k, hk⟩ := hb
  obtain ⟨k', hk', rfl | ⟨⟨_, _, i, _, _⟩, hl, -, hturn⟩⟩ := step_book hstep hk
  · exact hk.untouched hk' rfl (Book.SameGifts.refl _ id) Iff.rfl
  · have hne := hid _ hl
    cases hturn with
    | create =>
      have hnew : id ≠ k.charters.length + 1 := fun h => hne (by
        simp [Invocation.target, hk.campaignCount, h])
      refine hk.untouched hk' ?_ ⟨rfl, fun _ _ _ => Iff.rfl⟩ Iff.rfl
      exact (numbered_snoc _ _ id).trans (if_neg hnew)
    | @close caller id' ch hch _ _ =>
      have hne' : id ≠ id' := fun h => hne (by simp [Invocation.target, h])
      refine hk.untouched hk' rfl ⟨rfl, fun _ _ _ => Iff.rfl⟩ ?_
      exact Finset.mem_insert.trans (or_iff_right hne')
    | @give ch r _ _ _ _ _ _ _ _ _ =>
      have hne' : r.campaignId ≠ id := fun h => hne (by simp [Invocation.target, h])
      exact hk.untouched hk' rfl (Book.sameGifts_give hne') Iff.rfl

end

/-! ## 5. Runs -/

/-- A step that starts while the contract is paused. -/
def PausedStep (self : Address) (b : Chain Store σ) (l : DonationsLabel σ)
    (b' : Chain Store σ) : Prop :=
  Step self b l b' ∧ b.store.paused.getD false = true

/-- **Closed, expired or paused means frozen, and history is immutable.**  From any reachable
state: what was closed, what has expired, who a campaign is for and every receipt are as they were
in every later state; as long as the contract stays paused nothing is counted for any campaign;
and a single step counts nothing for a campaign whose deadline has passed when it is made, and
does not touch the campaigns it is not about. -/
theorem history_immutable {b₀ b : Chain Store σ} {ks : List (DonationsLabel σ)}
    (h0 : Genesis b₀) (hreach : Runs (Step self) b₀ ks b) :
    (∀ ls b', Runs (Step self) b ls b' → Frozen b b') ∧
      (∀ ls b', Runs (PausedStep self) b ls b' → ∀ id, SameDonations b.store b'.store id) ∧
      ∀ l b', Step self b l b' →
        (∀ id x, b.store.campaignAt id = some x → x.deadline < b'.now →
          SameDonations b.store b'.store id) ∧
        ∀ id, (∀ t, l = .tx t → t.call.target b.store ≠ some id) →
          Untouched b.store b'.store id := by
  have hb : Kept b := kept_of_runs h0 hreach
  refine ⟨fun ls b' hrun => ?_, fun ls b' hrun id => ?_, fun l b' hstep => ⟨?_, ?_⟩⟩
  · exact hrun.relates (I := Kept) (R := Frozen) (fun _ _ _ => kept_step) Frozen.refl
      (fun _ _ _ => Frozen.trans) (fun _ _ _ => step_frozen) hb
  · exact hrun.relates (I := Kept) (R := fun b b' => SameDonations b.store b'.store id)
      (fun _ _ _ hb hstep => kept_step hb hstep.1) (fun b => SameDonations.refl b.store id)
      (fun _ _ _ => SameDonations.trans) (fun _ _ _ hb hstep => step_paused hb hstep.1 hstep.2 id)
      hb
  · exact fun id x hx hdl => step_expired hb hstep hx hdl
  · exact fun id hid => step_other hb hstep hid

theorem history_immutable_drive :
    (Drive.closing.2.store.campaignAt 1).map Campaign.isOpen = some false ∧
      Untouched Drive.closing.2.store Drive.late.2.store 1 := by
  have hrun : Runs (Step Drive.contract) Drive.deployed
      (Drive.log Drive.charity ++ [Drive.closing.1]) Drive.closing.2 :=
    .tail ((Drive.runs Drive.charity).mono fun _ _ _ h => h.1) Drive.closing_step
  have hfrozen : Frozen Drive.closing.2 Drive.late.2 :=
    (history_immutable Drive.genesis hrun).1 _ _ (Runs.single Drive.late_step)
  have hclosed : (Drive.closing.2.store.campaignAt 1).map Campaign.isOpen = some false := by
    decide +kernel
  obtain ⟨x, hx, hopen⟩ := Option.map_eq_some_iff.mp hclosed
  exact ⟨hclosed, hfrozen.closed 1 x hx hopen⟩

end Stellariq.Donations
