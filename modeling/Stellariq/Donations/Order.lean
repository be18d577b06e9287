/-
# The order of donations

A donation adds a receipt to the book and moves its amount from the donor to the beneficiary
(`Performs.takes`), and a list of donations that all return does so one after the other
(`donateAll_books`).  The figures about a campaign do not look at the numbers of the receipts or
at their order (`Book.Similar`), and what moves between holders adds up in any order.  So the
order of the donations shows in one place only, the numbers of their receipts, and those follow
the order (`donation_order_irrelevant`).

That all of them return is asked of both orders: a donor may be able to give only after he has
been given something himself.
-/
import Stellariq.Donations.Book
import Mathlib.Data.List.FinRange

namespace Stellariq.Donations

open Kit

variable {σ : Type}

/-! ## 1. Books that differ in the numbers only -/

/-- A receipt without its number. -/
def Receipt.body (r : Receipt) : Receipt := { r with id := 0 }

namespace Book

/-- The same campaigns, and the same receipts up to their numbers and their order. -/
structure Similar (k k' : Book) : Prop where
  charters : k'.charters = k.charters
  closed : k'.closed = k.closed
  receipts : (k'.receipts.map Receipt.body).Perm (k.receipts.map Receipt.body)

variable {k k' : Book}

theorem Similar.receiptsTo (h : Similar k k') (id : Nat) :
    ((k'.receiptsTo id).map Receipt.body).Perm ((k.receiptsTo id).map Receipt.body) :=
  filter_of_map_perm h.receipts fun r => decide (r.campaignId = id)

/-- **No figure about a campaign depends on the numbers or the order of the receipts.** -/
theorem Similar.campaign? (h : Similar k k') (id : Nat) : k'.campaign? id = k.campaign? id := by
  have hto := h.receiptsTo id
  have hraised : total Receipt.amount (k'.receiptsTo id) = total Receipt.amount (k.receiptsTo id) :=
    total_of_map_perm hto Receipt.amount
  have hdonors : keys Receipt.donor (k'.receiptsTo id) = keys Receipt.donor (k.receiptsTo id) :=
    keys_of_map_perm hto Receipt.donor
  have hcount : (k'.receiptsTo id).length = (k.receiptsTo id).length := by
    have hlength := hto.length_eq
    rwa [List.length_map, List.length_map] at hlength
  have hrecord : k'.record id = k.record id := by
    funext ch
    rw [record, record, hraised, hdonors, hcount, h.closed]
  rw [Book.campaign?, Book.campaign?, h.charters, hrecord]

theorem Similar.donorTotal (h : Similar k k') (id : Nat) (d : Address) :
    k'.donorTotal id d = k.donorTotal id d :=
  total_of_map_perm
    (filter_of_map_perm (h.receiptsTo id) fun r => decide (r.donor = d)) Receipt.amount

end Book

/-! ## 2. Donations, one after the other -/

/-- A call of `donate`, with its own circumstances. -/
structure DonateCall (σ : Type) where
  tokens : Tokens σ
  ctx : Ctx
  donor : Address
  campaignId : Nat
  amount : Int
  memo : Text

namespace DonateCall

def tx (d : DonateCall σ) : Tokens σ × Ctx × Invocation :=
  (d.tokens, d.ctx, .donate d.donor d.campaignId d.amount d.memo)

/-- The receipt of the donation, under the number `id`. -/
def receipt (d : DonateCall σ) (id : Nat) : Receipt :=
  newReceipt d.ctx id d.campaignId d.donor d.amount d.memo

/-- What the donation adds to the balance of a holder. -/
def flow (charters : List Charter) (d : DonateCall σ) (t holder : Address) : Int :=
  match numbered charters d.campaignId with
  | some ch => Ledger.point ch.token ch.beneficiary d.amount t holder
      - Ledger.point ch.token d.donor d.amount t holder
  | none => 0

end DonateCall

/-- Make the donations one after the other. -/
def donateAll (b : Chain Store σ) (ds : List (DonateCall σ)) :
    List (DonationsLabel σ) × Chain Store σ :=
  b.execAll dispatch (ds.map DonateCall.tx)

/-- All of them returned. -/
def AllReturned (b : Chain Store σ) (ds : List (DonateCall σ)) : Prop :=
  ∀ l ∈ (donateAll b ds).1, l.returned = true

/-- The book `k'` is `k` with the receipts of the donations, numbered on. -/
structure Takes (k : Book) (ds : List (DonateCall σ)) (k' : Book) : Prop where
  charters : k'.charters = k.charters
  closed : k'.closed = k.closed
  receipts : k'.receipts
    = k.receipts ++ ds.mapIdx fun i d => d.receipt (k.receipts.length + i + 1)

theorem Takes.nil (k : Book) : Takes k ([] : List (DonateCall σ)) k :=
  ⟨rfl, rfl, by simp⟩

theorem Takes.cons {k k₁ k' : Book} {d : DonateCall σ} {ds : List (DonateCall σ)}
    (h₁ : Takes k [d] k₁) (h₂ : Takes k₁ ds k') : Takes k (d :: ds) k' := by
  have hlength : k₁.receipts.length = k.receipts.length + 1 := by
    rw [h₁.receipts, List.length_append, List.length_mapIdx, List.length_singleton]
  refine ⟨h₂.charters.trans h₁.charters, h₂.closed.trans h₁.closed, ?_⟩
  rw [h₂.receipts, hlength, h₁.receipts, List.append_assoc, List.mapIdx_cons]
  simp [Nat.add_assoc, Nat.add_comm 1]

/-- **One donation.** -/
theorem Performs.takes {d : DonateCall σ} {v : Value} {s s' : State σ} {k : Book}
    (hp : Performs d.tokens d.ctx s (.donate d.donor d.campaignId d.amount d.memo) v s')
    (hk : Represents s.store k) :
    ∃ k', Represents s'.store k' ∧ Takes k [d] k' ∧
      ∀ t holder, s'.world.bal t holder
        = s.world.bal t holder + d.flow k.charters t holder := by
  cases hp with
  | donate _ _ hamount _ hx _ _ _ hpay _ _ hr =>
    obtain ⟨ch, hch, rfl⟩ := hk.campaignAt_eq_some hx
    rw [hk.receiptCount, Option.getD_some] at hr
    subst hr
    refine ⟨_, (hk.touch _).give rfl hamount hch, ⟨rfl, rfl, rfl⟩, fun t holder => ?_⟩
    rw [DonateCall.flow, hch]
    exact (World.bal_pay hpay t holder).trans (add_sub_assoc ..)
  | view hi => rcases hi with hi | hi | hi | ⟨_, hi⟩ | hi | ⟨_, _, hi⟩ <;> cases hi

/-- **All the donations of a list.** -/
theorem donateAll_books : ∀ (ds : List (DonateCall σ)) {b : Chain Store σ} {k : Book},
    Represents b.store k → AllReturned b ds →
      ∃ k', Represents (donateAll b ds).2.store k' ∧ Takes k ds k' ∧
        ∀ t holder, (donateAll b ds).2.world.bal t holder
          = b.world.bal t holder + (ds.map fun d => d.flow k.charters t holder).sum := by
  intro ds
  induction ds with
  | nil =>
    intro b k hk _
    exact ⟨k, hk, .nil k, fun t holder => (add_zero _).symm⟩
  | cons d ds ih =>
    intro b k hk hall
    obtain ⟨hret, hrest⟩ := List.forall_mem_cons.mp hall
    obtain ⟨v, s, hd, hafter⟩ := Chain.exec_of_returned hret
    obtain ⟨k₁, hk₁, htakes₁, hbal₁⟩ := (dispatch_performs hd).takes hk
    have hmore : (donateAll b (d :: ds)).2
        = (donateAll ⟨s.store, s.world, d.ctx.timestamp, d.ctx.sequence⟩ ds).2 :=
      congrArg (fun b₁ => (donateAll b₁ ds).2) hafter
    rw [hafter] at hrest
    obtain ⟨k', hk', htakes, hbal⟩ := ih hk₁ hrest
    rw [hmore]
    refine ⟨k', hk', htakes₁.cons htakes, fun t holder => ?_⟩
    have hfirst : s.world.bal t holder = b.world.bal t holder + d.flow k.charters t holder :=
      hbal₁ t holder
    rw [hbal, htakes₁.charters, hfirst, add_assoc, List.map_cons, List.sum_cons]

/-! ## 3. Reordering -/

section Takes

variable {k k' k₁ k₂ : Book} {ds ds' : List (DonateCall σ)}

theorem Takes.bodies (h : Takes k ds k') : k'.receipts.map Receipt.body
    = k.receipts.map Receipt.body ++ ds.map fun d => d.receipt 0 := by
  have hnew : (ds.mapIdx fun i d => d.receipt (k.receipts.length + i + 1)).map Receipt.body
      = ds.map fun d => d.receipt 0 := by
    refine List.ext_getElem? fun i => ?_
    rw [List.getElem?_map, List.getElem?_mapIdx, Option.map_map, List.getElem?_map]
    rfl
  rw [h.receipts, List.map_append, hnew]

theorem Takes.similar (h₁ : Takes k ds k₁) (h₂ : Takes k ds' k₂) (hperm : ds'.Perm ds) :
    Book.Similar k₁ k₂ := by
  refine ⟨h₂.charters.trans h₁.charters.symm, h₂.closed.trans h₁.closed.symm, ?_⟩
  rw [h₁.bodies, h₂.bodies]
  exact (hperm.map _).append_left _

theorem Takes.old (h : Takes k ds k') {n : Nat} (hn : n ≤ k.receipts.length) :
    numbered k'.receipts n = numbered k.receipts n := by
  rw [h.receipts]
  cases n with
  | zero => rfl
  | succ n => exact List.getElem?_append_left hn

theorem Takes.new (h : Takes k ds k') (i : Fin ds.length) :
    numbered k'.receipts (k.receipts.length + i + 1)
      = some ((ds.get i).receipt (k.receipts.length + i + 1)) := by
  rw [h.receipts, numbered, List.getElem?_append_right (Nat.le_add_right _ _),
    Nat.add_sub_cancel_left, List.getElem?_mapIdx, List.getElem?_eq_getElem i.isLt]
  rfl

end Takes

/-- The donation `π i` of the list in the place `i`. -/
def reorder (ds : List (DonateCall σ)) (π : Equiv.Perm (Fin ds.length)) : List (DonateCall σ) :=
  List.ofFn (ds.get ∘ π)

theorem reorder_perm (ds : List (DonateCall σ)) (π : Equiv.Perm (Fin ds.length)) :
    (reorder ds π).Perm ds := by
  have hperm := π.ofFn_comp_perm ds.get
  rwa [List.ofFn_get] at hperm

theorem length_reorder (ds : List (DonateCall σ)) (π : Equiv.Perm (Fin ds.length)) :
    (reorder ds π).length = ds.length := List.length_ofFn

/-- **The order of donations does not matter.**  From a reachable state, a list of donations and
a reordering of it that both return throughout leave the same campaigns, the same totals of
donors, the same number of receipts and the same balances.  The receipts that were there stay,
and the new ones are the same up to their numbers: the `i`-th of the second order is the `π i`-th
of the first.  The donations need not be made in one ledger. -/
theorem donation_order_irrelevant {self : Address} {b b' : Chain Store σ}
    {ls : List (DonationsLabel σ)} (h0 : Genesis b) (hrun : Runs (Step self) b ls b')
    (ds : List (DonateCall σ)) (π : Equiv.Perm (Fin ds.length))
    (h₁ : AllReturned b' ds) (h₂ : AllReturned b' (reorder ds π)) :
    let s₁ := (donateAll b' ds).2
    let s₂ := (donateAll b' (reorder ds π)).2
    let count := b'.store.receiptCount.getD 0
    (∀ id, s₂.store.campaignAt id = s₁.store.campaignAt id) ∧
      (∀ id d, s₂.store.totalAt id d = s₁.store.totalAt id d) ∧
      s₂.store.receiptCount = s₁.store.receiptCount ∧
      (∀ t holder, s₂.world.bal t holder = s₁.world.bal t holder) ∧
      (∀ n ≤ count, s₁.store.receiptAt n = b'.store.receiptAt n ∧
        s₂.store.receiptAt n = b'.store.receiptAt n) ∧
      ∀ i : Fin ds.length, ∃ r, s₁.store.receiptAt (count + π i + 1) = some r ∧
        s₂.store.receiptAt (count + i + 1) = some { r with id := count + i + 1 } := by
  intro s₁ s₂ count
  obtain ⟨k, hk⟩ := kept_of_runs h0 hrun
  obtain ⟨k₁, hk₁, htakes₁, hbal₁⟩ := donateAll_books ds hk h₁
  obtain ⟨k₂, hk₂, htakes₂, hbal₂⟩ := donateAll_books (reorder ds π) hk h₂
  have hcount : count = k.receipts.length := by
    simp only [count, hk.receiptCount, Option.getD_some]
  have hperm := reorder_perm ds π
  have hsimilar := htakes₁.similar htakes₂ hperm
  refine ⟨fun id => ?_, fun id d => ?_, ?_, fun t holder => ?_, fun n hn => ⟨?_, ?_⟩, fun i => ?_⟩
  · rw [hk₁.campaign, hk₂.campaign, hsimilar.campaign?]
  · rw [hk₁.total, hk₂.total, hsimilar.donorTotal]
  · have hlength := hsimilar.receipts.length_eq
    rw [List.length_map, List.length_map] at hlength
    rw [hk₁.receiptCount, hk₂.receiptCount, hlength]
  · rw [hbal₁, hbal₂, (hperm.map _).sum_eq]
  · rw [hk₁.receipt, hk.receipt, htakes₁.old (hcount ▸ hn)]
  · rw [hk₂.receipt, hk.receipt, htakes₂.old (hcount ▸ hn)]
  · rw [hcount]
    refine ⟨_, (hk₁.receipt _).trans (htakes₁.new (π i)), ?_⟩
    have hnew := htakes₂.new (i.cast (length_reorder ds π).symm)
    rw [hk₂.receipt]
    refine hnew.trans ?_
    simp only [reorder, List.get_ofFn]
    rfl

/-- Alice gives twice more, and Bob once in between. -/
def Drive.encore : List (DonateCall Unit) :=
  [⟨Tokens.standard, ctx, alice, 1, 5, ⟨[]⟩⟩, ⟨Tokens.standard, ctx, bob, 1, 7, ⟨[33]⟩⟩,
    ⟨Tokens.standard, ctx, alice, 1, 2, ⟨[]⟩⟩]

theorem donation_order_irrelevant_drive :
    (donateAll (Drive.given Drive.charity) (reorder Drive.encore Fin.revPerm)).2.world.bal
        Drive.token Drive.charity = 114 ∧
      ∃ r, (donateAll (Drive.given Drive.charity) Drive.encore).2.store.receiptAt 6 = some r ∧
        (donateAll (Drive.given Drive.charity)
          (reorder Drive.encore Fin.revPerm)).2.store.receiptAt 4 = some { r with id := 4 } := by
  have hrun : Runs (Step Drive.contract) Drive.deployed (Drive.log Drive.charity)
      (Drive.given Drive.charity) := (Drive.runs Drive.charity).mono fun _ _ _ h => h.1
  have h₁ : AllReturned (Drive.given Drive.charity) Drive.encore := by
    unfold AllReturned
    decide +kernel
  have h₂ : AllReturned (Drive.given Drive.charity) (reorder Drive.encore Fin.revPerm) := by
    unfold AllReturned
    decide +kernel
  have hcount : (Drive.given Drive.charity).store.receiptCount.getD 0 = 3 := by decide +kernel
  obtain ⟨-, -, -, hbal, -, hnew⟩ :=
    donation_order_irrelevant Drive.genesis hrun Drive.encore Fin.revPerm h₁ h₂
  rw [hcount] at hnew
  exact ⟨(hbal _ _).trans (by decide +kernel), hnew ⟨0, by decide⟩⟩

end Stellariq.Donations
