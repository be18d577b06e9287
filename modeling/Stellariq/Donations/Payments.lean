/-
# A receipt for every payment

The contract moves tokens in one place, and stores a receipt in the same call.  Over a whole run
the transfers that its calls made are therefore, in the order in which they were made, the transfers
that the stored receipts tell of (`receipts_backed`): no receipt without its payment, no payment
without its receipt, and none twice.
-/
import Stellariq.Donations.Frozen

namespace Stellariq.Donations

open Kit

variable {σ : Type} {T : Tokens σ} {c : Ctx} {self : Address}

/-- The transfers that the calls of a run made: token, sender, receiver, amount. -/
def payments (ls : List (DonationsLabel σ)) : List (Address × Address × Address × Int) :=
  ls.flatMap fun l =>
    match l with
    | .tx t => transfersOf t.ops
    | .elsewhere => []

/-- The transfer that a receipt tells of, if its campaign exists. -/
def Store.paid (st : Store) (r : Receipt) : Option (Address × Address × Address × Int) :=
  (st.campaignAt r.campaignId).map fun x => (x.token, r.donor, x.beneficiary, r.amount)

/-! ## 1. The book -/

def Book.paid (k : Book) (r : Receipt) : Option (Address × Address × Address × Int) :=
  (numbered k.charters r.campaignId).map fun ch => (ch.token, r.donor, ch.beneficiary, r.amount)

/-- The transfers `ps` are those that the receipts of the book tell of. -/
def Backed (k : Book) (ps : List (Address × Address × Address × Int)) : Prop :=
  ps.map some = k.receipts.map k.paid

section Entries

variable {k : Book} {ps : List (Address × Address × Address × Int)}

/-- Operations that move nothing. -/
theorem Backed.quiet {ops : List Op} (hp : Backed k ps) (hops : transfersOf ops = []) :
    Backed k (ps ++ transfersOf ops) := by
  rwa [hops, List.append_nil]

/-- A new campaign is none that a receipt could name. -/
theorem Backed.create (hp : Backed k ps) (ch : Charter) : Backed (k.create ch) ps := by
  refine Eq.trans hp (List.map_congr_left fun r hr => ?_)
  have hle := k.known r hr
  have hne : r.campaignId ≠ k.charters.length + 1 := by omega
  simp only [Book.paid, Book.create, numbered_snoc, if_neg hne]

theorem Backed.give (hp : Backed k ps) {r : Receipt} {ch : Charter}
    (hid : r.id = k.receipts.length + 1) (hpos : 0 < r.amount)
    (hch : numbered k.charters r.campaignId = some ch) :
    Backed (k.give r hid hpos (numbered_bounds hch).2)
      (ps ++ [(ch.token, r.donor, ch.beneficiary, r.amount)]) := by
  have hnew : k.paid r = some (ch.token, r.donor, ch.beneficiary, r.amount) := by
    rw [Book.paid, hch]
    rfl
  have hold : (k.give r hid hpos (numbered_bounds hch).2).paid = k.paid := rfl
  have hreceipts : (k.give r hid hpos (numbered_bounds hch).2).receipts = k.receipts ++ [r] := rfl
  rw [Backed, hreceipts, hold, List.map_append, List.map_append, hp, List.map_singleton,
    List.map_singleton, hnew]

end Entries

/-! ## 2. Calls and runs -/

/-- **A call that returned** paid what its new receipt tells of, and nothing else. -/
theorem Performs.backed {i : Invocation} {v : Value} {s s' : State σ} {k : Book}
    {ps : List (Address × Address × Address × Int)} (hp : Performs T c s i v s')
    (hk : Represents s.store k) (hback : Backed k ps) :
    ∃ k' ops, s'.log = s.log ++ ops ∧ Represents s'.store k' ∧
      Backed k' (ps ++ transfersOf ops) := by
  cases hp with
  | setPaused =>
    exact ⟨k, _, rfl,
      ⟨hk.campaignCount, hk.receiptCount, hk.campaign, hk.receipt, hk.total⟩, hback.quiet rfl⟩
  | createCampaign _ _ _ _ _ _ _ hid =>
    rw [hk.campaignCount, Option.getD_some] at hid
    subst hid
    exact ⟨_, _, rfl, hk.create .., (hback.create _).quiet rfl⟩
  | closeCampaign _ hx _ _ =>
    obtain ⟨ch, hch, rfl⟩ := hk.campaignAt_eq_some hx
    have hclosed : Backed (k.close _ (numbered_bounds hch).2) ps := hback
    exact ⟨_, _, rfl, (hk.touch _).close hch, hclosed.quiet rfl⟩
  | getCampaign =>
    exact ⟨k, [], (List.append_nil _).symm, hk.touch _, hback.quiet rfl⟩
  | donate _ _ hamount _ hx _ _ _ _ _ _ hr =>
    obtain ⟨ch, hch, rfl⟩ := hk.campaignAt_eq_some hx
    rw [hk.receiptCount, Option.getD_some] at hr
    obtain ⟨hid, rfl, rfl, rfl, -, -, -⟩ := newReceipt_eq.mp hr
    exact ⟨_, _, rfl, (hk.touch _).give hid hamount hch, hback.give hid hamount hch⟩
  | view => exact ⟨k, [], (List.append_nil _).symm, hk, hback.quiet rfl⟩

/-- The book behind the storage, and the payments behind the book. -/
def Accounted (ls : List (DonationsLabel σ)) (b : Chain Store σ) : Prop :=
  ∃ k, Represents b.store k ∧ Backed k (payments ls)

theorem accounted_step {b b' : Chain Store σ} {ls : List (DonationsLabel σ)} {l : DonationsLabel σ}
    (hb : Accounted ls b) (hstep : Step self b l b') : Accounted (ls ++ [l]) b' := by
  obtain ⟨k, hk, hback⟩ := hb
  have hsnoc : payments (ls ++ [l]) = payments ls ++ payments [l] := List.flatMap_append
  rw [Accounted, hsnoc]
  cases hstep with
  | returned _ _ _ hd =>
    obtain ⟨k', ops, hlog, hk', hback'⟩ := (dispatch_performs hd).backed hk hback
    obtain rfl : _ = ops := hlog
    exact ⟨k', hk', by simpa [payments] using hback'⟩
  | failed => exact ⟨k, hk, by simpa [transfersOf, payments] using hback⟩
  | elsewhere => exact ⟨k, hk, by simpa [payments] using hback⟩

/-- **A receipt for every payment.**  The transfers that the contract made in a run from deployment
are those that the stored receipts tell of, one for each and in the order of their ids: the token
and the beneficiary of the campaign, the donor and the amount of the receipt. -/
theorem receipts_backed {b b' : Chain Store σ} {ls : List (DonationsLabel σ)} (h0 : Genesis b)
    (hrun : Runs (Step self) b ls b') :
    (payments ls).map some = b'.store.receipts.map b'.store.paid := by
  obtain ⟨k, hk, hback⟩ := hrun.invariant_labels (I := Accounted)
    (fun _ _ _ _ => accounted_step) ⟨_, Represents.genesis h0, rfl⟩
  have hpaid : b'.store.paid = k.paid := by
    funext r
    rw [Store.paid, hk.campaign, Book.campaign?, Option.map_map]
    rfl
  rw [hback, hk.receipts_eq, hpaid]

theorem receipts_backed_drive :
    payments (Drive.log Drive.charity) =
      [(Drive.token, Drive.alice, Drive.charity, 60), (Drive.token, Drive.bob, Drive.charity, 30),
        (Drive.token, Drive.alice, Drive.charity, 10)] := by
  have hrun : Runs (Step Drive.contract) Drive.deployed (Drive.log Drive.charity)
      (Drive.given Drive.charity) := (Drive.runs Drive.charity).mono fun _ _ _ h => h.1
  have hback := receipts_backed Drive.genesis hrun
  refine List.map_injective_iff.mpr (Option.some_injective _) (hback.trans ?_)
  decide +kernel

end Stellariq.Donations
