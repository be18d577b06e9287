/-
# Donations at the limit

`donate` adds the amount to two totals: to the donor's own with a plain `+`, and to what the
campaign raised with a `checked_add` whose failure is `InvalidAmount`.  The plain addition comes
first.  A donor's total is a part of what was raised, so where the plain addition overflows the
checked one would have refused the donation, but the call is already aborted by then
(`recordDonation_outcome`).  All other additions are bounded by the number of donations.
-/
import Stellariq.Donations.Book

namespace Stellariq.Donations

open Kit

variable {σ : Type} {T : Tokens σ} {c : Ctx} {self : Address}

/-! ## 1. The additions of a donation -/

section

variable {donor : Address} {id : Nat} {amount : Int} {memo : Text} {x : Campaign} {s : State σ}

/-- **How the bookkeeping ends**, as long as the counters have room. -/
theorem recordDonation_outcome (hdonors : x.donorCount < U32_MAX)
    (hdonations : x.donationCount < U32_MAX) (hreceipts : s.store.receiptCount.getD 0 < U64_MAX)
    (htotal : 0 ≤ s.store.totalAt id donor) (hraised : 0 ≤ x.raised) (hamount : 0 < amount) :
    (recordDonation c donor id amount memo x s).1 =
      if I128_MAX < s.store.totalAt id donor + amount then .trap
      else if I128_MAX < x.raised + amount then .err .invalidAmount
      else .ok (s.store.receiptCount.getD 0 + 1) := by
  have hread : donorTotal id donor s = (.ok (s.store.totalAt id donor), s) :=
    Exec.gets_eq_ok.mpr ⟨rfl, rfl⟩
  have hcount : countDonor (s.store.totalAt id donor) x.donorCount s = (.ok _, s) :=
    countDonor_eq_ok.mpr ⟨fun _ => hdonors, rfl, rfl⟩
  have hlow : ∀ {v : Int}, 0 ≤ v → I128_MIN ≤ v + amount := by
    intro v hv
    simp only [I128_MIN]
    omega
  by_cases hover : I128_MAX < s.store.totalAt id donor + amount
  · -- the donor's total is written before anything is checked
    have hnone : checkedI128 (s.store.totalAt id donor + amount) = none :=
      if_neg fun h => absurd h.2 (not_le.mpr hover)
    rw [if_pos hover, recordDonation, Exec.bind_of_ok hread, Exec.bind_of_ok hcount, hnone]
    rfl
  · have hsum : (Exec.orTrap (checkedI128 (s.store.totalAt id donor + amount)) : Call σ Int) s
        = (.ok (s.store.totalAt id donor + amount), s) :=
      Exec.orTrap_eq_ok.mpr
        ⟨checkedI128_eq_some.mpr ⟨⟨hlow htotal, not_lt.mp hover⟩, rfl⟩, rfl⟩
    rw [if_neg hover]
    by_cases hmax : I128_MAX < x.raised + amount
    · have hnone : checkedI128 (x.raised + amount) = none :=
        if_neg fun h => absurd h.2 (not_le.mpr hmax)
      rw [if_pos hmax, recordDonation, Exec.bind_of_ok hread, Exec.bind_of_ok hcount,
        Exec.bind_of_ok hsum, Exec.bind_of_ok ((putTotal_eq_ok (u := ())).mpr rfl), hnone]
      rfl
    · rw [if_neg hmax]
      have hok : recordDonation c donor id amount memo x s = (.ok _, _) :=
        recordDonation_eq_ok.mpr ⟨fun _ => hdonors, ⟨hlow htotal, not_lt.mp hover⟩,
          ⟨hlow hraised, not_lt.mp hmax⟩, hdonations, hreceipts, rfl, rfl⟩
      exact congrArg Prod.fst hok

end

/-! ## 2. Figures of reachable states -/

section

variable {st : Store} {k : Book}

theorem Represents.total_nonneg (hk : Represents st k) (id : Nat) (donor : Address) :
    0 ≤ st.totalAt id donor := by
  rw [hk.total]
  exact Kit.total_nonneg fun r hr => k.positive_receiptsTo id r (List.mem_of_mem_filter hr)

theorem Represents.raised_nonneg (hk : Represents st k) {id : Nat} {x : Campaign}
    (hx : st.campaignAt id = some x) : 0 ≤ x.raised := by
  obtain ⟨ch, -, rfl⟩ := hk.campaignAt_eq_some hx
  exact Kit.total_nonneg (k.positive_receiptsTo id)

/-- There are no more donors than donations. -/
theorem Represents.donors_le (hk : Represents st k) {id : Nat} {x : Campaign}
    (hx : st.campaignAt id = some x) : x.donorCount ≤ x.donationCount := by
  obtain ⟨ch, -, rfl⟩ := hk.campaignAt_eq_some hx
  calc (keys Receipt.donor (k.receiptsTo id)).card
      ≤ ((k.receiptsTo id).map Receipt.donor).length := List.toFinset_card_le _
    _ = (k.receiptsTo id).length := List.length_map ..

end

/-! ## 3. Clean errors -/

/-- The donation of `amount` to the campaign `x` ends with `InvalidAmount` exactly when it would
raise too much, with a receipt otherwise, and never in an abort. -/
def Clean (x : Campaign) (amount : Int) (o : Outcome DonationError Nat) : Prop :=
  o ≠ .trap ∧ (o = .err .invalidAmount ↔ I128_MAX < x.raised + amount) ∧
    ((∃ rid, o = .ok rid) ↔ x.raised + amount ≤ I128_MAX)

/-- **When a donation ends cleanly.**  A donation that has passed the checks and whose transfer has
gone through, to a campaign and a contract whose counters have room, ends as it should exactly when
the donor's own total does not overflow. -/
theorem donation_clean_iff {b₀ b : Chain Store σ} {ks : List (DonationsLabel σ)}
    (h0 : Genesis b₀) (hreach : Runs (Step self) b₀ ks b) {donor : Address} {id : Nat}
    {amount : Int} {memo : Text} {x : Campaign} {s₁ s₂ : State σ}
    (hcheck : checkDonation c donor id amount memo b.start = (.ok x, s₁))
    (hpay : (transfer T c x.token donor x.beneficiary amount : Call σ Unit) s₁ = (.ok (), s₂))
    (hdonations : x.donationCount < U32_MAX)
    (hreceipts : b.store.receiptCount.getD 0 < U64_MAX) :
    Clean x amount (donate T c donor id amount memo b.start).1 ↔
      b.store.totalAt id donor + amount ≤ I128_MAX := by
  obtain ⟨k, hk⟩ := kept_of_runs h0 hreach
  have hdonate : donate T c donor id amount memo b.start
      = recordDonation c donor id amount memo x s₂ := by
    rw [donate, Exec.bind_of_ok hcheck, Exec.bind_of_ok hpay]
  obtain ⟨-, -, hamount, -, hx, -, -, -, hs₁⟩ := checkDonation_eq_ok.mp hcheck
  obtain ⟨-, w, -, hs₂⟩ := transfer_eq_ok.mp hpay
  have hstore : s₂.store = b.store.touchCampaign c id := by
    rw [hs₂, hs₁]
    rfl
  have htotal : s₂.store.totalAt id donor = b.store.totalAt id donor := by
    rw [hstore]
    rfl
  have hcount : s₂.store.receiptCount = b.store.receiptCount := by
    rw [hstore]
    rfl
  have hdonors : x.donorCount < U32_MAX := lt_of_le_of_lt (hk.donors_le hx) hdonations
  have hout : (recordDonation c donor id amount memo x s₂).1 = _ :=
    recordDonation_outcome hdonors hdonations (by rw [hcount]; exact hreceipts)
      (by rw [htotal]; exact hk.total_nonneg id donor) (hk.raised_nonneg hx) hamount
  rw [htotal] at hout
  rw [hdonate, hout]
  constructor
  · intro hclean
    by_contra hover
    exact hclean.1 (if_pos (not_le.mp hover))
  · intro hle
    rw [if_neg (not_lt.mpr hle)]
    by_cases hmax : I128_MAX < x.raised + amount
    · rw [if_pos hmax]
      exact ⟨by simp, iff_of_true rfl hmax, iff_of_false (by simp) (not_le.mpr hmax)⟩
    · rw [if_neg hmax]
      exact ⟨by simp, iff_of_false (by simp) hmax, iff_of_true ⟨_, rfl⟩ (not_lt.mp hmax)⟩

/-- The campaign of the drive, after three donations. -/
def Drive.campaign : Campaign :=
  { id := 1, creator := Drive.charity, beneficiary := Drive.charity, token := Drive.token,
    title := ⟨[87]⟩, description := ⟨[]⟩, goal := 500, deadline := 2000, raised := 100,
    donorCount := 2, donationCount := 3, isOpen := true, createdAt := 1000 }

theorem donation_clean_iff_drive :
    Clean Drive.campaign 5 (donate Tokens.standard Drive.ctx Drive.bob 1 5 ⟨[]⟩
      (Drive.given Drive.charity).start).1 := by
  have hrun : Runs (Step Drive.contract) Drive.deployed (Drive.log Drive.charity)
      (Drive.given Drive.charity) := (Drive.runs Drive.charity).mono fun _ _ _ h => h.1
  exact (donation_clean_iff Drive.genesis hrun (x := Drive.campaign)
    (Exec.eq_ok_of_fst (by decide +kernel)) (T := Tokens.standard)
    (Exec.eq_ok_of_fst (by decide +kernel)) (by decide) (by decide +kernel)).mpr
    (by decide +kernel)

/-! ## 4. A donor with all the tokens -/

namespace Flood

/-- Alice has as much as a token can hold. -/
def funded : World Unit :=
  { ledger := Ledger.minted
      [(Drive.token, Drive.alice, 170141183460469231731687303715884105727)]
    rest := () }

def deployed : Chain Store Unit :=
  { store := (construct Drive.ctx Drive.admin ⟨Store.undeployed 10000, funded, []⟩).2.store
    world := funded
    now := 1000
    seq := 1 }

theorem genesis : Genesis deployed := ⟨Drive.ctx, Drive.admin, 10000, funded, _, rfl, rfl⟩

/-- She gives it all to a campaign. -/
def calls : List (Tokens Unit × Ctx × Invocation) :=
  [(Tokens.standard, Drive.ctx,
      .createCampaign Drive.charity Drive.charity Drive.token ⟨[87]⟩ ⟨[]⟩ 500 2000),
    (Tokens.standard, Drive.ctx, .donate Drive.alice 1 I128_MAX ⟨[]⟩)]

def log : List (DonationsLabel Unit) := (deployed.execAll dispatch calls).1

def given : Chain Store Unit := (deployed.execAll dispatch calls).2

/-- The charity sends it back. -/
def returned : Chain Store Unit := { given with world := funded }

theorem runs : Runs (Step Drive.contract) deployed (log ++ [.elsewhere]) returned :=
  .tail (Chain.execAll_runs calls deployed (by simp [calls, deployed, Drive.ctx]))
    (.elsewhere le_rfl le_rfl)

def campaign : Campaign :=
  { Drive.campaign with raised := I128_MAX, donorCount := 1, donationCount := 1 }

end Flood

/-- Alice gives one more: the checks pass, the tokens move, and the call is aborted instead of
refused. -/
theorem donation_aborts :
    Genesis Flood.deployed ∧
      Runs (Step Drive.contract) Flood.deployed (Flood.log ++ [.elsewhere]) Flood.returned ∧
      ∃ s₁ s₂ : State Unit,
        checkDonation Drive.ctx Drive.alice 1 1 ⟨[]⟩ Flood.returned.start
          = (.ok Flood.campaign, s₁) ∧
        (transfer Tokens.standard Drive.ctx Drive.token Drive.alice Drive.charity 1 :
          Call Unit Unit) s₁ = (.ok (), s₂) ∧
        Flood.campaign.donationCount < U32_MAX ∧
        Flood.returned.store.receiptCount.getD 0 < U64_MAX ∧
        I128_MAX < Flood.campaign.raised + 1 ∧
        (donate Tokens.standard Drive.ctx Drive.alice 1 1 ⟨[]⟩ Flood.returned.start).1 = .trap ∧
        ¬ Clean Flood.campaign 1
          (donate Tokens.standard Drive.ctx Drive.alice 1 1 ⟨[]⟩ Flood.returned.start).1 := by
  have htrap : (donate Tokens.standard Drive.ctx Drive.alice 1 1 ⟨[]⟩ Flood.returned.start).1
      = .trap := by decide +kernel
  exact ⟨Flood.genesis, Flood.runs, _, _, Exec.eq_ok_of_fst (by decide +kernel),
    Exec.eq_ok_of_fst (by decide +kernel), by decide, by decide +kernel, by decide, htrap,
    fun hclean => hclean.1 htrap⟩

end Stellariq.Donations
