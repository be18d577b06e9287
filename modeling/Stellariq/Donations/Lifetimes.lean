/-
# How long the storage lives

An entry that nobody renews is archived, and the call that needs it fails.  A donation renews the
entries it writes, the campaign, the donor's total and the receipt, but not the instance entry,
which holds the admin, the pause flag and both counters and without which nothing else works;
`create_campaign` and the constructor do.  So a contract that lives on donations alone runs out:
after a donation the instance entry lasts exactly when it did before (`renewed_iff`), and in
`Lapse` it does not.
-/
import Stellariq.Donations.Book

namespace Stellariq.Donations

open Kit

variable {σ : Type} {T : Tokens σ} {c : Ctx} {self : Address}

/-! ## 1. Lifetimes -/

/-- The last ledger of the entry that holds the key. -/
def Store.liveUntil (st : Store) : DataKey → Option Nat
  | .admin | .paused | .campaignCount | .receiptCount => some st.instanceUntil
  | .campaign id => (st.campaign id).map Entry.liveUntil
  | .receipt n => (st.receipt n).map Entry.liveUntil
  | .donorTotal id donor => (st.donorTotal id donor).map Entry.liveUntil

/-- The lifetime `u` after `extend_ttl`. -/
def renewal (c : Ctx) (u : Nat) : Nat := extendTtl c.sequence TTL_THRESHOLD TTL_EXTEND u

theorem threshold_le_renewal (c : Ctx) (u : Nat) : TTL_THRESHOLD ≤ renewal c u - c.sequence :=
  threshold_le_extendTtl (by decide) u

namespace Store

variable (st : Store)

/-- An entry that is written is renewed. -/
theorem liveUntil_putCampaign (x : Campaign) :
    (st.putCampaign c x).liveUntil = Function.update st.liveUntil (.campaign x.id)
      (some (renewal c ((st.liveUntil (.campaign x.id)).getD c.freshUntil))) := by
  funext key
  by_cases hkey : key = .campaign x.id
  · subst hkey
    rw [Function.update_self]
    simp [liveUntil, putCampaign, setCampaign, renew, renewal, Entry.extend, Entry.put]
  · rw [Function.update_of_ne hkey]
    cases key with
    | campaign id =>
      have hid : id ≠ x.id := fun h => hkey (h ▸ rfl)
      simp [liveUntil, putCampaign, setCampaign, hid]
    | admin | paused | campaignCount | receiptCount => rfl
    | receipt | donorTotal => rfl

theorem liveUntil_putReceipt (r : Receipt) :
    (st.putReceipt c r).liveUntil = Function.update st.liveUntil (.receipt r.id)
      (some (renewal c ((st.liveUntil (.receipt r.id)).getD c.freshUntil))) := by
  funext key
  by_cases hkey : key = .receipt r.id
  · subst hkey
    rw [Function.update_self]
    simp [liveUntil, putReceipt, setReceipt, renew, renewal, Entry.extend, Entry.put]
  · rw [Function.update_of_ne hkey]
    cases key with
    | receipt n =>
      have hn : n ≠ r.id := fun h => hkey (h ▸ rfl)
      simp [liveUntil, putReceipt, setReceipt, hn]
    | admin | paused | campaignCount | receiptCount => rfl
    | campaign | donorTotal => rfl

theorem liveUntil_putTotal (id : Nat) (donor : Address) (total : Int) :
    (st.putTotal c id donor total).liveUntil = Function.update st.liveUntil (.donorTotal id donor)
      (some (renewal c ((st.liveUntil (.donorTotal id donor)).getD c.freshUntil))) := by
  funext key
  by_cases hkey : key = .donorTotal id donor
  · subst hkey
    rw [Function.update_self]
    simp [liveUntil, putTotal, setDonorTotal, renew, renewal, Entry.extend, Entry.put]
  · rw [Function.update_of_ne hkey]
    cases key with
    | donorTotal id' donor' =>
      by_cases hid : id' = id
      · subst hid
        have hdonor : donor' ≠ donor := fun h => hkey (h ▸ rfl)
        simp [liveUntil, putTotal, setDonorTotal, hdonor]
      · simp [liveUntil, putTotal, setDonorTotal, hid]
    | admin | paused | campaignCount | receiptCount => rfl
    | campaign | receipt => rfl

/-- What lives for the threshold from now on still does after a campaign was created. -/
theorem alive_created {seq : Nat} (hlive : Alive st.liveUntil seq)
    (hseq : seq ≤ c.sequence + TTL_THRESHOLD) (x : Campaign) (count : Nat) :
    Alive (Store.renewed { st.putCampaign c x with campaignCount := some count } c).liveUntil
      seq := by
  have hlasts : ∀ u, seq ≤ renewal c u := by
    intro u
    have hle := threshold_le_renewal c u
    simp only [TTL_THRESHOLD] at hle hseq
    omega
  have hcampaign : Alive (st.putCampaign c x).liveUntil seq := by
    rw [liveUntil_putCampaign]
    exact hlive.update (hlasts _)
  intro key u h
  cases key with
  | admin | paused | campaignCount | receiptCount =>
    cases h
    exact hlasts _
  | campaign id => exact hcampaign (.campaign id) u h
  | receipt n => exact hcampaign (.receipt n) u h
  | donorTotal id donor => exact hcampaign (.donorTotal id donor) u h

/-- A donation does not renew the instance entry. -/
theorem instanceUntil_recorded (x : Campaign) (id : Nat) (r : Receipt) :
    ((st.touchCampaign c id).recorded c x id r).instanceUntil = st.instanceUntil := by
  simp only [recorded, putReceipt, putCampaign, putTotal, touchCampaign, setReceipt, setCampaign,
    setDonorTotal]

/-- The three entries that a donation writes last. -/
theorem lasts_recorded (x : Campaign) (id : Nat) (r : Receipt) :
    Lasts (st.recorded c x id r).liveUntil TTL_THRESHOLD c.sequence (.campaign x.id) ∧
      Lasts (st.recorded c x id r).liveUntil TTL_THRESHOLD c.sequence (.donorTotal id r.donor) ∧
      Lasts (st.recorded c x id r).liveUntil TTL_THRESHOLD c.sequence (.receipt r.id) := by
  have htables : (st.recorded c x id r).liveUntil
      = (((st.putTotal c id r.donor (st.totalAt id r.donor + r.amount)).putCampaign c
          (x.donated (st.totalAt id r.donor) r.amount)).putReceipt c r).liveUntil := by
    funext key
    cases key <;> rfl
  rw [htables, liveUntil_putReceipt]
  refine ⟨?_, ?_, lasts_update_self (threshold_le_renewal c _)⟩
  · rw [lasts_update_of_ne (by simp), liveUntil_putCampaign]
    exact lasts_update_self (threshold_le_renewal c _)
  · rw [lasts_update_of_ne (by simp), liveUntil_putCampaign, lasts_update_of_ne (by simp),
      liveUntil_putTotal]
    exact lasts_update_self (threshold_le_renewal c _)

end Store

/-! ## 2. Steps -/

/-- The keys that the next call needs, after a call that returned `v`: those of the instance entry
and those of the records it wrote. -/
def Invocation.relies : Invocation → Value → List DataKey
  | .createCampaign .., .count id =>
    [.admin, .paused, .campaignCount, .receiptCount, .campaign id]
  | .donate donor id _ _, .count rid =>
    [.admin, .paused, .campaignCount, .receiptCount, .campaign id, .donorTotal id donor,
      .receipt rid]
  | _, _ => []

/-- After a successful `create_campaign` or `donate`, what the next call needs lasts. -/
def Renewed (_ : Chain Store σ) (l : DonationsLabel σ) (b' : Chain Store σ) : Prop :=
  ∀ t v, l = .tx t → t.outcome = .ok v →
    ∀ key ∈ t.call.relies v, Lasts b'.store.liveUntil TTL_THRESHOLD b'.seq key

def Invocation.isDonate : Invocation → Bool
  | .donate .. => true
  | _ => false

/-- At a successful donation, the instance entry has the threshold left already. -/
def Timely (b : Chain Store σ) (l : DonationsLabel σ) (b' : Chain Store σ) : Prop :=
  ∀ t, l = .tx t → t.outcome.isOk = true → t.call.isDonate = true →
    TTL_THRESHOLD ≤ b.store.instanceUntil - b'.seq

/-- A step in whose ledger no entry has expired. -/
def LiveStep (self : Address) (b : Chain Store σ) (l : DonationsLabel σ) (b' : Chain Store σ) :
    Prop :=
  Step self b l b' ∧ Alive b.store.liveUntil b'.seq

/-- **What a call leaves to the next one.** -/
theorem Performs.lasts_iff {i : Invocation} {v : Value} {s s' : State σ} {k : Book}
    (hp : Performs T c s i v s') (hk : Represents s.store k) :
    (∀ key ∈ i.relies v, Lasts s'.store.liveUntil TTL_THRESHOLD c.sequence key) ↔
      (i.isDonate = true → TTL_THRESHOLD ≤ s.store.instanceUntil - c.sequence) := by
  have hnone : ∀ {st : Store}, i.relies v = [] → i.isDonate = false →
      ((∀ key ∈ i.relies v, Lasts st.liveUntil TTL_THRESHOLD c.sequence key) ↔
        (i.isDonate = true → TTL_THRESHOLD ≤ s.store.instanceUntil - c.sequence)) := by
    intro st hrelies hdonate
    rw [hrelies, hdonate]
    simp
  cases hp with
  | setPaused => exact hnone rfl rfl
  | closeCampaign => exact hnone rfl rfl
  | getCampaign => exact hnone rfl rfl
  | view hi =>
    rcases hi with rfl | rfl | rfl | ⟨_, rfl⟩ | rfl | ⟨_, _, rfl⟩ <;> exact hnone rfl rfl
  | @createCampaign creator beneficiary token title description goal deadline id _ _ _ _ _ _ _
      hid =>
    refine iff_of_true ?_ (fun h => nomatch h)
    have hcampaign : Lasts (s.store.putCampaign c (newCampaign c id creator beneficiary token title
        description goal deadline)).liveUntil TTL_THRESHOLD c.sequence (.campaign id) := by
      rw [Store.liveUntil_putCampaign]
      exact lasts_update_self (threshold_le_renewal c _)
    have hinstance := threshold_le_renewal c s.store.instanceUntil
    intro key hkey
    simp only [Invocation.relies, List.mem_cons, List.not_mem_nil, or_false] at hkey
    rcases hkey with rfl | rfl | rfl | rfl | rfl
    · exact ⟨_, rfl, hinstance⟩
    · exact ⟨_, rfl, hinstance⟩
    · exact ⟨_, rfl, hinstance⟩
    · exact ⟨_, rfl, hinstance⟩
    · exact hcampaign
  | @donate donor id amount memo x r w _ _ _ _ hx _ _ _ _ _ _ hr =>
    obtain ⟨-, -, rfl, -, -, -, -⟩ := newReceipt_eq.mp hr
    have hid : x.id = id := by
      obtain ⟨ch, -, rfl⟩ := hk.campaignAt_eq_some hx
      rfl
    obtain ⟨hcampaign, htotal, hreceipt⟩ :=
      (s.store.touchCampaign c id).lasts_recorded (c := c) x id r
    rw [← Store.instanceUntil_recorded (c := c) s.store x id r]
    constructor
    · intro h _
      obtain ⟨u, hu, hle⟩ := h .admin (by simp [Invocation.relies])
      cases hu
      exact hle
    · intro h key hkey
      have hinstance := h rfl
      simp only [Invocation.relies, List.mem_cons, List.not_mem_nil, or_false] at hkey
      rcases hkey with rfl | rfl | rfl | rfl | rfl | rfl | rfl
      · exact ⟨_, rfl, hinstance⟩
      · exact ⟨_, rfl, hinstance⟩
      · exact ⟨_, rfl, hinstance⟩
      · exact ⟨_, rfl, hinstance⟩
      · exact hid ▸ hcampaign
      · exact htotal
      · exact hreceipt

/-- **A step renews what it should exactly when it is timely.** -/
theorem renewed_iff {b b' : Chain Store σ} {l : DonationsLabel σ} (hb : Kept b)
    (hstep : Step self b l b') : Renewed b l b' ↔ Timely b l b' := by
  obtain ⟨k, hk⟩ := hb
  cases hstep with
  | @returned h c i v s _ _ _ hd =>
    have hiff := (dispatch_performs hd).lasts_iff hk
    constructor
    · intro hr t ht _ hdonate
      cases ht
      exact hiff.mp (hr _ v rfl rfl) hdonate
    · intro ht t v' hl hv
      cases hl
      cases hv
      exact hiff.mpr (ht _ rfl rfl)
  | @failed h c i o _ _ _ _ ho =>
    refine iff_of_true (fun t v hl hv => ?_) (fun t hl hok => ?_)
    · cases hl
      obtain rfl : o = .ok v := hv
      cases ho
    · cases hl
      exact absurd (ho.symm.trans hok) Bool.false_ne_true
  | elsewhere => exact iff_of_true (fun t v hl => nomatch hl) (fun t hl => nomatch hl)

/-! ## 3. Runs -/

/-- **When the storage is renewed.**  Over any run in which nothing expires, every successful
`create_campaign` and `donate` leaves the entries that the next call needs with the threshold left
exactly when the instance entry has it left already at every donation. -/
theorem lifetimes_iff {b b' : Chain Store σ} {ls : List (DonationsLabel σ)} (h0 : Genesis b) :
    Runs (fun b l b' => LiveStep self b l b' ∧ Renewed b l b') b ls b' ↔
      Runs (fun b l b' => LiveStep self b l b' ∧ Timely b l b') b ls b' :=
  Runs.conditions_iff (I := Kept) (fun _ _ _ hb hstep => kept_step hb hstep.1)
    (fun _ _ _ hb hstep => renewed_iff hb hstep.1) ⟨_, Represents.genesis h0⟩

namespace Lapse

/-- A contract whose instance entry has more than the threshold left when it is deployed. -/
def deployed : Chain Store Unit :=
  { store := (construct Drive.ctx Drive.admin ⟨Store.undeployed 20000, Drive.funded, []⟩).2.store
    world := Drive.funded
    now := 1000
    seq := 1 }

theorem genesis : Genesis deployed := ⟨Drive.ctx, Drive.admin, 20000, Drive.funded, _, rfl, rfl⟩

def creation : Invocation :=
  .createCampaign Drive.charity Drive.charity Drive.token ⟨[87]⟩ ⟨[]⟩ 500 2000

/-- A campaign is created in the first ledger. -/
def created : DonationsLabel Unit × Chain Store Unit :=
  deployed.exec dispatch Tokens.standard Drive.ctx creation

/-- Bob gives to it while the instance entry still has the threshold left. -/
def timely : DonationsLabel Unit × Chain Store Unit :=
  created.2.exec dispatch Tokens.standard { Drive.ctx with timestamp := 1200, sequence := 2000 }
    (.donate Drive.bob 1 30 ⟨[]⟩)

/-- Alice gives to it, ten thousand ledgers after its creation. -/
def given : DonationsLabel Unit × Chain Store Unit :=
  created.2.exec dispatch Tokens.standard { Drive.ctx with timestamp := 1500, sequence := 10000 }
    (.donate Drive.alice 1 60 ⟨[]⟩)

theorem alive_deployed {seq : Nat} (hseq : seq ≤ 20000) : Alive deployed.store.liveUntil seq := by
  have huntil : deployed.store.instanceUntil = 20000 := by decide +kernel
  have hinstance : seq ≤ deployed.store.instanceUntil := hseq.trans huntil.ge
  intro key u h
  cases key with
  | admin | paused | campaignCount | receiptCount =>
    cases h
    exact hinstance
  | campaign | receipt | donorTotal => cases h

theorem alive_created {seq : Nat} (hseq : seq ≤ 1 + TTL_THRESHOLD) :
    Alive created.2.store.liveUntil seq := by
  have hok : dispatch Tokens.standard Drive.ctx creation deployed.start = (.ok (.count 1), _) :=
    Exec.eq_ok_of_fst (by decide +kernel)
  have hstore : created.2.store
      = (dispatch Tokens.standard Drive.ctx creation deployed.start).2.store := by
    rw [created, Chain.exec_of_ok hok]
  have hp := dispatch_performs hok
  rw [hstore]
  generalize (dispatch Tokens.standard Drive.ctx creation deployed.start).2 = s' at hp
  cases hp with
  | createCampaign =>
    have hlive : Alive deployed.store.liveUntil seq :=
      alive_deployed (hseq.trans (by decide))
    exact Store.alive_created deployed.store hlive hseq _ _
  | view hi => simp [creation] at hi

theorem created_step : LiveStep Drive.contract deployed created.1 created.2 :=
  ⟨Chain.exec_step rfl (by decide) (by decide), alive_deployed (by decide +kernel)⟩

/-- A call that follows the creation before anything expires. -/
theorem live_after_creation {c : Ctx} {i : Invocation} (hself : c.self = Drive.contract)
    (hnow : 1000 ≤ c.timestamp) (hseq : 1 ≤ c.sequence) (hlive : c.sequence ≤ 1 + TTL_THRESHOLD) :
    LiveStep Drive.contract created.2 (created.2.exec dispatch Tokens.standard c i).1
      (created.2.exec dispatch Tokens.standard c i).2 := by
  obtain ⟨hnow₀, hseq₀⟩ : created.2.now = 1000 ∧ created.2.seq = 1 := Chain.exec_clock
  refine ⟨Chain.exec_step hself (hnow₀.trans_le hnow) (hseq₀.trans_le hseq), ?_⟩
  rw [Chain.exec_clock.2]
  exact alive_created hlive

theorem timely_step : LiveStep Drive.contract created.2 timely.1 timely.2 :=
  live_after_creation rfl (by decide) (by decide) (by decide)

theorem given_step : LiveStep Drive.contract created.2 given.1 given.2 :=
  live_after_creation rfl (by decide) (by decide) (by decide)

end Lapse

/-- A creation, and a donation that comes while the instance entry has the threshold left. -/
theorem lifetimes_iff_lapse :
    Lapse.timely.1.returned = true ∧
      Runs (fun b l b' => LiveStep Drive.contract b l b' ∧ Renewed b l b') Lapse.deployed
        [Lapse.created.1, Lapse.timely.1] Lapse.timely.2 := by
  refine ⟨by decide +kernel, (lifetimes_iff Lapse.genesis).mpr ?_⟩
  refine .tail (Runs.single ⟨Lapse.created_step, fun t hl _ hd => ?_⟩)
    ⟨Lapse.timely_step, fun _ _ _ _ => by decide +kernel⟩
  -- the first call creates a campaign
  cases hl
  cases hd

/-- Nothing has expired, and after the donation the instance entry has fewer than the threshold
left. -/
theorem donation_lets_instance_lapse :
    Genesis Lapse.deployed ∧
      Runs (LiveStep Drive.contract) Lapse.deployed [Lapse.created.1, Lapse.given.1]
        Lapse.given.2 ∧
      (∃ t v, Lapse.given.1 = .tx t ∧ t.outcome = .ok v ∧ DataKey.admin ∈ t.call.relies v) ∧
      ¬ Lasts Lapse.given.2.store.liveUntil TTL_THRESHOLD Lapse.given.2.seq .admin := by
  refine ⟨Lapse.genesis, .tail (Runs.single Lapse.created_step) Lapse.given_step, ?_, ?_⟩
  · have hok := Exec.eq_ok_of_fst (x := dispatch Tokens.standard
      { Drive.ctx with timestamp := 1500, sequence := 10000 } (.donate Drive.alice 1 60 ⟨[]⟩))
      (s := Lapse.created.2.start) (a := .count 1) (by decide +kernel)
    exact ⟨_, .count 1, congrArg Prod.fst (Chain.exec_of_ok hok), rfl,
      by simp [Invocation.relies]⟩
  · rintro ⟨u, hu, hle⟩
    cases hu
    exact absurd hle (by decide +kernel)

end Stellariq.Donations
