/-
# The donations contract, as the contract computes it

`contracts/donations/src/lib.rs`, function by function and in source order.  A `+` of the source
that is not a `checked_add` traps when it overflows (the release profile keeps overflow checks),
and `get_campaign` is a reader that also renews the lifetime of what it read.
-/
import Stellariq.Kit.Host

namespace Stellariq.Donations

open Kit

/-! ## 1. Records, errors, events -/

def EVENT_SCHEMA_VERSION : Nat := 1
def MAX_TITLE_LEN : Nat := 80
def MAX_TEXT_LEN : Nat := 280

inductive DonationError where
  | alreadyInitialized
  | notInitialized
  | unauthorized
  | paused
  | invalidAmount
  | invalidGoal
  | invalidDeadline
  | campaignNotFound
  | campaignClosed
  | campaignExpired
  | textTooLong
  | receiptNotFound
  | selfDonation
deriving DecidableEq, Repr

structure Campaign where
  id : Nat
  creator : Address
  beneficiary : Address
  token : Address
  title : Text
  description : Text
  goal : Int
  deadline : Nat
  raised : Int
  donorCount : Nat
  donationCount : Nat
  /-- `open`, which is a keyword here -/
  isOpen : Bool
  createdAt : Nat
deriving DecidableEq, Repr

structure Receipt where
  id : Nat
  campaignId : Nat
  donor : Address
  amount : Int
  memo : Text
  timestamp : Nat
  ledger : Nat
deriving DecidableEq, Repr

inductive DonationEvent where
  | campaignCreated (campaignId : Nat) (creator beneficiary token : Address) (goal : Int)
      (deadline version : Nat)
  | donationMade (campaignId : Nat) (donor : Address) (receiptId : Nat) (amount raised : Int)
      (version : Nat)
  | campaignClosed (campaignId : Nat) (raised : Int) (version : Nat)
deriving DecidableEq, Repr

/-! ## 2. Storage -/

inductive DataKey where
  | admin
  | paused
  | campaignCount
  | receiptCount
  | campaign (id : Nat)
  | receipt (id : Nat)
  | donorTotal (campaignId : Nat) (donor : Address)
deriving DecidableEq, Repr

def TTL_THRESHOLD : Nat := 17280
def TTL_EXTEND : Nat := 518400

/-- The first four keys share the instance entry and its lifetime. -/
structure Store where
  admin : Option Address
  paused : Option Bool
  campaignCount : Option Nat
  receiptCount : Option Nat
  instanceUntil : Nat
  campaign : Nat → Option (Entry Campaign)
  receipt : Nat → Option (Entry Receipt)
  donorTotal : Nat → Address → Option (Entry Int)

/-- The storage before the constructor runs. -/
def Store.undeployed (instanceUntil : Nat) : Store :=
  { admin := none, paused := none, campaignCount := none, receiptCount := none, instanceUntil,
    campaign := fun _ => none, receipt := fun _ => none, donorTotal := fun _ _ => none }

namespace Store

def setCampaign (st : Store) (id : Nat) (e : Option (Entry Campaign)) : Store :=
  { st with campaign := Function.update st.campaign id e }

def setReceipt (st : Store) (id : Nat) (e : Option (Entry Receipt)) : Store :=
  { st with receipt := Function.update st.receipt id e }

def setDonorTotal (st : Store) (id : Nat) (donor : Address) (e : Option (Entry Int)) : Store :=
  { st with
    donorTotal := Function.update st.donorTotal id
      (Function.update (st.donorTotal id) donor e) }

end Store

abbrev Op : Type := HostOp DataKey DonationEvent Empty

abbrev State (σ : Type) : Type := Running Store DataKey DonationEvent Empty σ

/-- A call of the donations contract that returns an `α`. -/
abbrev Call (σ α : Type) : Type := Exec (State σ) DonationError α

variable {σ : Type}

/-- `extend_ttl(TTL_THRESHOLD, TTL_EXTEND)` on an entry. -/
def renew {α : Type} (c : Ctx) (e : Option (Entry α)) : Option (Entry α) :=
  e.map (Entry.extend c.sequence TTL_THRESHOLD TTL_EXTEND)

/-- The same on the instance entry. -/
def extendInstance (c : Ctx) : Call σ Unit :=
  touch fun st =>
    { st with instanceUntil := extendTtl c.sequence TTL_THRESHOLD TTL_EXTEND st.instanceUntil }

/-! ## 3. Internals -/

def admin : Call σ Address := do
  let stored ← Exec.gets fun s => s.store.admin
  Exec.okOr stored .notInitialized

def isPaused : Call σ Bool := Exec.gets fun s => s.store.paused.getD false

def ensureLive : Call σ Unit := do
  let _ ← admin
  let paused ← isPaused
  Exec.failIf (paused = true) .paused

def putCampaign (c : Ctx) (x : Campaign) : Call σ Unit := do
  write (.campaign x.id) fun st =>
    st.setCampaign x.id (some (Entry.put (st.campaign x.id) c.freshUntil x))
  touch fun st => st.setCampaign x.id (renew c (st.campaign x.id))

/-! ## 4. Lifecycle -/

/-- `__constructor` -/
def construct (c : Ctx) (admin : Address) : Call σ Unit := do
  write .admin fun st => { st with admin := some admin }
  write .paused fun st => { st with paused := some false }
  write .campaignCount fun st => { st with campaignCount := some 0 }
  write .receiptCount fun st => { st with receiptCount := some 0 }
  extendInstance c

def adminAddress : Call σ Address := admin

def setPaused (c : Ctx) (paused : Bool) : Call σ Unit := do
  let stored ← admin
  requireAuth c stored
  write .paused fun st => { st with paused := some paused }

/-! ## 5. Campaigns -/

def campaignCount : Call σ Nat := Exec.gets fun s => s.store.campaignCount.getD 0

def getCampaign (c : Ctx) (id : Nat) : Call σ Campaign := do
  let entry ← Exec.gets fun s => s.store.campaign id
  let e ← Exec.okOr entry .campaignNotFound
  touch fun st => st.setCampaign id (renew c (st.campaign id))
  pure e.val

def createCampaign (c : Ctx) (creator beneficiary token : Address) (title description : Text)
    (goal : Int) (deadline : Nat) : Call σ Nat := do
  ensureLive
  requireAuth c creator
  Exec.failIf (goal ≤ 0) .invalidGoal
  let now := c.timestamp
  Exec.failIf (deadline ≤ now) .invalidDeadline
  Exec.failIf (title.len = 0 ∨ MAX_TITLE_LEN < title.len ∨ MAX_TEXT_LEN < description.len)
    .textTooLong
  let count ← campaignCount
  let id ← Exec.orTrap (checkedU32 (count + 1))
  putCampaign c
    { id, creator, beneficiary, token, title, description, goal, deadline, raised := 0,
      donorCount := 0, donationCount := 0, isOpen := true, createdAt := now }
  write .campaignCount fun st => { st with campaignCount := some id }
  extendInstance c
  publish (.campaignCreated id creator beneficiary token goal deadline EVENT_SCHEMA_VERSION)
  pure id

/-- `caller != c.creator && caller != Self::admin(&env)?` in `close_campaign`: the admin is read
only for a caller that is not the creator. -/
def checkCloser (caller creator : Address) : Call σ Unit :=
  if caller = creator then pure ()
  else do
    let stored ← admin
    Exec.failIf (caller ≠ stored) .unauthorized

def closeCampaign (c : Ctx) (caller : Address) (id : Nat) : Call σ Unit := do
  requireAuth c caller
  let x ← getCampaign c id
  checkCloser caller x.creator
  Exec.failIf (x.isOpen = false) .campaignClosed
  putCampaign c { x with isOpen := false }
  publish (.campaignClosed id x.raised EVENT_SCHEMA_VERSION)

/-! ## 6. Donations -/

def receiptCount : Call σ Nat := Exec.gets fun s => s.store.receiptCount.getD 0

def donorTotal (campaignId : Nat) (donor : Address) : Call σ Int :=
  Exec.gets fun s => ((s.store.donorTotal campaignId donor).map Entry.val).getD 0

def getReceipt (id : Nat) : Call σ Receipt := do
  let entry ← Exec.gets fun s => (s.store.receipt id).map Entry.val
  Exec.okOr entry .receiptNotFound

/-- `if prev == 0 { c.donor_count += 1; }` in `donate`. -/
def countDonor (prev : Int) (donorCount : Nat) : Call σ Nat :=
  if prev = 0 then Exec.orTrap (checkedU32 (donorCount + 1)) else pure donorCount

/-- Store a donor's total, and renew its entry. -/
def putTotal (c : Ctx) (campaignId : Nat) (donor : Address) (total : Int) : Call σ Unit := do
  write (.donorTotal campaignId donor) fun st =>
    st.setDonorTotal campaignId donor
      (some (Entry.put (st.donorTotal campaignId donor) c.freshUntil total))
  touch fun st =>
    st.setDonorTotal campaignId donor (renew c (st.donorTotal campaignId donor))

/-- Store a receipt, and renew its entry. -/
def putReceipt (c : Ctx) (r : Receipt) : Call σ Unit := do
  write (.receipt r.id) fun st =>
    st.setReceipt r.id (some (Entry.put (st.receipt r.id) c.freshUntil r))
  touch fun st => st.setReceipt r.id (renew c (st.receipt r.id))

/-- `donate` up to the point where funds move: the campaign that accepts the donation. -/
def checkDonation (c : Ctx) (donor : Address) (campaignId : Nat) (amount : Int) (memo : Text) :
    Call σ Campaign := do
  ensureLive
  requireAuth c donor
  Exec.failIf (amount ≤ 0) .invalidAmount
  Exec.failIf (MAX_TEXT_LEN < memo.len) .textTooLong
  let x ← getCampaign c campaignId
  Exec.failIf (x.isOpen = false) .campaignClosed
  Exec.failIf (x.deadline < c.timestamp) .campaignExpired
  Exec.failIf (donor = x.beneficiary) .selfDonation
  pure x

/-- `donate` from there on: the totals, the receipt, the event. -/
def recordDonation (c : Ctx) (donor : Address) (campaignId : Nat) (amount : Int) (memo : Text)
    (x : Campaign) : Call σ Nat := do
  let prev ← donorTotal campaignId donor
  let donorCount ← countDonor prev x.donorCount
  let total ← Exec.orTrap (checkedI128 (prev + amount))
  putTotal c campaignId donor total
  let raised ← Exec.okOr (checkedI128 (x.raised + amount)) .invalidAmount
  let donationCount ← Exec.orTrap (checkedU32 (x.donationCount + 1))
  putCampaign c { x with donorCount, raised, donationCount }
  let count ← receiptCount
  let receiptId ← Exec.orTrap (checkedU64 (count + 1))
  putReceipt c
    { id := receiptId, campaignId, donor, amount, memo, timestamp := c.timestamp,
      ledger := c.sequence }
  write .receiptCount fun st => { st with receiptCount := some receiptId }
  publish (.donationMade campaignId donor receiptId amount raised EVENT_SCHEMA_VERSION)
  pure receiptId

def donate (T : Tokens σ) (c : Ctx) (donor : Address) (campaignId : Nat) (amount : Int)
    (memo : Text) : Call σ Nat := do
  let x ← checkDonation c donor campaignId amount memo
  transfer T c x.token donor x.beneficiary amount
  recordDonation c donor campaignId amount memo x

end Stellariq.Donations
