import IeltsHub.OrgRoster
import IeltsHub.SpeakingMatching

set_option autoImplicit false

/-!
# Speaking slots and the live queue

`app/api/routers/speaking.py` with the consents, blocks, bans and closures beside it. A request is
one transaction; it is refused or it leads to the next state of the tables.
-/
namespace IeltsHub.SpeakingPools
open PyTime PlatformRefusals RowTable OrgRoster

def dayMicroseconds : ℤ := 86400000000

def dayOf (now : Time) : ℤ := now / dayMicroseconds

structure Account where
  id : ℕ
  xid : String
  adultAt : ℤ
  status : UserStatus := .active
  deletedAt : Option Time := none
  deriving DecidableEq

def Account.isMinor (u : Account) (now : Time) : Bool := dayOf now < u.adultAt

inductive ConsentKind where
  | terms | privacy | parental | strangerMatching | marketing
  deriving DecidableEq

def ConsentKind.value : ConsentKind → String
  | .terms => "terms"
  | .privacy => "privacy"
  | .parental => "parental"
  | .strangerMatching => "stranger_matching"
  | .marketing => "marketing"

inductive Grantor where
  | self | parent | centreAdmin
  deriving DecidableEq

structure Consent where
  id : ℕ
  userId : ℕ
  kind : ConsentKind
  docVersion : String
  docHash : String
  grantedByKind : Grantor
  parentName : Option String
  parentPhone : Option String
  channel : String
  grantedAt : Time
  revokedAt : Option Time := none
  deriving DecidableEq

inductive SlotStatus where
  | scheduled | booking | matching | live | closed | cancelled
  deriving DecidableEq

inductive Audience where
  | public_ | org | cohort
  deriving DecidableEq

inductive AgeBand where
  | minor | adult | mixedSupervised
  deriving DecidableEq

structure Slot where
  id : ℕ
  xid : String
  orgId : Option ℕ
  startsAt : Time
  capacity : ℕ := 20
  status : SlotStatus := .scheduled
  audience : Audience := .public_
  cohortId : Option ℕ := none
  bandMin : Option ℚ := none
  bandMax : Option ℚ := none
  language : String := "en"
  ageBand : AgeBand := .adult
  createdBy : ℕ
  deriving DecidableEq

structure Booking where
  slotId : ℕ
  userId : ℕ
  cancelledAt : Option Time := none
  checkedInAt : Option Time := none
  noShow : Bool := false
  selfBand : Option ℚ := none
  pairId : Option ℕ := none
  deriving DecidableEq

/-- `UNIQUE (slot_id, user_id)`. -/
def Booking.key (b : Booking) : ℕ × ℕ := (b.slotId, b.userId)

inductive QueueStatus where
  | waiting | matched | expired | cancelled
  deriving DecidableEq

structure QueueEntry where
  id : ℕ
  userId : ℕ
  joinedAt : Time
  leftAt : Option Time := none
  matchedPairId : Option ℕ := none
  bandMin : Option ℚ
  bandMax : Option ℚ
  language : String := "en"
  ageBand : AgeBand
  orgOnly : Bool := false
  orgId : Option ℕ
  status : QueueStatus := .waiting
  deriving DecidableEq

inductive Origin where
  | slotBatch | liveQueue
  deriving DecidableEq

structure SpeakingPair where
  id : ℕ
  slotId : Option ℕ
  origin : Origin
  userA : ℕ
  userB : ℕ
  ageBand : AgeBand
  matchedAt : Time
  deriving DecidableEq

/-- `memberships` are the active ones; `members` are the classes nobody has left; `bands` is what
`levels.current_bands` finds. -/
structure Surroundings where
  memberships : List (ℕ × ℕ × OrgRole) := []
  platformAdmins : List ℕ := []
  cohorts : List (ℕ × String × ℕ) := []
  members : List (ℕ × ℕ) := []
  bands : ℕ → Option ℚ := fun _ => none

structure Pools where
  users : Table Account ℕ Account.id := .empty
  around : Surroundings := {}
  blocks : List (ℕ × ℕ) := []
  consents : Table Consent ℕ Consent.id := .empty
  slots : Table Slot ℕ Slot.id := .empty
  bookings : Table Booking (ℕ × ℕ) Booking.key := .empty
  queue : Table QueueEntry ℕ QueueEntry.id := .empty
  pairs : Table SpeakingPair ℕ SpeakingPair.id := .empty

/-! ## The acting user -/

structure Actor where
  userId : ℕ
  isMinor : Bool
  orgIds : List ℕ
  roles : List (ℕ × OrgRole)
  isPlatformAdmin : Bool

def accountInactive : Refusal := .forbidden "This account is not active." "account_inactive"

def principal (d : Pools) (userId : ℕ) (now : Time) : Except Refusal Actor :=
  match (d.users.get? userId).filter (fun u => u.status = .active) with
  | none => .error accountInactive
  | some u =>
    let mine := d.around.memberships.filter (fun m => m.1 = userId)
    .ok
      { userId, isMinor := u.isMinor now, orgIds := mine.map (fun m => m.2.1)
        roles := mine.map Prod.snd, isPlatformAdmin := userId ∈ d.around.platformAdmins }

def Actor.teaches (a : Actor) (orgId : ℕ) : Bool :=
  a.roles.any (fun r => r.1 = orgId ∧ r.2 ≠ .student)

def ageBand (a : Actor) : AgeBand := if a.isMinor then .minor else .adult

def permittedBands (a : Actor) : List AgeBand :=
  if a.isMinor then [.minor, .mixedSupervised] else [.adult, .mixedSupervised]

/-! ## Slots -/

structure SlotCreate where
  startsAt : Time
  capacity : ℕ := 20
  audience : Audience := .public_
  cohortXid : Option String := none
  ageBand : Option AgeBand := none
  bandMin : Option ℚ := none
  bandMax : Option ℚ := none

def notATeacher : Refusal :=
  .forbidden "Only a teacher or centre admin can open a speaking slot." "not_a_teacher"

def mixedRequiresCohort : Refusal :=
  conflict "A mixed-age session must be a cohort slot with a supervising teacher."
    "mixed_requires_cohort"

def invalidBandRange : Refusal :=
  conflict "A slot's band range must run from low to high." "invalid_band_range"

def slotCohort (d : Pools) (a : Actor) (orgId : Option ℕ) :
    Option String → Except Refusal (Option ℕ × Option ℕ)
  | none => .ok (none, orgId)
  | some xid =>
    match d.around.cohorts.find? (fun c => c.2.1 = xid) with
    | none => .error (notFound "Cohort not found.")
    | some (id, _, org) =>
      if a.isPlatformAdmin ∨ a.teaches org then .ok (some id, some org)
      else .error (notFound "Cohort not found.")

def createSlot (d : Pools) (a : Actor) (body : SlotCreate) (xid : String) : Except Refusal Pools := do
  let orgId := (a.roles.find? (fun r => r.2 ≠ .student)).map Prod.fst
  if orgId = none ∧ ¬ a.isPlatformAdmin then throw notATeacher
  let band := body.ageBand.getD (ageBand a)
  if band = .mixedSupervised ∧ body.audience ≠ .cohort then throw mixedRequiresCohort
  match body.bandMin, body.bandMax with
  | some low, some high => if high < low then throw invalidBandRange
  | _, _ => pure ()
  let (cohortId, orgId) ← slotCohort d a orgId body.cohortXid
  return { d with
    slots := d.slots.put
      { id := d.slots.nextId, xid, orgId, startsAt := body.startsAt, capacity := body.capacity
        status := .booking, audience := body.audience, cohortId, bandMin := body.bandMin
        bandMax := body.bandMax, ageBand := band, createdBy := a.userId } }

def slotByXid (d : Pools) (xid : String) : Except Refusal Slot :=
  match d.slots.rows.find? (fun s => s.xid = xid) with
  | none => .error (notFound "Speaking slot not found.")
  | some slot => .ok slot

/-! ## Booking -/

def ageBandMismatch : Refusal :=
  .forbidden ("This session is for a different age group. Minors and adults are " ++
    "never paired for speaking practice.") "age_band_mismatch"

def parentalConsentRequired : Refusal :=
  .forbidden ("A parent or guardian has to agree before you can practise " ++
    "with someone outside your centre. Ask them to complete the " ++
    "consent, then try again.") "parental_consent_required"

def notInCohort : Refusal :=
  .forbidden "This supervised session is for its cohort only." "not_in_cohort"

/-- `f"{x:g}"` of a band, which has one decimal. -/
def bandText (x : ℚ) : String :=
  let tenths := (x * 10).floor
  if tenths % 10 = 0 then toString (tenths / 10)
  else toString (tenths / 10) ++ "." ++ toString (tenths % 10)

def rangeLabel (slot : Slot) : String :=
  match slot.bandMin, slot.bandMax with
  | some low, some high => bandText low ++ "-" ++ bandText high
  | some low, none => bandText low ++ " and above"
  | none, some high => bandText high ++ " and below"
  | none, none => ""

def bandRangeMismatch (slot : Slot) : Refusal :=
  .forbidden (s!"This session is for band {rangeLabel slot}. Your profile says " ++
    "you are working towards a different level.") "band_range_mismatch"

def slotClosed : Refusal := conflict "This slot is no longer open for booking." "slot_closed"

def slotFull : Refusal := conflict "This slot is full." "slot_full"

def liveConsents (d : Pools) (userId : ℕ) : List Consent :=
  d.consents.select (fun c => c.userId = userId ∧ c.kind = .strangerMatching ∧
    c.grantedByKind = .parent ∧ c.revokedAt = none)

def bandFits (slot : Slot) (band : Option ℚ) : Bool :=
  match band with
  | none => true
  | some band => slot.bandMin.all (fun low => low ≤ band) && slot.bandMax.all (fun high => band ≤ high)

def inClass (d : Pools) (slot : Slot) (userId : ℕ) : Bool :=
  d.around.members.any (fun m => slot.cohortId = some m.1 ∧ m.2 = userId)

def taken (d : Pools) (slot : Slot) : ℕ :=
  (d.bookings.select (fun b => b.slotId = slot.id ∧ b.cancelledAt = none)).length

def booked (d : Pools) (slot : Slot) (userId : ℕ) : Booking :=
  match d.bookings.get? (slot.id, userId) with
  | some b => { b with cancelledAt := none }
  | none => { slotId := slot.id, userId, selfBand := d.around.bands userId }

def bookSlot (d : Pools) (a : Actor) (xid : String) : Except Refusal Pools := do
  let slot ← slotByXid d xid
  if slot.ageBand ∉ permittedBands a then throw ageBandMismatch
  if a.isMinor ∧ slot.audience = .public_ ∧ (liveConsents d a.userId).length = 0 then
    throw parentalConsentRequired
  if slot.ageBand = .mixedSupervised ∧ ¬ inClass d slot a.userId ∧ slot.createdBy ≠ a.userId then
    throw notInCohort
  if ¬ bandFits slot (d.around.bands a.userId) then throw (bandRangeMismatch slot)
  if slot.status ≠ .scheduled ∧ slot.status ≠ .booking then throw slotClosed
  if slot.capacity ≤ taken d slot then throw slotFull
  return { d with bookings := d.bookings.put (booked d slot a.userId) }

def cancelBooking (d : Pools) (a : Actor) (xid : String) (now : Time) : Except Refusal Pools := do
  let slot ← slotByXid d xid
  return { d with
    bookings := d.bookings.mapRows
      (fun b =>
        if b.slotId = slot.id ∧ b.userId = a.userId ∧ b.cancelledAt = none then
          { b with cancelledAt := some now }
        else b)
      (fun b => by split <;> rfl) }

def checkinNotOpen : Refusal :=
  .tooEarly "Check-in opens ten minutes before the session." "checkin_not_open"

def noBooking : Refusal := notFound "You have no booking for this slot."

def checkIn (d : Pools) (a : Actor) (xid : String) (now : Time) : Except Refusal Pools := do
  let slot ← slotByXid d xid
  if now < slot.startsAt - seconds 600 then throw checkinNotOpen
  match (d.bookings.get? (slot.id, a.userId)).filter (fun b => b.cancelledAt = none) with
  | none => throw noBooking
  | some b => return { d with bookings := d.bookings.put { b with checkedInAt := b.checkedInAt <|> some now } }

/-! ## The live queue -/

structure QueueJoin where
  bandMin : Option ℚ := none
  bandMax : Option ℚ := none
  language : String := "en"
  orgOnly : Bool := false

def noOrganization : Refusal :=
  conflict ("You are not a member of any centre, so there is no centre " ++
    "to match within.") "no_organization"

def leave (d : Pools) (userId : ℕ) (now : Time) : Pools :=
  { d with
    queue := d.queue.mapRows
      (fun q =>
        if q.userId = userId ∧ q.status = .waiting then
          { q with status := .cancelled, leftAt := some now }
        else q)
      (fun q => by split <;> rfl) }

def joinQueue (d : Pools) (a : Actor) (body : QueueJoin) (now : Time) : Except Refusal Pools := do
  if body.orgOnly ∧ a.orgIds = [] then throw noOrganization
  let d := leave d a.userId now
  return { d with
    queue := d.queue.put
      { id := d.queue.nextId, userId := a.userId, joinedAt := now, bandMin := body.bandMin
        bandMax := body.bandMax, language := body.language, ageBand := ageBand a
        orgOnly := body.orgOnly, orgId := a.orgIds.head? } }

/-! ## Consents, blocks and bans -/

structure ConsentCreate where
  kind : ConsentKind
  docVersion : String
  grantedByKind : Grantor := .self
  parentName : Option String := none
  parentPhone : Option String := none
  channel : String := "web"

def consentNeedsParent : Refusal :=
  .forbidden "Stranger matching for a minor requires parental consent with contact details."
    "parental_consent_required"

def recordConsent (d : Pools) (a : Actor) (body : ConsentCreate) (now : Time) :
    Except Refusal Pools := do
  if body.kind = .strangerMatching ∧ a.isMinor then
    if body.grantedByKind ≠ .parent ∨ body.parentPhone.getD "" = "" then throw consentNeedsParent
  return { d with
    consents := d.consents.put
      { id := d.consents.nextId, userId := a.userId, kind := body.kind
        docVersion := body.docVersion, docHash := Sha256.ofText body.docVersion
        grantedByKind := body.grantedByKind, parentName := body.parentName
        parentPhone := body.parentPhone, channel := body.channel, grantedAt := now } }

def noActiveConsent : Refusal := notFound "There is no active consent of that kind to withdraw."

def lastConsent (d : Pools) (userId : ℕ) (kind : String) : Option Consent :=
  (d.consents.select (fun c => c.userId = userId ∧ c.kind.value = kind ∧ c.revokedAt = none)).foldl
    (fun last c => match last with
      | none => some c
      | some l => if l.grantedAt < c.grantedAt then some c else some l) none

def revokeConsent (d : Pools) (a : Actor) (kind : String) (now : Time) : Except Refusal Pools :=
  match lastConsent d a.userId kind with
  | none => .error noActiveConsent
  | some row =>
    .ok { d with
      consents := d.consents.mapRows
        (fun c => if c.id = row.id then { c with revokedAt := some now } else c)
        (fun c => by split <;> rfl) }

def userNotFound : Refusal := notFound "User not found."

def selfBlock : Refusal := conflict "You cannot block yourself." "self_block"

def accountByXid (d : Pools) (xid : String) : Option Account :=
  d.users.rows.find? (fun u => u.xid = xid)

def createBlock (d : Pools) (a : Actor) (xid : String) : Except Refusal Pools :=
  match accountByXid d xid with
  | none => .error userNotFound
  | some target =>
    if target.id = a.userId then .error selfBlock
    else if (a.userId, target.id) ∈ d.blocks then .ok d
    else .ok { d with blocks := d.blocks ++ [(a.userId, target.id)] }

def removeBlock (d : Pools) (a : Actor) (xid : String) : Except Refusal Pools :=
  .ok { d with
    blocks := d.blocks.filter (fun b =>
      b.1 ≠ a.userId ∨ some b.2 ≠ (accountByXid d xid).map Account.id) }

def adminOnly : Refusal := .forbidden "Platform admin only." "admin_only"

def withAccount (d : Pools) (id : ℕ) (f : Account → Account) (hf : ∀ u, (f u).id = u.id) : Pools :=
  { d with
    users := d.users.mapRows (fun u => if u.id = id then f u else u)
      (fun u => by split <;> simp [hf]) }

/-- `take_moderation_action` for `suspend` and `ban`. -/
def suspend (d : Pools) (a : Actor) (xid : String) : Except Refusal Pools :=
  if ¬ a.isPlatformAdmin then .error adminOnly
  else
    match accountByXid d xid with
    | none => .error userNotFound
    | some target => .ok (withAccount d target.id (fun u => { u with status := .suspended }) (fun _ => rfl))

def noOpenAccount : Refusal := notFound "No open account with that id."

def closeAccount (d : Pools) (a : Actor) (xid : String) (now : Time) : Except Refusal Pools :=
  if ¬ a.isPlatformAdmin then .error adminOnly
  else
    match (accountByXid d xid).filter (fun u => u.deletedAt = none) with
    | none => .error noOpenAccount
    | some target =>
      let d := { d with
        around := { d.around with
          memberships := d.around.memberships.filter (fun m => m.1 ≠ target.id)
          members := d.around.members.filter (fun m => m.2 ≠ target.id) } }
      .ok (withAccount d target.id (fun u => { u with status := .deleted, deletedAt := some now })
        (fun _ => rfl))

end IeltsHub.SpeakingPools
