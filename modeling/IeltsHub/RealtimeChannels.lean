import IeltsHub.AuthzPolicy
import IeltsHub.PyUuid

set_option autoImplicit false

/-!
# Channel authorization

`app/modules/authz/channels.py`: what a channel's name means, which events it carries, and who may
read it. `Directory` is what the database says about the subjects channels name, by xid.
-/
namespace IeltsHub.RealtimeChannels
open PyDict PyUuid PlatformErrors AuthzPolicy

def unknownChannel : String := "unknown_channel"
def forbiddenChannel : String := "forbidden_channel"

/-- `_MAX_BIGINT`. -/
def maxBigint : ℕ := 2 ^ 63 - 1

structure Channel where
  family : String
  subject : String := ""
  deriving DecidableEq, Repr

/-- `str(channel)`. -/
def Channel.name (c : Channel) : String :=
  if c.subject = "" then c.family else c.family ++ ":" ++ c.subject

structure Subject where
  memberUserIds : List ℤ := []
  orgId : Option ℤ := none
  ownerUserId : Option ℤ := none
  ownerUserXid : Option String := none

structure Verdict where
  allowed : Bool
  code : String := ""
  reason : String := ""
  deriving DecidableEq, Repr

def allow (reason : String) : Verdict := { allowed := true, reason }

def deny (reason : String) : Verdict := ⟨false, forbiddenChannel, reason⟩

/-! ## The rules -/

def selfOnly (actor : Principal) (subject : Subject) : Verdict :=
  if subject.ownerUserXid = some actor.userXid then allow "self" else deny "not_self"

def partyToIt (actor : Principal) (subject : Subject) : Verdict :=
  if actor.userId ∈ subject.memberUserIds then allow "party"
  else if actor.isPlatformAdmin then allow "platform_admin"
  else deny "not_a_party"

def centreStaff (actor : Principal) (subject : Subject) : Except Raised Verdict := do
  if subject.ownerUserId = some actor.userId then return allow "assigner"
  let decision ← check actor .read { orgId := subject.orgId, visibility := "org_private" } Dict.empty
  if !decision.allowed then return deny "not_this_centre"
  let role ← roleOf actor subject.orgId
  if role ∈ [some .teacher, some .centreAdmin, some .platformAdmin] then
    return allow "centre_staff"
  return deny "not_centre_staff"

def staffOnly (actor : Principal) (_ : Subject) : Verdict :=
  if actor.isPlatformAdmin then allow "platform_admin" else deny "not_staff"

/-! ## Loading the subject -/

structure Booking where
  userId : ℤ
  cancelled : Bool

structure Directory where
  /-- `user_id` and `org_context_id`. -/
  attempts : String → Option (ℤ × Option ℤ) := fun _ => none
  pairs : String → Option (ℤ × ℤ) := fun _ => none
  /-- `org_id` and the bookings. -/
  slots : String → Option (Option ℤ × List Booking) := fun _ => none
  /-- `user_id` and `org_id`, by the entry's id. -/
  queue : ℕ → Option (ℤ × Option ℤ) := fun _ => none
  /-- `org_id` and the entrants. -/
  competitions : String → Option (Option ℤ × List ℤ) := fun _ => none
  /-- `org_id` and `assigned_by`. -/
  assignments : String → Option (Option ℤ × ℤ) := fun _ => none

def loadUser (_ : Directory) (channel : Channel) : Option Subject :=
  some { ownerUserXid := some channel.subject }

def loadAttempt (db : Directory) (channel : Channel) : Option Subject :=
  (db.attempts channel.subject).map (fun row =>
    { memberUserIds := [row.1], orgId := row.2, ownerUserId := some row.1 })

def loadPair (db : Directory) (channel : Channel) : Option Subject :=
  (db.pairs channel.subject).map (fun row => { memberUserIds := [row.1, row.2] })

def loadSlot (db : Directory) (channel : Channel) : Option Subject :=
  (db.slots channel.subject).map (fun row =>
    { memberUserIds := (row.2.filter (fun b => !b.cancelled)).map Booking.userId, orgId := row.1 })

def loadQueue (db : Directory) (channel : Channel) : Option Subject := do
  let entryId ← uuidOfText channel.subject
  if maxBigint < entryId then none
  else (db.queue entryId).map (fun row => { memberUserIds := [row.1], orgId := row.2 })

def loadCompetition (db : Directory) (channel : Channel) : Option Subject :=
  (db.competitions channel.subject).map (fun row => { memberUserIds := row.2, orgId := row.1 })

def loadAssignment (db : Directory) (channel : Channel) : Option Subject :=
  (db.assignments channel.subject).map (fun row => { orgId := row.1, ownerUserId := some row.2 })

/-! ## The matrix -/

structure Family where
  name : String
  events : List String
  load : Option (Directory → Channel → Option Subject)
  rule : Principal → Subject → Except Raised Verdict
  hasSubject : Bool := true

def always (rule : Principal → Subject → Verdict) (actor : Principal) (subject : Subject) :
    Except Raised Verdict := .ok (rule actor subject)

/-- `FAMILIES`. -/
def families : List Family := [
  { name := "user"
    events := ["notification", "session.revoked", "slot.matched", "queue.matched", "queue.expired"]
    load := some loadUser, rule := always selfOnly },
  { name := "queue"
    events := ["queue.position", "queue.matched", "queue.expired"]
    load := some loadQueue, rule := always partyToIt },
  { name := "slot"
    events := ["slot.opened", "slot.matching", "slot.cancelled"]
    load := some loadSlot, rule := always partyToIt },
  { name := "pair"
    events := ["pair.peer_joined", "pair.peer_left", "pair.ended",
      "signal.offer", "signal.answer", "signal.ice", "signal.bye"]
    load := some loadPair, rule := always partyToIt },
  { name := "competition"
    events := ["competition.state", "competition.key_released", "leaderboard.snapshot",
      "leaderboard.delta", "competition.finalized"]
    load := some loadCompetition, rule := always partyToIt },
  { name := "assignment", events := ["assignment.progress"]
    load := some loadAssignment, rule := centreStaff },
  { name := "attempt", events := ["attempt.clock", "attempt.force_submit"]
    load := some loadAttempt, rule := always partyToIt },
  { name := "safety", events := ["safety.report_filed", "safety.action_taken"]
    load := none, rule := always staffOnly, hasSubject := false }]

def familyNamed (name : String) : Option Family := families.find? (fun f => f.name == name)

/-- `name.partition(":")`, less the separator. -/
def partitionColon (name : String) : String × String :=
  let cs := name.toList
  (.ofList (cs.takeWhile (fun c => c ≠ ':')), .ofList ((cs.dropWhile (fun c => c ≠ ':')).drop 1))

def parse (name : String) : Option Channel :=
  if name = "" ∨ 128 < name.length then none
  else
    let (head, subject) := partitionColon name
    match familyNamed head with
    | none => none
    | some family =>
      if family.hasSubject then
        (uuidOfText subject).map (fun n => { family := head, subject := textOfUuid n })
      else if subject = "" then some { family := head } else none

def carries (family eventType : String) : Bool :=
  (familyNamed family).any (fun f => f.events.contains eventType)

def decideChannel (actor : Principal) (name : String) (db : Directory) :
    Except Raised (Option Channel × Verdict) :=
  match parse name with
  | none => .ok (none, ⟨false, unknownChannel, "unparseable"⟩)
  | some channel =>
    match familyNamed channel.family with
    | none => .error (.keyError channel.family)
    | some family =>
      match family.load with
      | none => (fun v => (some channel, v)) <$> family.rule actor {}
      | some load =>
        match load db channel with
        | none => .ok (some channel, deny "no_such_subject")
        | some subject => (fun v => (some channel, v)) <$> family.rule actor subject

def implicitChannels (actor : Principal) : List String :=
  ("user:" ++ actor.userXid) :: (if actor.isPlatformAdmin then ["safety"] else [])

end IeltsHub.RealtimeChannels
