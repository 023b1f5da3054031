import IeltsHub.CompetitionSchedule
import IeltsHub.ExamScoringInputs
import IeltsHub.PlatformRefusals
import IeltsHub.ReadCommitted
import IeltsHub.SpendTransactions

set_option autoImplicit false

/-!
# The requests of a contest

Registering for a contest and withdrawing from it, the lobby, the release of the payload key, and
the tick that moves the contest, each one statement after another in a transaction of its own. An
entry is charged to the entitlement that its registration was let through on, and remembers it.
-/
namespace IeltsHub.ContestRequests
open PyTime RowTable ContentModels BillingModels Entitlements CompetitionSchedule ReadCommitted
open PlatformRefusals ExamScoringInputs
open PlatformErrors (Raised)
open SpendTransactions (selects withConsumed)

inductive EntryStatus where
  | registered | prefetched | started | submitted | disqualified | withdrawn | noShow
  deriving DecidableEq, Repr

inductive Visibility where
  | everyone | org | invite
  deriving DecidableEq

/-- What the first release records: the current key of each question, and the band map. -/
structure KeyFreeze where
  keyVersions : List (ℕ × Option ℕ)
  bandMapVersionId : Option ℕ
  frozenAt : Time
  deriving DecidableEq

structure Contest where
  orgId : Option ℕ := none
  visibility : Visibility := .everyone
  testVersionId : ℕ
  lobbyOpensAt : Time
  startsAt : Time
  endsAt : Time
  registrationClosesAt : Option Time := none
  durationSeconds : ℤ
  maxParticipants : Option ℤ := none
  payloadKeyId : String := ""
  status : Status := .registration
  keyFreeze : Option KeyFreeze := none
  deriving DecidableEq

structure Entry where
  userId : ℕ
  status : EntryStatus := .registered
  registeredAt : Time
  attemptId : Option ℕ := none
  entitlementId : Option ℕ := none
  payloadFetchedAt : Option Time := none
  keyReleasedAt : Option Time := none
  deriving DecidableEq

structure ContestAttempt where
  id : ℕ
  userId : ℕ
  testVersionId : ℕ
  orgContextId : Option ℕ
  status : ExamModels.AttemptStatus
  startedAt : Time
  expiresAt : Time
  deriving DecidableEq

/-- One contest with what its requests read and write. `charged` and `refunded` count the units that
were committed, for the statements only. -/
structure Store where
  contest : Contest
  content : ContentStore := {}
  entries : Table Entry ℕ Entry.userId := .empty
  attempts : Table ContestAttempt ℕ ContestAttempt.id := .empty
  entitlements : Table Entitlement ℕ Entitlement.id := .empty
  seats : List Seat := []
  charged : List (ℕ × Entitlement) := []
  refunded : List (ℕ × Entitlement) := []

structure Actor where
  userId : ℕ
  orgIds : List ℕ := []
  isPlatformAdmin : Bool := false
  deriving DecidableEq

/-- The calls of the contest, and what others do to what it reads: an attempt is finished, content
is edited, entitlements are spent elsewhere, revoked and granted. -/
inductive Call where
  | register (actor : Actor)
  | withdraw (actor : Actor)
  | lobby (actor : Actor)
  | releaseKey (actor : Actor)
  | tick
  | finishAttempt (id : ℕ) (status : ExamModels.AttemptStatus)
  | author (content : ContentStore)
  | bill (id : ℕ) (consumed : ℤ) (revokedAt : Option Time)
  | grant (row : Entitlement)

inductive Answer where
  | registered (status : EntryStatus) (registeredAt : Time) (attemptId : Option ℕ)
  | noContent
  | payload (keyId : String) (startsAt serverNow fetchAfter : Time)
  | key (keyId : String) (attemptId : ℕ) (expiresAt : Option Time) (serverNow : Time)
  | moved (target : Option Status)
  | refused (e : Refusal)
  deriving DecidableEq

inductive Checking where
  | asking
  | askedUser (now : Time) (best : Reason)
  | askedSeats (now : Time) (best : Reason) (held : List ℕ)

/-- What a transaction has written: rows it holds the locks of, an attempt that has no id yet, a
balance as it was loaded and as it is to be. -/
structure Write where
  entries : List Entry := []
  attempt : Option ContestAttempt := none
  balance : Option (Entitlement × ℤ) := none
  contest : Option Contest := none
  charged : Option Entitlement := none
  refunded : Option Entitlement := none

inductive Phase where
  | waiting
  -- register
  | gate (c : Checking)
  | admitted
  | counting
  | placed
  | upserting (prior : Option EntryStatus)
  | upserted (prior : Option EntryStatus) (row : Entry)
  | charging (row : Entry) (c : Checking)
  | chosen (row : Entry) (id : ℕ)
  | spending (row : Entry) (loaded : Entitlement)
  -- withdraw
  | withdrawing
  | matched
  | released (row : Entry)
  | refunding (row : Entry) (loaded : Entitlement)
  -- lobby
  | lobbying (now : Time)
  | fetching (now : Time)
  -- release_key
  | begun (now : Time) (frozen : Bool)
  | entrant (now : Time) (frozen : Bool)
  | attempting (now : Time) (frozen : Bool) (attempt : ContestAttempt)
  | started (now : Time) (frozen : Bool) (attempt : ContestAttempt) (row : Entry)
  -- tick
  | ticking (now : Time)
  | entering (target : Status)
  | marking (target : Status) (userIds : List ℕ) (status : EntryStatus)
  | written (w : Write) (a : Answer)
  | done (a : Answer)

inductive Key where
  | contest
  | entry (userId : ℕ)
  | entitlement (id : ℕ)
  deriving DecidableEq

/-- A request, with the keys it has locked. -/
structure Request where
  call : Call
  phase : Phase := .waiting
  held : List Key := []

/-- `order` is the order a statement returns its rows in. -/
inductive Act where
  | read (now : Time)
  | readUser (now : Time) (order : List Entitlement)
  | readSeats
  | readOrgs (order : List Entitlement)
  | run (now : Time)
  | commit
  | fail (e : Raised)

abbrev Turn := Option (Move Store Key Request)

def goes (q : Request) (phase : Phase) (keys : List Key) : Turn :=
  some (.goes { q with phase, held := q.held ++ keys } keys)

def refuse (q : Request) (e : Refusal) : Turn :=
  some (.rollsBack { call := q.call, phase := .done (.refused e) })

/-! ## What a transaction writes -/

def Write.keys (w : Write) : List Key :=
  w.entries.map (fun x => .entry x.userId) ++
    w.balance.toList.map (fun b => .entitlement b.1.id) ++
    (if w.contest.isSome then [.contest] else [])

def writes (q : Request) (w : Write) (a : Answer) : Turn := goes q (.written w a) w.keys

def Write.landed (w : Write) (d : Store) : List Entry :=
  match w.attempt with
  | none => w.entries
  | some _ => w.entries.map (fun x => { x with attemptId := some d.attempts.nextId })

def landBalance (t : Table Entitlement ℕ Entitlement.id) :
    Option (Entitlement × ℤ) → Table Entitlement ℕ Entitlement.id
  | none => t
  | some (loaded, consumed) => t.mapRows
      (fun e => if e.id = loaded.id then
        withConsumed e (merged loaded.consumed consumed e.consumed) else e)
      (fun e => by split <;> rfl)

def landAttempt (t : Table ContestAttempt ℕ ContestAttempt.id) :
    Option ContestAttempt → Table ContestAttempt ℕ ContestAttempt.id
  | none => t
  | some x => t.put { x with id := t.nextId }

def Call.userId : Call → ℕ
  | .register a | .withdraw a | .lobby a | .releaseKey a => a.userId
  | _ => 0

def Write.land (w : Write) (userId : ℕ) (d : Store) : Store :=
  { d with
    contest := w.contest.getD d.contest
    entries := (w.landed d).foldl Table.put d.entries
    attempts := landAttempt d.attempts w.attempt
    entitlements := landBalance d.entitlements w.balance
    charged := w.charged.toList.map (fun e => (userId, e)) ++ d.charged
    refunded := w.refunded.toList.map (fun e => (userId, e)) ++ d.refunded }

/-! ## Shared reads -/

def Contest.timing (c : Contest) : Timing where
  status := c.status
  lobbyOpensAt := c.lobbyOpensAt
  startsAt := c.startsAt
  endsAt := c.endsAt
  registrationClosesAt := c.registrationClosesAt

/-- `_row`, which hides a contest of a centre from those who are not of it and hold no entry. -/
def visible (d : Store) (actor : Actor) : Bool :=
  d.contest.visibility = .everyone ∨ d.contest.orgId.any (fun o => o ∈ actor.orgIds) ∨
    actor.isPlatformAdmin ∨ (d.entries.get? actor.userId).isSome

def competitionNotFound : Refusal := notFound "Competition not found."

def feature : String := "competition.entry"

def Reason.value : Reason → String
  | .granted => "granted"
  | .no_entitlement => "no_entitlement"
  | .expired => "expired"
  | .not_started => "not_started"
  | .revoked => "revoked"
  | .exhausted => "exhausted"
  | .no_seat => "no_seat"

def paymentRequired (reason : Reason) : Refusal :=
  .paymentRequired s!"No active entitlement for '{feature}'." (Reason.value reason)

/-- The statements of `Entitlements.check`, one at a time. -/
def checkStep (d : Store) (actor : Actor) : Checking → Act → Option (Checking ⊕ Decision)
  | .asking, .readUser now order =>
    if order.isPerm (d.entitlements.select (selects .user [actor.userId] feature)) then
      let direct := checkUser now order
      if direct.allowed ∨ actor.orgIds = [] then some (.inr direct)
      else some (.inl (.askedUser now direct.reason))
    else none
  | .askedUser now best, .readSeats =>
    some (.inl (.askedSeats now best
      (heldSeats (d.seats.filter (fun s => s.userId = actor.userId)))))
  | .askedSeats now best held, .readOrgs order =>
    if order.isPerm (d.entitlements.select (selects .org actor.orgIds feature)) then
      some (.inr (checkOrgs now held best order))
    else none
  | _, _ => none

/-! ## register -/

def registrationClosed : Refusal :=
  conflict "Registration for this competition has closed." "registration_closed"

def competitionFull : Refusal := conflict "This competition is full." "competition_full"

def active (status : Option EntryStatus) : Bool := status ≠ none ∧ status ≠ some .withdrawn

def statusOf (d : Store) (userId : ℕ) : Option EntryStatus :=
  (d.entries.get? userId).map Entry.status

def upsert (d : Store) (userId : ℕ) (now : Time) : Entry :=
  match d.entries.get? userId with
  | none => { userId, registeredAt := now }
  | some row => if row.status = .withdrawn then { row with status := .registered } else row

def taken (d : Store) : ℕ := (d.entries.select (fun x => x.status ≠ .withdrawn)).length

def Contest.cap (c : Contest) : Option ℤ := c.maxParticipants.filter (fun n => n ≠ 0)

def registeredAnswer (row : Entry) : Answer := .registered row.status row.registeredAt row.attemptId

def register (d : Store) (q : Request) (actor : Actor) (act : Act) : Turn :=
  match q.phase, act with
  | .waiting, .read now =>
    if !visible d actor then refuse q competitionNotFound
    else if !registrationOpen d.contest.timing now then refuse q registrationClosed
    else goes q (.gate .asking) []
  | .gate c, act =>
    match checkStep d actor c act with
    | none => none
    | some (.inl c) => goes q (.gate c) []
    | some (.inr decision) =>
      if decision.allowed then goes q .admitted [] else refuse q (paymentRequired decision.reason)
  | .admitted, .run _ =>
    match d.contest.cap with
    | none => goes q .placed []
    | some _ => goes q .counting [.contest]
  | .counting, .run _ =>
    if d.contest.cap.any (fun cap => (taken d : ℤ) ≥ cap) then refuse q competitionFull
    else goes q .placed []
  | .placed, .run _ => goes q (.upserting (statusOf d actor.userId)) []
  | .upserting prior, .run now =>
    goes q (.upserted prior (upsert d actor.userId now)) [.entry actor.userId]
  | .upserted prior row, .run _ =>
    if active prior then writes q { entries := [row] } (registeredAnswer row)
    else goes q (.charging row .asking) []
  | .charging row c, act =>
    match checkStep d actor c act with
    | none => none
    | some (.inl c) => goes q (.charging row c) []
    | some (.inr decision) =>
      match decision.entitlement with
      | none => refuse q (paymentRequired decision.reason)
      | some e =>
        match Entitlements.spending e 1 with
        | .unlimited =>
          let row := { row with entitlementId := some e.id }
          writes q { entries := [row] } (registeredAnswer row)
        | .short => refuse q (paymentRequired .exhausted)
        | .spend => goes q (.chosen row e.id) []
  | .chosen row id, .run _ =>
    match d.entitlements.get? id with
    | none => refuse q (.raised .attributeError)
    | some e => goes q (.spending row e) []
  | .spending row e, .run _ =>
    let row := { row with entitlementId := some e.id }
    writes q { entries := [row], balance := some (e, consumeRow e 1), charged := some e }
      (registeredAnswer row)
  | _, _ => none

/-! ## withdraw -/

def competitionStarted : Refusal :=
  conflict "You cannot withdraw once the contest has started." "competition_started"

def release (d : Store) (userId : ℕ) : Option Entry :=
  (d.entries.get? userId).filter (fun row => row.status = .registered)

def withdraw (d : Store) (q : Request) (actor : Actor) (act : Act) : Turn :=
  match q.phase, act with
  | .waiting, .read _ =>
    if !visible d actor then refuse q competitionNotFound
    else if d.contest.status.begun then refuse q competitionStarted
    else goes q .withdrawing []
  | .withdrawing, .run _ =>
    if statusOf d actor.userId = some .registered then goes q .matched []
    else writes q {} .noContent
  | .matched, .run _ =>
    match release d actor.userId with
    | none => writes q {} .noContent
    | some row =>
      let row := { row with status := .withdrawn }
      match row.entitlementId with
      | none => writes q { entries := [row] } .noContent
      | some _ => goes q (.released row) [.entry actor.userId]
  | .released row, .run _ =>
    match row.entitlementId.bind d.entitlements.get? with
    | none => refuse q (.raised .attributeError)
    | some e => goes q (.refunding row e) []
  | .refunding row e, .run _ =>
    let consumed := refundRow e 1
    writes q { entries := [row], refunded := some e
               balance := if consumed = e.consumed then none else some (e, consumed) } .noContent
  | _, _ => none

/-! ## The synchronized start -/

def lobbyNotOpen : Refusal := .tooEarly "The lobby has not opened yet." "lobby_not_open"

def notRegistered : Refusal :=
  .forbidden "You are not registered for this competition." "not_registered"

def payloadMissing : Refusal :=
  conflict "This competition's test has no published payload." "payload_missing"

def entryOf (d : Store) (userId : ℕ) : Option Entry :=
  (d.entries.get? userId).filter (fun row => row.status ≠ .withdrawn)

def fetched (row : Entry) (now : Time) : Entry :=
  { row with
    payloadFetchedAt := some (row.payloadFetchedAt.getD now)
    status := if row.status = .registered then .prefetched else row.status }

def window (c : Contest) : ℤ := max 1 (truncate (totalSeconds (c.startsAt - c.lobbyOpensAt)) - 10)

/-- `jitter` is the digest of the contest and the user, before it is reduced. -/
def lobby (jitter : ℕ → ℤ) (d : Store) (q : Request) (actor : Actor) (act : Act) : Turn :=
  match q.phase, act with
  | .waiting, .read now =>
    if !visible d actor then refuse q competitionNotFound
    else if now < d.contest.lobbyOpensAt then refuse q lobbyNotOpen
    else goes q (.lobbying now) []
  | .lobbying now, .run _ =>
    match entryOf d actor.userId with
    | none => refuse q notRegistered
    | some _ =>
      match (d.content.testVersions.get? d.contest.testVersionId).bind TestVersion.snapshot with
      | none => refuse q payloadMissing
      | some _ => goes q (.fetching now) []
  | .fetching now, .run at' =>
    match d.entries.get? actor.userId with
    | none => refuse q notRegistered
    | some row =>
      writes q { entries := [fetched row at'] } (.payload d.contest.payloadKeyId d.contest.startsAt now
        (d.contest.lobbyOpensAt + seconds (jitter actor.userId % window d.contest)))
  | _, _ => none

def notStarted : Refusal := .tooEarly "The contest has not started yet." "not_started"

def competitionFinished : Refusal := conflict "This contest has finished." "competition_finished"

def disqualified : Refusal := .forbidden "Your entry has been disqualified." "disqualified"

def contestAttempt (c : Contest) (userId : ℕ) : ContestAttempt where
  id := 0
  userId := userId
  testVersionId := c.testVersionId
  orgContextId := c.orgId
  status := .inProgress
  startedAt := c.startsAt
  expiresAt := min (c.startsAt + seconds c.durationSeconds) c.endsAt

def frozen (content : ContentStore) (testVersionId : ℕ) (now : Time) : KeyFreeze where
  keyVersions := (placed content testVersionId).map (fun p =>
    (p.questionVersion.id, ((content.answerKeys.select (fun k =>
      k.questionVersionId = p.questionVersion.id && k.isCurrent)).head?).map AnswerKeyVersion.id))
  bandMapVersionId := (content.testVersions.get? testVersionId).bind TestVersion.bandMapVersionId
  frozenAt := now

/-- `_freeze_keys` once it holds the contest's row. -/
def freezeKeys (d : Store) (now : Time) : Option Contest :=
  if d.contest.keyFreeze = none then
    some { d.contest with
      keyFreeze := some (frozen d.content d.contest.testVersionId now), status := .live }
  else none

def keyAnswer (d : Store) (id : ℕ) (expiresAt : Option Time) (now : Time) : Answer :=
  .key d.contest.payloadKeyId id expiresAt now

def releaseKey (d : Store) (q : Request) (actor : Actor) (act : Act) : Turn :=
  match q.phase, act with
  | .waiting, .read now =>
    if !visible d actor then refuse q competitionNotFound
    else if now < d.contest.startsAt then refuse q notStarted
    else if now > d.contest.endsAt then refuse q competitionFinished
    else goes q (.begun now d.contest.keyFreeze.isSome) []
  | .begun now isFrozen, .run _ =>
    match entryOf d actor.userId with
    | none => refuse q notRegistered
    | some row =>
      if row.status = .disqualified then refuse q disqualified
      else
        match row.attemptId with
        | none => goes q (.entrant now isFrozen) []
        | some id =>
          match d.attempts.get? id with
          | none => refuse q (.raised .attributeError)
          | some x => writes q {} (keyAnswer d x.id (some x.expiresAt) now)
  | .entrant now isFrozen, .run _ =>
    match d.content.testVersions.get? d.contest.testVersionId with
    | none => refuse q (notFound "Test version not found.")
    | some tv =>
      if tv.status ≠ .published then
        refuse q (conflict "Only a published test version can be sat." "test_version_not_published")
      else goes q (.attempting now isFrozen (contestAttempt d.contest actor.userId)) []
  | .attempting now isFrozen attempt, .run at' =>
    match d.entries.get? actor.userId with
    | none => refuse q notRegistered
    | some row =>
      goes q (.started now isFrozen attempt
        { row with status := .started, keyReleasedAt := some (row.keyReleasedAt.getD at') })
        [.entry actor.userId]
  | .started now isFrozen attempt row, .run at' =>
    writes q
      { entries := [row], attempt := some attempt
        contest := if isFrozen then none else freezeKeys d at' }
      (keyAnswer d d.attempts.nextId (some attempt.expiresAt) now)
  | _, _ => none

/-! ## The tick -/

def pending (d : Store) : ℕ :=
  (d.entries.select (fun x => x.status = .started ∧
    (x.attemptId.bind d.attempts.get?).any (fun a => a.status ≠ .scored))).length

def onEnter (d : Store) : Status → Option (List Entry × EntryStatus)
  | .live => some (d.entries.select (fun x => x.status = .registered), .noShow)
  | .grading => some (d.entries.select (fun x => x.status = .started ∧
      (x.attemptId.bind d.attempts.get?).any (fun a => a.status = .submitted ∨ a.status = .scored)),
      .submitted)
  | _ => none

def marked (d : Store) (target : Status) (userIds : List ℕ) (status : EntryStatus) : List Entry :=
  match onEnter d target with
  | none => []
  | some (rows, _) => (rows.filter (fun x => x.userId ∈ userIds)).map (fun x => { x with status })

def movedTo (d : Store) (target : Status) : Option Contest :=
  some { d.contest with status := target }

/-- The pass of `tick` over the contest's row, which it locks or skips. -/
def tick (d : Store) (q : Request) (act : Act) : Turn :=
  match q.phase, act with
  | .waiting, .read now =>
    if d.contest.status = .final ∨ d.contest.status = .cancelled then writes q {} (.moved none)
    else goes q (.ticking now) [.contest]
  | .ticking now, .run _ =>
    let entriesPending := if d.contest.status = .grading then pending d else 0
    match nextStatus d.contest.timing now entriesPending with
    | none => writes q {} (.moved none)
    | some target => goes q (.entering target) []
  | .entering target, .run _ =>
    match onEnter d target with
    | none => writes q { contest := movedTo d target } (.moved (some target))
    | some (rows, status) => goes q (.marking target (rows.map Entry.userId) status) []
  | .marking target userIds status, .run _ =>
    writes q { entries := marked d target userIds status, contest := movedTo d target }
      (.moved (some target))
  | _, _ => none

/-! ## The program -/

def withStatus (id : ℕ) (status : ExamModels.AttemptStatus) (x : ContestAttempt) : ContestAttempt :=
  if x.id = id then { x with status } else x

theorem withStatus_id (id : ℕ) (status : ExamModels.AttemptStatus) (x : ContestAttempt) :
    (withStatus id status x).id = x.id := by
  unfold withStatus
  split <;> rfl

def billed (id : ℕ) (consumed : ℤ) (revokedAt : Option Time) (e : Entitlement) : Entitlement :=
  if e.id = id then { e with consumed, revokedAt } else e

theorem billed_id (id : ℕ) (consumed : ℤ) (revokedAt : Option Time) (e : Entitlement) :
    (billed id consumed revokedAt e).id = e.id := by
  unfold billed
  split <;> rfl

def others (d : Store) : Call → Option Store
  | .finishAttempt id status =>
    some { d with attempts := d.attempts.mapRows (withStatus id status) (withStatus_id id status) }
  | .author content => some { d with content }
  | .bill id consumed revokedAt =>
    let rows := d.entitlements.mapRows (billed id consumed revokedAt) (billed_id id consumed revokedAt)
    some { d with entitlements := rows }
  | .grant row =>
    let rows := d.entitlements.put { row with id := d.entitlements.nextId }
    some { d with entitlements := rows }
  | _ => none

def next (jitter : ℕ → ℤ) (d : Store) (q : Request) (act : Act) : Turn :=
  match q.phase, act with
  | .done _, _ => none
  | _, .fail e => refuse q (.raised e)
  | .written w a, .commit =>
    some (.commits (w.land q.call.userId d) { call := q.call, phase := .done a })
  | _, act =>
    match q.call with
    | .register actor => register d q actor act
    | .withdraw actor => withdraw d q actor act
    | .lobby actor => lobby jitter d q actor act
    | .releaseKey actor => releaseKey d q actor act
    | .tick => tick d q act
    | call =>
      match q.phase, act with
      | .waiting, .commit =>
        (others d call).map (fun d' => .commits d' { call, phase := .done .noContent })
      | _, _ => none

/-! ## What a statement can do -/

def Phase.pending : Phase → List Key
  | .written w _ => w.keys
  | _ => []

def owned (q : Request) : List Key := q.held ++ q.phase.pending

/-- A statement that is no commit reads and locks, or it is the last one before the commit, or it
is refused. -/
inductive Turns (q : Request) : Turn → Prop where
  | stuck : Turns q none
  | refused (e : Refusal) : Turns q (refuse q e)
  | went (phase : Phase) (keys : List Key) (pending : phase.pending = []) :
      Turns q (goes q phase keys)
  | wrote (w : Write) (a : Answer) : Turns q (writes q w a)

variable {jitter : ℕ → ℤ} {d d' : Store} {q q' : Request} {act : Act} {actor : Actor}

theorem turns_register : Turns q (register d q actor act) := by
  unfold register
  repeat' split
  all_goals first
    | exact .stuck
    | exact .refused _
    | exact .went _ _ rfl
    | exact .wrote _ _

theorem turns_withdraw : Turns q (withdraw d q actor act) := by
  unfold withdraw
  dsimp only
  repeat' split
  all_goals first
    | exact .stuck
    | exact .refused _
    | exact .went _ _ rfl
    | exact .wrote _ _

theorem turns_lobby : Turns q (lobby jitter d q actor act) := by
  unfold lobby
  repeat' split
  all_goals first
    | exact .stuck
    | exact .refused _
    | exact .went _ _ rfl
    | exact .wrote _ _

theorem turns_releaseKey : Turns q (releaseKey d q actor act) := by
  unfold releaseKey
  repeat' split
  all_goals first
    | exact .stuck
    | exact .refused _
    | exact .went _ _ rfl
    | exact .wrote _ _

theorem turns_tick : Turns q (tick d q act) := by
  unfold tick
  dsimp only
  repeat' split
  all_goals first
    | exact .stuck
    | exact .refused _
    | exact .went _ _ rfl
    | exact .wrote _ _

def turn (jitter : ℕ → ℤ) (d : Store) (q : Request) (act : Act) : Turn :=
  match q.call with
  | .register actor => register d q actor act
  | .withdraw actor => withdraw d q actor act
  | .lobby actor => lobby jitter d q actor act
  | .releaseKey actor => releaseKey d q actor act
  | .tick => tick d q act
  | _ => none

theorem turns_turn : Turns q (turn jitter d q act) := by
  unfold turn
  split
  · exact turns_register
  · exact turns_withdraw
  · exact turns_lobby
  · exact turns_releaseKey
  · exact turns_tick
  · exact .stuck

/-- What a step of a request is: a failure, a statement of its call, its commit, or a commit of
the others. -/
inductive Next (jitter : ℕ → ℤ) (d : Store) (q : Request) : Act → Move Store Key Request → Prop where
  | failed (e : Raised) : Next jitter d q (.fail e)
      (.rollsBack { call := q.call, phase := .done (.refused (.raised e)) })
  | turned (act : Act) (m : Move Store Key Request) (turn : turn jitter d q act = some m) :
      Next jitter d q act m
  | committed (w : Write) (a : Answer) (phase : q.phase = .written w a) :
      Next jitter d q .commit (.commits (w.land q.call.userId d) { call := q.call, phase := .done a })
  | other (d' : Store) (other : others d q.call = some d') :
      Next jitter d q .commit (.commits d' { call := q.call, phase := .done .noContent })

theorem next_cases {m : Move Store Key Request} (h : next jitter d q act = some m) :
    Next jitter d q act m := by
  unfold next at h
  split at h
  · cases h
  · cases h
    exact .failed _
  · next w a hphase =>
    cases h
    exact .committed w a hphase
  · split at h
    · next hcall => exact .turned _ _ (by unfold turn; rw [hcall]; exact h)
    · next hcall => exact .turned _ _ (by unfold turn; rw [hcall]; exact h)
    · next hcall => exact .turned _ _ (by unfold turn; rw [hcall]; exact h)
    · next hcall => exact .turned _ _ (by unfold turn; rw [hcall]; exact h)
    · next hcall => exact .turned _ _ (by unfold turn; rw [hcall]; exact h)
    · split at h
      · obtain ⟨d', hd', rfl⟩ := Option.map_eq_some_iff.1 h
        exact .other d' hd'
      · cases h

theorem owned_goes {q' : Request} {keys : List Key} (h : Turns q (some (.goes q' keys))) :
    ∀ k ∈ owned q', k ∈ owned q ∨ k ∈ keys := by
  generalize hm : (some (.goes q' keys) : Turn) = m at h
  cases h with
  | stuck => cases hm
  | refused e => cases hm
  | went phase keys hpending =>
    cases hm
    intro k hk
    simp only [owned, hpending, List.append_nil, List.mem_append] at hk ⊢
    exact hk.imp .inl id
  | wrote w a =>
    cases hm
    intro k hk
    simp only [owned, Phase.pending, List.mem_append] at hk ⊢
    rcases hk with (hk | hk) | hk
    · exact .inl (.inl hk)
    · exact .inr hk
    · exact .inr hk

theorem done_of_turn (h : Turns q (some (.rollsBack q'))) : owned q' = [] := by
  generalize hm : (some (.rollsBack q') : Turn) = m at h
  cases h with
  | stuck => cases hm
  | refused e =>
    cases hm
    rfl
  | went => cases hm
  | wrote => cases hm

theorem not_commit_of_turn (h : Turns q (some (.commits d' q'))) : False := by
  generalize hm : (some (.commits d' q') : Turn) = m at h
  cases h <;> cases hm

def program (jitter : ℕ → ℤ) : Program Store Key Request Act where
  next := next jitter
  owned := owned
  owned_goes := by
    intro d p i p' keys h
    cases next_cases h with
    | turned _ _ hturn => exact owned_goes (hturn ▸ turns_turn)
  owned_commits := by
    intro d p i d' p' h
    cases next_cases h with
    | turned _ _ hturn => exact (not_commit_of_turn (hturn ▸ turns_turn)).elim
    | committed => rfl
    | other => rfl
  owned_rollsBack := by
    intro d p i p' h
    cases next_cases h with
    | failed => rfl
    | turned _ _ hturn => exact done_of_turn (hturn ▸ turns_turn)

abbrev Sys := ReadCommitted.Sys Store Key Request

def noContent : ContentStore where
  questionVersions := .empty
  answerKeys := .empty
  versionXids := List.nodup_nil
  currentKeys := List.nodup_nil

def start (contest : Contest) (content : ContentStore)
    (entitlements : Table Entitlement ℕ Entitlement.id) (seats : List Seat) (calls : ℕ → Call) :
    Sys where
  store := { contest, content, entitlements, seats }
  requests r := { call := calls r }

theorem commit_cases {p p' : Request} (h : (program jitter).next d p act = some (.commits d' p')) :
    (∃ w a, p.phase = .written w a ∧ d' = w.land p.call.userId d ∧
      p' = { call := p.call, phase := .done a }) ∨
    (others d p.call = some d' ∧ p' = { call := p.call, phase := .done .noContent }) := by
  cases next_cases h with
  | turned _ _ hturn => exact (not_commit_of_turn (hturn ▸ turns_turn)).elim
  | committed w a hphase => exact .inl ⟨w, a, hphase, rfl, rfl⟩
  | other d' hother => exact .inr ⟨hother, rfl⟩

end IeltsHub.ContestRequests
