import IeltsHub.ExamModels
import IeltsHub.PlatformRefusals
import IeltsHub.ReadCommitted

set_option autoImplicit false

/-!
# Starting assigned work

`POST /attempts` against an assignment, one statement after another, beside the requests that
finish attempts. The finished attempts are counted, the live one is looked for, the number of a new
attempt is one more than the largest, and the unique index on it refuses a number twice.
-/
namespace IeltsHub.AttemptStarts
open PyValue PyTime RowTable ContentModels ExamModels PlatformRefusals ReadCommitted
open PlatformErrors (Raised)

structure Assignment where
  id : ℕ
  orgId : Option ℕ := none
  cohortId : Option ℕ := none
  testVersionId : ℕ
  opensAt : Time
  closesAt : Time
  timeLimitSeconds : Option ℤ := none
  maxAttempts : ℤ := 1
  mode : AttemptMode := .exam
  deriving DecidableEq

structure Attempt where
  id : ℕ
  xid : String
  userId : ℕ
  testVersionId : ℕ
  assignmentId : Option ℕ
  orgContextId : Option ℕ
  mode : AttemptMode
  attemptNo : ℕ
  status : AttemptStatus
  issuedAt : Time
  startedAt : Option Time
  expiresAt : Option Time
  deriving DecidableEq

structure AttemptDto where
  xid : String
  status : AttemptStatus
  mode : AttemptMode
  attemptNo : ℕ
  expiresAt : Option Time
  serverNow : Time
  secondsRemaining : Option ℤ
  deriving DecidableEq

/-- The body of the request, with the assignment its xid names. -/
structure Body where
  testVersionXid : Option String := none
  assignment : ℕ
  mode : AttemptMode := .exam
  deriving DecidableEq

/-- A row of `idempotency_keys` in the scope `attempts.start`. -/
structure IdempotencyKey where
  userId : ℕ
  key : String
  requestHash : String
  response : AttemptDto
  expiresAt : Time
  deriving DecidableEq

def IdempotencyKey.unique (k : IdempotencyKey) : ℕ × String := (k.userId, k.key)

/-- What a start reads and others edit: the papers, and who work is set for. -/
structure Surroundings where
  testVersions : Table TestVersion ℕ TestVersion.id := .empty
  sections : Table TestVersionSection ℕ TestVersionSection.id := .empty
  targets : List (ℕ × ℕ) := []
  /-- The cohorts with the members who have not left. -/
  members : List (ℕ × ℕ) := []

structure Store where
  assignments : Table Assignment ℕ Assignment.id
  around : Surroundings := {}
  attempts : Table Attempt ℕ Attempt.id := .empty
  /-- `attempt_sections`: attempt, section, position. -/
  attemptSections : List (ℕ × ℕ × ℤ) := []
  /-- The attempts with an `attempt.started` event in the outbox. -/
  started : List ℕ := []
  keys : Table IdempotencyKey (ℕ × String) IdempotencyKey.unique := .empty

def AttemptStatus.live (status : AttemptStatus) : Bool := status = .issued ∨ status = .inProgress

def Attempt.live (x : Attempt) : Bool := AttemptStatus.live x.status

def attemptsOf (d : Store) (userId assignmentId : ℕ) : List Attempt :=
  d.attempts.select (fun x => x.userId = userId ∧ x.assignmentId = some assignmentId)

/-- `start` is `POST /attempts`; a submission, an expiry and a voiding `finish` an attempt. -/
inductive Call where
  | start (userId : ℕ) (key : Option String) (body : Body)
  | finish (attemptId : ℕ) (status : AttemptStatus)
  | edit (around : Surroundings)
  | purge (now : Time)

/-- A start whose assignment was found. -/
structure Sitting where
  userId : ℕ
  key : Option String
  body : Body
  assignment : Assignment

inductive Answer where
  | attempt (row : Attempt) (new : Bool)
  | replayed (dto : AttemptDto)
  | refused (e : Refusal)
  | noContent

/-- How far a start has come. `used` are the finished attempts it counted, `live` the attempt it
saw. -/
inductive Phase where
  | waiting
  | keyed
  | assigned (c : Sitting)
  | counted (c : Sitting) (used : ℕ)
  | looked (c : Sitting) (used : ℕ) (live : Option Attempt)
  | absent (c : Sitting) (used : ℕ) (live : Option Attempt)
  | timed (c : Sitting) (used : ℕ) (live : Option Attempt) (now : Time) (limit : ℤ)
  | numbered (c : Sitting) (now : Time) (limit : ℤ) (attemptNo : ℕ)
  | answering (c : Sitting) (row : Attempt) (new : Bool)
  | stored (c : Sitting) (row : Attempt) (new : Bool) (key : Option IdempotencyKey)
  | finishing
  | done (a : Answer)

structure Request where
  call : Call
  phase : Phase := .waiting

inductive Act where
  | replay
  | ask (now : Time)
  | count
  | look
  | resume
  | time (now : Time)
  | number
  | insert (xid : String)
  | store (now : Time)
  | write
  | commit
  | fail (e : Raised)

inductive Key where
  | attempt (id : ℕ)
  | number (assignmentId userId attemptNo : ℕ)
  | idempotency (userId : ℕ) (key : String)
  deriving DecidableEq

def attemptDto (row : Attempt) (now : Time) : AttemptDto where
  xid := row.xid
  status := row.status
  mode := row.mode
  attemptNo := row.attemptNo
  expiresAt := row.expiresAt
  serverNow := now
  secondsRemaining := row.expiresAt.map (fun t => max 0 (truncate (totalSeconds (t - now))))

/-! ## The statements -/

/-- `digest` is the hash of a body in canonical JSON. -/
def replay (digest : Body → String) (d : Store) (userId : ℕ) (key : Option String) (body : Body) :
    Phase :=
  match key.bind (fun k => d.keys.get? (userId, k)) with
  | none => .keyed
  | some row =>
    if row.requestHash ≠ digest body then
      .done (.refused (conflict
        "This idempotency key was used with a different request body." "idempotency_key_reused"))
    else .done (.replayed row.response)

def targeted (d : Store) (a : Assignment) (userId : ℕ) : Bool :=
  (a.id, userId) ∈ d.around.targets ∨
    a.cohortId.any (fun cohort => (cohort, userId) ∈ d.around.members)

/-- `_assignment_for`, and the window the assignment is open in. -/
def ask (d : Store) (userId : ℕ) (key : Option String) (body : Body) (now : Time) : Phase :=
  match (d.assignments.get? body.assignment).filter (fun a => targeted d a userId) with
  | none => .done (.refused (notFound "Assignment not found."))
  | some a =>
    if now < a.opensAt then
      .done (.refused (.tooEarly "This assignment has not opened yet." "assignment_not_open"))
    else if now ≥ a.closesAt then
      .done (.refused (conflict "This assignment has closed." "assignment_closed"))
    else .assigned { userId, key, body, assignment := a }

def ofSitting (d : Store) (c : Sitting) : List Attempt := attemptsOf d c.userId c.assignment.id

def limitReached (c : Sitting) : Refusal :=
  conflict s!"You have used all {c.assignment.maxAttempts} attempt(s) for this assignment."
    "attempt_limit_reached"

def look (d : Store) (c : Sitting) (used : ℕ) : Phase :=
  let live := (ofSitting d c).find? Attempt.live
  if live = none ∧ (used : ℤ) ≥ c.assignment.maxAttempts then .done (.refused (limitReached c))
  else .looked c used live

/-- `ExamSession.start` gives the live attempt back. -/
def resume (d : Store) (c : Sitting) (used : ℕ) (live : Option Attempt) : Phase :=
  match (ofSitting d c).find? Attempt.live with
  | some row => .answering c row false
  | none => .absent c used live

/-- `timedelta(seconds=…)` of a JSON value. -/
def timedelta : Json → Except Refusal ℤ
  | .int n => .ok (seconds n)
  | .real q => .ok (roundEven (q * 1000000))
  | .bool true => .ok (seconds 1)
  | _ => .error (.raised .typeError)

/-- `time_limit_seconds or config.get("time_limit_seconds") or 3600`. -/
def limitOf (a : Assignment) (tv : TestVersion) : Except Refusal ℤ :=
  let config := getD tv.config "time_limit_seconds" .null
  match a.timeLimitSeconds.filter (fun n => n ≠ 0) with
  | some n => .ok (seconds n)
  | none => if truthy config then timedelta config else .ok (seconds 3600)

def time (d : Store) (c : Sitting) (used : ℕ) (live : Option Attempt) (now : Time) : Phase :=
  match d.around.testVersions.get? c.assignment.testVersionId with
  | none => .done (.refused (notFound "Test version not found."))
  | some tv =>
    if tv.status ≠ .published ∧ c.assignment.mode ≠ .preview then
      .done (.refused (conflict "Only a published test version can be sat."
        "test_version_not_published"))
    else
      match limitOf c.assignment tv with
      | .error e => .done (.refused e)
      | .ok limit => .timed c used live now limit

def nextAttemptNo (d : Store) (c : Sitting) : ℕ :=
  ((ofSitting d c).map Attempt.attemptNo).foldr max 0 + 1

def newAttempt (c : Sitting) (now : Time) (limit : ℤ) (attemptNo : ℕ) (xid : String) : Attempt where
  id := 0
  xid := xid
  userId := c.userId
  testVersionId := c.assignment.testVersionId
  assignmentId := some c.assignment.id
  orgContextId := c.assignment.orgId
  mode := c.assignment.mode
  attemptNo := attemptNo
  status := .inProgress
  issuedAt := now
  startedAt := some now
  expiresAt := some (now + limit)

/-- The flush of the INSERT: `attempts_assignment_no_uq` refuses a number that is there. -/
def insert (d : Store) (q : Request) (c : Sitting) (row : Attempt) : Move Store Key Request :=
  if (ofSitting d c).any (fun x => x.attemptNo = row.attemptNo) then
    .rollsBack { q with phase := .done (.refused (integrity "attempts_assignment_no_uq")) }
  else .goes { q with phase := .answering c row true }
    [.number c.assignment.id c.userId row.attemptNo]

def oneDay : ℤ := seconds 86400

/-- `Idempotency.store`. -/
def remember (digest : Body → String) (d : Store) (q : Request) (c : Sitting) (row : Attempt)
    (new : Bool) (now : Time) : Move Store Key Request :=
  match c.key with
  | none => .goes { q with phase := .stored c row new none } []
  | some key =>
    if (d.keys.get? (c.userId, key)).isSome then
      .rollsBack { q with phase := .done (.refused (integrity "idempotency_keys_uq")) }
    else
      .goes { q with phase := .stored c row new (some
        { userId := c.userId, key, requestHash := digest c.body, response := attemptDto row now
          expiresAt := now + oneDay }) } [.idempotency c.userId key]

/-! ## Commits -/

def withKey (d : Store) : Option IdempotencyKey → Store
  | none => d
  | some k => { d with keys := d.keys.put k }

def landAttempt (d : Store) (row : Attempt) : Store :=
  let sections := (d.around.sections.select (fun s => s.testVersionId = row.testVersionId)).map
    (fun s => (d.attempts.nextId, s.id, s.position))
  { d with
    attempts := d.attempts.put { row with id := d.attempts.nextId }
    attemptSections := d.attemptSections ++ sections
    started := d.started ++ [d.attempts.nextId] }

def landStart (d : Store) (row : Attempt) (new : Bool) (key : Option IdempotencyKey) : Store :=
  withKey (if new then landAttempt d row else d) key

def statused (id : ℕ) (status : AttemptStatus) (x : Attempt) : Attempt :=
  if x.id = id then { x with status } else x

@[simp] theorem statused_id (id : ℕ) (status : AttemptStatus) (x : Attempt) :
    (statused id status x).id = x.id := by
  unfold statused
  split <;> rfl

def finish (d : Store) (id : ℕ) (status : AttemptStatus) : Store :=
  { d with attempts := d.attempts.mapRows (statused id status) (fun x => statused_id id status x) }

def expireIdempotency (d : Store) (now : Time) : Store :=
  let kept := d.keys.remove (fun k => k.expiresAt < now)
  { d with keys := kept }

def answered (d : Store) (row : Attempt) (new : Bool) : Answer :=
  .attempt (if new then { row with id := d.attempts.nextId } else row) new

def next (digest : Body → String) (d : Store) (q : Request) (act : Act) :
    Option (Move Store Key Request) :=
  let goes (p : Phase) : Option (Move Store Key Request) := some (.goes { q with phase := p } [])
  match q.phase, q.call, act with
  | .waiting, .start u key body, .replay =>
    goes (replay digest d u (key.filter (fun k => k ≠ "")) body)
  | .keyed, .start u key body, .ask now => goes (ask d u (key.filter (fun k => k ≠ "")) body now)
  | .assigned c, _, .count =>
    goes (.counted c ((ofSitting d c).filter (fun x => !x.live)).length)
  | .counted c used, _, .look => goes (look d c used)
  | .looked c used live, _, .resume => goes (resume d c used live)
  | .absent c used live, _, .time now => goes (time d c used live now)
  | .timed c _ _ now limit, _, .number => goes (.numbered c now limit (nextAttemptNo d c))
  | .numbered c now limit no, _, .insert xid => some (insert d q c (newAttempt c now limit no xid))
  | .answering c row new, _, .store now => some (remember digest d q c row new now)
  | .stored _ row new key, _, .commit =>
    some (.commits (landStart d row new key) { q with phase := .done (answered d row new) })
  | .waiting, .finish id _, .write => some (.goes { q with phase := .finishing } [.attempt id])
  | .finishing, .finish id status, .commit =>
    if AttemptStatus.live status then none
    else some (.commits (finish d id status) { q with phase := .done .noContent })
  | .waiting, .edit around, .commit =>
    some (.commits { d with around } { q with phase := .done .noContent })
  | .waiting, .purge now, .commit =>
    some (.commits (expireIdempotency d now) { q with phase := .done .noContent })
  | .done _, _, _ => none
  | _, _, .fail e => some (.rollsBack { q with phase := .done (.refused (.raised e)) })
  | _, _, _ => none

/-! ## What a statement can do -/

def owned (q : Request) : List Key :=
  match q.phase, q.call with
  | .answering c row true, _ => [.number c.assignment.id c.userId row.attemptNo]
  | .stored c row true key, _ =>
    .number c.assignment.id c.userId row.attemptNo ::
      key.toList.map (fun k => .idempotency k.userId k.key)
  | .stored _ _ false key, _ => key.toList.map (fun k => .idempotency k.userId k.key)
  | .finishing, .finish id _ => [.attempt id]
  | _, _ => []

/-- The phases that hold no locks. -/
inductive Free : Phase → Prop where
  | keyed : Free .keyed
  | assigned (c : Sitting) : Free (.assigned c)
  | counted (c : Sitting) (used : ℕ) : Free (.counted c used)
  | looked (c : Sitting) (used : ℕ) (live : Option Attempt) : Free (.looked c used live)
  | absent (c : Sitting) (used : ℕ) (live : Option Attempt) : Free (.absent c used live)
  | timed (c : Sitting) (used : ℕ) (live : Option Attempt) (now : Time) (limit : ℤ) :
      Free (.timed c used live now limit)
  | numbered (c : Sitting) (now : Time) (limit : ℤ) (no : ℕ) : Free (.numbered c now limit no)
  | resumed (c : Sitting) (row : Attempt) : Free (.answering c row false)
  | refused (e : Refusal) : Free (.done (.refused e))
  | replayed (dto : AttemptDto) : Free (.done (.replayed dto))

theorem Free.owned_eq {p : Phase} (h : Free p) (call : Call) : owned ⟨call, p⟩ = [] := by
  cases h <;> rfl

/-- What a statement reads takes its start one step on, and it commits what it wrote. -/
inductive Next (digest : Body → String) (d : Store) (q : Request) : Act → Move Store Key Request → Prop
  where
  | refused (act : Act) (e : Refusal) :
      Next digest d q act (.rollsBack { q with phase := .done (.refused e) })
  | replay (u : ℕ) (key : Option String) (body : Body) (phase : q.phase = .waiting) :
      Next digest d q .replay (.goes { q with phase := replay digest d u key body } [])
  | ask (u : ℕ) (key : Option String) (body : Body) (now : Time) (phase : q.phase = .keyed) :
      Next digest d q (.ask now) (.goes { q with phase := ask d u key body now } [])
  | count (c : Sitting) (phase : q.phase = .assigned c) :
      Next digest d q .count (.goes { q with
        phase := .counted c ((ofSitting d c).filter (fun x => !x.live)).length } [])
  | look (c : Sitting) (used : ℕ) (phase : q.phase = .counted c used) :
      Next digest d q .look (.goes { q with phase := look d c used } [])
  | resume (c : Sitting) (used : ℕ) (live : Option Attempt) (phase : q.phase = .looked c used live) :
      Next digest d q .resume (.goes { q with phase := resume d c used live } [])
  | time (c : Sitting) (used : ℕ) (live : Option Attempt) (now : Time)
      (phase : q.phase = .absent c used live) :
      Next digest d q (.time now) (.goes { q with phase := time d c used live now } [])
  | number (c : Sitting) (used : ℕ) (live : Option Attempt) (now : Time) (limit : ℤ)
      (phase : q.phase = .timed c used live now limit) :
      Next digest d q .number
        (.goes { q with phase := .numbered c now limit (nextAttemptNo d c) } [])
  | insert (c : Sitting) (now : Time) (limit : ℤ) (no : ℕ) (xid : String)
      (phase : q.phase = .numbered c now limit no)
      (new : ∀ x ∈ ofSitting d c, x.attemptNo ≠ no) :
      Next digest d q (.insert xid)
        (.goes { q with phase := .answering c (newAttempt c now limit no xid) true }
          [.number c.assignment.id c.userId no])
  | store (c : Sitting) (row : Attempt) (new : Bool) (now : Time) (key : Option IdempotencyKey)
      (phase : q.phase = .answering c row new) :
      Next digest d q (.store now) (.goes { q with phase := .stored c row new key }
        (key.toList.map (fun k => .idempotency k.userId k.key)))
  | commit (c : Sitting) (row : Attempt) (new : Bool) (key : Option IdempotencyKey)
      (phase : q.phase = .stored c row new key) :
      Next digest d q .commit
        (.commits (landStart d row new key) { q with phase := .done (answered d row new) })
  | write (id : ℕ) (status : AttemptStatus) (call : q.call = .finish id status)
      (phase : q.phase = .waiting) :
      Next digest d q .write (.goes { q with phase := .finishing } [.attempt id])
  | finish (id : ℕ) (status : AttemptStatus) (call : q.call = .finish id status)
      (phase : q.phase = .finishing) (ended : AttemptStatus.live status = false) :
      Next digest d q .commit (.commits (finish d id status) { q with phase := .done .noContent })
  | edit (around : Surroundings) (phase : q.phase = .waiting) :
      Next digest d q .commit
        (.commits { d with around } { q with phase := .done .noContent })
  | purge (now : Time) (phase : q.phase = .waiting) :
      Next digest d q .commit
        (.commits (expireIdempotency d now) { q with phase := .done .noContent })

variable {digest : Body → String} {d : Store} {q : Request} {act : Act} {m : Move Store Key Request}

theorem next_cases (h : next digest d q act = some m) : Next digest d q act m := by
  unfold next at h
  dsimp only at h
  split at h
  · next hphase _ =>
    cases h
    exact .replay _ _ _ hphase
  · next hphase _ =>
    cases h
    exact .ask _ _ _ _ hphase
  · next hphase =>
    cases h
    exact .count _ hphase
  · next hphase =>
    cases h
    exact .look _ _ hphase
  · next hphase =>
    cases h
    exact .resume _ _ _ hphase
  · next hphase =>
    cases h
    exact .time _ _ _ _ hphase
  · next hphase =>
    cases h
    exact .number _ _ _ _ _ hphase
  · next c now limit no xid hphase =>
    cases h
    unfold insert
    split
    · exact .refused _ _
    · next hnew =>
      refine .insert c now limit no xid hphase (fun x hx heq => hnew ?_)
      exact List.any_eq_true.2 ⟨x, hx, decide_eq_true heq⟩
  · next c row new now hphase =>
    cases h
    unfold remember
    split
    · exact .store c row new now none hphase
    · split
      · exact .refused _ _
      · exact .store c row new now (some _) hphase
  · next hphase =>
    cases h
    exact .commit _ _ _ _ hphase
  · next hphase hcall =>
    cases h
    exact .write _ _ hcall hphase
  · next hphase hcall =>
    split at h
    · cases h
    · next hended =>
      cases h
      exact .finish _ _ hcall hphase (by simpa using hended)
  · next hphase _ =>
    cases h
    exact .edit _ hphase
  · next hphase _ =>
    cases h
    exact .purge _ hphase
  · cases h
  · cases h
    exact .refused _ _
  · cases h

theorem free_replay (u : ℕ) (key : Option String) (body : Body) :
    Free (replay digest d u key body) := by
  unfold replay
  split
  · exact .keyed
  · split
    · exact .refused _
    · exact .replayed _

theorem free_ask (u : ℕ) (key : Option String) (body : Body) (now : Time) :
    Free (ask d u key body now) := by
  unfold ask
  split
  · exact .refused _
  · split
    · exact .refused _
    · split
      · exact .refused _
      · exact .assigned _

theorem free_look (c : Sitting) (used : ℕ) : Free (look d c used) := by
  unfold look
  dsimp only
  split
  · exact .refused _
  · exact .looked _ _ _

theorem free_resume (c : Sitting) (used : ℕ) (live : Option Attempt) :
    Free (resume d c used live) := by
  unfold resume
  split
  · exact .resumed _ _
  · exact .absent _ _ _

theorem free_time (c : Sitting) (used : ℕ) (live : Option Attempt) (now : Time) :
    Free (time d c used live now) := by
  unfold time
  split
  · exact .refused _
  · split
    · exact .refused _
    · split
      · exact .refused _
      · exact .timed _ _ _ _ _

theorem owned_goes {p' : Request} {keys : List Key} (h : Next digest d q act (.goes p' keys)) :
    ∀ k ∈ owned p', k ∈ owned q ∨ k ∈ keys := by
  cases h with
  | replay u key body => simp [(free_replay u key body).owned_eq]
  | ask u key body now => simp [(free_ask u key body now).owned_eq]
  | count c => simp [(Free.counted c _).owned_eq]
  | look c used => simp [(free_look c used).owned_eq]
  | resume c used live => simp [(free_resume c used live).owned_eq]
  | time c used live now => simp [(free_time c used live now).owned_eq]
  | number c _ _ now limit => simp [(Free.numbered c now limit _).owned_eq]
  | insert => exact fun k hk => .inr hk
  | store c row new now key hphase =>
    intro k hk
    cases new with
    | false => exact .inr hk
    | true =>
      rcases List.mem_cons.1 hk with rfl | hk
      · exact .inl (by simp [owned, hphase])
      · exact .inr hk
  | write id status hcall =>
    intro k hk
    exact .inr (by simpa [owned, hcall] using hk)

def program (digest : Body → String) : Program Store Key Request Act where
  next := next digest
  owned := owned
  owned_goes h := owned_goes (next_cases h)
  owned_commits := by
    intro d p i d' p' h
    cases next_cases h <;> rfl
  owned_rollsBack := by
    intro d p i p' h
    cases next_cases h
    rfl

abbrev Sys := ReadCommitted.Sys Store Key Request

def start (assignments : Table Assignment ℕ Assignment.id) (around : Surroundings)
    (calls : ℕ → Call) : Sys where
  store := { assignments, around }
  requests r := ⟨calls r, .waiting⟩

end IeltsHub.AttemptStarts
