import IeltsHub.ExamScoringInputs

set_option autoImplicit false

/-!
# The exam session

`issue -> in_progress -> submitted -> scored`. Every operation takes the id of an attempt and
works on the database it shares with the others; the clock is a stream of readings, taken one
after another. Nothing an operation wrote is undone by its raising: that is for the caller's
transaction, or for the savepoint the sweeper opens around each attempt.
-/
namespace IeltsHub

/-- What a session is built with. `sign` is the signature a grant is sealed with. -/
structure ExamSession where
  scorer : QtypesRegistry.Scorer
  validator : QtypesRegistry.Validator
  clock : ℕ → PyTime.Time
  grace : ℤ := 30
  mediaGrantTtlSeconds : ℤ := 120
  sign : PyValue.Obj → String

namespace ExamSession
open PyValue PyDict PyTime PlatformErrors QtypesSchemas QtypesRegistry RaisingState ContentModels
  ExamScoring ExamModels ExamScoringInputs

/-- The database, and how many times the clock was read. -/
structure World where
  store : Store
  ticks : ℕ := 0

abbrev Tx (α : Type) : Type := Effect Raised World α

structure AnswerDelta where
  questionVersionXid : String
  slotKey : String
  response : Json
  clientSeq : ℤ
  clientTs : Option Time := none
  timeSpentMs : ℤ := 0
  deriving DecidableEq

inductive Reason where
  | unknownSlot | schemaInvalid | sectionExpired | staleSeq
  deriving DecidableEq, Repr

structure Rejection where
  questionVersionXid : String
  slotKey : String
  reason : Reason
  detail : Option String := none
  deriving DecidableEq

structure SaveResult where
  accepted : ℕ
  rejected : List Rejection
  lastAcceptedSeq : ℤ
  serverNow : Time
  expiresAt : Option Time
  secondsRemaining : Option ℤ
  deriving DecidableEq

/-! ## Reading and writing the database -/

def getAttempt (id : ℕ) : Tx Attempt := fun w =>
  match w.store.attempts.get? id with
  | some a => (.ok a, w)
  | none => (.error (notFound "Attempt not found."), w)

def setStore (f : Store → Store) : Tx Unit := Effect.update (fun w => { w with store := f w.store })

def putAttempt (a : Attempt) : Tx Unit :=
  setStore (fun s => { s with attempts := s.attempts.put a })

def putSection (r : AttemptSection) : Tx Unit :=
  setStore (fun s => { s with attemptSections := s.attemptSections.put r })

def voided : Raised := conflict "This attempt was voided." "attempt_voided"

/-- `rollback to savepoint`: the database goes back, the clock does not. -/
def rollback (before after : World) : World := { after with store := before.store }

/-! ## Autosave: what becomes of one delta -/

/-- What a batch is judged against: the sections past their deadline, the section of each
question version, and the versions themselves, all read once. -/
structure BatchContext where
  scorer : Scorer
  validator : Validator
  attemptId : ℕ
  now : Time
  versions : Dict String QuestionVersion
  expiredSections : List ℤ
  sectionOf : Dict ℕ ℤ

/-- The answers of the attempt as the batch sees them, and those it has written. -/
structure Batch where
  existing : Dict (ℕ × String) AttemptAnswer
  pending : Dict (ℕ × String) AttemptAnswer := Dict.empty
  accepted : ℕ := 0
  rejected : List Rejection := []
  lastSeq : ℤ := 0

def AnswerDelta.rejection (d : AnswerDelta) (reason : Reason) (detail : Option String := none) :
    Rejection where
  questionVersionXid := d.questionVersionXid
  slotKey := d.slotKey
  reason := reason
  detail := detail

/-- Refused for a reason, or accepted for a question version. -/
inductive Verdict where
  | refuse (rejection : Rejection)
  | accept (version : QuestionVersion)

def isStale (row : Option AttemptAnswer) (d : AnswerDelta) : Bool :=
  match row.bind AttemptAnswer.clientSeq with
  | some seq => d.clientSeq ≤ seq
  | none => false

def BatchContext.sectionExpired (ctx : BatchContext) (qv : QuestionVersion) : Bool :=
  match ctx.sectionOf.get? qv.id with
  | some position => position ∈ ctx.expiredSections
  | none => false

def BatchContext.judge (ctx : BatchContext) (existing : Dict (ℕ × String) AttemptAnswer)
    (d : AnswerDelta) : Except Raised Verdict :=
  match ctx.versions.get? d.questionVersionXid with
  | none => .ok (.refuse (d.rejection .unknownSlot))
  | some qv =>
    if d.slotKey ∉ qv.slotKeys then .ok (.refuse (d.rejection .unknownSlot))
    else do
      let why ← ctx.scorer.validateResponse ctx.validator qv.typeKey qv.typeVersion d.response
      match why.filter (· ≠ "") with
      | some text => .ok (.refuse (d.rejection .schemaInvalid text))
      | none =>
        if ctx.sectionExpired qv then .ok (.refuse (d.rejection .sectionExpired))
        else if isStale (existing.get? (qv.id, d.slotKey)) d then
          .ok (.refuse (d.rejection .staleSeq))
        else .ok (.accept qv)

def BatchContext.answerRow (ctx : BatchContext) (qv : QuestionVersion) (d : AnswerDelta) :
    Option AttemptAnswer → AttemptAnswer
  | none =>
    { attemptId := ctx.attemptId, questionVersionId := qv.id, slotKey := d.slotKey
      response := d.response, revision := 1, clientSeq := d.clientSeq, clientTs := d.clientTs
      firstAnsweredAt := ctx.now, updatedAt := ctx.now, timeSpentMs := d.timeSpentMs }
  | some row =>
    { row with
      response := d.response, revision := row.revision + 1, clientSeq := d.clientSeq
      clientTs := d.clientTs, updatedAt := ctx.now
      timeSpentMs := row.timeSpentMs + d.timeSpentMs }

def BatchContext.step (ctx : BatchContext) (b : Batch) (d : AnswerDelta) : Except Raised Batch := do
  match ← ctx.judge b.existing d with
  | .refuse r => .ok { b with rejected := b.rejected ++ [r] }
  | .accept qv =>
    let slot := (qv.id, d.slotKey)
    let row := ctx.answerRow qv d (b.existing.get? slot)
    .ok { b with
      existing := b.existing.put slot row, pending := b.pending.put slot row
      accepted := b.accepted + 1, lastSeq := max b.lastSeq d.clientSeq }

def BatchContext.process (ctx : BatchContext) (b : Batch) (deltas : List AnswerDelta) :
    Except Raised Batch :=
  deltas.foldlM ctx.step b

def bySlot (rows : List AttemptAnswer) : Dict (ℕ × String) AttemptAnswer :=
  Dict.ofList (rows.map (fun r => ((r.questionVersionId, r.slotKey), r)))

/-- `attempt_answers_frozen`: no write once the attempt is submitted, scored or voided. -/
def AttemptStatus.frozen : AttemptStatus → Bool
  | .submitted | .scored | .voided => true
  | _ => false

def frozenError : Raised := .domain (.integrity "answers are frozen")

def flushAnswers (attemptId : ℕ) (rows : List AttemptAnswer) : Tx Unit := fun w =>
  match (w.store.attempts.get? attemptId).map (fun a => AttemptStatus.frozen a.status) with
  | some true => if rows = [] then (.ok (), w) else (.error frozenError, w)
  | _ => (.ok (), { w with store := { w.store with
      answers := rows.foldl (fun t r => t.put r) w.store.answers } })

def now (ses : ExamSession) : Tx Time := fun w =>
  (.ok (ses.clock w.ticks), { w with ticks := w.ticks + 1 })

/-! ## Deadlines and sections -/

def past (ses : ExamSession) (deadline : Option Time) (now : Time) : Bool :=
  match deadline with
  | some t => t + seconds ses.grace < now
  | none => false

def expiredSections (ses : ExamSession) (s : Store) (attemptId : ℕ) (now : Time) : List ℤ :=
  ((s.sectionsOf attemptId).filter (fun r => ses.past r.expiresAt now)).map AttemptSection.position

def sectionPositions (c : ContentStore) (testVersionId : ℕ) (ids : List ℕ) : Dict ℕ ℤ :=
  Dict.ofList (((placed c testVersionId).filter (fun p => p.questionVersion.id ∈ ids)).map
    (fun p => (p.questionVersion.id, p.testSection.position)))

def versionsNamed (c : ContentStore) (deltas : List AnswerDelta) : Dict String QuestionVersion :=
  Dict.ofList ((c.questionVersions.select
    (fun qv => qv.xid ∈ deltas.map AnswerDelta.questionVersionXid)).map (fun qv => (qv.xid, qv)))

def batchContext (ses : ExamSession) (s : Store) (a : Attempt) (deltas : List AnswerDelta)
    (now : Time) : BatchContext :=
  let versions := versionsNamed s.content deltas
  let expired := ses.expiredSections s a.id now
  { scorer := ses.scorer, validator := ses.validator, attemptId := a.id, now, versions
    expiredSections := expired
    sectionOf := if expired = [] then Dict.empty
      else sectionPositions s.content a.testVersionId (versions.values.map QuestionVersion.id) }

def remaining (a : Attempt) (now : Time) : Option ℤ :=
  a.expiresAt.map (fun t => max 0 (truncate (totalSeconds (t - now))))

/-! ## Events -/

def eventPayload (a : Attempt) (extra : Obj) : Obj :=
  (Dict.ofList [("attempt_id", .int a.id), ("user_id", .int a.userId),
    ("mode", .str a.mode.text)]).update extra

def emit (ses : ExamSession) (a : Attempt) (eventType : String) (extra : Obj) : Tx Unit := do
  let createdAt ← ses.now
  let availableAt ← ses.now
  setStore (fun s => { s with outbox := s.outbox ++
    [{ aggregateType := "attempt", aggregateId := a.xid, eventType
       payload := eventPayload a extra, createdAt, availableAt }] })

/-- `submitted_via`, as the reason the client branches on. -/
def expiryReason : SubmittedVia → String
  | .admin => "admin"
  | _ => "expired"

/-! ## Scoring -/

def storeRun (run : ScoreRun) (attemptId : ℕ) (now : Time) : Tx ScoreRunRow := fun w =>
  match addRun w.store run attemptId none none now with
  | .ok (store, row) => (.ok row, { w with store := store })
  | .error e => (.error e, w)

def score (ses : ExamSession) (a : Attempt) (reason : String) : Tx ScoreRunRow := do
  let store ← Effect.gets World.store
  let run ← Effect.lift (computeRun ses.scorer store a reason)
  let computedAt ← ses.now
  storeRun run a.id computedAt

/-! ## Submitting -/

def lateByMs (a : Attempt) (now : Time) : Option ℤ :=
  match a.expiresAt with
  | some t => if t < now then some (milliseconds (now - t)) else a.lateByMs
  | none => a.lateByMs

/-- The attempt frozen at `now`. -/
def frozenAttempt (a : Attempt) (via : SubmittedVia) (now : Time) : Attempt :=
  { a with
    lateByMs := lateByMs a now, status := .submitted, submittedAt := some now
    submittedVia := some via }

def announce (ses : ExamSession) (a : Attempt) (via : SubmittedVia) : Tx Unit :=
  if via = .user then pure ()
  else ses.emit a "attempt.expired" (Dict.ofList [("reason", .str (expiryReason via))])

def freezeAndScore (ses : ExamSession) (id : ℕ) (via : SubmittedVia) (now : Time) :
    Tx ScoreRunRow := do
  let a ← getAttempt id
  let frozen := frozenAttempt a via now
  putAttempt frozen
  ses.announce frozen via
  let run ← ses.score frozen "initial"
  let scoredAt ← ses.now
  putAttempt { frozen with
    status := .scored, scoredAt := some scoredAt, currentScoreRunId := some run.id }
  ses.emit frozen "attempt.scored" (Dict.ofList [("score_run_id", .int run.id)])
  return run

def recordedRun (s : Store) (a : Attempt) : Option ScoreRunRow :=
  if a.status = .submitted ∨ a.status = .scored then s.currentRun a.id else none

/-- A submit that applies `flush` before it freezes. -/
def submitAfter (ses : ExamSession) (flush : Tx Unit) (id : ℕ) (via : SubmittedVia) :
    Tx ScoreRunRow := do
  let now ← ses.now
  let a ← getAttempt id
  if a.status = .voided then Effect.raise voided
  else do
    let store ← Effect.gets World.store
    match recordedRun store a with
    | some run => return run
    | none =>
      flush
      ses.freezeAndScore id via now

def submitPlain (ses : ExamSession) (id : ℕ) (via : SubmittedVia) : Tx ScoreRunRow :=
  ses.submitAfter (pure ()) id via

/-! ## Autosave -/

def saveResult (a : Attempt) (now : Time) (batch : Batch) : SaveResult where
  accepted := batch.accepted
  rejected := batch.rejected
  lastAcceptedSeq := batch.lastSeq
  serverNow := now
  expiresAt := a.expiresAt
  secondsRemaining := remaining a now

def storeDeltas (ses : ExamSession) (a : Attempt) (deltas : List AnswerDelta) (now : Time) :
    Tx SaveResult := do
  let store ← Effect.gets World.store
  let ctx := ses.batchContext store a deltas now
  let batch ← Effect.lift (ctx.process { existing := bySlot (store.answersOf a.id) } deltas)
  flushAnswers a.id batch.pending.values
  return saveResult a now batch

def saveAnswers (ses : ExamSession) (id : ℕ) (deltas : List AnswerDelta) : Tx SaveResult := do
  let now ← ses.now
  let a ← getAttempt id
  if a.status = .voided then Effect.raise voided
  else if a.status = .submitted ∨ a.status = .scored then
    Effect.raise (conflict "This attempt is submitted; answers are frozen." "attempt_frozen")
  else if ses.past a.expiresAt now then do
    -- the sweeper has not run yet; its job is done here rather than accepting late work
    let _ ← ses.submitPlain id .autoExpiry
    Effect.raise (conflict "The attempt deadline has passed." "attempt_expired")
  else ses.storeDeltas a deltas now

def flushFinal (ses : ExamSession) (id : ℕ) (finalAnswers : List AnswerDelta) : Tx Unit :=
  if finalAnswers = [] then pure ()
  else Effect.handle (do let _ ← ses.saveAnswers id finalAnswers; pure ())
    (fun e => if e.isConflict then pure () else Effect.raise e)

def submit (ses : ExamSession) (id : ℕ) (via : SubmittedVia) (finalAnswers : List AnswerDelta) :
    Tx ScoreRunRow :=
  ses.submitAfter (ses.flushFinal id finalAnswers) id via

/-! ## The paper and its sections -/

def payload (id : ℕ) : Tx Json := do
  let a ← getAttempt id
  if a.status = .voided then Effect.raise voided
  else do
    let store ← Effect.gets World.store
    match (store.content.testVersions.get? a.testVersionId).bind TestVersion.snapshot with
    | some snapshot => return snapshot
    | none => Effect.raise (notFound "This test version has no published snapshot.")

def sectionAt (s : Store) (attemptId : ℕ) (position : ℤ) : Option AttemptSection :=
  (s.sectionsOf attemptId).find? (fun r => r.position = position)

def sectionLimit (c : ContentStore) (row : AttemptSection) : Option ℤ :=
  (c.sections.get? row.sectionId).bind TestVersionSection.timeLimitSeconds

def sectionDeadline (c : ContentStore) (a : Attempt) (row : AttemptSection) (now : Time) :
    Option Time :=
  (sectionLimit c row).map (fun limit =>
    match a.expiresAt with
    | some t => min (now + seconds limit) t
    | none => now + seconds limit)

def entered (c : ContentStore) (a : Attempt) (row : AttemptSection) (now : Time) : AttemptSection :=
  { row with
    enteredAt := some now
    expiresAt := (sectionDeadline c a row now).or row.expiresAt }

def complete (attemptId : ℕ) (position : ℤ) (now : Time) (r : AttemptSection) : AttemptSection :=
  if r.attemptId = attemptId ∧ r.position < position ∧ r.enteredAt ≠ none ∧ r.completedAt = none
  then { r with completedAt := some now } else r

@[simp] theorem complete_key (attemptId : ℕ) (position : ℤ) (now : Time) (r : AttemptSection) :
    (complete attemptId position now r).key = r.key := by
  unfold complete
  split <;> rfl

@[simp] theorem complete_attemptId (attemptId : ℕ) (position : ℤ) (now : Time)
    (r : AttemptSection) : (complete attemptId position now r).attemptId = r.attemptId := by
  unfold complete
  split <;> rfl

def enterFirst (a : Attempt) (row : AttemptSection) (position : ℤ) (now : Time) :
    Tx AttemptSection := do
  let store ← Effect.gets World.store
  let row := entered store.content a row now
  setStore (fun s => { s with
    attemptSections := (s.attemptSections.put row).mapRows (complete a.id position now)
      (complete_key a.id position now) })
  return row

def enterRow (a : Attempt) (row : AttemptSection) (position : ℤ) (now : Time) :
    Tx AttemptSection :=
  if row.enteredAt = none then enterFirst a row position now else pure row

def enterSection (ses : ExamSession) (id : ℕ) (position : ℤ) : Tx AttemptSection := do
  let a ← getAttempt id
  let store ← Effect.gets World.store
  match sectionAt store a.id position with
  | none => Effect.raise (notFound "Section not found in this attempt.")
  | some row =>
    let now ← ses.now
    let row ← enterRow a row position now
    if ses.past row.expiresAt now then
      Effect.raise (conflict "This section's time is up." "section_expired")
    else return row

/-! ## Audio -/

def deliveryMediaXid (c : ContentStore) (s : Option TestVersionSection) : Option String := do
  let trackId ← s.bind TestVersionSection.audioTrackId
  let track ← c.audioTracks.get? trackId
  let xid := fun id => (c.mediaAssets.get? id).map MediaAsset.xid
  (track.deliveryMediaId.bind xid).or (track.masterMediaId.bind xid)

structure MediaGrant where
  grant : String
  mediaXid : String
  expiresAt : Time
  playsRemaining : Option ℕ
  deriving DecidableEq

def grantPayload (s : Store) (a : Attempt) (mediaXid : String) (playOnce : Bool) (expires : Time) :
    Obj :=
  Dict.ofList
    [("u", match s.users.get? a.userId with | some u => .str u.xid | none => .null),
      ("m", .str mediaXid), ("p", .str (if playOnce then "exam" else "practice")),
      ("e", .int (truncate (totalSeconds expires))), ("a", .str a.xid)]

def isPlayOnce (s : Option TestVersionSection) (a : Attempt) : Bool :=
  (match s with | some s => s.playOnce | none => false) && a.mode == .exam

def played (row : AttemptSection) (playOnce : Bool) (now : Time) : AttemptSection :=
  { row with
    audioPlayCount := row.audioPlayCount + 1
    audioStartedAt := row.audioStartedAt.or (some now)
    audioLockedAt := if playOnce then some now else row.audioLockedAt }

def audioGrant (ses : ExamSession) (id : ℕ) (position : ℤ) : Tx MediaGrant := do
  let row ← ses.enterSection id position
  let a ← getAttempt id
  let store ← Effect.gets World.store
  let testSection := store.content.sections.get? row.sectionId
  let now ← ses.now
  match deliveryMediaXid store.content testSection with
  | none => Effect.raise (.domain (.notFound "This section has no audio." "section_has_no_audio"))
  | some mediaXid =>
    let playOnce := isPlayOnce testSection a
    if playOnce ∧ row.audioLockedAt ≠ none then
      Effect.raise (conflict "This section's audio has already been played." "audio_already_played")
    else do
      putSection (played row playOnce now)
      let expiresAt := now + seconds ses.mediaGrantTtlSeconds
      return { grant := ses.sign (grantPayload store a mediaXid playOnce expiresAt), mediaXid
               expiresAt, playsRemaining := if playOnce then some 0 else none }

/-! ## The sweeper -/

def due (ses : ExamSession) (s : Store) (now : Time) : List Attempt :=
  (s.attempts.select (fun a => a.status == .inProgress &&
      (match a.expiresAt with | some t => t < now - seconds ses.grace | none => false))).insertionSort
    (fun a b => a.expiresAt.getD 0 ≤ b.expiresAt.getD 0)

def sweepOne (ses : ExamSession) (id : ℕ) : Tx (Option ℕ) := do
  match ← Effect.guarded rollback (ses.submitPlain id .autoExpiry) with
  | .ok _ => return some id
  | .error _ => return none

def autoSubmitExpired (ses : ExamSession) (limit : ℕ) : Tx (List ℕ) := do
  let now ← ses.now
  let store ← Effect.gets World.store
  let swept ← (((ses.due store now).take limit).map Attempt.id).mapM ses.sweepOne
  return swept.reduceOption

end ExamSession

end IeltsHub
