import IeltsHub.ExamRegrade
import IeltsHub.ExamScoringInputs

set_option autoImplicit false

/-!
# Regrade execution

A staged job becomes an impact report, then scores. The affected attempts are walked by id in
batches of at most `chunk`; a batch resolves each test version once, scores every attempt and,
when applied, stores the runs whose mark moved and queues the notices of the bands that moved.
-/
namespace IeltsHub.RegradePlanner
open PyText PyValue PyDict PyTime PlatformErrors QtypesRegistry RowTable ExamScoring ExamModels
  ExamScoringInputs ExamRegrade

inductive Trigger where
  | answerKeyChange | bandMapChange | engineFix | manual
  deriving DecidableEq, Repr

inductive SubjectType where
  | questionVersion | testVersion | bandMapVersion | attempt
  deriving DecidableEq, Repr

inductive JobStatus where
  | planning | ready | running | completed | failed | cancelled
  deriving DecidableEq, Repr

structure Scope where
  fromDate : Option Time := none
  includeCompetitionAttempts : Bool := false
  deriving DecidableEq

structure RegradeJob where
  id : ℕ
  xid : String
  trigger : Trigger := .answerKeyChange
  subjectType : SubjectType := .questionVersion
  subjectId : ℕ := 0
  initiatedBy : ℕ := 0
  scope : Scope := {}
  dryRun : Bool := true
  status : JobStatus := .planning
  attemptsTotal : ℕ := 0
  attemptsProcessed : ℕ := 0
  scoresChanged : ℕ := 0
  bandsChanged : ℕ := 0
  competitionImpact : List CompetitionImpact := []
  report : Option Report := none
  finishedAt : Option Time := none
  deriving DecidableEq

structure Notification where
  userId : ℤ
  channel : String := "in_app"
  template : String
  params : Obj
  dedupeKey : Option String
  deriving DecidableEq

structure Competition where
  id : ℕ
  xid : String
  deriving DecidableEq

inductive Decision where
  | leaveAsIs | regradeAndRepublish
  deriving DecidableEq, Repr

structure CompetitionRegradeDecision where
  competitionId : ℕ
  regradeJobId : ℕ
  decision : Option Decision := none
  deriving DecidableEq

/-- What the planner reads and writes. -/
structure Db where
  exam : Store := {}
  jobs : Table RegradeJob String RegradeJob.xid := .empty
  notifications : List Notification := []
  competitions : Table Competition ℕ Competition.id := .empty
  decisions : List CompetitionRegradeDecision := []

def CHUNK : ℕ := 5000

def reasonForTrigger : Trigger → String
  | .answerKeyChange => "regrade_key"
  | .bandMapChange => "regrade_band_map"
  | .engineFix => "recompute"
  | .manual => "recompute"

/-! ## Selection -/

def subjectOf (s : Store) (job : RegradeJob) (a : Attempt) : Bool :=
  match job.subjectType with
  | .questionVersion => s.scoreRuns.rows.any (fun r =>
      decide (r.attemptId = a.id) && r.isCurrent && s.itemScores.any (fun i =>
        decide (i.scoreRunId = r.id) && decide (i.questionVersionId = job.subjectId)))
  | .testVersion => a.testVersionId = job.subjectId
  | .bandMapVersion => s.content.testVersions.rows.any (fun tv =>
      decide (tv.id = a.testVersionId) && decide (tv.bandMapVersionId = some job.subjectId))
  | .attempt => a.id = job.subjectId

def inScope (scope : Scope) (a : Attempt) : Bool :=
  (match scope.fromDate with
    | none => true
    | some d => a.submittedAt.any (fun t => decide (d ≤ t))) &&
  (scope.includeCompetitionAttempts || a.competitionId.isNone)

/-- A sat attempt the job covers: previews never enter a regrade, and an attempt of a contest
only by the scope a recorded decision re-enters with. -/
def isAffected (s : Store) (job : RegradeJob) (a : Attempt) : Bool :=
  decide (a.mode ≠ .preview) && decide (a.status = .submitted ∨ a.status = .scored) &&
    subjectOf s job a && inScope job.scope a

/-- The affected attempts past `last`, by id. -/
def affectedFrom (s : Store) (job : RegradeJob) (last : ℕ) : List Attempt :=
  (s.attempts.select (fun a => isAffected s job a && decide (last < a.id))).insertionSort
    (fun a b => a.id ≤ b.id)

def nextBatch (chunk : ℕ) (s : Store) (job : RegradeJob) (last : ℕ) : List Attempt :=
  (affectedFrom s job last).take chunk

def affected (s : Store) (job : RegradeJob) : List Attempt := affectedFrom s job 0

/-! ## Recomputing a batch -/

def asValue (run : ScoreRunRow) : ScoreRun where
  attemptXid := ""
  reason := run.reason
  engineVersion := run.engineVersion
  bandMapXid := (run.bandMapVersionId.filter (· ≠ 0)).map toString
  keyVersions := run.keyVersions
  rawScore := run.rawScore
  maxRaw := run.maxRaw
  band := run.band
  perSection := run.perSection
  itemScores := []

/-- What the loop over a batch has loaded. -/
structure Loaded where
  byVersion : Dict ℕ ScoringInputs := Dict.empty
  inputs : List AttemptInput := []
  previous : Dict String ScoreRun := Dict.empty
  keys : Dict String KeyVersion := Dict.empty

def inputsFor (s : Store) (byVersion : Dict ℕ ScoringInputs) (testVersionId : ℕ) :
    Except Raised ScoringInputs :=
  match byVersion.get? testVersionId with
  | some inputs => .ok inputs
  | none => scoringInputs s.content testVersionId

def loadAttempt (s : Store) (l : Loaded) (a : Attempt) : Except Raised Loaded :=
  (fun (inputs : ScoringInputs) =>
    { byVersion := l.byVersion.setDefault a.testVersionId inputs
      inputs := l.inputs ++ [attemptInput a inputs.items (responsesOf (s.answersOf a.id))]
      previous := match s.currentRun a.id with
        | none => l.previous
        | some run => l.previous.put a.xid (asValue run)
      keys := l.keys.update inputs.keys }) <$> inputsFor s l.byVersion a.testVersionId

def Loaded.bandMap (l : Loaded) : Option BandMap := l.byVersion.values.findSome? ScoringInputs.bandMap

def recompute (s : Store) (attempts : List Attempt) (scorer : Scorer) (reason : String) :
    Except Raised RegradeImpact := do
  let l ← attempts.foldlM (loadAttempt s) {}
  ExamRegrade.plan l.inputs l.previous l.keys scorer l.bandMap reason

def absorb (total batch : RegradeImpact) : RegradeImpact where
  attemptsTotal := total.attemptsTotal + batch.attemptsTotal
  scoresChanged := total.scoresChanged + batch.scoresChanged
  bandsChanged := total.bandsChanged + batch.bandsChanged
  improved := total.improved + batch.improved
  worsened := total.worsened + batch.worsened
  deltas := total.deltas ++ batch.deltas.filter AttemptDelta.bandChanged
  competitionImpact := total.competitionImpact ++ batch.competitionImpact

def lastId (batch : List Attempt) (last : ℕ) : ℕ := (batch.getLast?.map Attempt.id).getD last

/-! ## The dry run -/

/-- `fuel` bounds the batches; each takes an attempt at least. -/
def planFrom (chunk : ℕ) (s : Store) (job : RegradeJob) (scorer : Scorer) :
    ℕ → ℕ → RegradeImpact → Except Raised RegradeImpact
  | 0, _, total => .ok total
  | fuel + 1, last, total =>
    let batch := nextBatch chunk s job last
    if batch = [] then .ok total
    else do
      let impact ← recompute s batch scorer "regrade_dry_run"
      planFrom chunk s job scorer fuel (lastId batch last) (absorb total impact)

def batchBound (s : Store) : ℕ := s.attempts.rows.length + 1

def finishPlanning (job : RegradeJob) (impact : RegradeImpact) : RegradeJob :=
  { job with
    attemptsTotal := impact.attemptsTotal, scoresChanged := impact.scoresChanged
    bandsChanged := impact.bandsChanged, competitionImpact := impact.asDict.competitionImpact
    report := some impact.asDict, status := .ready }

def plan (chunk : ℕ) (db : Db) (job : RegradeJob) (scorer : Scorer) : Except Raised Db := do
  let total ← planFrom chunk db.exam job scorer (batchBound db.exam) 0 {}
  return { db with jobs := db.jobs.put (finishPlanning job total) }

/-! ## The commit -/

def recordRun (runId : ℕ) (attemptId : ℕ) (now : Time) (a : Attempt) : Attempt :=
  if a.id = attemptId then { a with currentScoreRunId := some runId, scoredAt := some now } else a

@[simp] theorem recordRun_id (runId attemptId : ℕ) (now : Time) (a : Attempt) :
    (recordRun runId attemptId now a).id = a.id := by
  unfold recordRun
  split <;> rfl

def persist (s : Store) (attemptId : ℕ) (run : ScoreRun) (job : RegradeJob) (now : Time) :
    Except Raised Store :=
  (fun (out : Store × ScoreRunRow) =>
    { out.1 with
      attempts := out.1.attempts.mapRows (recordRun out.2.id attemptId now)
        (recordRun_id out.2.id attemptId now) }) <$>
    addRun s run attemptId (some job.id) (some job.initiatedBy) now

def attemptIds (batch : List Attempt) : Dict String ℕ :=
  Dict.ofList (batch.map (fun a => (a.xid, a.id)))

def persistRun (batch : List Attempt) (job : RegradeJob) (now : Time) (s : Store)
    (run : ScoreRun) : Except Raised Store :=
  match (attemptIds batch).get? run.attemptXid with
  | none => .error (.keyError run.attemptXid)
  | some id => persist s id run job now

def notify (job : RegradeJob) (stored : List Notification) (notice : Notice) :
    Except Raised (List Notification) :=
  (fun userId =>
    if stored.any (fun n => decide (n.dedupeKey = some notice.dedupeKey)) then stored
    else stored ++
      [{ userId, template := notice.template
         params := notice.params.put "regrade_job_xid" (.str job.xid)
         dedupeKey := some notice.dedupeKey }]) <$> intOfText notice.userXid

def decidedCompetitions (db : Db) (job : RegradeJob) : List String :=
  (db.decisions.filter (fun d => decide (d.regradeJobId = job.id) && d.decision.isSome)).filterMap
    (fun d => (db.competitions.get? d.competitionId).map Competition.xid)

def applyBatch (db : Db) (job : RegradeJob) (scorer : Scorer) (decided : List String)
    (shown : ScoreRun → String) (now : Time) (batch : List Attempt) :
    Except Raised (Db × RegradeImpact × ℕ) := do
  let impact ← recompute db.exam batch scorer (reasonForTrigger job.trigger)
  let runs ← ExamRegrade.apply impact decided
  let exam ← runs.foldlM (persistRun batch job now) db.exam
  let notifications ← (notificationsFor shown impact).foldlM (notify job) db.notifications
  return ({ db with exam, notifications }, impact, runs.length)

def applyFrom (chunk : ℕ) (job : RegradeJob) (scorer : Scorer) (decided : List String)
    (shown : ScoreRun → String) (now : Time) :
    ℕ → ℕ → Db → RegradeImpact → ℕ → Except Raised (Db × RegradeImpact × ℕ)
  | 0, _, db, total, written => .ok (db, total, written)
  | fuel + 1, last, db, total, written =>
    let batch := nextBatch chunk db.exam job last
    if batch = [] then .ok (db, total, written)
    else do
      let out ← applyBatch db job scorer decided shown now batch
      applyFrom chunk job scorer decided shown now fuel (lastId batch last) out.1
        (absorb total out.2.1) (written + out.2.2)

def finishApply (job : RegradeJob) (total : RegradeImpact) (now : Time) : RegradeJob :=
  { job with
    status := .completed, dryRun := false, attemptsProcessed := total.attemptsTotal
    scoresChanged := total.scoresChanged, bandsChanged := total.bandsChanged
    finishedAt := some now, report := some total.asDict }

def apply (chunk : ℕ) (db : Db) (job : RegradeJob) (scorer : Scorer) (shown : ScoreRun → String)
    (now : Time) : Except Raised (Db × ℕ) := do
  let out ← applyFrom chunk job scorer (decidedCompetitions db job) shown now
    (batchBound db.exam) 0 db {} 0
  return ({ out.1 with jobs := out.1.jobs.put (finishApply job out.2.1 now) }, out.2.2)

end IeltsHub.RegradePlanner
