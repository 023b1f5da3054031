import IeltsHub.ContentModels
import IeltsHub.ExamScoring
import IeltsHub.RaisingState

set_option autoImplicit false

/-!
# The exam tables

The rows an exam session reads and writes, and the database they stand in. `score_runs` and
`item_scores` keep marks in `numeric` columns, which round and may refuse a value.
-/
namespace IeltsHub.ExamModels
open PyValue PyDict PyTime PlatformErrors RowTable ContentModels ExamScoring

inductive AttemptStatus where
  | issued | inProgress | submitted | scored | abandoned | voided
  deriving DecidableEq, Repr

inductive AttemptMode where
  | exam | practice | preview
  deriving DecidableEq, Repr

def AttemptMode.text : AttemptMode → String
  | .exam => "exam"
  | .practice => "practice"
  | .preview => "preview"

inductive SubmittedVia where
  | user | autoExpiry | admin
  deriving DecidableEq, Repr

structure Attempt where
  id : ℕ
  xid : String
  userId : ℕ := 0
  testVersionId : ℕ := 0
  competitionId : Option ℕ := none
  mode : AttemptMode := .exam
  status : AttemptStatus := .issued
  expiresAt : Option Time := none
  submittedAt : Option Time := none
  scoredAt : Option Time := none
  submittedVia : Option SubmittedVia := none
  lateByMs : Option ℤ := none
  currentScoreRunId : Option ℕ := none
  deriving DecidableEq

/-- Where play-once is enforced: `audio_locked_at` closes the door. -/
structure AttemptSection where
  attemptId : ℕ
  sectionId : ℕ
  position : ℤ := 1
  enteredAt : Option Time := none
  expiresAt : Option Time := none
  completedAt : Option Time := none
  audioPlayCount : ℤ := 0
  audioStartedAt : Option Time := none
  audioLockedAt : Option Time := none
  deriving DecidableEq

def AttemptSection.key (r : AttemptSection) : ℕ × ℕ := (r.attemptId, r.sectionId)

/-- The unique index of `attempt_answers`: attempt, question version, slot. -/
abbrev AnswerKey := ℕ × ℕ × String

structure AttemptAnswer where
  attemptId : ℕ
  questionVersionId : ℕ
  slotKey : String
  response : Json := .null
  revision : ℤ := 1
  clientSeq : Option ℤ := none
  clientTs : Option Time := none
  firstAnsweredAt : Time
  updatedAt : Time
  timeSpentMs : ℤ := 0
  deriving DecidableEq

def AttemptAnswer.key (a : AttemptAnswer) : AnswerKey := (a.attemptId, a.questionVersionId, a.slotKey)

/-- Immutable but for `is_current`: a regrade inserts a new run and supersedes the old one. -/
structure ScoreRunRow where
  id : ℕ
  attemptId : ℕ
  reason : String := "initial"
  regradeJobId : Option ℕ := none
  engineVersion : String
  bandMapVersionId : Option ℤ := none
  keyVersions : Dict String String
  rawScore : ℚ
  maxRaw : ℚ
  band : Option ℚ := none
  perSection : Dict String (ℚ × Option ℚ)
  isCurrent : Bool := true
  computedAt : Time
  computedBy : Option ℕ := none
  deriving DecidableEq

structure ItemScoreRow where
  scoreRunId : ℕ
  questionId : ℕ
  questionVersionId : ℤ
  answerKeyVersionId : Option ℤ
  slot : QtypesSchemas.SlotScore
  deriving DecidableEq

structure Outbox where
  aggregateType : String
  aggregateId : String
  eventType : String
  payload : Obj
  createdAt : Time
  availableAt : Time
  deriving DecidableEq

structure User where
  id : ℕ
  xid : String
  deriving DecidableEq

structure Store where
  content : ContentStore := {}
  users : Table User ℕ User.id := .empty
  attempts : Table Attempt ℕ Attempt.id := .empty
  attemptSections : Table AttemptSection (ℕ × ℕ) AttemptSection.key := .empty
  answers : Table AttemptAnswer AnswerKey AttemptAnswer.key := .empty
  scoreRuns : Table ScoreRunRow ℕ ScoreRunRow.id := .empty
  itemScores : List ItemScoreRow := []
  outbox : List Outbox := []

namespace Store

def sectionsOf (s : Store) (attempt : ℕ) : List AttemptSection :=
  s.attemptSections.select (fun r => r.attemptId = attempt)

def answersOf (s : Store) (attempt : ℕ) : List AttemptAnswer :=
  s.answers.select (fun r => r.attemptId = attempt)

def runsOf (s : Store) (attempt : ℕ) : List ScoreRunRow :=
  s.scoreRuns.select (fun r => r.attemptId = attempt)

def currentRun (s : Store) (attempt : ℕ) : Option ScoreRunRow :=
  (s.runsOf attempt).find? ScoreRunRow.isCurrent

def eventsOf (s : Store) (attempt : ℕ) : List Outbox :=
  s.outbox.filter (fun e => e.payload.get? "attempt_id" = some (.int attempt))

end Store

/-- A value in a `numeric(precision, scale)` column: rounded, ties away from zero, and refused
where it has too many digits before the point. -/
def numeric (precision scale : ℕ) (q : ℚ) : Except Raised ℚ :=
  let stored := roundHalfUp (q * 10 ^ scale) / 10 ^ scale
  if |stored| < 10 ^ (precision - scale) then .ok stored
  else .error (.domain (.integrity "numeric field overflow"))

/-- `str(id)`. -/
def str (id : ℕ) : String := toString id

theorem str_injective {m n : ℕ} (h : str m = str n) : m = n := by
  have hd : Nat.toDigits 10 m = Nat.toDigits 10 n := by
    have h : (toString m).toList = (toString n).toList := congrArg String.toList h
    simpa [Nat.toString_eq_ofList_toDigits] using h
  rw [← Nat.ofDigitChars_toDigits (b := 10) (n := m) (by decide) (by decide), hd,
    Nat.ofDigitChars_toDigits (by decide) (by decide)]

end IeltsHub.ExamModels
