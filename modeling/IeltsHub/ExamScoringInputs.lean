import IeltsHub.ContentComposition
import IeltsHub.ExamModels

set_option autoImplicit false

/-!
# What an attempt is scored from

The items of a paper in printed order, the current keys of its questions and the band map of its
test version, resolved from the content tables; the stored answers as the scorer reads them; and
the rows a computed run is stored as.
-/
namespace IeltsHub.ExamScoringInputs
open PyText PyValue PyDict PyTime PlatformErrors QtypesSchemas QtypesRegistry ContentModels
  ExamScoring ContentComposition ExamModels

/-- A question where it stands on a paper: one row of the join. -/
structure Placed where
  questionVersion : QuestionVersion
  groupVersion : QuestionGroupVersion
  testSection : TestVersionSection
  question : Question
  group : TestVersionGroup
  item : QuestionGroupItem

def Placed.before (a b : Placed) : Prop :=
  a.testSection.position < b.testSection.position ∨
    (a.testSection.position = b.testSection.position ∧
      (a.group.position < b.group.position ∨
        (a.group.position = b.group.position ∧ a.item.position ≤ b.item.position)))

instance : DecidableRel Placed.before := fun _ _ => inferInstanceAs (Decidable (_ ∨ _))

def placedIn (c : ContentStore) (s : TestVersionSection) : List Placed :=
  (c.groups.select (fun g => g.sectionId = s.id)).flatMap fun g =>
    (c.groupVersions.get? g.groupVersionId).toList.flatMap fun gv =>
      (c.groupItems.select (fun i => i.groupVersionId = gv.id)).flatMap fun i =>
        (c.questionVersions.get? i.questionVersionId).toList.flatMap fun qv =>
          (c.questions.get? qv.questionId).toList.map fun q => ⟨qv, gv, s, q, g, i⟩

def placed (c : ContentStore) (testVersionId : ℕ) : List Placed :=
  (c.sections.select (fun s => s.testVersionId = testVersionId)).flatMap (placedIn c)

def Placed.rules (p : Placed) : Except Raised GroupRules :=
  GroupRules.fromDict (Dict.ofList
    [("word_limit", p.groupVersion.wordLimit),
      ("option_bank", if truthy p.groupVersion.optionBank then p.groupVersion.optionBank
        else .arr []),
      ("unique_options", getD p.groupVersion.display "unique_options" .null)])

def Placed.itemInput (p : Placed) : Except Raised ItemInput :=
  (fun group =>
    { questionXid := str p.question.id
      questionVersionXid := str p.questionVersion.id
      typeKey := p.questionVersion.typeKey
      typeVersion := p.questionVersion.typeVersion
      payload := p.questionVersion.payload
      slotKeys := p.questionVersion.slotKeys
      skill := p.testSection.skill
      group }) <$> p.rules

def keyEntry (k : AnswerKeyVersion) : String × KeyVersion :=
  (str k.questionVersionId, { xid := str k.id, key := k.key, tolerance := k.tolerance })

def currentKeys (c : ContentStore) (ids : List ℕ) : Dict String KeyVersion :=
  Dict.ofList ((c.answerKeys.select
    (fun k => decide (k.questionVersionId ∈ ids) && k.isCurrent)).map keyEntry)

def bandMapVersion (c : ContentStore) (testVersionId : ℕ) : Option BandMapVersion := do
  let tv ← c.testVersions.get? testVersionId
  let id ← tv.bandMapVersionId
  if id = 0 then none else c.bandMaps.get? id

def bandMapOf (b : BandMapVersion) : Except Raised BandMap :=
  (fun rows => { xid := str b.id, maxRaw := b.maxRaw, rows }) <$> b.mapping.mapM bandRow

structure ScoringInputs where
  items : List ItemInput
  keys : Dict String KeyVersion
  bandMap : Option BandMap

def scoringInputs (c : ContentStore) (testVersionId : ℕ) : Except Raised ScoringInputs := do
  let rows := (placed c testVersionId).insertionSort Placed.before
  let items ← rows.mapM Placed.itemInput
  let keys := currentKeys c (rows.map (fun p => p.questionVersion.id))
  let bandMap ← (bandMapVersion c testVersionId).mapM bandMapOf
  return { items, keys, bandMap }

def slotsOf (answers : List AttemptAnswer) : Dict String Obj :=
  answers.foldl (fun d a => d.put (str a.questionVersionId)
    (((d.get? (str a.questionVersionId)).getD Dict.empty).put a.slotKey a.response)) Dict.empty

def responsesOf (answers : List AttemptAnswer) : Dict String Json :=
  (slotsOf answers).mapValues (fun slots => .obj [("slots", .obj slots.entries)])

def competitionXid (a : Attempt) : Option String := (a.competitionId.filter (· ≠ 0)).map str

def attemptInput (a : Attempt) (items : List ItemInput) (responses : Dict String Json) :
    AttemptInput where
  attemptXid := a.xid
  userXid := str a.userId
  items := items
  responses := responses
  competitionXid := competitionXid a
  mode := a.mode.text

def computeRun (scorer : Scorer) (s : Store) (a : Attempt) (reason : String) :
    Except Raised ScoreRun := do
  let inputs ← scoringInputs s.content a.testVersionId
  scoreAttempt (attemptInput a inputs.items (responsesOf (s.answersOf a.id))) inputs.keys scorer
    inputs.bandMap reason

/-! ## The rows of a run -/

def runRow (run : ScoreRun) (id attemptId : ℕ) (job initiator : Option ℕ) (now : Time) :
    Except Raised ScoreRunRow := do
  let bandMapVersionId ← run.bandMapXid.mapM intOfText
  let rawScore ← numeric 7 2 run.rawScore
  let maxRaw ← numeric 7 2 run.maxRaw
  let band ← run.band.mapM (numeric 2 1)
  return { id, attemptId, reason := run.reason, regradeJobId := job
           engineVersion := run.engineVersion, bandMapVersionId, keyVersions := run.keyVersions
           rawScore, maxRaw, band, perSection := run.perSection, isCurrent := true
           computedAt := now, computedBy := initiator }

def itemScoreRow (c : ContentStore) (run : ScoreRun) (runId : ℕ) (qvXid : String)
    (slot : SlotScore) : Except Raised ItemScoreRow := do
  let questionVersionId ← intOfText qvXid
  let answerKeyVersionId ← (run.keyVersions.get? qvXid).mapM intOfText
  let awarded ← numeric 6 2 slot.awarded
  let maxPoints ← numeric 6 2 slot.maxPoints
  let questionId := ((c.questionVersions.get? questionVersionId.toNat).map
    QuestionVersion.questionId).getD 0
  return { scoreRunId := runId, questionId, questionVersionId, answerKeyVersionId
           slot := { slot with awarded, maxPoints } }

def itemScoreRows (c : ContentStore) (run : ScoreRun) (runId : ℕ) :
    Except Raised (List ItemScoreRow) :=
  (run.itemScores.flatMap (fun e => e.2.slots.map (fun slot => (e.1, slot)))).mapM
    (fun e => itemScoreRow c run runId e.1 e.2)

def demote (attemptId : ℕ) (r : ScoreRunRow) : ScoreRunRow :=
  if r.attemptId = attemptId ∧ r.isCurrent = true then { r with isCurrent := false } else r

@[simp] theorem demote_id (attemptId : ℕ) (r : ScoreRunRow) : (demote attemptId r).id = r.id := by
  unfold demote
  split <;> rfl

@[simp] theorem demote_attemptId (attemptId : ℕ) (r : ScoreRunRow) :
    (demote attemptId r).attemptId = r.attemptId := by
  unfold demote
  split <;> rfl

theorem demote_of_ne {attemptId : ℕ} {r : ScoreRunRow} (h : r.attemptId ≠ attemptId) :
    demote attemptId r = r := by
  unfold demote
  rw [if_neg (fun q => h q.1)]

def addRun (s : Store) (run : ScoreRun) (attemptId : ℕ) (job initiator : Option ℕ)
    (now : Time) : Except Raised (Store × ScoreRunRow) := do
  let runs := s.scoreRuns.mapRows (demote attemptId) (demote_id attemptId)
  let row ← runRow run runs.nextId attemptId job initiator now
  let items ← itemScoreRows s.content run row.id
  return ({ s with scoreRuns := runs.put row, itemScores := s.itemScores ++ items }, row)

def onePage : ContentStore where
  testVersions := .put .empty { id := 1, xid := "tv1", bandMapVersionId := some 1 }
  sections := .put .empty { id := 1, testVersionId := 1, audioTrackId := some 1 }
  groups := .put .empty { id := 1, sectionId := 1, groupVersionId := 1 }
  groupVersions := .put .empty { id := 1 }
  groupItems := .put .empty { id := 1, groupVersionId := 1, questionVersionId := 1 }
  questions := .put .empty { id := 1 }
  questionVersions := .put .empty
    { id := 1, xid := "qv1", questionId := 1, typeKey := "short_answer", slotKeys := ["s1"] }
  answerKeys := .put .empty
    { id := 1, questionVersionId := 1
      key := Dict.ofList [("slots", .obj [("s1", .obj [("accept", .arr [.str "2"])])])] }
  bandMaps := .put .empty
    { id := 1, maxRaw := 1
      mapping := [.obj [("raw_min", .int 0), ("raw_max", .int 0), ("band", .int 4)],
        .obj [("raw_min", .int 1), ("raw_max", .int 1), ("band", .int 5)]] }
  audioTracks := .put .empty { id := 1, deliveryMediaId := some 1 }
  mediaAssets := .put .empty { id := 1, xid := "m1" }

example : ((scoringInputs onePage 1).map (fun i =>
    (i.items.map ItemInput.questionVersionXid, i.keys.keys, i.bandMap.map BandMap.xid))).toOption =
      some (["1"], ["1"], some "1") := by decide +kernel

end IeltsHub.ExamScoringInputs
