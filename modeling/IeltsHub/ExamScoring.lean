import IeltsHub.QtypesRegistry

set_option autoImplicit false

/-!
# Attempt scoring

`score = f(responses, key_versions, band_map_version, engine_version)`: one pass over the items
with the totals of the paper and of each skill as accumulators. Marks are exact rationals.
-/
namespace IeltsHub.ExamScoring
open PyExc PyValue PyDict PlatformErrors QtypesSchemas QtypesRegistry

structure ItemInput where
  questionXid : String
  questionVersionXid : String
  typeKey : String
  typeVersion : ℤ
  payload : Obj
  slotKeys : List String
  skill : String
  group : GroupRules := {}
  paragraphLabels : List String := []

structure KeyVersion where
  xid : String
  key : Obj
  tolerance : Obj := Dict.empty

structure AttemptInput where
  attemptXid : String
  userXid : String
  items : List ItemInput
  responses : Dict String Json
  competitionXid : Option String := none
  mode : String := "exam"

structure BandMap where
  xid : String
  maxRaw : ℤ
  rows : List (ℤ × ℤ × ℚ)
  deriving DecidableEq

/-- `ROUND_HALF_UP`: a tie goes away from zero. -/
def roundHalfUp (q : ℚ) : ℤ := if 0 ≤ q then ⌊q + 1 / 2⌋ else -⌊-q + 1 / 2⌋

def BandMap.bandFor (m : BandMap) (raw : ℚ) : Option ℚ :=
  let whole := roundHalfUp raw
  (m.rows.find? (fun r => r.1 ≤ whole ∧ whole ≤ r.2.1)).map (fun r => r.2.2)

/-- Immutable: a regrade inserts a new run and supersedes the old one. -/
structure ScoreRun where
  attemptXid : String
  reason : String
  engineVersion : String
  bandMapXid : Option String
  keyVersions : Dict String String
  rawScore : ℚ
  maxRaw : ℚ
  band : Option ℚ
  perSection : Dict String (ℚ × Option ℚ)
  itemScores : List (String × ItemScore)
  deriving DecidableEq

def bandOf (bandMap : Option BandMap) (raw : ℚ) : Option ℚ := bandMap.bind (fun m => m.bandFor raw)

structure Tally where
  raw : ℚ := 0
  maximum : ℚ := 0
  perSkill : Dict String (List ℚ) := Dict.empty
  perSkillMax : Dict String ℚ := Dict.empty
  itemScores : List (String × ItemScore) := []
  usedKeys : Dict String String := Dict.empty

def voidScore (item : ItemInput) : ItemScore :=
  ⟨item.slotKeys.map (fun slot =>
    { slotKey := slot, awarded := 0, maxPoints := 1, verdict := .void
      explain := Dict.ofList [("reason", .str "no_answer_key")] })⟩

def scoreRequest (item : ItemInput) (keyVersion : KeyVersion) (response : Json) : ScoreRequest where
  typeKey := item.typeKey
  typeVersion := item.typeVersion
  payload := item.payload
  key := keyVersion.key
  response := response
  group := item.group
  tolerance := keyVersion.tolerance
  paragraphLabels := item.paragraphLabels

def addSkillMax (t : Tally) (skill : String) (points : ℚ) : Dict String ℚ :=
  t.perSkillMax.put skill ((t.perSkillMax.get? skill).getD 0 + points)

def scoreStep (scorer : Scorer) (keys : Dict String KeyVersion) (responses : Dict String Json)
    (t : Tally) (item : ItemInput) : Except Raised Tally :=
  match keys.get? item.questionVersionXid with
  | none => .ok
      { t with
        maximum := t.maximum + item.slotKeys.length
        perSkill := t.perSkill.setDefault item.skill []
        perSkillMax := addSkillMax t item.skill item.slotKeys.length
        itemScores := t.itemScores ++ [(item.questionVersionXid, voidScore item)] }
  | some keyVersion => do
    let score ← scorer.scoreItem
      (scoreRequest item keyVersion ((responses.get? item.questionVersionXid).getD .null))
    .ok
      { raw := t.raw + score.awarded
        maximum := t.maximum + score.maxPoints
        perSkill := t.perSkill.put item.skill
          ((t.perSkill.get? item.skill).getD [] ++ [score.awarded])
        perSkillMax := addSkillMax t item.skill score.maxPoints
        itemScores := t.itemScores ++ [(item.questionVersionXid, score)]
        usedKeys := t.usedKeys.put item.questionVersionXid keyVersion.xid }

def perSection (t : Tally) (bandMap : Option BandMap) : Dict String (ℚ × Option ℚ) :=
  Dict.ofList (t.perSkill.entries.map (fun e =>
    (e.1, (e.2.sum, if (t.perSkillMax.get? e.1).getD 0 = t.maximum then bandOf bandMap e.2.sum
      else none))))

def finishRun (attempt : AttemptInput) (scorer : Scorer) (bandMap : Option BandMap)
    (reason : String) (t : Tally) : ScoreRun where
  attemptXid := attempt.attemptXid
  reason := reason
  engineVersion := scorer.engineVersion
  bandMapXid := bandMap.map BandMap.xid
  keyVersions := t.usedKeys
  rawScore := t.raw
  maxRaw := t.maximum
  band := bandOf bandMap t.raw
  perSection := perSection t bandMap
  itemScores := t.itemScores

def scoreAttempt (attempt : AttemptInput) (keys : Dict String KeyVersion) (scorer : Scorer)
    (bandMap : Option BandMap) (reason : String) : Except Raised ScoreRun :=
  finishRun attempt scorer bandMap reason <$>
    attempt.items.foldlM (scoreStep scorer keys attempt.responses) {}

/-! ## The pass as a sum -/

def scoreOne (scorer : Scorer) (keys : Dict String KeyVersion) (responses : Dict String Json)
    (item : ItemInput) : Except Raised ItemScore :=
  match keys.get? item.questionVersionXid with
  | none => .ok (voidScore item)
  | some keyVersion => scorer.scoreItem
      (scoreRequest item keyVersion ((responses.get? item.questionVersionXid).getD .null))

@[simp] theorem voidScore_awarded (item : ItemInput) : (voidScore item).awarded = 0 := by
  simp [voidScore, ItemScore.awarded, Function.comp_def]

@[simp] theorem voidScore_maxPoints (item : ItemInput) :
    (voidScore item).maxPoints = item.slotKeys.length := by
  simp [voidScore, ItemScore.maxPoints, Function.comp_def]

theorem scoreStep_eq_ok {scorer : Scorer} {keys : Dict String KeyVersion}
    {responses : Dict String Json} {t t' : Tally} {item : ItemInput}
    (h : scoreStep scorer keys responses t item = .ok t') :
    ∃ score, scoreOne scorer keys responses item = .ok score ∧
      t'.raw = t.raw + score.awarded ∧ t'.maximum = t.maximum + score.maxPoints ∧
      t'.itemScores = t.itemScores ++ [(item.questionVersionXid, score)] := by
  unfold scoreStep at h
  unfold scoreOne
  cases hk : keys.get? item.questionVersionXid with
  | none =>
    simp only [hk] at h
    cases h
    exact ⟨voidScore item, rfl, by simp, by simp, rfl⟩
  | some kv =>
    simp only [hk] at h
    obtain ⟨score, hscore, h⟩ := bind_eq_ok.1 h
    cases h
    exact ⟨score, hscore, rfl, rfl, rfl⟩

theorem returns_scoreStep {scorer : Scorer} {keys : Dict String KeyVersion}
    {responses : Dict String Json} {t : Tally} {item : ItemInput} :
    Returns (scoreStep scorer keys responses t item) ↔
      Returns (scoreOne scorer keys responses item) := by
  unfold scoreStep scoreOne
  cases hk : keys.get? item.questionVersionXid with
  | none => exact iff_of_true (returns_ok _) (returns_ok _)
  | some kv =>
    constructor
    · intro h
      obtain ⟨score, hscore, _⟩ := returns_bind.1 h
      exact ⟨score, hscore⟩
    · rintro ⟨score, hscore⟩
      exact returns_bind.2 ⟨score, hscore, returns_pure _⟩

theorem foldlM_scoreStep {scorer : Scorer} {keys : Dict String KeyVersion}
    {responses : Dict String Json} {items : List ItemInput} {t t' : Tally}
    (h : items.foldlM (scoreStep scorer keys responses) t = .ok t') :
    ∃ scores, items.mapM (scoreOne scorer keys responses) = .ok scores ∧
      t'.raw = t.raw + (scores.map ItemScore.awarded).sum ∧
      t'.maximum = t.maximum + (scores.map ItemScore.maxPoints).sum ∧
      t'.itemScores = t.itemScores ++ (items.map ItemInput.questionVersionXid).zip scores := by
  induction items generalizing t with
  | nil =>
    cases h
    exact ⟨[], rfl, by simp, by simp, by simp⟩
  | cons item items ih =>
    rw [List.foldlM_cons] at h
    obtain ⟨u, hu, h⟩ := bind_eq_ok.1 h
    obtain ⟨score, hscore, hraw, hmax, hitems⟩ := scoreStep_eq_ok hu
    obtain ⟨scores, hscores, hraw', hmax', hitems'⟩ := ih h
    refine ⟨score :: scores, mapM_cons_eq_ok.2 ⟨score, scores, hscore, hscores, rfl⟩, ?_, ?_, ?_⟩
    · rw [hraw', hraw, List.map_cons, List.sum_cons, add_assoc]
    · rw [hmax', hmax, List.map_cons, List.sum_cons, add_assoc]
    · rw [hitems', hitems]
      simp

theorem returns_foldlM_scoreStep {scorer : Scorer} {keys : Dict String KeyVersion}
    {responses : Dict String Json} {items : List ItemInput} {t : Tally} :
    Returns (items.foldlM (scoreStep scorer keys responses) t) ↔
      ∀ item ∈ items, Returns (scoreOne scorer keys responses item) := by
  induction items generalizing t with
  | nil => exact iff_of_true ⟨t, rfl⟩ (by simp)
  | cons item items ih =>
    rw [List.foldlM_cons, returns_bind, List.forall_mem_cons, ← returns_scoreStep (t := t)]
    constructor
    · rintro ⟨u, hu, h⟩
      exact ⟨⟨u, hu⟩, ih.1 h⟩
    · rintro ⟨⟨u, hu⟩, h⟩
      exact ⟨u, hu, ih.2 h⟩

theorem scoreAttempt_eq_ok {attempt : AttemptInput} {keys : Dict String KeyVersion}
    {scorer : Scorer} {bandMap : Option BandMap} {reason : String} {run : ScoreRun}
    (h : scoreAttempt attempt keys scorer bandMap reason = .ok run) :
    ∃ scores, attempt.items.mapM (scoreOne scorer keys attempt.responses) = .ok scores ∧
      run.rawScore = (scores.map ItemScore.awarded).sum ∧
      run.maxRaw = (scores.map ItemScore.maxPoints).sum ∧
      run.band = bandOf bandMap run.rawScore := by
  unfold scoreAttempt at h
  obtain ⟨t, ht, h⟩ := map_eq_ok.1 h
  obtain ⟨scores, hscores, hraw, hmax, _⟩ := foldlM_scoreStep ht
  subst h
  refine ⟨scores, hscores, ?_, ?_, rfl⟩
  · change t.raw = _
    rw [hraw, zero_add]
  · change t.maximum = _
    rw [hmax, zero_add]

theorem returns_scoreAttempt {attempt : AttemptInput} {keys : Dict String KeyVersion}
    {scorer : Scorer} {bandMap : Option BandMap} {reason : String} :
    Returns (scoreAttempt attempt keys scorer bandMap reason) ↔
      ∀ item ∈ attempt.items, Returns (scoreOne scorer keys attempt.responses item) := by
  unfold scoreAttempt
  rw [returns_map, returns_foldlM_scoreStep]

end IeltsHub.ExamScoring
