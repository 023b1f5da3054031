import IeltsHub.CivilCalendar
import IeltsHub.ExamModels
import IeltsHub.FirstSeenGroups
import IeltsHub.UpsertTables

set_option autoImplicit false

/-!
# Item statistics

`analyse` of `analytics/stats.py` and `refresh_item_stats` of `analytics/projections.py`. The query
folds the slots of an item into one row a run; the rows are grouped by item, key version and scope
and each group is written to the table by an upsert whose key names the item and the scope alone.
-/
namespace IeltsHub.ItemStatistics
open PyText PyTime RowTable QtypesSchemas FirstSeenGroups UpsertTables
open CivilCalendar (Date epoch)
open ExamModels (AttemptMode)

/-! ## The tables it reads -/

abbrev OrgId := ℕ+

structure Attempt where
  id : ℕ
  userId : ℕ
  orgContextId : Option OrgId := none
  mode : AttemptMode := .exam
  submittedAt : Option Time := none
  deriving DecidableEq

structure ScoreRun where
  id : ℕ
  attemptId : ℕ
  rawScore : ℚ := 0
  isCurrent : Bool := true
  deriving DecidableEq

structure ItemScore where
  scoreRunId : ℕ
  questionId : ℕ
  questionVersionId : ℕ
  answerKeyVersionId : Option ℕ := none
  verdict : Verdict
  rawResponse : Option String := none
  deriving DecidableEq

/-- A run scores the slots of a version under one key, and a version belongs to one question. -/
structure Source where
  questionOf : ℕ → ℕ
  attempts : Table Attempt ℕ Attempt.id := .empty
  runs : Table ScoreRun ℕ ScoreRun.id := .empty
  itemScores : List ItemScore := []
  question : ∀ s ∈ itemScores, s.questionId = questionOf s.questionVersionId
  oneKey : ∀ s ∈ itemScores, ∀ s' ∈ itemScores, s.scoreRunId = s'.scoreRunId →
    s.questionVersionId = s'.questionVersionId → s.answerKeyVersionId = s'.answerKeyVersionId

/-! ## The arithmetic of one group -/

structure Response where
  userXid : String
  correct : Bool
  totalScore : ℚ
  rawResponse : Option String := none
  deriving DecidableEq

/-- What double arithmetic makes of a share and of the point-biserial correlation, and which text
the collation of the database puts last. -/
structure Numerics where
  share : ℕ → ℕ → ℚ
  pointBiserial : List Response → Option ℚ
  maxText : List String → Option String

structure ItemStats where
  nResponses : ℕ
  nCorrect : ℕ
  pValue : Option ℚ
  discrimination : Option ℚ
  optionDistribution : List (String × ℕ)
  commonWrong : List (String × ℕ × ℚ)
  flagReasons : List String
  deriving DecidableEq

def normalise (value : String) : String := casefold (strip value)

def counter (values : List String) : List (String × ℕ) :=
  (grouped (values.map (fun v => (v, ())))).map (fun g => (g.1, g.2.length))

def mostCommon (n : ℕ) (counts : List (String × ℕ)) : List (String × ℕ) :=
  (counts.insertionSort (fun a b => b.2 ≤ a.2)).take n

def minResponses : ℕ := 20

def flagged (s : ItemStats) (n : ℕ) : ItemStats :=
  { s with flagReasons :=
    if minResponses ≤ n then
      (if s.pValue.any (fun p => p < 5 / 100) then ["near_zero_p"] else []) ++
        (if s.pValue.any (fun p => 98 / 100 < p) then ["near_one_p"] else []) ++
        (if s.discrimination.any (fun d => d < 0) then ["negative_discrimination"] else []) ++
        (if s.commonWrong.any (fun w => 10 / 100 ≤ w.2.2) then ["common_wrong_answer"] else [])
    else [] }

def analyse (nx : Numerics) (responses : List Response) : ItemStats :=
  let n := responses.length
  if n = 0 then ⟨0, 0, none, none, [], [], []⟩
  else
    let nCorrect := responses.countP Response.correct
    let distribution := counter (responses.filterMap (fun r => r.rawResponse.map normalise))
    let wrong := counter ((responses.filter (fun r => !r.correct)).filterMap (fun r =>
      (r.rawResponse.filter (fun t => t ≠ "")).map normalise))
    flagged
      { nResponses := n
        nCorrect
        pValue := some (nx.share nCorrect n)
        discrimination := nx.pointBiserial responses
        optionDistribution := mostCommon 12 distribution
        commonWrong := (mostCommon 5 wrong).map (fun w => (w.1, w.2, nx.share w.2 n))
        flagReasons := [] } n

/-! ## The query -/

def window : ℤ := seconds (90 * 86400)

/-- `if question_ids`: none and the empty list select every question. -/
def Selected (questionIds : Option (List ℕ)) (questionId : ℕ) : Prop :=
  questionIds.getD [] = [] ∨ questionId ∈ questionIds.getD []

instance (questionIds : Option (List ℕ)) (questionId : ℕ) :
    Decidable (Selected questionIds questionId) := inferInstanceAs (Decidable (_ ∨ _))

structure Joined where
  score : ItemScore
  run : ScoreRun
  attempt : Attempt

def inWindow (now : Time) (a : Attempt) : Bool :=
  a.mode ≠ .preview && a.submittedAt.any (fun t => now - window ≤ t)

def join? (src : Source) (now : Time) (questionIds : Option (List ℕ)) (s : ItemScore) :
    Option Joined := do
  let r ← src.runs.get? s.scoreRunId
  let a ← src.attempts.get? r.attemptId
  if r.isCurrent ∧ inWindow now a ∧ Selected questionIds s.questionId then some ⟨s, r, a⟩ else none

def joined (src : Source) (now : Time) (questionIds : Option (List ℕ)) : List Joined :=
  src.itemScores.filterMap (join? src now questionIds)

structure GroupKey where
  questionId : ℕ
  questionVersionId : ℕ
  answerKeyVersionId : Option ℕ
  orgId : Option OrgId
  userId : ℕ
  runId : ℕ
  deriving DecidableEq

def groupKey (j : Joined) : GroupKey where
  questionId := j.score.questionId
  questionVersionId := j.score.questionVersionId
  answerKeyVersionId := j.score.answerKeyVersionId
  orgId := j.attempt.orgContextId
  userId := j.attempt.userId
  runId := j.run.id

structure Row where
  key : GroupKey
  correct : Bool
  rawResponse : Option String
  totalScore : ℚ
  deriving DecidableEq

def aggregate (nx : Numerics) (members : List Joined) (k : GroupKey) : Row :=
  let group := members.filter (fun j => groupKey j = k)
  { key := k
    correct := group.all (fun j => j.score.verdict = .correct)
    rawResponse := nx.maxText (group.filterMap (fun j => j.score.rawResponse))
    totalScore := ((group.map (fun j => j.run.rawScore)).max?).getD 0 }

def selectRows (nx : Numerics) (src : Source) (now : Time) (questionIds : Option (List ℕ)) :
    List Row :=
  ((joined src now questionIds).map groupKey).dedup.map (aggregate nx (joined src now questionIds))

/-! ## The groups and their rows -/

def scopes (orgId : Option OrgId) : List (Option OrgId) := none :: orgId.toList.map some

structure ItemKey where
  questionId : ℕ
  questionVersionId : ℕ
  answerKeyVersionId : Option ℕ
  orgId : Option OrgId
  deriving DecidableEq

def itemKey (r : Row) (scope : Option OrgId) : ItemKey where
  questionId := r.key.questionId
  questionVersionId := r.key.questionVersionId
  answerKeyVersionId := r.key.answerKeyVersionId
  orgId := scope

def response (r : Row) : Response where
  userXid := toString r.key.userId
  correct := r.correct
  totalScore := r.totalScore
  rawResponse := r.rawResponse

def entries (rows : List Row) : List (ItemKey × Response) :=
  rows.flatMap (fun r => (scopes r.key.orgId).map (fun scope => (itemKey r scope, response r)))

def dateOf (t : Time) : Date := Date.ofDays ((t + epoch).toNat / CivilCalendar.day)

structure StatsRow where
  item : ItemKey
  windowStart : Date
  windowEnd : Date
  stats : ItemStats
  computedAt : Time
  deriving DecidableEq

/-- `coalesce(org_id, 0)`. -/
def scopeId (scope : Option OrgId) : ℕ := (scope.map PNat.val).getD 0

def StatsRow.key (r : StatsRow) : ℕ × ℕ × Date :=
  (r.item.questionVersionId, scopeId r.item.orgId, r.windowStart)

abbrev StatsTable := Table StatsRow (ℕ × ℕ × Date) StatsRow.key

def statsUpsert : Upsert StatsRow StatsRow (ℕ × ℕ × Date) StatsRow.key where
  target := StatsRow.key
  insert p := p
  update r p := { r with stats := p.stats, computedAt := p.computedAt }
  key_insert _ := rfl
  key_update _ _ := rfl
  update_update _ _ _ := rfl
  update_insert _ := rfl

def params (nx : Numerics) (now : Time) (rows : List Row) : List StatsRow :=
  (grouped (entries rows)).map (fun g =>
    { item := g.1
      windowStart := dateOf (now - window)
      windowEnd := dateOf now
      stats := analyse nx g.2
      computedAt := now })

def refreshItemStats (nx : Numerics) (now : Time) (rows : List Row) (t : StatsTable) : StatsTable :=
  statsUpsert.writes t (params nx now rows)

/-! ## What the counts are -/

theorem nResponses_analyse (nx : Numerics) (rs : List Response) :
    (analyse nx rs).nResponses = rs.length := by
  unfold analyse
  dsimp only
  split
  · rename_i h
    exact h.symm
  · rfl

theorem nCorrect_analyse (nx : Numerics) (rs : List Response) :
    (analyse nx rs).nCorrect = rs.countP Response.correct := by
  unfold analyse
  dsimp only
  split
  · rename_i h
    rw [List.length_eq_zero_iff.1 h]
    rfl
  · rfl

theorem scopeId_injective : Function.Injective scopeId := by
  intro a b h
  cases a with
  | none =>
    cases b with
    | none => rfl
    | some b => exact absurd h.symm b.ne_zero
  | some a =>
    cases b with
    | none => exact absurd h a.ne_zero
    | some b => exact congrArg some (PNat.coe_injective h)

theorem mem_scopes {orgId scope : Option OrgId} :
    scope ∈ scopes orgId ↔ scope = none ∨ scope = orgId := by
  unfold scopes
  cases orgId with
  | none => simp
  | some org => simp

instance decidable_mem_scopes (scope orgId : Option OrgId) : Decidable (scope ∈ scopes orgId) :=
  inferInstance

def matching (rows : List Row) (version : ℕ) (scope : Option OrgId) : List Row :=
  rows.filter (fun r => r.key.questionVersionId = version ∧ scope ∈ scopes r.key.orgId)

theorem itemKey_eq {r : Row} {scope : Option OrgId} {k : ItemKey} :
    itemKey r scope = k ↔ itemKey r k.orgId = k ∧ scope = k.orgId := by
  constructor
  · rintro rfl
    exact ⟨rfl, rfl⟩
  · rintro ⟨h, rfl⟩
    exact h

theorem valuesOf_scopes (r : Row) (k : ItemKey) (l : List (Option OrgId)) (hnodup : l.Nodup) :
    valuesOf (l.map (fun scope => (itemKey r scope, response r))) k =
      if itemKey r k.orgId = k ∧ k.orgId ∈ l then [response r] else [] := by
  induction l with
  | nil =>
    rw [if_neg (fun h => by cases h.2)]
    rfl
  | cons scope l ih =>
    rw [List.nodup_cons] at hnodup
    have ih := ih hnodup.2
    unfold valuesOf at ih ⊢
    rw [List.map_cons, List.filter_cons]
    by_cases h : itemKey r scope = k
    · have hk := itemKey_eq.1 h
      have habsent : k.orgId ∉ l := hk.2 ▸ hnodup.1
      rw [if_neg (fun h => habsent h.2)] at ih
      rw [if_pos (by simpa using h), List.map_cons, ih,
        if_pos ⟨hk.1, hk.2 ▸ List.mem_cons_self⟩]
    · rw [if_neg (by simpa using h), ih]
      have hiff : (itemKey r k.orgId = k ∧ k.orgId ∈ l) ↔
          (itemKey r k.orgId = k ∧ k.orgId ∈ scope :: l) := by
        rw [List.mem_cons]
        constructor
        · exact fun h' => ⟨h'.1, .inr h'.2⟩
        · rintro ⟨hkey, heq | hmem⟩
          · exact absurd (itemKey_eq.2 ⟨hkey, heq.symm⟩) h
          · exact ⟨hkey, hmem⟩
      simp only [hiff]

theorem nodup_scopes (orgId : Option OrgId) : (scopes orgId).Nodup := by
  unfold scopes
  cases orgId with
  | none => simp
  | some org => simp

theorem valuesOf_entries (rows : List Row) (k : ItemKey) : valuesOf (entries rows) k =
    (rows.filter (fun r => itemKey r k.orgId = k ∧ k.orgId ∈ scopes r.key.orgId)).map response := by
  induction rows with
  | nil => rfl
  | cons r rows ih =>
    have hsplit : valuesOf (entries (r :: rows)) k =
        valuesOf ((scopes r.key.orgId).map (fun scope => (itemKey r scope, response r))) k ++
          valuesOf (entries rows) k := by
      unfold entries valuesOf
      rw [List.flatMap_cons, List.filter_append, List.map_append]
    rw [hsplit, ih, valuesOf_scopes r k _ (nodup_scopes _), List.filter_cons]
    by_cases h : itemKey r k.orgId = k ∧ k.orgId ∈ scopes r.key.orgId
    · rw [if_pos h, if_pos (by simpa using h)]
      rfl
    · rw [if_neg h, if_neg (by simpa using h)]
      rfl

end IeltsHub.ItemStatistics
