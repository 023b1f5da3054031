import IeltsHub.CivilCalendar
import IeltsHub.RegradeWalk

set_option autoImplicit false

/-!
# The impact count of a staged regrade

`_affected_count` counts when a job is staged, `planner._affected` selects when it runs. The
selection leaves out contests and what was handed in before `from_date`; the count does not.
-/
namespace IeltsHub.ImpactCounts
open PyValue PyDict PyTime PlatformErrors RowTable ContentModels ExamModels CivilCalendar
  KeysetPaging RegradePlanner RegradeWalk

/-! ## `date.fromisoformat` -/

def number? (cs : List Char) : Option ℕ :=
  if cs ≠ [] ∧ cs.all (fun c => '0' ≤ c ∧ c ≤ '9') then some (Nat.ofDigitChars 10 cs 0) else none

def ofCalendar (year month day : ℕ) : Option ℕ :=
  let leap := isLeap year
  let length := if month = 2 then (if leap then 29 else 28)
    else if month ∈ [4, 6, 9, 11] then 30 else 31
  if 1 ≤ year ∧ year ≤ 9999 ∧ 1 ≤ month ∧ month ≤ 12 ∧ 1 ≤ day ∧ day ≤ length then
    some (daysBeforeYear (year - 1) + daysBeforeMonth leap (month - 1) + (day - 1))
  else none

def newYearsDay (year : ℕ) : ℕ := daysBeforeYear (year - 1) % 7

def weeksOf (year : ℕ) : ℕ :=
  if newYearsDay year = 3 ∨ newYearsDay year = 2 ∧ isLeap year then 53 else 52

def weekOne (year : ℕ) : ℤ :=
  daysBeforeYear (year - 1) - newYearsDay year + if 3 < newYearsDay year then 7 else 0

def ofWeek (year week day : ℕ) : Option ℕ :=
  let days := weekOne year + 7 * ((week : ℤ) - 1) + ((day : ℤ) - 1)
  if 1 ≤ year ∧ year ≤ 9999 ∧ 1 ≤ week ∧ week ≤ weeksOf year ∧ 1 ≤ day ∧ day ≤ 7 ∧
      days < maxDays then some days.toNat
  else none

def fromIsoFormat (text : String) : Option ℕ := do
  match text.toList with
  | [a, b, c, d, '-', 'W', e, f, '-', g] =>
    ofWeek (← number? [a, b, c, d]) (← number? [e, f]) (← number? [g])
  | [a, b, c, d, '-', 'W', e, f] => ofWeek (← number? [a, b, c, d]) (← number? [e, f]) 1
  | [a, b, c, d, 'W', e, f, g] =>
    ofWeek (← number? [a, b, c, d]) (← number? [e, f]) (← number? [g])
  | [a, b, c, d, 'W', e, f] => ofWeek (← number? [a, b, c, d]) (← number? [e, f]) 1
  | [a, b, c, d, '-', e, f, '-', g, h] =>
    ofCalendar (← number? [a, b, c, d]) (← number? [e, f]) (← number? [g, h])
  | [a, b, c, d, e, f, g, h] =>
    ofCalendar (← number? [a, b, c, d]) (← number? [e, f]) (← number? [g, h])
  | _ => none

def midnight (days : ℕ) : Time := seconds (86400 * ((days : ℤ) - 719162))

example : (fromIsoFormat "2026-01-01").map midnight = some (seconds 1767225600) := by decide +kernel
example : fromIsoFormat "2026-W01-4" = fromIsoFormat "20260101" := by decide +kernel

/-! ## The scope of a job -/

def fromDate (scope : Obj) : Except Raised (Option Time) :=
  match getD scope "from_date" .null with
  | .str text =>
    if text = "" then .ok none
    else
      match fromIsoFormat text with
      | none => .error .valueError
      | some days => .ok (some (midnight days))
  | v => if truthy v then .error .typeError else .ok none

def scopeOf (scope : Obj) : Except Raised Scope :=
  (fromDate scope).map (fun fromDate =>
    { fromDate
      includeCompetitionAttempts := truthy (getD scope "_include_competition_attempts" .null) })

/-! ## The count -/

def sat (a : Attempt) : Bool := a.status = .submitted ∨ a.status = .scored

def scoredOn (s : Store) (subjectId : ℕ) : List ℕ :=
  (s.itemScores.flatMap (fun i =>
    (s.scoreRuns.select (fun r => r.id = i.scoreRunId)).flatMap (fun r =>
      (s.attempts.select (fun a => a.id = r.attemptId)).flatMap (fun a =>
        if i.questionVersionId = (subjectId : ℤ) ∧ r.isCurrent ∧ a.mode ≠ .preview
        then [r.attemptId] else [])))).dedup

/-- `_affected_count`. -/
def affectedCount (s : Store) (subjectId : ℕ) : SubjectType → ℕ
  | .questionVersion => (scoredOn s subjectId).length
  | .testVersion =>
    (s.attempts.select (fun a => a.testVersionId = subjectId ∧ a.mode ≠ .preview ∧ sat a)).length
  | .bandMapVersion =>
    let versions := (s.content.testVersions.select
      (fun tv => tv.bandMapVersionId = some subjectId)).map TestVersion.id
    (s.attempts.select (fun a => a.testVersionId ∈ versions ∧ a.mode ≠ .preview ∧ sat a)).length
  | .attempt => 1

/-- A job as `stage_regrade` adds it. -/
structure Staged where
  job : RegradeJob
  scope : Obj

def stageRegrade (s : Store) (job : RegradeJob) (scope : Obj) : Staged where
  job := { job with
    dryRun := true, status := .planning
    attemptsTotal := affectedCount s job.subjectId job.subjectType }
  scope := scope.erase "include_competitions"

/-! ## The selection -/

/-- The batches of `_affected` from an id on; `fuel` bounds their number. -/
def yields (chunk : ℕ) (s : Store) (job : RegradeJob) : ℕ → ℕ → List (List Attempt)
  | 0, _ => []
  | fuel + 1, last =>
    let batch := nextBatch chunk s job last
    if batch = [] then [] else batch :: yields chunk s job fuel (lastId batch last)

/-- `_affected` of a staged job. -/
def yielded (chunk : ℕ) (s : Store) (staged : Staged) : Except Raised (List (List Attempt)) :=
  (scopeOf staged.scope).map (fun scope =>
    yields chunk s { staged.job with scope } (batchBound s) 0)

/-! ## What the two come to -/

def counted (s : Store) (job : RegradeJob) (a : Attempt) : Bool :=
  subjectOf s job a &&
    match job.subjectType with
    | .questionVersion => decide (a.mode ≠ .preview)
    | .testVersion | .bandMapVersion => decide (a.mode ≠ .preview) && sat a
    | .attempt => true

/-- What `_resolve_subject` has found: a regrade of one attempt is of an attempt there is. -/
def Resolved (s : Store) (job : RegradeJob) : Prop :=
  job.subjectType = .attempt → (s.attempts.get? job.subjectId).isSome

variable {s : Store} {job : RegradeJob} {chunk : ℕ}

theorem mem_scoredOn {subjectId id : ℕ} : id ∈ scoredOn s subjectId ↔
    ∃ a ∈ s.attempts.rows, a.id = id ∧ a.mode ≠ .preview ∧ ∃ r ∈ s.scoreRuns.rows,
      r.attemptId = a.id ∧ r.isCurrent = true ∧ ∃ i ∈ s.itemScores, i.scoreRunId = r.id ∧
        i.questionVersionId = (subjectId : ℤ) := by
  unfold scoredOn Table.select
  simp only [List.mem_dedup, List.mem_flatMap, List.mem_filter, decide_eq_true_eq]
  constructor
  · rintro ⟨i, hi, r, ⟨hr, hrun⟩, a, ⟨ha, hattempt⟩, hid⟩
    split at hid
    · next hcond =>
      rw [List.mem_singleton] at hid
      exact ⟨a, ha, hattempt.trans hid.symm, hcond.2.2, r, hr, hattempt.symm, hcond.2.1, i, hi,
        hrun.symm, hcond.1⟩
    · cases hid
  · rintro ⟨a, ha, rfl, hmode, r, hr, hattempt, hcurrent, i, hi, hrun, hversion⟩
    refine ⟨i, hi, r, ⟨hr, hrun.symm⟩, a, ⟨ha, hattempt.symm⟩, ?_⟩
    rw [if_pos ⟨hversion, hcurrent, hmode⟩, hattempt]
    exact List.mem_singleton_self _

theorem subjectOf_questionVersion (h : job.subjectType = .questionVersion) (a : Attempt) :
    subjectOf s job a = true ↔ ∃ r ∈ s.scoreRuns.rows, r.attemptId = a.id ∧ r.isCurrent = true ∧
      ∃ i ∈ s.itemScores, i.scoreRunId = r.id ∧ i.questionVersionId = (job.subjectId : ℤ) := by
  unfold subjectOf
  rw [h]
  simp only [List.any_eq_true, Bool.and_eq_true, decide_eq_true_eq, and_assoc]

theorem length_scoredOn (h : job.subjectType = .questionVersion) :
    (scoredOn s job.subjectId).length = (s.attempts.select (counted s job)).length := by
  have hids : ((s.attempts.select (counted s job)).map Attempt.id).Nodup :=
    (List.filter_sublist.map Attempt.id).nodup s.attempts.nodup
  have hscored : (scoredOn s job.subjectId).Nodup := List.nodup_dedup _
  have hperm : (scoredOn s job.subjectId).Perm
      ((s.attempts.select (counted s job)).map Attempt.id) := by
    refine (List.perm_ext_iff_of_nodup hscored hids).2 (fun id => ?_)
    rw [mem_scoredOn, List.mem_map]
    refine exists_congr (fun a => ?_)
    unfold Table.select counted
    rw [List.mem_filter, Bool.and_eq_true, subjectOf_questionVersion h, h]
    simp only [decide_eq_true_eq]
    tauto
  rw [hperm.length_eq, List.length_map]

theorem affectedCount_eq (h : Resolved s job) : affectedCount s job.subjectId job.subjectType =
    (s.attempts.select (counted s job)).length := by
  cases htype : job.subjectType with
  | questionVersion => exact length_scoredOn htype
  | testVersion =>
    refine congrArg List.length (List.filter_congr (fun a _ => ?_))
    unfold counted subjectOf
    rw [htype]
    simp only [Bool.decide_and, Bool.decide_eq_true]
  | bandMapVersion =>
    refine congrArg List.length (List.filter_congr (fun a _ => ?_))
    unfold counted subjectOf Table.select
    rw [htype, Bool.eq_iff_iff]
    simp only [decide_eq_true_eq, Bool.and_eq_true, List.any_eq_true, List.mem_map,
      List.mem_filter]
    refine and_congr_left (fun _ => exists_congr (fun tv => ?_))
    tauto
  | attempt =>
    obtain ⟨a, ha⟩ := Option.isSome_iff_exists.1 (h htype)
    obtain ⟨hrow, hid⟩ := Table.get?_eq_some.1 ha
    have hone := List.count_eq_one_of_mem s.attempts.nodup
      (List.mem_map_of_mem (f := Attempt.id) hrow)
    rw [hid, List.count, List.countP_map, List.countP_eq_length_filter] at hone
    refine hone.symm.trans (congrArg List.length (List.filter_congr (fun x _ => ?_)))
    unfold counted subjectOf
    rw [htype]
    simp only [Function.comp_apply, Bool.and_true]
    rfl

theorem yields_eq (chunk : ℕ) (s : Store) (job : RegradeJob) (fuel last : ℕ) :
    yields chunk s job fuel last = pages chunk fuel (affectedFrom s job last) := by
  induction fuel generalizing last with
  | zero => rfl
  | succ fuel ih =>
    rw [pages_affectedFrom, yields, ih]

theorem flatten_yields (hchunk : 0 < chunk) (s : Store) (job : RegradeJob) :
    (yields chunk s job (batchBound s) 0).flatten = affected s job := by
  rw [yields_eq]
  exact flatten_batches hchunk s job

theorem length_affected (hids : ∀ a ∈ s.attempts.rows, 0 < a.id) :
    (affected s job).length = (s.attempts.select (isAffected s job)).length := by
  unfold affected
  rw [affectedFrom_eq, (past_perm _ 0).length_eq, List.filter_eq_self.2]
  exact fun a ha => decide_eq_true (hids a (List.mem_filter.1 ha).1)

def swept (scope : Scope) (a : Attempt) : Bool :=
  decide (a.mode ≠ .preview) && sat a && inScope scope a

theorem isAffected_eq (scope : Scope) (a : Attempt) :
    isAffected s { job with scope } a = (swept scope a && counted s job a) := by
  have hsubject : subjectOf s { job with scope } a = subjectOf s job a := rfl
  unfold isAffected swept counted
  rw [hsubject]
  cases job.subjectType <;>
    cases hmode : decide (a.mode ≠ .preview) <;> cases hsat : sat a <;>
    cases hscope : inScope scope a <;> cases hsub : subjectOf s job a <;>
    simp_all [sat]

theorem select_isAffected (scope : Scope) : s.attempts.select (isAffected s { job with scope }) =
    (s.attempts.select (counted s job)).filter (swept scope) := by
  unfold Table.select
  rw [List.filter_filter]
  exact List.filter_congr (fun a _ => isAffected_eq scope a)

theorem scopeOf_erase (scope : Obj) :
    scopeOf (scope.erase "include_competitions") = scopeOf scope := by
  unfold scopeOf fromDate getD
  rw [Dict.get?_erase, if_neg (by decide), Dict.get?_erase, if_neg (by decide)]

/-- The number of a staged job is the number of attempts its batches hold, none of them twice. -/
def CountIsPlan (chunk : ℕ) (s : Store) (staged : Staged) : Prop :=
  ∃ batches, yielded chunk s staged = .ok batches ∧
    staged.job.attemptsTotal = (batches.map List.length).sum ∧
    (batches.flatten.map Attempt.id).Nodup

theorem yielded_stageRegrade {scope : Obj} {read : Scope} (h : scopeOf scope = .ok read) :
    yielded chunk s (stageRegrade s job scope) =
      .ok (yields chunk s { (stageRegrade s job scope).job with scope := read }
        (batchBound s) 0) := by
  unfold yielded
  rw [show (stageRegrade s job scope).scope = scope.erase "include_competitions" from rfl,
    scopeOf_erase, h]
  rfl

/-- The count is the plan where `from_date` is a date and every attempt that is counted was sat, is
no preview, was handed in by then and is of no contest. -/
theorem count_is_plan_iff (hchunk : 0 < chunk) (hids : ∀ a ∈ s.attempts.rows, 0 < a.id)
    (hsubject : Resolved s job) (scope : Obj) :
    CountIsPlan chunk s (stageRegrade s job scope) ↔ ∃ read, scopeOf scope = .ok read ∧
      ∀ a ∈ s.attempts.rows, counted s job a = true → swept read a = true := by
  have htotal : ∀ read, (((yields chunk s { (stageRegrade s job scope).job with scope := read }
      (batchBound s) 0).map List.length).sum = ((s.attempts.select (counted s job)).filter
        (swept read)).length) := by
    intro read
    rw [← List.length_flatten, flatten_yields hchunk, length_affected hids, select_isAffected]
    rfl
  constructor
  · rintro ⟨batches, hyielded, hcount, _⟩
    cases hread : scopeOf scope with
    | error e =>
      unfold yielded at hyielded
      rw [show (stageRegrade s job scope).scope = scope.erase "include_competitions" from rfl,
        scopeOf_erase, hread] at hyielded
      cases hyielded
    | ok read =>
      rw [yielded_stageRegrade hread] at hyielded
      cases hyielded
      rw [htotal read] at hcount
      have hfull := hcount.symm.trans (affectedCount_eq hsubject)
      refine ⟨read, rfl, fun a ha hcounted => ?_⟩
      exact List.length_filter_eq_length_iff.1 hfull a (List.mem_filter.2 ⟨ha, hcounted⟩)
  · rintro ⟨read, hread, hall⟩
    refine ⟨_, yielded_stageRegrade hread, ?_, ?_⟩
    · rw [htotal read]
      refine (affectedCount_eq hsubject).trans (List.length_filter_eq_length_iff.2 ?_).symm
      intro a ha
      obtain ⟨hrow, hcounted⟩ := List.mem_filter.1 ha
      exact hall a hrow hcounted
    · rw [flatten_yields hchunk]
      exact affectedFrom_sublist_ids _ _ 0

/-! ## A contest among the attempts -/

def sampleStore : Store where
  attempts := ⟨[{ id := 1, xid := "a1", testVersionId := 7, status := .scored },
    { id := 2, xid := "a2", testVersionId := 7, status := .scored, competitionId := some 3 }],
    by decide⟩

def sampleJob (subjectType : SubjectType) (subjectId : ℕ) : RegradeJob where
  id := 1
  xid := "j1"
  subjectType := subjectType
  subjectId := subjectId

theorem count_is_plan_of_attempt : CountIsPlan CHUNK sampleStore
      (stageRegrade sampleStore (sampleJob .attempt 1) Dict.empty) ↔
    ∃ read, scopeOf Dict.empty = .ok read ∧ ∀ a ∈ sampleStore.attempts.rows,
      counted sampleStore (sampleJob .attempt 1) a = true → swept read a = true :=
  count_is_plan_iff (by decide) (by decide) (fun _ => by decide) Dict.empty

/-- A test version that a contest uses: two attempts are counted and one is planned. -/
theorem contest_is_counted : ¬ CountIsPlan CHUNK sampleStore
    (stageRegrade sampleStore (sampleJob .testVersion 7) Dict.empty) := by
  rintro ⟨batches, hyielded, hcount, _⟩
  have hplan : (yielded CHUNK sampleStore (stageRegrade sampleStore (sampleJob .testVersion 7)
      Dict.empty)).map (fun batches => (batches.map List.length).sum) = .ok 1 := by
    decide +kernel
  rw [hyielded] at hplan
  have hone : (batches.map List.length).sum = 1 := Except.ok.inj hplan
  have htwo : (stageRegrade sampleStore (sampleJob .testVersion 7) Dict.empty).job.attemptsTotal =
      2 := by decide +kernel
  omega

end IeltsHub.ImpactCounts
