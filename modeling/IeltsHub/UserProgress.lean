import IeltsHub.ExamModels
import IeltsHub.CivilCalendar
import IeltsHub.FirstSeenGroups
import IeltsHub.RepeatedAverages
import IeltsHub.UpsertTables

set_option autoImplicit false

/-!
# The progress of a user

`refresh_user_progress` of `analytics/projections.py`. The query joins every scored attempt to the
sections of its paper and folds the pairs to one row for each user, skill and day; the upsert
writes the rows of the users who have a new score.
-/
namespace IeltsHub.UserProgress
open PyTime RowTable FirstSeenGroups RepeatedAverages UpsertTables
open CivilCalendar (Date)
open ExamModels (AttemptMode AttemptStatus)
open ExamScoring (roundHalfUp)
open QtypesSchemas (Verdict)

/-! ## The tables it reads -/

inductive Skill where
  | reading | listening | writing | speaking
  deriving DecidableEq

/-- The band of a run, and the type key and verdict of each of its item scores. -/
structure ScoreRun where
  band : Option ℚ := none
  items : List (String × Verdict) := []
  deriving DecidableEq

/-- An attempt and its current run, of which it has one at most. -/
structure Attempt where
  id : ℕ
  userId : ℕ
  testVersionId : ℕ
  mode : AttemptMode := .exam
  status : AttemptStatus := .issued
  submittedAt : Option Time := none
  scoredAt : Option Time := none
  run : Option ScoreRun := none
  deriving DecidableEq

abbrev Attempts := Table Attempt ℕ Attempt.id

/-- The skill of each section of a paper, and the date of a moment in Tashkent. -/
structure Setting where
  sections : ℕ → List Skill
  dayOf : Time → Date

structure Key where
  userId : ℕ
  skill : Skill
  day : Date
  deriving DecidableEq

/-! ## The query -/

structure Joined where
  attempt : Attempt
  run : ScoreRun
  key : Key
  deriving DecidableEq

def Joined.band (j : Joined) : Option ℚ := j.run.band

def beside? (z : Setting) (a : Attempt) : Option (List Joined) := do
  let run ← a.run
  let submitted ← a.submittedAt
  some ((z.sections a.testVersionId).map
    (fun skill => ⟨a, run, ⟨a.userId, skill, z.dayOf submitted⟩⟩))

def rowsOf (z : Setting) (a : Attempt) : List Joined :=
  if a.status = .scored ∧ a.mode ≠ .preview then (beside? z a).getD [] else []

def joined (z : Setting) (attempts : Attempts) (scope : ℕ → Bool) : List Joined :=
  (attempts.select (fun a => scope a.userId)).flatMap (rowsOf z)

/-- `round(…, places)` of a numeric: a tie goes away from zero. -/
def round (places : ℕ) (q : ℚ) : ℚ := roundHalfUp (q * 10 ^ places) / 10 ^ places

def itemsOf (userId : ℕ) (a : Attempt) : List (String × Verdict) :=
  if a.userId = userId ∧ a.mode ≠ .preview then (a.run.map ScoreRun.items).getD [] else []

/-- The five types with the lowest share of correct slots, of those below three in five; ties
stand as the types are first seen. -/
def weakTypes (attempts : Attempts) (userId : ℕ) : List (String × ℚ) :=
  let scores := attempts.rows.flatMap (itemsOf userId)
  let byType := (grouped scores).map
    (fun g => (g.1, (g.2.countP (· = .correct) : ℚ) / g.2.length))
  (((byType.filter (fun g => g.2 < 6 / 10)).insertionSort (fun g g' => g.2 ≤ g'.2)).take 5).map
    (fun g => (g.1, round 2 g.2))

structure Aggregates where
  attemptsCount : ℕ
  bestBand : Option ℚ
  avgBand : Option ℚ
  weakTypes : List (String × ℚ)
  deriving DecidableEq

/-- `count(DISTINCT a.id)`, but the maximum and the average are over the joined rows. -/
def aggregate (attempts : Attempts) (members : List Joined) (userId : ℕ) : Aggregates :=
  let bands := members.filterMap Joined.band
  { attemptsCount := (members.map (fun j => j.attempt.id)).dedup.length
    bestBand := bands.max?
    avgBand := (average bands).map (round 1)
    weakTypes := weakTypes attempts userId }

structure ProgressRow where
  key : Key
  aggregates : Aggregates
  computedAt : Time
  deriving DecidableEq

abbrev ProgressTable := Table ProgressRow Key ProgressRow.key

def progressUpsert : Upsert ProgressRow ProgressRow Key ProgressRow.key where
  target := ProgressRow.key
  insert p := p
  update r p := { r with aggregates := p.aggregates, computedAt := p.computedAt }
  key_insert _ := rfl
  key_update _ _ := rfl
  update_update _ _ _ := rfl
  update_insert _ := rfl

def selectGroups (z : Setting) (now : Time) (attempts : Attempts) (scope : ℕ → Bool) :
    List ProgressRow :=
  ((joined z attempts scope).map Joined.key).dedup.map (fun k =>
    { key := k
      aggregates := aggregate attempts ((joined z attempts scope).filter (fun j => j.key = k))
        k.userId
      computedAt := now })

/-! ## The window -/

def overlap : ℤ := seconds 86400

/-- `max(computed_at)`. -/
def lastComputed (t : ProgressTable) : Option Time := (t.rows.map ProgressRow.computedAt).max?

def hasNews (attempts : Attempts) (t : ProgressTable) (userId : ℕ) : Bool :=
  (lastComputed t).all (fun since => attempts.rows.any (fun a =>
    a.userId = userId ∧ a.status = .scored ∧ a.scoredAt.any (fun s => since - overlap ≤ s)))

/-- `if user_id`: no id is zero. -/
def inScope (attempts : Attempts) (t : ProgressTable) (userId : Option ℕ) (user : ℕ) : Bool :=
  if userId.getD 0 ≠ 0 then user = userId.getD 0 else hasNews attempts t user

def refreshUserProgress (z : Setting) (now : Time) (userId : Option ℕ) (attempts : Attempts)
    (t : ProgressTable) : ProgressTable :=
  progressUpsert.writes t (selectGroups z now attempts (inScope attempts t userId))

/-! ## What a row should say -/

/-- A scored attempt of the user with the skill, submitted that day. -/
def On (z : Setting) (k : Key) (a : Attempt) : Prop :=
  a.status = .scored ∧ a.mode ≠ .preview ∧ a.run.isSome ∧ a.userId = k.userId ∧
    k.skill ∈ z.sections a.testVersionId ∧ a.submittedAt.map z.dayOf = some k.day

instance (z : Setting) (k : Key) (a : Attempt) : Decidable (On z k a) :=
  inferInstanceAs (Decidable (_ ∧ _))

def attemptsOn (z : Setting) (attempts : Attempts) (k : Key) : List Attempt :=
  attempts.select (On z k)

def bandsOn (z : Setting) (attempts : Attempts) (k : Key) : List ℚ :=
  (attemptsOn z attempts k).filterMap (fun a => a.run.bind ScoreRun.band)

/-- Each attempt counted once. -/
structure Faithful (z : Setting) (attempts : Attempts) (k : Key) (g : Aggregates) : Prop where
  attemptsCount : g.attemptsCount = (attemptsOn z attempts k).length
  bestBand : g.bestBand = (bandsOn z attempts k).max?
  avgBand : g.avgBand = (average (bandsOn z attempts k)).map (round 1)

def weight (z : Setting) (k : Key) (a : Attempt) : ℕ := (z.sections a.testVersionId).count k.skill

/-- Of two attempts of the group, the bands are the same or their papers have the skill alike. -/
def EvenlyWeighted (z : Setting) (attempts : Attempts) (k : Key) : Prop :=
  ∀ a ∈ attemptsOn z attempts k, ∀ b ∈ attemptsOn z attempts k,
    ∀ x ∈ a.run.bind ScoreRun.band, ∀ y ∈ b.run.bind ScoreRun.band,
      x = y ∨ weight z k a = weight z k b

section
variable {z : Setting} {k : Key} {a : Attempt} {attempts : Attempts} {scope : ℕ → Bool}

theorem rowsOf_at_on (h : On z k a) : ∃ run, a.run = some run ∧
    (rowsOf z a).filter (fun j => j.key = k) = List.replicate (weight z k a) ⟨a, run, k⟩ := by
  obtain ⟨hscored, hmode, hrun, huser, -, hday⟩ := h
  obtain ⟨run, hrun⟩ := Option.isSome_iff_exists.1 hrun
  obtain ⟨submitted, hsubmitted, hday⟩ := Option.map_eq_some_iff.1 hday
  refine ⟨run, hrun, ?_⟩
  unfold rowsOf beside? weight
  rw [if_pos ⟨hscored, hmode⟩, hrun, hsubmitted]
  change ((z.sections a.testVersionId).map _).filter _ = _
  induction z.sections a.testVersionId with
  | nil => rfl
  | cons skill skills ih =>
    rw [List.map_cons, List.count_cons]
    by_cases hskill : skill = k.skill
    · have hkey : (⟨a.userId, skill, z.dayOf submitted⟩ : Key) = k := by
        rw [huser, hskill, hday]
      rw [List.filter_cons_of_pos (by simpa using hkey), ih, hkey, if_pos (by simpa using hskill),
        List.replicate_succ]
    · have hkey : (⟨a.userId, skill, z.dayOf submitted⟩ : Key) ≠ k :=
        fun heq => hskill (congrArg Key.skill heq)
      rw [List.filter_cons_of_neg (by simpa using hkey), ih, if_neg (by simpa using hskill),
        Nat.add_zero]

theorem rowsOf_at_off (h : ¬ On z k a) : (rowsOf z a).filter (fun j => j.key = k) = [] := by
  rw [List.filter_eq_nil_iff]
  intro j hj hkey
  rw [decide_eq_true_iff] at hkey
  unfold rowsOf beside? at hj
  split at hj
  · rename_i hscored
    cases hrun : a.run with
    | none =>
      rw [hrun] at hj
      cases hj
    | some run =>
      cases hsubmitted : a.submittedAt with
      | none =>
        rw [hrun, hsubmitted] at hj
        cases hj
      | some submitted =>
        rw [hrun, hsubmitted] at hj
        change j ∈ (z.sections a.testVersionId).map _ at hj
        obtain ⟨skill, hskill, rfl⟩ := List.mem_map.1 hj
        refine h ⟨hscored.1, hscored.2, ?_, ?_, ?_, ?_⟩
        · rw [hrun]
          rfl
        · exact congrArg Key.userId hkey
        · exact (congrArg Key.skill hkey) ▸ hskill
        · rw [hsubmitted, Option.map_some]
          exact congrArg (fun k => some (Key.day k)) hkey
  · cases hj

theorem members_eq (hscope : scope k.userId = true) :
    (joined z attempts scope).filter (fun j => j.key = k) =
      (attemptsOn z attempts k).flatMap
        (fun a => (rowsOf z a).filter (fun j => j.key = k)) := by
  unfold joined attemptsOn Table.select
  rw [List.filter_flatMap]
  induction attempts.rows with
  | nil => rfl
  | cons a rows ih =>
    rw [List.filter_cons, List.filter_cons]
    by_cases hon : On z k a
    · have huser : scope a.userId = true := hon.2.2.2.1 ▸ hscope
      rw [if_pos huser, if_pos (by simpa using hon), List.flatMap_cons, List.flatMap_cons, ih]
    · have hoff : ¬ decide (On z k a) = true := by simpa using hon
      rw [if_neg hoff]
      split
      · rw [List.flatMap_cons, rowsOf_at_off hon, ih, List.nil_append]
      · exact ih

theorem mem_attemptsOn : a ∈ attemptsOn z attempts k ↔ a ∈ attempts.rows ∧ On z k a := by
  unfold attemptsOn Table.select
  rw [List.mem_filter, decide_eq_true_iff]

/-! ## What the aggregates are -/

theorem weight_pos (h : On z k a) : 0 < weight z k a := List.count_pos_iff.2 h.2.2.2.2.1

theorem mem_rowsOf_at {j : Joined} (h : On z k a) :
    j ∈ (rowsOf z a).filter (fun j => j.key = k) ↔ ∃ run, a.run = some run ∧ j = ⟨a, run, k⟩ := by
  obtain ⟨run, hrun, hrows⟩ := rowsOf_at_on h
  rw [hrows, List.mem_replicate]
  constructor
  · rintro ⟨-, rfl⟩
    exact ⟨run, hrun, rfl⟩
  · rintro ⟨run', hrun', rfl⟩
    have hsame : run' = run := Option.some.inj (hrun'.symm.trans hrun)
    exact ⟨(weight_pos h).ne', hsame ▸ rfl⟩

theorem mem_members (hscope : scope k.userId = true) {j : Joined} :
    j ∈ (joined z attempts scope).filter (fun j => j.key = k) ↔
      ∃ a ∈ attemptsOn z attempts k, ∃ run, a.run = some run ∧ j = ⟨a, run, k⟩ := by
  rw [members_eq hscope, List.mem_flatMap]
  constructor
  · rintro ⟨a, ha, hj⟩
    exact ⟨a, ha, (mem_rowsOf_at (mem_attemptsOn.1 ha).2).1 hj⟩
  · rintro ⟨a, ha, hj⟩
    exact ⟨a, ha, (mem_rowsOf_at (mem_attemptsOn.1 ha).2).2 hj⟩

theorem members_ne_nil (hscope : scope k.userId = true) :
    k ∈ (joined z attempts scope).map Joined.key ↔ attemptsOn z attempts k ≠ [] := by
  rw [List.mem_map]
  constructor
  · rintro ⟨j, hj, hkey⟩
    have hmem : j ∈ (joined z attempts scope).filter (fun j => j.key = k) :=
      List.mem_filter.2 ⟨hj, decide_eq_true hkey⟩
    obtain ⟨a, ha, -⟩ := (mem_members hscope).1 hmem
    exact List.ne_nil_of_mem ha
  · intro h
    obtain ⟨a, ha⟩ := List.exists_mem_of_ne_nil _ h
    obtain ⟨run, hrun⟩ := Option.isSome_iff_exists.1 (mem_attemptsOn.1 ha).2.2.2.1
    have hmem : ⟨a, run, k⟩ ∈ (joined z attempts scope).filter (fun j => j.key = k) :=
      (mem_members hscope).2 ⟨a, ha, run, hrun, rfl⟩
    obtain ⟨hj, hkey⟩ := List.mem_filter.1 hmem
    exact ⟨_, hj, of_decide_eq_true hkey⟩

theorem attemptsCount_eq (hscope : scope k.userId = true) :
    (((joined z attempts scope).filter (fun j => j.key = k)).map
      (fun j => j.attempt.id)).dedup.length = (attemptsOn z attempts k).length := by
  have hids : ((attemptsOn z attempts k).map Attempt.id).Nodup :=
    (List.filter_sublist.map _).nodup attempts.nodup
  have hperm := (List.perm_ext_iff_of_nodup (List.nodup_dedup (((joined z attempts scope).filter
    (fun j => j.key = k)).map (fun j => j.attempt.id))) hids).2 (fun id => by
      rw [List.mem_dedup, List.mem_map, List.mem_map]
      constructor
      · rintro ⟨j, hj, rfl⟩
        obtain ⟨a, ha, run, hrun, rfl⟩ := (mem_members hscope).1 hj
        exact ⟨a, ha, rfl⟩
      · rintro ⟨a, ha, rfl⟩
        obtain ⟨run, hrun⟩ := Option.isSome_iff_exists.1 (mem_attemptsOn.1 ha).2.2.2.1
        exact ⟨_, (mem_members hscope).2 ⟨a, ha, run, hrun, rfl⟩, rfl⟩)
  rw [hperm.length_eq, List.length_map]

theorem max?_congr {l l' : List ℚ} (h : ∀ x, x ∈ l ↔ x ∈ l') : l.max? = l'.max? := by
  cases hmax : l'.max? with
  | none =>
    rw [List.max?_eq_none_iff] at hmax ⊢
    subst hmax
    exact List.eq_nil_iff_forall_not_mem.2 (fun x hx => absurd ((h x).1 hx) List.not_mem_nil)
  | some m =>
    rw [List.max?_eq_some_iff] at hmax ⊢
    exact ⟨(h m).2 hmax.1, fun b hb => hmax.2 b ((h b).1 hb)⟩

theorem mem_bands (hscope : scope k.userId = true) {x : ℚ} :
    x ∈ ((joined z attempts scope).filter (fun j => j.key = k)).filterMap Joined.band ↔
      x ∈ bandsOn z attempts k := by
  unfold bandsOn
  rw [List.mem_filterMap, List.mem_filterMap]
  constructor
  · rintro ⟨j, hj, hband⟩
    obtain ⟨a, ha, run, hrun, rfl⟩ := (mem_members hscope).1 hj
    refine ⟨a, ha, ?_⟩
    rw [hrun]
    exact hband
  · rintro ⟨a, ha, hband⟩
    obtain ⟨run, hrun, hband⟩ := Option.bind_eq_some_iff.1 hband
    exact ⟨_, (mem_members hscope).2 ⟨a, ha, run, hrun, rfl⟩, hband⟩

def weighted? (z : Setting) (k : Key) (a : Attempt) : Option (ℕ × ℚ) :=
  (a.run.bind ScoreRun.band).map (fun band => (weight z k a, band))

theorem mem_weighted {p : ℕ × ℚ} : p ∈ (attemptsOn z attempts k).filterMap (weighted? z k) ↔
    ∃ a ∈ attemptsOn z attempts k, p.1 = weight z k a ∧ p.2 ∈ a.run.bind ScoreRun.band := by
  rw [List.mem_filterMap]
  constructor
  · rintro ⟨a, ha, hp⟩
    obtain ⟨band, hband, rfl⟩ := Option.map_eq_some_iff.1 hp
    exact ⟨a, ha, rfl, hband⟩
  · rintro ⟨a, ha, hweight, hband⟩
    exact ⟨a, ha, Option.map_eq_some_iff.2 ⟨p.2, hband, Prod.ext hweight.symm rfl⟩⟩

theorem bandsOn_eq : bandsOn z attempts k =
    ((attemptsOn z attempts k).filterMap (weighted? z k)).map Prod.snd := by
  unfold bandsOn
  rw [List.map_filterMap]
  congr 1
  funext a
  unfold weighted?
  rw [Option.map_map]
  exact Option.map_id'.symm

theorem bands_of_rows {as : List Attempt} (h : ∀ a ∈ as, On z k a) :
    (as.flatMap (fun a => (rowsOf z a).filter (fun j => j.key = k))).filterMap
      Joined.band = repeated (as.filterMap (weighted? z k)) := by
  induction as with
  | nil => rfl
  | cons a as ih =>
    have ih := ih (fun b hb => h b (List.mem_cons_of_mem a hb))
    obtain ⟨run, hrun, hrows⟩ := rowsOf_at_on (h a List.mem_cons_self)
    unfold repeated at ih ⊢
    rw [List.flatMap_cons, List.filterMap_append, ih, hrows, List.filterMap_cons]
    cases hband : run.band with
    | none =>
      have hnone : weighted? z k a = none := by
        unfold weighted?
        rw [hrun, Option.bind_some, hband]
        rfl
      have hrow : Joined.band ⟨a, run, k⟩ = none := hband
      rw [hnone, List.filterMap_replicate_of_none hrow, List.nil_append]
    | some band =>
      have hsome : weighted? z k a = some (weight z k a, band) := by
        unfold weighted?
        rw [hrun, Option.bind_some, hband]
        rfl
      have hrow : Joined.band ⟨a, run, k⟩ = some band := hband
      rw [hsome, List.filterMap_replicate_of_some hrow, List.flatMap_cons]

theorem faithful_aggregate (hscope : scope k.userId = true) (heven : EvenlyWeighted z attempts k) :
    Faithful z attempts k
      (aggregate attempts ((joined z attempts scope).filter (fun j => j.key = k)) k.userId) where
  attemptsCount := attemptsCount_eq hscope
  bestBand := max?_congr (fun _ => mem_bands hscope)
  avgBand := by
    have hpos : ∀ p ∈ (attemptsOn z attempts k).filterMap (weighted? z k), 0 < p.1 := by
      intro p hp
      obtain ⟨a, ha, hweight, -⟩ := mem_weighted.1 hp
      exact hweight ▸ weight_pos (mem_attemptsOn.1 ha).2
    have halike : ∀ p ∈ (attemptsOn z attempts k).filterMap (weighted? z k),
        ∀ q ∈ (attemptsOn z attempts k).filterMap (weighted? z k), p.2 = q.2 ∨ p.1 = q.1 := by
      intro p hp q hq
      obtain ⟨a, ha, hweight, hband⟩ := mem_weighted.1 hp
      obtain ⟨b, hb, hweight', hband'⟩ := mem_weighted.1 hq
      rw [hweight, hweight']
      exact heven a ha b hb p.2 hband q.2 hband'
    unfold aggregate
    dsimp only
    rw [members_eq hscope, bands_of_rows (fun a ha => (mem_attemptsOn.1 ha).2),
      average_repeated hpos halike, bandsOn_eq]

end

end IeltsHub.UserProgress
