import IeltsHub.ItemStatistics

set_option autoImplicit false

/-!
# Every run counted once

What the row of an item in a scope should say, and when it does. The groups of one item under two
key versions meet in one row, and the last of them to be written is all that stays.
-/
namespace IeltsHub.CountedOnce
open PyTime RowTable FirstSeenGroups UpsertTables ItemStatistics
open CivilCalendar (Date)

/-! ## The count that is meant -/

def slots (src : Source) (version runId : ℕ) : List ItemScore :=
  src.itemScores.filter (fun s => s.scoreRunId = runId ∧ s.questionVersionId = version)

/-- A current run of the window and the scope that contains the item. -/
def Counts (src : Source) (now : Time) (version : ℕ) (scope : Option OrgId) (r : ScoreRun) : Prop :=
  r.isCurrent ∧ slots src version r.id ≠ [] ∧ ∃ a ∈ src.attempts.get? r.attemptId,
    inWindow now a ∧ (scope = none ∨ scope = a.orgContextId)

instance (src : Source) (now : Time) (version : ℕ) (scope : Option OrgId) (r : ScoreRun) :
    Decidable (Counts src now version scope r) := by
  unfold Counts
  infer_instance

def allCorrect (src : Source) (version runId : ℕ) : Bool :=
  (slots src version runId).all (fun s => s.verdict = .correct)

def countedRuns (src : Source) (now : Time) (version : ℕ) (scope : Option OrgId) : List ScoreRun :=
  src.runs.select (Counts src now version scope)

def counted (src : Source) (now : Time) (version : ℕ) (scope : Option OrgId) : ℕ × ℕ :=
  let runs := countedRuns src now version scope
  (runs.length, runs.countP (fun r => allCorrect src version r.id))

def recorded (now : Time) (t : StatsTable) (version : ℕ) (scope : Option OrgId) : ℕ × ℕ :=
  ((t.get? (version, scopeId scope, dateOf (now - window))).map
    (fun r => (r.stats.nResponses, r.stats.nCorrect))).getD (0, 0)

/-- After a refresh, whatever the order of its rows, each row says what it should, another refresh
leaves every count, and the same rows again leave the whole table. -/
def CountsOnce (nx : Numerics) (src : Source) (now : Time) (questionIds : Option (List ℕ))
    (t : StatsTable) : Prop :=
  ∀ rows, rows.Perm (selectRows nx src now questionIds) →
    (∀ version scope, Selected questionIds (src.questionOf version) →
      recorded now (refreshItemStats nx now rows t) version scope =
        counted src now version scope) ∧
    (∀ again, again.Perm rows → ∀ version scope,
      recorded now (refreshItemStats nx now again (refreshItemStats nx now rows t)) version scope =
        recorded now (refreshItemStats nx now rows t) version scope) ∧
    refreshItemStats nx now rows (refreshItemStats nx now rows t) = refreshItemStats nx now rows t

/-- The current runs of the window scored each item under one key version. -/
def KeyedOnce (src : Source) (now : Time) (questionIds : Option (List ℕ)) : Prop :=
  ∀ j ∈ joined src now questionIds, ∀ j' ∈ joined src now questionIds,
    j.score.questionVersionId = j'.score.questionVersionId →
      j.score.answerKeyVersionId = j'.score.answerKeyVersionId

instance (src : Source) (now : Time) (questionIds : Option (List ℕ)) :
    Decidable (KeyedOnce src now questionIds) := inferInstanceAs (Decidable (∀ j ∈ _, ∀ j' ∈ _, _))

/-- No row of this window counts runs that have all left it. -/
def NoneLeftOver (src : Source) (now : Time) (questionIds : Option (List ℕ)) (t : StatsTable) :
    Prop :=
  ∀ version scope, Selected questionIds (src.questionOf version) →
    countedRuns src now version scope = [] → recorded now t version scope = (0, 0)

section
variable {nx : Numerics} {src : Source} {now : Time} {questionIds : Option (List ℕ)}
  {t : StatsTable} {rows : List Row} {version : ℕ} {scope : Option OrgId}

/-! ## The rows of the query are the runs -/

theorem join?_eq_some {s : ItemScore} {j : Joined} : join? src now questionIds s = some j ↔
    ∃ r ∈ src.runs.get? s.scoreRunId, ∃ a ∈ src.attempts.get? r.attemptId,
      (r.isCurrent ∧ inWindow now a ∧ Selected questionIds s.questionId) ∧ j = ⟨s, r, a⟩ := by
  unfold join?
  constructor
  · intro h
    obtain ⟨r, hr, h⟩ := Option.bind_eq_some_iff.1 h
    obtain ⟨a, ha, h⟩ := Option.bind_eq_some_iff.1 h
    split at h
    · rename_i hcond
      exact ⟨r, hr, a, ha, hcond, (Option.some.inj h).symm⟩
    · cases h
  · rintro ⟨r, hr, a, ha, hcond, rfl⟩
    refine Option.bind_eq_some_iff.2 ⟨r, hr, Option.bind_eq_some_iff.2 ⟨a, ha, ?_⟩⟩
    exact if_pos hcond

theorem mem_joined {j : Joined} : j ∈ joined src now questionIds ↔
    j.score ∈ src.itemScores ∧ j.run ∈ src.runs.get? j.score.scoreRunId ∧
      j.attempt ∈ src.attempts.get? j.run.attemptId ∧ j.run.isCurrent ∧ inWindow now j.attempt ∧
      Selected questionIds j.score.questionId := by
  unfold joined
  rw [List.mem_filterMap]
  constructor
  · rintro ⟨s, hs, h⟩
    obtain ⟨r, hr, a, ha, hcond, rfl⟩ := join?_eq_some.1 h
    exact ⟨hs, hr, ha, hcond⟩
  · rintro ⟨hs, hr, ha, hcond⟩
    exact ⟨j.score, hs, join?_eq_some.2 ⟨j.run, hr, j.attempt, ha, hcond, rfl⟩⟩

theorem runId_joined {j : Joined} (h : j ∈ joined src now questionIds) :
    j.run.id = j.score.scoreRunId :=
  Table.get?_key (mem_joined.1 h).2.1

theorem groupKey_eq {j j' : Joined} (h : j ∈ joined src now questionIds)
    (h' : j' ∈ joined src now questionIds) (hrun : j.run.id = j'.run.id)
    (hversion : j.score.questionVersionId = j'.score.questionVersionId) :
    groupKey j = groupKey j' := by
  have hid := runId_joined h
  have hid' := runId_joined h'
  have hscore : j.score.scoreRunId = j'.score.scoreRunId := hid ▸ hid' ▸ hrun
  obtain ⟨hs, hr, ha, -⟩ := mem_joined.1 h
  obtain ⟨hs', hr', ha', -⟩ := mem_joined.1 h'
  have hsame : j.run = j'.run := by
    rw [hscore] at hr
    exact Option.some.inj (hr.symm.trans hr')
  have hattempt : j.attempt = j'.attempt := by
    rw [hsame] at ha
    exact Option.some.inj (ha.symm.trans ha')
  have hquestion : j.score.questionId = j'.score.questionId := by
    rw [src.question _ hs, src.question _ hs', hversion]
  have hkey := src.oneKey _ hs _ hs' hscore hversion
  unfold groupKey
  rw [hquestion, hversion, hkey, hattempt, hrun]

def keys (src : Source) (now : Time) (questionIds : Option (List ℕ)) : List GroupKey :=
  ((joined src now questionIds).map groupKey).dedup

theorem mem_keys {k : GroupKey} :
    k ∈ keys src now questionIds ↔ ∃ j ∈ joined src now questionIds, groupKey j = k := by
  unfold keys
  rw [List.mem_dedup, List.mem_map]

def keysOf (src : Source) (now : Time) (questionIds : Option (List ℕ)) (version : ℕ)
    (scope : Option OrgId) : List GroupKey :=
  (keys src now questionIds).filter
    (fun k => k.questionVersionId = version ∧ scope ∈ scopes k.orgId)

theorem mem_keysOf {k : GroupKey} : k ∈ keysOf src now questionIds version scope ↔
    (∃ j ∈ joined src now questionIds, groupKey j = k) ∧ k.questionVersionId = version ∧
      scope ∈ scopes k.orgId := by
  unfold keysOf
  rw [List.mem_filter, mem_keys, decide_eq_true_iff]

theorem matching_selectRows : matching (selectRows nx src now questionIds) version scope =
    (keysOf src now questionIds version scope).map (aggregate nx (joined src now questionIds)) := by
  unfold matching selectRows keysOf keys
  rw [List.filter_map]
  rfl

theorem mem_slots {runId : ℕ} {s : ItemScore} : s ∈ slots src version runId ↔
    s ∈ src.itemScores ∧ s.scoreRunId = runId ∧ s.questionVersionId = version := by
  unfold slots
  rw [List.mem_filter, decide_eq_true_iff]

theorem mem_countedRuns {r : ScoreRun} : r ∈ countedRuns src now version scope ↔
    r ∈ src.runs.rows ∧ Counts src now version scope r := by
  unfold countedRuns Table.select
  rw [List.mem_filter, decide_eq_true_iff]

theorem runIds_nodup : ((keysOf src now questionIds version scope).map GroupKey.runId).Nodup := by
  have hnodup : (keysOf src now questionIds version scope).Nodup :=
    (List.nodup_dedup _).filter _
  refine (List.nodup_map_iff_inj_on hnodup).2 ?_
  intro k hk k' hk' hrun
  obtain ⟨⟨j, hj, rfl⟩, hversion, -⟩ := mem_keysOf.1 hk
  obtain ⟨⟨j', hj', rfl⟩, hversion', -⟩ := mem_keysOf.1 hk'
  exact groupKey_eq hj hj' hrun (Eq.trans hversion hversion'.symm)

theorem mem_runIds (hselected : Selected questionIds (src.questionOf version)) {id : ℕ} :
    id ∈ (keysOf src now questionIds version scope).map GroupKey.runId ↔
      id ∈ (countedRuns src now version scope).map ScoreRun.id := by
  rw [List.mem_map, List.mem_map]
  constructor
  · rintro ⟨k, hk, rfl⟩
    obtain ⟨⟨j, hj, rfl⟩, hversion, hscope⟩ := mem_keysOf.1 hk
    obtain ⟨hs, hr, ha, hcurrent, hin, -⟩ := mem_joined.1 hj
    have hslot : j.score ∈ slots src version j.run.id :=
      mem_slots.2 ⟨hs, (runId_joined hj).symm, hversion⟩
    refine ⟨j.run, mem_countedRuns.2 ⟨(Table.get?_eq_some.1 hr).1, hcurrent, ?_, j.attempt, ha, hin,
      mem_scopes.1 hscope⟩, rfl⟩
    exact List.ne_nil_of_mem hslot
  · rintro ⟨r, hr, rfl⟩
    obtain ⟨hmem, hcurrent, hne, a, ha, hin, hscope⟩ := mem_countedRuns.1 hr
    obtain ⟨s, hs⟩ := List.exists_mem_of_ne_nil _ hne
    obtain ⟨hs, hid, hversion⟩ := mem_slots.1 hs
    have hselected : Selected questionIds s.questionId := by
      rw [src.question s hs, hversion]
      exact hselected
    have hrun : r ∈ src.runs.get? s.scoreRunId := Table.get?_eq_some.2 ⟨hmem, hid.symm⟩
    have hj : (⟨s, r, a⟩ : Joined) ∈ joined src now questionIds :=
      mem_joined.2 ⟨hs, hrun, ha, hcurrent, hin, hselected⟩
    exact ⟨groupKey ⟨s, r, a⟩, mem_keysOf.2 ⟨⟨_, hj, rfl⟩, hversion, mem_scopes.2 hscope⟩, rfl⟩

theorem runIds_perm (now : Time) (scope : Option OrgId)
    (hselected : Selected questionIds (src.questionOf version)) :
    ((keysOf src now questionIds version scope).map GroupKey.runId).Perm
      ((countedRuns src now version scope).map ScoreRun.id) := by
  have hnodup : ((countedRuns src now version scope).map ScoreRun.id).Nodup :=
    (List.filter_sublist.map _).nodup src.runs.nodup
  exact (List.perm_ext_iff_of_nodup runIds_nodup hnodup).2 (fun _ => mem_runIds hselected)

theorem correct_aggregate {k : GroupKey} (hk : k ∈ keysOf src now questionIds version scope) :
    (aggregate nx (joined src now questionIds) k).correct = allCorrect src version k.runId := by
  obtain ⟨⟨j, hj, rfl⟩, hversion, -⟩ := mem_keysOf.1 hk
  obtain ⟨hs, hr, ha, hcurrent, hin, hselected⟩ := mem_joined.1 hj
  rw [Bool.eq_iff_iff]
  unfold aggregate allCorrect
  dsimp only
  rw [List.all_eq_true, List.all_eq_true]
  constructor
  · intro h s hslot
    obtain ⟨hmem, hid, hv⟩ := mem_slots.1 hslot
    have hsame : s.scoreRunId = j.score.scoreRunId := hid.trans (runId_joined hj)
    have hrun : j.run ∈ src.runs.get? s.scoreRunId := hsame ▸ hr
    have hquestion : s.questionId = j.score.questionId := by
      rw [src.question _ hmem, src.question _ hs, hv]
      exact congrArg src.questionOf hversion.symm
    have hj' : (⟨s, j.run, j.attempt⟩ : Joined) ∈ joined src now questionIds :=
      mem_joined.2 ⟨hmem, hrun, ha, hcurrent, hin, hquestion ▸ hselected⟩
    refine h ⟨s, j.run, j.attempt⟩ (List.mem_filter.2 ⟨hj', ?_⟩)
    rw [decide_eq_true_iff]
    exact groupKey_eq hj' hj rfl (hv.trans hversion.symm)
  · intro h j' hj'
    obtain ⟨hj', hgroup⟩ := List.mem_filter.1 hj'
    rw [decide_eq_true_iff] at hgroup
    have hrun : j'.run.id = j.run.id := congrArg GroupKey.runId hgroup
    have hv : j'.score.questionVersionId = j.score.questionVersionId :=
      congrArg GroupKey.questionVersionId hgroup
    refine h j'.score (mem_slots.2 ⟨(mem_joined.1 hj').1, ?_, hv.trans hversion⟩)
    exact (runId_joined hj').symm.trans hrun

theorem counted_eq (nx : Numerics) (now : Time) (scope : Option OrgId)
    (hselected : Selected questionIds (src.questionOf version)) :
    counted src now version scope =
      ((matching (selectRows nx src now questionIds) version scope).length,
        (matching (selectRows nx src now questionIds) version scope).countP Row.correct) := by
  have hperm := runIds_perm now scope hselected
  have hlength := hperm.length_eq
  rw [List.length_map, List.length_map] at hlength
  have hcount := hperm.countP_eq (allCorrect src version)
  rw [List.countP_map, List.countP_map] at hcount
  have hcorrect : (keysOf src now questionIds version scope).countP
      (Row.correct ∘ aggregate nx (joined src now questionIds)) =
        (keysOf src now questionIds version scope).countP
          (allCorrect src version ∘ GroupKey.runId) :=
    List.countP_congr (fun k hk => by
      rw [Function.comp_apply, correct_aggregate hk]
      rfl)
  unfold counted
  dsimp only
  rw [matching_selectRows, List.length_map, List.countP_map, hcorrect, hcount, hlength]
  rfl

/-! ## The rows the groups leave -/

def gathered (rows : List Row) (k : ItemKey) : List Row :=
  rows.filter (fun r => itemKey r k.orgId = k ∧ k.orgId ∈ scopes r.key.orgId)

theorem mem_params {p : StatsRow} (h : p ∈ params nx now rows) : gathered rows p.item ≠ [] ∧
    p = { item := p.item, windowStart := dateOf (now - window), windowEnd := dateOf now,
          stats := analyse nx ((gathered rows p.item).map response), computedAt := now } := by
  obtain ⟨⟨k, rs⟩, hg, rfl⟩ := List.mem_map.1 h
  obtain ⟨hrs, hne⟩ := ((grouped_spec (entries rows)).2 k rs).1 hg
  rw [valuesOf_entries] at hrs
  subst hrs
  exact ⟨fun hnil => hne (congrArg (List.map response) hnil), rfl⟩

theorem params_of_gathered (nx : Numerics) (now : Time) {k : ItemKey} (h : gathered rows k ≠ []) :
    ∃ p ∈ params nx now rows, p.item = k ∧ p.windowStart = dateOf (now - window) := by
  have hg : (k, valuesOf (entries rows) k) ∈ grouped (entries rows) := by
    refine ((grouped_spec (entries rows)).2 k _).2 ⟨rfl, ?_⟩
    rw [valuesOf_entries]
    exact fun hnil => h (List.map_eq_nil_iff.1 hnil)
  exact ⟨_, List.mem_map_of_mem hg, rfl, rfl⟩

theorem gathered_eq {k : ItemKey} (hversion : k.questionVersionId = version)
    (hscope : k.orgId = scope) :
    gathered rows k = (matching rows version scope).filter (fun r => itemKey r scope = k) := by
  unfold gathered matching
  rw [List.filter_filter]
  refine List.filter_congr (fun r _ => ?_)
  rw [hscope, ← Bool.decide_and]
  refine decide_eq_decide.2 ⟨fun h => ⟨h.1, ?_, h.2⟩, fun h => ⟨h.1, h.2.2⟩⟩
  exact (congrArg ItemKey.questionVersionId h.1).trans hversion

theorem target_eq {p : StatsRow} (h : p ∈ params nx now rows) :
    statsUpsert.target p = (version, scopeId scope, dateOf (now - window)) ↔
      p.item.questionVersionId = version ∧ p.item.orgId = scope := by
  have hstart : p.windowStart = dateOf (now - window) := by
    rw [(mem_params h).2]
  change (p.item.questionVersionId, scopeId p.item.orgId, p.windowStart) = _ ↔ _
  rw [hstart, Prod.mk.injEq, Prod.mk.injEq]
  constructor
  · exact fun h => ⟨h.1, scopeId_injective h.2.1⟩
  · exact fun h => ⟨h.1, congrArg scopeId h.2, rfl⟩

theorem recorded_of_none (h : matching rows version scope = []) :
    recorded now (refreshItemStats nx now rows t) version scope = recorded now t version scope := by
  have hlast : statsUpsert.lastOf (params nx now rows)
      (version, scopeId scope, dateOf (now - window)) = none := by
    refine Upsert.lastOf_eq_none.2 (fun p hp htarget => ?_)
    obtain ⟨hversion, hscope⟩ := (target_eq hp).1 htarget
    refine (mem_params hp).1 ?_
    rw [gathered_eq hversion hscope, h]
    rfl
  unfold recorded refreshItemStats
  rw [Upsert.get?_writes_of_none hlast]

theorem recorded_of_some (h : matching rows version scope ≠ []) :
    ∃ k : ItemKey, k.questionVersionId = version ∧ k.orgId = scope ∧ gathered rows k ≠ [] ∧
      recorded now (refreshItemStats nx now rows t) version scope =
        ((gathered rows k).length, (gathered rows k).countP Row.correct) := by
  cases hlast : statsUpsert.lastOf (params nx now rows)
      (version, scopeId scope, dateOf (now - window)) with
  | none =>
    obtain ⟨r, hr⟩ := List.exists_mem_of_ne_nil _ h
    obtain ⟨hmem, hcond⟩ := List.mem_filter.1 hr
    rw [decide_eq_true_iff] at hcond
    have hgathered : gathered rows (itemKey r scope) ≠ [] := by
      refine List.ne_nil_of_mem (List.mem_filter.2 ⟨hmem, ?_⟩)
      exact decide_eq_true ⟨rfl, hcond.2⟩
    obtain ⟨p, hp, hitem, -⟩ := params_of_gathered nx now hgathered
    refine absurd ((target_eq hp).2 ?_) (Upsert.lastOf_eq_none.1 hlast p hp)
    rw [hitem]
    exact ⟨hcond.1, rfl⟩
  | some p =>
    obtain ⟨hp, htarget⟩ := Upsert.lastOf_mem hlast
    obtain ⟨hversion, hscope⟩ := (target_eq hp).1 htarget
    obtain ⟨hne, hstats⟩ := mem_params hp
    obtain ⟨old, hold⟩ := Upsert.get?_writes_of_some (t := t) hlast
    have hrow : (statsUpsert.row old p).stats = p.stats := by
      cases old <;> rfl
    refine ⟨p.item, hversion, hscope, hne, ?_⟩
    unfold recorded refreshItemStats
    rw [hold, Option.map_some, Option.getD_some, hrow, hstats]
    dsimp only
    rw [nResponses_analyse, nCorrect_analyse, List.length_map, List.countP_map]
    rfl

def OneGroup (rows : List Row) (version : ℕ) (scope : Option OrgId) : Prop :=
  ∀ r ∈ matching rows version scope, ∀ r' ∈ matching rows version scope,
    itemKey r scope = itemKey r' scope

theorem recorded_of_oneGroup (hgroup : OneGroup rows version scope)
    (h : matching rows version scope ≠ []) :
    recorded now (refreshItemStats nx now rows t) version scope =
      ((matching rows version scope).length,
        (matching rows version scope).countP Row.correct) := by
  obtain ⟨k, hversion, hscope, hne, hrecorded⟩ := @recorded_of_some nx now t rows version scope h
  rw [gathered_eq hversion hscope] at hne
  obtain ⟨r, hr⟩ := List.exists_mem_of_ne_nil _ hne
  obtain ⟨hr, hk⟩ := List.mem_filter.1 hr
  rw [decide_eq_true_iff] at hk
  have hall : gathered rows k = matching rows version scope := by
    rw [gathered_eq hversion hscope, List.filter_eq_self]
    exact fun r' hr' => decide_eq_true ((hgroup r' hr' r hr).trans hk)
  rw [hrecorded, hall]

theorem matching_perm {rows' : List Row} (h : rows'.Perm rows) (version : ℕ)
    (scope : Option OrgId) :
    (matching rows' version scope).Perm (matching rows version scope) := h.filter _

theorem OneGroup.perm {rows' : List Row} (h : rows'.Perm rows)
    (hgroup : OneGroup rows version scope) : OneGroup rows' version scope := fun r hr r' hr' =>
  hgroup r ((matching_perm h _ _).mem_iff.1 hr) r' ((matching_perm h _ _).mem_iff.1 hr')

/-! ## When the counts are right -/

theorem row_of_joined (nx : Numerics) {j : Joined} (hj : j ∈ joined src now questionIds)
    (hscope : scope ∈ scopes j.attempt.orgContextId) :
    ∃ r ∈ matching (selectRows nx src now questionIds) j.score.questionVersionId scope,
      r.key = groupKey j := by
  rw [matching_selectRows]
  exact ⟨_, List.mem_map_of_mem (mem_keysOf.2 ⟨⟨j, hj, rfl⟩, rfl, hscope⟩), rfl⟩

theorem joined_of_row {r : Row}
    (hr : r ∈ matching (selectRows nx src now questionIds) version scope) :
    ∃ j ∈ joined src now questionIds, j.score.questionVersionId = version ∧ r.key = groupKey j := by
  rw [matching_selectRows] at hr
  obtain ⟨k, hk, rfl⟩ := List.mem_map.1 hr
  obtain ⟨⟨j, hj, rfl⟩, hversion, -⟩ := mem_keysOf.1 hk
  exact ⟨j, hj, hversion, rfl⟩

theorem oneGroup_of_keyedOnce (h : KeyedOnce src now questionIds) :
    OneGroup (selectRows nx src now questionIds) version scope := by
  intro r hr r' hr'
  obtain ⟨j, hj, hversion, hkey⟩ := joined_of_row hr
  obtain ⟨j', hj', hversion', hkey'⟩ := joined_of_row hr'
  have hsame : j.score.questionVersionId = j'.score.questionVersionId :=
    hversion.trans hversion'.symm
  have hquestion : j.score.questionId = j'.score.questionId := by
    rw [src.question _ (mem_joined.1 hj).1, src.question _ (mem_joined.1 hj').1, hsame]
  have hanswer := h j hj j' hj' hsame
  unfold itemKey
  rw [hkey, hkey']
  unfold groupKey
  rw [hquestion, hsame, hanswer]

theorem matching_eq_nil (hselected : Selected questionIds (src.questionOf version)) :
    matching (selectRows nx src now questionIds) version scope = [] ↔
      countedRuns src now version scope = [] := by
  have hlength := congrArg Prod.fst (counted_eq nx now scope hselected)
  have hlength : (countedRuns src now version scope).length =
      (matching (selectRows nx src now questionIds) version scope).length := hlength
  rw [← List.length_eq_zero_iff, ← hlength, List.length_eq_zero_iff]

theorem keyedOnce_of_countsOnce (h : CountsOnce nx src now questionIds t) :
    KeyedOnce src now questionIds := by
  intro j hj j' hj' hsame
  obtain ⟨hs, -, -, -, -, hselected⟩ := mem_joined.1 hj
  rw [src.question _ hs] at hselected
  obtain ⟨r, hr, hkey⟩ := row_of_joined nx hj (mem_scopes.2 (.inl rfl))
  obtain ⟨r', hr', hkey'⟩ := row_of_joined nx hj' (mem_scopes.2 (.inl rfl))
  rw [← hsame] at hr'
  have hcounted := (h _ (List.Perm.refl _)).1 _ none hselected
  obtain ⟨k, hversion, hscope, -, hrecorded⟩ :=
    @recorded_of_some nx now t _ _ none (List.ne_nil_of_mem hr)
  rw [hrecorded, counted_eq nx now none hselected, gathered_eq hversion hscope] at hcounted
  have hall := List.length_filter_eq_length_iff.1 (congrArg Prod.fst hcounted)
  have hk := of_decide_eq_true (hall r hr)
  have hk' := of_decide_eq_true (hall r' hr')
  have hanswer := congrArg ItemKey.answerKeyVersionId (hk.trans hk'.symm)
  unfold itemKey at hanswer
  rw [hkey, hkey'] at hanswer
  exact hanswer

theorem noneLeftOver_of_countsOnce (h : CountsOnce nx src now questionIds t) :
    NoneLeftOver src now questionIds t := by
  intro version scope hselected hnone
  have hcounted := (h _ (List.Perm.refl _)).1 version scope hselected
  rw [recorded_of_none ((matching_eq_nil hselected).2 hnone)] at hcounted
  rw [hcounted]
  unfold counted
  rw [hnone]
  rfl

theorem recorded_again {again : List Row} (hgroup : OneGroup rows version scope)
    (hagain : again.Perm rows) :
    recorded now (refreshItemStats nx now again (refreshItemStats nx now rows t)) version scope =
      recorded now (refreshItemStats nx now rows t) version scope := by
  have hperm := matching_perm hagain version scope
  by_cases h : matching rows version scope = []
  · refine recorded_of_none ?_
    rw [h] at hperm
    exact hperm.eq_nil
  · have h' : matching again version scope ≠ [] := by
      intro hnil
      rw [hnil] at hperm
      exact h hperm.symm.eq_nil
    rw [recorded_of_oneGroup (hgroup.perm hagain) h', recorded_of_oneGroup hgroup h,
      hperm.length_eq, hperm.countP_eq]

/-- The counts are right exactly when no item was scored under two keys and no row of the window
is left without runs. -/
theorem countsOnce_iff (nx : Numerics) (src : Source) (now : Time)
    (questionIds : Option (List ℕ)) (t : StatsTable) : CountsOnce nx src now questionIds t ↔
      KeyedOnce src now questionIds ∧ NoneLeftOver src now questionIds t := by
  constructor
  · exact fun h => ⟨keyedOnce_of_countsOnce h, noneLeftOver_of_countsOnce h⟩
  · rintro ⟨hkeyed, hleft⟩ rows hrows
    have hgroup : ∀ version scope, OneGroup rows version scope :=
      fun version scope => (oneGroup_of_keyedOnce hkeyed).perm hrows
    refine ⟨fun version scope hselected => ?_, fun again hagain version scope => ?_, ?_⟩
    · have hperm := matching_perm hrows version scope
      rw [counted_eq nx now scope hselected, ← hperm.length_eq, ← hperm.countP_eq]
      by_cases h : matching rows version scope = []
      · have hnone : countedRuns src now version scope = [] := by
          rw [h] at hperm
          exact (matching_eq_nil hselected).1 hperm.symm.eq_nil
        rw [recorded_of_none h, hleft version scope hselected hnone, h]
        rfl
      · exact recorded_of_oneGroup (hgroup version scope) h
    · exact recorded_again (hgroup version scope) hagain
    · exact Upsert.writes_writes _ _ _

end

/-! ## An item under two keys -/

def exact : Numerics where
  share correct n := correct / n
  pointBiserial _ := none
  maxText texts := texts.max?

def sampleTime : Time := seconds (400 * 86400)

def sample : Source where
  questionOf _ := 3
  attempts := Table.empty.put { id := 1, userId := 11, submittedAt := some sampleTime } |>.put
    { id := 2, userId := 12, submittedAt := some sampleTime }
  runs := Table.empty.put { id := 21, attemptId := 1 } |>.put { id := 22, attemptId := 2 }
  itemScores := [⟨21, 3, 7, some 1, .correct, none⟩, ⟨22, 3, 7, some 2, .correct, none⟩]
  question := by decide
  oneKey := by decide

theorem two_keys_lose_a_student :
    counted sample sampleTime 7 none = (2, 2) ∧
      ¬ CountsOnce exact sample sampleTime none .empty := by
  have hkeyed : ¬ KeyedOnce sample sampleTime none := by decide +kernel
  exact ⟨by decide +kernel, fun h => hkeyed (keyedOnce_of_countsOnce h)⟩

end IeltsHub.CountedOnce
