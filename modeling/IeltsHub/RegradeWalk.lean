import IeltsHub.KeysetPaging
import IeltsHub.RegradeAgreement
import IeltsHub.SessionFrames

set_option autoImplicit false

/-!
# The walk of a job

A job takes its attempts page by page, and a dry run recomputes the pages of the state it starts
from one after another.
-/
namespace IeltsHub.RegradeWalk
open PyExc PyText PyDict PyTime QtypesRegistry PlatformErrors RowTable KeysetPaging ExamScoring ExamModels
  ExamScoringInputs ExamRegrade RegradePlanner RegradeSpec SessionFrames

/-! ## The pages -/

theorem affectedFrom_eq (s : Store) (job : RegradeJob) (last : ℕ) : affectedFrom s job last =
    past Attempt.id (s.attempts.select (isAffected s job)) last := by
  unfold affectedFrom past Table.select
  rw [List.filter_filter]
  congr 1
  exact List.filter_congr (fun a _ => Bool.and_comm ..)

theorem selected_nodup (s : Store) (job : RegradeJob) :
    ((s.attempts.select (isAffected s job)).map Attempt.id).Nodup :=
  (List.filter_sublist.map Attempt.id).nodup s.attempts.nodup

theorem affectedFrom_sublist_ids (s : Store) (job : RegradeJob) (last : ℕ) :
    ((affectedFrom s job last).map Attempt.id).Nodup := by
  rw [affectedFrom_eq]
  exact past_nodup (selected_nodup s job) last

def batches (chunk : ℕ) (s : Store) (job : RegradeJob) : List (List Attempt) :=
  pages chunk (batchBound s) (affected s job)

theorem length_affectedFrom (s : Store) (job : RegradeJob) (last : ℕ) :
    (affectedFrom s job last).length ≤ batchBound s := by
  rw [affectedFrom_eq, (past_perm _ last).length_eq]
  exact ((List.length_filter_le ..).trans (List.length_filter_le ..)).trans (Nat.le_succ _)

theorem flatten_batches {chunk : ℕ} (h : 0 < chunk) (s : Store) (job : RegradeJob) :
    (batches chunk s job).flatten = affected s job :=
  flatten_pages h (length_affectedFrom s job 0)

theorem affectedFrom_lastId {s : Store} {job : RegradeJob} {chunk last : ℕ}
    (h : nextBatch chunk s job last ≠ []) :
    affectedFrom s job (lastId (nextBatch chunk s job last) last) =
      (affectedFrom s job last).drop chunk := by
  unfold nextBatch at h ⊢
  rw [affectedFrom_eq] at h
  simp only [affectedFrom_eq]
  exact past_lastKey (selected_nodup s job) h

theorem pages_affectedFrom (chunk fuel : ℕ) (s : Store) (job : RegradeJob) (last : ℕ) :
    pages chunk (fuel + 1) (affectedFrom s job last) =
      if nextBatch chunk s job last = [] then []
      else nextBatch chunk s job last ::
        pages chunk fuel (affectedFrom s job (lastId (nextBatch chunk s job last) last)) := by
  rw [pages]
  change (if nextBatch chunk s job last = [] then _ else _) = _
  split
  · rfl
  · next hne =>
    rw [affectedFrom_lastId hne]
    rfl

/-- A dry run recomputes the batches in turn. -/
theorem planFrom_eq (chunk : ℕ) (s : Store) (job : RegradeJob) (scorer : Scorer)
    (fuel last : ℕ) (total : RegradeImpact) : planFrom chunk s job scorer fuel last total =
      (pages chunk fuel (affectedFrom s job last)).foldlM
        (fun t batch => absorb t <$> recompute s batch scorer "regrade_dry_run") total := by
  induction fuel generalizing last total with
  | zero => rfl
  | succ fuel ih =>
    rw [pages_affectedFrom]
    simp only [planFrom]
    split
    · rfl
    · rw [List.foldlM_cons, map_eq_pure_bind, bind_assoc]
      exact bind_congr (fun impact => ih _ _)

/-! ## What the reason of a pass is worth -/

def withReason (reason : String) (d : AttemptDelta) : AttemptDelta :=
  { d with newRun := { d.newRun with reason } }

/-- An impact whose runs are written down for another reason. -/
def relabel (reason : String) (t : RegradeImpact) : RegradeImpact :=
  { t with deltas := t.deltas.map (withReason reason) }

section
variable {reason : String}

theorem byCompetition_withReason (deltas : List AttemptDelta) :
    byCompetition (deltas.map (withReason reason)) =
      (byCompetition deltas).mapValues (List.map (withReason reason)) := by
  unfold byCompetition
  rw [List.foldl_map]
  change List.foldl _ (Dict.mapValues (List.map (withReason reason)) Dict.empty) deltas = _
  refine List.foldl_hom (Dict.mapValues (List.map (withReason reason))) (fun groups d => ?_)
  have hxid : (withReason reason d).competitionXid = d.competitionXid := rfl
  rw [hxid]
  cases d.competitionXid with
  | none => rfl
  | some xid =>
    dsimp only
    split
    · rfl
    · rw [Dict.mapValues_put, Dict.get?_mapValues, List.map_append]
      cases groups.get? xid <;> rfl

theorem competitionImpactOf_withReason (xid : String) (deltas : List AttemptDelta) :
    competitionImpactOf xid (deltas.map (withReason reason)) = competitionImpactOf xid deltas := by
  unfold competitionImpactOf
  rw [List.map_map, List.map_map, List.length_map]
  rfl

theorem deltaOf_withReason (previous : Dict String ScoreRun) (keys : Dict String KeyVersion)
    (scorer : Scorer) (bandMap : Option BandMap) (other : String) (attempt : AttemptInput) :
    deltaOf previous keys scorer bandMap reason attempt =
      withReason reason <$> deltaOf previous keys scorer bandMap other attempt := by
  unfold deltaOf scoreAttempt
  rw [← comp_map, ← comp_map, ← comp_map]
  rfl

theorem add_relabel (t : RegradeImpact) (d : AttemptDelta) :
    (relabel reason t).add (withReason reason d) = relabel reason (t.add d) := by
  unfold relabel RegradeImpact.add
  rw [List.map_append]
  rfl

theorem absorb_relabel (t u : RegradeImpact) :
    absorb (relabel reason t) (relabel reason u) = relabel reason (absorb t u) := by
  unfold absorb relabel
  rw [List.map_append, List.filter_map]
  rfl

theorem asDict_relabel (t : RegradeImpact) : (relabel reason t).asDict = t.asDict := by
  unfold RegradeImpact.asDict relabel
  rw [List.filter_map, List.map_map]
  rfl

theorem recompute_relabel (s : Store) (batch : List Attempt) (scorer : Scorer) (other : String) :
    recompute s batch scorer reason = relabel reason <$> recompute s batch scorer other := by
  unfold recompute ExamRegrade.plan
  rw [map_bind]
  refine bind_congr (fun l => ?_)
  have hfold : ∀ t, l.inputs.foldlM (fun (t : RegradeImpact) attempt =>
      t.add <$> deltaOf l.previous l.keys scorer l.bandMap reason attempt) (relabel reason t) =
      relabel reason <$> l.inputs.foldlM (fun (t : RegradeImpact) attempt =>
        t.add <$> deltaOf l.previous l.keys scorer l.bandMap other attempt) t := by
    refine foldlM_semiconj (fun t attempt => ?_) l.inputs
    rw [deltaOf_withReason l.previous l.keys scorer l.bandMap other, ← comp_map, ← comp_map]
    exact congrArg (· <$> _) (funext (fun d => add_relabel t d))
  have hempty : relabel reason {} = {} := rfl
  rw [← hempty, hfold, map_bind, bind_map_left]
  refine bind_congr (fun t => ?_)
  change Except.ok _ = Except.ok _
  unfold relabel
  rw [byCompetition_withReason]
  unfold Dict.mapValues
  rw [List.map_map]
  congr 2
  exact List.map_congr_left (fun e _ => competitionImpactOf_withReason e.1 e.2)

end

/-! ## What a commit writes -/

/-- Attempts other than `ids` are as they were, and no other one came or went. -/
structure Spares (job : RegradeJob) (ids : List ℕ) (s s' : Store) : Prop where
  rows : ∀ p : Attempt → Bool, (∀ a, p a → a.id ∉ ids) → s'.attempts.select p = s.attempts.select p
  covered : ∀ a : Attempt, a.id ∉ ids → isAffected s' job a = isAffected s job a
  content : s'.content = s.content
  same : ∀ b, b ∉ ids → SameFor b s s'

section
variable {s t u : Store} {job : RegradeJob} {ids more : List ℕ}

theorem Spares.refl (job : RegradeJob) (ids : List ℕ) (s : Store) : Spares job ids s s :=
  ⟨fun _ _ => rfl, fun _ _ => rfl, rfl, fun b _ => SameFor.refl b s⟩

theorem Spares.mono (h : Spares job ids s t) (hsub : ids ⊆ more) : Spares job more s t where
  rows p hp := h.rows p (fun a ha q => hp a ha (hsub q))
  covered a ha := h.covered a (fun q => ha (hsub q))
  content := h.content
  same b hb := h.same b (fun q => hb (hsub q))

theorem Spares.trans (h : Spares job ids s t) (h' : Spares job more t u) :
    Spares job (ids ++ more) s u := by
  have hl := h.mono (List.subset_append_left ids more)
  have hr := h'.mono (List.subset_append_right ids more)
  exact ⟨fun p hp => (hr.rows p hp).trans (hl.rows p hp),
    fun a ha => (hr.covered a ha).trans (hl.covered a ha), hr.content.trans hl.content,
    fun b hb => (hl.same b hb).trans (hr.same b hb)⟩

theorem affectedFrom_spared (h : Spares job ids s t) {last : ℕ} (hids : ∀ i ∈ ids, i ≤ last) :
    affectedFrom t job last = affectedFrom s job last := by
  have hnew : ∀ a : Attempt, last < a.id → a.id ∉ ids :=
    fun a ha q => absurd (hids _ q) (not_le.2 ha)
  have hp : (fun a => isAffected t job a && decide (last < a.id)) =
      fun a => isAffected s job a && decide (last < a.id) := by
    funext a
    by_cases ha : last < a.id
    · rw [h.covered a (hnew a ha)]
    · simp [ha]
  unfold affectedFrom
  rw [hp, h.rows]
  intro a ha
  exact hnew a (of_decide_eq_true (Bool.and_eq_true_iff.1 ha).2)

theorem recompute_spared (h : Spares job ids s t) {batch : List Attempt}
    (hbatch : ∀ a ∈ batch, a.id ∉ ids) (scorer : Scorer) (reason : String) :
    recompute t batch scorer reason = recompute s batch scorer reason := by
  have hload : ∀ l : Loaded, batch.foldlM (loadAttempt t) l = batch.foldlM (loadAttempt s) l := by
    induction batch with
    | nil =>
      intro l
      rw [List.foldlM_nil, List.foldlM_nil]
    | cons a batch ih =>
      intro l
      have hsame := h.same a.id (hbatch a List.mem_cons_self)
      have hinputs : inputsFor t = inputsFor s := by
        funext byVersion v
        unfold inputsFor
        rw [h.content]
      have hrun : t.currentRun a.id = s.currentRun a.id := by
        unfold Store.currentRun
        rw [hsame.runs]
      have hstep : loadAttempt t l a = loadAttempt s l a := by
        unfold loadAttempt
        rw [hinputs, hrun, hsame.answers]
      rw [List.foldlM_cons, List.foldlM_cons, hstep]
      exact bind_congr (fun m => ih (fun b hb => hbatch b (List.mem_cons_of_mem a hb)) m)
  unfold recompute
  rw [hload]

end

section
variable {s s' : Store} {job : RegradeJob} {run : ScoreRun} {id : ℕ} {now : Time}

theorem recordRun_of_ne {runId : ℕ} {a : Attempt} (h : a.id ≠ id) : recordRun runId id now a = a :=
  if_neg h

theorem persist_eq_ok (h : persist s id run job now = .ok s') : ∃ (u : Store) (row : ScoreRunRow),
    addRun s run id (some job.id) (some job.initiatedBy) now = .ok (u, row) ∧
      s' = { u with
        attempts := s.attempts.mapRows (recordRun row.id id now) (recordRun_id row.id id now) } := by
  obtain ⟨⟨u, row⟩, hadd, rfl⟩ := map_eq_ok.1 h
  refine ⟨u, row, hadd, ?_⟩
  obtain ⟨items, -, -, rfl⟩ := addRun_eq_ok hadd
  rfl

theorem sameFor_persist (h : persist s id run job now = .ok s') {b : ℕ} (hb : b ≠ id) :
    SameFor b s s' := by
  obtain ⟨u, row, hadd, rfl⟩ := persist_eq_ok h
  have hsame := sameFor_addRun hadd hb.symm
  refine { hsame with attempt := ?_ }
  rw [Table.get?_mapRows]
  cases hget : s.attempts.get? b with
  | none => rfl
  | some a =>
    have ha : a.id ≠ id := (Table.get?_key hget : a.id = b) ▸ hb
    rw [Option.map_some, recordRun_of_ne ha]

theorem itemScores_persist (h : persist s id run job now = .ok s') : ∃ items,
    s'.itemScores = s.itemScores ++ items ∧
      ∀ i ∈ items, ∀ r ∈ s.scoreRuns.rows, i.scoreRunId ≠ r.id := by
  obtain ⟨u, row, hadd, heq⟩ := persist_eq_ok h
  obtain ⟨items, hrow, hitems, hu⟩ := addRun_eq_ok hadd
  refine ⟨items, by rw [heq, hu], ?_⟩
  intro i hi r hr hid
  obtain ⟨e, -, he⟩ := exists_input_of_mapM hitems hi
  have hown : i.scoreRunId = row.id := by
    unfold itemScoreRow at he
    obtain ⟨_, -, he⟩ := bind_eq_ok.1 he
    obtain ⟨_, -, he⟩ := bind_eq_ok.1 he
    obtain ⟨_, -, he⟩ := bind_eq_ok.1 he
    obtain ⟨_, -, he⟩ := bind_eq_ok.1 he
    cases he
    rfl
  have hnone := Table.get?_nextId (s.scoreRuns.mapRows (demote id) (demote_id id))
  rw [← (runRow_eq_ok hrow).1, Table.get?_mapRows, Option.map_eq_none_iff] at hnone
  exact Table.get?_eq_none.1 hnone r hr (hid.symm.trans hown)

def scoredIn (runs : List ScoreRunRow) (items : List ItemScoreRow) (n : ℕ) : Bool :=
  runs.any (fun r => r.isCurrent && items.any (fun i =>
    decide (i.scoreRunId = r.id) && decide (i.questionVersionId = n)))

theorem subjectOf_questionVersion (hq : job.subjectType = .questionVersion) (s : Store)
    (a : Attempt) :
    subjectOf s job a = scoredIn (s.runsOf a.id) s.itemScores job.subjectId := by
  unfold subjectOf scoredIn Store.runsOf Table.select
  rw [hq, List.any_filter]
  dsimp only
  simp only [Bool.and_assoc]

theorem scoredIn_append {runs : List ScoreRunRow} {items more : List ItemScoreRow} {n : ℕ}
    (h : ∀ i ∈ more, ∀ r ∈ runs, i.scoreRunId ≠ r.id) :
    scoredIn runs (items ++ more) n = scoredIn runs items n := by
  unfold scoredIn
  rw [Bool.eq_iff_iff, List.any_eq_true, List.any_eq_true]
  refine exists_congr (fun r => and_congr_right (fun hr => ?_))
  have hnone : more.any (fun i => decide (i.scoreRunId = r.id) &&
      decide (i.questionVersionId = n)) = false := by
    rw [List.any_eq_false]
    intro i hi
    simp [h i hi r hr]
  rw [List.any_append, hnone, Bool.or_false]

theorem isAffected_persist (h : persist s id run job now = .ok s') {a : Attempt} (ha : a.id ≠ id) :
    isAffected s' job a = isAffected s job a := by
  have hsame := sameFor_persist h ha
  have hsubject : subjectOf s' job a = subjectOf s job a := by
    by_cases hq : job.subjectType = .questionVersion
    · obtain ⟨items, hitems, hfresh⟩ := itemScores_persist h
      rw [subjectOf_questionVersion hq, subjectOf_questionVersion hq, hitems, hsame.runs]
      exact scoredIn_append (fun i hi r hr => hfresh i hi r (List.mem_filter.1 hr).1)
    · unfold subjectOf
      rw [hsame.content]
      cases htype : job.subjectType with
      | questionVersion => exact absurd htype hq
      | testVersion => rfl
      | bandMapVersion => rfl
      | attempt => rfl
  unfold isAffected
  rw [hsubject]

theorem spares_persist (h : persist s id run job now = .ok s') : Spares job [id] s s' where
  rows p hp := by
    obtain ⟨u, row, -, heq⟩ := persist_eq_ok h
    have hattempts : s'.attempts =
        s.attempts.mapRows (recordRun row.id id now) (recordRun_id row.id id now) := by rw [heq]
    have hother : ∀ a, p a = true → a.id ≠ id := fun a ha q => hp a ha (List.mem_singleton.2 q)
    rw [hattempts]
    refine Table.select_mapRows_of_eq (fun a => ?_) (fun a ha => recordRun_of_ne (hother a ha))
    by_cases ha : a.id = id
    · rw [Bool.eq_iff_iff]
      have hrec := recordRun_id row.id id now a
      exact ⟨fun q => absurd (hrec.trans ha) (hother _ q), fun q => absurd ha (hother _ q)⟩
    · rw [recordRun_of_ne ha]
  covered a ha := isAffected_persist h (fun q => ha (List.mem_singleton.2 q))
  content := by
    obtain ⟨u, row, hadd, heq⟩ := persist_eq_ok h
    obtain ⟨items, -, -, hu⟩ := addRun_eq_ok hadd
    rw [heq, hu]
  same b hb := sameFor_persist h (fun q => hb (List.mem_singleton.2 q))

theorem spares_persistRuns {batch : List Attempt} {runs : List ScoreRun}
    (h : runs.foldlM (persistRun batch job now) s = .ok s') :
    Spares job (batch.map Attempt.id) s s' := by
  induction runs generalizing s with
  | nil =>
    cases h
    exact Spares.refl job _ _
  | cons run runs ih =>
    rw [List.foldlM_cons] at h
    obtain ⟨t, ht, h⟩ := bind_eq_ok.1 h
    unfold persistRun at ht
    split at ht
    · cases ht
    · next id hid =>
      obtain ⟨a, ha, hpair⟩ := List.mem_map.1 (Dict.mem_of_get?_ofList hid)
      have hmem : id ∈ batch.map Attempt.id :=
        List.mem_map.2 ⟨a, ha, congrArg Prod.snd hpair⟩
      refine ((spares_persist ht).trans (ih h)).mono ?_
      intro i hi
      rcases List.mem_append.1 hi with hi | hi
      · exact List.mem_singleton.1 hi ▸ hmem
      · exact hi

theorem notify_eq_ok {notices : List Notice} {stored stored' : List Notification}
    (h : notices.foldlM (notify job) stored = .ok stored') :
    ∃ more, stored' = stored ++ more ∧ more.length ≤ notices.length := by
  induction notices generalizing stored with
  | nil =>
    cases h
    exact ⟨[], (List.append_nil _).symm, le_rfl⟩
  | cons notice notices ih =>
    rw [List.foldlM_cons] at h
    obtain ⟨next, hnext, h⟩ := bind_eq_ok.1 h
    obtain ⟨userId, -, rfl⟩ := map_eq_ok.1 hnext
    obtain ⟨more, hmore, hlen⟩ := ih h
    split at hmore
    · exact ⟨more, hmore, hlen.trans (Nat.le_succ _)⟩
    · rw [List.append_assoc, List.singleton_append] at hmore
      exact ⟨_, hmore, Nat.succ_le_succ hlen⟩

end

/-! ## The walk of a commit -/

section
variable {s : Store} {job : RegradeJob} {scorer : Scorer} {decided : List String}
  {shown : ScoreRun → String} {now : Time} {db db' : Db} {batch : List Attempt}
  {total total' impact : RegradeImpact} {n chunk fuel last : ℕ} {reason : String} {ids : List ℕ}

theorem foldl_add_attemptsTotal (ds : List AttemptDelta) (t : RegradeImpact) :
    (ds.foldl RegradeImpact.add t).attemptsTotal = t.attemptsTotal + ds.length := by
  induction ds generalizing t with
  | nil => rfl
  | cons d ds ih =>
    rw [List.foldl_cons, ih, List.length_cons]
    simp only [RegradeImpact.add]
    omega

theorem attemptsTotal_recompute (h : recompute s batch scorer reason = .ok impact) :
    impact.attemptsTotal = batch.length := by
  rw [(recompute_eq_ok h).1.length_eq]
  unfold recompute ExamRegrade.plan at h
  obtain ⟨l, -, h⟩ := bind_eq_ok.1 h
  obtain ⟨t, ht, h⟩ := bind_eq_ok.1 h
  obtain ⟨ds, -, rfl⟩ := foldlM_add.1 ht
  cases h
  change (ds.foldl RegradeImpact.add {}).attemptsTotal =
    (ds.foldl RegradeImpact.add {}).deltas.length
  rw [foldl_add_attemptsTotal, foldl_add_deltas]
  exact Nat.zero_add _

/-- What a pass over `batches` leaves. -/
structure Commits (job : RegradeJob) (scorer : Scorer) (batches : List (List Attempt)) (s : Store)
    (db : Db) (total : RegradeImpact) (db' : Db) (total' : RegradeImpact) (n : ℕ) : Prop where
  counts : batches.foldlM (fun t batch =>
    absorb t <$> recompute s batch scorer (reasonForTrigger job.trigger)) total = .ok total'
  attempts : total'.attemptsTotal = total.attemptsTotal + batches.flatten.length
  written : total'.scoresChanged = total.scoresChanged + n
  rest : ∃ exam notices,
    db' = { db with exam, notifications := db.notifications ++ notices } ∧
      Spares job (batches.flatten.map Attempt.id) db.exam exam ∧
      total.bandsChanged + notices.length ≤ total'.bandsChanged

theorem commits_nil (s : Store) (db : Db) (total : RegradeImpact) :
    Commits job scorer [] s db total db total 0 :=
  ⟨rfl, rfl, rfl, db.exam, [], by rw [List.append_nil], Spares.refl job _ _, le_rfl⟩

theorem applyBatch_commits (hs : recompute db.exam batch scorer (reasonForTrigger job.trigger) =
      recompute s batch scorer (reasonForTrigger job.trigger))
    (h : applyBatch db job scorer decided shown now batch = .ok (db', impact, n)) :
    Commits job scorer [batch] s db total db' (absorb total impact) n := by
  unfold applyBatch at h
  obtain ⟨impact, himpact, h⟩ := bind_eq_ok.1 h
  obtain ⟨runs, hruns, h⟩ := bind_eq_ok.1 h
  obtain ⟨exam, hexam, h⟩ := bind_eq_ok.1 h
  obtain ⟨stored, hstored, h⟩ := bind_eq_ok.1 h
  cases h
  obtain ⟨-, hscores, hbands, -⟩ := recompute_eq_ok himpact
  obtain ⟨more, rfl, hmore⟩ := notify_eq_ok hstored
  constructor
  case counts =>
    rw [List.foldlM_cons, ← hs, himpact]
    rfl
  case attempts =>
    have htotal := attemptsTotal_recompute himpact
    simp [absorb, htotal]
  case written =>
    unfold ExamRegrade.apply at hruns
    split at hruns
    · cases hruns
      rw [List.length_map, ← List.countP_eq_length_filter, ← hscores]
      rfl
    · cases hruns
  case rest =>
    refine ⟨exam, more, rfl, by simpa using spares_persistRuns hexam, Nat.add_le_add_left ?_ _⟩
    unfold notificationsFor at hmore
    rwa [List.length_map, ← List.countP_eq_length_filter, ← hbands] at hmore

theorem Commits.trans {first rest : List (List Attempt)} {mid : Db} {t : RegradeImpact} {m : ℕ}
    (h : Commits job scorer first s db total mid t m)
    (h' : Commits job scorer rest s mid t db' total' n) :
    Commits job scorer (first ++ rest) s db total db' total' (m + n) := by
  obtain ⟨exam, notices, rfl, hspares, hnotices⟩ := h.rest
  obtain ⟨exam', notices', rfl, hspares', hnotices'⟩ := h'.rest
  constructor
  case counts =>
    rw [List.foldlM_append, h.counts]
    exact h'.counts
  case attempts => rw [h'.attempts, h.attempts, List.flatten_append, List.length_append, add_assoc]
  case written => rw [h'.written, h.written, add_assoc]
  case rest =>
    refine ⟨exam', notices ++ notices', by rw [List.append_assoc], ?_, ?_⟩
    · rw [List.flatten_append, List.map_append]
      exact hspares.trans hspares'
    · rw [List.length_append]
      omega

/-- What a page writes is behind the walk: the pages of the starting state are the ones it reads. -/
theorem applyFrom_commits {start : ℕ} (hs : Spares job ids s db.exam) (hids : ∀ i ∈ ids, i ≤ last)
    (h : applyFrom chunk job scorer decided shown now fuel last db total start =
      .ok (db', total', n)) :
    ∃ m, n = start + m ∧
      Commits job scorer (pages chunk fuel (affectedFrom s job last)) s db total db' total' m := by
  induction fuel generalizing last db total start ids with
  | zero =>
    cases h
    exact ⟨0, rfl, commits_nil s _ _⟩
  | succ fuel ih =>
    have hnext : nextBatch chunk db.exam job last = nextBatch chunk s job last := by
      unfold nextBatch
      rw [affectedFrom_spared hs hids]
    rw [pages_affectedFrom]
    simp only [applyFrom, hnext] at h
    split at h
    · next hnil =>
      cases h
      rw [if_pos hnil]
      exact ⟨0, rfl, commits_nil s _ _⟩
    · next hne =>
      rw [if_neg hne]
      have hmem : ∀ a ∈ nextBatch chunk s job last,
          last < a.id ∧ a.id ≤ lastId (nextBatch chunk s job last) last := by
        intro a ha
        unfold nextBatch at ha ⊢
        rw [affectedFrom_eq] at ha ⊢
        exact ⟨(mem_past.1 (List.mem_of_mem_take ha)).2, le_lastKey ha⟩
      obtain ⟨⟨mid, impact, m⟩, hout, h⟩ := bind_eq_ok.1 h
      have hpage : Commits job scorer [nextBatch chunk s job last] s db total mid
          (absorb total impact) m := by
        refine applyBatch_commits (recompute_spared hs ?_ scorer _) hout
        exact fun a ha hid => absurd (hids _ hid) (not_le.2 (hmem a ha).1)
      obtain ⟨exam, notices, rfl, hspares, -⟩ := hpage.rest
      have hread : ∀ i ∈ ids ++ [nextBatch chunk s job last].flatten.map Attempt.id,
          i ≤ lastId (nextBatch chunk s job last) last := by
        intro i hi
        rcases List.mem_append.1 hi with hi | hi
        · obtain ⟨a, ha⟩ := List.exists_mem_of_ne_nil _ hne
          exact (hids i hi).trans ((hmem a ha).1.le.trans (hmem a ha).2)
        · rw [List.flatten_singleton] at hi
          obtain ⟨a, ha, rfl⟩ := List.mem_map.1 hi
          exact (hmem a ha).2
      obtain ⟨k, hk, hrest⟩ := ih (hs.trans hspares) hread h
      exact ⟨m + k, by rw [hk, add_assoc], hpage.trans hrest⟩

theorem planned_relabel (s : Store) (scorer : Scorer) (batches : List (List Attempt))
    (total : RegradeImpact) (reason other : String) :
    batches.foldlM (fun t batch => absorb t <$> recompute s batch scorer other)
        (relabel other total) =
      relabel other <$> batches.foldlM
        (fun t batch => absorb t <$> recompute s batch scorer reason) total := by
  refine foldlM_semiconj (fun t batch => ?_) batches total
  rw [recompute_relabel s batch scorer reason, ← comp_map, ← comp_map]
  exact congrArg (· <$> _) (funext (fun u => absorb_relabel t u))

/-- A commit of the state a dry run has read records what the dry run counted, for every attempt
covered at its start, and writes nothing of any other. -/
theorem commit_matches_dry_run {written : ℕ} (hchunk : 0 < chunk)
    (h : RegradePlanner.apply chunk db job scorer shown now = .ok (db', written)) :
    ∃ total exam notices,
      RegradePlanner.plan chunk db job scorer =
        .ok { db with jobs := db.jobs.put (finishPlanning job total) } ∧
      db' = { db with
        exam, notifications := db.notifications ++ notices
        jobs := db.jobs.put (finishApply job total now) } ∧
      total.attemptsTotal = (affected db.exam job).length ∧ written = total.scoresChanged ∧
      notices.length ≤ total.bandsChanged ∧
      Spares job ((affected db.exam job).map Attempt.id) db.exam exam := by
  unfold RegradePlanner.apply at h
  obtain ⟨⟨mid, total, n⟩, hout, h⟩ := bind_eq_ok.1 h
  cases h
  obtain ⟨m, hm, hcommits⟩ := applyFrom_commits (Spares.refl job [] db.exam) (by simp) hout
  have hflat : (pages chunk (batchBound db.exam) (affectedFrom db.exam job 0)).flatten =
      affected db.exam job := flatten_batches hchunk db.exam job
  obtain ⟨exam, notices, rfl, hspares, hnotices⟩ := hcommits.rest
  rw [hflat] at hspares
  refine ⟨relabel "regrade_dry_run" total, exam, notices, ?_, ?_, ?_, ?_, ?_, hspares⟩
  · have hplanned := planned_relabel db.exam scorer
      (pages chunk (batchBound db.exam) (affectedFrom db.exam job 0)) {}
      (reasonForTrigger job.trigger) "regrade_dry_run"
    rw [hcommits.counts] at hplanned
    unfold RegradePlanner.plan
    rw [planFrom_eq]
    exact bind_eq_ok.2 ⟨_, hplanned, rfl⟩
  · unfold finishApply
    rw [asDict_relabel]
    rfl
  · have hattempts := hcommits.attempts
    rw [hflat] at hattempts
    exact hattempts.trans (Nat.zero_add _)
  · exact hm.trans ((Nat.zero_add _).trans (hcommits.written.trans (Nat.zero_add _)).symm)
  · exact (Nat.zero_add _).symm.trans_le hnotices

end

/-! ## Two sittings regraded -/

/-- Both sat the first paper. -/
def twoRegraded : Db where
  exam := { RegradeAgreement.twoSat with
    attempts := (Table.put .empty
      { id := 1, xid := "a1", userId := 1, testVersionId := 1, status := .scored }).put
      { id := 2, xid := "a2", userId := 2, testVersionId := 1, status := .scored } }

def firstPaper : RegradeJob :=
  { id := 1, xid := "j1", trigger := .manual, subjectType := .testVersion, subjectId := 1 }

theorem commit_matches_dry_run_two : ∃ db' total exam notices,
    RegradePlanner.apply 1 twoRegraded firstPaper ScoringTotality.sampleScorer (fun _ => "1") 0 =
      .ok (db', 2) ∧
    RegradePlanner.plan 1 twoRegraded firstPaper ScoringTotality.sampleScorer = .ok
      { twoRegraded with jobs := twoRegraded.jobs.put (finishPlanning firstPaper total) } ∧
    db' = { twoRegraded with
      exam, notifications := notices
      jobs := twoRegraded.jobs.put (finishApply firstPaper total 0) } ∧
    total.attemptsTotal = 2 ∧ 2 = total.scoresChanged ∧ notices.length ≤ total.bandsChanged ∧
    Spares firstPaper [1, 2] twoRegraded.exam exam := by
  have hruns : ((RegradePlanner.apply 1 twoRegraded firstPaper ScoringTotality.sampleScorer
    (fun _ => "1") 0).map Prod.snd).toOption = some 2 := by decide +kernel
  cases h : RegradePlanner.apply 1 twoRegraded firstPaper ScoringTotality.sampleScorer
      (fun _ => "1") 0 with
  | error e =>
    rw [h] at hruns
    cases hruns
  | ok out =>
    obtain ⟨db', n⟩ := out
    rw [h] at hruns
    cases hruns
    have hids : (affected twoRegraded.exam firstPaper).map Attempt.id = [1, 2] := by
      decide +kernel
    obtain ⟨total, exam, notices, hplan, hdb, htotal, hwritten, hnotices, hspares⟩ :=
      commit_matches_dry_run Nat.one_pos h
    rw [hids] at hspares
    rw [← List.length_map Attempt.id, hids] at htotal
    exact ⟨db', total, exam, notices, rfl, hplan, hdb, htotal, hwritten, hnotices, hspares⟩

end IeltsHub.RegradeWalk
