import IeltsHub.RegradePlanner

set_option autoImplicit false

/-!
# What a batch recomputes

The loop over a batch resolves every test version once and merges their keys; the merged keys
are, for the items of each paper, that paper's own. What is the batch's and not the attempt's is
the band map.
-/
namespace IeltsHub.RegradeSpec
open PyExc PyText PyValue PyDict PlatformErrors QtypesRegistry ContentModels ExamScoring ExamModels
  ExamScoringInputs ExamRegrade RegradePlanner

/-! ## Keys -/

def currentKeyOf (c : ContentStore) (n : ℕ) : Option KeyVersion :=
  (c.answerKeys.rows.find? (fun k => k.isCurrent && decide (k.questionVersionId = n))).map
    (fun k => (keyEntry k).2)

theorem eq_of_current {c : ContentStore} {j k : AnswerKeyVersion} (hj : j ∈ c.answerKeys.rows)
    (hk : k ∈ c.answerKeys.rows) (cj : j.isCurrent = true) (ck : k.isCurrent = true)
    (h : j.questionVersionId = k.questionVersionId) : j = k :=
  List.inj_on_of_nodup_map c.currentKeys (List.mem_filter.2 ⟨hj, cj⟩) (List.mem_filter.2 ⟨hk, ck⟩) h

theorem currentKeyOf_eq_some {c : ContentStore} {n : ℕ} {kv : KeyVersion} :
    currentKeyOf c n = some kv ↔ ∃ k ∈ c.answerKeys.rows, k.isCurrent = true ∧
      k.questionVersionId = n ∧ (keyEntry k).2 = kv := by
  unfold currentKeyOf
  constructor
  · intro h
    obtain ⟨k, hk, rfl⟩ := Option.map_eq_some_iff.1 h
    have hp := List.find?_some hk
    simp only [Bool.and_eq_true, decide_eq_true_eq] at hp
    exact ⟨k, List.mem_of_find?_eq_some hk, hp.1, hp.2, rfl⟩
  · rintro ⟨k, hk, hcurrent, rfl, rfl⟩
    cases hfind : c.answerKeys.rows.find?
        (fun j => j.isCurrent && decide (j.questionVersionId = k.questionVersionId)) with
    | none =>
      have hnone := List.find?_eq_none.1 hfind k hk
      simp [hcurrent] at hnone
    | some j =>
      have hp := List.find?_some hfind
      simp only [Bool.and_eq_true, decide_eq_true_eq] at hp
      rw [eq_of_current (List.mem_of_find?_eq_some hfind) hk hp.1 hcurrent hp.2]
      rfl

theorem get?_currentKeys {c : ContentStore} {ids : List ℕ} {n : ℕ} :
    (currentKeys c ids).get? (str n) = if n ∈ ids then currentKeyOf c n else none := by
  have hone : ∀ x v w, (x, v) ∈ (c.answerKeys.select
      (fun k => decide (k.questionVersionId ∈ ids) && k.isCurrent)).map keyEntry →
      (x, w) ∈ (c.answerKeys.select
        (fun k => decide (k.questionVersionId ∈ ids) && k.isCurrent)).map keyEntry → v = w := by
    intro x v w hv hw
    obtain ⟨j, hj, ej⟩ := List.mem_map.1 hv
    obtain ⟨k, hk, ek⟩ := List.mem_map.1 hw
    obtain ⟨hj, pj⟩ := List.mem_filter.1 hj
    obtain ⟨hk, pk⟩ := List.mem_filter.1 hk
    simp only [Bool.and_eq_true] at pj pk
    have hx : str j.questionVersionId = str k.questionVersionId :=
      (congrArg Prod.fst ej).trans (congrArg Prod.fst ek).symm
    have hjk := eq_of_current hj hk pj.2 pk.2 (str_injective hx)
    subst hjk
    exact (congrArg Prod.snd ej).symm.trans (congrArg Prod.snd ek)
  apply Option.ext
  intro kv
  unfold currentKeys
  rw [Dict.get?_ofList_eq_some hone, List.mem_map]
  constructor
  · rintro ⟨k, hk, he⟩
    obtain ⟨hk, hp⟩ := List.mem_filter.1 hk
    simp only [Bool.and_eq_true, decide_eq_true_eq] at hp
    have hn : k.questionVersionId = n := str_injective (congrArg Prod.fst he)
    rw [if_pos (hn ▸ hp.1)]
    exact currentKeyOf_eq_some.2 ⟨k, hk, hp.2, hn, congrArg Prod.snd he⟩
  · intro h
    split at h
    · next hn =>
      obtain ⟨k, hk, hcurrent, rfl, rfl⟩ := currentKeyOf_eq_some.1 h
      exact ⟨k, List.mem_filter.2 ⟨hk, by simp [hn, hcurrent]⟩, rfl⟩
    · cases h

theorem keys_of_scoringInputs {c : ContentStore} {v : ℕ} {i : ScoringInputs}
    (h : scoringInputs c v = .ok i) : ∃ ids : List ℕ,
      (∀ n, i.keys.get? (str n) = if n ∈ ids then currentKeyOf c n else none) ∧
      (∀ x kv, i.keys.get? x = some kv → ∃ n, x = str n) ∧
      ∀ item ∈ i.items, ∃ n ∈ ids, item.questionVersionXid = str n := by
  unfold scoringInputs at h
  obtain ⟨items, hitems, h⟩ := bind_eq_ok.1 h
  obtain ⟨bandMap, _, h⟩ := bind_eq_ok.1 h
  cases h
  refine ⟨((placed c v).insertionSort Placed.before).map (fun p => p.questionVersion.id),
    fun n => get?_currentKeys, ?_, ?_⟩
  · intro x kv hx
    obtain ⟨k, _, hk⟩ := List.mem_map.1 (Dict.mem_of_get?_ofList hx)
    exact ⟨k.questionVersionId, (congrArg Prod.fst hk).symm⟩
  · intro item hitem
    obtain ⟨p, hp, hpi⟩ := exists_input_of_mapM hitems hitem
    obtain ⟨group, _, rfl⟩ := map_eq_ok.1 hpi
    exact ⟨p.questionVersion.id, List.mem_map_of_mem hp, rfl⟩

/-! ## Band maps -/

def bandMapFor (c : ContentStore) (testVersionId : ℕ) : Option BandMap :=
  match scoringInputs c testVersionId with
  | .ok inputs => inputs.bandMap
  | .error _ => none

theorem bandMapFor_of_ok {c : ContentStore} {v : ℕ} {i : ScoringInputs}
    (h : scoringInputs c v = .ok i) : bandMapFor c v = i.bandMap := by
  unfold bandMapFor
  rw [h]

/-- The band map a batch is scored with: that of the first attempt whose paper has one. -/
def batchBandMap (c : ContentStore) (attempts : List Attempt) : Option BandMap :=
  attempts.findSome? (fun a => bandMapFor c a.testVersionId)

/-! ## The loop -/

section
variable {s : Store} {done : List Attempt} {l l' : Loaded} {a : Attempt}

/-- What the loop holds once it has loaded `done`. -/
structure LoadedOf (s : Store) (done : List Attempt) (l : Loaded) : Prop where
  versions : ∀ v i, l.byVersion.get? v = some i → scoringInputs s.content v = .ok i
  seen : ∀ a ∈ done, ∃ i, l.byVersion.get? a.testVersionId = some i
  inputs : List.Forall₂ (fun a input => ∃ i, scoringInputs s.content a.testVersionId = .ok i ∧
    input = attemptInput a i.items (responsesOf (s.answersOf a.id))) done l.inputs
  keyed : ∀ n kv, l.keys.get? (str n) = some kv → currentKeyOf s.content n = some kv
  keys : ∀ a ∈ done, ∀ i, scoringInputs s.content a.testVersionId = .ok i →
    ∀ x, (i.keys.get? x).isSome → (l.keys.get? x).isSome
  bandMap : l.bandMap = batchBandMap s.content done
  named : ∀ x, (l.previous.get? x).isSome → x ∈ done.map Attempt.xid
  previous : (done.map Attempt.xid).Nodup → ∀ a ∈ done,
    l.previous.get? a.xid = (s.currentRun a.id).map asValue

theorem loadedOf_nil (s : Store) : LoadedOf s [] {} where
  versions := by
    intro v i h
    cases h
  seen := by simp
  inputs := .nil
  keyed := by
    intro n kv h
    cases h
  keys := by simp
  bandMap := rfl
  named := by
    intro x h
    cases h
  previous := by simp

theorem inputsFor_eq_ok (h : LoadedOf s done l) {v : ℕ} {i : ScoringInputs}
    (hi : inputsFor s l.byVersion v = .ok i) : scoringInputs s.content v = .ok i := by
  unfold inputsFor at hi
  split at hi
  · next j hj =>
    cases hi
    exact h.versions v i hj
  · exact hi

theorem values_setDefault {κ ν : Type} [DecidableEq κ] (d : Dict κ ν) (k : κ) (v : ν) :
    (d.setDefault k v).values = if (d.get? k).isSome then d.values else d.values ++ [v] := by
  unfold Dict.setDefault
  cases h : d.get? k with
  | some w => rfl
  | none =>
    unfold Dict.values
    simp only [Dict.put, Option.isSome_none]
    rw [putEntry_of_not_mem (Dict.get?_eq_none.1 h)]
    simp

theorem bandMap_step (h : LoadedOf s done l) {i : ScoringInputs}
    (hi : scoringInputs s.content a.testVersionId = .ok i) :
    (l.byVersion.setDefault a.testVersionId i).values.findSome? ScoringInputs.bandMap =
      batchBandMap s.content (done ++ [a]) := by
  have hdone : l.byVersion.values.findSome? ScoringInputs.bandMap =
    batchBandMap s.content done := h.bandMap
  unfold batchBandMap at hdone ⊢
  rw [values_setDefault, List.findSome?_append, ← hdone]
  have hlast : [a].findSome? (fun a => bandMapFor s.content a.testVersionId) = i.bandMap := by
    simp [bandMapFor_of_ok hi]
  rw [hlast]
  cases hv : l.byVersion.get? a.testVersionId with
  | none => simp [List.findSome?_append]
  | some j =>
    -- the version was resolved before, so its band map is already among the values
    have hij : j = i := by
      have hj := h.versions _ _ hv
      rw [hi] at hj
      cases hj
      rfl
    subst hij
    simp only [Option.isSome_some, if_true]
    cases hfind : l.byVersion.values.findSome? ScoringInputs.bandMap with
    | some m => rfl
    | none =>
      have hmem : j ∈ l.byVersion.values := List.mem_map_of_mem (Dict.get?_eq_some.1 hv)
      rw [List.findSome?_eq_none_iff.1 hfind j hmem]
      rfl

theorem previous_step (h : LoadedOf s done l) (hn : ((done ++ [a]).map Attempt.xid).Nodup)
    {b : Attempt} (hb : b ∈ done ++ [a]) :
    (match s.currentRun a.id with
      | none => l.previous
      | some run => l.previous.put a.xid (asValue run)).get? b.xid =
        (s.currentRun b.id).map asValue := by
  rw [List.map_append, List.map_singleton, List.nodup_append] at hn
  obtain ⟨hdone, _, hfresh⟩ := hn
  have hnot : a.xid ∉ done.map Attempt.xid := fun q => hfresh _ q _ List.mem_cons_self rfl
  rcases List.mem_append.1 hb with hb | hb
  · have hne : a.xid ≠ b.xid := fun q => hnot (q ▸ List.mem_map_of_mem hb)
    rw [← h.previous hdone b hb]
    split
    · rfl
    · rw [Dict.get?_put_of_ne _ _ hne]
  · rw [List.mem_singleton.1 hb]
    split
    · next hrun =>
      rw [hrun]
      cases hx : l.previous.get? a.xid with
      | none => rfl
      | some r => exact absurd (h.named a.xid (by rw [hx]; rfl)) hnot
    · next run hrun =>
      rw [hrun, Dict.get?_put_self]
      rfl

theorem loadedOf_step (h : LoadedOf s done l) (hl : loadAttempt s l a = .ok l') :
    LoadedOf s (done ++ [a]) l' := by
  unfold loadAttempt at hl
  obtain ⟨i, hi, rfl⟩ := map_eq_ok.1 hl
  have hi := inputsFor_eq_ok h hi
  obtain ⟨ids, hids, hstr, _⟩ := keys_of_scoringInputs hi
  constructor
  case versions =>
    intro v j hj
    rw [Dict.get?_setDefault] at hj
    split at hj
    · next hv =>
      subst hv
      cases hj
      cases hold : l.byVersion.get? a.testVersionId with
      | none => exact hi
      | some j => exact h.versions _ _ hold
    · exact h.versions v j hj
  case seen =>
    intro b hb
    rw [Dict.get?_setDefault]
    split
    · exact ⟨_, rfl⟩
    · next hv =>
      rcases List.mem_append.1 hb with hb | hb
      · exact h.seen b hb
      · rw [List.mem_singleton.1 hb] at hv
        exact absurd rfl hv
  case inputs => exact List.rel_append h.inputs (.cons ⟨i, hi, rfl⟩ .nil)
  case keyed =>
    intro n kv hkv
    rw [Dict.get?_update] at hkv
    cases hn : i.keys.get? (str n) with
    | none =>
      rw [hn] at hkv
      exact h.keyed n kv hkv
    | some kv' =>
      rw [hn] at hkv
      cases hkv
      rw [hids] at hn
      split at hn
      · exact hn
      · cases hn
  case keys =>
    intro b hb j hj x hx
    rw [Dict.get?_update]
    rcases List.mem_append.1 hb with hb | hb
    · cases hix : i.keys.get? x with
      | some kv => rfl
      | none => exact h.keys b hb j hj x hx
    · rw [List.mem_singleton.1 hb, hi] at hj
      cases hj
      obtain ⟨kv, hkv⟩ := Option.isSome_iff_exists.1 hx
      rw [hkv]
      rfl
  case bandMap => exact bandMap_step h hi
  case named =>
    intro x hx
    rw [List.map_append, List.mem_append]
    split at hx
    · exact .inl (h.named x hx)
    · rw [Dict.get?_put] at hx
      split at hx
      · next hax => exact .inr (by simp [hax])
      · exact .inl (h.named x hx)
  case previous => exact fun hn b hb => previous_step h hn hb

theorem loadedOf_foldlM {batch : List Attempt} (hl : batch.foldlM (loadAttempt s) l = .ok l')
    (h : LoadedOf s done l) : LoadedOf s (done ++ batch) l' := by
  induction batch generalizing done l with
  | nil =>
    cases hl
    simpa using h
  | cons a batch ih =>
    rw [List.foldlM_cons] at hl
    obtain ⟨m, hm, hl⟩ := bind_eq_ok.1 hl
    have hrest := ih hl (loadedOf_step h hm)
    rwa [List.append_assoc, List.singleton_append] at hrest

theorem get?_merged (h : LoadedOf s done l) (ha : a ∈ done) {i : ScoringInputs}
    (hi : scoringInputs s.content a.testVersionId = .ok i) {item : ItemInput}
    (hitem : item ∈ i.items) :
    l.keys.get? item.questionVersionXid = i.keys.get? item.questionVersionXid := by
  obtain ⟨ids, hids, _, hitems⟩ := keys_of_scoringInputs hi
  obtain ⟨n, hn, hx⟩ := hitems item hitem
  have hown : i.keys.get? (str n) = currentKeyOf s.content n := by rw [hids, if_pos hn]
  rw [hx, hown]
  cases hmerged : l.keys.get? (str n) with
  | some kv => exact (h.keyed n kv hmerged).symm
  | none =>
    cases hkey : currentKeyOf s.content n with
    | none => rfl
    | some kv =>
      have hsome := h.keys a ha i hi (str n) (by rw [hown, hkey]; rfl)
      rw [hmerged] at hsome
      cases hsome

end

/-! ## Rescoring one attempt -/

theorem foldlM_scoreStep_congr {scorer : Scorer} {keys keys' : Dict String KeyVersion}
    {responses : Dict String Json} {items : List ItemInput} {t : Tally}
    (h : ∀ item ∈ items, keys.get? item.questionVersionXid = keys'.get? item.questionVersionXid) :
    items.foldlM (scoreStep scorer keys responses) t =
      items.foldlM (scoreStep scorer keys' responses) t := by
  induction items generalizing t with
  | nil => rfl
  | cons item items ih =>
    have hstep : scoreStep scorer keys responses t item =
        scoreStep scorer keys' responses t item := by
      unfold scoreStep
      rw [h item List.mem_cons_self]
    rw [List.foldlM_cons, List.foldlM_cons, hstep]
    congr 1
    funext u
    exact ih (fun x hx => h x (List.mem_cons_of_mem item hx))

theorem scoreAttempt_congr {scorer : Scorer} {keys keys' : Dict String KeyVersion}
    {attempt : AttemptInput} {bandMap : Option BandMap} {reason : String}
    (h : ∀ item ∈ attempt.items,
      keys.get? item.questionVersionXid = keys'.get? item.questionVersionXid) :
    scoreAttempt attempt keys scorer bandMap reason =
      scoreAttempt attempt keys' scorer bandMap reason := by
  unfold scoreAttempt
  rw [foldlM_scoreStep_congr h]

def rescore (scorer : Scorer) (s : Store) (bandMap : Option BandMap) (reason : String)
    (a : Attempt) : Except Raised ScoreRun := do
  let inputs ← scoringInputs s.content a.testVersionId
  scoreAttempt (attemptInput a inputs.items (responsesOf (s.answersOf a.id))) inputs.keys scorer
    bandMap reason

def rescoredDelta (s : Store) (a : Attempt) (run : ScoreRun) : AttemptDelta where
  attemptXid := a.xid
  userXid := str a.userId
  competitionXid := competitionXid a
  oldRaw := ((s.currentRun a.id).map ScoreRunRow.rawScore).getD 0
  newRaw := run.rawScore
  oldBand := (s.currentRun a.id).bind ScoreRunRow.band
  newBand := run.band
  newRun := run

section
variable {s : Store} {scorer : Scorer} {reason : String} {batch : List Attempt}
  {impact : RegradeImpact}

theorem recompute_eq_ok (h : recompute s batch scorer reason = .ok impact) :
    List.Forall₂ (fun a d =>
        rescore scorer s (batchBandMap s.content batch) reason a = .ok d.newRun ∧
        ((batch.map Attempt.xid).Nodup → d = rescoredDelta s a d.newRun)) batch impact.deltas ∧
      impact.scoresChanged = impact.deltas.countP AttemptDelta.scoreChanged ∧
      impact.bandsChanged = impact.deltas.countP AttemptDelta.bandChanged ∧
      impact.competitionImpact = (byCompetition impact.deltas).entries.map
        (fun e => competitionImpactOf e.1 e.2) := by
  unfold recompute at h
  obtain ⟨l, hl, h⟩ := bind_eq_ok.1 h
  have hof : LoadedOf s batch l := by simpa using loadedOf_foldlM hl (loadedOf_nil s)
  obtain ⟨hdeltas, hcounts⟩ := plan_eq_ok h
  refine ⟨?_, hcounts⟩
  have hall := mapM_eq_ok.1 hdeltas
  rw [hof.bandMap] at hall
  have hin := hof.inputs
  rw [List.forall₂_iff_get] at hall hin ⊢
  refine ⟨hin.1.trans hall.1, ?_⟩
  intro n h₁ h₂
  have hn : n < l.inputs.length := by
    rw [hall.1]
    exact h₂
  obtain ⟨i, hi, hinput⟩ := hin.2 n h₁ hn
  obtain ⟨run, hrun, hd⟩ := deltaOf_eq_ok.1 (hall.2 n hn h₂)
  have ha : batch.get ⟨n, h₁⟩ ∈ batch := List.get_mem batch ⟨n, h₁⟩
  rw [hinput] at hrun hd
  rw [scoreAttempt_congr (fun item hitem => get?_merged hof ha hi hitem)] at hrun
  constructor
  · unfold rescore
    rw [hi, hd]
    exact hrun
  · intro hnodup
    rw [hd]
    unfold rescoredDelta attemptInput
    rw [hof.previous hnodup _ ha]
    cases s.currentRun (batch.get ⟨n, h₁⟩).id <;> rfl

theorem computeRun_eq_rescore (a : Attempt) : computeRun scorer s a reason =
    rescore scorer s (bandMapFor s.content a.testVersionId) reason a := by
  unfold computeRun rescore
  cases hi : scoringInputs s.content a.testVersionId with
  | error e => rfl
  | ok i =>
    rw [bandMapFor_of_ok hi]
    rfl

theorem rescore_relabel {b : Option BandMap} {a : Attempt} {run : ScoreRun}
    (b' : Option BandMap) (reason' : String) (h : rescore scorer s b reason a = .ok run) : ∃ run',
      rescore scorer s b' reason' a = .ok run' ∧ run'.rawScore = run.rawScore ∧
      run'.keyVersions = run.keyVersions ∧ run'.itemScores = run.itemScores ∧
      run'.band = bandOf b' run.rawScore ∧ run'.bandMapXid = b'.map BandMap.xid ∧
      run.band = bandOf b run.rawScore ∧ run.bandMapXid = b.map BandMap.xid := by
  unfold rescore at h ⊢
  obtain ⟨i, hi, h⟩ := bind_eq_ok.1 h
  unfold scoreAttempt at h
  obtain ⟨t, ht, rfl⟩ := map_eq_ok.1 h
  refine ⟨_, bind_eq_ok.2 ⟨i, hi, map_eq_ok.2 ⟨t, ht, rfl⟩⟩, ?_⟩
  exact ⟨rfl, rfl, rfl, rfl, rfl, rfl, rfl⟩

end

end IeltsHub.RegradeSpec
