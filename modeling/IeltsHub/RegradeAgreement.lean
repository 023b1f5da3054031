import IeltsHub.RegradeSpec
import IeltsHub.ScoringTotality

set_option autoImplicit false

/-!
# A regrade and a submit of the same answers

Two assemblers build the inputs of a score: one for an attempt that submits, one for a batch. They
agree on marks, keys and items always, and on the band exactly while the papers of the batch
share one band map.
-/
namespace IeltsHub.RegradeAgreement
open PyExc QtypesRegistry RowTable ContentModels ExamScoring ExamModels ExamScoringInputs
  ExamRegrade RegradePlanner RegradeSpec

/-- One result under two labels. -/
structure Agrees (r r' : ScoreRun) : Prop where
  rawScore : r.rawScore = r'.rawScore
  band : r.band = r'.band
  bandMapXid : r.bandMapXid = r'.bandMapXid
  keyVersions : r.keyVersions = r'.keyVersions
  itemScores : r.itemScores = r'.itemScores

theorem Agrees.symm {r r' : ScoreRun} (h : Agrees r r') : Agrees r' r :=
  ⟨h.rawScore.symm, h.band.symm, h.bandMapXid.symm, h.keyVersions.symm, h.itemScores.symm⟩

theorem Agrees.trans {r r' r'' : ScoreRun} (h : Agrees r r') (h' : Agrees r' r'') : Agrees r r'' :=
  ⟨h.rawScore.trans h'.rawScore, h.band.trans h'.band, h.bandMapXid.trans h'.bandMapXid,
    h.keyVersions.trans h'.keyVersions, h.itemScores.trans h'.itemScores⟩

/-- Every attempt of the batch gets the run that a submit of it would score. -/
def AgreesWithSubmit (scorer : Scorer) (s : Store) (batch : List Attempt)
    (impact : RegradeImpact) : Prop :=
  List.Forall₂ (fun a d => ∃ run, computeRun scorer s a "initial" = .ok run ∧ Agrees d.newRun run)
    batch impact.deltas

/-- The papers of the batch resolve to one band map, or all to none. -/
def OneBandMap (c : ContentStore) (batch : List Attempt) : Prop :=
  ∀ a ∈ batch, ∀ b ∈ batch, bandMapVersion c a.testVersionId = bandMapVersion c b.testVersionId

instance (c : ContentStore) (batch : List Attempt) : Decidable (OneBandMap c batch) :=
  inferInstanceAs (Decidable (∀ a ∈ batch, ∀ b ∈ batch, _))

/-! ## The band map of a paper and its row -/

section
variable {c : ContentStore} {v w : ℕ} {i j : ScoringInputs}

theorem bandMap_of_scoringInputs (h : scoringInputs c v = .ok i) :
    (bandMapVersion c v).mapM bandMapOf = .ok i.bandMap := by
  unfold scoringInputs at h
  obtain ⟨items, _, h⟩ := bind_eq_ok.1 h
  obtain ⟨bandMap, hbandMap, h⟩ := bind_eq_ok.1 h
  cases h
  exact hbandMap

theorem xid_bandMapFor (h : scoringInputs c v = .ok i) :
    (bandMapFor c v).map BandMap.xid = (bandMapVersion c v).map (fun b => str b.id) := by
  rw [bandMapFor_of_ok h]
  have hmap := bandMap_of_scoringInputs h
  cases hrow : bandMapVersion c v with
  | none =>
    rw [hrow] at hmap
    have hnone : (none : Option BandMap) = i.bandMap := Except.ok.inj hmap
    rw [← hnone]
    rfl
  | some b =>
    rw [hrow] at hmap
    obtain ⟨m, hm, hi⟩ := map_eq_ok.1 hmap
    obtain ⟨rows, _, hm⟩ := map_eq_ok.1 hm
    rw [← hi, ← hm]
    rfl

theorem get?_of_bandMapVersion {b : BandMapVersion} (h : bandMapVersion c v = some b) :
    c.bandMaps.get? b.id = some b := by
  unfold bandMapVersion at h
  obtain ⟨tv, _, h⟩ := Option.bind_eq_some_iff.1 h
  obtain ⟨id, _, h⟩ := Option.bind_eq_some_iff.1 h
  split at h
  · cases h
  · rwa [Table.get?_key h]

theorem bandMapVersion_eq_of_xid
    (h : (bandMapVersion c v).map (fun b => str b.id) =
      (bandMapVersion c w).map (fun b => str b.id)) :
    bandMapVersion c v = bandMapVersion c w := by
  cases hv : bandMapVersion c v with
  | none =>
    rw [hv] at h
    exact (Option.map_eq_none_iff.1 h.symm).symm
  | some b =>
    rw [hv] at h
    obtain ⟨b', hw, hid⟩ := Option.map_eq_some_iff.1 h.symm
    have hrow := get?_of_bandMapVersion hv
    rw [← str_injective hid, get?_of_bandMapVersion hw] at hrow
    rw [hw, hrow]

theorem bandMapFor_eq_iff (hv : scoringInputs c v = .ok i) (hw : scoringInputs c w = .ok j) :
    bandMapFor c v = bandMapFor c w ↔ bandMapVersion c v = bandMapVersion c w := by
  constructor
  · intro h
    apply bandMapVersion_eq_of_xid
    rw [← xid_bandMapFor hv, ← xid_bandMapFor hw, h]
  · intro h
    have hmap := bandMap_of_scoringInputs hv
    rw [h, bandMap_of_scoringInputs hw] at hmap
    rw [bandMapFor_of_ok hv, bandMapFor_of_ok hw]
    exact (Except.ok.inj hmap).symm

end

/-! ## The two assemblers -/

section
variable {scorer : Scorer} {s : Store} {reason : String} {batch : List Attempt}
  {impact : RegradeImpact}

def OfPaper (c : ContentStore) (m : Option BandMap) : Prop :=
  m = none ∨ ∃ v i, scoringInputs c v = .ok i ∧ m = bandMapFor c v

theorem eq_of_xid {c : ContentStore} {m : Option BandMap} (hm : OfPaper c m) {v : ℕ}
    {i : ScoringInputs} (hv : scoringInputs c v = .ok i)
    (h : m.map BandMap.xid = (bandMapFor c v).map BandMap.xid) : m = bandMapFor c v := by
  rcases hm with rfl | ⟨w, j, hw, rfl⟩
  · exact (Option.map_eq_none_iff.1 h.symm).symm
  · apply (bandMapFor_eq_iff hw hv).2
    apply bandMapVersion_eq_of_xid
    rw [← xid_bandMapFor hw, ← xid_bandMapFor hv, h]

/-- Rescored under the band map of some paper, an attempt agrees with its submit when that map is
its own, and only then: everything else a run says is the same under any. -/
theorem agrees_iff {m : Option BandMap} (hm : OfPaper s.content m) {a : Attempt} {run : ScoreRun}
    (h : rescore scorer s m reason a = .ok run) :
    (∃ run', computeRun scorer s a "initial" = .ok run' ∧ Agrees run run') ↔
      m = bandMapFor s.content a.testVersionId := by
  obtain ⟨run', hrun', hraw, hkeys, hitems, hband', hxid', hband, hxid⟩ :=
    rescore_relabel (bandMapFor s.content a.testVersionId) "initial" h
  rw [computeRun_eq_rescore]
  constructor
  · rintro ⟨run'', hrun'', hagrees⟩
    rw [hrun'] at hrun''
    cases hrun''
    obtain ⟨i, hi, _⟩ := bind_eq_ok.1 h
    apply eq_of_xid hm hi
    rw [← hxid, ← hxid', hagrees.bandMapXid]
  · intro heq
    exact ⟨run', hrun', hraw.symm, by rw [hband, hband', heq], by rw [hxid, hxid', heq],
      hkeys.symm, hitems.symm⟩

theorem batchBandMap_cases (c : ContentStore) (batch : List Attempt) :
    (batchBandMap c batch = none ∧ ∀ a ∈ batch, bandMapFor c a.testVersionId = none) ∨
      ∃ a ∈ batch, batchBandMap c batch = bandMapFor c a.testVersionId := by
  cases h : batchBandMap c batch with
  | none => exact .inl ⟨rfl, List.findSome?_eq_none_iff.1 h⟩
  | some m =>
    obtain ⟨a, ha, hm⟩ := List.exists_of_findSome?_eq_some h
    exact .inr ⟨a, ha, hm.symm⟩

theorem rescored_of_mem (h : recompute s batch scorer reason = .ok impact) {a : Attempt}
    (ha : a ∈ batch) :
    ∃ run, rescore scorer s (batchBandMap s.content batch) reason a = .ok run := by
  have hall := (recompute_eq_ok h).1
  obtain ⟨n, hn, rfl⟩ := List.getElem_of_mem ha
  rw [List.forall₂_iff_get] at hall
  exact ⟨_, (hall.2 n hn (hall.1 ▸ hn)).1⟩

theorem inputs_of_mem (h : recompute s batch scorer reason = .ok impact) {a : Attempt}
    (ha : a ∈ batch) : ∃ i, scoringInputs s.content a.testVersionId = .ok i := by
  obtain ⟨run, hrun⟩ := rescored_of_mem h ha
  obtain ⟨i, hi, _⟩ := bind_eq_ok.1 hrun
  exact ⟨i, hi⟩

theorem batchBandMap_ofPaper (h : recompute s batch scorer reason = .ok impact) :
    OfPaper s.content (batchBandMap s.content batch) := by
  rcases batchBandMap_cases s.content batch with ⟨hnone, _⟩ | ⟨a, ha, heq⟩
  · exact .inl hnone
  · obtain ⟨i, hi⟩ := inputs_of_mem h ha
    exact .inr ⟨a.testVersionId, i, hi, heq⟩

theorem oneBandMap_iff (h : recompute s batch scorer reason = .ok impact) :
    OneBandMap s.content batch ↔
      ∀ a ∈ batch, batchBandMap s.content batch = bandMapFor s.content a.testVersionId := by
  constructor
  · intro hone b hb
    rcases batchBandMap_cases s.content batch with ⟨hnone, hall⟩ | ⟨a, ha, heq⟩
    · rw [hnone, hall b hb]
    · obtain ⟨i, hi⟩ := inputs_of_mem h ha
      obtain ⟨j, hj⟩ := inputs_of_mem h hb
      rw [heq, (bandMapFor_eq_iff hi hj).2 (hone a ha b hb)]
  · intro hall a ha b hb
    obtain ⟨i, hi⟩ := inputs_of_mem h ha
    obtain ⟨j, hj⟩ := inputs_of_mem h hb
    rw [← bandMapFor_eq_iff hi hj, ← hall a ha, hall b hb]

theorem agreesWithSubmit_iff (h : recompute s batch scorer reason = .ok impact) :
    AgreesWithSubmit scorer s batch impact ↔ OneBandMap s.content batch := by
  have hall := (recompute_eq_ok h).1
  have hpaper := batchBandMap_ofPaper h
  rw [oneBandMap_iff h]
  unfold AgreesWithSubmit
  rw [List.forall₂_iff_get] at hall ⊢
  constructor
  · rintro ⟨_, hagrees⟩ a ha
    obtain ⟨n, hn, rfl⟩ := List.getElem_of_mem ha
    have hn' : n < impact.deltas.length := hall.1 ▸ hn
    exact (agrees_iff hpaper (hall.2 n hn hn').1).1 (hagrees n hn hn')
  · intro hown
    refine ⟨hall.1, fun n hn hn' => ?_⟩
    exact (agrees_iff hpaper (hall.2 n hn hn').1).2 (hown _ (List.get_mem batch ⟨n, hn⟩))

theorem agrees_of_mem {a : Attempt} {d : AttemptDelta}
    (h : AgreesWithSubmit scorer s batch impact) (ha : (a, d) ∈ batch.zip impact.deltas) :
    ∃ run, computeRun scorer s a "initial" = .ok run ∧ Agrees d.newRun run :=
  List.forall₂_zip h ha

end

/-- A batch agrees with the submits of its attempts exactly while their papers share one band map;
then the result of an attempt does not depend on the batch it is in. -/
theorem regrade_agrees_with_submit {scorer : Scorer} {s : Store} {reason : String}
    {batch : List Attempt} {impact : RegradeImpact}
    (h : recompute s batch scorer reason = .ok impact) :
    (AgreesWithSubmit scorer s batch impact ↔ OneBandMap s.content batch) ∧
      ∀ batch' impact', recompute s batch' scorer reason = .ok impact' →
        OneBandMap s.content batch → OneBandMap s.content batch' →
        ∀ a d d', (a, d) ∈ batch.zip impact.deltas → (a, d') ∈ batch'.zip impact'.deltas →
          Agrees d.newRun d'.newRun := by
  refine ⟨agreesWithSubmit_iff h, ?_⟩
  intro batch' impact' h' hone hone' a d d' ha ha'
  obtain ⟨run, hrun, hagrees⟩ := agrees_of_mem ((agreesWithSubmit_iff h).2 hone) ha
  obtain ⟨run', hrun', hagrees'⟩ := agrees_of_mem ((agreesWithSubmit_iff h').2 hone') ha'
  rw [hrun] at hrun'
  cases hrun'
  exact hagrees.trans hagrees'.symm

/-! ## A shared question on two papers -/

def twoPapers : ContentStore :=
  { onePage with
    testVersions := onePage.testVersions.put { id := 2, xid := "tv2", bandMapVersionId := some 2 }
    sections := onePage.sections.put { id := 2, testVersionId := 2 }
    groups := onePage.groups.put { id := 2, sectionId := 2, groupVersionId := 1 }
    bandMaps := onePage.bandMaps.put
      { id := 2, maxRaw := 1
        mapping := [.obj [("raw_min", .int 0), ("raw_max", .int 0), ("band", .int 6)],
          .obj [("raw_min", .int 1), ("raw_max", .int 1), ("band", .int 7)]] } }

def twoSat : Store where
  content := twoPapers
  attempts := (Table.put .empty
    { id := 1, xid := "a1", userId := 1, testVersionId := 1, status := .scored }).put
    { id := 2, xid := "a2", userId := 2, testVersionId := 2, status := .scored }
  answers := (Table.put .empty
    { attemptId := 1, questionVersionId := 1, slotKey := "s1", response := .str "2"
      firstAnsweredAt := 0, updatedAt := 0 }).put
    { attemptId := 2, questionVersionId := 1, slotKey := "s1", response := .str "2"
      firstAnsweredAt := 0, updatedAt := 0 }

def bandsOf (impact : RegradeImpact) : List (Option ℚ) := impact.deltas.map AttemptDelta.newBand

theorem regrade_agrees_on_one_paper : ∃ impact,
    recompute twoSat (twoSat.attempts.rows.take 1) ScoringTotality.sampleScorer "recompute" =
      .ok impact ∧
    AgreesWithSubmit ScoringTotality.sampleScorer twoSat (twoSat.attempts.rows.take 1) impact := by
  have hreturns : Returns (recompute twoSat (twoSat.attempts.rows.take 1)
    ScoringTotality.sampleScorer "recompute") := by decide +kernel
  obtain ⟨impact, h⟩ := hreturns
  exact ⟨impact, h, (regrade_agrees_with_submit h).1.2 (by decide +kernel)⟩

/-- A regrade of the shared question bands the second paper by the map of the first. -/
theorem second_paper_gets_the_first_band_map :
    ∃ impact, recompute twoSat twoSat.attempts.rows ScoringTotality.sampleScorer "recompute" =
        .ok impact ∧ bandsOf impact = [some 5, some 5] ∧
      ((computeRun ScoringTotality.sampleScorer twoSat
        { id := 2, xid := "a2", userId := 2, testVersionId := 2, status := .scored }
        "initial").map ScoreRun.band).toOption = some (some 7) ∧
      ¬ AgreesWithSubmit ScoringTotality.sampleScorer twoSat twoSat.attempts.rows impact := by
  have hbands : ((recompute twoSat twoSat.attempts.rows ScoringTotality.sampleScorer
    "recompute").map bandsOf).toOption = some [some 5, some 5] := by decide +kernel
  cases h : recompute twoSat twoSat.attempts.rows ScoringTotality.sampleScorer "recompute" with
  | error e =>
    rw [h] at hbands
    cases hbands
  | ok impact =>
    rw [h] at hbands
    refine ⟨impact, rfl, Option.some.inj hbands, by decide +kernel, ?_⟩
    rw [agreesWithSubmit_iff h]
    decide +kernel

end IeltsHub.RegradeAgreement
