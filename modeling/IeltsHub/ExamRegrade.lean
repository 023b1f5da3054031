import IeltsHub.ExamScoring

set_option autoImplicit false

/-!
# Regrade

A dry run recomputes every affected attempt and counts what would change; applying it returns the
runs to store, refused while a contest it would re-rank lacks a decision. Only a moved band is
worth a notice.
-/
namespace IeltsHub.ExamRegrade
open PyExc PyValue PyDict PlatformErrors QtypesRegistry ExamScoring

structure AttemptDelta where
  attemptXid : String
  userXid : String
  competitionXid : Option String
  oldRaw : ℚ
  newRaw : ℚ
  oldBand : Option ℚ
  newBand : Option ℚ
  newRun : ScoreRun

namespace AttemptDelta
variable (d : AttemptDelta)

def scoreChanged : Bool := d.oldRaw ≠ d.newRaw

def bandChanged : Bool := d.oldBand ≠ d.newBand

def improved : Bool := d.oldRaw < d.newRaw

def bandImproved : Bool := d.oldBand.getD 0 < d.newBand.getD 0

end AttemptDelta

structure CompetitionImpact where
  competitionXid : String
  attempts : ℕ
  rankChanges : ℕ
  podiumChanges : ℕ
  deriving DecidableEq

def CompetitionImpact.decisionRequired (c : CompetitionImpact) : Bool := 0 < c.rankChanges

structure RegradeImpact where
  attemptsTotal : ℕ := 0
  scoresChanged : ℕ := 0
  bandsChanged : ℕ := 0
  improved : ℕ := 0
  worsened : ℕ := 0
  deltas : List AttemptDelta := []
  competitionImpact : List CompetitionImpact := []

/-- One attempt the report names. -/
structure Change where
  attemptXid : String
  userId : String
  oldRaw : ℚ
  newRaw : ℚ
  oldBand : Option ℚ
  newBand : Option ℚ
  deriving DecidableEq

/-- The report a job stores; `error` is merged into it when an apply fails. -/
structure Report where
  attemptsTotal : ℕ := 0
  scoresChanged : ℕ := 0
  bandsChanged : ℕ := 0
  improved : ℕ := 0
  worsened : ℕ := 0
  studentsToNotify : ℕ := 0
  changes : List Change := []
  changesTruncated : Bool := false
  competitionImpact : List CompetitionImpact := []
  error : Option String := none
  deriving DecidableEq

def changesLimit : ℕ := 500

def AttemptDelta.change (d : AttemptDelta) : Change :=
  ⟨d.attemptXid, d.userXid, d.oldRaw, d.newRaw, d.oldBand, d.newBand⟩

def RegradeImpact.asDict (t : RegradeImpact) : Report where
  attemptsTotal := t.attemptsTotal
  scoresChanged := t.scoresChanged
  bandsChanged := t.bandsChanged
  improved := t.improved
  worsened := t.worsened
  studentsToNotify := t.bandsChanged
  changes := ((t.deltas.filter AttemptDelta.bandChanged).map AttemptDelta.change).take changesLimit
  changesTruncated := changesLimit < t.bandsChanged
  competitionImpact := t.competitionImpact

/-! ## The ranking of a batch -/

def ahead (a b : String × ℚ) : Prop := b.2 < a.2 ∨ (a.2 = b.2 ∧ a.1 ≤ b.1)

instance : DecidableRel ahead := fun _ _ => inferInstanceAs (Decidable (_ ∨ _))

def rank (scores : Dict String ℚ) : Dict String ℕ :=
  Dict.ofList (((scores.entries.insertionSort ahead).zipIdx 1).map (fun e => (e.1.1, e.2)))

def place (ranks : Dict String ℕ) (xid : String) : ℕ := (ranks.get? xid).getD 0

def competitionImpactOf (competitionXid : String) (deltas : List AttemptDelta) :
    CompetitionImpact :=
  let before := rank (Dict.ofList (deltas.map (fun d => (d.attemptXid, d.oldRaw))))
  let after := rank (Dict.ofList (deltas.map (fun d => (d.attemptXid, d.newRaw))))
  { competitionXid
    attempts := deltas.length
    rankChanges := before.keys.countP (fun xid => place before xid ≠ place after xid)
    podiumChanges := before.keys.countP (fun xid =>
      decide (place before xid ≤ 3) != decide (place after xid ≤ 3) ||
        (decide (place before xid ≤ 3) && decide (place before xid ≠ place after xid))) }

/-! ## The dry run -/

def deltaOf (previous : Dict String ScoreRun) (keys : Dict String KeyVersion) (scorer : Scorer)
    (bandMap : Option BandMap) (reason : String) (attempt : AttemptInput) :
    Except Raised AttemptDelta :=
  (fun run =>
    { attemptXid := attempt.attemptXid
      userXid := attempt.userXid
      competitionXid := attempt.competitionXid
      oldRaw := ((previous.get? attempt.attemptXid).map ScoreRun.rawScore).getD 0
      newRaw := run.rawScore
      oldBand := (previous.get? attempt.attemptXid).bind ScoreRun.band
      newBand := run.band
      newRun := run }) <$> scoreAttempt attempt keys scorer bandMap reason

def RegradeImpact.add (t : RegradeImpact) (d : AttemptDelta) : RegradeImpact :=
  { t with
    attemptsTotal := t.attemptsTotal + 1
    deltas := t.deltas ++ [d]
    scoresChanged := if d.scoreChanged then t.scoresChanged + 1 else t.scoresChanged
    improved := if d.scoreChanged && d.improved then t.improved + 1 else t.improved
    worsened := if d.scoreChanged && !d.improved then t.worsened + 1 else t.worsened
    bandsChanged := if d.bandChanged then t.bandsChanged + 1 else t.bandsChanged }

def byCompetition (deltas : List AttemptDelta) : Dict String (List AttemptDelta) :=
  deltas.foldl (fun groups d =>
    match d.competitionXid with
    | none => groups
    | some xid =>
      if xid = "" then groups else groups.put xid ((groups.get? xid).getD [] ++ [d])) Dict.empty

def plan (attempts : List AttemptInput) (previous : Dict String ScoreRun)
    (keys : Dict String KeyVersion) (scorer : Scorer) (bandMap : Option BandMap)
    (reason : String) : Except Raised RegradeImpact := do
  let impact ← attempts.foldlM (fun (t : RegradeImpact) attempt =>
    t.add <$> deltaOf previous keys scorer bandMap reason attempt) {}
  return { impact with
    competitionImpact := (byCompetition impact.deltas).entries.map
      (fun e => competitionImpactOf e.1 e.2) }

/-! ## The commit -/

def undecided (impact : RegradeImpact) (decided : List String) : List String :=
  (impact.competitionImpact.filter
    (fun c => c.decisionRequired && !decided.contains c.competitionXid)).map
      CompetitionImpact.competitionXid

def decisionRequired (competitions : List String) : Raised :=
  .domain (.conflict ("Regrade would change finished competition rankings; a platform admin " ++
    "must decide first.") "competition_decision_required" competitions)

def apply (impact : RegradeImpact) (decided : List String) : Except Raised (List ScoreRun) :=
  if undecided impact decided = [] then
    .ok ((impact.deltas.filter AttemptDelta.scoreChanged).map AttemptDelta.newRun)
  else .error (decisionRequired (undecided impact decided))

structure Notice where
  userXid : String
  template : String
  dedupeKey : String
  params : Obj
  deriving DecidableEq

def bandJson (band : Option ℚ) : Json := (band.map Json.real).getD .null

def dedupeKey (shown : ScoreRun → String) (d : AttemptDelta) : String :=
  "regrade:" ++ d.attemptXid ++ ":" ++ shown d.newRun

def noticeOf (shown : ScoreRun → String) (d : AttemptDelta) : Notice where
  userXid := d.userXid
  template := "regrade.band_changed"
  dedupeKey := dedupeKey shown d
  params := Dict.ofList
    [("attempt_xid", .str d.attemptXid), ("old_band", bandJson d.oldBand),
      ("new_band", bandJson d.newBand),
      ("direction", .str (if d.bandImproved then "up" else "down"))]

/-- One notice for each moved band. `shown` is the text of a run's raw score: a decimal prints
with the places it was computed to, which its value does not tell. -/
def notificationsFor (shown : ScoreRun → String) (impact : RegradeImpact) : List Notice :=
  (impact.deltas.filter AttemptDelta.bandChanged).map (noticeOf shown)

/-! ## What a dry run counts -/

section
variable {previous : Dict String ScoreRun} {keys : Dict String KeyVersion} {scorer : Scorer}
  {bandMap : Option BandMap} {reason : String}

theorem deltaOf_eq_ok {attempt : AttemptInput} {d : AttemptDelta} :
    deltaOf previous keys scorer bandMap reason attempt = .ok d ↔
      ∃ run, scoreAttempt attempt keys scorer bandMap reason = .ok run ∧
        d = ⟨attempt.attemptXid, attempt.userXid, attempt.competitionXid,
          ((previous.get? attempt.attemptXid).map ScoreRun.rawScore).getD 0, run.rawScore,
          (previous.get? attempt.attemptXid).bind ScoreRun.band, run.band, run⟩ := by
  unfold deltaOf
  rw [map_eq_ok]
  constructor
  · rintro ⟨run, h, rfl⟩
    exact ⟨run, h, rfl⟩
  · rintro ⟨run, h, rfl⟩
    exact ⟨run, h, rfl⟩

theorem add_deltas (t : RegradeImpact) (d : AttemptDelta) : (t.add d).deltas = t.deltas ++ [d] :=
  rfl

theorem foldl_add_deltas (ds : List AttemptDelta) (t : RegradeImpact) :
    (ds.foldl RegradeImpact.add t).deltas = t.deltas ++ ds := by
  induction ds generalizing t with
  | nil => simp
  | cons d ds ih => rw [List.foldl_cons, ih, add_deltas, List.append_assoc, List.singleton_append]

theorem foldl_add_scoresChanged (ds : List AttemptDelta) (t : RegradeImpact) :
    (ds.foldl RegradeImpact.add t).scoresChanged =
      t.scoresChanged + ds.countP AttemptDelta.scoreChanged := by
  induction ds generalizing t with
  | nil => simp
  | cons d ds ih =>
    rw [List.foldl_cons, ih, List.countP_cons]
    cases h : d.scoreChanged <;> simp [RegradeImpact.add, h]
    omega

theorem foldl_add_bandsChanged (ds : List AttemptDelta) (t : RegradeImpact) :
    (ds.foldl RegradeImpact.add t).bandsChanged =
      t.bandsChanged + ds.countP AttemptDelta.bandChanged := by
  induction ds generalizing t with
  | nil => simp
  | cons d ds ih =>
    rw [List.foldl_cons, ih, List.countP_cons]
    cases h : d.bandChanged <;> simp [RegradeImpact.add, h]
    omega

theorem foldlM_add {attempts : List AttemptInput} {t t' : RegradeImpact} :
    attempts.foldlM (fun (t : RegradeImpact) attempt =>
        t.add <$> deltaOf previous keys scorer bandMap reason attempt) t = .ok t' ↔
      ∃ ds, attempts.mapM (deltaOf previous keys scorer bandMap reason) = .ok ds ∧
        t' = ds.foldl RegradeImpact.add t := by
  induction attempts generalizing t with
  | nil =>
    constructor
    · intro h
      cases h
      exact ⟨[], rfl, rfl⟩
    · rintro ⟨ds, h, rfl⟩
      cases h
      rfl
  | cons attempt attempts ih =>
    rw [List.foldlM_cons, bind_eq_ok]
    constructor
    · rintro ⟨u, hu, h⟩
      obtain ⟨d, hd, rfl⟩ := map_eq_ok.1 hu
      obtain ⟨ds, hds, rfl⟩ := ih.1 h
      exact ⟨d :: ds, mapM_cons_eq_ok.2 ⟨d, ds, hd, hds, rfl⟩, rfl⟩
    · rintro ⟨ds, h, rfl⟩
      obtain ⟨d, ds, hd, hds, rfl⟩ := mapM_cons_eq_ok.1 h
      exact ⟨t.add d, map_eq_ok.2 ⟨d, hd, rfl⟩, ih.2 ⟨ds, hds, rfl⟩⟩

theorem plan_eq_ok {attempts : List AttemptInput} {impact : RegradeImpact}
    (h : plan attempts previous keys scorer bandMap reason = .ok impact) :
    attempts.mapM (deltaOf previous keys scorer bandMap reason) = .ok impact.deltas ∧
      impact.scoresChanged = impact.deltas.countP AttemptDelta.scoreChanged ∧
      impact.bandsChanged = impact.deltas.countP AttemptDelta.bandChanged ∧
      impact.competitionImpact = (byCompetition impact.deltas).entries.map
        (fun e => competitionImpactOf e.1 e.2) := by
  unfold plan at h
  obtain ⟨t, ht, h⟩ := bind_eq_ok.1 h
  obtain ⟨ds, hds, rfl⟩ := foldlM_add.1 ht
  cases h
  have hdeltas : (ds.foldl RegradeImpact.add {}).deltas = ds := by
    rw [foldl_add_deltas]
    rfl
  refine ⟨?_, ?_, ?_, rfl⟩
  · change _ = Except.ok (ds.foldl RegradeImpact.add {}).deltas
    rw [hds, hdeltas]
  · change (ds.foldl RegradeImpact.add {}).scoresChanged = _
    rw [foldl_add_scoresChanged]
    change 0 + _ = List.countP _ (ds.foldl RegradeImpact.add {}).deltas
    rw [hdeltas, zero_add]
  · change (ds.foldl RegradeImpact.add {}).bandsChanged = _
    rw [foldl_add_bandsChanged]
    change 0 + _ = List.countP _ (ds.foldl RegradeImpact.add {}).deltas
    rw [hdeltas, zero_add]

end

end IeltsHub.ExamRegrade
