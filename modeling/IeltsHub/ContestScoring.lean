import IeltsHub.ContestRequests
import IeltsHub.EqualAnswers
import IeltsHub.KeyFixes
import IeltsHub.SessionScores

set_option autoImplicit false

/-!
# Scoring a contest

A contest with its entrants' attempts and the content they are scored from. The first release of
the payload key records the current keys of the paper and its band map; a key is fixed on
published content; and a submit is scored from the keys that are current when it is scored.
-/
namespace IeltsHub.ContestScoring
open PyValue PyDict PyTime RowTable ContentModels ExamModels ExamScoring ExamScoringInputs
  ExamSession ContentTables AuthoringEdits ContestRequests PlatformRefusals EqualAnswers KeyFixes

/-- A contest, and the database it is held in: `exam` holds the content as the library has it. -/
structure State where
  contestId : ℕ
  contest : Contest
  entries : Table Entry ℕ Entry.userId := .empty
  library : Library
  exam : World

namespace State

def view (s : State) : ContestRequests.Store where
  contest := s.contest
  content := s.library.content
  entries := s.entries

def paperId (s : State) : ℕ := s.contest.testVersionId

def entrants (s : State) : List Attempt :=
  s.exam.store.attempts.select (fun x => x.competitionId = some s.contestId)

def initialRuns (s : State) (attempt : ℕ) : List ScoreRunRow :=
  (s.exam.store.runsOf attempt).filter (fun row => row.reason = "initial")

end State

/-! ## The release of the payload key -/

def entrantAttempt (s : State) (actor : Actor) (xid : String) : Attempt where
  id := s.exam.store.attempts.nextId
  xid := xid
  userId := actor.userId
  testVersionId := s.paperId
  competitionId := some s.contestId
  mode := .exam
  status := .inProgress
  expiresAt := some (contestAttempt s.contest actor.userId).expiresAt

/-- `ExamSession.start`: the attempt, a row for each section of its paper, and its event. -/
def start (ses : ExamSession) (row : Attempt) : Tx Unit := do
  putAttempt row
  setStore (fun s => { s with
    attemptSections :=
      (s.content.sections.select (fun x => x.testVersionId = row.testVersionId)).foldl
        (fun t x => t.put { attemptId := row.id, sectionId := x.id, position := x.position })
        s.attemptSections })
  ses.emit row "attempt.started" Dict.empty

def started (ses : ExamSession) (s : State) (actor : Actor) (xid : String) (entry : Entry)
    (now : Time) : State :=
  { s with
    exam := (start ses (entrantAttempt s actor xid) s.exam).2
    entries := s.entries.put { entry with
      attemptId := some (entrantAttempt s actor xid).id, status := .started
      keyReleasedAt := some (entry.keyReleasedAt.getD now) }
    contest := (freezeKeys s.view now).getD s.contest }

def releaseKey (ses : ExamSession) (s : State) (actor : Actor) (xid : String) (now : Time) :
    Except Refusal State :=
  if !visible s.view actor then .error competitionNotFound
  else if now < s.contest.startsAt then .error notStarted
  else if now > s.contest.endsAt then .error competitionFinished
  else
    match entryOf s.view actor.userId with
    | none => .error notRegistered
    | some entry =>
      if entry.status = .disqualified then .error disqualified
      else if entry.attemptId ≠ none then .ok s
      else
        match s.library.content.testVersions.get? s.paperId with
        | none => .error (notFound "Test version not found.")
        | some tv =>
          if tv.status ≠ .published then
            .error (conflict "Only a published test version can be sat."
              "test_version_not_published")
          else .ok (started ses s actor xid entry now)

/-! ## Steps -/

/-- `fix_answer_key`; the exam reads the content it leaves. -/
def fixKey (s : State) (questionVersionId : ℕ) (r : Reach) (b : AnswerKeyBody) (xid : String) :
    Except ContentDrafts.Raised State := do
  let library ← fixAnswerKey s.library questionVersionId r b xid
  return { s with
    library := library
    exam := { s.exam with store := { s.exam.store with content := library.content } } }

inductive Act where
  | session (call : SessionRuns.Call)
  | fixKey (questionVersionId : ℕ) (r : Reach) (b : AnswerKeyBody) (xid : String)
  | releaseKey (actor : Actor) (xid : String) (now : Time)

/-- What a request makes of the database; one that raises is rolled back. -/
inductive Step (ses : ExamSession) (s : State) : Act → State → Prop where
  | session {c : SessionRuns.Call} {w : World} (h : SessionRuns.Step ses s.exam c w) :
      Step ses s (.session c) { s with exam := w }
  | fixKey {id : ℕ} {r : Reach} {b : AnswerKeyBody} {xid : String} {t : State}
      (h : ContestScoring.fixKey s id r b xid = .ok t) : Step ses s (.fixKey id r b xid) t
  | releaseKey {actor : Actor} {xid : String} {now : Time} {t : State}
      (h : ContestScoring.releaseKey ses s actor xid now = .ok t) :
      Step ses s (.releaseKey actor xid now) t
  | rolledBack (a : Act) : Step ses s a s

/-! ## What is recorded -/

/-- The key versions of the freeze, as `score_runs.key_versions` names them. -/
def recorded (f : KeyFreeze) : Dict String String :=
  Dict.ofList (f.keyVersions.filterMap (fun e => e.2.map (fun k => (str e.1, str k))))

/-- The run was scored from the keys and the band map of the freeze. -/
def ScoredFrom (f : KeyFreeze) (row : ScoreRunRow) : Prop :=
  (∀ q, row.keyVersions.get? q = (recorded f).get? q) ∧
    row.bandMapVersionId = f.bandMapVersionId.map Nat.cast

/-- Every initial run of an entrant was scored from what the contest recorded. -/
def Recorded (s : State) : Prop :=
  ∀ x ∈ s.entrants, ∀ row ∈ s.initialRuns x.id,
    ∃ f, s.contest.keyFreeze = some f ∧ ScoredFrom f row

/-- Where a question takes one selection, both attempts first answered with the same. -/
def SamePicks (scorer : QtypesRegistry.Scorer) (s : State) (a b : ℕ) : Prop :=
  ∀ p ∈ placed s.library.content s.paperId,
    Selects scorer p.questionVersion.typeKey p.questionVersion.typeVersion →
      QtypesPrimitives.firstSelection (answersTo s.exam.store a p.questionVersion.id) =
        QtypesPrimitives.firstSelection (answersTo s.exam.store b p.questionVersion.id)

def EvenHanded (scorer : QtypesRegistry.Scorer) (s : State) : Prop :=
  ∀ x ∈ s.entrants, ∀ y ∈ s.entrants, SameResponses s.exam.store x.id y.id →
    SamePicks scorer s x.id y.id →
      ∀ rx ∈ s.initialRuns x.id, ∀ ry ∈ s.initialRuns y.id, rx.rawScore = ry.rawScore

/-! ## A freeze and the keys it was taken of -/

section
variable {c c' : ContentStore} {v n : ℕ}

def questionIds (c : ContentStore) (v : ℕ) : List ℕ :=
  (placed c v).map (fun p => p.questionVersion.id)

def currentXid (c : ContentStore) (n : ℕ) : Option String :=
  (RegradeSpec.currentKeyOf c n).map KeyVersion.xid

theorem frozen_entry (c : ContentStore) (n : ℕ) :
    ((c.answerKeys.select (fun k => k.questionVersionId = n && k.isCurrent)).head?.map
      AnswerKeyVersion.id).map str = currentXid c n := by
  unfold currentXid RegradeSpec.currentKeyOf Table.select
  rw [List.head?_filter, Option.map_map, Option.map_map]
  simp only [Bool.and_comm]
  rfl

theorem get?_recorded_frozen {t : Time} {x y : String} :
    (recorded (frozen c v t)).get? x = some y ↔
      ∃ n ∈ questionIds c v, x = str n ∧ currentXid c n = some y := by
  have hentry : ∀ a b, (a, b) ∈ (frozen c v t).keyVersions.filterMap
      (fun e => e.2.map (fun k => (str e.1, str k))) ↔
        ∃ n ∈ questionIds c v, a = str n ∧ currentXid c n = some b := by
    intro a b
    unfold frozen questionIds
    simp only [List.mem_filterMap, List.mem_map]
    constructor
    · rintro ⟨e, ⟨p, hp, rfl⟩, he⟩
      obtain ⟨k, hk, hab⟩ := Option.map_eq_some_iff.1 he
      obtain ⟨rfl, rfl⟩ := Prod.mk.inj hab
      refine ⟨_, ⟨p, hp, rfl⟩, rfl, ?_⟩
      dsimp only at hk
      rw [← frozen_entry, hk]
      rfl
    · rintro ⟨n, ⟨p, hp, rfl⟩, rfl, hb⟩
      rw [← frozen_entry] at hb
      obtain ⟨k, hk, rfl⟩ := Option.map_eq_some_iff.1 hb
      refine ⟨_, ⟨p, hp, rfl⟩, ?_⟩
      exact Option.map_eq_some_iff.2 ⟨k, hk, rfl⟩
  unfold recorded
  rw [Dict.get?_ofList_eq_some, hentry]
  intro k y z hy hz
  obtain ⟨n, _, rfl, hn⟩ := (hentry k y).1 hy
  obtain ⟨m, _, hnm, hm⟩ := (hentry _ z).1 hz
  have hsame : n = m := str_injective hnm
  subst hsame
  exact Option.some.inj (hn.symm.trans hm)

theorem currentXid_of_frozen {t : Time} (h : Rekeyed c c')
    (hfrozen : frozen c' v t = frozen c v t) (hn : n ∈ questionIds c v) :
    currentXid c' n = currentXid c n := by
  have hlist := congrArg KeyFreeze.keyVersions hfrozen
  unfold frozen at hlist
  dsimp only at hlist
  rw [h.placed] at hlist
  obtain ⟨p, hp, rfl⟩ := List.mem_map.1 hn
  have hentry := List.map_inj_left.1 hlist p hp
  rw [← frozen_entry, ← frozen_entry, (Prod.mk.inj hentry).2]

theorem currentKeyOf_congr (h : Rekeyed c c') (hn : currentXid c' n = currentXid c n) :
    RegradeSpec.currentKeyOf c' n = RegradeSpec.currentKeyOf c n := by
  unfold currentXid at hn
  cases hc : RegradeSpec.currentKeyOf c n with
  | none =>
    rw [hc, Option.map_none, Option.map_eq_none_iff] at hn
    exact hn
  | some kv =>
    rw [hc, Option.map_some] at hn
    obtain ⟨kv', hkv', hxid⟩ := Option.map_eq_some_iff.1 hn
    obtain ⟨k, hk, hcurrent, hqv, rfl⟩ := RegradeSpec.currentKeyOf_eq_some.1 hc
    obtain ⟨k', hk', _, _, rfl⟩ := RegradeSpec.currentKeyOf_eq_some.1 hkv'
    obtain ⟨j, hj, hsame⟩ := h.kept k hk
    have hid : j.id = k'.id := by
      have hj' : str j.id = str k.id := congrArg (fun e => KeyVersion.xid e.2) hsame
      have hk'' : str k'.id = str k.id := hxid
      exact str_injective (hj'.trans hk''.symm)
    have hrow : j = k' := List.inj_on_of_nodup_map c'.answerKeys.nodup hj hk' hid
    rw [hkv', ← hrow, congrArg Prod.snd hsame]

end

end IeltsHub.ContestScoring
