import IeltsHub.AutosaveConvergence
import IeltsHub.SessionRuns

set_option autoImplicit false

/-!
# An attempt is scored once

Until it is submitted an attempt has no score run and no `attempt.scored`; once it is scored it
has a current run, one initial run and one `attempt.scored`, and every later call leaves what
was recorded at the submit alone. The one call that breaks this is a submit with final answers
whose save reads the clock past the deadline: the save submits, and the submit then scores again.
-/
namespace IeltsHub.ScoreOnce
open PyExc PyTime PlatformErrors RowTable RaisingState GuardedRuns ExamModels ExamScoringInputs
  ExamSession SessionFrames SubmitSpec SessionRuns AutosaveConvergence

def initialRuns (s : Store) (a : ℕ) : ℕ := (s.runsOf a).countP (fun r => r.reason = "initial")

def scoredEvents (s : Store) (a : ℕ) : ℕ :=
  (s.eventsOf a).countP (fun e => e.eventType = "attempt.scored")

def submission (s : Store) (a : ℕ) : Option (Option Time × Option SubmittedVia × Option ℤ) :=
  (s.attempts.get? a).map (fun r => (r.submittedAt, r.submittedVia, r.lateByMs))

def IsSubmitted (s : Store) (a : ℕ) : Prop := ∃ t v l, submission s a = some (some t, v, l)

def Unscored (s : Store) (a : ℕ) : Prop :=
  (∃ r, s.attempts.get? a = some r ∧ r.status ≠ .submitted ∧ r.status ≠ .scored ∧
    r.submittedAt = none) ∧ s.runsOf a = [] ∧ scoredEvents s a = 0

def Done (s : Store) (a : ℕ) : Prop :=
  (∃ r, s.attempts.get? a = some r ∧ r.status = .scored) ∧ (∃ run, s.currentRun a = some run) ∧
    initialRuns s a = 1 ∧ scoredEvents s a = 1

def OnceStep (a : ℕ) (s s' : Store) : Prop :=
  Unscored s a ∨ Done s a →
    (Unscored s' a ∨ Done s' a) ∧ (IsSubmitted s a → submission s' a = submission s a)

theorem once_frame (a : ℕ) : Frame (fun w w' : World => OnceStep a w.store w'.store) where
  refl w h := ⟨h, fun _ => rfl⟩
  trans := by
    intro u v w huv hvw h
    obtain ⟨hv, hsub⟩ := huv h
    obtain ⟨hw, hsub'⟩ := hvw hv
    refine ⟨hw, fun hu => ?_⟩
    rw [hsub' (by unfold IsSubmitted; rw [hsub hu]; exact hu), hsub hu]

/-- What the invariant speaks of is the same. -/
structure SameScore (a : ℕ) (w w' : World) : Prop where
  attempt : w'.store.attempts.get? a = w.store.attempts.get? a
  runs : w'.store.runsOf a = w.store.runsOf a
  events : w'.store.eventsOf a = w.store.eventsOf a

theorem sameScore_frame (a : ℕ) : Frame (SameScore a) where
  refl _ := ⟨rfl, rfl, rfl⟩
  trans h h' := ⟨h'.attempt.trans h.attempt, h'.runs.trans h.runs, h'.events.trans h.events⟩

theorem SameScore.once {a : ℕ} {w w' : World} (h : SameScore a w w') :
    OnceStep a w.store w'.store := by
  unfold OnceStep Unscored Done IsSubmitted submission scoredEvents initialRuns Store.currentRun
  rw [h.attempt, h.runs, h.events]
  exact fun hinv => ⟨hinv, fun _ => rfl⟩

theorem Untouched.sameScore {a : ℕ} {w w' : World} (h : Untouched a w w') : SameScore a w w' :=
  ⟨h.attempt, h.runs, h.events⟩

variable {ses : ExamSession} {a : ℕ} {via : SubmittedVia} {w w' : World}

/-! ## Calls that do not score -/

theorem sameScore_of_store {m : World} (h : m.store = w.store) : SameScore a w m := by
  refine ⟨?_, ?_, ?_⟩ <;> rw [h]

theorem keeps_score_getAttempt (id : ℕ) : Keeps (SameScore a) (getAttempt id) := by
  refine keeps_of_run (fun w => ?_) (sameScore_frame a)
  unfold getAttempt
  split <;> rfl

theorem keeps_score_storeDeltas (r : Attempt) (ds : List AnswerDelta) (now : Time) :
    Keeps (SameScore a) (ses.storeDeltas r ds now) := by
  have hR := sameScore_frame a
  refine keeps_bind hR (keeps_gets hR _) (fun s => keeps_bind hR (keeps_lift hR _) (fun b => ?_))
  refine keeps_bind hR (fun w => ?_) (fun _ => keeps_pure hR _)
  unfold flushAnswers
  split
  · split
    · exact hR.refl w
    · exact hR.refl w
  · exact ⟨rfl, rfl, rfl⟩

theorem keeps_score_payload (id : ℕ) : Keeps (SameScore a) (payload id) := by
  have hR := sameScore_frame a
  refine keeps_bind hR (keeps_score_getAttempt id) (fun r => ?_)
  split
  · exact keeps_raise hR _
  · refine keeps_bind hR (keeps_gets hR _) (fun s => ?_)
    split
    · exact keeps_pure hR _
    · exact keeps_raise hR _

theorem keeps_score_enterSection (id : ℕ) (position : ℤ) :
    Keeps (SameScore a) (ses.enterSection id position) := by
  have hR := sameScore_frame a
  refine keeps_bind hR (keeps_score_getAttempt id) (fun r => ?_)
  refine keeps_bind hR (keeps_gets hR _) (fun s => ?_)
  split
  · exact keeps_raise hR _
  · refine keeps_bind hR (fun w => ⟨rfl, rfl, rfl⟩) (fun now => ?_)
    refine keeps_bind hR ?_ (fun row => ?_)
    · unfold enterRow
      split
      · exact keeps_bind hR (keeps_gets hR _) (fun s =>
          keeps_bind hR (fun w => ⟨rfl, rfl, rfl⟩) (fun _ => keeps_pure hR _))
      · exact keeps_pure hR _
    · split
      · exact keeps_raise hR _
      · exact keeps_pure hR _

theorem keeps_score_audioGrant (id : ℕ) (position : ℤ) :
    Keeps (SameScore a) (ses.audioGrant id position) := by
  have hR := sameScore_frame a
  refine keeps_bind hR (keeps_score_enterSection id position) (fun row => ?_)
  refine keeps_bind hR (keeps_score_getAttempt id) (fun r => ?_)
  refine keeps_bind hR (keeps_gets hR _) (fun s => ?_)
  refine keeps_bind hR (fun w => ⟨rfl, rfl, rfl⟩) (fun now => ?_)
  dsimp only
  split
  · exact keeps_raise hR _
  · split
    · exact keeps_raise hR _
    · exact keeps_bind hR (fun w => ⟨rfl, rfl, rfl⟩) (fun _ => keeps_pure hR _)

/-! ## Submits -/

theorem not_submits_of_done (h : Done w.store a) (r : Attempt) : ¬ Submits w a r := by
  obtain ⟨⟨r', hr', hstatus⟩, ⟨run, hrun⟩, _⟩ := h
  intro hs
  have heq : r = r' := Option.some.inj (hs.attempt.symm.trans hr')
  subst heq
  have hnone := hs.unanswered
  have hid : r.id = a := Table.get?_key hr'
  rw [recordedRun, if_pos (.inr hstatus), hid, hrun] at hnone
  cases hnone

theorem once_submitAfter {flush : Tx Unit} {row : ScoreRunRow}
    (hflush : ∀ u, flush (tick w) = (.ok (), u) → SameScore a w u)
    (h : ses.submitAfter flush a via w = (.ok row, w')) : OnceStep a w.store w'.store := by
  rcases submitAfter_cases h with ⟨rfl, _⟩ | ⟨r, hs, h⟩
  · exact (once_frame a).refl w
  · obtain ⟨_, u, hu, hfreeze⟩ := Effect.bind_eq_ok.1 h
    have hsame := hflush u hu
    obtain ⟨r', hr', hscored⟩ := freezeAndScore_eq_ok hfreeze
    intro hinv
    rcases hinv with ⟨⟨r₀, hr₀, _, _, hnone⟩, hruns, hevents⟩ | hdone
    · refine ⟨.inr ⟨?_, ⟨row, ?_⟩, ?_, ?_⟩, ?_⟩
      · obtain ⟨r'', hr'', hstatus, _⟩ := hscored.attempt
        exact ⟨r'', hr'', hstatus⟩
      · rw [Store.currentRun, hscored.runs, hsame.runs, hruns]
        simp [hscored.current]
      · rw [initialRuns, hscored.runs, hsame.runs, hruns]
        simp [hscored.initial]
      · obtain ⟨evs, hevs, hone⟩ := hscored.events
        rw [scoredEvents, hevs, List.countP_append, hone, hsame.events]
        rw [scoredEvents] at hevents
        omega
      · rintro ⟨t, v, l, hsub⟩
        rw [submission, hr₀, Option.map_some, hnone] at hsub
        cases hsub
    · exact absurd hs (not_submits_of_done hdone r)

theorem once_submitPlain {row : ScoreRunRow} (h : ses.submitPlain a via w = (.ok row, w')) :
    OnceStep a w.store w'.store := by
  refine once_submitAfter (fun u hu => ?_) h
  cases hu
  exact ⟨rfl, rfl, rfl⟩

theorem submitPlain_conflict {e : Raised} (h : ses.submitPlain a via w = (.error e, w'))
    (he : e.isConflict = true) : w' = tick w := by
  rcases submitAfter_cases h with ⟨rfl, _⟩ | ⟨r, _, h⟩
  · rfl
  · rcases Effect.bind_eq_error.1 h with h | ⟨_, u, _, h⟩
    · cases h
    · rw [noConflict_freezeAndScore u e w' h] at he
      cases he

/-! ## Saves -/

theorem sameScore_saveAnswers {ds : List AnswerDelta} {res : SaveResult}
    (h : ses.saveAnswers a ds w = (.ok res, w')) : SameScore a w w' := by
  rcases saveAnswers_cases h with ⟨_, hno⟩ | ⟨r, _, h⟩
  · exact absurd (returns_ok res) hno
  · split at h
    · obtain ⟨_, _, _, h⟩ := Effect.bind_eq_ok.1 h
      cases h
    · have hstore : Keeps (SameScore a) (ses.storeDeltas r ds (ses.clock w.ticks)) :=
        keeps_score_storeDeltas r ds _
      have hk := hstore (tick w)
      rw [h] at hk
      exact ⟨hk.attempt, hk.runs, hk.events⟩

theorem saveAnswers_conflict {ds : List AnswerDelta} {e : Raised}
    (h : ses.saveAnswers a ds w = (.error e, w')) (he : e.isConflict = true) :
    w'.store = w.store ∨ ∃ r row, Saves w a r ∧ ses.past r.expiresAt (ses.clock w.ticks) = true ∧
      ses.submitPlain a .autoExpiry (tick w) = (.ok row, w') := by
  rcases saveAnswers_cases h with ⟨rfl, _⟩ | ⟨r, hr, h⟩
  · exact .inl rfl
  · split at h
    · rename_i hpast
      rcases Effect.bind_eq_error.1 h with h | ⟨row, u, hrow, h⟩
      · rw [submitPlain_conflict h he]
        exact .inl rfl
      · cases h
        exact .inr ⟨r, row, hr, hpast, hrow⟩
    · rw [noConflict_storeDeltas _ _ _ _ _ _ h] at he
      cases he

/-- Scoring the stored answers returns, and the run fits its columns. -/
def CanScore (ses : ExamSession) (s : Store) (r : Attempt) : Prop :=
  ∃ run now, computeRun ses.scorer s r "initial" = .ok run ∧
    Returns (addRun s run r.id none none now)

/-- The call that scores twice: a submit with final answers of an attempt not yet frozen, whose
save reads the clock past the deadline and its grace, where the stored answers score. -/
def ScoresTwice (ses : ExamSession) (a : ℕ) (w : World) : Call → Prop
  | .submit id _ finalAnswers => id = a ∧ finalAnswers ≠ [] ∧
      ∃ r, Saves w a r ∧ ses.past r.expiresAt (ses.clock (w.ticks + 1)) = true ∧
        CanScore ses w.store r
  | _ => False

theorem canScore_of_submitPlain {r : Attempt} {row : ScoreRunRow} (hr : Saves w a r)
    (h : ses.submitPlain a via w = (.ok row, w')) : CanScore ses w.store r := by
  have hfrozen := hr.status
  rcases submitAfter_cases h with ⟨_, hno⟩ | ⟨r', hs, h⟩
  · refine absurd ⟨hr.attempt, ?_, ?_⟩ (hno r)
    · intro hv
      rw [hv] at hfrozen
      cases hfrozen
    · unfold recordedRun
      refine if_neg ?_
      rintro (hv | hv) <;> rw [hv] at hfrozen <;> cases hfrozen
  · obtain ⟨_, u, hu, hfreeze⟩ := Effect.bind_eq_ok.1 h
    cases hu
    obtain ⟨r'', hr'', hscored⟩ := freezeAndScore_eq_ok hfreeze
    have heq : r'' = r := Option.some.inj (hr''.symm.trans hr.attempt)
    subst heq
    obtain ⟨run, now, hrun, hadd, hrow⟩ := hscored.computed
    have hid : r''.id = a := Table.get?_key hr''
    exact ⟨run, now, hrun, hid ▸ hadd⟩

theorem sameScore_flushFinal {ds : List AnswerDelta}
    (hguard : ¬ (ds ≠ [] ∧ ∃ r, Saves w a r ∧ ses.past r.expiresAt (ses.clock w.ticks) = true ∧
      CanScore ses w.store r)) (h : ses.flushFinal a ds w = (.ok (), w')) : SameScore a w w' := by
  unfold flushFinal at h
  split at h
  · cases h
    exact (sameScore_frame a).refl w
  · rename_i hds
    unfold Effect.handle at h
    rcases hsave : (ses.saveAnswers a ds >>= fun _ => pure ()) w with ⟨e | u, v⟩
    · rw [hsave] at h
      dsimp only at h
      split at h
      · rename_i he
        cases h
        rcases Effect.bind_eq_error.1 hsave with hsave | ⟨_, _, _, hsave⟩
        · rcases saveAnswers_conflict hsave he with hstore | ⟨r, row, hr, hpast, hrow⟩
          · exact sameScore_of_store hstore
          · exact absurd ⟨hds, r, hr, hpast, canScore_of_submitPlain (w := tick w)
              ⟨hr.attempt, hr.status⟩ hrow⟩ hguard
        · cases hsave
      · cases h
    · rw [hsave] at h
      cases h
      obtain ⟨res, x, hres, hx⟩ := Effect.bind_eq_ok.1 hsave
      cases hx
      exact sameScore_saveAnswers hres

theorem noConflict_flushFinal (ds : List AnswerDelta) : NoConflict (ses.flushFinal a ds) := by
  intro w e w' h
  unfold flushFinal at h
  split at h
  · cases h
  · unfold Effect.handle at h
    rcases hsave : (ses.saveAnswers a ds >>= fun _ => pure ()) w with ⟨e' | u, v⟩
    · rw [hsave] at h
      dsimp only at h
      split at h
      · cases h
      · rename_i he
        cases h
        simpa using he
    · rw [hsave] at h
      cases h

/-! ## Steps and runs -/

theorem keeps_once_sweepOne (id : ℕ) :
    Keeps (fun w w' : World => OnceStep a w.store w'.store) (ses.sweepOne id) := by
  by_cases hid : id = a
  · subst hid
    refine keeps_bind (once_frame id) (fun w => ?_) (fun result => ?_)
    · unfold Effect.guarded
      rcases h : ses.submitPlain id .autoExpiry w with ⟨e | row, u⟩
      · exact (once_frame id).refl w
      · exact once_submitPlain h
    · split
      · exact keeps_pure (once_frame id) _
      · exact keeps_pure (once_frame id) _
  · intro w
    exact (Untouched.sameScore (keeps_sweepOne hid w)).once

theorem keeps_once_autoSubmitExpired (limit : ℕ) :
    Keeps (fun w w' : World => OnceStep a w.store w'.store) (ses.autoSubmitExpired limit) := by
  have hR := once_frame a
  refine keeps_bind hR (fun w => hR.refl w) (fun now => ?_)
  refine keeps_bind hR (keeps_gets hR _) (fun s => ?_)
  exact keeps_bind hR (keeps_mapM hR (fun id _ => keeps_once_sweepOne id))
    (fun swept => keeps_pure hR _)

theorem once_submit_step {ds : List AnswerDelta}
    (hguard : ¬ ScoresTwice ses a w (.submit a via ds))
    (h : Step ses w (.submit a via ds) w') : OnceStep a w.store w'.store := by
  cases h with
  | returned answer h =>
    obtain ⟨row, h, _⟩ := map_eq_ok.1 h
    refine once_submitAfter (fun u hu => ?_) h
    have hflush : SameScore a (tick w) u := by
      refine sameScore_flushFinal (fun hg => ?_) hu
      obtain ⟨hds, r, hr, hpast, hcan⟩ := hg
      exact hguard ⟨rfl, hds, r, ⟨hr.attempt, hr.status⟩, hpast, hcan⟩
    exact ⟨hflush.attempt, hflush.runs, hflush.events⟩
  | rolledBack e h => exact (once_frame a).refl w
  | caught e h he =>
    rcases submitAfter_cases (map_eq_error.1 h) with ⟨rfl, _⟩ | ⟨r, _, h⟩
    · exact (once_frame a).refl w
    · rcases Effect.bind_eq_error.1 h with h | ⟨_, u, _, h⟩
      · rw [noConflict_flushFinal ds _ _ _ h] at he
        cases he
      · rw [noConflict_freezeAndScore u e w' h] at he
        cases he

theorem once_save_step {ds : List AnswerDelta} (h : Step ses w (.saveAnswers a ds) w') :
    OnceStep a w.store w'.store := by
  cases h with
  | returned answer h =>
    obtain ⟨res, h, _⟩ := map_eq_ok.1 h
    exact (sameScore_saveAnswers h).once
  | rolledBack e h => exact (once_frame a).refl w
  | caught e h he =>
    rcases saveAnswers_conflict (map_eq_error.1 h) he with hstore | ⟨r, row, _, _, hrow⟩
    · exact (sameScore_of_store hstore).once
    · have htick : OnceStep a (tick w).store w'.store := once_submitPlain hrow
      exact htick

theorem once_step {c : Call} (hguard : ¬ ScoresTwice ses a w c) (h : Step ses w c w') :
    OnceStep a w.store w'.store := by
  by_cases hother : ∃ id, c.attempt? = some id ∧ id ≠ a
  · obtain ⟨id, hc, hid⟩ := hother
    exact (Untouched.sameScore (h.untouched hc hid)).once
  · have hid : ∀ id, c.attempt? = some id → id = a := fun id hc =>
      by_contra (fun hne => hother ⟨id, hc, hne⟩)
    have hroll : ∀ w w' : World, SameScore a w (rollback w w') := fun _ _ => ⟨rfl, rfl, rfl⟩
    cases c with
    | payload id =>
      exact (h.of_keeps hroll (keeps_map (sameScore_frame a) (keeps_score_payload id))).once
    | saveAnswers id ds =>
      cases hid id rfl
      exact once_save_step h
    | enterSection id position =>
      exact (h.of_keeps hroll
        (keeps_map (sameScore_frame a) (keeps_score_enterSection id position))).once
    | audioGrant id position =>
      exact (h.of_keeps hroll
        (keeps_map (sameScore_frame a) (keeps_score_audioGrant id position))).once
    | submit id via ds =>
      cases hid id rfl
      exact once_submit_step hguard h
    | autoSubmitExpired limit =>
      exact h.of_keeps (R := fun w w' => OnceStep a w.store w'.store)
        (fun w _ => (once_frame a).refl w)
        (keeps_map (once_frame a) (keeps_once_autoSubmitExpired limit))

/-- In a run without the call that scores twice, every state it reaches holds at most one initial
run and one `attempt.scored`, and once the attempt is submitted what was recorded stays. -/
theorem scored_once (ses : ExamSession) (a : ℕ) {w u w' : World} {calls later : List Call}
    (hstart : Unscored w.store a)
    (h : Runs (Step ses) (fun w c => ¬ ScoresTwice ses a w c) w calls u)
    (h' : Runs (Step ses) (fun w c => ¬ ScoresTwice ses a w c) u later w') :
    initialRuns u.store a ≤ 1 ∧ scoredEvents u.store a ≤ 1 ∧
      (IsSubmitted u.store a → submission w'.store a = submission u.store a) := by
  have hstep : ∀ (w : World) (c : Call) (w' : World), Unscored w.store a ∨ Done w.store a →
      ¬ ScoresTwice ses a w c → Step ses w c w' → Unscored w'.store a ∨ Done w'.store a :=
    fun w c w' hw hguard hc => (once_step hguard hc hw).1
  have hu : Unscored u.store a ∨ Done u.store a := h.invariant hstep (.inl hstart)
  refine ⟨?_, ?_, ?_⟩
  · rcases hu with ⟨_, hruns, _⟩ | ⟨_, _, hone, _⟩
    · simp [initialRuns, hruns]
    · exact hone.le
  · rcases hu with ⟨_, _, hzero⟩ | ⟨_, _, _, hone⟩
    · rw [hzero]
      exact Nat.zero_le 1
    · exact hone.le
  · have hrel : OnceStep a u.store w'.store := h'.related (R := fun w w' => OnceStep a w.store w'.store)
      (once_frame a).refl (fun _ _ _ h h' => (once_frame a).trans h h')
      (fun w c w' hw hguard hc => ⟨hstep w c w' hw hguard hc, once_step hguard hc⟩) hu
    exact (hrel hu).2

theorem unscored_sample : Unscored sampleStore 1 :=
  ⟨⟨sampleAttempt, rfl, by decide, by decide, rfl⟩, rfl, rfl⟩

/-- A save, a submit and a second submit: the second answers with the run of the first. -/
theorem scored_once_retry :
    initialRuns (settle sampleSession (settle sampleSession { store := sampleStore }
      (.submit 1 .user [])) (.submit 1 .user [])).store 1 ≤ 1 := by
  refine (scored_once sampleSession 1 (w := { store := sampleStore }) unscored_sample
    (.next ?_ (step_settle _ _ (.submit 1 .user [])) (.next ?_ (step_settle _ _
      (.submit 1 .user [])) (.refl _))) (.refl _)).1
  · exact fun h => h.2.1 rfl
  · exact fun h => h.2.1 rfl

def lateSession : ExamSession :=
  { sampleSession with clock := fun n => if n = 0 then 0 else seconds 4000 }

def lateSubmit : Call := .submit 1 .user [sampleDelta "two" 1]

/-- The save of the last flush submits and scores; the submit then scores again. -/
theorem late_final_answers_score_twice :
    Monotone lateSession.clock ∧ Unscored sampleStore 1 ∧
      ∃ w, Any (Step lateSession) { store := sampleStore } [lateSubmit] w ∧
        initialRuns w.store 1 = 2 ∧ scoredEvents w.store 1 = 2 := by
  refine ⟨?_, unscored_sample, settle lateSession { store := sampleStore } lateSubmit,
    .next trivial (step_settle _ _ _) (.refl _), by decide +kernel, by decide +kernel⟩
  intro m n hmn
  change (if m = 0 then (0 : ℤ) else seconds 4000) ≤ if n = 0 then 0 else seconds 4000
  have hpos : (0 : ℤ) ≤ seconds 4000 := by decide
  split
  · split
    · exact le_rfl
    · exact hpos
  · rw [if_neg (by omega)]

end IeltsHub.ScoreOnce
