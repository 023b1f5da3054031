import IeltsHub.ScoreOnce

set_option autoImplicit false

/-!
# What a call scores

A call reads content and writes none of it, and leaves who sits what as it is. A run that it adds
to an attempt is the run of the answers the attempt is left with, which no later call changes. An
attempt that is voided, or has its run on record, gets no other.
-/
namespace IeltsHub.SessionScores
open PyExc PyDict PyTime PlatformErrors RowTable RaisingState ExamModels ExamScoringInputs
  ExamSession SessionFrames SubmitSpec SessionRuns ScoreOnce

def sitter (r : Attempt) : ℕ × String × ℕ × ℕ × Option ℕ × AttemptMode :=
  (r.id, r.xid, r.userId, r.testVersionId, r.competitionId, r.mode)

/-- Voided, or with its run on record: a submit scores it no more. -/
def Settled (s : Store) (a : ℕ) : Prop :=
  ∃ r, s.attempts.get? a = some r ∧ (r.status = .voided ∨ recordedRun s r ≠ none)

def marks (row : ScoreRunRow) :
    ℕ × String × Dict String String × Option ℤ × ℚ :=
  (row.attemptId, row.reason, row.keyVersions, row.bandMapVersionId, row.rawScore)

/-- The row is an initial run of the attempt, from the answers that are stored. -/
def Computed (ses : ExamSession) (s : Store) (a : ℕ) (row : ScoreRunRow) : Prop :=
  ∃ r run now row', s.attempts.get? a = some r ∧
    computeRun ses.scorer s r "initial" = .ok run ∧
    runRow run row'.id a none none now = .ok row' ∧ marks row = marks row'

def Closed (s : Store) (a : ℕ) : Prop :=
  ∃ r, s.attempts.get? a = some r ∧ AttemptStatus.frozen r.status = true

/-- What a call does to an attempt and its runs. -/
structure Along (ses : ExamSession) (a : ℕ) (w w' : World) : Prop where
  content : w'.store.content = w.store.content
  sits : (w'.store.attempts.get? a).map sitter = (w.store.attempts.get? a).map sitter
  closed : Closed w.store a → Closed w'.store a ∧ w'.store.answersOf a = w.store.answersOf a
  settled : Settled w.store a → Settled w'.store a
  runs : ∀ row ∈ w'.store.runsOf a, (∃ row₀ ∈ w.store.runsOf a, marks row = marks row₀) ∨
    ¬ Settled w.store a ∧ Closed w'.store a ∧ Computed ses w'.store a row

variable {ses : ExamSession} {a : ℕ} {via : SubmittedVia} {w w' : World}

theorem computeRun_sitter {scorer : QtypesRegistry.Scorer} {s s' : Store} {r r' : Attempt}
    {reason : String}
    (hr : sitter r' = sitter r) (hcontent : s'.content = s.content)
    (hanswers : s'.answersOf r.id = s.answersOf r.id) :
    computeRun scorer s' r' reason = computeRun scorer s r reason := by
  simp only [sitter, Prod.mk.injEq] at hr
  obtain ⟨hid, hxid, huser, hversion, hcompetition, hmode⟩ := hr
  unfold computeRun attemptInput competitionXid
  rw [hid, hxid, huser, hversion, hcompetition, hmode, hcontent, hanswers]

theorem get?_of_sits {s s' : Store} {r : Attempt}
    (h : (s'.attempts.get? a).map sitter = (s.attempts.get? a).map sitter)
    (hr : s.attempts.get? a = some r) :
    ∃ r', s'.attempts.get? a = some r' ∧ sitter r' = sitter r := by
  rw [hr] at h
  exact Option.map_eq_some_iff.1 h

theorem Computed.transfer {s s' : Store} {row : ScoreRunRow} (h : Computed ses s a row)
    (hsits : (s'.attempts.get? a).map sitter = (s.attempts.get? a).map sitter)
    (hcontent : s'.content = s.content) (hanswers : s'.answersOf a = s.answersOf a) :
    Computed ses s' a row := by
  obtain ⟨r, run, now, row', hr, hrun, hrow, hsame⟩ := h
  obtain ⟨r', hr', hsitter⟩ := get?_of_sits hsits hr
  have hid : r.id = a := Table.get?_key hr
  refine ⟨r', run, now, row', hr', ?_, hrow, hsame⟩
  rw [computeRun_sitter hsitter hcontent (hid ▸ hanswers)]
  exact hrun

theorem Along.refl (ses : ExamSession) (a : ℕ) (w : World) : Along ses a w w where
  content := rfl
  sits := rfl
  closed h := ⟨h, rfl⟩
  settled := id
  runs row hrow := .inl ⟨row, hrow, rfl⟩

theorem Along.trans {u v w : World} (h : Along ses a u v) (h' : Along ses a v w) :
    Along ses a u w where
  content := h'.content.trans h.content
  sits := h'.sits.trans h.sits
  closed hc := by
    obtain ⟨hv, hanswers⟩ := h.closed hc
    obtain ⟨hw, hanswers'⟩ := h'.closed hv
    exact ⟨hw, hanswers'.trans hanswers⟩
  settled hs := h'.settled (h.settled hs)
  runs row hrow := by
    rcases h'.runs row hrow with ⟨row₁, hrow₁, hsame⟩ | ⟨hunsettled, hclosed, hcomputed⟩
    · rcases h.runs row₁ hrow₁ with ⟨row₀, hrow₀, hsame₀⟩ | ⟨hunsettled, hclosed, hcomputed⟩
      · exact .inl ⟨row₀, hrow₀, hsame.trans hsame₀⟩
      · obtain ⟨hw, hanswers⟩ := h'.closed hclosed
        obtain ⟨r, run, now, row', hr, hrun, hrow', hsame₁⟩ :=
          hcomputed.transfer h'.sits h'.content hanswers
        exact .inr ⟨hunsettled, hw, r, run, now, row', hr, hrun, hrow', hsame.trans hsame₁⟩
    · exact .inr ⟨fun hs => hunsettled (h.settled hs), hclosed, hcomputed⟩

theorem along_frame (ses : ExamSession) (a : ℕ) : Frame (Along ses a) where
  refl := Along.refl ses a
  trans := Along.trans

/-! ## Calls that do not score -/

theorem recordedRun_congr {s s' : Store} {r : Attempt} (h : s'.runsOf r.id = s.runsOf r.id) :
    recordedRun s' r = recordedRun s r := by
  unfold recordedRun Store.currentRun
  rw [h]

theorem along_of_same (hcontent : w'.store.content = w.store.content)
    (hattempt : w'.store.attempts.get? a = w.store.attempts.get? a)
    (hanswers : Closed w.store a → w'.store.answersOf a = w.store.answersOf a)
    (hruns : w'.store.runsOf a = w.store.runsOf a) : Along ses a w w' where
  content := hcontent
  sits := by rw [hattempt]
  closed h := by
    refine ⟨?_, hanswers h⟩
    unfold Closed
    rw [hattempt]
    exact h
  settled h := by
    obtain ⟨r, hr, hsettled⟩ := h
    have hid : r.id = a := Table.get?_key hr
    refine ⟨r, hattempt.trans hr, ?_⟩
    rw [recordedRun_congr (hid ▸ hruns)]
    exact hsettled
  runs row hrow := .inl ⟨row, hruns ▸ hrow, rfl⟩

theorem along_of_store (h : w'.store = w.store) : Along ses a w w' :=
  along_of_same (by rw [h]) (by rw [h]) (fun _ => by rw [h]) (by rw [h])

theorem along_tick : Along ses a w (tick w) := along_of_store rfl

theorem Untouched.along (h : Untouched a w w') : Along ses a w w' :=
  along_of_same h.content h.attempt (fun _ => h.answers) h.runs

theorem keeps_along_getAttempt (id : ℕ) : Keeps (Along ses a) (getAttempt id) := by
  refine keeps_of_run (fun w => ?_) (along_frame ses a)
  unfold getAttempt
  split <;> rfl

theorem keeps_along_now : Keeps (Along ses a) ses.now := fun _ => along_of_store rfl

theorem keeps_along_payload (id : ℕ) : Keeps (Along ses a) (payload id) := by
  have hR := along_frame ses a
  apply keeps_bind hR (keeps_along_getAttempt id)
  intro r
  split
  · exact keeps_raise hR _
  · apply keeps_bind hR (keeps_gets hR _)
    intro s
    split
    · exact keeps_pure hR _
    · exact keeps_raise hR _

theorem keeps_along_enterSection (id : ℕ) (position : ℤ) :
    Keeps (Along ses a) (ses.enterSection id position) := by
  have hR := along_frame ses a
  apply keeps_bind hR (keeps_along_getAttempt id)
  intro r
  apply keeps_bind hR (keeps_gets hR _)
  intro s
  split
  · exact keeps_raise hR _
  · apply keeps_bind hR keeps_along_now
    intro now
    apply keeps_bind hR
    · unfold enterRow
      split
      · exact keeps_bind hR (keeps_gets hR _) (fun s =>
          keeps_bind hR (fun w => along_of_same rfl rfl (fun _ => rfl) rfl)
            (fun _ => keeps_pure hR _))
      · exact keeps_pure hR _
    · intro row
      split
      · exact keeps_raise hR _
      · exact keeps_pure hR _

theorem keeps_along_audioGrant (id : ℕ) (position : ℤ) :
    Keeps (Along ses a) (ses.audioGrant id position) := by
  have hR := along_frame ses a
  apply keeps_bind hR (keeps_along_enterSection id position)
  intro row
  apply keeps_bind hR (keeps_along_getAttempt id)
  intro r
  apply keeps_bind hR (keeps_gets hR _)
  intro s
  apply keeps_bind hR keeps_along_now
  intro now
  dsimp only
  split
  · exact keeps_raise hR _
  · split
    · exact keeps_raise hR _
    · exact keeps_bind hR (fun w => along_of_same rfl rfl (fun _ => rfl) rfl)
        (fun _ => keeps_pure hR _)

/-! ## Scoring -/

theorem freezeAndScore_kept {id : ℕ} {now : Time} {row : ScoreRunRow}
    (h : ses.freezeAndScore id via now w = (.ok row, w')) :
    w'.store.content = w.store.content ∧
      (w'.store.attempts.get? id).map sitter = (w.store.attempts.get? id).map sitter := by
  unfold freezeAndScore at h
  obtain ⟨r, u, hr, hfreeze⟩ := Effect.bind_eq_ok.1 h
  obtain ⟨hr, rfl⟩ := getAttempt_eq_ok.1 hr
  have hid : r.id = id := Table.get?_key hr
  subst hid
  rw [Effect.bind_run_ok (m := putAttempt _) rfl] at hfreeze
  obtain ⟨ticks, hannounce⟩ := announce_run ses (frozenAttempt r via now) via
    { u with store := { u.store with attempts := u.store.attempts.put (frozenAttempt r via now) } }
  rw [Effect.bind_run_ok hannounce] at hfreeze
  obtain ⟨row', v, hscore, hdone⟩ := Effect.bind_eq_ok.1 hfreeze
  obtain ⟨run, _, hadd⟩ := score_eq_ok hscore
  rw [Effect.bind_run_ok (m := ses.now) rfl, Effect.bind_run_ok (m := putAttempt _) rfl,
    Effect.bind_run_ok (emit_run ses _ _ _ _)] at hdone
  cases hdone
  refine ⟨(addRun_frame hadd).1, ?_⟩
  rw [hr]
  change ((v.store.attempts.put _).get? r.id).map sitter = _
  rw [Table.get?_put]
  split
  · rfl
  · exact absurd rfl ‹_›

theorem demote_marks (id : ℕ) (row : ScoreRunRow) : marks (demote id row) = marks row := by
  unfold demote
  split <;> rfl

theorem not_submits_of_settled (h : Settled w.store a) (r : Attempt) : ¬ Submits w a r := by
  obtain ⟨r', hr', hsettled⟩ := h
  intro hs
  have hsame : r = r' := Option.some.inj (hs.attempt.symm.trans hr')
  subst hsame
  rcases hsettled with hvoided | hrun
  · exact hs.live hvoided
  · exact hrun hs.unanswered

theorem along_submitAfter {flush : Tx Unit} {row : ScoreRunRow}
    (hflush : ∀ u, flush (tick w) = (.ok (), u) → Along ses a (tick w) u)
    (h : ses.submitAfter flush a via w = (.ok row, w')) : Along ses a w w' := by
  rcases submitAfter_cases h with ⟨rfl, _⟩ | ⟨r, hs, h⟩
  · exact along_of_store rfl
  · have hunsettled : ¬ Settled w.store a := fun hsettled => not_submits_of_settled hsettled r hs
    obtain ⟨_, u, hu, hfreeze⟩ := Effect.bind_eq_ok.1 h
    have hu := hflush u hu
    obtain ⟨hcontent, hsits⟩ := freezeAndScore_kept hfreeze
    obtain ⟨r', hr', hscored⟩ := freezeAndScore_eq_ok hfreeze
    have hanswers : w'.store.answersOf a = u.store.answersOf a := by
      unfold Store.answersOf
      rw [hscored.answers]
    obtain ⟨r₁, hr₁, hstatus, _⟩ := hscored.attempt
    have hclosed : Closed w'.store a := ⟨r₁, hr₁, by rw [hstatus]; rfl⟩
    constructor
    · exact hcontent.trans hu.content
    · exact hsits.trans hu.sits
    · intro hc
      exact ⟨hclosed, hanswers.trans (hu.closed hc).2⟩
    · intro hsettled
      exact absurd hsettled hunsettled
    · intro x hx
      rw [hscored.runs, List.mem_append, List.mem_singleton] at hx
      rcases hx with hx | rfl
      · obtain ⟨x₀, hx₀, rfl⟩ := List.mem_map.1 hx
        rcases hu.runs x₀ hx₀ with ⟨x₁, hx₁, hsame⟩ | ⟨_, hc, hcomputed⟩
        · exact .inl ⟨x₁, hx₁, (demote_marks a x₀).trans hsame⟩
        · obtain ⟨r₂, run, now, row', hr₂, hrun, hrow', hsame⟩ :=
            hcomputed.transfer hsits hcontent hanswers
          exact .inr ⟨hunsettled, hclosed, r₂, run, now, row', hr₂, hrun, hrow',
            (demote_marks a x₀).trans hsame⟩
      · obtain ⟨run, now', hrun, _, hrow⟩ := hscored.computed
        have hcomputed : Computed ses u.store a x :=
          ⟨r', run, now', x, hr', hrun, hrow, rfl⟩
        exact .inr ⟨hunsettled, hclosed, hcomputed.transfer hsits hcontent hanswers⟩

theorem along_submitPlain {row : ScoreRunRow} (h : ses.submitPlain a via w = (.ok row, w')) :
    Along ses a w w' := by
  refine along_submitAfter (fun u hu => ?_) h
  cases hu
  exact Along.refl ses a _

/-! ## Saves -/

theorem not_closed_of_saves {r : Attempt} (h : Saves w a r) : ¬ Closed w.store a := by
  rintro ⟨r', hr', hclosed⟩
  have hsame : r' = r := Option.some.inj (hr'.symm.trans h.attempt)
  rw [hsame, h.status] at hclosed
  cases hclosed

theorem along_storeDeltas {r : Attempt} {ds : List AnswerDelta} {now : Time} {res : SaveResult}
    (hopen : ¬ Closed w.store a) (h : ses.storeDeltas r ds now w = (.ok res, w')) :
    Along ses a w w' := by
  unfold storeDeltas at h
  rw [Effect.gets_bind_run] at h
  obtain ⟨batch, u, hbatch, h⟩ := Effect.bind_eq_ok.1 h
  obtain ⟨_, rfl⟩ := Prod.mk.inj hbatch
  obtain ⟨_, v, hflush, h⟩ := Effect.bind_eq_ok.1 h
  cases h
  unfold flushAnswers at hflush
  split at hflush
  · split at hflush
    · cases hflush
      exact Along.refl ses a _
    · cases hflush
  · cases hflush
    exact along_of_same rfl rfl (fun hclosed => absurd hclosed hopen) rfl

theorem along_saveAnswers {ds : List AnswerDelta} {res : SaveResult}
    (h : ses.saveAnswers a ds w = (.ok res, w')) : Along ses a w w' := by
  rcases saveAnswers_cases h with ⟨_, hno⟩ | ⟨r, hr, h⟩
  · exact absurd (returns_ok res) hno
  · split at h
    · obtain ⟨_, _, _, h⟩ := Effect.bind_eq_ok.1 h
      cases h
    · have hopen : ¬ Closed w.store a := not_closed_of_saves hr
      exact along_tick.trans (along_storeDeltas hopen h)

theorem along_saveAnswers_conflict {ds : List AnswerDelta} {e : Raised}
    (h : ses.saveAnswers a ds w = (.error e, w')) (he : e.isConflict = true) :
    Along ses a w w' := by
  rcases saveAnswers_conflict h he with hstore | ⟨r, row, _, _, hrow⟩
  · exact along_of_store hstore
  · exact along_tick.trans (along_submitPlain hrow)

theorem along_flushFinal {ds : List AnswerDelta} (h : ses.flushFinal a ds w = (.ok (), w')) :
    Along ses a w w' := by
  unfold flushFinal at h
  split at h
  · cases h
    exact Along.refl ses a w
  · unfold Effect.handle at h
    rcases hsave : (ses.saveAnswers a ds >>= fun _ => pure ()) w with ⟨e | u, v⟩
    · rw [hsave] at h
      dsimp only at h
      split at h
      · rename_i he
        cases h
        rcases Effect.bind_eq_error.1 hsave with hsave | ⟨_, _, _, hsave⟩
        · exact along_saveAnswers_conflict hsave he
        · cases hsave
      · cases h
    · rw [hsave] at h
      cases h
      obtain ⟨res, x, hres, hx⟩ := Effect.bind_eq_ok.1 hsave
      cases hx
      exact along_saveAnswers hres

/-! ## Steps -/

theorem along_rollback (w w' : World) : Along ses a w (rollback w w') := along_of_store rfl

theorem keeps_along_sweepOne (id : ℕ) : Keeps (Along ses a) (ses.sweepOne id) := by
  by_cases hid : id = a
  · subst hid
    apply keeps_bind (along_frame ses id)
    · intro w
      unfold Effect.guarded
      rcases h : ses.submitPlain id .autoExpiry w with ⟨e | row, u⟩
      · exact along_rollback w u
      · exact along_submitPlain h
    · intro result
      split
      · exact keeps_pure (along_frame ses id) _
      · exact keeps_pure (along_frame ses id) _
  · intro w
    exact Untouched.along (keeps_sweepOne hid w)

theorem keeps_along_autoSubmitExpired (limit : ℕ) :
    Keeps (Along ses a) (ses.autoSubmitExpired limit) := by
  have hR := along_frame ses a
  apply keeps_bind hR keeps_along_now
  intro now
  apply keeps_bind hR (keeps_gets hR _)
  intro s
  exact keeps_bind hR (keeps_mapM hR (fun id _ => keeps_along_sweepOne id))
    (fun swept => keeps_pure hR _)

theorem along_submit_step {ds : List AnswerDelta} (h : Step ses w (.submit a via ds) w') :
    Along ses a w w' := by
  cases h with
  | returned answer h =>
    obtain ⟨row, h, _⟩ := map_eq_ok.1 h
    exact along_submitAfter (fun u hu => along_flushFinal hu) h
  | rolledBack e h => exact along_rollback w _
  | caught e h he =>
    rcases submitAfter_cases (map_eq_error.1 h) with ⟨rfl, _⟩ | ⟨r, _, h⟩
    · exact along_of_store rfl
    · rcases Effect.bind_eq_error.1 h with h | ⟨_, u, _, h⟩
      · rw [noConflict_flushFinal ds _ _ _ h] at he
        cases he
      · rw [noConflict_freezeAndScore u e w' h] at he
        cases he

theorem along_save_step {ds : List AnswerDelta} (h : Step ses w (.saveAnswers a ds) w') :
    Along ses a w w' := by
  cases h with
  | returned answer h =>
    obtain ⟨res, h, _⟩ := map_eq_ok.1 h
    exact along_saveAnswers h
  | rolledBack e h => exact along_rollback w _
  | caught e h he => exact along_saveAnswers_conflict (map_eq_error.1 h) he

theorem along_step (a : ℕ) {c : Call} (h : Step ses w c w') : Along ses a w w' := by
  by_cases hother : ∃ id, c.attempt? = some id ∧ id ≠ a
  · obtain ⟨id, hc, hid⟩ := hother
    exact Untouched.along (h.untouched hc hid)
  · have hid : ∀ id, c.attempt? = some id → id = a := fun id hc =>
      by_contra (fun hne => hother ⟨id, hc, hne⟩)
    have hR := along_frame ses a
    cases c with
    | payload id => exact h.of_keeps along_rollback (keeps_map hR (keeps_along_payload id))
    | saveAnswers id ds =>
      cases hid id rfl
      exact along_save_step h
    | enterSection id position =>
      exact h.of_keeps along_rollback (keeps_map hR (keeps_along_enterSection id position))
    | audioGrant id position =>
      exact h.of_keeps along_rollback (keeps_map hR (keeps_along_audioGrant id position))
    | submit id via ds =>
      cases hid id rfl
      exact along_submit_step h
    | autoSubmitExpired limit =>
      exact h.of_keeps along_rollback (keeps_map hR (keeps_along_autoSubmitExpired limit))

end IeltsHub.SessionScores
