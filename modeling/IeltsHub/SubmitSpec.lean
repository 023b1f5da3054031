import IeltsHub.ScoringErrors
import IeltsHub.SessionFrames

set_option autoImplicit false

/-!
# What a submit does

A submit refuses a voided attempt, answers a frozen one with the run it has, and otherwise
applies its flush, freezes the attempt, adds one initial run and emits one `attempt.scored`.
Past its first checks it raises no conflict.
-/
namespace IeltsHub.SubmitSpec
open PyExc PyValue PyDict PyTime PlatformErrors QtypesSchemas QtypesRegistry RowTable RaisingState
  ExamScoring ExamModels ExamScoringInputs ExamSession ScoringErrors AutosaveBatch SessionFrames

variable {ses : ExamSession} {id : ℕ} {via : SubmittedVia} {now : Time} {w w' : World}

/-- Past its checks an operation fails for other reasons than a conflict. -/
def NoConflict {α : Type} (m : Tx α) : Prop := Fails (fun e : Raised => e.isConflict = false) m

/-! ## One step at a time -/

def tick (w : World) : World := { w with ticks := w.ticks + 1 }

theorem now_bind_run {α : Type} (f : Time → Tx α) (w : World) :
    (ses.now >>= f) w = f (ses.clock w.ticks) (tick w) := rfl

theorem getAttempt_eq_ok {r : Attempt} :
    getAttempt id w = (.ok r, w') ↔ w.store.attempts.get? id = some r ∧ w' = w := by
  unfold getAttempt
  split
  · rename_i r' hr
    rw [hr]
    simp [eq_comm]
  · rename_i hr
    rw [hr]
    simp

theorem getAttempt_run {r : Attempt} (h : w.store.attempts.get? id = some r) :
    getAttempt id w = (.ok r, w) := getAttempt_eq_ok.2 ⟨h, rfl⟩

def eventOf (ses : ExamSession) (r : Attempt) (eventType : String) (extra : Obj) (ticks : ℕ) :
    Outbox where
  aggregateType := "attempt"
  aggregateId := r.xid
  eventType := eventType
  payload := eventPayload r extra
  createdAt := ses.clock ticks
  availableAt := ses.clock (ticks + 1)

theorem emit_run (ses : ExamSession) (r : Attempt) (eventType : String) (extra : Obj) (w : World) :
    ses.emit r eventType extra w =
      (.ok (), { store := { w.store with
        outbox := w.store.outbox ++ [eventOf ses r eventType extra w.ticks] }
                 ticks := w.ticks + 2 }) := rfl

def announced (ses : ExamSession) (r : Attempt) (via : SubmittedVia) (ticks : ℕ) : List Outbox :=
  if via = .user then []
  else [eventOf ses r "attempt.expired" (Dict.ofList [("reason", .str (expiryReason via))]) ticks]

theorem announce_run (ses : ExamSession) (r : Attempt) (via : SubmittedVia) (w : World) :
    ∃ ticks, ses.announce r via w = (.ok (), { store := { w.store with
      outbox := w.store.outbox ++ announced ses r via w.ticks }, ticks := ticks }) := by
  unfold announce announced
  split
  · exact ⟨w.ticks, by simp⟩
  · exact ⟨w.ticks + 2, emit_run ses r _ _ w⟩

theorem score_eq_ok {r : Attempt} {reason : String} {row : ScoreRunRow}
    (h : ses.score r reason w = (.ok row, w')) :
    ∃ run, computeRun ses.scorer w.store r reason = .ok run ∧
      addRun w.store run r.id none none (ses.clock w.ticks) = .ok (w'.store, row) := by
  unfold score at h
  rw [Effect.gets_bind_run] at h
  obtain ⟨run, u, hrun, h⟩ := Effect.bind_eq_ok.1 h
  simp only [Effect.lift_run, Prod.mk.injEq] at hrun
  obtain ⟨hrun, rfl⟩ := hrun
  rw [Effect.bind_run_ok (m := ses.now) rfl] at h
  refine ⟨run, hrun, ?_⟩
  unfold storeRun at h
  split at h
  · rename_i s row' hadd
    cases h
    exact hadd
  · cases h

theorem scoreAttempt_reason {attempt : AttemptInput} {keys : Dict String KeyVersion}
    {scorer : Scorer} {bandMap : Option BandMap} {reason : String} {run : ScoreRun}
    (h : scoreAttempt attempt keys scorer bandMap reason = .ok run) : run.reason = reason := by
  obtain ⟨t, _, rfl⟩ := map_eq_ok.1 h
  rfl

theorem computeRun_reason {scorer : Scorer} {s : Store} {r : Attempt} {reason : String}
    {run : ScoreRun} (h : computeRun scorer s r reason = .ok run) : run.reason = reason := by
  obtain ⟨inputs, _, h⟩ := PyExc.bind_eq_ok.1 h
  exact scoreAttempt_reason h

/-! ## Freezing and scoring -/

/-- What a completed submit leaves: the attempt scored, one more initial run, one more
`attempt.scored`, and the answers it was scored from. -/
structure Scored (ses : ExamSession) (id : ℕ) (via : SubmittedVia) (now : Time) (r : Attempt)
    (s s' : Store) (row : ScoreRunRow) : Prop where
  attempt : ∃ r', s'.attempts.get? id = some r' ∧ r'.status = .scored ∧
    r'.submittedAt = some now ∧ r'.submittedVia = some via ∧ r'.lateByMs = lateByMs r now
  runs : s'.runsOf id = (s.runsOf id).map (demote id) ++ [row]
  initial : row.reason = "initial"
  current : row.isCurrent = true
  events : ∃ evs, s'.eventsOf id = s.eventsOf id ++ evs ∧
    evs.countP (fun e => e.eventType = "attempt.scored") = 1
  answers : s'.answers = s.answers
  computed : ∃ run now', computeRun ses.scorer s r "initial" = .ok run ∧
    Returns (addRun s run id none none now') ∧ runRow run row.id id none none now' = .ok row

theorem eventOf_attempt (r : Attempt) (eventType : String) {extra : Obj} (ticks : ℕ)
    (h : extra.get? "attempt_id" = none) :
    (eventOf ses r eventType extra ticks).payload.get? "attempt_id" = some (.int r.id) :=
  eventPayload_attempt h

theorem announced_attempt (r : Attempt) (via : SubmittedVia) (ticks : ℕ) :
    ∀ e ∈ announced ses r via ticks, e.payload.get? "attempt_id" = some (.int r.id) ∧
      e.eventType ≠ "attempt.scored" := by
  intro e he
  unfold announced at he
  split at he
  · cases he
  · rw [List.mem_singleton.1 he]
    exact ⟨eventOf_attempt r _ ticks rfl, by simp [eventOf]⟩

theorem filter_append_events {r : Attempt} {old evs : List Outbox}
    (h : ∀ e ∈ evs, e.payload.get? "attempt_id" = some (.int r.id)) :
    (old ++ evs).filter (fun e => e.payload.get? "attempt_id" = some (.int r.id)) =
      old.filter (fun e => e.payload.get? "attempt_id" = some (.int r.id)) ++ evs := by
  rw [List.filter_append]
  congr 1
  rw [List.filter_eq_self]
  intro e he
  exact decide_eq_true (h e he)

theorem addRun_frame {s s' : Store} {run : ScoreRun} {attemptId : ℕ} {job initiator : Option ℕ}
    {row : ScoreRunRow} (h : addRun s run attemptId job initiator now = .ok (s', row)) :
    s'.content = s.content ∧ s'.attempts = s.attempts ∧ s'.answers = s.answers ∧
      s'.outbox = s.outbox := by
  obtain ⟨_, _, _, rfl⟩ := addRun_eq_ok h
  exact ⟨rfl, rfl, rfl, rfl⟩

theorem freezeAndScore_eq_ok {row : ScoreRunRow}
    (h : ses.freezeAndScore id via now w = (.ok row, w')) :
    ∃ r, w.store.attempts.get? id = some r ∧ Scored ses id via now r w.store w'.store row := by
  unfold freezeAndScore at h
  obtain ⟨r, u, hr, hfreeze⟩ := Effect.bind_eq_ok.1 h
  clear h
  obtain ⟨hr, rfl⟩ := getAttempt_eq_ok.1 hr
  have hid : r.id = id := Table.get?_key hr
  subst hid
  refine ⟨r, hr, ?_⟩
  -- the attempt frozen, then announced, then scored
  rw [Effect.bind_run_ok (m := putAttempt _) rfl] at hfreeze
  obtain ⟨ticks, hannounce⟩ := announce_run ses (frozenAttempt r via now) via
    { u with store := { u.store with attempts := u.store.attempts.put (frozenAttempt r via now) } }
  rw [Effect.bind_run_ok hannounce] at hfreeze
  obtain ⟨row', v, hscore, hdone⟩ := Effect.bind_eq_ok.1 hfreeze
  obtain ⟨run, hrun, hadd⟩ := score_eq_ok hscore
  rw [Effect.bind_run_ok (m := ses.now) rfl, Effect.bind_run_ok (m := putAttempt _) rfl,
    Effect.bind_run_ok (emit_run ses _ _ _ _)] at hdone
  cases hdone
  obtain ⟨_, hattempts, hanswers, houtbox⟩ := addRun_frame hadd
  obtain ⟨_, hrow, hitems, _⟩ := addRun_eq_ok hadd
  obtain ⟨hid, _, hreason, hcurrent, _⟩ := runRow_eq_ok hrow
  have hruns := runsOf_addRun hadd r.id
  rw [if_pos (show r.id = (frozenAttempt r via now).id from rfl)] at hruns
  refine ⟨⟨_, Table.get?_put_self _ _, rfl, rfl, rfl, rfl⟩, hruns, ?_, hcurrent, ?_, hanswers, ?_⟩
  · rw [hreason]
    exact computeRun_reason hrun
  · refine ⟨announced ses (frozenAttempt r via now) via u.ticks ++
      [eventOf ses (frozenAttempt r via now) "attempt.scored"
        (Dict.ofList [("score_run_id", .int row.id)]) (v.ticks + 1)], ?_, ?_⟩
    · unfold Store.eventsOf
      change (v.store.outbox ++ _).filter _ = _
      rw [houtbox, List.append_assoc]
      refine filter_append_events (r := frozenAttempt r via now) (fun e he => ?_)
      rcases List.mem_append.1 he with he | he
      · exact (announced_attempt _ _ _ e he).1
      · rw [List.mem_singleton.1 he]
        exact eventOf_attempt _ _ _ rfl
    · rw [List.countP_append, List.countP_eq_zero.2 (fun e he => by
        simpa using (announced_attempt _ _ _ e he).2)]
      simp [eventOf]
  · refine ⟨run, ses.clock ticks, hrun, ?_, hid ▸ hrow⟩
    exact returns_bind.2 ⟨row, hrow, returns_bind.2 ⟨_, hitems, returns_pure _⟩⟩

/-! ## What is raised -/

theorem noConflict_now : NoConflict ses.now := by
  intro w e w' h
  cases h

theorem noConflict_getAttempt : NoConflict (getAttempt id) := by
  intro w e w' h
  unfold getAttempt at h
  split at h
  · cases h
  · cases h
    rfl

theorem noConflict_emit (r : Attempt) (eventType : String) (extra : Obj) :
    NoConflict (ses.emit r eventType extra) := by
  intro w e w' h
  rw [emit_run] at h
  cases h

theorem noConflict_announce (r : Attempt) (via : SubmittedVia) :
    NoConflict (ses.announce r via) := by
  intro w e w' h
  obtain ⟨ticks, hrun⟩ := announce_run ses r via w
  rw [hrun] at h
  cases h

theorem noConflict_score (r : Attempt) (reason : String) : NoConflict (ses.score r reason) := by
  refine fails_bind (fails_gets _) (fun s => ?_)
  refine fails_bind (fails_lift (quiet_computeRun ses.scorer s r reason)) (fun run => ?_)
  refine fails_bind noConflict_now (fun now => ?_)
  intro w e w' h
  unfold storeRun at h
  split at h
  · cases h
  · rename_i e' he
    cases h
    exact quiet_addRun _ _ _ _ _ _ _ he

theorem noConflict_freezeAndScore : NoConflict (ses.freezeAndScore id via now) :=
  fails_bind noConflict_getAttempt (fun _ =>
    fails_bind (fails_update _) (fun _ => fails_bind (noConflict_announce _ via) (fun _ =>
      fails_bind (noConflict_score _ _) (fun run => fails_bind noConflict_now (fun _ =>
        fails_bind (fails_update _) (fun _ => fails_bind (noConflict_emit _ _ _) (fun _ =>
          fails_pure run)))))))

theorem quiet_slotResponseSchema (d : QuestionTypeDef) : Quiet d.slotResponseSchema := by
  unfold QuestionTypeDef.slotResponseSchema
  split
  · exact quiet_error rfl
  · split
    · split
      · exact raises_ok _
      · exact raises_ok _
    · split
      · exact raises_ok _
      · exact raises_ok _

theorem quiet_validateResponse (s : Scorer) (v : Validator) (key : String) (version : ℤ)
    (value : Json) : Quiet (s.validateResponse v key version value) := by
  unfold Scorer.validateResponse Registry.validateResponse
  split
  · exact raises_ok none
  · refine raises_bind (quiet_get s.registry key version) (fun d => ?_)
    refine raises_bind (quiet_slotResponseSchema d) (fun schema => ?_)
    split
    · exact raises_ok _
    · exact raises_ok _

theorem quiet_process (ctx : BatchContext) (b : Batch) (ds : List AnswerDelta) :
    Quiet (ctx.process b ds) := by
  refine raises_foldlM (fun b d => raises_bind ?_ (fun v => ?_))
  · unfold BatchContext.judge
    split
    · exact raises_ok _
    · split
      · exact raises_ok _
      · refine raises_bind (quiet_validateResponse _ _ _ _ _) (fun why => ?_)
        split
        · exact raises_ok _
        · split
          · exact raises_ok _
          · split
            · exact raises_ok _
            · exact raises_ok _
  · split
    · exact raises_ok _
    · exact raises_ok _

theorem noConflict_storeDeltas (r : Attempt) (ds : List AnswerDelta) (now : Time) :
    NoConflict (ses.storeDeltas r ds now) := by
  refine fails_bind (fails_gets _) (fun s => ?_)
  refine fails_bind (fails_lift (quiet_process _ _ ds)) (fun batch => ?_)
  refine fails_bind ?_ (fun _ => fails_pure _)
  intro w e w' h
  unfold flushAnswers at h
  split at h
  · split at h
    · cases h
    · cases h
      rfl
  · cases h

/-! ## A call by its first checks -/

/-- A submit that is not turned away at once. -/
structure Submits (w : World) (id : ℕ) (r : Attempt) : Prop where
  attempt : w.store.attempts.get? id = some r
  live : r.status ≠ .voided
  unanswered : recordedRun w.store r = none

theorem submitAfter_cases {flush : Tx Unit} {x : Except Raised ScoreRunRow}
    (h : ses.submitAfter flush id via w = (x, w')) :
    (w' = tick w ∧ ∀ r, ¬ Submits w id r) ∨
      ∃ r, Submits w id r ∧
        (flush >>= fun _ => ses.freezeAndScore id via (ses.clock w.ticks)) (tick w) = (x, w') := by
  unfold submitAfter at h
  rw [now_bind_run] at h
  cases hr : w.store.attempts.get? id with
  | none =>
    have hget : getAttempt id (tick w) = (.error (notFound "Attempt not found."), tick w) := by
      unfold getAttempt tick
      simp only [hr]
    rw [Effect.bind_run_error hget] at h
    cases h
    refine .inl ⟨rfl, fun r hs => ?_⟩
    rw [hs.attempt] at hr
    cases hr
  | some r =>
    have hget : getAttempt id (tick w) = (.ok r, tick w) := getAttempt_run hr
    rw [Effect.bind_run_ok hget] at h
    have hunique : ∀ r', Submits w id r' → r' = r := by
      intro r' hs
      rw [hs.attempt] at hr
      exact Option.some.inj hr
    split at h
    · rename_i hvoided
      cases h
      exact .inl ⟨rfl, fun r' hs => hs.live (hunique r' hs ▸ hvoided)⟩
    · rename_i hlive
      rw [Effect.gets_bind_run] at h
      cases hrun : recordedRun (tick w).store r with
      | some run =>
        simp only [hrun] at h
        cases h
        refine .inl ⟨rfl, fun r' hs => ?_⟩
        have hnone : recordedRun (tick w).store r = none := hunique r' hs ▸ hs.unanswered
        rw [hrun] at hnone
        cases hnone
      | none =>
        simp only [hrun] at h
        exact .inr ⟨r, ⟨hr, hlive, hrun⟩, h⟩

/-- A save that is not turned away at once. -/
structure Saves (w : World) (id : ℕ) (r : Attempt) : Prop where
  attempt : w.store.attempts.get? id = some r
  status : AttemptStatus.frozen r.status = false

theorem saveAnswers_cases {ds : List AnswerDelta} {x : Except Raised SaveResult}
    (h : ses.saveAnswers id ds w = (x, w')) :
    (w' = tick w ∧ ¬ Returns x) ∨
      ∃ r, Saves w id r ∧
        if ses.past r.expiresAt (ses.clock w.ticks) = true then
          (ses.submitPlain id .autoExpiry >>= fun _ => Effect.raise
            (conflict "The attempt deadline has passed." "attempt_expired")) (tick w) = (x, w')
        else ses.storeDeltas r ds (ses.clock w.ticks) (tick w) = (x, w') := by
  unfold saveAnswers at h
  rw [now_bind_run] at h
  cases hr : w.store.attempts.get? id with
  | none =>
    have hget : getAttempt id (tick w) = (.error (notFound "Attempt not found."), tick w) := by
      unfold getAttempt tick
      simp only [hr]
    rw [Effect.bind_run_error hget] at h
    cases h
    exact .inl ⟨rfl, returns_error _⟩
  | some r =>
    have hget : getAttempt id (tick w) = (.ok r, tick w) := getAttempt_run hr
    rw [Effect.bind_run_ok hget] at h
    split at h
    · cases h
      exact .inl ⟨rfl, returns_error _⟩
    · rename_i hlive
      split at h
      · cases h
        exact .inl ⟨rfl, returns_error _⟩
      · rename_i hfrozen
        rw [not_or] at hfrozen
        refine .inr ⟨r, ⟨hr, ?_⟩, ?_⟩
        · cases hs : r.status <;> simp_all [AttemptStatus.frozen]
        · split at h
          · rename_i hpast
            rw [if_pos hpast]
            exact h
          · rename_i hpast
            rw [if_neg hpast]
            exact h

end IeltsHub.SubmitSpec
