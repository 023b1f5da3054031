import IeltsHub.AutosaveBatch

set_option autoImplicit false

/-!
# What an operation leaves alone

An operation on one attempt keeps every other attempt as it is: its row, its sections, its
answers, its score runs and its events. Content and accounts are only read.
-/
namespace IeltsHub.SessionFrames
open PyExc PyValue PyDict PyTime RowTable RaisingState ExamScoring ExamModels ExamScoringInputs
  ExamSession AutosaveBatch

/-- Everything about attempt `a` is the same. -/
structure SameFor (a : ℕ) (s s' : Store) : Prop where
  content : s'.content = s.content
  users : s'.users = s.users
  attempt : s'.attempts.get? a = s.attempts.get? a
  sections : s'.sectionsOf a = s.sectionsOf a
  answers : s'.answersOf a = s.answersOf a
  runs : s'.runsOf a = s.runsOf a
  events : s'.eventsOf a = s.eventsOf a

def Untouched (a : ℕ) (w w' : World) : Prop := SameFor a w.store w'.store

theorem SameFor.refl (a : ℕ) (s : Store) : SameFor a s s := ⟨rfl, rfl, rfl, rfl, rfl, rfl, rfl⟩

theorem SameFor.trans {a : ℕ} {s t u : Store} (h : SameFor a s t) (h' : SameFor a t u) :
    SameFor a s u where
  content := h'.content.trans h.content
  users := h'.users.trans h.users
  attempt := h'.attempt.trans h.attempt
  sections := h'.sections.trans h.sections
  answers := h'.answers.trans h.answers
  runs := h'.runs.trans h.runs
  events := h'.events.trans h.events

theorem untouched_frame (a : ℕ) : Frame (Untouched a) where
  refl w := SameFor.refl a w.store
  trans h h' := SameFor.trans h h'

variable {a : ℕ} {ses : ExamSession}

/-! ## Reads and writes -/

theorem keeps_now : Keeps (Untouched a) ses.now := fun w => SameFor.refl a w.store

theorem keeps_getAttempt (id : ℕ) : Keeps (Untouched a) (getAttempt id) := by
  intro w
  unfold getAttempt
  split
  · exact SameFor.refl a w.store
  · exact SameFor.refl a w.store

theorem yields_getAttempt (id : ℕ) : Yields (getAttempt id) (fun r => r.id = id) := by
  intro w r w' h
  unfold getAttempt at h
  split at h
  · rename_i r' hr
    cases h
    exact Table.get?_key hr
  · cases h

theorem keeps_putAttempt {r : Attempt} (h : r.id ≠ a) : Keeps (Untouched a) (putAttempt r) :=
  fun w => ⟨rfl, rfl, Table.get?_put_of_ne w.store.attempts h, rfl, rfl, rfl, rfl⟩

theorem sectionsOf_put {s : Store} {r : AttemptSection} (h : r.attemptId ≠ a) :
    (s.attemptSections.put r).select (fun r => r.attemptId = a) = s.sectionsOf a := by
  refine Table.select_put (decide_eq_false h) (fun x hx => ?_)
  have hx : x.attemptId = r.attemptId := congrArg Prod.fst (Table.get?_key hx)
  rw [hx]
  exact decide_eq_false h

theorem keeps_putSection {r : AttemptSection} (h : r.attemptId ≠ a) :
    Keeps (Untouched a) (putSection r) :=
  fun _ => ⟨rfl, rfl, rfl, sectionsOf_put h, rfl, rfl, rfl⟩

theorem eventPayload_attempt {r : Attempt} {extra : Obj} (h : extra.get? "attempt_id" = none) :
    (eventPayload r extra).get? "attempt_id" = some (.int r.id) := by
  rw [eventPayload, Dict.get?_update, h]
  rfl

theorem keeps_emit {r : Attempt} (hr : r.id ≠ a) (eventType : String) {extra : Obj}
    (hextra : extra.get? "attempt_id" = none) : Keeps (Untouched a) (ses.emit r eventType extra) := by
  refine keeps_bind (untouched_frame a) keeps_now (fun created => ?_)
  refine keeps_bind (untouched_frame a) keeps_now (fun available => ?_)
  intro w
  refine ⟨rfl, rfl, rfl, rfl, rfl, rfl, ?_⟩
  have hne : ¬ (some (Json.int r.id) = some (.int a)) := by
    simpa using hr
  unfold setStore Effect.update Store.eventsOf
  rw [List.filter_append, List.filter_cons_of_neg, List.filter_nil, List.append_nil]
  simpa [eventPayload_attempt hextra] using hr

/-! ## Scoring and submitting -/

theorem addRun_eq_ok {s s' : Store} {run : ScoreRun} {id : ℕ} {job initiator : Option ℕ}
    {now : Time} {row : ScoreRunRow} (h : addRun s run id job initiator now = .ok (s', row)) :
    ∃ items, runRow run (s.scoreRuns.mapRows (demote id) (demote_id id)).nextId id job initiator
        now = .ok row ∧ itemScoreRows s.content run row.id = .ok items ∧
      s' = { s with
        scoreRuns := (s.scoreRuns.mapRows (demote id) (demote_id id)).put row
        itemScores := s.itemScores ++ items } := by
  unfold addRun at h
  obtain ⟨row', hrow, h⟩ := bind_eq_ok.1 h
  obtain ⟨items, hitems, h⟩ := bind_eq_ok.1 h
  cases h
  exact ⟨items, hrow, hitems, rfl⟩

theorem runRow_eq_ok {run : ScoreRun} {id attemptId : ℕ} {job initiator : Option ℕ} {now : Time}
    {row : ScoreRunRow} (h : runRow run id attemptId job initiator now = .ok row) :
    row.id = id ∧ row.attemptId = attemptId ∧ row.reason = run.reason ∧ row.isCurrent = true ∧
      numeric 7 2 run.rawScore = .ok row.rawScore ∧ run.band.mapM (numeric 2 1) = .ok row.band := by
  unfold runRow at h
  obtain ⟨_, _, h⟩ := bind_eq_ok.1 h
  obtain ⟨raw, hraw, h⟩ := bind_eq_ok.1 h
  obtain ⟨_, _, h⟩ := bind_eq_ok.1 h
  obtain ⟨band, hband, h⟩ := bind_eq_ok.1 h
  cases h
  exact ⟨rfl, rfl, rfl, rfl, hraw, hband⟩

theorem runsOf_addRun {s s' : Store} {run : ScoreRun} {id : ℕ} {job initiator : Option ℕ}
    {now : Time} {row : ScoreRunRow} (h : addRun s run id job initiator now = .ok (s', row))
    (b : ℕ) : s'.runsOf b = (s.runsOf b).map (demote id) ++ if b = id then [row] else [] := by
  obtain ⟨items, hrow, _, rfl⟩ := addRun_eq_ok h
  obtain ⟨hid, hattempt, _⟩ := runRow_eq_ok hrow
  unfold Store.runsOf
  have hfresh : (s.scoreRuns.mapRows (demote id) (demote_id id)).get? row.id = none := by
    rw [hid]
    exact Table.get?_nextId _
  rw [Table.select_put_of_get?_eq_none hfresh, Table.select_mapRows (by simp)]
  congr 1
  by_cases hb : b = id
  · simp [hb, hattempt]
  · have hb' : ¬ id = b := fun q => hb q.symm
    simp [hb, hb', hattempt]

theorem sameFor_addRun {s s' : Store} {run : ScoreRun} {id : ℕ} {job initiator : Option ℕ}
    {now : Time} {row : ScoreRunRow} (h : addRun s run id job initiator now = .ok (s', row))
    (hid : id ≠ a) : SameFor a s s' := by
  have hruns := runsOf_addRun h a
  obtain ⟨items, _, _, rfl⟩ := addRun_eq_ok h
  refine ⟨rfl, rfl, rfl, rfl, rfl, ?_, rfl⟩
  rw [hruns, if_neg (fun q => hid q.symm), List.append_nil]
  conv_rhs => rw [← List.map_id (s.runsOf a)]
  refine List.map_congr_left (fun r hr => demote_of_ne ?_)
  have hr := of_decide_eq_true (List.mem_filter.1 hr).2
  rw [hr]
  exact fun q => hid q.symm

theorem keeps_storeRun {id : ℕ} (hid : id ≠ a) (run : ScoreRun) (now : Time) :
    Keeps (Untouched a) (storeRun run id now) := by
  intro w
  unfold storeRun
  split
  · rename_i s row h
    exact sameFor_addRun h hid
  · exact SameFor.refl a w.store

theorem keeps_score {r : Attempt} (hr : r.id ≠ a) (reason : String) :
    Keeps (Untouched a) (ses.score r reason) :=
  keeps_bind (untouched_frame a) (keeps_gets (untouched_frame a) _) (fun _ =>
    keeps_bind (untouched_frame a) (keeps_lift (untouched_frame a) _) (fun run =>
      keeps_bind (untouched_frame a) keeps_now (fun now => keeps_storeRun hr run now)))

theorem keeps_announce {r : Attempt} (hr : r.id ≠ a) (via : SubmittedVia) :
    Keeps (Untouched a) (ses.announce r via) := by
  unfold announce
  split
  · exact keeps_pure (untouched_frame a) ()
  · exact keeps_emit hr _ rfl

theorem keeps_freezeAndScore {id : ℕ} (hid : id ≠ a) (via : SubmittedVia) (now : Time) :
    Keeps (Untouched a) (ses.freezeAndScore id via now) := by
  refine keeps_bind_of (untouched_frame a) (keeps_getAttempt id) (yields_getAttempt id) ?_
  intro r hr
  have hfrozen : (frozenAttempt r via now).id ≠ a := hr ▸ hid
  refine keeps_bind (untouched_frame a) (keeps_putAttempt hfrozen) (fun _ => ?_)
  refine keeps_bind (untouched_frame a) (keeps_announce hfrozen via) (fun _ => ?_)
  refine keeps_bind (untouched_frame a) (keeps_score hfrozen "initial") (fun run => ?_)
  refine keeps_bind (untouched_frame a) keeps_now (fun scored => ?_)
  refine keeps_bind (untouched_frame a) (keeps_putAttempt hfrozen) (fun _ => ?_)
  exact keeps_bind (untouched_frame a) (keeps_emit hfrozen _ rfl)
    (fun _ => keeps_pure (untouched_frame a) run)

theorem keeps_submitAfter {id : ℕ} (hid : id ≠ a) {flush : Tx Unit}
    (hflush : Keeps (Untouched a) flush) (via : SubmittedVia) :
    Keeps (Untouched a) (ses.submitAfter flush id via) := by
  refine keeps_bind (untouched_frame a) keeps_now (fun now => ?_)
  refine keeps_bind (untouched_frame a) (keeps_getAttempt id) (fun r => ?_)
  split
  · exact keeps_raise (untouched_frame a) _
  · refine keeps_bind (untouched_frame a) (keeps_gets (untouched_frame a) _) (fun store => ?_)
    split
    · exact keeps_pure (untouched_frame a) _
    · exact keeps_bind (untouched_frame a) hflush (fun _ => keeps_freezeAndScore hid via now)

theorem keeps_submitPlain {id : ℕ} (hid : id ≠ a) (via : SubmittedVia) :
    Keeps (Untouched a) (ses.submitPlain id via) :=
  keeps_submitAfter hid (keeps_pure (untouched_frame a) ()) via

/-! ## Autosave -/

theorem keeps_flushAnswers {id : ℕ} {rows : List AttemptAnswer}
    (h : ∀ r ∈ rows, r.attemptId ≠ a) : Keeps (Untouched a) (flushAnswers id rows) := by
  intro w
  unfold flushAnswers
  split
  · split
    · exact SameFor.refl a w.store
    · exact SameFor.refl a w.store
  · refine ⟨rfl, rfl, rfl, rfl, ?_, rfl, rfl⟩
    refine Table.select_foldl_put (fun r hr => decide_eq_false (h r hr)) (fun x r hr hx => ?_)
    have hx : x.attemptId = r.attemptId := congrArg Prod.fst hx
    rw [hx]
    exact decide_eq_false (h r hr)

theorem keeps_storeDeltas {r : Attempt} (hr : r.id ≠ a) (ds : List AnswerDelta) (now : Time) :
    Keeps (Untouched a) (ses.storeDeltas r ds now) := by
  refine keeps_bind (untouched_frame a) (keeps_gets (untouched_frame a) _) (fun store => ?_)
  refine keeps_bind_of (untouched_frame a) (keeps_lift (untouched_frame a) _)
    (fun w batch w' h => (Prod.mk.inj h).1) (fun batch hbatch => ?_)
  have hlinked := (linked_start (ses.batchContext store r ds now) store).process hbatch
  refine keeps_bind (untouched_frame a) (keeps_flushAnswers (fun x hx => ?_))
    (fun _ => keeps_pure (untouched_frame a) _)
  rw [hlinked.attemptId_pending x hx]
  exact hr

theorem keeps_saveAnswers {id : ℕ} (hid : id ≠ a) (ds : List AnswerDelta) :
    Keeps (Untouched a) (ses.saveAnswers id ds) := by
  refine keeps_bind (untouched_frame a) keeps_now (fun now => ?_)
  refine keeps_bind_of (untouched_frame a) (keeps_getAttempt id) (yields_getAttempt id) ?_
  intro r hr
  split
  · exact keeps_raise (untouched_frame a) _
  · split
    · exact keeps_raise (untouched_frame a) _
    · split
      · exact keeps_bind (untouched_frame a) (keeps_submitPlain hid .autoExpiry)
          (fun _ => keeps_raise (untouched_frame a) _)
      · exact keeps_storeDeltas (hr ▸ hid) ds now

theorem keeps_flushFinal {id : ℕ} (hid : id ≠ a) (ds : List AnswerDelta) :
    Keeps (Untouched a) (ses.flushFinal id ds) := by
  unfold flushFinal
  split
  · exact keeps_pure (untouched_frame a) ()
  · refine keeps_handle (untouched_frame a) ?_ (fun e => ?_)
    · exact keeps_bind (untouched_frame a) (keeps_saveAnswers hid ds)
        (fun _ => keeps_pure (untouched_frame a) ())
    · split
      · exact keeps_pure (untouched_frame a) ()
      · exact keeps_raise (untouched_frame a) e

theorem keeps_submit {id : ℕ} (hid : id ≠ a) (via : SubmittedVia) (ds : List AnswerDelta) :
    Keeps (Untouched a) (ses.submit id via ds) :=
  keeps_submitAfter hid (keeps_flushFinal hid ds) via

/-! ## Sections and audio -/

theorem keeps_payload (id : ℕ) : Keeps (Untouched a) (payload id) := by
  refine keeps_bind (untouched_frame a) (keeps_getAttempt id) (fun r => ?_)
  split
  · exact keeps_raise (untouched_frame a) _
  · refine keeps_bind (untouched_frame a) (keeps_gets (untouched_frame a) _) (fun store => ?_)
    split
    · exact keeps_pure (untouched_frame a) _
    · exact keeps_raise (untouched_frame a) _

theorem sectionAt_attemptId {s : Store} {id : ℕ} {position : ℤ} {row : AttemptSection}
    (h : sectionAt s id position = some row) : row.attemptId = id := by
  have hrow : row ∈ s.sectionsOf id := List.mem_of_find?_eq_some h
  exact of_decide_eq_true (List.mem_filter.1 hrow).2

theorem keeps_enterFirst {r : Attempt} {row : AttemptSection} (hr : r.id ≠ a)
    (hrow : row.attemptId ≠ a) (position : ℤ) (now : Time) :
    Keeps (Untouched a) (enterFirst r row position now) := by
  refine keeps_bind (untouched_frame a) (keeps_gets (untouched_frame a) _) (fun store => ?_)
  refine keeps_bind (untouched_frame a) (keeps_update (fun w => ?_))
    (fun _ => keeps_pure (untouched_frame a) _)
  refine ⟨rfl, rfl, rfl, ?_, rfl, rfl, rfl⟩
  have hentered : (entered store.content r row now).attemptId ≠ a := hrow
  change Table.select (Table.mapRows _ (complete r.id position now)
    (complete_key r.id position now)) _ = _
  rw [Table.select_mapRows_of_eq (fun x => by simp)]
  · exact sectionsOf_put hentered
  intro x hx
  have hx : x.attemptId = a := of_decide_eq_true hx
  unfold complete
  rw [if_neg]
  rintro ⟨h, _⟩
  exact hr (h.symm.trans hx)

theorem keeps_enterSection {id : ℕ} (hid : id ≠ a) (position : ℤ) :
    Keeps (Untouched a) (ses.enterSection id position) := by
  refine keeps_bind_of (untouched_frame a) (keeps_getAttempt id) (yields_getAttempt id) ?_
  intro r hr
  refine keeps_bind (untouched_frame a) (keeps_gets (untouched_frame a) _) (fun store => ?_)
  split
  · exact keeps_raise (untouched_frame a) _
  · rename_i row hrow
    have hrow : row.attemptId ≠ a := by
      rw [sectionAt_attemptId hrow, hr]
      exact hid
    refine keeps_bind (untouched_frame a) keeps_now (fun now => ?_)
    refine keeps_bind (untouched_frame a) ?_ (fun row' => ?_)
    · unfold enterRow
      split
      · exact keeps_enterFirst (hr ▸ hid) hrow position now
      · exact keeps_pure (untouched_frame a) row
    · split
      · exact keeps_raise (untouched_frame a) _
      · exact keeps_pure (untouched_frame a) row'

theorem yields_enterSection (id : ℕ) (position : ℤ) :
    Yields (ses.enterSection id position) (fun row => row.attemptId = id) := by
  intro w row w' h
  unfold enterSection at h
  obtain ⟨r, u, hr, h⟩ := Effect.bind_eq_ok.1 h
  have hr := yields_getAttempt id w r u hr
  rw [Effect.gets_bind_run] at h
  cases hsection : sectionAt u.store r.id position with
  | none =>
    rw [hsection] at h
    cases h
  | some row' =>
    simp only [hsection] at h
    have hrow : row'.attemptId = id := (sectionAt_attemptId hsection).trans hr
    rw [Effect.bind_run_ok (m := ses.now) rfl] at h
    obtain ⟨row'', v, hentered, h⟩ := Effect.bind_eq_ok.1 h
    have hsame : row''.attemptId = id := by
      unfold enterRow at hentered
      split at hentered
      · cases hentered
        exact hrow
      · cases hentered
        exact hrow
    split at h
    · cases h
    · cases h
      exact hsame

theorem keeps_audioGrant {id : ℕ} (hid : id ≠ a) (position : ℤ) :
    Keeps (Untouched a) (ses.audioGrant id position) := by
  refine keeps_bind_of (untouched_frame a) (keeps_enterSection hid position)
    (yields_enterSection id position) ?_
  intro row hrow
  refine keeps_bind (untouched_frame a) (keeps_getAttempt id) (fun r => ?_)
  refine keeps_bind (untouched_frame a) (keeps_gets (untouched_frame a) _) (fun store => ?_)
  refine keeps_bind (untouched_frame a) keeps_now (fun now => ?_)
  cases deliveryMediaXid store.content (store.content.sections.get? row.sectionId) with
  | none => exact keeps_raise (untouched_frame a) _
  | some mediaXid =>
    dsimp only
    split
    · exact keeps_raise (untouched_frame a) _
    · refine keeps_bind (untouched_frame a) (keeps_putSection ?_)
        (fun _ => keeps_pure (untouched_frame a) _)
      exact hrow ▸ hid

/-! ## The sweeper -/

theorem untouched_rollback {w w' : World} (_ : Untouched a w w') :
    Untouched a w (rollback w w') :=
  SameFor.refl a w.store

theorem keeps_sweepOne {id : ℕ} (hid : id ≠ a) : Keeps (Untouched a) (ses.sweepOne id) := by
  refine keeps_bind (untouched_frame a) (keeps_guarded (keeps_submitPlain hid .autoExpiry)
    (fun _ _ => untouched_rollback)) (fun result => ?_)
  split
  · exact keeps_pure (untouched_frame a) _
  · exact keeps_pure (untouched_frame a) _

theorem untouched_autoSubmitExpired {limit : ℕ} {w : World}
    (h : ∀ r ∈ ses.due w.store (ses.clock w.ticks), r.id ≠ a) :
    Untouched a w (ses.autoSubmitExpired limit w).2 := by
  unfold autoSubmitExpired
  rw [Effect.bind_run_ok (m := ses.now) rfl, Effect.gets_bind_run]
  have hkeeps : Keeps (Untouched a) ((((ses.due w.store (ses.clock w.ticks)).take limit).map
      Attempt.id).mapM ses.sweepOne >>= fun swept => pure swept.reduceOption) := by
    refine keeps_bind (untouched_frame a) (keeps_mapM (untouched_frame a) (fun id hid => ?_))
      (fun swept => keeps_pure (untouched_frame a) _)
    obtain ⟨r, hr, rfl⟩ := List.mem_map.1 hid
    exact keeps_sweepOne (h r (List.mem_of_mem_take hr))
  exact hkeeps { w with ticks := w.ticks + 1 }

end IeltsHub.SessionFrames
