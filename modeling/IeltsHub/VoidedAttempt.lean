import IeltsHub.AutosaveConvergence
import IeltsHub.SessionRuns

set_option autoImplicit false

/-!
# A voided attempt

Every operation but two refuses a voided attempt at its first check. Entering a section and
asking for its audio look at the section row only: the first entry of a section starts its clock,
and a grant is given, whatever the status of the attempt.
-/
namespace IeltsHub.VoidedAttempt
open PyExc PyTime PlatformErrors RowTable RaisingState GuardedRuns ContentModels ExamModels
  ExamSession SessionFrames SubmitSpec SessionRuns AutosaveConvergence

def IsVoided (s : Store) (a : ℕ) : Prop :=
  ∃ r, s.attempts.get? a = some r ∧ r.status = .voided

/-- The attempt's row, sections, answers and score runs are as they were. -/
structure Intact (a : ℕ) (s s' : Store) : Prop where
  attempt : s'.attempts.get? a = s.attempts.get? a
  sections : s'.sectionsOf a = s.sectionsOf a
  answers : s'.answersOf a = s.answersOf a
  runs : s'.runsOf a = s.runsOf a

theorem Intact.refl (a : ℕ) (s : Store) : Intact a s s := ⟨rfl, rfl, rfl, rfl⟩

theorem Intact.trans {a : ℕ} {s t u : Store} (h : Intact a s t) (h' : Intact a t u) :
    Intact a s u :=
  ⟨h'.attempt.trans h.attempt, h'.sections.trans h.sections, h'.answers.trans h.answers,
    h'.runs.trans h.runs⟩

theorem Intact.of_untouched {a : ℕ} {w w' : World} (h : Untouched a w w') :
    Intact a w.store w'.store :=
  ⟨h.attempt, h.sections, h.answers, h.runs⟩

theorem Intact.voided {a : ℕ} {s s' : Store} (h : Intact a s s') (hv : IsVoided s a) :
    IsVoided s' a := by
  unfold IsVoided
  rw [h.attempt]
  exact hv

def Discloses : Answer → Prop
  | .paper _ | .grant _ => True
  | _ => False

/-- The section row as an entry at `now` leaves it. -/
def afterEntry (c : ContentStore) (r : Attempt) (row : AttemptSection) (now : Time) :
    AttemptSection :=
  if row.enteredAt = none then entered c r row now else row

def Grantable (s : Store) (r : Attempt) (row : AttemptSection) : Prop :=
  (deliveryMediaXid s.content (s.content.sections.get? row.sectionId)).isSome ∧
    ¬ (isPlayOnce (s.content.sections.get? row.sectionId) r ∧ row.audioLockedAt ≠ none)

/-- The calls that reopen a voided attempt: the first entry of a section, and a request for audio
that enters a section or is granted. -/
def Reopens (ses : ExamSession) (a : ℕ) (w : World) : Call → Prop
  | .enterSection id position => id = a ∧
      ∃ row, sectionAt w.store a position = some row ∧ row.enteredAt = none
  | .audioGrant id position => id = a ∧ ∃ r row, w.store.attempts.get? a = some r ∧
      sectionAt w.store a position = some row ∧
      if ses.past (afterEntry w.store.content r row (ses.clock w.ticks)).expiresAt
          (ses.clock w.ticks) = true then row.enteredAt = none
      else (deliveryMediaXid w.store.content (w.store.content.sections.get? row.sectionId)).isSome ∧
        (row.enteredAt = none ∨ Grantable w.store r row)
  | _ => False

variable {ses : ExamSession} {a : ℕ} {w w' : World}

/-! ## The operations that check -/

theorem not_submits (hv : IsVoided w.store a) (r : Attempt) : ¬ Submits w a r := by
  obtain ⟨r', hr', hstatus⟩ := hv
  intro hs
  have heq : r = r' := Option.some.inj (hs.attempt.symm.trans hr')
  exact hs.live (heq ▸ hstatus)

theorem not_saves (hv : IsVoided w.store a) (r : Attempt) : ¬ Saves w a r := by
  obtain ⟨r', hr', hstatus⟩ := hv
  intro hs
  have heq : r = r' := Option.some.inj (hs.attempt.symm.trans hr')
  have hfrozen := hs.status
  rw [heq, hstatus] at hfrozen
  cases hfrozen

theorem payload_voided (hv : IsVoided w.store a) : payload a w = (.error voided, w) := by
  obtain ⟨r, hr, hstatus⟩ := hv
  unfold payload
  rw [Effect.bind_run_ok (getAttempt_run hr), if_pos hstatus]
  rfl

theorem submitAfter_voided {flush : Tx Unit} {via : SubmittedVia} (hv : IsVoided w.store a) :
    (ses.submitAfter flush a via w).2 = tick w := by
  rcases submitAfter_cases (Prod.eta (ses.submitAfter flush a via w)).symm with ⟨h, _⟩ | ⟨r, hs, _⟩
  · exact h
  · exact absurd hs (not_submits hv r)

theorem saveAnswers_voided {ds : List AnswerDelta} (hv : IsVoided w.store a) :
    (ses.saveAnswers a ds w).2 = tick w := by
  rcases saveAnswers_cases (Prod.eta (ses.saveAnswers a ds w)).symm with ⟨h, _⟩ | ⟨r, hs, _⟩
  · exact h
  · exact absurd hs (not_saves hv r)

theorem not_due (hv : IsVoided w.store a) {now : Time} {r : Attempt}
    (hr : r ∈ ses.due w.store now) : r.id ≠ a := by
  obtain ⟨r', hr', hstatus⟩ := hv
  intro hid
  unfold due at hr
  have hmem := (List.perm_insertionSort _ _).mem_iff.1 hr
  obtain ⟨hrow, hpred⟩ := List.mem_filter.1 hmem
  have heq : r = r' := Option.some.inj ((Table.get?_eq_some.2 ⟨hrow, hid⟩).symm.trans hr')
  rw [heq, hstatus] at hpred
  cases hpred

/-! ## The operations that do not -/

/-- What an entry leaves but for its row: the attempts, the content and the accounts. -/
structure SameBut (w u : World) : Prop where
  content : u.store.content = w.store.content
  attempts : u.store.attempts = w.store.attempts
  ticks : u.ticks = w.ticks + 1

theorem enterSection_run (ses : ExamSession) {position : ℤ} {r : Attempt} {row : AttemptSection}
    (hr : w.store.attempts.get? a = some r) (hrow : sectionAt w.store a position = some row) :
    ∃ u, SameBut w u ∧ (row.enteredAt ≠ none → u = tick w) ∧
      ses.enterSection a position w =
        if ses.past (afterEntry w.store.content r row (ses.clock w.ticks)).expiresAt
            (ses.clock w.ticks) = true then
          (.error (conflict "This section's time is up." "section_expired"), u)
        else (.ok (afterEntry w.store.content r row (ses.clock w.ticks)), u) := by
  have hid : r.id = a := Table.get?_key hr
  have hrun : ses.enterSection a position w =
      (enterRow r row position (ses.clock w.ticks) >>= fun row =>
        if ses.past row.expiresAt (ses.clock w.ticks) = true then
          Effect.raise (conflict "This section's time is up." "section_expired")
        else pure row) (tick w) := by
    unfold enterSection
    rw [Effect.bind_run_ok (getAttempt_run hr), Effect.gets_bind_run]
    simp only [hid, hrow]
    rw [now_bind_run]
  have hentry : ∃ u, SameBut w u ∧ (row.enteredAt ≠ none → u = tick w) ∧
      enterRow r row position (ses.clock w.ticks) (tick w) =
        (.ok (afterEntry w.store.content r row (ses.clock w.ticks)), u) := by
    unfold enterRow afterEntry
    by_cases hentered : row.enteredAt = none
    · rw [if_pos hentered, if_pos hentered]
      exact ⟨(enterFirst r row position (ses.clock w.ticks) (tick w)).2, ⟨rfl, rfl, rfl⟩,
        fun h => absurd hentered h, rfl⟩
    · rw [if_neg hentered, if_neg hentered]
      exact ⟨tick w, ⟨rfl, rfl, rfl⟩, fun _ => rfl, rfl⟩
  obtain ⟨u, hsame, hu, hentry⟩ := hentry
  refine ⟨u, hsame, hu, ?_⟩
  rw [hrun, Effect.bind_run_ok hentry]
  by_cases hpast : ses.past (afterEntry w.store.content r row (ses.clock w.ticks)).expiresAt
      (ses.clock w.ticks) = true
  · rw [if_pos hpast, if_pos hpast]
    rfl
  · rw [if_neg hpast, if_neg hpast]
    rfl

theorem enterSection_missing {position : ℤ} {r : Attempt}
    (hr : w.store.attempts.get? a = some r) (hrow : sectionAt w.store a position = none) :
    ses.enterSection a position w =
      (.error (notFound "Section not found in this attempt."), w) := by
  have hid : r.id = a := Table.get?_key hr
  unfold enterSection
  rw [Effect.bind_run_ok (getAttempt_run hr), Effect.gets_bind_run]
  simp only [hid, hrow]
  rfl

theorem enterSection_guarded {position : ℤ} (hv : IsVoided w.store a)
    (hguard : ¬ Reopens ses a w (.enterSection a position)) :
    (ses.enterSection a position w).2.store = w.store := by
  obtain ⟨r, hr, _⟩ := hv
  cases hrow : sectionAt w.store a position with
  | none => rw [enterSection_missing hr hrow]
  | some row =>
    obtain ⟨u, _, hu, hrun⟩ := enterSection_run ses hr hrow
    have hentered : row.enteredAt ≠ none := fun h => hguard ⟨rfl, row, hrow, h⟩
    rw [hrun, hu hentered]
    split <;> rfl

theorem audioGrant_guarded {position : ℤ} (hv : IsVoided w.store a)
    (hguard : ¬ Reopens ses a w (.audioGrant a position)) :
    ∃ e, (ses.audioGrant a position w).1 = .error e ∧
      (e.isConflict = true → (ses.audioGrant a position w).2.store = w.store) := by
  obtain ⟨r, hr, _⟩ := hv
  unfold audioGrant
  cases hrow : sectionAt w.store a position with
  | none =>
    rw [Effect.bind_run_error (enterSection_missing hr hrow)]
    exact ⟨_, rfl, fun _ => rfl⟩
  | some row =>
    obtain ⟨u, hsame, hu, hrun⟩ := enterSection_run ses hr hrow
    have hguard : ¬ (if ses.past (afterEntry w.store.content r row (ses.clock w.ticks)).expiresAt
          (ses.clock w.ticks) = true then row.enteredAt = none
        else (deliveryMediaXid w.store.content
            (w.store.content.sections.get? row.sectionId)).isSome ∧
          (row.enteredAt = none ∨ Grantable w.store r row)) :=
      fun h => hguard ⟨rfl, r, row, hr, hrow, h⟩
    by_cases hpast : ses.past (afterEntry w.store.content r row (ses.clock w.ticks)).expiresAt
        (ses.clock w.ticks) = true
    · rw [if_pos hpast] at hrun hguard
      rw [Effect.bind_run_error hrun]
      exact ⟨_, rfl, fun _ => by rw [hu hguard]; rfl⟩
    · rw [if_neg hpast] at hrun hguard
      have hsection : (afterEntry w.store.content r row (ses.clock w.ticks)).sectionId =
          row.sectionId := by
        unfold afterEntry
        split <;> rfl
      have hget : u.store.attempts.get? a = some r := by rw [hsame.attempts, hr]
      rw [Effect.bind_run_ok hrun, Effect.bind_run_ok (getAttempt_run hget), Effect.gets_bind_run,
        hsection, hsame.content]
      rw [now_bind_run]
      cases hmedia : deliveryMediaXid w.store.content
          (w.store.content.sections.get? row.sectionId) with
      | none => exact ⟨_, rfl, fun h => absurd h (by decide)⟩
      | some mediaXid =>
        rw [hmedia, not_and, not_or] at hguard
        obtain ⟨hentered, hgrant⟩ := hguard rfl
        have hrow' : afterEntry w.store.content r row (ses.clock w.ticks) = row :=
          if_neg hentered
        have hlocked : (isPlayOnce (w.store.content.sections.get? row.sectionId) r = true ∧
            row.audioLockedAt ≠ none) := by
          by_contra hnot
          exact hgrant ⟨by rw [hmedia]; rfl, hnot⟩
        rw [hrow']
        dsimp only
        rw [if_pos hlocked]
        exact ⟨_, rfl, fun _ => by rw [hu hentered]; rfl⟩

/-! ## Steps and runs -/

theorem intact_of_store {m : World} (h : m.store = w.store) : Intact a w.store m.store := by
  rw [h]
  exact Intact.refl a w.store

theorem intact_step {c : Call} (hv : IsVoided w.store a) (hguard : ¬ Reopens ses a w c)
    (h : Step ses w c w') : Intact a w.store w'.store := by
  by_cases hother : ∃ id, c.attempt? = some id ∧ id ≠ a
  · obtain ⟨id, hc, hid⟩ := hother
    exact .of_untouched (h.untouched hc hid)
  · have hid : ∀ id, c.attempt? = some id → id = a := fun id hc =>
      by_contra (fun hne => hother ⟨id, hc, hne⟩)
    -- the world a call ends in, whatever comes back
    have hend : ∀ {α : Type} {f : α → Answer} {m : Tx α}, perform ses c = f <$> m →
        ((m w).2.store = w.store ∨ Untouched a w (m w).2) → Intact a w.store w'.store := by
      intro α f m hm hstore
      have hresult : Intact a w.store (perform ses c w).2.store := by
        rw [hm, map_world]
        rcases hstore with hstore | hstore
        · exact intact_of_store hstore
        · exact .of_untouched hstore
      cases h with
      | returned answer h =>
        rw [h] at hresult
        exact hresult
      | rolledBack e h => exact Intact.refl a w.store
      | caught e h he =>
        rw [h] at hresult
        exact hresult
    cases c with
    | payload id =>
      cases hid id rfl
      exact hend rfl (.inl (by rw [payload_voided hv]))
    | saveAnswers id ds =>
      cases hid id rfl
      exact hend rfl (.inl (by rw [saveAnswers_voided hv]; rfl))
    | enterSection id position =>
      cases hid id rfl
      exact hend rfl (.inl (enterSection_guarded hv hguard))
    | audioGrant id position =>
      cases hid id rfl
      obtain ⟨e, he, hconflict⟩ := audioGrant_guarded hv hguard
      have hrun : ses.audioGrant a position w = (.error e, (ses.audioGrant a position w).2) :=
        Prod.ext he rfl
      cases h with
      | returned answer h =>
        obtain ⟨g, h, _⟩ := map_eq_ok.1 h
        rw [hrun] at h
        cases h
      | rolledBack e' h => exact Intact.refl a w.store
      | caught e' h he' =>
        have h := map_eq_error.1 h
        rw [hrun] at h
        cases h
        exact intact_of_store (hconflict he')
    | submit id via ds =>
      cases hid id rfl
      exact hend rfl (.inl (by rw [submit, submitAfter_voided hv]; rfl))
    | autoSubmitExpired limit =>
      exact hend rfl (.inr (untouched_autoSubmitExpired (fun r hr => not_due hv hr)))

theorem not_discloses {c : Call} (hv : IsVoided w.store a) (hguard : ¬ Reopens ses a w c)
    (hc : c.attempt? = some a) {answer : Answer} (h : perform ses c w = (.ok answer, w')) :
    ¬ Discloses answer := by
  cases c with
  | payload id =>
    cases hc
    obtain ⟨_, h, _⟩ := map_eq_ok.1 h
    rw [payload_voided hv] at h
    cases h
  | audioGrant id position =>
    cases hc
    obtain ⟨g, h, _⟩ := map_eq_ok.1 h
    obtain ⟨e, he, _⟩ := audioGrant_guarded hv hguard
    rw [h] at he
    cases he
  | saveAnswers id ds =>
    obtain ⟨_, _, rfl⟩ := map_eq_ok.1 h
    exact not_false
  | enterSection id position =>
    obtain ⟨_, _, rfl⟩ := map_eq_ok.1 h
    exact not_false
  | submit id via ds =>
    obtain ⟨_, _, rfl⟩ := map_eq_ok.1 h
    exact not_false
  | autoSubmitExpired limit => cases hc

/-- In every run without a call that reopens it, a voided attempt stays intact in every state
reached, and no call on it answers with its paper or a grant. -/
theorem voided_attempt_dead (ses : ExamSession) (a : ℕ) {w u : World} {calls : List Call}
    (hv : IsVoided w.store a)
    (h : Runs (Step ses) (fun w c => ¬ Reopens ses a w c) w calls u) :
    Intact a w.store u.store ∧
      ∀ c answer w', ¬ Reopens ses a u c → c.attempt? = some a →
        perform ses c u = (.ok answer, w') → ¬ Discloses answer := by
  have hstep : ∀ (w : World) (c : Call) (w' : World), IsVoided w.store a → ¬ Reopens ses a w c →
      Step ses w c w' → IsVoided w'.store a ∧ Intact a w.store w'.store := by
    intro w c w' hv hguard hc
    have hintact := intact_step hv hguard hc
    exact ⟨hintact.voided hv, hintact⟩
  have hu : Intact a w.store u.store := h.related (R := fun w w' => Intact a w.store w'.store)
    (fun w => Intact.refl a w.store)
    (fun s t u (h : Intact a s.store t.store) (h' : Intact a t.store u.store) => h.trans h')
    hstep hv
  exact ⟨hu, fun c answer w' hguard hc hrun => not_discloses (hu.voided hv) hguard hc hrun⟩

def voidedStore : Store :=
  { sampleStore with attempts := .put .empty { sampleAttempt with status := .voided } }

theorem voided_sample : IsVoided voidedStore 1 := ⟨_, rfl, rfl⟩

/-- A submit and a save leave it as it was. -/
theorem voided_attempt_dead_on_submit :
    Intact 1 voidedStore (settle sampleSession (settle sampleSession { store := voidedStore }
      (.submit 1 .user [])) (.saveAnswers 1 [sampleDelta "two" 1])).store := by
  refine (voided_attempt_dead sampleSession 1 (w := { store := voidedStore }) voided_sample
    (.next ?_ (step_settle _ _ (.submit 1 .user [])) (.next ?_ (step_settle _ _
      (.saveAnswers 1 [sampleDelta "two" 1])) (.refl _)))).1
  · exact not_false
  · exact not_false

/-- The account that was voided is given the audio, and the section's clock starts. -/
theorem voided_attempt_gets_audio :
    IsVoided voidedStore 1 ∧
      (∃ g w, perform sampleSession (.audioGrant 1 1) { store := voidedStore } =
        (.ok (.grant g), w) ∧ g.mediaXid = "m1") ∧
      ∃ w, Any (Step sampleSession) { store := voidedStore } [.enterSection 1 1] w ∧
        ¬ Intact 1 voidedStore w.store := by
  refine ⟨voided_sample, ⟨_, _, rfl, rfl⟩, settle sampleSession { store := voidedStore }
    (.enterSection 1 1), .next trivial (step_settle _ _ _) (.refl _), ?_⟩
  intro h
  have hsections := h.sections
  revert hsections
  decide +kernel

end IeltsHub.VoidedAttempt
