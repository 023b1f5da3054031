import IeltsHub.GuardedRuns
import IeltsHub.SubmitSpec

set_option autoImplicit false

/-!
# Calls and their transactions

A call that returns is committed. One that raises is rolled back by its unit of work, unless what
it raised is a conflict that the caller catches inside the same transaction, as the submit
endpoint does around its last flush.
-/
namespace IeltsHub.SessionRuns
open PyExc PyValue PlatformErrors RaisingState ExamModels ExamSession SessionFrames

inductive Call where
  | payload (id : ℕ)
  | saveAnswers (id : ℕ) (deltas : List AnswerDelta)
  | enterSection (id : ℕ) (position : ℤ)
  | audioGrant (id : ℕ) (position : ℤ)
  | submit (id : ℕ) (via : SubmittedVia) (finalAnswers : List AnswerDelta)
  | autoSubmitExpired (limit : ℕ)

inductive Answer where
  | paper (snapshot : Json)
  | saved (result : SaveResult)
  | entered (row : AttemptSection)
  | grant (grant : MediaGrant)
  | run (run : ScoreRunRow)
  | swept (ids : List ℕ)

def perform (ses : ExamSession) : Call → Tx Answer
  | .payload id => Answer.paper <$> payload id
  | .saveAnswers id deltas => Answer.saved <$> ses.saveAnswers id deltas
  | .enterSection id position => Answer.entered <$> ses.enterSection id position
  | .audioGrant id position => Answer.grant <$> ses.audioGrant id position
  | .submit id via finalAnswers => Answer.run <$> ses.submit id via finalAnswers
  | .autoSubmitExpired limit => Answer.swept <$> ses.autoSubmitExpired limit

def Call.attempt? : Call → Option ℕ
  | .payload id | .saveAnswers id _ | .enterSection id _ | .audioGrant id _ | .submit id _ _ =>
    some id
  | .autoSubmitExpired _ => none

inductive Step (ses : ExamSession) (w : World) (c : Call) : World → Prop where
  | returned {w' : World} (answer : Answer) (h : perform ses c w = (.ok answer, w')) : Step ses w c w'
  | rolledBack {w' : World} (e : Raised) (h : perform ses c w = (.error e, w')) :
      Step ses w c (rollback w w')
  | caught {w' : World} (e : Raised) (h : perform ses c w = (.error e, w'))
      (conflict : e.isConflict = true) : Step ses w c w'

def settle (ses : ExamSession) (w : World) (c : Call) : World :=
  match perform ses c w with
  | (.ok _, w') => w'
  | (.error _, w') => rollback w w'

theorem step_settle (ses : ExamSession) (w : World) (c : Call) : Step ses w c (settle ses w c) := by
  unfold settle
  split
  · rename_i answer w' h
    exact .returned answer h
  · rename_i e w' h
    exact .rolledBack e h

/-! ## Mapped effects -/

variable {α β : Type} {f : α → β} {m : Tx α} {w w' : World}

theorem map_eq_ok {b : β} : (f <$> m) w = (.ok b, w') ↔ ∃ a, m w = (.ok a, w') ∧ f a = b := by
  rw [map_eq_pure_bind, Effect.bind_eq_ok]
  constructor
  · rintro ⟨a, u, ha, h⟩
    cases h
    exact ⟨a, ha, rfl⟩
  · rintro ⟨a, ha, rfl⟩
    exact ⟨a, w', ha, rfl⟩

theorem map_eq_error {e : Raised} : (f <$> m) w = (.error e, w') ↔ m w = (.error e, w') := by
  rw [map_eq_pure_bind, Effect.bind_eq_error]
  constructor
  · rintro (h | ⟨a, u, _, h⟩)
    · exact h
    · cases h
  · intro h
    exact .inl h

theorem map_world (f : α → β) (m : Tx α) (w : World) : ((f <$> m) w).2 = (m w).2 := by
  rw [map_eq_pure_bind, Effect.bind_run]
  rcases m w with ⟨x | x, u⟩ <;> rfl

theorem keeps_map {R : World → World → Prop} (hR : Frame R) (h : Keeps R m) :
    Keeps R (f <$> m) := by
  rw [map_eq_pure_bind]
  exact keeps_bind hR h (fun a => keeps_pure hR (f a))

/-! ## Calls on other attempts -/

theorem keeps_perform {a : ℕ} {ses : ExamSession} {c : Call} {id : ℕ} (hc : c.attempt? = some id)
    (hid : id ≠ a) : Keeps (Untouched a) (perform ses c) := by
  cases c with
  | payload i =>
    cases hc
    exact keeps_map (untouched_frame a) (keeps_payload id)
  | saveAnswers i ds =>
    cases hc
    exact keeps_map (untouched_frame a) (keeps_saveAnswers hid ds)
  | enterSection i position =>
    cases hc
    exact keeps_map (untouched_frame a) (keeps_enterSection hid position)
  | audioGrant i position =>
    cases hc
    exact keeps_map (untouched_frame a) (keeps_audioGrant hid position)
  | submit i via ds =>
    cases hc
    exact keeps_map (untouched_frame a) (keeps_submit hid via ds)
  | autoSubmitExpired limit => cases hc

theorem Step.of_keeps {ses : ExamSession} {c : Call} {R : World → World → Prop}
    (hroll : ∀ w w', R w (rollback w w')) (hk : Keeps R (perform ses c)) (h : Step ses w c w') :
    R w w' := by
  have hw := hk w
  cases h with
  | returned answer h =>
    rw [h] at hw
    exact hw
  | rolledBack e h => exact hroll _ _
  | caught e h hconflict =>
    rw [h] at hw
    exact hw

theorem Step.untouched {a : ℕ} {ses : ExamSession} {c : Call} {id : ℕ}
    (hc : c.attempt? = some id) (hid : id ≠ a) (h : Step ses w c w') : Untouched a w w' :=
  h.of_keeps (fun w _ => SameFor.refl a w.store) (keeps_perform hc hid)

end IeltsHub.SessionRuns
