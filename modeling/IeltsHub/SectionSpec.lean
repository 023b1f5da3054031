import IeltsHub.VoidedAttempt

set_option autoImplicit false

/-!
# What entering a section does

The first entry writes the row of its section and completes the earlier ones; a later entry
writes nothing. A request for audio enters the section and writes its audio columns.
-/
namespace IeltsHub.SectionSpec
open PyTime PlatformErrors RowTable RaisingState ContentModels ExamModels ExamSession SubmitSpec
  VoidedAttempt

theorem complete_keeps (r : Attempt) (position : ℤ) (now : Time) :
    ∀ row, (complete r.id position now row).key = row.key := complete_key r.id position now

def entryStore (s : Store) (r : Attempt) (row : AttemptSection) (position : ℤ) (now : Time) :
    Store :=
  if row.enteredAt = none then
    { s with
      attemptSections := (s.attemptSections.put (entered s.content r row now)).mapRows
        (complete r.id position now) (complete_keeps r position now) }
  else s

def playStore (s : Store) (row : AttemptSection) : Store :=
  { s with attemptSections := s.attemptSections.put row }

@[simp] theorem entryStore_content (s : Store) (r : Attempt) (row : AttemptSection) (position : ℤ)
    (now : Time) : (entryStore s r row position now).content = s.content := by
  unfold entryStore
  split <;> rfl

@[simp] theorem entryStore_users (s : Store) (r : Attempt) (row : AttemptSection) (position : ℤ)
    (now : Time) : (entryStore s r row position now).users = s.users := by
  unfold entryStore
  split <;> rfl

@[simp] theorem entryStore_attempts (s : Store) (r : Attempt) (row : AttemptSection) (position : ℤ)
    (now : Time) : (entryStore s r row position now).attempts = s.attempts := by
  unfold entryStore
  split <;> rfl

/-! ## The rows of a section -/

section Rows
variable {db : Store} {a : Attempt} {row : AttemptSection} {position : ℤ}

theorem rows_of_sectionAt (hrow : sectionAt db a.id position = some row) :
    db.attemptSections.get? row.key = some row ∧ row.position = position := by
  have hmem := List.mem_filter.1 (List.mem_of_find?_eq_some hrow)
  exact ⟨Table.get?_eq_some.2 ⟨hmem.1, rfl⟩, by simpa using List.find?_some hrow⟩

theorem eq_of_key {x y : AttemptSection} (hx : db.attemptSections.get? x.key = some x)
    (hy : y ∈ db.attemptSections.rows) (hkey : y.key = x.key) : y = x :=
  Option.some.inj ((Table.get?_eq_some.2 ⟨hy, hkey⟩).symm.trans hx)

theorem complete_of_not_lt {x : AttemptSection} (h : ¬ x.position < position) (now : Time) :
    complete a.id position now x = x := by
  unfold complete
  rw [if_neg]
  rintro ⟨_, hlt, _⟩
  exact h hlt

/-- What the first entry of `row` makes of a row. -/
def entryRow (c : ContentStore) (a : Attempt) (row : AttemptSection) (position : ℤ) (now : Time)
    (y : AttemptSection) : AttemptSection :=
  if y.key = row.key then entered c a row now else complete a.id position now y

theorem entryRow_key (c : ContentStore) (now : Time) (y : AttemptSection) :
    (entryRow c a row position now y).key = y.key := by
  unfold entryRow
  split
  · next h => exact h.symm
  · exact complete_key _ _ _ y

theorem entryStore_sections (hrow : sectionAt db a.id position = some row) (now : Time) :
    (entryStore db a row position now).attemptSections =
      if row.enteredAt = none then
        db.attemptSections.mapRows (entryRow db.content a row position now)
          (entryRow_key db.content now)
      else db.attemptSections := by
  obtain ⟨hget, hposition⟩ := rows_of_sectionAt hrow
  unfold entryStore
  split
  · have hentry : db.attemptSections.put (entered db.content a row now) = _ :=
      Table.put_eq_mapRows (x := row) hget
    refine Table.ext_rows ?_
    simp only [hentry, Table.mapRows, List.map_map]
    refine List.map_congr_left (fun y _ => ?_)
    unfold entryRow
    simp only [Function.comp_apply]
    by_cases hkey : y.key = row.key
    · rw [if_pos (show y.key = (entered db.content a row now).key from hkey), if_pos hkey]
      refine complete_of_not_lt (x := entered db.content a row now) ?_ now
      change ¬ row.position < position
      omega
    · rw [if_neg (show ¬ y.key = (entered db.content a row now).key from hkey), if_neg hkey]
  · rfl

theorem afterEntry_stored (hrow : sectionAt db a.id position = some row) (now : Time) :
    (entryStore db a row position now).attemptSections.get? (afterEntry db.content a row now).key =
      some (afterEntry db.content a row now) := by
  obtain ⟨hget, _⟩ := rows_of_sectionAt hrow
  rw [entryStore_sections hrow]
  unfold afterEntry
  by_cases hentered : row.enteredAt = none
  · rw [if_pos hentered, if_pos hentered, Table.get?_mapRows]
    change (db.attemptSections.get? row.key).map _ = _
    rw [hget, Option.map_some, entryRow, if_pos rfl]
  · rw [if_neg hentered, if_neg hentered]
    exact hget

/-- What a play of `row` makes of a row. -/
def playRow (row : AttemptSection) (playOnce : Bool) (now : Time) (y : AttemptSection) :
    AttemptSection :=
  if y.key = row.key then played row playOnce now else y

theorem playRow_key (playOnce : Bool) (now : Time) (y : AttemptSection) :
    (playRow row playOnce now y).key = y.key := by
  unfold playRow
  split
  · next h => exact h.symm
  · rfl

theorem playStore_sections {x : AttemptSection} (hx : db.attemptSections.get? row.key = some x)
    (playOnce : Bool) (now : Time) :
    (playStore db (played row playOnce now)).attemptSections =
      db.attemptSections.mapRows (playRow row playOnce now) (playRow_key playOnce now) :=
  Table.put_eq_mapRows (r := played row playOnce now) (x := x) hx

end Rows

/-! ## The operations -/

variable {ses : ExamSession} {id : ℕ} {position : ℤ} {w u : World} {r : Attempt}
  {row : AttemptSection}

theorem enterSection_unknown (ses : ExamSession) (ha : w.store.attempts.get? id = none) :
    ses.enterSection id position w = (.error (notFound "Attempt not found."), w) := by
  have hget : getAttempt id w = (.error (notFound "Attempt not found."), w) := by
    unfold getAttempt
    rw [ha]
  unfold enterSection
  rw [Effect.bind_run_error hget]

theorem enterSection_eq (ses : ExamSession) (hr : w.store.attempts.get? id = some r)
    (hrow : sectionAt w.store id position = some row) :
    ses.enterSection id position w =
      (if ses.past (afterEntry w.store.content r row (ses.clock w.ticks)).expiresAt
          (ses.clock w.ticks) = true
        then .error (conflict "This section's time is up." "section_expired")
        else .ok (afterEntry w.store.content r row (ses.clock w.ticks)),
        { store := entryStore w.store r row position (ses.clock w.ticks), ticks := w.ticks + 1 }) := by
  have hid : r.id = id := Table.get?_key hr
  have hentry : enterRow r row position (ses.clock w.ticks) (tick w) =
      (.ok (afterEntry w.store.content r row (ses.clock w.ticks)),
        { store := entryStore w.store r row position (ses.clock w.ticks), ticks := w.ticks + 1 }) := by
    unfold enterRow afterEntry entryStore
    by_cases hentered : row.enteredAt = none
    · simp only [if_pos hentered]
      rfl
    · simp only [if_neg hentered]
      rfl
  unfold enterSection
  rw [Effect.bind_run_ok (getAttempt_run hr), Effect.gets_bind_run]
  simp only [hid, hrow]
  rw [now_bind_run, Effect.bind_run_ok hentry]
  split <;> rfl

theorem audioGrant_error {e : Raised} (h : ses.enterSection id position w = (.error e, u)) :
    ses.audioGrant id position w = (.error e, u) := by
  unfold audioGrant
  rw [Effect.bind_run_error h]

theorem audioGrant_eq (h : ses.enterSection id position w = (.ok row, u))
    (hr : u.store.attempts.get? id = some r) :
    ses.audioGrant id position w =
      match deliveryMediaXid u.store.content (u.store.content.sections.get? row.sectionId) with
      | none =>
        (.error (.domain (.notFound "This section has no audio." "section_has_no_audio")), tick u)
      | some mediaXid =>
        let playOnce := isPlayOnce (u.store.content.sections.get? row.sectionId) r
        if playOnce ∧ row.audioLockedAt ≠ none then
          (.error (conflict "This section's audio has already been played."
            "audio_already_played"), tick u)
        else
          let now := ses.clock u.ticks
          let expiresAt := now + seconds ses.mediaGrantTtlSeconds
          (.ok { grant := ses.sign (grantPayload u.store r mediaXid playOnce expiresAt), mediaXid
                 expiresAt, playsRemaining := if playOnce then some 0 else none },
            { store := playStore u.store (played row playOnce now), ticks := u.ticks + 1 }) := by
  unfold audioGrant
  rw [Effect.bind_run_ok h, Effect.bind_run_ok (getAttempt_run hr), Effect.gets_bind_run]
  rw [now_bind_run]
  cases deliveryMediaXid u.store.content (u.store.content.sections.get? row.sectionId) with
  | none => rfl
  | some mediaXid =>
    dsimp only
    split <;> rfl

end IeltsHub.SectionSpec
