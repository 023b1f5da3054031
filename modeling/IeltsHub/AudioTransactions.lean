import IeltsHub.SectionSpec

set_option autoImplicit false

/-!
# Audio requests as transactions

Every request for audio is a READ COMMITTED transaction of its own. It selects the section row
without locking it and works on the copy it was given; a flush takes the locks of the rows it
writes and waits for them; what it wrote is seen by the others once it commits, and by nobody if
it raises.
-/
namespace IeltsHub.AudioTransactions
open PyExc PyTime PlatformErrors RowTable GuardedRuns ExamModels ExamSession SessionRuns
  VoidedAttempt SectionSpec

/-- What a request holds of its section: the row as it was loaded, as it stands now in the
session, and the earlier sections its first entry completes. -/
structure Held where
  attempt : Attempt
  loaded : AttemptSection
  row : AttemptSection
  now : Time
  completes : List (ℕ × ℕ) := []

inductive Phase where
  | waiting
  | selected (held : Held)
  | entered (held : Held)
  | flushed (held : Held) (grant : MediaGrant)
  | done (result : Except Raised MediaGrant)

structure Request where
  attempt : ℕ
  position : ℤ
  phase : Phase := .waiting

/-- The committed database, the row locks with their holders, and the requests. -/
structure Sys where
  store : Store
  locks : List ((ℕ × ℕ) × ℕ) := []
  requests : ℕ → Request

inductive Act where
  | select (now : Time)
  | enter
  | grant (now : Time)
  | commit
  | fail (e : Raised)

namespace Sys

def put (s : Sys) (r : ℕ) (phase : Phase) : Sys :=
  { s with requests := Function.update s.requests r { s.requests r with phase } }

def finish (s : Sys) (r : ℕ) (result : Except Raised MediaGrant) : Sys :=
  { s.put r (.done result) with locks := s.locks.filter (fun l => l.2 ≠ r) }

/-- Take the locks of `keys`, or wait for their holders. -/
def lock (s : Sys) (r : ℕ) (keys : List (ℕ × ℕ)) : Option Sys :=
  if s.locks.all (fun l => l.2 = r ∨ l.1 ∉ keys)
  then some { s with locks := s.locks ++ keys.map (fun k => (k, r)) } else none

end Sys

def Held.of (a : Attempt) (row : AttemptSection) (now : Time) : Held where
  attempt := a
  loaded := row
  row := row
  now := now

def opened (s : Store) (q : Request) (now : Time) : Phase :=
  match s.attempts.get? q.attempt with
  | none => .done (.error (notFound "Attempt not found."))
  | some a =>
    match sectionAt s a.id q.position with
    | none => .done (.error (notFound "Section not found in this attempt."))
    | some row => .selected (.of a row now)

def earlier (s : Store) (attemptId : ℕ) (position : ℤ) : List (ℕ × ℕ) :=
  (s.attemptSections.select (fun r => r.attemptId = attemptId ∧ r.position < position ∧
    r.enteredAt ≠ none ∧ r.completedAt = none)).map AttemptSection.key

def timesUp : Raised := conflict "This section's time is up." "section_expired"

def admitted (ses : ExamSession) (s : Sys) (r : ℕ) (h : Held) : Sys :=
  if ses.past h.row.expiresAt h.now then s.finish r (.error timesUp) else s.put r (.entered h)

/-- The rest of `enter_section` after the row is selected. -/
def enter (ses : ExamSession) (s : Sys) (r : ℕ) (h : Held) : Option Sys :=
  if h.row.enteredAt = none then
    let row := ExamSession.entered s.store.content h.attempt h.row h.now
    let completes := earlier s.store h.attempt.id (s.requests r).position
    (s.lock r (row.key :: completes)).map (fun s => admitted ses s r { h with row, completes })
  else some (admitted ses s r h)

/-- The rest of `audio_grant` once the section is entered. -/
def grant (ses : ExamSession) (s : Sys) (r : ℕ) (h : Held) (now : Time) : Option Sys :=
  let testSection := s.store.content.sections.get? h.row.sectionId
  match deliveryMediaXid s.store.content testSection with
  | none =>
    some (s.finish r (.error (.domain (.notFound "This section has no audio."
      "section_has_no_audio"))))
  | some mediaXid =>
    let playOnce := isPlayOnce testSection h.attempt
    if playOnce ∧ h.row.audioLockedAt ≠ none then
      some (s.finish r (.error (conflict "This section's audio has already been played."
        "audio_already_played")))
    else
      let expiresAt := now + seconds ses.mediaGrantTtlSeconds
      let grant : MediaGrant :=
        { grant := ses.sign (grantPayload s.store h.attempt mediaXid playOnce expiresAt), mediaXid
          expiresAt, playsRemaining := if playOnce then some 0 else none }
      (s.lock r [h.row.key]).map (fun s =>
        s.put r (.flushed { h with row := played h.row playOnce now } grant))

def Held.mergeRow (h : Held) (stored : AttemptSection) : AttemptSection :=
  { stored with
    enteredAt := merged h.loaded.enteredAt h.row.enteredAt stored.enteredAt
    expiresAt := merged h.loaded.expiresAt h.row.expiresAt stored.expiresAt
    audioPlayCount := merged h.loaded.audioPlayCount h.row.audioPlayCount stored.audioPlayCount
    audioStartedAt := merged h.loaded.audioStartedAt h.row.audioStartedAt stored.audioStartedAt
    audioLockedAt := merged h.loaded.audioLockedAt h.row.audioLockedAt stored.audioLockedAt }

def Held.landRow (h : Held) (stored : AttemptSection) : AttemptSection :=
  if stored.key = h.loaded.key then h.mergeRow stored
  else if stored.key ∈ h.completes then { stored with completedAt := some h.now }
  else stored

@[simp] theorem Held.landRow_key (h : Held) (r : AttemptSection) : (h.landRow r).key = r.key := by
  unfold landRow
  split
  · rfl
  · split <;> rfl

def Held.land (h : Held) (s : Store) : Store :=
  { s with attemptSections := s.attemptSections.mapRows h.landRow h.landRow_key }

def step (ses : ExamSession) (s : Sys) (i : ℕ × Act) : Option Sys :=
  match (s.requests i.1).phase, i.2 with
  | .waiting, .select now => some (s.put i.1 (opened s.store (s.requests i.1) now))
  | .selected h, .enter => enter ses s i.1 h
  | .entered h, .grant now => grant ses s i.1 h now
  | .flushed h g, .commit => some { s.finish i.1 (.ok g) with store := h.land s.store }
  | .selected _, .fail e | .entered _, .fail e | .flushed _ _, .fail e =>
    some (s.finish i.1 (.error e))
  | _, _ => none

abbrev Step (ses : ExamSession) (s : Sys) (i : ℕ × Act) (t : Sys) : Prop := step ses s i = some t

/-! ## What a step can do -/

/-- The phases a request can reach from its own without committing. -/
inductive Next (s : Sys) (r : ℕ) : Phase → Prop where
  | selected {a : Attempt} {row : AttemptSection} (now : Time)
      (attempt : s.store.attempts.get? (s.requests r).attempt = some a)
      (found : sectionAt s.store (s.requests r).attempt (s.requests r).position = some row) :
      Next s r (.selected (.of a row now))
  | entered {h : Held} (phase : (s.requests r).phase = .selected h) (enteredAt expiresAt : Option Time)
      (completes : List (ℕ × ℕ)) :
      Next s r (.entered { h with row := { h.row with enteredAt, expiresAt }, completes })
  | flushed {h : Held} (phase : (s.requests r).phase = .entered h) (playOnce : Bool) (now : Time)
      (g : MediaGrant)
      (flag : playOnce = isPlayOnce (s.store.content.sections.get? h.row.sectionId) h.attempt)
      (unlocked : playOnce = true → h.row.audioLockedAt = none) :
      Next s r (.flushed { h with row := played h.row playOnce now } g)
  | raised (e : Raised) : Next s r (.done (.error e))

variable {ses : ExamSession} {s t : Sys} {i : ℕ × Act} {r : ℕ} {h : Held}

theorem lock_eq_some {keys : List (ℕ × ℕ)} (hl : s.lock r keys = some t) :
    t.store = s.store ∧ t.requests = s.requests := by
  unfold Sys.lock at hl
  split at hl
  · cases hl
    exact ⟨rfl, rfl⟩
  · cases hl

theorem put_requests {u : Sys} (hrequests : u.requests = s.requests) (p : Phase) :
    (u.put r p).requests = (s.put r p).requests := by
  unfold Sys.put
  rw [hrequests]

/-- The step changed nothing but the phase of one request. -/
structure Moved (s : Sys) (r : ℕ) (t : Sys) : Prop where
  store : t.store = s.store
  next : ∃ p, Next s r p ∧ t.requests = (s.put r p).requests

theorem moved_finish (s : Sys) (r : ℕ) (e : Raised) : Moved s r (s.finish r (.error e)) :=
  ⟨rfl, _, .raised e, rfl⟩

theorem moved_opened (now : Time) : Moved s r (s.put r (opened s.store (s.requests r) now)) := by
  refine ⟨rfl, _, ?_, rfl⟩
  unfold opened
  cases ha : s.store.attempts.get? (s.requests r).attempt with
  | none => exact .raised _
  | some a =>
    have hid : a.id = (s.requests r).attempt := Table.get?_key ha
    simp only [hid]
    cases hrow : sectionAt s.store (s.requests r).attempt (s.requests r).position with
    | none => exact .raised _
    | some row => exact .selected now ha hrow

theorem moved_enter (hphase : (s.requests r).phase = .selected h) (he : enter ses s r h = some t) :
    Moved s r t := by
  have hadmitted : ∀ u : Sys, u.store = s.store → u.requests = s.requests →
      ∀ (enteredAt expiresAt : Option Time) (completes : List (ℕ × ℕ)), Moved s r
        (admitted ses u r { h with row := { h.row with enteredAt, expiresAt }, completes }) := by
    intro u hstore hrequests enteredAt expiresAt completes
    unfold admitted
    split
    · exact ⟨hstore, _, .raised timesUp, put_requests hrequests _⟩
    · exact ⟨hstore, _, .entered hphase enteredAt expiresAt completes, put_requests hrequests _⟩
  unfold enter at he
  split at he
  · obtain ⟨u, hu, rfl⟩ := Option.map_eq_some_iff.1 he
    obtain ⟨hstore, hrequests⟩ := lock_eq_some hu
    exact hadmitted u hstore hrequests _ _ _
  · cases he
    exact hadmitted s rfl rfl h.row.enteredAt h.row.expiresAt h.completes

theorem moved_grant {now : Time} (hphase : (s.requests r).phase = .entered h)
    (hg : grant ses s r h now = some t) : Moved s r t := by
  simp only [grant] at hg
  split at hg
  · cases hg
    exact moved_finish s r _
  · split at hg
    · cases hg
      exact moved_finish s r _
    · next hfree =>
      obtain ⟨u, hu, rfl⟩ := Option.map_eq_some_iff.1 hg
      obtain ⟨hstore, hrequests⟩ := lock_eq_some hu
      have hunlocked : isPlayOnce (s.store.content.sections.get? h.row.sectionId) h.attempt = true →
          h.row.audioLockedAt = none := by
        intro hflag
        by_contra hlocked
        exact hfree ⟨hflag, hlocked⟩
      exact ⟨hstore, _, .flushed hphase _ now _ rfl hunlocked, put_requests hrequests _⟩

theorem step_cases (hs : step ses s i = some t) :
    (∃ h g, (s.requests i.1).phase = .flushed h g ∧ i.2 = .commit ∧
      t.store = h.land s.store ∧ t.requests = (s.put i.1 (.done (.ok g))).requests) ∨
    ((∀ result, (s.requests i.1).phase ≠ .done result) ∧ i.2 ≠ .commit ∧ Moved s i.1 t) := by
  obtain ⟨r, act⟩ := i
  simp only [step] at hs
  split at hs
  · next hphase =>
    cases hs
    exact .inr ⟨by simp [hphase], nofun, moved_opened _⟩
  · next h hphase => exact .inr ⟨by simp [hphase], nofun, moved_enter hphase hs⟩
  · next h now hphase => exact .inr ⟨by simp [hphase], nofun, moved_grant hphase hs⟩
  · next h g hphase =>
    cases hs
    exact .inl ⟨h, g, hphase, rfl, rfl, rfl⟩
  · next hphase =>
    cases hs
    exact .inr ⟨by simp [hphase], nofun, moved_finish s r _⟩
  · next hphase =>
    cases hs
    exact .inr ⟨by simp [hphase], nofun, moved_finish s r _⟩
  · next hphase =>
    cases hs
    exact .inr ⟨by simp [hphase], nofun, moved_finish s r _⟩
  · cases hs

/-! ## A request that runs alone -/

variable {a : Attempt} {row : AttemptSection} {position : ℤ} {db : Store}

theorem mem_earlier {x : AttemptSection} (hx : x ∈ db.attemptSections.rows) :
    x.key ∈ earlier db a.id position ↔ x.attemptId = a.id ∧ x.position < position ∧
      x.enteredAt ≠ none ∧ x.completedAt = none := by
  unfold earlier
  rw [List.mem_map]
  constructor
  · rintro ⟨y, hy, hkey⟩
    obtain ⟨hy, hp⟩ := List.mem_filter.1 hy
    have hsame : y = x := eq_of_key (Table.get?_eq_some.2 ⟨hx, rfl⟩) hy hkey
    rw [hsame] at hp
    exact of_decide_eq_true hp
  · intro hp
    exact ⟨x, List.mem_filter.2 ⟨hx, decide_eq_true hp⟩, rfl⟩

theorem landRow_self (db : Store) (a : Attempt) (row : AttemptSection) (playOnce : Bool) (t₀ t₁ : Time) (keys : List (ℕ × ℕ)) :
    Held.landRow { attempt := a, loaded := row, now := t₀, completes := keys
                   row := played (afterEntry db.content a row t₀) playOnce t₁ } row =
      played (afterEntry db.content a row t₀) playOnce t₁ := by
  have hcompleted : (afterEntry db.content a row t₀).completedAt = row.completedAt := by
    unfold afterEntry
    split <;> rfl
  have hkey : (afterEntry db.content a row t₀).key = row.key ∧
      (afterEntry db.content a row t₀).position = row.position := by
    unfold afterEntry
    split <;> exact ⟨rfl, rfl⟩
  unfold Held.landRow Held.mergeRow
  rw [if_pos rfl]
  simp only [merged_loaded]
  simp only [AttemptSection.key, Prod.mk.injEq] at hkey
  simp only [played, AttemptSection.mk.injEq]
  simp [hcompleted, hkey]

theorem land_eq (hrow : sectionAt db a.id position = some row) (playOnce : Bool) (t₀ t₁ : Time) :
    Held.land { attempt := a, loaded := row, now := t₀
                row := played (afterEntry db.content a row t₀) playOnce t₁
                completes := if row.enteredAt = none then earlier db a.id position else [] } db =
      playStore (entryStore db a row position t₀)
        (played (afterEntry db.content a row t₀) playOnce t₁) := by
  obtain ⟨hget, hposition⟩ := rows_of_sectionAt hrow
  have hfixed : ¬ row.position < position := by omega
  have hself := landRow_self db a row playOnce t₀ t₁
  unfold Held.land playStore
  by_cases hentered : row.enteredAt = none
  · simp only [afterEntry, entryStore, if_pos hentered] at hself ⊢
    congr 1
    have hentry : (db.attemptSections.put (entered db.content a row t₀)) = _ :=
      Table.put_eq_mapRows (x := row) hget
    have hget' : db.attemptSections.get? (played (entered db.content a row t₀) playOnce t₁).key =
        some row := hget
    rw [hentry, Table.put_eq_mapRows (x := complete a.id position t₀ (entered db.content a row t₀))]
    · refine Table.ext_rows ?_
      simp only [Table.mapRows, List.map_map]
      refine List.map_congr_left (fun y hy => ?_)
      by_cases hkey : y.key = row.key
      · have hy : y = row := eq_of_key hget hy hkey
        have hkept : complete a.id position t₀ (entered db.content a row t₀) =
            entered db.content a row t₀ :=
          complete_of_not_lt (x := entered db.content a row t₀) hfixed t₀
        rw [hy, hself]
        simp only [Function.comp_apply]
        rw [if_pos (show row.key = (entered db.content a row t₀).key from rfl), hkept]
        exact (if_pos rfl).symm
      · have hne : ¬ y.key = (entered db.content a row t₀).key := hkey
        simp only [Function.comp_apply, if_neg hne]
        rw [if_neg (by rw [complete_key]; exact hkey), Held.landRow, if_neg hkey]
        simp only [mem_earlier hy]
        rfl
    · rw [Table.get?_mapRows, Table.get?_mapRows, hget', Option.map_some, Option.map_some,
        if_pos (show row.key = (entered db.content a row t₀).key from rfl)]
  · simp only [afterEntry, entryStore, if_neg hentered] at hself ⊢
    congr 1
    rw [Table.put_eq_mapRows (r := played row playOnce t₁) (x := row) hget]
    refine Table.ext_rows (List.map_congr_left (fun y hy => ?_))
    by_cases hkey : y.key = row.key
    · have hy : y = row := eq_of_key hget hy hkey
      rw [hy, hself []]
      exact (if_pos rfl).symm
    · rw [Held.landRow, if_neg hkey, if_neg List.not_mem_nil]
      exact (if_neg hkey).symm

theorem settle_ok {ses : ExamSession} {w u : World} {id : ℕ} {g : MediaGrant}
    (hg : ses.audioGrant id position w = (.ok g, u)) :
    settle ses w (.audioGrant id position) = u := by
  unfold settle
  rw [show perform ses (.audioGrant id position) w = (.ok (.grant g), u) from
    map_eq_ok.2 ⟨g, hg, rfl⟩]

theorem settle_error {ses : ExamSession} {w u : World} {id : ℕ} {e : Raised}
    (hg : ses.audioGrant id position w = (.error e, u)) :
    settle ses w (.audioGrant id position) = rollback w u := by
  unfold settle
  rw [show perform ses (.audioGrant id position) w = (.error e, u) from map_eq_error.2 hg]

@[simp] theorem put_phase (s : Sys) (r : ℕ) (p : Phase) : ((s.put r p).requests r).phase = p := by
  simp [Sys.put]

@[simp] theorem finish_phase (s : Sys) (r : ℕ) (result : Except Raised MediaGrant) :
    ((s.finish r result).requests r).phase = .done result := put_phase s r _

theorem lock_own (keys : List (ℕ × ℕ)) (hl : ∀ l ∈ s.locks, l.2 = r) :
    ∃ t, s.lock r keys = some t ∧ t.store = s.store ∧ t.requests = s.requests ∧
      ∀ l ∈ t.locks, l.2 = r := by
  refine ⟨{ s with locks := s.locks ++ keys.map (fun k => (k, r)) }, ?_, rfl, rfl, ?_⟩
  · unfold Sys.lock
    rw [if_pos]
    simp only [List.all_eq_true]
    intro l hmem
    simp [hl l hmem]
  · intro l hmem
    rcases List.mem_append.1 hmem with hmem | hmem
    · exact hl l hmem
    · obtain ⟨_, _, rfl⟩ := List.mem_map.1 hmem
      rfl

def entering (s : Sys) (r : ℕ) (h : Held) : Held :=
  { h with
    row := afterEntry s.store.content h.attempt h.row h.now
    completes := if h.row.enteredAt = none
      then earlier s.store h.attempt.id (s.requests r).position else h.completes }

theorem enter_own (ses : ExamSession) (h : Held) (hl : ∀ l ∈ s.locks, l.2 = r) :
    ∃ t, enter ses s r h = some (admitted ses t r (entering s r h)) ∧ t.store = s.store ∧
      ∀ l ∈ t.locks, l.2 = r := by
  unfold enter entering afterEntry
  by_cases hentered : h.row.enteredAt = none
  · simp only [if_pos hentered]
    obtain ⟨t, ht, hstore, _, hown⟩ := lock_own
      ((entered s.store.content h.attempt h.row h.now).key ::
        earlier s.store h.attempt.id (s.requests r).position) hl
    exact ⟨t, by rw [ht, Option.map_some], hstore, hown⟩
  · simp only [if_neg hentered]
    exact ⟨s, rfl, rfl, hl⟩

def requesting (s : Store) (id : ℕ) (position : ℤ) : Sys where
  store := s
  requests _ := { attempt := id, position }

theorem granting_alone (ses : ExamSession) (position : ℤ) {w : World} {id : ℕ} (ha : w.store.attempts.get? id = some a)
    (hrow : sectionAt w.store a.id position = some row) (hstore : s.store = w.store)
    (hposition : (s.requests 0).position = position)
    (hphase : (s.requests 0).phase = .selected (.of a row (ses.clock w.ticks)))
    (hown : ∀ l ∈ s.locks, l.2 = 0) :
    ∃ is v, Any (Step ses) s is v ∧
      (v.requests 0).phase = .done (ses.audioGrant id position w).1 ∧
      v.store = (settle ses w (.audioGrant id position)).store := by
  have hid : a.id = id := Table.get?_key ha
  obtain ⟨t, ht, htstore, htown⟩ := enter_own ses (.of a row (ses.clock w.ticks)) hown
  have hentering : entering s 0 (.of a row (ses.clock w.ticks)) =
      { attempt := a, loaded := row, now := ses.clock w.ticks
        row := afterEntry w.store.content a row (ses.clock w.ticks)
        completes := if row.enteredAt = none then earlier w.store a.id position else [] } := by
    simp [entering, Held.of, hstore, hposition]
  rw [hentering] at ht
  generalize hh : Held.mk a row _ _ _ = h at ht
  have hrow' : h.row = afterEntry w.store.content a row (ses.clock w.ticks) := by rw [← hh]
  have hnow : h.now = ses.clock w.ticks := by rw [← hh]
  have hattempt : h.attempt = a := by rw [← hh]
  have henter : Step ses s (0, .enter) (admitted ses t 0 h) := by
    simp only [Step, step, hphase]
    exact ht
  have hspec := enterSection_eq ses ha (hid ▸ hrow)
  unfold admitted at henter
  rw [hrow', hnow] at henter
  by_cases hpast : ses.past (afterEntry w.store.content a row (ses.clock w.ticks)).expiresAt
      (ses.clock w.ticks) = true
  · rw [if_pos hpast] at henter hspec
    have hraise := audioGrant_error hspec
    rw [settle_error hraise, hraise]
    exact ⟨_, _, .next trivial henter (.refl _), finish_phase t 0 _, htstore.trans hstore⟩
  rw [if_neg hpast] at henter hspec
  have hgrant := audioGrant_eq hspec (r := a) (by simpa using ha)
  have hput : (t.put 0 (.entered h)).store = w.store := htstore.trans hstore
  have hstep : step ses (t.put 0 (.entered h)) (0, .grant (ses.clock (w.ticks + 1))) =
      grant ses (t.put 0 (.entered h)) 0 h (ses.clock (w.ticks + 1)) := by
    simp only [step, put_phase]
  simp only [grant, hput, hrow', hattempt] at hstep
  simp only [entryStore_content] at hgrant
  cases hmedia : deliveryMediaXid w.store.content (w.store.content.sections.get?
      (afterEntry w.store.content a row (ses.clock w.ticks)).sectionId) with
  | none =>
    simp only [hmedia] at hstep hgrant
    rw [settle_error hgrant, hgrant]
    exact ⟨_, _, .next trivial henter (.next trivial hstep (.refl _)), finish_phase _ 0 _, hput⟩
  | some mediaXid =>
    simp only [hmedia] at hstep hgrant
    by_cases hlocked : isPlayOnce (w.store.content.sections.get?
        (afterEntry w.store.content a row (ses.clock w.ticks)).sectionId) a = true ∧
        (afterEntry w.store.content a row (ses.clock w.ticks)).audioLockedAt ≠ none
    · rw [if_pos hlocked] at hstep hgrant
      rw [settle_error hgrant, hgrant]
      exact ⟨_, _, .next trivial henter (.next trivial hstep (.refl _)), finish_phase _ 0 _, hput⟩
    rw [if_neg hlocked] at hstep hgrant
    obtain ⟨t', ht', hstore', hrequests', _⟩ := lock_own (s := t.put 0 (.entered h)) (r := 0)
      [(afterEntry w.store.content a row (ses.clock w.ticks)).key] htown
    rw [ht', Option.map_some] at hstep
    have hcommit : ∀ g h', Step ses (t'.put 0 (.flushed h' g)) (0, .commit)
        { (t'.put 0 (.flushed h' g)).finish 0 (.ok g) with store := h'.land t'.store } := by
      intro g h'
      simp only [Step, step, put_phase]
      rfl
    rw [settle_ok hgrant, hgrant]
    refine ⟨_, _, .next trivial henter (.next trivial hstep (.next trivial (hcommit _ _)
      (.refl _))), ?_, ?_⟩
    · refine (finish_phase _ 0 _).trans ?_
      simp [grantPayload]
    · have hland := land_eq hrow (isPlayOnce (w.store.content.sections.get?
        (afterEntry w.store.content a row (ses.clock w.ticks)).sectionId) a)
        (ses.clock w.ticks) (ses.clock (w.ticks + 1))
      rw [← hland, hstore', hput, ← hh]

end IeltsHub.AudioTransactions
