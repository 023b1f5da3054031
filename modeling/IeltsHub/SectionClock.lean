import IeltsHub.SectionSpec

set_option autoImplicit false

/-!
# The clock of a section

The first entry of a section writes its start and its deadline together, within the attempt's
own deadline, and completes the sections before it. A batch is judged by the sections of the
questions it names, where a question placed in several of them counts in one.
-/
namespace IeltsHub.SectionClock
open PyExc PyValue PyDict PyTime PlatformErrors RowTable RaisingState GuardedRuns ContentModels
  ExamModels ExamScoringInputs ExamSession AutosaveBatch SessionFrames SubmitSpec SessionRuns
  VoidedAttempt SectionSpec AutosaveConvergence

/-! ## The law of the clock -/

/-- The section was entered before one behind it, whose first entry at `t` completed it. -/
def CompletedBy (s : Store) (y : AttemptSection) (t : Time) : Prop :=
  (∃ t₀, y.enteredAt = some t₀ ∧ t₀ ≤ t) ∧
    ∃ z ∈ s.attemptSections.rows, z.attemptId = y.attemptId ∧ y.position < z.position ∧
      z.enteredAt = some t

structure OnTheClock (s : Store) (y : AttemptSection) : Prop where
  idle : y.enteredAt = none → y.expiresAt = none
  deadline : ∀ t, y.enteredAt = some t → ∃ a, s.attempts.get? y.attemptId = some a ∧
    y.expiresAt = sectionDeadline s.content a y t
  capped : ∀ a x e, s.attempts.get? y.attemptId = some a → y.expiresAt = some x →
    a.expiresAt = some e → x ≤ e
  completed : ∀ t, y.completedAt = some t → CompletedBy s y t

def Settled (s s' : Store) : Prop :=
  ∀ k y t, s.attemptSections.get? k = some y → y.enteredAt = some t →
    ∃ y', s'.attemptSections.get? k = some y' ∧ y'.enteredAt = some t ∧ y'.expiresAt = y.expiresAt

/-- The paper of the attempt places the question of the delta in the section. -/
def PlacedIn (s : Store) (a : Attempt) (d : AnswerDelta) (y : AttemptSection) : Prop :=
  ∃ qv, versionWith s.content d.questionVersionXid = some qv ∧
    ∃ p ∈ placed s.content a.testVersionId, p.questionVersion.id = qv.id ∧
      p.testSection.id = y.sectionId

def InTime (ses : ExamSession) (s : Store) (a : Attempt) (now : Time) (d : AnswerDelta) : Prop :=
  ∀ y ∈ s.sectionsOf a.id, PlacedIn s a d y → ses.past y.expiresAt now = false

/-- Every delta in turn: accepted and in `P`, or refused and named. -/
inductive Admitted (P : AnswerDelta → Prop) : List AnswerDelta → ℕ → List Rejection → Prop where
  | nil : Admitted P [] 0 []
  | accepted {d : AnswerDelta} {ds : List AnswerDelta} {n : ℕ} {rs : List Rejection} (holds : P d)
      (rest : Admitted P ds n rs) : Admitted P (d :: ds) (n + 1) rs
  | refused {d : AnswerDelta} {ds : List AnswerDelta} {n : ℕ} {rs : List Rejection} (r : Rejection)
      (names : r.questionVersionXid = d.questionVersionXid ∧ r.slotKey = d.slotKey)
      (rest : Admitted P ds n rs) : Admitted P (d :: ds) n (r :: rs)

/-- The sections that hold a question of the batch are all past their deadline or all before it. -/
def OneClock (ses : ExamSession) (s : Store) (a : Attempt) (now : Time) (ds : List AnswerDelta) :
    Prop :=
  ∀ d ∈ ds, ∀ y ∈ s.sectionsOf a.id, ∀ z ∈ s.sectionsOf a.id, PlacedIn s a d y →
    PlacedIn s a d z → ses.past y.expiresAt now = ses.past z.expiresAt now

def Sitting (ses : ExamSession) (w : World) : Call → Prop
  | .enterSection _ _ | .audioGrant _ _ => True
  | .saveAnswers id ds => ∀ a, w.store.attempts.get? id = some a →
      OneClock ses w.store a (ses.clock w.ticks) ds
  | _ => False

/-- Every section stands in the place its paper gives it, and every section of the paper is
there. -/
structure Laid (s : Store) : Prop where
  placed : ∀ y ∈ s.attemptSections.rows, ∃ a c, s.attempts.get? y.attemptId = some a ∧
    s.content.sections.get? y.sectionId = some c ∧ c.position = y.position
  complete : ∀ id a c, s.attempts.get? id = some a → c ∈ s.content.sections.rows →
    c.testVersionId = a.testVersionId → ∃ y ∈ s.sectionsOf id, y.sectionId = c.id

/-- Sections as an issue leaves them. -/
structure Issued (s : Store) : Prop where
  laid : Laid s
  fresh : ∀ y ∈ s.attemptSections.rows, y.enteredAt = none ∧ y.expiresAt = none ∧
    y.completedAt = none

/-! ## What no call of a sitting changes -/

def plan (a : Attempt) : ℕ × Option Time := (a.testVersionId, a.expiresAt)

structure Unmoved (w w' : World) : Prop where
  content : w'.store.content = w.store.content
  attempts : ∀ id, (w'.store.attempts.get? id).map plan = (w.store.attempts.get? id).map plan
  ticks : w.ticks ≤ w'.ticks

def Still (w w' : World) : Prop :=
  Unmoved w w' ∧ w'.store.attemptSections = w.store.attemptSections

theorem Unmoved.refl (w : World) : Unmoved w w := ⟨rfl, fun _ => rfl, le_rfl⟩

theorem Unmoved.trans {w v u : World} (h : Unmoved w v) (h' : Unmoved v u) : Unmoved w u :=
  ⟨h'.content.trans h.content, fun id => (h'.attempts id).trans (h.attempts id),
    h.ticks.trans h'.ticks⟩

theorem still_frame : Frame Still where
  refl w := ⟨.refl w, rfl⟩
  trans h h' := ⟨h.1.trans h'.1, h'.2.trans h.2⟩

variable {ses : ExamSession}

theorem still_ticks {w w' : World} (hstore : w'.store = w.store) (hticks : w.ticks ≤ w'.ticks) :
    Still w w' := by
  obtain ⟨s, n⟩ := w'
  cases hstore
  exact ⟨⟨rfl, fun _ => rfl, hticks⟩, rfl⟩

theorem keeps_still_now : Keeps Still ses.now := fun _ => still_ticks rfl (Nat.le_succ _)

theorem keeps_still_getAttempt (id : ℕ) : Keeps Still (getAttempt id) := by
  intro w
  unfold getAttempt
  split <;> exact still_frame.refl w

theorem keeps_still_emit (r : Attempt) (eventType : String) (extra : Obj) :
    Keeps Still (ses.emit r eventType extra) := by
  intro w
  rw [emit_run]
  exact ⟨⟨rfl, fun _ => rfl, by simp⟩, rfl⟩

theorem keeps_still_announce (r : Attempt) (via : SubmittedVia) :
    Keeps Still (ses.announce r via) := by
  unfold announce
  split
  · exact keeps_pure still_frame ()
  · exact keeps_still_emit _ _ _

theorem keeps_still_score (r : Attempt) (reason : String) : Keeps Still (ses.score r reason) := by
  refine keeps_bind still_frame (keeps_gets still_frame _) (fun s => ?_)
  refine keeps_bind still_frame (keeps_lift still_frame _) (fun run => ?_)
  refine keeps_bind still_frame keeps_still_now (fun now => ?_)
  intro w
  unfold storeRun
  split
  · next h =>
    obtain ⟨_, _, _, rfl⟩ := addRun_eq_ok h
    exact ⟨⟨rfl, fun _ => rfl, le_rfl⟩, rfl⟩
  · exact still_frame.refl w

/-- Where the attempt stands as `r` has it, nothing moves. -/
def StillAt (r : Attempt) (w w' : World) : Prop :=
  (w.store.attempts.get? r.id).map plan = some (plan r) → Still w w'

theorem stillAt_frame (r : Attempt) : Frame (StillAt r) where
  refl w := fun _ => still_frame.refl w
  trans h h' := fun hr => by
    have hs := h hr
    exact still_frame.trans hs (h' ((hs.1.attempts r.id).trans hr))

theorem keeps_stillAt {r : Attempt} {α : Type} {m : Tx α} (h : Keeps Still m) :
    Keeps (StillAt r) m := fun w _ => h w

theorem keeps_stillAt_putAttempt {r r' : Attempt} (hid : r'.id = r.id) (hplan : plan r' = plan r) :
    Keeps (StillAt r) (putAttempt r') := by
  intro w hr
  refine ⟨⟨rfl, fun id => ?_, le_rfl⟩, rfl⟩
  change ((w.store.attempts.put r').get? id).map plan = _
  rw [Table.get?_put]
  split
  · next h =>
    rw [← h, hid, hr, Option.map_some, hplan]
  · rfl

theorem keeps_still_freezeAndScore (id : ℕ) (via : SubmittedVia) (now : Time) :
    Keeps Still (ses.freezeAndScore id via now) := by
  intro w
  unfold freezeAndScore
  cases hr : w.store.attempts.get? id with
  | none =>
    have hget : getAttempt id w = (.error (notFound "Attempt not found."), w) := by
      unfold getAttempt
      rw [hr]
    rw [Effect.bind_run_error hget]
    exact still_frame.refl w
  | some r =>
    have hid : r.id = id := Table.get?_key hr
    rw [Effect.bind_run_ok (getAttempt_run hr)]
    have hF := stillAt_frame r
    have hkeeps : Keeps (StillAt r) (do
        putAttempt (frozenAttempt r via now)
        ses.announce (frozenAttempt r via now) via
        let run ← ses.score (frozenAttempt r via now) "initial"
        let scoredAt ← ses.now
        putAttempt { frozenAttempt r via now with
          status := .scored, scoredAt := some scoredAt, currentScoreRunId := some run.id }
        ses.emit (frozenAttempt r via now) "attempt.scored"
          (Dict.ofList [("score_run_id", .int run.id)])
        return run) := by
      refine keeps_bind hF (keeps_stillAt_putAttempt rfl rfl) (fun _ => ?_)
      refine keeps_bind hF (keeps_stillAt (keeps_still_announce _ _)) (fun _ => ?_)
      refine keeps_bind hF (keeps_stillAt (keeps_still_score _ _)) (fun run => ?_)
      refine keeps_bind hF (keeps_stillAt keeps_still_now) (fun scoredAt => ?_)
      refine keeps_bind hF (keeps_stillAt_putAttempt rfl rfl) (fun _ => ?_)
      exact keeps_bind hF (keeps_stillAt (keeps_still_emit _ _ _)) (fun _ => keeps_pure hF run)
    exact hkeeps w (by rw [hid, hr, Option.map_some])

theorem keeps_still_saveAnswers (id : ℕ) (ds : List AnswerDelta) :
    Keeps Still (ses.saveAnswers id ds) := by
  refine keeps_bind still_frame keeps_still_now (fun now => ?_)
  refine keeps_bind still_frame (keeps_still_getAttempt id) (fun r => ?_)
  split
  · exact keeps_raise still_frame _
  · split
    · exact keeps_raise still_frame _
    · split
      · refine keeps_bind still_frame ?_ (fun _ => keeps_raise still_frame _)
        refine keeps_bind still_frame keeps_still_now (fun now => ?_)
        refine keeps_bind still_frame (keeps_still_getAttempt id) (fun r => ?_)
        split
        · exact keeps_raise still_frame _
        · refine keeps_bind still_frame (keeps_gets still_frame _) (fun s => ?_)
          split
          · exact keeps_pure still_frame _
          · exact keeps_bind still_frame (keeps_pure still_frame ())
              (fun _ => keeps_still_freezeAndScore id _ now)
      · refine keeps_bind still_frame (keeps_gets still_frame _) (fun s => ?_)
        refine keeps_bind still_frame (keeps_lift still_frame _) (fun batch => ?_)
        refine keeps_bind still_frame ?_ (fun _ => keeps_pure still_frame _)
        intro w
        unfold flushAnswers
        split
        · split <;> exact still_frame.refl w
        · exact ⟨⟨rfl, fun _ => rfl, le_rfl⟩, rfl⟩

/-! ## How the sections change -/

/-- The section stands where it stood and keeps its clock. -/
structure Stays (y y' : AttemptSection) : Prop where
  key : y'.key = y.key
  position : y'.position = y.position
  enteredAt : y'.enteredAt = y.enteredAt
  expiresAt : y'.expiresAt = y.expiresAt

theorem Stays.refl (y : AttemptSection) : Stays y y := ⟨rfl, rfl, rfl, rfl⟩

theorem Stays.trans {x y z : AttemptSection} (h : Stays x y) (h' : Stays y z) : Stays x z :=
  ⟨h'.key.trans h.key, h'.position.trans h.position, h'.enteredAt.trans h.enteredAt,
    h'.expiresAt.trans h.expiresAt⟩

/-- Every section is rewritten in its place, and an entered one keeps its clock. -/
structure Evolves (w w' : World) : Prop where
  unmoved : Unmoved w w'
  rows : ∃ f hf, w'.store.attemptSections = w.store.attemptSections.mapRows f hf ∧
    ∀ y ∈ w.store.attemptSections.rows, (f y).position = y.position ∧
      (y.enteredAt ≠ none → Stays y (f y))

theorem Evolves.of_still {w w' : World} (h : Still w w') : Evolves w w' where
  unmoved := h.1
  rows := ⟨id, fun _ => rfl, by rw [h.2]; exact Table.ext_rows (List.map_id _).symm,
    fun y _ => ⟨rfl, fun _ => .refl y⟩⟩

theorem Evolves.trans {w v u : World} (h : Evolves w v) (h' : Evolves v u) : Evolves w u := by
  obtain ⟨f, hf, hv, hstays⟩ := h.rows
  obtain ⟨g, hg, hu, hstays'⟩ := h'.rows
  refine ⟨h.unmoved.trans h'.unmoved, g ∘ f, fun y => (hg (f y)).trans (hf y), ?_, ?_⟩
  · rw [hu, hv]
    exact Table.ext_rows (by simp [Table.mapRows])
  · intro y hy
    have hmem : f y ∈ v.store.attemptSections.rows := by
      rw [hv]
      exact List.mem_map_of_mem hy
    obtain ⟨hposition, hclock⟩ := hstays y hy
    obtain ⟨hposition', hclock'⟩ := hstays' (f y) hmem
    refine ⟨hposition'.trans hposition, fun hentered => ?_⟩
    have hy' := hclock hentered
    exact hy'.trans (hclock' (by rw [hy'.enteredAt]; exact hentered))

theorem Evolves.settled {w w' : World} (h : Evolves w w') : Settled w.store w'.store := by
  obtain ⟨f, hf, hrows, hstays⟩ := h.rows
  intro k y t hy hentered
  have hmem := (Table.get?_eq_some.1 hy).1
  have hclock := (hstays y hmem).2 (by rw [hentered]; simp)
  refine ⟨f y, ?_, hclock.enteredAt.trans hentered, hclock.expiresAt⟩
  rw [hrows, Table.get?_mapRows, hy]
  rfl

theorem Evolves.laid {w w' : World} (h : Evolves w w') (hl : Laid w.store) : Laid w'.store := by
  obtain ⟨f, hf, hrows, hstays⟩ := h.rows
  have hmem : ∀ y ∈ w'.store.attemptSections.rows, ∃ x ∈ w.store.attemptSections.rows, f x = y := by
    intro y hy
    rw [hrows] at hy
    exact List.mem_map.1 hy
  constructor
  · intro y hy
    obtain ⟨x, hx, rfl⟩ := hmem y hy
    obtain ⟨a, c, ha, hc, hposition⟩ := hl.placed x hx
    have hkey := hf x
    simp only [AttemptSection.key, Prod.mk.injEq] at hkey
    have hplan := h.unmoved.attempts x.attemptId
    rw [ha, Option.map_some] at hplan
    obtain ⟨a', ha', _⟩ := Option.map_eq_some_iff.1 hplan
    refine ⟨a', c, by rw [hkey.1]; exact ha', by rw [hkey.2, h.unmoved.content]; exact hc, ?_⟩
    exact hposition.trans (hstays x hx).1.symm
  · intro id a c ha hc hversion
    rw [h.unmoved.content] at hc
    have hplan := h.unmoved.attempts id
    rw [ha, Option.map_some] at hplan
    obtain ⟨a₀, ha₀, hsame⟩ := Option.map_eq_some_iff.1 hplan.symm
    have hversion₀ : c.testVersionId = a₀.testVersionId :=
      hversion.trans (congrArg Prod.fst hsame).symm
    obtain ⟨y, hy, hsection⟩ := hl.complete id a₀ c ha₀ hc hversion₀
    obtain ⟨hy, hattempt⟩ := List.mem_filter.1 hy
    have hkey := hf y
    simp only [AttemptSection.key, Prod.mk.injEq] at hkey
    refine ⟨f y, List.mem_filter.2 ⟨?_, ?_⟩, hkey.2.trans hsection⟩
    · rw [hrows]
      exact List.mem_map_of_mem hy
    · rw [hkey.1]
      exact hattempt

/-! ## The clock is kept -/

theorem sectionDeadline_congr {c : ContentStore} {a a' : Attempt} {y y' : AttemptSection}
    (ha : a'.expiresAt = a.expiresAt) (hy : y'.sectionId = y.sectionId) (t : Time) :
    sectionDeadline c a' y' t = sectionDeadline c a y t := by
  unfold sectionDeadline sectionLimit
  rw [ha, hy]

theorem CompletedBy.evolve {w w' : World} (h : Evolves w w') {y y' : AttemptSection} {t : Time}
    (hy : Stays y y') (hc : CompletedBy w.store y t) : CompletedBy w'.store y' t := by
  obtain ⟨⟨t₀, ht₀, hle⟩, z, hz, hattempt, hlt, hentered⟩ := hc
  obtain ⟨f, hf, hrows, hstays⟩ := h.rows
  have hzstays := (hstays z hz).2 (by rw [hentered]; simp)
  have hzkey := hzstays.key
  have hykey := hy.key
  simp only [AttemptSection.key, Prod.mk.injEq] at hzkey hykey
  refine ⟨⟨t₀, hy.enteredAt.trans ht₀, hle⟩, f z, ?_, ?_, ?_, hzstays.enteredAt.trans hentered⟩
  · rw [hrows]
    exact List.mem_map_of_mem hz
  · rw [hzkey.1, hykey.1, hattempt]
  · rw [hzstays.position, hy.position]
    exact hlt

theorem OnTheClock.evolve {w w' : World} (h : Evolves w w') {y y' : AttemptSection}
    (hy : Stays y y') (hc : OnTheClock w.store y)
    (hcompleted : ∀ t, y'.completedAt = some t → CompletedBy w'.store y' t) :
    OnTheClock w'.store y' where
  idle hidle := by
    rw [hy.expiresAt]
    exact hc.idle (hy.enteredAt ▸ hidle)
  deadline t ht := by
    obtain ⟨a, ha, hdeadline⟩ := hc.deadline t (hy.enteredAt ▸ ht)
    have hkey := hy.key
    simp only [AttemptSection.key, Prod.mk.injEq] at hkey
    have hplan := h.unmoved.attempts y.attemptId
    rw [ha, Option.map_some] at hplan
    obtain ⟨a', ha', hsame⟩ := Option.map_eq_some_iff.1 hplan
    refine ⟨a', by rw [hkey.1]; exact ha', ?_⟩
    rw [hy.expiresAt, hdeadline, h.unmoved.content]
    exact (sectionDeadline_congr (congrArg Prod.snd hsame) hkey.2 t).symm
  capped a x e ha hx he := by
    have hkey := hy.key
    simp only [AttemptSection.key, Prod.mk.injEq] at hkey
    have hplan := h.unmoved.attempts y.attemptId
    rw [← hkey.1, ha, Option.map_some] at hplan
    obtain ⟨a₀, ha₀, hsame⟩ := Option.map_eq_some_iff.1 hplan.symm
    exact hc.capped a₀ x e (hkey.1 ▸ ha₀) (hy.expiresAt ▸ hx) ((congrArg Prod.snd hsame).trans he)
  completed := hcompleted

structure Inv (ses : ExamSession) (w : World) : Prop where
  laid : Laid w.store
  clock : ∀ y ∈ w.store.attemptSections.rows, OnTheClock w.store y
  past : ∀ y ∈ w.store.attemptSections.rows, ∀ t, y.enteredAt = some t → t ≤ ses.clock w.ticks
  unfinished : ∀ y ∈ w.store.attemptSections.rows, y.enteredAt = none → y.completedAt = none

theorem sectionDeadline_le {c : ContentStore} {a : Attempt} {y : AttemptSection} {t x e : Time}
    (hx : sectionDeadline c a y t = some x) (he : a.expiresAt = some e) : x ≤ e := by
  obtain ⟨limit, _, hdeadline⟩ := Option.map_eq_some_iff.1 hx
  rw [he] at hdeadline
  rw [← hdeadline]
  exact min_le_right _ _

variable {w w' : World}

theorem Inv.of_still (hmono : Monotone ses.clock) (hi : Inv ses w) (h : Still w w') :
    Inv ses w' := by
  have hevolves := Evolves.of_still h
  refine ⟨hevolves.laid hi.laid, fun y hy => ?_, fun y hy t ht => ?_, fun y hy => ?_⟩
  · rw [h.2] at hy
    have hclock := hi.clock y hy
    exact hclock.evolve hevolves (.refl y)
      (fun t ht => (hclock.completed t ht).evolve hevolves (.refl y))
  · rw [h.2] at hy
    exact (hi.past y hy t ht).trans (hmono h.1.ticks)
  · rw [h.2] at hy
    exact hi.unfinished y hy

theorem complete_stays (attemptId : ℕ) (position : ℤ) (now : Time) (y : AttemptSection) :
    Stays y (complete attemptId position now y) := by
  unfold complete
  split
  · exact ⟨rfl, rfl, rfl, rfl⟩
  · exact .refl y

section Entry
variable {id : ℕ} {a : Attempt} {row : AttemptSection} {position : ℤ}

def afterEnter (ses : ExamSession) (w : World) (a : Attempt) (row : AttemptSection)
    (position : ℤ) : World where
  store := entryStore w.store a row position (ses.clock w.ticks)
  ticks := w.ticks + 1

theorem still_reentry (ses : ExamSession) (w : World) (a : Attempt) (position : ℤ)
    (hentered : row.enteredAt ≠ none) : Still w (afterEnter ses w a row position) :=
  still_ticks (if_neg hentered) (Nat.le_succ _)

theorem evolves_entry (ses : ExamSession) (hrow : sectionAt w.store a.id position = some row)
    (hentered : row.enteredAt = none) : Evolves w (afterEnter ses w a row position) := by
  have hsections := entryStore_sections hrow (ses.clock w.ticks)
  rw [if_pos hentered] at hsections
  obtain ⟨hget, _⟩ := rows_of_sectionAt hrow
  refine ⟨⟨entryStore_content .., fun id => ?_, Nat.le_succ _⟩, _, _, hsections, fun y hy => ?_⟩
  · change ((entryStore _ _ _ _ _).attempts.get? id).map plan = _
    rw [entryStore_attempts]
  · unfold entryRow
    split
    · next hkey =>
      have hsame : y = row := eq_of_key hget hy hkey
      rw [hsame]
      exact ⟨rfl, fun hne => absurd hentered hne⟩
    · have hstays := complete_stays a.id position (ses.clock w.ticks) y
      exact ⟨hstays.position, fun _ => hstays⟩

theorem onTheClock_entered {t : Time} (hc : OnTheClock w.store row) (hentered : row.enteredAt = none)
    (hunfinished : row.completedAt = none) (ha : w'.store.attempts.get? row.attemptId = some a)
    (hcontent : w'.store.content = w.store.content) :
    OnTheClock w'.store (entered w.store.content a row t) := by
  have hexpires : (entered w.store.content a row t).expiresAt =
      sectionDeadline w.store.content a row t := by
    unfold entered
    rw [hc.idle hentered, Option.or_none]
  refine ⟨(by cases ·), fun t' ht' => ?_, fun a' x e ha' hx he => ?_, fun t' ht' => ?_⟩
  · cases ht'
    refine ⟨a, ha, ?_⟩
    rw [hexpires, hcontent]
    rfl
  · have hsame : a' = a := Option.some.inj (ha'.symm.trans ha)
    rw [hexpires] at hx
    exact sectionDeadline_le hx (hsame ▸ he)
  · have hnone : (entered w.store.content a row t).completedAt = none := hunfinished
    rw [hnone] at ht'
    cases ht'

theorem Inv.enter (hmono : Monotone ses.clock) (hi : Inv ses w)
    (ha : w.store.attempts.get? a.id = some a)
    (hrow : sectionAt w.store a.id position = some row) :
    Inv ses (afterEnter ses w a row position) ∧ Evolves w (afterEnter ses w a row position) := by
  by_cases hentered : row.enteredAt = none
  swap
  · have hstill := still_reentry ses w a position hentered
    exact ⟨hi.of_still hmono hstill, .of_still hstill⟩
  have hevolves := evolves_entry ses hrow hentered
  refine ⟨?_, hevolves⟩
  have hsections := entryStore_sections hrow (ses.clock w.ticks)
  rw [if_pos hentered] at hsections
  obtain ⟨hget, hposition⟩ := rows_of_sectionAt hrow
  have hmem : row ∈ w.store.attemptSections.rows := (Table.get?_eq_some.1 hget).1
  have hid : row.attemptId = a.id := sectionAt_attemptId hrow
  -- the row this entry writes, and every other one
  have hrows : ∀ y ∈ (afterEnter ses w a row position).store.attemptSections.rows,
      y = entered w.store.content a row (ses.clock w.ticks) ∨
        ∃ x ∈ w.store.attemptSections.rows, y = complete a.id position (ses.clock w.ticks) x := by
    intro y hy
    change y ∈ (entryStore _ _ _ _ _).attemptSections.rows at hy
    rw [hsections] at hy
    obtain ⟨x, hx, rfl⟩ := List.mem_map.1 hy
    unfold entryRow
    split
    · exact .inl rfl
    · exact .inr ⟨x, hx, rfl⟩
  have hnew : entered w.store.content a row (ses.clock w.ticks) ∈
      (afterEnter ses w a row position).store.attemptSections.rows := by
    change _ ∈ (entryStore _ _ _ _ _).attemptSections.rows
    rw [hsections]
    exact List.mem_map.2 ⟨row, hmem, if_pos rfl⟩
  have hstep : ses.clock w.ticks ≤ ses.clock (w.ticks + 1) := hmono (Nat.le_succ _)
  refine ⟨hevolves.laid hi.laid, fun y hy => ?_, fun y hy t ht => ?_, fun y hy hidle => ?_⟩
  · rcases hrows y hy with rfl | ⟨x, hx, rfl⟩
    · exact @onTheClock_entered _ (afterEnter ses w a row position) _ _ _ (hi.clock row hmem) hentered
        (hi.unfinished row hmem hentered) (by rw [hid]; simpa [afterEnter] using ha)
        (entryStore_content ..)
    · have hstays := complete_stays a.id position (ses.clock w.ticks) x
      refine (hi.clock x hx).evolve hevolves hstays (fun t ht => ?_)
      by_cases hdone : x.attemptId = a.id ∧ x.position < position ∧ x.enteredAt ≠ none ∧
          x.completedAt = none
      · rw [complete, if_pos hdone] at ht ⊢
        cases ht
        obtain ⟨t₀, ht₀⟩ := Option.ne_none_iff_exists'.1 hdone.2.2.1
        exact ⟨⟨t₀, ht₀, hi.past x hx t₀ ht₀⟩, _, hnew, hid.trans hdone.1.symm,
          hdone.2.1.trans_eq hposition.symm, rfl⟩
      · rw [complete, if_neg hdone] at ht ⊢
        exact ((hi.clock x hx).completed t ht).evolve hevolves (.refl x)
  · rcases hrows y hy with rfl | ⟨x, hx, rfl⟩
    · cases ht
      exact hstep
    · rw [(complete_stays a.id position (ses.clock w.ticks) x).enteredAt] at ht
      exact (hi.past x hx t ht).trans hstep
  · rcases hrows y hy with rfl | ⟨x, hx, rfl⟩
    · cases hidle
    · rw [(complete_stays a.id position (ses.clock w.ticks) x).enteredAt] at hidle
      unfold complete
      rw [if_neg (fun h => h.2.2.1 hidle)]
      exact hi.unfinished x hx hidle

theorem playRow_stays {x : AttemptSection} (hx : w.store.attemptSections.get? row.key = some x)
    (hsame : Stays x row) (playOnce : Bool) (now : Time) :
    ∀ y ∈ w.store.attemptSections.rows, Stays y (playRow row playOnce now y) := by
  intro y hy
  unfold playRow
  split
  · next hkey =>
    have hxy : y = x := Option.some.inj ((Table.get?_eq_some.2 ⟨hy, hkey⟩).symm.trans hx)
    rw [hxy]
    exact ⟨hsame.key, hsame.position, hsame.enteredAt, hsame.expiresAt⟩
  · exact .refl y

def afterPlay (ses : ExamSession) (w : World) (row : AttemptSection) (playOnce : Bool) : World where
  store := playStore w.store (played row playOnce (ses.clock w.ticks))
  ticks := w.ticks + 1

theorem Inv.play (hmono : Monotone ses.clock) (hi : Inv ses w)
    (hx : w.store.attemptSections.get? row.key = some row) (playOnce : Bool) :
    Inv ses (afterPlay ses w row playOnce) ∧ Evolves w (afterPlay ses w row playOnce) := by
  have hsections := playStore_sections hx playOnce (ses.clock w.ticks)
  have hstays := playRow_stays hx (.refl row) playOnce (ses.clock w.ticks)
  have hevolves : Evolves w (afterPlay ses w row playOnce) :=
    ⟨⟨rfl, fun _ => rfl, Nat.le_succ _⟩, _, _, hsections,
      fun y hy => ⟨(hstays y hy).position, fun _ => hstays y hy⟩⟩
  have hstep : ses.clock w.ticks ≤ ses.clock (w.ticks + 1) := hmono (Nat.le_succ _)
  have hrows : ∀ y ∈ (afterPlay ses w row playOnce).store.attemptSections.rows,
      ∃ x ∈ w.store.attemptSections.rows, Stays x y ∧ y.completedAt = x.completedAt := by
    intro y hy
    change y ∈ (playStore _ _).attemptSections.rows at hy
    rw [hsections] at hy
    obtain ⟨x, hxmem, rfl⟩ := List.mem_map.1 hy
    refine ⟨x, hxmem, hstays x hxmem, ?_⟩
    unfold playRow
    split
    · next hkey =>
      have hxr : x = row := Option.some.inj ((Table.get?_eq_some.2 ⟨hxmem, hkey⟩).symm.trans hx)
      rw [hxr]
      rfl
    · rfl
  refine ⟨⟨hevolves.laid hi.laid, fun y hy => ?_, fun y hy t ht => ?_, fun y hy hidle => ?_⟩,
    hevolves⟩
  · obtain ⟨x, hxmem, hxy, hdone⟩ := hrows y hy
    have hclock := hi.clock x hxmem
    exact hclock.evolve hevolves hxy (fun t ht =>
      (hclock.completed t (hdone ▸ ht)).evolve hevolves hxy)
  · obtain ⟨x, hxmem, hxy, _⟩ := hrows y hy
    exact (hi.past x hxmem t (hxy.enteredAt ▸ ht)).trans hstep
  · obtain ⟨x, hxmem, hxy, hdone⟩ := hrows y hy
    rw [hdone]
    exact hi.unfinished x hxmem (hxy.enteredAt ▸ hidle)

end Entry

/-! ## The calls of a sitting -/

/-- The call keeps the law of the clock, whatever comes back. -/
def Lawful (ses : ExamSession) {α : Type} (m : Tx α) (w : World) : Prop :=
  Inv ses (m w).2 ∧ Evolves w (m w).2

theorem lawful_of_still {α : Type} {m : Tx α} (hmono : Monotone ses.clock) (hi : Inv ses w)
    (h : Still w (m w).2) : Lawful ses m w :=
  ⟨hi.of_still hmono h, .of_still h⟩

theorem lawful_enterSection (hmono : Monotone ses.clock) (hi : Inv ses w) (id : ℕ)
    (position : ℤ) : Lawful ses (ses.enterSection id position) w := by
  cases ha : w.store.attempts.get? id with
  | none =>
    refine lawful_of_still hmono hi ?_
    rw [enterSection_unknown ses ha]
    exact still_frame.refl w
  | some a =>
    have hid : a.id = id := Table.get?_key ha
    subst hid
    cases hrow : sectionAt w.store a.id position with
    | none =>
      refine lawful_of_still hmono hi ?_
      rw [enterSection_missing ha hrow]
      exact still_frame.refl w
    | some row =>
      unfold Lawful
      rw [enterSection_eq ses ha hrow]
      exact hi.enter hmono ha hrow

theorem entered_stored {id : ℕ} {position : ℤ} {row : AttemptSection}
    (h : ses.enterSection id position w = (.ok row, w')) :
    ∃ a, w'.store.attempts.get? id = some a ∧
      w'.store.attemptSections.get? row.key = some row := by
  cases ha : w.store.attempts.get? id with
  | none =>
    rw [enterSection_unknown ses ha] at h
    cases h
  | some a =>
    have hid : a.id = id := Table.get?_key ha
    subst hid
    cases hrow : sectionAt w.store a.id position with
    | none =>
      rw [enterSection_missing ha hrow] at h
      cases h
    | some row' =>
      rw [enterSection_eq ses ha hrow, Prod.mk.injEq] at h
      obtain ⟨hok, rfl⟩ := h
      split at hok
      · cases hok
      · cases hok
        exact ⟨a, by simpa using ha, afterEntry_stored hrow _⟩

theorem lawful_audioGrant (hmono : Monotone ses.clock) (hi : Inv ses w) (id : ℕ) (position : ℤ) :
    Lawful ses (ses.audioGrant id position) w := by
  have henter := lawful_enterSection hmono hi id position
  unfold Lawful at henter ⊢
  cases hrun : ses.enterSection id position w with
  | mk result u =>
    rw [hrun] at henter
    cases result with
    | error e =>
      rw [audioGrant_error hrun]
      exact henter
    | ok row =>
      obtain ⟨a, ha, hstored⟩ := entered_stored hrun
      rw [audioGrant_eq hrun ha]
      have htick : Still u (tick u) := still_ticks rfl (Nat.le_succ _)
      split
      · exact ⟨henter.1.of_still hmono htick, henter.2.trans (.of_still htick)⟩
      · dsimp only
        split
        · exact ⟨henter.1.of_still hmono htick, henter.2.trans (.of_still htick)⟩
        · have hplay := henter.1.play hmono hstored
            (isPlayOnce (u.store.content.sections.get? row.sectionId) a)
          exact ⟨hplay.1, henter.2.trans hplay.2⟩

/-! ## What a batch admits -/

theorem process_admitted {ctx : BatchContext} {P : AnswerDelta → Prop} {ds : List AnswerDelta}
    {b b' : Batch} (hP : ∀ d ∈ ds, ∀ existing qv, ctx.judge existing d = .ok (.accept qv) → P d)
    (h : ctx.process b ds = .ok b') :
    ∃ n rs, b'.accepted = b.accepted + n ∧ b'.rejected = b.rejected ++ rs ∧ Admitted P ds n rs := by
  unfold BatchContext.process at h
  induction ds generalizing b with
  | nil =>
    cases h
    exact ⟨0, [], rfl, by simp, .nil⟩
  | cons d ds ih =>
    rw [List.foldlM_cons] at h
    obtain ⟨u, hu, h⟩ := bind_eq_ok.1 h
    obtain ⟨n, rs, hn, hrs, hadmitted⟩ := ih (fun x hx => hP x (List.mem_cons_of_mem d hx)) h
    rcases step_eq_ok.1 hu with ⟨r, hr, rfl⟩ | ⟨qv, hqv, rfl⟩
    · refine ⟨n, r :: rs, hn, ?_, .refused r (judge_refuse hr) hadmitted⟩
      rw [hrs, Batch.refuse, List.append_assoc]
      rfl
    · refine ⟨n + 1, rs, ?_, hrs, .accepted (hP d List.mem_cons_self _ qv hqv) hadmitted⟩
      have hone : (Batch.accept ctx b d qv).accepted = b.accepted + 1 := rfl
      omega

theorem testSection_of_placed {c : ContentStore} {tv : ℕ} {p : Placed} (hp : p ∈ placed c tv) :
    p.testSection ∈ c.sections.rows ∧ p.testSection.testVersionId = tv := by
  obtain ⟨sec, hsec, hp⟩ := List.mem_flatMap.1 hp
  obtain ⟨hmem, hversion⟩ := List.mem_filter.1 hsec
  have hsame : p.testSection = sec := by
    unfold placedIn at hp
    simp only [List.mem_flatMap, List.mem_map] at hp
    obtain ⟨g, _, gv, _, i, _, qv, _, q, _, rfl⟩ := hp
    rfl
  rw [hsame]
  exact ⟨hmem, of_decide_eq_true hversion⟩

theorem mem_expiredSections {s : Store} {a : Attempt} {now : Time} {y : AttemptSection}
    (hy : y ∈ s.sectionsOf a.id) (hpast : ses.past y.expiresAt now = true) :
    y.position ∈ ses.expiredSections s a.id now :=
  List.mem_map_of_mem (List.mem_filter.2 ⟨hy, hpast⟩)

theorem sectionOf_placed {s : Store} {a : Attempt} {now : Time} {ds : List AnswerDelta}
    {qv : QuestionVersion} {p : Placed} (hexpired : ses.expiredSections s a.id now ≠ [])
    (hqv : qv ∈ (versionsNamed s.content ds).values) (hp : p ∈ placed s.content a.testVersionId)
    (hid : p.questionVersion.id = qv.id) :
    ∃ q ∈ placed s.content a.testVersionId, q.questionVersion.id = qv.id ∧
      (ses.batchContext s a ds now).sectionOf.get? qv.id = some q.testSection.position := by
  have hsection : (ses.batchContext s a ds now).sectionOf = sectionPositions s.content
      a.testVersionId ((versionsNamed s.content ds).values.map QuestionVersion.id) :=
    if_neg hexpired
  rw [hsection]
  unfold sectionPositions
  have hsome : ((Dict.ofList (((placed s.content a.testVersionId).filter (fun p =>
      p.questionVersion.id ∈ (versionsNamed s.content ds).values.map QuestionVersion.id)).map
      (fun p => (p.questionVersion.id, p.testSection.position)))).get? qv.id).isSome := by
    rw [Dict.isSome_get?_ofList, List.map_map]
    refine List.mem_map.2 ⟨p, List.mem_filter.2 ⟨hp, decide_eq_true ?_⟩, hid⟩
    rw [hid]
    exact List.mem_map_of_mem hqv
  obtain ⟨position, hposition⟩ := Option.isSome_iff_exists.1 hsome
  obtain ⟨q, hq, hpair⟩ := List.mem_map.1 (Dict.mem_of_get?_ofList hposition)
  rw [Prod.mk.injEq] at hpair
  exact ⟨q, (List.mem_filter.1 hq).1, hpair.1, by rw [hposition, hpair.2]⟩

theorem accept_inTime {s : Store} {a : Attempt} {now : Time} {ds : List AnswerDelta}
    {d : AnswerDelta} (hl : Laid s) (ha : s.attempts.get? a.id = some a)
    (hone : OneClock ses s a now ds) (hd : d ∈ ds) {existing : Dict Slot AttemptAnswer}
    {qv : QuestionVersion}
    (h : (ses.batchContext s a ds now).judge existing d = .ok (.accept qv)) :
    InTime ses s a now d := by
  have hopen := judge_accept_open h
  have hnamed : (versionsNamed s.content ds).get? d.questionVersionXid = some qv :=
    (judge_accept h).1
  have hwith := (get?_versionsNamed.1 hnamed).1
  rintro y hy ⟨qv', hqv', p, hp, hpid, hpsection⟩
  have hsame : qv' = qv := Option.some.inj (hqv'.symm.trans hwith)
  rw [hsame] at hpid
  by_contra hpast
  rw [Bool.not_eq_false] at hpast
  have hmem := mem_expiredSections hy hpast
  have hexpired : ses.expiredSections s a.id now ≠ [] := List.ne_nil_of_mem hmem
  have hvalue : qv ∈ (versionsNamed s.content ds).values :=
    List.mem_map.2 ⟨_, Dict.get?_eq_some.1 hnamed, rfl⟩
  obtain ⟨q, hq, hqid, hsection⟩ := sectionOf_placed hexpired hvalue hp hpid
  -- the attempt's own row for the section the batch read
  obtain ⟨hrow, hversion⟩ := testSection_of_placed hq
  obtain ⟨z, hz, hzsection⟩ := hl.complete a.id a q.testSection ha hrow hversion
  obtain ⟨_, c, _, hc, hposition⟩ := hl.placed z (List.mem_filter.1 hz).1
  have hcq : c = q.testSection := by
    rw [hzsection, Table.get?_eq_some.2 ⟨hrow, rfl⟩] at hc
    exact (Option.some.inj hc).symm
  have hzpast := hone d hd y hy z hz ⟨qv, hwith, p, hp, hpid, hpsection⟩
    ⟨qv, hwith, q, hq, hqid, hzsection.symm⟩
  have hzmem := mem_expiredSections hz (hzpast ▸ hpast)
  rw [← hposition, hcq] at hzmem
  unfold BatchContext.sectionExpired at hopen
  rw [hsection] at hopen
  exact absurd hzmem (of_decide_eq_false hopen)

theorem saveAnswers_admitted {id : ℕ} {ds : List AnswerDelta} {res : SaveResult} (hl : Laid w.store)
    (hguard : Sitting ses w (.saveAnswers id ds)) (h : ses.saveAnswers id ds w = (.ok res, w')) :
    ∃ a, w.store.attempts.get? id = some a ∧
      Admitted (InTime ses w.store a (ses.clock w.ticks)) ds res.accepted res.rejected := by
  unfold saveAnswers at h
  rw [now_bind_run] at h
  obtain ⟨a, u, hget, h⟩ := Effect.bind_eq_ok.1 h
  obtain ⟨ha, rfl⟩ := getAttempt_eq_ok.1 hget
  have hid : a.id = id := Table.get?_key ha
  subst hid
  refine ⟨a, ha, ?_⟩
  split at h
  · cases h
  · split at h
    · cases h
    · split at h
      · obtain ⟨_, _, _, h⟩ := Effect.bind_eq_ok.1 h
        cases h
      · obtain ⟨batch, hbatch, rfl, _⟩ := storeDeltas_eq_ok h
        obtain ⟨n, rs, hn, hrs, hadmitted⟩ := process_admitted
          (fun d hd _ _ hjudge => accept_inTime hl ha (hguard a ha) hd hjudge) hbatch
        simp only [Nat.zero_add, List.nil_append] at hn hrs
        simp only [saveResult, hn, hrs]
        exact hadmitted

/-! ## Steps and runs -/

theorem lawful_perform (hmono : Monotone ses.clock) (hi : Inv ses w) {c : Call}
    (hc : Sitting ses w c) : Lawful ses (perform ses c) w := by
  unfold Lawful
  cases c with
  | enterSection id position =>
    rw [perform, map_world]
    exact lawful_enterSection hmono hi id position
  | audioGrant id position =>
    rw [perform, map_world]
    exact lawful_audioGrant hmono hi id position
  | saveAnswers id ds =>
    rw [perform, map_world]
    exact lawful_of_still hmono hi (keeps_still_saveAnswers id ds w)
  | payload id => cases hc
  | submit id via ds => cases hc
  | autoSubmitExpired limit => cases hc

theorem inv_step (hmono : Monotone ses.clock) (hi : Inv ses w) {c : Call} (hc : Sitting ses w c)
    (h : Step ses w c w') : Inv ses w' ∧ Evolves w w' := by
  have hlawful := lawful_perform hmono hi hc
  unfold Lawful at hlawful
  cases h with
  | returned answer h =>
    rw [h] at hlawful
    exact hlawful
  | @rolledBack v e h =>
    rw [h] at hlawful
    have hstill : Still w (rollback w v) := still_ticks rfl hlawful.2.unmoved.ticks
    exact ⟨hi.of_still hmono hstill, .of_still hstill⟩
  | caught e h he =>
    rw [h] at hlawful
    exact hlawful

theorem Issued.inv {n : ℕ} {s : Store} (h : Issued s) : Inv ses { store := s, ticks := n } where
  laid := h.laid
  clock y hy := by
    obtain ⟨hentered, hexpires, hcompleted⟩ := h.fresh y hy
    refine ⟨fun _ => hexpires, fun t ht => ?_, fun a x e _ hx _ => ?_, fun t ht => ?_⟩
    · rw [hentered] at ht
      cases ht
    · rw [hexpires] at hx
      cases hx
    · rw [hcompleted] at ht
      cases ht
  past y hy t ht := by
    rw [(h.fresh y hy).1] at ht
    cases ht
  unfinished y hy _ := (h.fresh y hy).2.2

/-- In every run of entries, audio requests and saves whose batches have one clock, the law of the
clock holds in every state, an entered section keeps its start and its deadline from then on, and
a save accepts what is in time. -/
theorem section_clock (ses : ExamSession) (hmono : Monotone ses.clock) {w₀ w u : World}
    {before calls : List Call} (hissued : Issued w₀.store)
    (hbefore : Runs (Step ses) (Sitting ses) w₀ before w)
    (hcalls : Runs (Step ses) (Sitting ses) w calls u) :
    (∀ y ∈ u.store.attemptSections.rows, OnTheClock u.store y) ∧ Settled w.store u.store ∧
      ∀ id ds res u', Sitting ses u (.saveAnswers id ds) →
        ses.saveAnswers id ds u = (.ok res, u') → ∃ a, u.store.attempts.get? id = some a ∧
          Admitted (InTime ses u.store a (ses.clock u.ticks)) ds res.accepted res.rejected := by
  have hw : Inv ses w := hbefore.invariant (I := Inv ses)
    (fun _ _ _ hi hg h => (inv_step hmono hi hg h).1) hissued.inv
  have hu : Inv ses u := hcalls.invariant (I := Inv ses)
    (fun _ _ _ hi hg h => (inv_step hmono hi hg h).1) hw
  have hevolves : Evolves w u :=
    hcalls.related (I := Inv ses) (R := Evolves) (fun s => .of_still (still_frame.refl s)) (fun _ _ _ h h' => h.trans h')
      (fun _ _ _ hi hg h => inv_step hmono hi hg h) hw
  exact ⟨hu.clock, hevolves.settled, fun id ds res u' hguard h =>
    saveAnswers_admitted hu.laid hguard h⟩

/-! ## A question in two sections -/

theorem issued_sample : Issued sampleStore := by
  refine ⟨⟨?_, ?_⟩, ?_⟩
  · intro y hy
    cases List.mem_singleton.1 hy
    exact ⟨sampleAttempt, _, rfl, rfl, rfl⟩
  · intro id a c ha hc _
    cases List.mem_singleton.1 hc
    have hmem := List.mem_singleton.1 (Table.get?_eq_some.1 ha).1
    have hid := (Table.get?_eq_some.1 ha).2
    rw [hmem] at hid
    cases hid
    exact ⟨{ attemptId := 1, sectionId := 1 }, by decide, rfl⟩
  · intro y hy
    cases List.mem_singleton.1 hy
    exact ⟨rfl, rfl, rfl⟩

def enteredSample : Store :=
  (settle sampleSession { store := sampleStore } (.enterSection 1 1)).store

theorem section_clock_on_sample : enteredSample.attemptSections.rows ≠ [] ∧
    ∀ y ∈ enteredSample.attemptSections.rows, OnTheClock enteredSample y :=
  ⟨by decide,
    (section_clock sampleSession (fun _ _ h => by simpa [sampleSession] using h) issued_sample
      (.next (show Sitting _ _ (.enterSection 1 1) from trivial) (step_settle _ _ _) (.refl _))
      (.refl _)).1⟩

/-- The page twice: a section of ten seconds, and one without a limit that places its group
again. -/
def twoSections : ContentStore :=
  { onePage with
    sections := (onePage.sections.put { id := 1, testVersionId := 1, timeLimitSeconds := some 10 }).put
      { id := 2, testVersionId := 1, position := 2 }
    groups := onePage.groups.put { id := 2, sectionId := 2, groupVersionId := 1 } }

def twiceStore : Store :=
  { sampleStore with
    content := twoSections
    attemptSections := sampleStore.attemptSections.put { attemptId := 1, sectionId := 2, position := 2 } }

def lateSession : ExamSession :=
  { sampleSession with clock := fun n => if n = 0 then 0 else seconds 100 }

theorem issued_twice : Issued twiceStore := by
  have hrows : twiceStore.attemptSections.rows = [{ attemptId := 1, sectionId := 1 },
      { attemptId := 1, sectionId := 2, position := 2 }] := by decide
  refine ⟨⟨?_, ?_⟩, ?_⟩
  · rw [hrows]
    intro y hy
    simp only [List.mem_cons, List.not_mem_nil, or_false] at hy
    rcases hy with rfl | rfl
    · exact ⟨sampleAttempt, _, rfl, rfl, rfl⟩
    · exact ⟨sampleAttempt, _, rfl, rfl, rfl⟩
  · intro id a c ha hc _
    have hmem := List.mem_singleton.1 (Table.get?_eq_some.1 ha).1
    have hid := (Table.get?_eq_some.1 ha).2
    rw [hmem] at hid
    cases hid
    have hsections : twiceStore.sectionsOf 1 = [{ attemptId := 1, sectionId := 1 },
        { attemptId := 1, sectionId := 2, position := 2 }] := by decide
    have hplaced : ∀ c ∈ twiceStore.content.sections.rows, c.id = 1 ∨ c.id = 2 := by decide
    change ∃ y ∈ twiceStore.sectionsOf 1, _
    rw [hsections]
    rcases hplaced c hc with h | h <;> simp [h]
  · rw [hrows]
    intro y hy
    simp only [List.mem_cons, List.not_mem_nil, or_false] at hy
    rcases hy with rfl | rfl <;> exact ⟨rfl, rfl, rfl⟩

/-- The save is accepted as the ten-second section's deadline and grace are long past. -/
theorem question_in_two_sections_is_accepted_late :
    Monotone lateSession.clock ∧ Issued twiceStore ∧
      ∃ w res w', Any (Step lateSession) { store := twiceStore } [.enterSection 1 1] w ∧
        lateSession.saveAnswers 1 [sampleDelta "two" 1] w = (.ok res, w') ∧
        ¬ Admitted (InTime lateSession w.store sampleAttempt (lateSession.clock w.ticks))
          [sampleDelta "two" 1] res.accepted res.rejected := by
  refine ⟨?_, issued_twice, ?_⟩
  · intro m n h
    simp only [lateSession]
    split
    · split <;> simp [seconds]
    · have hn : n ≠ 0 := by omega
      rw [if_neg hn]
  · let w := settle lateSession { store := twiceStore } (.enterSection 1 1)
    have hsaved : ((lateSession.saveAnswers 1 [sampleDelta "two" 1] w).1.toOption.map
        (fun res => (res.accepted, res.rejected))) = some (1, []) := by decide +kernel
    have hlate : ∃ y ∈ w.store.sectionsOf 1, (∃ p ∈ placed w.store.content 1,
        p.questionVersion.id = 1 ∧ p.testSection.id = y.sectionId) ∧
          lateSession.past y.expiresAt (lateSession.clock w.ticks) = true := by decide +kernel
    have hnamed : (versionWith w.store.content "qv1").map QuestionVersion.id = some 1 := by
      decide +kernel
    obtain ⟨y, hy, ⟨p, hp, hid, hsection⟩, hpast⟩ := hlate
    obtain ⟨qv, hqv, hqvid⟩ := Option.map_eq_some_iff.1 hnamed
    cases hrun : lateSession.saveAnswers 1 [sampleDelta "two" 1] w with
    | mk result w' =>
      rw [hrun] at hsaved
      cases result with
      | error e => cases hsaved
      | ok res =>
        obtain ⟨haccepted, hrejected⟩ := Prod.mk.inj (Option.some.inj hsaved)
        refine ⟨w, res, w', .next trivial (step_settle _ _ _) (.refl _), hrun, fun hadmitted => ?_⟩
        rw [show res.accepted = 1 from haccepted, show res.rejected = [] from hrejected]
          at hadmitted
        cases hadmitted with
        | accepted holds rest =>
          have hopen := holds y hy ⟨qv, hqv, p, hp, hid.trans hqvid.symm, hsection⟩
          rw [hpast] at hopen
          cases hopen

end IeltsHub.SectionClock
