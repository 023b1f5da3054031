import IeltsHub.SweepIsolation
import IeltsHub.StuckQueues

set_option autoImplicit false

/-!
# Sweep after sweep

What a submit of an overdue attempt would answer is a matter of the attempt's own data, so an
attempt that cannot be scored fails in every sweep. It stays selected, and as the sweep takes the
oldest first it keeps its place in every batch.
-/
namespace IeltsHub.SweepProgress
open PyExc PyValue PyTime QtypesSchemas RowTable RaisingState ContentModels ExamScoring ExamModels
  ExamScoringInputs ExamSession SessionFrames SubmitSpec ScoreOnce SessionRuns SweepIsolation
  StuckQueues

variable {ses : ExamSession} {a id limit : ℕ} {via : SubmittedVia} {now : Time} {w w' : World}
  {r : Attempt}

/-! ## What scoring depends on -/

theorem returns_runRow_congr {run : ScoreRun} {id id' attempt attempt' : ℕ}
    {job job' initiator initiator' : Option ℕ} {now now' : Time}
    (h : Returns (runRow run id attempt job initiator now)) :
    Returns (runRow run id' attempt' job' initiator' now') := by
  obtain ⟨row, h⟩ := h
  unfold runRow at h ⊢
  obtain ⟨bandMap, hbandMap, h⟩ := bind_eq_ok.1 h
  obtain ⟨raw, hraw, h⟩ := bind_eq_ok.1 h
  obtain ⟨most, hmost, h⟩ := bind_eq_ok.1 h
  obtain ⟨band, hband, h⟩ := bind_eq_ok.1 h
  rw [hbandMap, hraw, hmost, hband]
  exact ⟨_, rfl⟩

theorem returns_itemScoreRow_congr {c : ContentStore} {run : ScoreRun} {id id' : ℕ} {qv : String}
    {slot : SlotScore} (h : Returns (itemScoreRow c run id qv slot)) :
    Returns (itemScoreRow c run id' qv slot) := by
  obtain ⟨row, h⟩ := h
  unfold itemScoreRow at h ⊢
  obtain ⟨version, hversion, h⟩ := bind_eq_ok.1 h
  obtain ⟨key, hkey, h⟩ := bind_eq_ok.1 h
  obtain ⟨awarded, hawarded, h⟩ := bind_eq_ok.1 h
  obtain ⟨most, hmost, h⟩ := bind_eq_ok.1 h
  rw [hversion, hkey, hawarded, hmost]
  exact ⟨_, rfl⟩

theorem returns_addRun_congr {s s' : Store} {run : ScoreRun} {attempt attempt' : ℕ}
    {now now' : Time} (hcontent : s'.content = s.content)
    (h : Returns (addRun s run attempt none none now)) :
    Returns (addRun s' run attempt' none none now') := by
  unfold addRun at h ⊢
  obtain ⟨row, hrow, h⟩ := returns_bind.1 h
  obtain ⟨items, hitems, _⟩ := returns_bind.1 h
  obtain ⟨row', hrow'⟩ : Returns (runRow run (s'.scoreRuns.mapRows (demote attempt')
      (demote_id attempt')).nextId attempt' none none now') := returns_runRow_congr ⟨row, hrow⟩
  have hitems' : Returns (itemScoreRows s'.content run row'.id) := by
    have hall := returns_mapM.1 ⟨items, hitems⟩
    rw [hcontent]
    exact returns_mapM.2 (fun e he => returns_itemScoreRow_congr (hall e he))
  obtain ⟨items', hitems'⟩ := hitems'
  exact returns_bind.2 ⟨row', hrow', returns_bind.2 ⟨items', hitems', returns_pure _⟩⟩

theorem canScore_congr {s s' : Store} (h : SameFor r.id s s') (hr : CanScore ses s r) :
    CanScore ses s' r := by
  obtain ⟨run, now, hrun, hadd⟩ := hr
  refine ⟨run, now, ?_, returns_addRun_congr h.content hadd⟩
  unfold computeRun at hrun ⊢
  rw [h.content, h.answers]
  exact hrun

/-! ## A submit of an overdue attempt -/

theorem score_returns {run : ScoreRun} {now' : Time}
    (hrun : computeRun ses.scorer w.store r "initial" = .ok run) {s : Store}
    (hcontent : w.store.content = s.content) (hadd : Returns (addRun s run r.id none none now')) :
    ∃ row w', ses.score r "initial" w = (.ok row, w') := by
  obtain ⟨⟨s', row⟩, hstored⟩ : Returns (addRun (tick w).store run r.id none none
      (ses.clock w.ticks)) := returns_addRun_congr hcontent hadd
  unfold score
  rw [Effect.gets_bind_run, Effect.lift_bind_run_ok hrun, now_bind_run]
  unfold storeRun
  rw [hstored]
  exact ⟨row, _, rfl⟩

theorem freezeAndScore_returns (hr : w.store.attempts.get? r.id = some r)
    (h : CanScore ses w.store r) :
    ∃ row w', ses.freezeAndScore r.id via now w = (.ok row, w') := by
  obtain ⟨run, now', hrun, hadd⟩ := h
  unfold freezeAndScore
  rw [Effect.bind_run_ok (getAttempt_run hr), Effect.bind_run_ok (m := putAttempt _) rfl]
  obtain ⟨v, hannounce, hcontent, hcompute⟩ : ∃ v, ses.announce (frozenAttempt r via now) via
      { w with store := { w.store with
        attempts := w.store.attempts.put (frozenAttempt r via now) } } = (.ok (), v) ∧
      v.store.content = w.store.content ∧
      computeRun ses.scorer v.store (frozenAttempt r via now) "initial" = .ok run := by
    obtain ⟨ticks, h⟩ := announce_run ses (frozenAttempt r via now) via
      { w with store := { w.store with
        attempts := w.store.attempts.put (frozenAttempt r via now) } }
    exact ⟨_, h, rfl, hrun⟩
  rw [Effect.bind_run_ok hannounce]
  obtain ⟨row, u, hscore⟩ := score_returns hcompute hcontent hadd
  rw [Effect.bind_run_ok hscore, now_bind_run, Effect.bind_run_ok (m := putAttempt _) rfl,
    Effect.bind_run_ok (emit_run ses _ _ _ _)]
  exact ⟨row, _, rfl⟩

theorem recordedRun_inProgress {s : Store} (h : r.status = .inProgress) :
    recordedRun s r = none := by
  unfold recordedRun
  refine if_neg ?_
  rintro (hv | hv) <;> rw [h] at hv <;> cases hv

theorem submitPlain_returns_iff (hr : w.store.attempts.get? r.id = some r)
    (hstatus : r.status = .inProgress) :
    Returns (ses.submitPlain r.id via w).1 ↔ CanScore ses w.store r := by
  constructor
  · rintro ⟨row, h⟩
    have hafter : ses.submitPlain r.id via w = (.ok row, (ses.submitPlain r.id via w).2) :=
      Prod.ext h rfl
    refine canScore_of_submitPlain ⟨hr, ?_⟩ hafter
    rw [hstatus]
    rfl
  · intro h
    have hsubmits : ∃ row w',
        ses.freezeAndScore r.id via (ses.clock w.ticks) (tick w) = (.ok row, w') :=
      freezeAndScore_returns (w := tick w) hr h
    obtain ⟨row, w', hfreeze⟩ := hsubmits
    unfold submitPlain submitAfter
    have hlive : ¬ r.status = .voided := by
      rw [hstatus]
      exact AttemptStatus.noConfusion
    rw [now_bind_run, Effect.bind_run_ok (getAttempt_run (w := tick w) hr), if_neg hlive,
      Effect.gets_bind_run, recordedRun_inProgress hstatus]
    change Returns (ses.freezeAndScore r.id via (ses.clock w.ticks) (tick w)).1
    rw [hfreeze]
    exact ⟨row, rfl⟩

/-! ## The rows of the attempts -/

/-- Rows stay where they stand, and one that is in progress is as it was. -/
def Kept (s s' : Store) : Prop :=
  ∃ f : Attempt → Attempt, s'.attempts.rows = s.attempts.rows.map f ∧
    ∀ r, (f r).status = .inProgress → f r = r

theorem kept_frame : Frame (fun w w' : World => Kept w.store w'.store) where
  refl w := ⟨id, (List.map_id _).symm, fun _ _ => rfl⟩
  trans := by
    rintro u v w ⟨f, hf, hlive⟩ ⟨g, hg, hlive'⟩
    refine ⟨g ∘ f, by rw [hg, hf, List.map_map], fun r hr => ?_⟩
    have hsame : g (f r) = f r := hlive' (f r) hr
    have hr' : (f r).status = .inProgress := by
      rw [← hsame]
      exact hr
    exact hsame.trans (hlive r hr')

theorem kept_put {s : Store} {x : Attempt} (hx : s.attempts.get? r.id = some x)
    (hr : r.status ≠ .inProgress) : Kept s { s with attempts := s.attempts.put r } := by
  refine ⟨fun y => if y.id = r.id then r else y, ?_, ?_⟩
  · change (s.attempts.put r).rows = _
    rw [Table.put_eq_mapRows hx]
    rfl
  · intro y hy
    dsimp only at hy ⊢
    by_cases hid : y.id = r.id
    · rw [if_pos hid] at hy
      exact absurd hy hr
    · exact if_neg hid

theorem freezeAndScore_kept {row : ScoreRunRow}
    (h : ses.freezeAndScore id via now w = (.ok row, w')) : Kept w.store w'.store := by
  unfold freezeAndScore at h
  obtain ⟨r, u, hr, hfreeze⟩ := Effect.bind_eq_ok.1 h
  obtain ⟨hr, rfl⟩ := getAttempt_eq_ok.1 hr
  have hid : r.id = id := Table.get?_key hr
  subst hid
  rw [Effect.bind_run_ok (m := putAttempt _) rfl] at hfreeze
  obtain ⟨ticks, hannounce⟩ := announce_run ses (frozenAttempt r via now) via
    { u with store := { u.store with attempts := u.store.attempts.put (frozenAttempt r via now) } }
  rw [Effect.bind_run_ok hannounce] at hfreeze
  obtain ⟨row', v, hscore, hdone⟩ := Effect.bind_eq_ok.1 hfreeze
  obtain ⟨run, _, hadd⟩ := score_eq_ok hscore
  rw [Effect.bind_run_ok (m := ses.now) rfl, Effect.bind_run_ok (m := putAttempt _) rfl,
    Effect.bind_run_ok (emit_run ses _ _ _ _)] at hdone
  cases hdone
  obtain ⟨_, hattempts, _, _⟩ := addRun_frame hadd
  have hfrozen : Kept u.store
      { u.store with attempts := u.store.attempts.put (frozenAttempt r via now) } :=
    kept_put hr AttemptStatus.noConfusion
  have hfound : v.store.attempts.get? r.id = some (frozenAttempt r via now) := by
    rw [hattempts]
    exact Table.get?_put_self _ _
  obtain ⟨f, hf, hlive⟩ := hfrozen
  refine kept_frame.trans (s := u) (t := v) ⟨f, ?_, hlive⟩ ?_
  · rw [hattempts]
    exact hf
  · exact kept_put hfound AttemptStatus.noConfusion

theorem submitPlain_kept {row : ScoreRunRow} (h : ses.submitPlain id via w = (.ok row, w')) :
    Kept w.store w'.store := by
  rcases submitAfter_cases h with ⟨rfl, _⟩ | ⟨r, _, h⟩
  · exact kept_frame.refl w
  · obtain ⟨_, u, hu, hfreeze⟩ := Effect.bind_eq_ok.1 h
    cases hu
    exact freezeAndScore_kept (w := tick w) hfreeze

/-! ## The clock -/

def Later (w w' : World) : Prop := w.ticks ≤ w'.ticks

theorem later_frame : Frame Later := ⟨fun _ => le_rfl, le_trans⟩

theorem later_now : Keeps Later ses.now := fun w => Nat.le_succ w.ticks

theorem later_emit (r : Attempt) (eventType : String) (extra : PyDict.Dict String Json) :
    Keeps Later (ses.emit r eventType extra) := by
  intro w
  rw [emit_run]
  exact Nat.le_add_right w.ticks 2

theorem later_score (r : Attempt) : Keeps Later (ses.score r "initial") := by
  refine keeps_bind later_frame (keeps_gets later_frame _) (fun s => ?_)
  refine keeps_bind later_frame (keeps_lift later_frame _) (fun run => ?_)
  refine keeps_bind later_frame later_now (fun now => ?_)
  intro w
  unfold storeRun
  split
  · exact le_rfl
  · exact le_rfl

theorem later_getAttempt (id : ℕ) : Keeps Later (getAttempt id) := by
  intro w
  unfold getAttempt
  split
  · exact le_rfl
  · exact le_rfl

theorem later_freezeAndScore : Keeps Later (ses.freezeAndScore id via now) := by
  refine keeps_bind later_frame (later_getAttempt id) (fun r => ?_)
  refine keeps_bind later_frame (fun w => le_rfl) (fun _ => ?_)
  refine keeps_bind later_frame ?_ (fun _ => ?_)
  · unfold announce
    split
    · exact keeps_pure later_frame ()
    · exact later_emit _ _ _
  · refine keeps_bind later_frame (later_score _) (fun run => ?_)
    refine keeps_bind later_frame later_now (fun scored => ?_)
    refine keeps_bind later_frame (fun w => le_rfl) (fun _ => ?_)
    exact keeps_bind later_frame (later_emit _ _ _) (fun _ => keeps_pure later_frame run)

theorem later_submitPlain : Keeps Later (ses.submitPlain id via) := by
  refine keeps_bind later_frame later_now (fun now => ?_)
  refine keeps_bind later_frame (later_getAttempt id) (fun r => ?_)
  split
  · exact keeps_raise later_frame _
  · refine keeps_bind later_frame (keeps_gets later_frame _) (fun store => ?_)
    split
    · exact keeps_pure later_frame _
    · exact keeps_bind later_frame (keeps_pure later_frame ()) (fun _ => later_freezeAndScore)

theorem later_autoSubmitExpired : Keeps Later (ses.autoSubmitExpired limit) := by
  refine keeps_bind later_frame later_now (fun now => ?_)
  refine keeps_bind later_frame (keeps_gets later_frame _) (fun store => ?_)
  refine keeps_bind later_frame (keeps_mapM later_frame (fun id _ => ?_))
    (fun swept => keeps_pure later_frame _)
  refine keeps_bind later_frame (keeps_guarded later_submitPlain (fun _ _ h => h))
    (fun result => ?_)
  split
  · exact keeps_pure later_frame _
  · exact keeps_pure later_frame _

/-! ## One pass -/

/-- The attempt is scored, with one run more and one `attempt.scored` more. -/
structure ScoredOnce (a : ℕ) (s s' : Store) : Prop where
  attempt : ∃ r, s'.attempts.get? a = some r ∧ r.status = .scored
  runs : ∃ row, s'.runsOf a = (s.runsOf a).map (demote a) ++ [row] ∧ row.reason = "initial" ∧
    row.isCurrent = true
  events : ∃ evs, s'.eventsOf a = s.eventsOf a ++ evs ∧
    evs.countP (fun e => e.eventType = "attempt.scored") = 1

theorem ScoredOnce.of_sameFor {s t u : Store} (h : SameFor a s t) (h' : ScoredOnce a t u) :
    ScoredOnce a s u where
  attempt := h'.attempt
  runs := by
    rw [← h.runs]
    exact h'.runs
  events := by
    rw [← h.events]
    exact h'.events

theorem ScoredOnce.sameFor {s t u : Store} (h : ScoredOnce a s t) (h' : SameFor a t u) :
    ScoredOnce a s u where
  attempt := by
    rw [h'.attempt]
    exact h.attempt
  runs := by
    rw [h'.runs]
    exact h.runs
  events := by
    rw [h'.events]
    exact h.events

def Swept (ses : ExamSession) (r : Attempt) (s s' : Store) : Prop :=
  (CanScore ses s r → ScoredOnce r.id s s') ∧ (¬ CanScore ses s r → SameFor r.id s s')

theorem sweepOne_swept (hr : w.store.attempts.get? r.id = some r)
    (hstatus : r.status = .inProgress) : ∃ o w', ses.sweepOne r.id w = (.ok o, w') ∧
      Kept w.store w'.store ∧ Swept ses r w.store w'.store := by
  have hreturns : Returns (ses.submitPlain r.id .autoExpiry w).1 ↔ CanScore ses w.store r :=
    submitPlain_returns_iff hr hstatus
  unfold sweepOne Swept
  rw [Effect.bind_run]
  unfold Effect.guarded
  rcases h : ses.submitPlain r.id .autoExpiry w with ⟨e | row, u⟩
  · rw [h] at hreturns
    have hnot : ¬ CanScore ses w.store r := fun hc => returns_error e (hreturns.2 hc)
    exact ⟨none, _, rfl, kept_frame.refl w, fun hc => absurd hc hnot,
      fun _ => SameFor.refl r.id w.store⟩
  · rw [h] at hreturns
    have hcan : CanScore ses w.store r := hreturns.1 (returns_ok row)
    refine ⟨some r.id, u, rfl, submitPlain_kept h, fun _ => ?_, fun hnot => absurd hcan hnot⟩
    rcases submitAfter_cases h with ⟨_, hno⟩ | ⟨r', hs, h⟩
    · refine absurd ⟨hr, ?_, recordedRun_inProgress hstatus⟩ (hno r)
      rw [hstatus]
      exact AttemptStatus.noConfusion
    · obtain ⟨_, v, hv, hfreeze⟩ := Effect.bind_eq_ok.1 h
      cases hv
      obtain ⟨_, _, hscored⟩ := freezeAndScore_eq_ok (w := tick w) hfreeze
      obtain ⟨r'', hr'', hdone, _⟩ := hscored.attempt
      exact ⟨⟨r'', hr'', hdone⟩, ⟨row, hscored.runs, hscored.initial, hscored.current⟩,
        hscored.events⟩

theorem sameFor_symm {s t : Store} (h : SameFor a s t) : SameFor a t s where
  content := h.content.symm
  users := h.users.symm
  attempt := h.attempt.symm
  sections := h.sections.symm
  answers := h.answers.symm
  runs := h.runs.symm
  events := h.events.symm

theorem swept_of_sameFor {s t u : Store} (h : SameFor r.id s t) (h' : Swept ses r t u) :
    Swept ses r s u := by
  refine ⟨fun hc => (h'.1 (canScore_congr h hc)).of_sameFor h, fun hc => h.trans (h'.2 ?_)⟩
  exact fun hc' => hc (canScore_congr (sameFor_symm h) hc')

theorem Swept.sameFor {s t u : Store} (h : Swept ses r s t) (h' : SameFor r.id t u) :
    Swept ses r s u :=
  ⟨fun hc => (h.1 hc).sameFor h', fun hc => (h.2 hc).trans h'⟩

theorem mapM_sweepOne {rs : List Attempt} (hids : (rs.map Attempt.id).Nodup)
    (hrows : ∀ r ∈ rs, w.store.attempts.get? r.id = some r ∧ r.status = .inProgress) :
    ∃ swept w', (rs.map Attempt.id).mapM ses.sweepOne w = (.ok swept, w') ∧
      Kept w.store w'.store ∧ (∀ a ∉ rs.map Attempt.id, SameFor a w.store w'.store) ∧
      ∀ r ∈ rs, Swept ses r w.store w'.store := by
  induction rs generalizing w with
  | nil =>
    exact ⟨[], w, rfl, kept_frame.refl w, fun a _ => SameFor.refl a w.store,
      fun r hr => by cases hr⟩
  | cons r rs ih =>
    obtain ⟨hnot, hrest⟩ := List.nodup_cons.1 hids
    obtain ⟨hr, hstatus⟩ := hrows r List.mem_cons_self
    have hfirst : ∃ o u, ses.sweepOne r.id w = (.ok o, u) ∧ Kept w.store u.store ∧
        Swept ses r w.store u.store := sweepOne_swept hr hstatus
    obtain ⟨o, u, hone, hkept, hswept⟩ := hfirst
    have hother : ∀ a ≠ r.id, SameFor a w.store u.store := by
      intro a ha
      have hframe : Untouched a w (ses.sweepOne r.id w).2 :=
        keeps_sweepOne (fun h => ha h.symm) w
      rw [hone] at hframe
      exact hframe
    have hne : ∀ x ∈ rs, x.id ≠ r.id :=
      fun x hx h => hnot (h ▸ List.mem_map_of_mem hx)
    obtain ⟨os, v, hmany, hkept', hsame, hall⟩ := ih (w := u) hrest (by
      intro x hx
      obtain ⟨hget, hlive⟩ := hrows x (List.mem_cons_of_mem _ hx)
      rw [(hother x.id (hne x hx)).attempt]
      exact ⟨hget, hlive⟩)
    refine ⟨o :: os, v, ?_, kept_frame.trans (s := w) (t := u) hkept hkept', ?_, ?_⟩
    · rw [List.map_cons, List.mapM_cons, Effect.bind_run_ok hone, Effect.bind_run_ok hmany]
      rfl
    · intro a ha
      rw [List.map_cons, List.mem_cons, not_or] at ha
      exact (hother a ha.1).trans (hsame a ha.2)
    · intro x hx
      rcases List.mem_cons.1 hx with rfl | hx
      · exact hswept.sameFor (hsame x.id hnot)
      · exact swept_of_sameFor (hother x.id (hne x hx)) (hall x hx)

/-! ## What is overdue -/

def overdue (ses : ExamSession) (w : World) : List Attempt := ses.due w.store (ses.clock w.ticks)

def isDue (ses : ExamSession) (now : Time) (r : Attempt) : Bool :=
  r.status == .inProgress &&
    (match r.expiresAt with | some t => t < now - seconds ses.grace | none => false)

def longer (r x : Attempt) : Prop := r.expiresAt.getD 0 ≤ x.expiresAt.getD 0

instance : DecidableRel longer := fun _ _ => inferInstanceAs (Decidable (_ ≤ _))

instance : IsTrans Attempt longer := ⟨fun _ _ _ h h' => le_trans (α := ℤ) h h'⟩

instance : Std.Total longer := ⟨fun _ _ => le_total (α := ℤ) _ _⟩

theorem due_eq (s : Store) (now : Time) :
    ses.due s now = (s.attempts.rows.filter (isDue ses now)).insertionSort longer := rfl

theorem isDue_iff : isDue ses now r = true ↔
    r.status = .inProgress ∧ ∃ t, r.expiresAt = some t ∧ t < now - seconds ses.grace := by
  unfold isDue
  rw [Bool.and_eq_true, beq_iff_eq]
  refine and_congr_right (fun _ => ?_)
  cases r.expiresAt with
  | none => simp
  | some t => simp

theorem isDue_mono {now' : Time} (hle : now ≤ now') (h : isDue ses now r = true) :
    isDue ses now' r = true := by
  obtain ⟨hstatus, t, ht, hlt⟩ := isDue_iff.1 h
  refine isDue_iff.2 ⟨hstatus, t, ht, ?_⟩
  change t < now - seconds ses.grace at hlt
  exact lt_of_lt_of_le hlt (Int.sub_le_sub_right hle _)

theorem mem_overdue : r ∈ overdue ses w ↔
    r ∈ w.store.attempts.rows ∧ isDue ses (ses.clock w.ticks) r = true := by
  unfold overdue
  rw [due_eq, List.mem_insertionSort, List.mem_filter]

theorem nodup_overdue (ses : ExamSession) (w : World) :
    ((overdue ses w).map Attempt.id).Nodup := by
  unfold overdue
  rw [due_eq]
  have hperm := (List.perm_insertionSort longer
    (w.store.attempts.rows.filter (isDue ses (ses.clock w.ticks)))).map Attempt.id
  rw [hperm.nodup_iff]
  exact w.store.attempts.nodup.sublist (List.filter_sublist.map _)

theorem overdue_row (h : r ∈ overdue ses w) :
    w.store.attempts.get? r.id = some r ∧ r.status = .inProgress := by
  obtain ⟨hr, hdue⟩ := mem_overdue.1 h
  exact ⟨Table.get?_eq_some.2 ⟨hr, rfl⟩, (isDue_iff.1 hdue).1⟩

theorem filter_map_kept {f : Attempt → Attempt} (hf : ∀ x, (f x).status = .inProgress → f x = x)
    (now : Time) (rows : List Attempt) : (rows.map f).filter (isDue ses now) =
      (rows.filter (isDue ses now)).filter (fun x => f x = x) := by
  induction rows with
  | nil => rfl
  | cons x rows ih =>
    rw [List.map_cons, List.filter_cons, @List.filter_cons _ _ rows, ih]
    by_cases hx : f x = x
    · rw [hx]
      split
      · rw [List.filter_cons_of_pos (by simpa using hx)]
      · rfl
    · have hnot : ¬ isDue ses now (f x) = true := fun h => hx (hf x (isDue_iff.1 h).1)
      rw [if_neg hnot]
      split
      · rw [List.filter_cons_of_neg (by simpa using hx)]
      · rfl

/-- What is overdue later on: what was overdue and is still in progress, and then what has become
overdue since. -/
theorem overdue_later {f : Attempt → Attempt}
    (hrows : w'.store.attempts.rows = w.store.attempts.rows.map f)
    (hf : ∀ x, (f x).status = .inProgress → f x = x)
    (hclock : ses.clock w.ticks ≤ ses.clock w'.ticks) : ∃ newer,
      overdue ses w' = (overdue ses w).filter (fun x => f x = x) ++ newer ∧
        ∀ x ∈ overdue ses w, x ∉ newer := by
  set now := ses.clock w.ticks with hnow
  have hold : (w.store.attempts.rows.filter (isDue ses (ses.clock w'.ticks))).filter
      (isDue ses now) = w.store.attempts.rows.filter (isDue ses now) := by
    rw [List.filter_filter]
    refine List.filter_congr (fun x _ => ?_)
    cases hx : isDue ses now x with
    | true => rw [isDue_mono hclock hx, Bool.and_true]
    | false => rw [Bool.false_and]
  have hsorted := @insertionSort_eq_append _ longer _ _ _ (isDue ses now)
    (w.store.attempts.rows.filter (isDue ses (ses.clock w'.ticks))) (by
      intro x _ y hy hx hnot hyx
      obtain ⟨_, t, ht, hlt⟩ := isDue_iff.1 hx
      obtain ⟨hstatus, u, hu, _⟩ := isDue_iff.1 (List.mem_filter.1 hy).2
      have hge : ¬ u < now - seconds ses.grace := fun h =>
        absurd (isDue_iff.2 ⟨hstatus, u, hu, h⟩) (by rw [hnot]; exact Bool.false_ne_true)
      unfold longer at hyx
      rw [ht, hu] at hyx
      exact hge (lt_of_le_of_lt (α := ℤ) hyx hlt))
  rw [hold] at hsorted
  refine ⟨(((w.store.attempts.rows.filter (isDue ses (ses.clock w'.ticks))).filter
    (fun x => !isDue ses now x)).insertionSort longer).filter (fun x => f x = x), ?_, ?_⟩
  · unfold overdue
    rw [due_eq, hrows, filter_map_kept hf, ← filter_insertionSort, hsorted, List.filter_append]
    rfl
  · intro x hx hmem
    obtain ⟨_, hdue⟩ := mem_overdue.1 hx
    have hmem := (List.mem_insertionSort longer).1 (List.mem_of_mem_filter hmem)
    have hnot := (List.mem_filter.1 hmem).2
    rw [hdue] at hnot
    cases hnot

/-! ## Sweep after sweep -/

def sweeps (ses : ExamSession) (limit : ℕ) (w : World) : ℕ → World
  | 0 => w
  | k + 1 => settle ses (sweeps ses limit w k) (.autoSubmitExpired limit)

def fails (ses : ExamSession) (w : World) (r : Attempt) : Bool :=
  decide (¬ Returns (ses.submitPlain r.id .autoExpiry w).1)

theorem fails_iff (h : r ∈ overdue ses w) : fails ses w r = true ↔ ¬ CanScore ses w.store r := by
  obtain ⟨hr, hstatus⟩ := overdue_row h
  unfold fails
  rw [decide_eq_true_eq, submitPlain_returns_iff hr hstatus]

theorem settle_of_ok {c : Call} {answer : Answer} (h : perform ses c w = (.ok answer, w')) :
    settle ses w c = w' := by
  unfold settle
  rw [h]

theorem autoSubmitExpired_run {swept : List (Option ℕ)}
    (h : (((overdue ses w).take limit).map Attempt.id).mapM ses.sweepOne (tick w) =
      (.ok swept, w')) : ses.autoSubmitExpired limit w = (.ok swept.reduceOption, w') := by
  unfold autoSubmitExpired
  rw [now_bind_run, Effect.gets_bind_run]
  exact Effect.bind_eq_ok.2 ⟨swept, w', h, rfl⟩

theorem sweep_spec (ses : ExamSession) (limit : ℕ) (w : World) : ∃ w',
    settle ses w (.autoSubmitExpired limit) = w' ∧ Kept w.store w'.store ∧ Later w w' ∧
      (∀ a ∉ ((overdue ses w).take limit).map Attempt.id, SameFor a w.store w'.store) ∧
      ∀ r ∈ (overdue ses w).take limit, Swept ses r w.store w'.store := by
  have hids : (((overdue ses w).take limit).map Attempt.id).Nodup :=
    (nodup_overdue ses w).sublist ((List.take_sublist limit _).map _)
  have hpass : ∃ swept v,
      (((overdue ses w).take limit).map Attempt.id).mapM ses.sweepOne (tick w) = (.ok swept, v) ∧
      Kept (tick w).store v.store ∧
      (∀ a ∉ ((overdue ses w).take limit).map Attempt.id, SameFor a (tick w).store v.store) ∧
      ∀ r ∈ (overdue ses w).take limit, Swept ses r (tick w).store v.store :=
    mapM_sweepOne hids (fun r hr => overdue_row (w := w) (List.mem_of_mem_take hr))
  obtain ⟨swept, v, hmany, hkept, hsame, hall⟩ := hpass
  have hrun := autoSubmitExpired_run hmany
  have hperform : perform ses (.autoSubmitExpired limit) w =
      (.ok (.swept swept.reduceOption), v) := map_eq_ok.2 ⟨_, hrun, rfl⟩
  have hlater : Later w (ses.autoSubmitExpired limit w).2 := later_autoSubmitExpired w
  rw [hrun] at hlater
  exact ⟨v, settle_of_ok hperform, hkept, hlater, hsame, hall⟩

/-- The world after some sweeps: what is still waiting of what was overdue is what as many passes
leave of it, and is untouched; the rest is scored. `f` is what became of each row. -/
structure After (ses : ExamSession) (limit : ℕ) (w₀ : World) (k : ℕ) (w : World)
    (f : Attempt → Attempt) : Prop where
  rows : w.store.attempts.rows = w₀.store.attempts.rows.map f
  live : ∀ r, (f r).status = .inProgress → f r = r
  later : Later w₀ w
  queue : (overdue ses w₀).filter (fun r => f r = r) =
    passes (fails ses w₀) limit (overdue ses w₀) k
  waiting : ∀ r ∈ overdue ses w₀, f r = r → SameFor r.id w₀.store w.store
  scored : ∀ r ∈ overdue ses w₀, f r ≠ r → ScoredOnce r.id w₀.store w.store

theorem after_start (ses : ExamSession) (limit : ℕ) (w : World) :
    After ses limit w 0 w (fun r => r) where
  rows := (List.map_id _).symm
  live := fun _ _ => rfl
  later := le_rfl
  queue := List.filter_eq_self.2 (fun _ _ => decide_eq_true rfl)
  waiting := fun r _ _ => SameFor.refl r.id w.store
  scored := fun _ _ h => absurd rfl h

theorem stays_iff {g : Attempt → Attempt} {s s' : Store}
    (hrows : s'.attempts.rows = s.attempts.rows.map g)
    (hlive : ∀ x, (g x).status = .inProgress → g x = x) (hr : r ∈ s.attempts.rows)
    (hstatus : r.status = .inProgress) : g r = r ↔ s'.attempts.get? r.id = some r := by
  constructor
  · intro h
    refine Table.get?_eq_some.2 ⟨?_, rfl⟩
    rw [hrows]
    exact List.mem_map.2 ⟨r, hr, h⟩
  · intro h
    have hmem := (Table.get?_eq_some.1 h).1
    rw [hrows] at hmem
    obtain ⟨x, hx, hgx⟩ := List.mem_map.1 hmem
    have hsame := hlive x (by rw [hgx]; exact hstatus)
    rw [hgx] at hsame
    subst hsame
    exact hgx

theorem mem_take_append {xs ys : List Attempt} (h : r ∉ ys) :
    r ∈ (xs ++ ys).take limit ↔ r ∈ xs.take limit := by
  rw [List.take_append, List.mem_append]
  exact or_iff_left (fun hy => h (List.mem_of_mem_take hy))

theorem mem_map_id_take {xs : List Attempt} (hids : (xs.map Attempt.id).Nodup) (hr : r ∈ xs) :
    r.id ∈ (xs.take limit).map Attempt.id ↔ r ∈ xs.take limit := by
  constructor
  · intro h
    obtain ⟨x, hx, hid⟩ := List.mem_map.1 h
    have hsame : x = r := List.inj_on_of_nodup_map hids (List.mem_of_mem_take hx) hr hid
    rw [← hsame]
    exact hx
  · exact List.mem_map_of_mem

theorem waits_step {w₀ : World} {k : ℕ} {f g : Attempt → Attempt}
    (h : After ses limit w₀ k w f) (hmono : Monotone ses.clock)
    (hrows : w'.store.attempts.rows = w.store.attempts.rows.map g)
    (hlive : ∀ x, (g x).status = .inProgress → g x = x)
    (hsame : ∀ a ∉ ((overdue ses w).take limit).map Attempt.id, SameFor a w.store w'.store)
    (hall : ∀ x ∈ (overdue ses w).take limit, Swept ses x w.store w'.store)
    (hr : r ∈ overdue ses w₀) (hf : f r = r) :
    if fails ses w₀ r || r ∉ (passes (fails ses w₀) limit (overdue ses w₀) k).take limit then
      g r = r ∧ SameFor r.id w₀.store w'.store
    else g r ≠ r ∧ ScoredOnce r.id w₀.store w'.store := by
  obtain ⟨newer, hqueue, hnewer⟩ := overdue_later h.rows h.live (hmono h.later)
  rw [h.queue] at hqueue
  have hwait : r ∈ passes (fails ses w₀) limit (overdue ses w₀) k := by
    rw [← h.queue]
    exact List.mem_filter.2 ⟨hr, decide_eq_true hf⟩
  have hdue : r ∈ overdue ses w := by
    rw [hqueue]
    exact List.mem_append_left _ hwait
  obtain ⟨hget, hstatus⟩ := overdue_row hdue
  have hstays := stays_iff hrows hlive (Table.get?_eq_some.1 hget).1 hstatus
  have htaken : r.id ∈ ((overdue ses w).take limit).map Attempt.id ↔
      r ∈ (passes (fails ses w₀) limit (overdue ses w₀) k).take limit := by
    rw [mem_map_id_take (nodup_overdue ses w) hdue, hqueue, mem_take_append (hnewer r hr)]
  have hwaited := h.waiting r hr hf
  have hkeeps : SameFor r.id w.store w'.store → g r = r ∧ SameFor r.id w₀.store w'.store := by
    intro hsame
    refine ⟨hstays.2 ?_, hwaited.trans hsame⟩
    rw [hsame.attempt]
    exact hget
  by_cases htake : r ∈ (passes (fails ses w₀) limit (overdue ses w₀) k).take limit
  · have hmem : r ∈ (overdue ses w).take limit :=
      (mem_map_id_take (nodup_overdue ses w) hdue).1 (htaken.2 htake)
    have hswept := swept_of_sameFor hwaited (hall r hmem)
    by_cases hfails : fails ses w₀ r = true
    · rw [if_pos (by simp [hfails])]
      have hcannot : ¬ CanScore ses w.store r := by
        intro hcan
        exact (fails_iff hr).1 hfails (canScore_congr (sameFor_symm hwaited) hcan)
      exact hkeeps ((hall r hmem).2 hcannot)
    · rw [if_neg (by simp [hfails, htake])]
      have hcan : CanScore ses w₀.store r := by
        by_contra hnot
        exact hfails ((fails_iff hr).2 hnot)
      have hscored := hswept.1 hcan
      refine ⟨fun hg => ?_, hscored⟩
      obtain ⟨x, hx, hdone⟩ := hscored.attempt
      rw [hstays.1 hg] at hx
      cases hx
      rw [hstatus] at hdone
      cases hdone
  · rw [if_pos (by simp [htake])]
    exact hkeeps (hsame r.id (fun hid => htake (htaken.1 hid)))

theorem not_taken_of_scored (h : ∃ x, w.store.attempts.get? a = some x ∧ x.status = .scored) :
    a ∉ ((overdue ses w).take limit).map Attempt.id := by
  obtain ⟨x, hx, hscored⟩ := h
  intro hmem
  obtain ⟨y, hy, rfl⟩ := List.mem_map.1 hmem
  obtain ⟨hget, hstatus⟩ := overdue_row (List.mem_of_mem_take hy)
  rw [hget] at hx
  cases hx
  rw [hstatus] at hscored
  cases hscored

theorem after_step {w₀ : World} {k : ℕ} {f : Attempt → Attempt} (h : After ses limit w₀ k w f)
    (hmono : Monotone ses.clock) :
    ∃ f', After ses limit w₀ (k + 1) (settle ses w (.autoSubmitExpired limit)) f' := by
  obtain ⟨w', hw', ⟨g, hrows, hlive⟩, hlater, hsame, hall⟩ := sweep_spec ses limit w
  rw [hw']
  have hfixed : ∀ r, (g (f r)).status = .inProgress → g (f r) = r := by
    intro r hr
    have hg := hlive (f r) hr
    rw [hg] at hr ⊢
    exact h.live r hr
  -- a row that was scored before stays scored
  have hgone : ∀ r ∈ overdue ses w₀, f r ≠ r → g (f r) ≠ r := by
    intro r hr hf hg
    have hstatus := (overdue_row hr).2
    refine hf (h.live r ?_)
    rw [← hlive (f r) (by rw [hg]; exact hstatus), hg]
    exact hstatus
  have hnodup : (overdue ses w₀).Nodup := (nodup_overdue ses w₀).of_map _
  have hwait : ∀ r ∈ overdue ses w₀, g (f r) = r → f r = r := by
    intro r hr hg
    by_contra hf
    exact hgone r hr hf hg
  refine ⟨fun r => g (f r), ?_, hfixed, later_frame.trans h.later hlater, ?_, ?_, ?_⟩
  · rw [hrows, h.rows, List.map_map]
    rfl
  · have hqueue : (passes (fails ses w₀) limit (overdue ses w₀) k).Nodup := by
      rw [← h.queue]
      exact hnodup.filter _
    rw [passes, pass_eq_filter hqueue]
    conv_rhs =>
      rw [← h.queue]
    rw [List.filter_filter]
    refine List.filter_congr (fun r hr => ?_)
    by_cases hf : f r = r
    · have hstep := waits_step h hmono hrows hlive hsame hall hr hf
      rw [h.queue]
      split at hstep
      · next hcond =>
        rw [hcond, hf, Bool.true_and, decide_eq_true hstep.1, decide_eq_true rfl]
      · next hcond =>
        rw [Bool.not_eq_true] at hcond
        rw [hcond, hf, Bool.false_and, decide_eq_false hstep.1]
    · rw [decide_eq_false hf, Bool.and_false, decide_eq_false (hgone r hr hf)]
  · intro r hr hg
    have hf := hwait r hr hg
    have hstep := waits_step h hmono hrows hlive hsame hall hr hf
    rw [hf] at hg
    split at hstep
    · exact hstep.2
    · exact absurd hg hstep.1
  · intro r hr hg
    by_cases hf : f r = r
    · have hstep := waits_step h hmono hrows hlive hsame hall hr hf
      rw [hf] at hg
      split at hstep
      · exact absurd hstep.1 hg
      · exact hstep.2
    · have hscored := h.scored r hr hf
      exact hscored.sameFor (hsame r.id (not_taken_of_scored hscored.attempt))

theorem after_sweeps (ses : ExamSession) (hmono : Monotone ses.clock) (limit : ℕ) (w : World)
    (k : ℕ) : ∃ f, After ses limit w k (sweeps ses limit w k) f := by
  induction k with
  | zero => exact ⟨fun r => r, after_start ses limit w⟩
  | succ k ih =>
    obtain ⟨f, h⟩ := ih
    exact after_step h hmono

def rounds (ses : ExamSession) (limit : ℕ) (w : World) : ℕ := (overdue ses w).length ⌈/⌉ limit

/-- After that many sweeps what can be scored is scored once, and what cannot is as it was. -/
def StarvesNobody (ses : ExamSession) (limit : ℕ) (w : World) : Prop :=
  ∀ r ∈ overdue ses w,
    (fails ses w r = false →
      ScoredOnce r.id w.store (sweeps ses limit w (rounds ses limit w)).store) ∧
    (fails ses w r = true →
      SameFor r.id w.store (sweeps ses limit w (rounds ses limit w)).store)

/-- Once a batch is full of attempts that fail, no later sweep scores any other. -/
theorem starved_for_good (ses : ExamSession) (hmono : Monotone ses.clock) (limit : ℕ) (w : World)
    {k : ℕ} (hfull : limit ≤ ((overdue ses w).take
      (reach (fails ses w) limit (overdue ses w) k)).countP (fails ses w)) {r : Attempt}
    (hr : r ∈ (overdue ses w).drop (reach (fails ses w) limit (overdue ses w) k))
    (hscores : fails ses w r = false) (j : ℕ) :
    SameFor r.id w.store (sweeps ses limit w (k + j)).store := by
  obtain ⟨f, h⟩ := after_sweeps ses hmono limit w (k + j)
  have hmem := List.mem_of_mem_drop hr
  refine h.waiting r hmem ?_
  have hwait : r ∈ passes (fails ses w) limit (overdue ses w) (k + j) := by
    rw [mem_passes_of_not_stuck hscores, reach_of_full hfull]
    exact hr
  rw [← h.queue, List.mem_filter, decide_eq_true_eq] at hwait
  exact hwait.2

/-! ## An attempt nobody can score -/

def twoPages : ContentStore :=
  { onePage with
    testVersions := onePage.testVersions.put { id := 2, xid := "tv2" }
    sections := onePage.sections.put { id := 2, testVersionId := 2 }
    groups := onePage.groups.put { id := 2, sectionId := 2, groupVersionId := 2 }
    groupVersions := onePage.groupVersions.put { id := 2 }
    groupItems := onePage.groupItems.put { id := 2, groupVersionId := 2, questionVersionId := 2 }
    questions := onePage.questions.put { id := 2 }
    questionVersions := onePage.questionVersions.put
      { id := 2, xid := "qv2", questionId := 2, typeKey := "crossword", slotKeys := ["s1"] }
    versionXids := by decide
    answerKeys := onePage.answerKeys.put
      { id := 2, questionVersionId := 2
        key := PyDict.Dict.ofList [("slots", .obj [("s1", .obj [("accept", .arr [.str "2"])])])] }
    currentKeys := by decide }

def twoOverdue : World where
  store := { AutosaveConvergence.sampleStore with
    content := twoPages
    attempts := AutosaveConvergence.sampleStore.attempts.put
      { id := 2, xid := "a2", userId := 1, testVersionId := 2, status := .inProgress
        expiresAt := some (seconds 1800) } }

def lateClock : ExamSession :=
  { AutosaveConvergence.sampleSession with clock := fun _ => seconds 7200 }

theorem starved_for_good_younger : ∃ r ∈ overdue lateClock twoOverdue,
    fails lateClock twoOverdue r = false ∧
      SameFor r.id twoOverdue.store (sweeps lateClock 1 twoOverdue 7).store := by
  obtain ⟨r, hr, hscores⟩ : ∃ r ∈ (overdue lateClock twoOverdue).drop
      (reach (fails lateClock twoOverdue) 1 (overdue lateClock twoOverdue) 1),
      fails lateClock twoOverdue r = false := by decide +kernel
  have hfull : 1 ≤ ((overdue lateClock twoOverdue).take
      (reach (fails lateClock twoOverdue) 1 (overdue lateClock twoOverdue) 1)).countP
        (fails lateClock twoOverdue) := by decide +kernel
  exact ⟨r, List.mem_of_mem_drop hr, hscores,
    starved_for_good lateClock monotone_const 1 twoOverdue hfull hr hscores 6⟩

end IeltsHub.SweepProgress
