import IeltsHub.AutosaveBatch
import IeltsHub.ScoringTotality

set_option autoImplicit false

/-!
# Autosave converges

Valid deltas may arrive in any order, in any batches and any number of times: the stored answer
of a slot is that of the greatest sequence number delivered for it. Seen by slot, the stored
sequence numbers and responses are registers where the latest write wins.
-/
namespace IeltsHub.AutosaveConvergence
open PyExc PyValue PyDict PyTime RowTable RaisingState LatestWins ContentModels ExamModels
  ExamScoringInputs ExamSession AutosaveBatch ScoringTotality

/-- A delta for a slot of the paper that the type's schema accepts, its section still open. -/
def Valid (ses : ExamSession) (s : Store) (a : Attempt) (now : Time) (d : AnswerDelta) : Prop :=
  ∃ qv, versionWith s.content d.questionVersionXid = some qv ∧ d.slotKey ∈ qv.slotKeys ∧
    ses.scorer.validateResponse ses.validator qv.typeKey qv.typeVersion d.response = .ok none ∧
    ∀ p ∈ placed s.content a.testVersionId, p.questionVersion.id = qv.id →
      p.testSection.position ∉ ses.expiredSections s a.id now

/-- Calls one after another, each at its own reading of the clock: the attempt is open at every
one of them and every delta is valid. -/
def Deliverable (ses : ExamSession) (s : Store) (a : Attempt) (ticks : ℕ)
    (calls : List (List AnswerDelta)) : Prop :=
  ∀ i (h : i < calls.length), ses.past a.expiresAt (ses.clock (ticks + i)) = false ∧
    ∀ d ∈ calls[i], Valid ses s a (ses.clock (ticks + i)) d

/-- Two deltas for one slot have one sequence number only when they are the same delta. -/
def DistinctSeqs (c : ContentStore) (ds : List AnswerDelta) : Prop :=
  ∀ d ∈ ds, ∀ d' ∈ ds, slotOf c d = slotOf c d' → d.clientSeq = d'.clientSeq → d = d'

def seen (rows : Slot → Option AttemptAnswer) : Registers Slot ℤ Json := fun slot =>
  (rows slot).bind (fun r => r.clientSeq.map (fun n => (n, r.response)))

def writeAt (slot : Slot) (d : AnswerDelta) : Write Slot ℤ Json := ⟨slot, d.clientSeq, d.response⟩

def writeOf (c : ContentStore) (d : AnswerDelta) : Option (Write Slot ℤ Json) :=
  (slotOf c d).map (fun slot => writeAt slot d)

theorem isStale_iff (rows : Slot → Option AttemptAnswer) (slot : Slot) (d : AnswerDelta) :
    isStale (rows slot) d = true ↔ Stale (seen rows) (writeAt slot d) := by
  unfold isStale Stale seen writeAt
  cases rows slot with
  | none => simp
  | some row => cases hseq : row.clientSeq <;> simp [hseq]

theorem seen_update (rows : Slot → Option AttemptAnswer) (slot : Slot) (row : AttemptAnswer)
    (d : AnswerDelta) (hresponse : row.response = d.response)
    (hseq : row.clientSeq = some d.clientSeq) :
    seen (Function.update rows slot (some row)) =
      Function.update (seen rows) slot (some (d.clientSeq, d.response)) := by
  funext k
  by_cases h : k = slot
  · subst h
    simp [seen, hresponse, hseq]
  · simp [seen, h]

/-! ## One valid delta -/

variable {ses : ExamSession} {s : Store} {a : Attempt} {now : Time}

theorem sectionExpired_eq_false {ds : List AnswerDelta} {qv : QuestionVersion}
    (hopen : ∀ p ∈ placed s.content a.testVersionId, p.questionVersion.id = qv.id →
      p.testSection.position ∉ ses.expiredSections s a.id now) :
    (ses.batchContext s a ds now).sectionExpired qv = false := by
  unfold BatchContext.sectionExpired
  split
  · rename_i position hposition
    rw [decide_eq_false_iff_not]
    simp only [batchContext] at hposition ⊢
    split at hposition
    · cases hposition
    · obtain ⟨p, hp, h⟩ := List.mem_map.1 (Dict.mem_of_get?_ofList hposition)
      rw [Prod.mk.injEq] at h
      rw [← h.2]
      exact hopen p (List.mem_filter.1 hp).1 h.1
  · rfl

theorem judge_valid {ds : List AnswerDelta} {d : AnswerDelta} (hd : d ∈ ds)
    (hvalid : Valid ses s a now d) (existing : Dict Slot AttemptAnswer) :
    ∃ qv, versionWith s.content d.questionVersionXid = some qv ∧
      (ses.batchContext s a ds now).judge existing d =
        if isStale (existing.get? (qv.id, d.slotKey)) d then .ok (.refuse (d.rejection .staleSeq))
        else .ok (.accept qv) := by
  obtain ⟨qv, hqv, hslot, hschema, hopen⟩ := hvalid
  refine ⟨qv, hqv, ?_⟩
  have hver : (ses.batchContext s a ds now).versions.get? d.questionVersionXid = some qv :=
    get?_versionsNamed.2 ⟨hqv, List.mem_map_of_mem hd⟩
  have hwhy : (ses.batchContext s a ds now).scorer.validateResponse
      (ses.batchContext s a ds now).validator qv.typeKey qv.typeVersion d.response = .ok none :=
    hschema
  unfold BatchContext.judge
  rw [hver]
  simp only [hslot, not_true_eq_false, if_false, hwhy]
  change (if (ses.batchContext s a ds now).sectionExpired qv = true then _ else _) = _
  rw [sectionExpired_eq_false hopen]
  rfl

theorem step_valid {ds : List AnswerDelta} {d : AnswerDelta} (hd : d ∈ ds)
    (hvalid : Valid ses s a now d) (b : Batch) :
    ∃ b' w, (ses.batchContext s a ds now).step b d = .ok b' ∧ writeOf s.content d = some w ∧
      seen b'.existing.get? = offer (seen b.existing.get?) w := by
  obtain ⟨qv, hqv, hjudge⟩ := judge_valid hd hvalid b.existing
  have hwrite : writeOf s.content d = some (writeAt (qv.id, d.slotKey) d) := by
    rw [writeOf, slotOf, hqv]
    rfl
  by_cases hstale : isStale (b.existing.get? (qv.id, d.slotKey)) d = true
  · rw [if_pos hstale] at hjudge
    refine ⟨Batch.refuse b _, _, step_eq_ok.2 (.inl ⟨_, hjudge, rfl⟩), hwrite, ?_⟩
    rw [offer, if_pos ((isStale_iff _ _ _).1 hstale)]
    rfl
  · rw [if_neg hstale] at hjudge
    refine ⟨Batch.accept _ b d qv, _, step_eq_ok.2 (.inr ⟨qv, hjudge, rfl⟩), hwrite, ?_⟩
    rw [offer, if_neg (fun q => hstale ((isStale_iff _ _ _).2 q)), get?_accept]
    exact seen_update _ _ _ d (by simp) (by simp)

theorem process_valid {ds : List AnswerDelta} (hds : ∀ d ∈ ds, Valid ses s a now d)
    {es : List AnswerDelta} (hes : ∀ d ∈ es, d ∈ ds) (b : Batch) :
    ∃ b', (ses.batchContext s a ds now).process b es = .ok b' ∧
      seen b'.existing.get? =
        (es.filterMap (writeOf s.content)).foldl offer (seen b.existing.get?) := by
  induction es generalizing b with
  | nil => exact ⟨b, rfl, rfl⟩
  | cons d es ih =>
    have hd : d ∈ ds := hes d List.mem_cons_self
    obtain ⟨u, w, hu, hw, hseen⟩ := step_valid hd (hds d hd) b
    obtain ⟨b', hb', hseen'⟩ := ih (fun x hx => hes x (List.mem_cons_of_mem d hx)) u
    refine ⟨b', ?_, ?_⟩
    · unfold BatchContext.process at hb' ⊢
      rw [List.foldlM_cons, hu]
      exact hb'
    · rw [hseen', hseen, List.filterMap_cons_some hw, List.foldl_cons]

/-! ## One call -/

theorem saveAnswers_open {id : ℕ} {w : World} {ds : List AnswerDelta}
    (ha : w.store.attempts.get? id = some a) (hstatus : a.status = .inProgress)
    (hopen : ses.past a.expiresAt (ses.clock w.ticks) = false) :
    ses.saveAnswers id ds w =
      ses.storeDeltas a ds (ses.clock w.ticks) { w with ticks := w.ticks + 1 } := by
  have hget : getAttempt id { w with ticks := w.ticks + 1 } =
      (.ok a, { w with ticks := w.ticks + 1 }) := by
    simp only [getAttempt, ha]
  unfold saveAnswers
  rw [Effect.bind_run_ok (m := ses.now) rfl, Effect.bind_run_ok hget]
  simp [hstatus, hopen]

theorem storeDeltas_valid {w : World} {ds : List AnswerDelta}
    (ha : w.store.attempts.get? a.id = some a) (hstatus : a.status = .inProgress)
    (hds : ∀ d ∈ ds, Valid ses w.store a now d) :
    ∃ res rows, ses.storeDeltas a ds now w =
        (.ok res, { w with store := writeAnswers w.store rows }) ∧
      seen (storedAnswer (writeAnswers w.store rows) a.id) =
        (ds.filterMap (writeOf w.store.content)).foldl offer
          (seen (storedAnswer w.store a.id)) := by
  obtain ⟨b, hb, hseen⟩ := process_valid hds (fun _ hd => hd)
    { existing := bySlot (w.store.answersOf a.id) }
  have hlinked := (linked_start (ses.batchContext w.store a ds now) w.store).process hb
  have hflush : flushAnswers a.id b.pending.values w =
      (.ok (), { w with store := writeAnswers w.store b.pending.values }) := by
    simp only [flushAnswers, ha, Option.map_some, hstatus, AttemptStatus.frozen]
    rfl
  refine ⟨saveResult a now b, b.pending.values, ?_, ?_⟩
  · unfold storeDeltas
    rw [Effect.gets_bind_run, Effect.lift_bind_run_ok hb, Effect.bind_run_ok hflush]
    rfl
  · have hafter : storedAnswer (writeAnswers w.store b.pending.values) a.id = b.existing.get? :=
      funext (fun slot => hlinked.storedAnswer_write slot)
    have hbefore : (bySlot (w.store.answersOf a.id)).get? = storedAnswer w.store a.id :=
      funext (get?_bySlot w.store a.id)
    rw [hafter, hseen, hbefore]

theorem calls_valid {calls : List (List AnswerDelta)} {w : World}
    (ha : w.store.attempts.get? a.id = some a) (hstatus : a.status = .inProgress)
    (hcalls : Deliverable ses w.store a w.ticks calls) :
    ∃ results w', calls.mapM (ses.saveAnswers a.id) w = (.ok results, w') ∧
      seen (storedAnswer w'.store a.id) =
        (calls.flatten.filterMap (writeOf w.store.content)).foldl offer
          (seen (storedAnswer w.store a.id)) := by
  induction calls generalizing w with
  | nil => exact ⟨[], w, rfl, rfl⟩
  | cons ds calls ih =>
    have hfirst := hcalls 0 (by simp)
    have hds : ∀ d ∈ ds, Valid ses w.store a (ses.clock w.ticks) d := hfirst.2
    obtain ⟨res, rows, hres, hseen⟩ :=
      storeDeltas_valid (w := { w with ticks := w.ticks + 1 }) ha hstatus hds
    have hcall : ses.saveAnswers a.id ds w = _ := saveAnswers_open ha hstatus hfirst.1
    rw [hres] at hcall
    have hrest : Deliverable ses (writeAnswers w.store rows) a (w.ticks + 1) calls := by
      intro i hi
      have hnext := hcalls (i + 1) (by simpa using hi)
      have hticks : w.ticks + 1 + i = w.ticks + (i + 1) := by omega
      rw [hticks]
      exact hnext
    obtain ⟨results, w', hresults, hseen'⟩ :=
      ih (w := { w with store := writeAnswers w.store rows, ticks := w.ticks + 1 }) ha hrest
    refine ⟨res :: results, w', ?_, ?_⟩
    · rw [List.mapM_cons, Effect.bind_run_ok hcall, Effect.bind_run_ok hresults]
      rfl
    · rw [hseen', hseen, List.flatten_cons, List.filterMap_append, List.foldl_append]
      rfl

/-! ## The stored answer of a slot -/

theorem mem_writes {c : ContentStore} {ds : List AnswerDelta} {w : Write Slot ℤ Json} :
    w ∈ ds.filterMap (writeOf c) ↔ ∃ d ∈ ds, ∃ slot, slotOf c d = some slot ∧ writeAt slot d = w := by
  simp [List.mem_filterMap, writeOf]

theorem distinct_writes {c : ContentStore} {ds : List AnswerDelta} (h : DistinctSeqs c ds) :
    Distinct (ds.filterMap (writeOf c)) := by
  intro w hw w' hw' hkey hstamp
  obtain ⟨d, hd, slot, hslot, rfl⟩ := mem_writes.1 hw
  obtain ⟨d', hd', slot', hslot', rfl⟩ := mem_writes.1 hw'
  have hkey : slot = slot' := hkey
  subst hkey
  rw [h d hd d' hd' (hslot.trans hslot'.symm) hstamp]

theorem saveAnswers_accounted {id : ℕ} {ds : List AnswerDelta} {w w' : World} {res : SaveResult}
    (h : ses.saveAnswers id ds w = (.ok res, w')) :
    Accounted w.store.content (storedAnswer w.store id) ds res.accepted res.rejected
        (storedAnswer w'.store id) ∧
      ∀ other, other ≠ id → w'.store.answersOf other = w.store.answersOf other := by
  unfold saveAnswers at h
  rw [Effect.bind_run_ok (m := ses.now) rfl] at h
  obtain ⟨a, u, hget, h⟩ := Effect.bind_eq_ok.1 h
  obtain ⟨hid, hu⟩ : a.id = id ∧ u = { w with ticks := w.ticks + 1 } := by
    unfold getAttempt at hget
    split at hget
    · rename_i a' ha'
      cases hget
      exact ⟨Table.get?_key ha', rfl⟩
    · cases hget
  subst hid
  split at h
  · cases h
  · split at h
    · cases h
    · split at h
      · obtain ⟨_, _, _, h⟩ := Effect.bind_eq_ok.1 h
        cases h
      · obtain ⟨b, hb, rfl, rfl⟩ := storeDeltas_eq_ok h
        have hstore : u.store = w.store := by rw [hu]
        rw [hstore] at hb ⊢
        obtain ⟨n, rs, hn, hrs, hacc⟩ := process_accounted (c := w.store.content)
          (fun xid qv hqv => (get?_versionsNamed.1 hqv).1) hb
        have hlinked := (linked_start
          (ses.batchContext w.store a ds (ses.clock w.ticks)) w.store).process hb
        refine ⟨?_, fun other hother => hlinked.answersOf_write hother⟩
        have hafter : storedAnswer (writeAnswers w.store b.pending.values) a.id = b.existing.get? :=
          funext (fun slot => hlinked.storedAnswer_write slot)
        have hbefore : (bySlot (w.store.answersOf a.id)).get? = storedAnswer w.store a.id :=
          funext (get?_bySlot w.store a.id)
        rw [saveResult, hafter, hn, hrs, ← hbefore, Nat.zero_add, List.nil_append]
        exact hacc

def sampleSession : ExamSession where
  scorer := sampleScorer
  validator := typeValidator
  clock := fun n => n
  sign := fun _ => ""

def sampleAttempt : Attempt where
  id := 1
  xid := "a1"
  userId := 1
  testVersionId := 1
  status := .inProgress
  expiresAt := some (seconds 3600)

def sampleStore : Store where
  content := onePage
  users := .put .empty { id := 1, xid := "u1" }
  attempts := .put .empty sampleAttempt
  attemptSections := .put .empty { attemptId := 1, sectionId := 1 }

def sampleDelta (text : String) (seq : ℤ) : AnswerDelta where
  questionVersionXid := "qv1"
  slotKey := "s1"
  response := .str text
  clientSeq := seq

theorem sampleDelta_valid (text : String) (seq : ℤ) (now : Time) :
    Valid sampleSession sampleStore sampleAttempt now (sampleDelta text seq) :=
  ⟨{ id := 1, xid := "qv1", questionId := 1, typeKey := "short_answer", slotKeys := ["s1"] },
    rfl, List.mem_cons_self, rfl, fun _ _ _ => List.not_mem_nil⟩

end IeltsHub.AutosaveConvergence
