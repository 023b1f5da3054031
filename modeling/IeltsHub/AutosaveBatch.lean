import IeltsHub.ExamSession
import IeltsHub.LatestWins

set_option autoImplicit false

/-!
# One autosave batch

What a batch does to the stored answers: every delta is accepted and rewrites the row of its
slot, or is refused and rewrites nothing; what was accepted is what the flush stores.
-/
namespace IeltsHub.AutosaveBatch
open PyExc PyDict PyTime RowTable RaisingState ContentModels ExamModels ExamSession

abbrev Slot := ℕ × String

def storedAnswer (s : Store) (attemptId : ℕ) (slot : Slot) : Option AttemptAnswer :=
  s.answers.get? (attemptId, slot.1, slot.2)

def versionWith (c : ContentStore) (xid : String) : Option QuestionVersion :=
  c.questionVersions.rows.find? (fun qv => qv.xid = xid)

def slotOf (c : ContentStore) (d : AnswerDelta) : Option Slot :=
  (versionWith c d.questionVersionXid).map (fun qv => (qv.id, d.slotKey))

/-- Every delta in turn: accepted, its slot then holding its answer and its sequence number, or
refused, named, and no row changed. The count is of the accepted, the list of the refused. -/
inductive Accounted (c : ContentStore) : (Slot → Option AttemptAnswer) → List AnswerDelta → ℕ →
    List Rejection → (Slot → Option AttemptAnswer) → Prop where
  | nil (rows : Slot → Option AttemptAnswer) : Accounted c rows [] 0 [] rows
  | accepted {rows rows' : Slot → Option AttemptAnswer} {d : AnswerDelta} {ds : List AnswerDelta}
      {n : ℕ} {rs : List Rejection} (slot : Slot) (row : AttemptAnswer)
      (of : slotOf c d = some slot) (response : row.response = d.response)
      (seq : row.clientSeq = some d.clientSeq)
      (rest : Accounted c (Function.update rows slot (some row)) ds n rs rows') :
      Accounted c rows (d :: ds) (n + 1) rs rows'
  | refused {rows rows' : Slot → Option AttemptAnswer} {d : AnswerDelta} {ds : List AnswerDelta}
      {n : ℕ} {rs : List Rejection} (r : Rejection)
      (names : r.questionVersionXid = d.questionVersionXid ∧ r.slotKey = d.slotKey)
      (rest : Accounted c rows ds n rs rows') : Accounted c rows (d :: ds) n (r :: rs) rows'

/-! ## The verdict on one delta -/

variable {ctx : BatchContext} {b b' : Batch} {d : AnswerDelta}

theorem judge_refuse {existing : Dict Slot AttemptAnswer} {r : Rejection}
    (h : ctx.judge existing d = .ok (.refuse r)) :
    r.questionVersionXid = d.questionVersionXid ∧ r.slotKey = d.slotKey := by
  unfold BatchContext.judge at h
  split at h
  · cases h
    exact ⟨rfl, rfl⟩
  · split at h
    · cases h
      exact ⟨rfl, rfl⟩
    · obtain ⟨why, _, h⟩ := bind_eq_ok.1 h
      split at h
      · cases h
        exact ⟨rfl, rfl⟩
      · split at h
        · cases h
          exact ⟨rfl, rfl⟩
        · split at h
          · cases h
            exact ⟨rfl, rfl⟩
          · cases h

theorem judge_accept {existing : Dict Slot AttemptAnswer} {qv : QuestionVersion}
    (h : ctx.judge existing d = .ok (.accept qv)) :
    ctx.versions.get? d.questionVersionXid = some qv ∧ d.slotKey ∈ qv.slotKeys ∧
      isStale (existing.get? (qv.id, d.slotKey)) d = false := by
  unfold BatchContext.judge at h
  split at h
  · cases h
  · rename_i qv' hqv
    split at h
    · cases h
    · rename_i hslot
      obtain ⟨why, _, h⟩ := bind_eq_ok.1 h
      split at h
      · cases h
      · split at h
        · cases h
        · split at h
          · cases h
          · rename_i hstale
            cases h
            exact ⟨hqv, by simpa using hslot, by simpa using hstale⟩

theorem judge_accept_open {existing : Dict Slot AttemptAnswer} {qv : QuestionVersion}
    (h : ctx.judge existing d = .ok (.accept qv)) : ctx.sectionExpired qv = false := by
  unfold BatchContext.judge at h
  split at h
  · cases h
  · split at h
    · cases h
    · obtain ⟨why, _, h⟩ := bind_eq_ok.1 h
      split at h
      · cases h
      · split at h
        · cases h
        · next hopen =>
          split at h
          · cases h
          · cases h
            simpa using hopen

def Batch.accept (ctx : BatchContext) (b : Batch) (d : AnswerDelta) (qv : QuestionVersion) : Batch :=
  let slot := (qv.id, d.slotKey)
  let row := ctx.answerRow qv d (b.existing.get? slot)
  { b with
    existing := b.existing.put slot row, pending := b.pending.put slot row
    accepted := b.accepted + 1, lastSeq := max b.lastSeq d.clientSeq }

def Batch.refuse (b : Batch) (r : Rejection) : Batch := { b with rejected := b.rejected ++ [r] }

theorem step_eq_ok : ctx.step b d = .ok b' ↔
    (∃ r, ctx.judge b.existing d = .ok (.refuse r) ∧ b' = Batch.refuse b r) ∨
      (∃ qv, ctx.judge b.existing d = .ok (.accept qv) ∧ b' = Batch.accept ctx b d qv) := by
  unfold BatchContext.step
  rw [bind_eq_ok]
  constructor
  · rintro ⟨v, hv, h⟩
    cases v with
    | refuse r =>
      cases h
      exact .inl ⟨r, hv, rfl⟩
    | accept qv =>
      cases h
      exact .inr ⟨qv, hv, rfl⟩
  · rintro (⟨r, hr, rfl⟩ | ⟨qv, hqv, rfl⟩)
    · exact ⟨_, hr, rfl⟩
    · exact ⟨_, hqv, rfl⟩

@[simp] theorem answerRow_response (qv : QuestionVersion) (row : Option AttemptAnswer) :
    (ctx.answerRow qv d row).response = d.response := by
  cases row <;> rfl

@[simp] theorem answerRow_clientSeq (qv : QuestionVersion) (row : Option AttemptAnswer) :
    (ctx.answerRow qv d row).clientSeq = some d.clientSeq := by
  cases row <;> rfl

theorem get?_accept (ctx : BatchContext) (b : Batch) (d : AnswerDelta) (qv : QuestionVersion) :
    (Batch.accept ctx b d qv).existing.get? = Function.update b.existing.get? (qv.id, d.slotKey)
      (some (ctx.answerRow qv d (b.existing.get? (qv.id, d.slotKey)))) := by
  funext slot
  rw [Batch.accept, Dict.get?_put, Function.update_apply]
  simp only [eq_comm]

/-! ## What a batch leaves to write -/

/-- The batch sees the rows it started from under those it is about to write, and every row
stands under its own slot. -/
structure Linked (ctx : BatchContext) (rows : Slot → Option AttemptAnswer) (b : Batch) : Prop where
  existing : ∀ slot, b.existing.get? slot = (b.pending.get? slot).or (rows slot)
  keyed : ∀ slot row, b.existing.get? slot = some row → row.key = (ctx.attemptId, slot.1, slot.2)

theorem answerRow_key {qv : QuestionVersion} {row : Option AttemptAnswer}
    (h : ∀ r ∈ row, r.key = (ctx.attemptId, qv.id, d.slotKey)) :
    (ctx.answerRow qv d row).key = (ctx.attemptId, qv.id, d.slotKey) := by
  cases row with
  | none => rfl
  | some r => exact h r rfl

theorem Linked.step {rows : Slot → Option AttemptAnswer} (hb : Linked ctx rows b)
    (h : ctx.step b d = .ok b') : Linked ctx rows b' := by
  rcases step_eq_ok.1 h with ⟨r, _, rfl⟩ | ⟨qv, _, rfl⟩
  · exact ⟨hb.existing, hb.keyed⟩
  · have hkey : (ctx.answerRow qv d (b.existing.get? (qv.id, d.slotKey))).key =
        (ctx.attemptId, qv.id, d.slotKey) :=
      answerRow_key (fun r hr => hb.keyed (qv.id, d.slotKey) r hr)
    refine ⟨fun slot => ?_, fun slot row hrow => ?_⟩
    · simp only [Batch.accept, Dict.get?_put]
      split
      · rfl
      · exact hb.existing slot
    · simp only [Batch.accept, Dict.get?_put] at hrow
      split at hrow
      · rename_i hslot
        cases hrow
        rw [hkey, ← hslot]
      · exact hb.keyed slot row hrow

theorem Linked.process {rows : Slot → Option AttemptAnswer} {ds : List AnswerDelta}
    (hb : Linked ctx rows b) (h : ctx.process b ds = .ok b') : Linked ctx rows b' :=
  foldlM_invariant (Linked ctx rows) h hb (fun _ hx _ _ _ hy => hx.step hy)

theorem process_accounted {c : ContentStore}
    (hc : ∀ xid qv, ctx.versions.get? xid = some qv → versionWith c xid = some qv)
    {ds : List AnswerDelta} (h : ctx.process b ds = .ok b') :
    ∃ n rs, b'.accepted = b.accepted + n ∧ b'.rejected = b.rejected ++ rs ∧
      Accounted c b.existing.get? ds n rs b'.existing.get? := by
  unfold BatchContext.process at h
  induction ds generalizing b with
  | nil =>
    cases h
    exact ⟨0, [], rfl, by simp, .nil _⟩
  | cons d ds ih =>
    rw [List.foldlM_cons] at h
    obtain ⟨u, hu, h⟩ := bind_eq_ok.1 h
    obtain ⟨n, rs, hn, hrs, hacc⟩ := ih h
    rcases step_eq_ok.1 hu with ⟨r, hr, rfl⟩ | ⟨qv, hqv, rfl⟩
    · refine ⟨n, r :: rs, hn, ?_, .refused r (judge_refuse hr) hacc⟩
      rw [hrs, Batch.refuse, List.append_assoc]
      rfl
    · refine ⟨n + 1, rs, ?_, hrs, ?_⟩
      · have hone : (Batch.accept ctx b d qv).accepted = b.accepted + 1 := rfl
        omega
      · have hslot : slotOf c d = some (qv.id, d.slotKey) := by
          rw [slotOf, hc _ _ (judge_accept hqv).1]
          rfl
        refine .accepted (qv.id, d.slotKey)
          (ctx.answerRow qv d (b.existing.get? (qv.id, d.slotKey))) hslot (by simp) (by simp) ?_
        rw [← get?_accept]
        exact hacc

/-! ## The question versions a batch names -/

theorem versionWith_eq_some {c : ContentStore} {xid : String} {qv : QuestionVersion} :
    versionWith c xid = some qv ↔ qv ∈ c.questionVersions.rows ∧ qv.xid = xid := by
  constructor
  · intro h
    have hx := List.find?_some h
    exact ⟨List.mem_of_find?_eq_some h, by simpa using hx⟩
  · rintro ⟨hqv, hx⟩
    cases hw : versionWith c xid with
    | none => simpa [hx] using List.find?_eq_none.1 hw qv hqv
    | some qv' =>
      have hx' := List.find?_some hw
      rw [List.inj_on_of_nodup_map c.versionXids (List.mem_of_find?_eq_some hw) hqv
        ((by simpa using hx' : qv'.xid = xid).trans hx.symm)]

theorem get?_versionsNamed {c : ContentStore} {ds : List AnswerDelta} {xid : String}
    {qv : QuestionVersion} : (versionsNamed c ds).get? xid = some qv ↔
      versionWith c xid = some qv ∧ xid ∈ ds.map AnswerDelta.questionVersionXid := by
  have hmem : ∀ x v, (x, v) ∈ (c.questionVersions.select
      (fun qv => qv.xid ∈ ds.map AnswerDelta.questionVersionXid)).map (fun qv => (qv.xid, qv)) ↔
        versionWith c x = some v ∧ x ∈ ds.map AnswerDelta.questionVersionXid := by
    intro x v
    rw [List.mem_map, versionWith_eq_some]
    constructor
    · rintro ⟨v, hv, h⟩
      cases h
      have hv := List.mem_filter.1 hv
      exact ⟨⟨hv.1, rfl⟩, of_decide_eq_true hv.2⟩
    · rintro ⟨⟨hv, rfl⟩, hx⟩
      exact ⟨v, List.mem_filter.2 ⟨hv, decide_eq_true hx⟩, rfl⟩
  rw [versionsNamed, Dict.get?_ofList_eq_some, hmem]
  intro x v v' hv hv'
  rw [hmem] at hv hv'
  exact Option.some.inj (hv.1.symm.trans hv'.1)

/-! ## The rows before and after -/

theorem get?_bySlot (s : Store) (attemptId : ℕ) (slot : Slot) :
    (bySlot (s.answersOf attemptId)).get? slot = storedAnswer s attemptId slot := by
  have hmem : ∀ slot row, (slot, row) ∈ (s.answersOf attemptId).map
      (fun r => ((r.questionVersionId, r.slotKey), r)) ↔ storedAnswer s attemptId slot = some row := by
    intro slot row
    unfold storedAnswer Store.answersOf Table.select
    rw [Table.get?_eq_some, List.mem_map]
    constructor
    · rintro ⟨r, hr, h⟩
      cases h
      have hr := List.mem_filter.1 hr
      refine ⟨hr.1, ?_⟩
      rw [← of_decide_eq_true hr.2]
      rfl
    · rintro ⟨hrow, hkey⟩
      obtain ⟨q, k⟩ := slot
      simp only [AttemptAnswer.key, Prod.mk.injEq] at hkey
      refine ⟨row, List.mem_filter.2 ⟨hrow, by simp [hkey.1]⟩, ?_⟩
      rw [hkey.2.1, hkey.2.2]
  apply Option.ext
  intro row
  rw [bySlot, Dict.get?_ofList_eq_some, hmem]
  intro slot v w hv hw
  rw [hmem] at hv hw
  exact Option.some.inj (hv.symm.trans hw)

theorem linked_start (ctx : BatchContext) (s : Store) :
    Linked ctx (storedAnswer s ctx.attemptId) { existing := bySlot (s.answersOf ctx.attemptId) } := by
  refine ⟨fun slot => ?_, fun slot row hrow => ?_⟩
  · rw [get?_bySlot]
    rfl
  · rw [get?_bySlot] at hrow
    exact Table.get?_key hrow

def writeAnswers (s : Store) (rows : List AttemptAnswer) : Store :=
  { s with answers := rows.foldl (fun t r => t.put r) s.answers }

theorem Linked.pending_keys {rows : Slot → Option AttemptAnswer} (hb : Linked ctx rows b) :
    b.pending.values.map AttemptAnswer.key =
      b.pending.keys.map (fun slot => (ctx.attemptId, slot.1, slot.2)) := by
  unfold Dict.values Dict.keys
  rw [List.map_map, List.map_map]
  refine List.map_congr_left (fun e he => ?_)
  have hp : b.pending.get? e.1 = some e.2 := Dict.get?_eq_some.2 he
  exact hb.keyed e.1 e.2 (by rw [hb.existing, hp]; rfl)

theorem Linked.attemptId_pending {rows : Slot → Option AttemptAnswer} (hb : Linked ctx rows b) :
    ∀ r ∈ b.pending.values, r.attemptId = ctx.attemptId := by
  intro r hr
  have hk := List.mem_map_of_mem (f := AttemptAnswer.key) hr
  rw [hb.pending_keys] at hk
  obtain ⟨slot, _, hslot⟩ := List.mem_map.1 hk
  exact (congrArg Prod.fst hslot).symm

theorem Linked.storedAnswer_write {s : Store} (hb : Linked ctx (storedAnswer s ctx.attemptId) b)
    (slot : Slot) :
    storedAnswer (writeAnswers s b.pending.values) ctx.attemptId slot = b.existing.get? slot := by
  unfold storedAnswer writeAnswers
  rw [hb.existing]
  have hinj : Function.Injective (fun slot : Slot => (ctx.attemptId, slot.1, slot.2)) := by
    intro x y h
    simpa [Prod.ext_iff] using h
  cases hp : b.pending.get? slot with
  | some row =>
    have hkey : row.key = (ctx.attemptId, slot.1, slot.2) :=
      hb.keyed slot row (by rw [hb.existing, hp]; rfl)
    rw [← hkey]
    refine Table.get?_foldl_put_of_mem ?_ ?_
    · rw [hb.pending_keys]
      exact b.pending.keys_nodup.map hinj
    · exact List.mem_map.2 ⟨_, Dict.get?_eq_some.1 hp, rfl⟩
  | none =>
    refine Table.get?_foldl_put_of_not_mem ?_
    rw [hb.pending_keys]
    intro hm
    obtain ⟨x, hx, h⟩ := List.mem_map.1 hm
    exact Dict.get?_eq_none.1 hp (hinj h ▸ hx)

theorem Linked.answersOf_write {s : Store} (hb : Linked ctx (storedAnswer s ctx.attemptId) b)
    {other : ℕ} (h : other ≠ ctx.attemptId) :
    (writeAnswers s b.pending.values).answersOf other = s.answersOf other := by
  have hrows := hb.attemptId_pending
  refine Table.select_foldl_put (fun r hr => ?_) (fun x r hr hx => ?_)
  · rw [decide_eq_false_iff_not, hrows r hr]
    exact fun q => h q.symm
  · have hx : x.attemptId = r.attemptId := congrArg Prod.fst hx
    rw [decide_eq_false_iff_not, hx, hrows r hr]
    exact fun q => h q.symm

/-! ## A call that returns -/

theorem storeDeltas_eq_ok {ses : ExamSession} {a : Attempt} {ds : List AnswerDelta} {now : Time}
    {w w' : World} {res : SaveResult} (h : ses.storeDeltas a ds now w = (.ok res, w')) :
    ∃ batch, (ses.batchContext w.store a ds now).process
        { existing := bySlot (w.store.answersOf a.id) } ds = .ok batch ∧
      res = saveResult a now batch ∧
      w' = { w with store := writeAnswers w.store batch.pending.values } := by
  unfold storeDeltas at h
  rw [Effect.gets_bind_run] at h
  obtain ⟨batch, u, hbatch, h⟩ := Effect.bind_eq_ok.1 h
  simp only [Effect.lift_run, Prod.mk.injEq] at hbatch
  obtain ⟨hbatch, rfl⟩ := hbatch
  obtain ⟨_, u, hflush, h⟩ := Effect.bind_eq_ok.1 h
  simp only [Effect.pure_run, Prod.mk.injEq, Except.ok.injEq] at h
  obtain ⟨hres, rfl⟩ := h
  refine ⟨batch, hbatch, hres.symm, ?_⟩
  unfold flushAnswers at hflush
  split at hflush
  · split at hflush
    · rename_i hnil
      cases hflush
      rw [hnil]
      rfl
    · cases hflush
  · cases hflush
    rfl

end IeltsHub.AutosaveBatch
