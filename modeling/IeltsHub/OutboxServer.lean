import IeltsHub.AutosaveConvergence
import IeltsHub.AnswerOutbox

set_option autoImplicit false

/-!
# The server a device sees

A batch `save_answers` stores is one the device's view of the server stores: the same slots keep
the same answers under the same numbers, and the same slots are named as refused. What the server
declines on its merits is decided before the stored rows are looked at.
-/
namespace IeltsHub.OutboxServer
open PyExc PyValue PyDict LatestWins ContentModels ExamModels ExamSession AutosaveBatch
  AutosaveConvergence AnswerOutbox

def Reason.text : Reason → String
  | .unknownSlot => "unknown_slot"
  | .schemaInvalid => "schema_invalid"
  | .sectionExpired => "section_expired"
  | .staleSeq => "stale_seq"

def deltaOf (d : AnswerDelta) : Delta :=
  ⟨d.questionVersionXid, d.slotKey, d.response, d.clientSeq⟩

def answerOf (d : Delta) : AnswerDelta where
  questionVersionXid := d.questionVersionXid
  slotKey := d.slotKey
  response := d.response
  clientSeq := d.clientSeq

def view (c : ContentStore) (rows : AutosaveBatch.Slot → Option AttemptAnswer) :
    Registers (String × String) ℤ Json := fun k =>
  (versionWith c k.1).bind (fun qv => seen rows (qv.id, k.2))

def meritsOf (ctx : BatchContext) (d : Delta) : Option String :=
  match ctx.judge Dict.empty (answerOf d) with
  | .ok (.refuse r) => some (Reason.text r.reason)
  | _ => none

variable {ctx : BatchContext} {d : AnswerDelta}

theorem judge_eq (existing : Dict AutosaveBatch.Slot AttemptAnswer) :
    ctx.judge existing d = match ctx.judge Dict.empty d with
      | .ok (.accept qv) => if isStale (existing.get? (qv.id, d.slotKey)) d then
          .ok (.refuse (d.rejection .staleSeq)) else .ok (.accept qv)
      | v => v := by
  unfold BatchContext.judge
  cases ctx.versions.get? d.questionVersionXid with
  | none => rfl
  | some qv =>
    by_cases hslot : d.slotKey ∉ qv.slotKeys
    · simp only [if_pos hslot]
    · simp only [if_neg hslot]
      cases ctx.scorer.validateResponse ctx.validator qv.typeKey qv.typeVersion d.response with
      | error e => rfl
      | ok why =>
        simp only [bind, Except.bind]
        cases why.filter (· ≠ "") with
        | some text => rfl
        | none =>
          by_cases hexpired : ctx.sectionExpired qv = true
          · simp only [if_pos hexpired]
          · simp only [if_neg hexpired, Dict.get?_empty, isStale, Option.bind_none,
              Bool.false_eq_true, if_false]

/-- The device's server and the batch hold the same answers and name the same slots. -/
structure Mirrors (c : ContentStore) (acc : Server × List AnswerOutbox.Rejection) (b : Batch) :
    Prop where
  answers : acc.1.answers = view c b.existing.get?
  rejected : acc.2.map (fun r => (r.questionVersionXid, r.slotKey)) =
    b.rejected.map (fun r => (r.questionVersionXid, r.slotKey))

theorem version_inj {c : ContentStore} {x y : String} {v w : QuestionVersion}
    (hv : versionWith c x = some v) (hw : versionWith c y = some w) (h : v.id = w.id) : x = y := by
  obtain ⟨hvmem, rfl⟩ := versionWith_eq_some.1 hv
  obtain ⟨hwmem, rfl⟩ := versionWith_eq_some.1 hw
  rw [List.inj_on_of_nodup_map c.questionVersions.nodup hvmem hwmem h]

theorem view_update {c : ContentStore} {rows : AutosaveBatch.Slot → Option AttemptAnswer}
    {qv : QuestionVersion} {row : AttemptAnswer}
    (hqv : versionWith c d.questionVersionXid = some qv) (hresponse : row.response = d.response)
    (hseq : row.clientSeq = some d.clientSeq) :
    view c (Function.update rows (qv.id, d.slotKey) (some row)) =
      Function.update (view c rows) (deltaOf d).slot (some (d.clientSeq, d.response)) := by
  funext k
  unfold view
  rw [seen_update rows (qv.id, d.slotKey) row d hresponse hseq, Function.update_apply]
  by_cases hk : k = (deltaOf d).slot
  · rw [if_pos hk, hk]
    change (versionWith c d.questionVersionXid).bind _ = _
    rw [hqv]
    exact Function.update_self (qv.id, d.slotKey) _ _
  · rw [if_neg hk]
    cases hv : versionWith c k.1 with
    | none => rfl
    | some v =>
      rw [Option.bind_some, Option.bind_some, Function.update_of_ne]
      intro hslot
      have hid : v.id = qv.id := congrArg Prod.fst hslot
      have hkey : k.2 = d.slotKey := congrArg Prod.snd hslot
      exact hk (Prod.ext (version_inj hv hqv hid) hkey)

theorem stale_view {c : ContentStore} {rows : AutosaveBatch.Slot → Option AttemptAnswer}
    {qv : QuestionVersion} (hqv : versionWith c d.questionVersionXid = some qv) :
    Stale (view c rows) (AnswerOutbox.writeOf (deltaOf d)) ↔
      isStale (rows (qv.id, d.slotKey)) d = true := by
  rw [isStale_iff]
  have hview : view c rows (deltaOf d).slot = seen rows (qv.id, d.slotKey) := by
    change (versionWith c d.questionVersionXid).bind _ = _
    rw [hqv]
    rfl
  unfold Stale
  change (∃ p ∈ view c rows (deltaOf d).slot, d.clientSeq ≤ p.1) ↔ _
  rw [hview]
  rfl

theorem Mirrors.step {c : ContentStore}
    (hc : ∀ xid qv, ctx.versions.get? xid = some qv → versionWith c xid = some qv)
    {acc : Server × List AnswerOutbox.Rejection} {b b' : Batch} {r : Row} (h : Mirrors c acc b)
    (hr : r.toDelta = deltaOf d) (hstep : ctx.step b d = .ok b') :
    Mirrors c (saveOne (meritsOf ctx) acc r) b' := by
  have hanswer : ctx.judge Dict.empty (answerOf (deltaOf d)) = ctx.judge Dict.empty d := rfl
  have hname : ∀ why, (fun r : AnswerOutbox.Rejection => (r.questionVersionXid, r.slotKey))
      (r.rejection why) = (d.questionVersionXid, d.slotKey) := by
    intro why
    exact congrArg Delta.slot hr
  have hrefused : ∀ (server : Server) why (rej : ExamSession.Rejection),
      server.answers = acc.1.answers →
      (rej.questionVersionXid, rej.slotKey) = (d.questionVersionXid, d.slotKey) →
      Mirrors c (server, acc.2 ++ [r.rejection why]) (Batch.refuse b rej) := by
    intro server why rej hserver hrej
    refine ⟨hserver.trans h.answers, ?_⟩
    change (acc.2 ++ [r.rejection why]).map _ = (b.rejected ++ [rej]).map _
    rw [List.map_append, List.map_append, h.rejected]
    simp only [List.map_cons, List.map_nil, hrej]
    rw [← hname why]
  have hmerits : meritsOf ctx r.toDelta = match ctx.judge Dict.empty d with
      | .ok (.refuse rej) => some (Reason.text rej.reason)
      | _ => none := by
    unfold meritsOf
    rw [hr, hanswer]
  unfold saveOne
  rw [hmerits]
  rcases step_eq_ok.1 hstep with ⟨rej, hjudge, rfl⟩ | ⟨qv, hjudge, rfl⟩
  · have hnamed := judge_refuse hjudge
    rw [judge_eq] at hjudge
    cases hempty : ctx.judge Dict.empty d with
    | error e =>
      rw [hempty] at hjudge
      cases hjudge
    | ok v =>
      rw [hempty] at hjudge
      cases v with
      | refuse rej' => exact hrefused _ _ rej rfl (by rw [hnamed.1, hnamed.2])
      | accept qv =>
        have hqv := hc _ _ (judge_accept hempty).1
        simp only at hjudge
        split at hjudge
        · next hstale =>
          have hs : Stale acc.1.answers (AnswerOutbox.writeOf r.toDelta) := by
            rw [h.answers, hr]
            exact (stale_view hqv).2 hstale
          simp only [if_pos hs]
          exact hrefused _ _ rej rfl (by rw [hnamed.1, hnamed.2])
        · cases hjudge
  · rw [judge_eq] at hjudge
    cases hempty : ctx.judge Dict.empty d with
    | error e =>
      rw [hempty] at hjudge
      cases hjudge
    | ok v =>
      rw [hempty] at hjudge
      cases v with
      | refuse rej' => cases hjudge
      | accept qv' =>
        have hqv := hc _ _ (judge_accept hempty).1
        simp only at hjudge
        split at hjudge
        · cases hjudge
        · next hfresh =>
          cases hjudge
          have hs : ¬ Stale acc.1.answers (AnswerOutbox.writeOf r.toDelta) := by
            rw [h.answers, hr]
            exact fun hstale => hfresh ((stale_view hqv).1 hstale)
          simp only [if_neg hs]
          refine ⟨?_, h.rejected⟩
          rw [get?_accept, view_update hqv (answerRow_response _ _) (answerRow_clientSeq _ _)]
          change offer acc.1.answers (AnswerOutbox.writeOf r.toDelta) = _
          unfold offer
          rw [if_neg hs, h.answers, hr]
          rfl

theorem Mirrors.process {c : ContentStore}
    (hc : ∀ xid qv, ctx.versions.get? xid = some qv → versionWith c xid = some qv)
    {ds : List AnswerDelta} {acc : Server × List AnswerOutbox.Rejection} {b b' : Batch}
    {rows : List Row} (h : Mirrors c acc b) (hrows : rows.map Row.toDelta = ds.map deltaOf)
    (hprocess : ctx.process b ds = .ok b') :
    Mirrors c (rows.foldl (saveOne (meritsOf ctx)) acc) b' := by
  unfold BatchContext.process at hprocess
  induction ds generalizing acc b rows with
  | nil =>
    have hnil : rows = [] := List.map_eq_nil_iff.1 hrows
    cases hprocess
    rw [hnil]
    exact h
  | cons d ds ih =>
    obtain ⟨r, rows, rfl, hr, hrest⟩ := List.map_eq_cons_iff.1 hrows
    rw [List.foldlM_cons] at hprocess
    obtain ⟨u, hu, hprocess⟩ := bind_eq_ok.1 hprocess
    rw [List.foldl_cons]
    exact ih (h.step hc hr hu) hrest hprocess

/-- A batch the service stores, the device's server stores, for some merits. -/
theorem storeDeltas_mirrored {ses : ExamSession} {a : Attempt} {ds : List AnswerDelta}
    {now : PyTime.Time} {w w' : World} {res : SaveResult} {server : Server} {rows : List Row}
    (h : ses.storeDeltas a ds now w = (.ok res, w'))
    (hserver : server.answers = view w.store.content (storedAnswer w.store a.id))
    (hrows : rows.map Row.toDelta = ds.map deltaOf) :
    ∃ merits, (AnswerOutbox.saveAnswers merits server rows).1.answers =
        view w'.store.content (storedAnswer w'.store a.id) ∧
      (AnswerOutbox.saveAnswers merits server rows).2.map
          (fun r => (r.questionVersionXid, r.slotKey)) =
        res.rejected.map (fun r => (r.questionVersionXid, r.slotKey)) := by
  obtain ⟨b, hb, rfl, rfl⟩ := storeDeltas_eq_ok h
  have hlinked := (linked_start (ses.batchContext w.store a ds now) w.store).process hb
  have hafter : storedAnswer (writeAnswers w.store b.pending.values) a.id = b.existing.get? :=
    funext (fun slot => hlinked.storedAnswer_write slot)
  have hbefore : (bySlot (w.store.answersOf a.id)).get? = storedAnswer w.store a.id :=
    funext (get?_bySlot w.store a.id)
  have hstart : Mirrors w.store.content (server, [])
      { existing := bySlot (w.store.answersOf a.id) } := ⟨by rw [hserver, ← hbefore], rfl⟩
  have hm := hstart.process (fun xid qv hqv => (get?_versionsNamed.1 hqv).1) hrows hb
  refine ⟨_, ?_, hm.rejected⟩
  rw [hafter]
  exact hm.answers

theorem storeDeltas_mirrored_sample : ∃ res w', sampleSession.storeDeltas sampleAttempt
      [sampleDelta "two" 2, sampleDelta "one" 1] 0 { store := sampleStore } = (.ok res, w') ∧
    ∃ merits, (AnswerOutbox.saveAnswers merits {}
        [⟨deltaOf (sampleDelta "two" 2), 1, none⟩,
          ⟨deltaOf (sampleDelta "one" 1), 2, none⟩]).1.answers =
      view w'.store.content (storedAnswer w'.store 1) := by
  have hvalid : ∀ d ∈ [sampleDelta "two" 2, sampleDelta "one" 1],
      Valid sampleSession sampleStore sampleAttempt 0 d := by
    intro d hd
    rcases List.mem_pair.1 hd with rfl | rfl <;> exact sampleDelta_valid _ _ 0
  obtain ⟨res, rows, h, -⟩ := @storeDeltas_valid _ _ _ { store := sampleStore } _ rfl rfl hvalid
  have hserver : (fun _ => none) = view sampleStore.content (storedAnswer sampleStore 1) := by
    funext k
    unfold view
    cases versionWith sampleStore.content k.1 <;> rfl
  obtain ⟨merits, hanswers, -⟩ := @storeDeltas_mirrored _ _ _ _ _ _ _ {}
    [⟨deltaOf (sampleDelta "two" 2), 1, none⟩, ⟨deltaOf (sampleDelta "one" 1), 2, none⟩] h hserver
    rfl
  exact ⟨res, _, h, merits, hanswers⟩

end IeltsHub.OutboxServer
