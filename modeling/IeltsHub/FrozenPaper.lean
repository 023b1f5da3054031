import IeltsHub.AutosaveBatch
import IeltsHub.GuardedRuns
import IeltsHub.PrintedPaper
import IeltsHub.PublishedPaper
import IeltsHub.RegradeSpec
import IeltsHub.UntouchedVersions

set_option autoImplicit false

/-!
# The paper that was published

Publishing freezes the version and prints its snapshot; the questions and groups it refers to stay
drafts, and answering and scoring read them as they are now. The paper stays the printed one as
long as no edit that is let through reaches one of them, and no key fix changes what its question
is worth.
-/
namespace IeltsHub.FrozenPaper
open PyExc PyDict PyTime PyValue QtypesSchemas QtypesRegistry RowTable ContentModels ExamModels
  ExamScoring ExamScoringInputs ExamSession AutosaveBatch ScoringMarks PublishedPaper RegradeSpec
  ContentDrafts ContentFingerprint ContentTables AuthoringEdits PrintedPaper UntouchedVersions
  GuardedRuns

/-! ## What a paper refers to -/

def groupsOn (c : ContentStore) (tv : ℕ) : List ℕ :=
  (c.sections.select (fun s => s.testVersionId = tv)).flatMap (fun s =>
    (c.groups.select (fun g => g.sectionId = s.id)).map TestVersionGroup.groupVersionId)

def questionsOn (c : ContentStore) (tv : ℕ) : List ℕ :=
  (groupsOn c tv).flatMap (fun n =>
    (c.groupItems.select (fun i => i.groupVersionId = n)).map QuestionGroupItem.questionVersionId)

/-- Two stores that hold the same of a version and of all it refers to. -/
structure SamePaper (tv : ℕ) (c c' : ContentStore) : Prop where
  sections : c'.sections.select (fun s => s.testVersionId = tv) =
    c.sections.select (fun s => s.testVersionId = tv)
  groups : ∀ s ∈ c.sections.select (fun s => s.testVersionId = tv),
    c'.groups.select (fun g => g.sectionId = s.id) = c.groups.select (fun g => g.sectionId = s.id)
  groupVersions : ∀ n ∈ groupsOn c tv, c'.groupVersions.get? n = c.groupVersions.get? n
  items : ∀ n ∈ groupsOn c tv, c'.groupItems.select (fun i => i.groupVersionId = n) =
    c.groupItems.select (fun i => i.groupVersionId = n)
  questionVersions : ∀ n ∈ questionsOn c tv, c'.questionVersions.get? n = c.questionVersions.get? n
  questions : c'.questions = c.questions

section
variable {tv : ℕ} {c c' : ContentStore}

theorem SamePaper.groupsOn (h : SamePaper tv c c') : groupsOn c' tv = groupsOn c tv := by
  unfold FrozenPaper.groupsOn
  rw [h.sections]
  exact List.flatMap_congr (fun s hs => by rw [h.groups s hs])

theorem SamePaper.questionsOn (h : SamePaper tv c c') : questionsOn c' tv = questionsOn c tv := by
  unfold FrozenPaper.questionsOn
  rw [h.groupsOn]
  exact List.flatMap_congr (fun n hn => by rw [h.items n hn])

theorem SamePaper.placed (h : SamePaper tv c c') : placed c' tv = placed c tv := by
  unfold ExamScoringInputs.placed
  rw [h.sections]
  apply List.flatMap_congr
  intro s hs
  unfold placedIn
  rw [h.groups s hs]
  apply List.flatMap_congr
  intro g hg
  have hn : g.groupVersionId ∈ FrozenPaper.groupsOn c tv :=
    List.mem_flatMap.2 ⟨s, hs, List.mem_map_of_mem hg⟩
  rw [h.groupVersions _ hn]
  apply List.flatMap_congr
  intro gv hgv
  have hid : gv.id = g.groupVersionId := Table.get?_key (Option.mem_toList.1 hgv)
  rw [hid, h.items _ hn]
  apply List.flatMap_congr
  intro i hi
  have hq : i.questionVersionId ∈ FrozenPaper.questionsOn c tv :=
    List.mem_flatMap.2 ⟨_, hn, List.mem_map_of_mem hi⟩
  rw [h.questionVersions _ hq, h.questions]

theorem SamePaper.paper (h : SamePaper tv c c') : paper c' tv = paper c tv := by
  unfold PrintedPaper.paper paperRows
  rw [h.placed]

end

/-! ## What a key makes a question worth -/

def WorthSlots (scorer : Scorer) (q : QuestionVersion) (key : Obj) : Prop :=
  ∀ d, scorer.registry.defs.get? (q.typeKey, q.typeVersion) = some d →
    worth d.scoring key = .ok q.slotKeys.length

/-- So it does under the current key of every question of the paper. -/
def Priced (scorer : Scorer) (tv : ℕ) (c : ContentStore) : Prop :=
  ∀ n ∈ questionsOn c tv, ∀ q, c.questionVersions.get? n = some q →
    ∀ k ∈ c.answerKeys.rows, k.isCurrent = true → k.questionVersionId = n →
      WorthSlots scorer q k.key

section
variable {scorer : Scorer} {tv : ℕ} {c : ContentStore}

theorem mem_paperRows (h : Positions c) {p : Placed} (hp : p ∈ paperRows c tv) :
    p.questionVersion.id ∈ questionsOn c tv ∧
      c.questionVersions.get? p.questionVersion.id = some p.questionVersion := by
  rw [paperRows_eq_walk h] at hp
  obtain ⟨hs, hv, hp⟩ := mem_walk hp
  obtain ⟨_, hg, hgs, hp⟩ := mem_sectionRows hp
  obtain ⟨_, _, hgv, hi, higv, hqv, _⟩ := mem_groupRows hp
  have hid : p.item.questionVersionId = p.questionVersion.id := (Table.get?_key hqv).symm
  have hgid : p.groupVersion.id = p.group.groupVersionId := Table.get?_key hgv
  rw [hid] at hqv
  refine ⟨List.mem_flatMap.2 ⟨p.group.groupVersionId, List.mem_flatMap.2 ⟨p.testSection,
    List.mem_filter.2 ⟨hs, by simpa using hv⟩, ?_⟩, ?_⟩, hqv⟩
  · exact List.mem_map_of_mem (List.mem_filter.2 ⟨hg, by simpa using hgs⟩)
  · rw [← hid]
    exact List.mem_map_of_mem (List.mem_filter.2 ⟨hi, by simpa [hgid] using higv⟩)

theorem itemInput_eq_ok {p : Placed} {item : ItemInput} (h : p.itemInput = .ok item) :
    item.questionVersionXid = str p.questionVersion.id ∧
      item.slotKeys = p.questionVersion.slotKeys ∧ item.typeKey = p.questionVersion.typeKey ∧
      item.typeVersion = p.questionVersion.typeVersion := by
  unfold Placed.itemInput at h
  obtain ⟨rules, _, rfl⟩ := map_eq_ok.1 h
  exact ⟨rfl, rfl, rfl, rfl⟩

theorem maxPoints_of_priced (hpos : Positions c) (hpriced : Priced scorer tv c) {p : Placed}
    (hp : p ∈ paperRows c tv) {ids : List ℕ} {responses : Dict String Json} {score : ItemScore}
    (h : (p.itemInput >>= scoreOne scorer (currentKeys c ids) responses) = .ok score) :
    score.maxPoints = p.questionVersion.slotKeys.length := by
  obtain ⟨item, hitem, hscore⟩ := bind_eq_ok.1 h
  obtain ⟨hxid, hslots, htype, hversion⟩ := itemInput_eq_ok hitem
  unfold scoreOne at hscore
  rw [hxid, get?_currentKeys] at hscore
  obtain ⟨hon, hget⟩ := mem_paperRows hpos hp
  cases hk : (if p.questionVersion.id ∈ ids then currentKeyOf c p.questionVersion.id else none) with
  | none =>
    rw [hk] at hscore
    cases hscore
    rw [voidScore_maxPoints, hslots]
  | some kv =>
    rw [hk] at hscore
    split at hk
    · obtain ⟨k, hmem, hcurrent, hid, rfl⟩ := currentKeyOf_eq_some.1 hk
      obtain ⟨d, hd, hworth⟩ := worth_of_scoreItem hscore
      have hd' : scorer.registry.defs.get?
          (p.questionVersion.typeKey, p.questionVersion.typeVersion) = some d := by
        rw [← htype, ← hversion]
        exact hd
      have hpaid := hpriced _ hon _ hget k hmem hcurrent hid d hd'
      exact Except.ok.inj (hworth.symm.trans hpaid)
    · cases hk

theorem sum_of_mapM {ε α β : Type} {f : α → Except ε β} {w : β → ℚ} {n : α → ℕ} {as : List α}
    {bs : List β} (h : as.mapM f = .ok bs) (hw : ∀ a ∈ as, ∀ b, f a = .ok b → w b = n a) :
    (bs.map w).sum = ((as.map n).sum : ℕ) := by
  induction as generalizing bs with
  | nil =>
    cases h
    simp
  | cons a as ih =>
    obtain ⟨b, bs', hb, hbs, rfl⟩ := mapM_cons_eq_ok.1 h
    rw [List.map_cons, List.map_cons, List.sum_cons, List.sum_cons,
      hw a List.mem_cons_self b hb,
      ih hbs (fun a' ha' => hw a' (List.mem_cons_of_mem a ha'))]
    push_cast
    rfl

theorem maxRaw_of_priced (hpos : Positions c) (hpriced : Priced scorer tv c) {s : Store}
    (hs : s.content = c) {a : Attempt} (ha : a.testVersionId = tv) {reason : String}
    {run : ScoreRun} (h : computeRun scorer s a reason = .ok run) :
    run.maxRaw = (((paper c tv).map (fun e => e.slotKeys.length)).sum : ℕ) := by
  unfold computeRun at h
  rw [hs, ha] at h
  obtain ⟨inputs, hinputs, h⟩ := bind_eq_ok.1 h
  unfold scoringInputs at hinputs
  obtain ⟨items, hitems, hinputs⟩ := bind_eq_ok.1 hinputs
  obtain ⟨bandMap, _, hinputs⟩ := bind_eq_ok.1 hinputs
  cases hinputs
  obtain ⟨scores, hscores, _, hmax, _⟩ := scoreAttempt_eq_ok h
  have hrows : (paperRows c tv).mapM (fun p => p.itemInput >>=
      scoreOne scorer (currentKeys c ((paperRows c tv).map (fun p => p.questionVersion.id)))
        (responsesOf (s.answersOf a.id))) = .ok scores := (mapM_comp hitems).trans hscores
  rw [hmax, sum_of_mapM hrows
    (fun p hp score hscore => maxPoints_of_priced hpos hpriced hp hscore)]
  unfold paper
  rw [List.map_map]
  simp [placedEntry, Function.comp_def]

end

/-! ## What `save_answers` takes -/

section
variable {ses : ExamSession} {s : Store} {a : Attempt} {ds : List AnswerDelta} {now : Time}
  {existing : Dict (ℕ × String) AttemptAnswer} {d : AnswerDelta}

theorem judge_unknown_iff (hd : d ∈ ds) :
    (ses.batchContext s a ds now).judge existing d = .ok (.refuse (d.rejection .unknownSlot)) ↔
      ¬ ∃ qv ∈ s.content.questionVersions.rows,
        qv.xid = d.questionVersionXid ∧ d.slotKey ∈ qv.slotKeys := by
  have hnamed : d.questionVersionXid ∈ ds.map AnswerDelta.questionVersionXid :=
    List.mem_map_of_mem hd
  have hversions : (ses.batchContext s a ds now).versions = versionsNamed s.content ds := rfl
  unfold BatchContext.judge
  rw [hversions]
  cases hget : (versionsNamed s.content ds).get? d.questionVersionXid with
  | none =>
    refine iff_of_true rfl ?_
    rintro ⟨qv, hqv, hxid, _⟩
    have hsome := get?_versionsNamed.2 ⟨versionWith_eq_some.2 ⟨hqv, hxid⟩, hnamed⟩
    rw [hget] at hsome
    cases hsome
  | some qv =>
    obtain ⟨hqv, hxid⟩ := versionWith_eq_some.1 (get?_versionsNamed.1 hget).1
    dsimp only
    by_cases hslot : d.slotKey ∈ qv.slotKeys
    · rw [if_neg (not_not.2 hslot)]
      refine iff_of_false ?_ (not_not.2 ⟨qv, hqv, hxid, hslot⟩)
      intro h
      obtain ⟨why, _, h⟩ := bind_eq_ok.1 h
      have hreason : (d.rejection .unknownSlot).reason = .unknownSlot := rfl
      split at h
      · have hr := congrArg Rejection.reason (Verdict.refuse.inj (Except.ok.inj h))
        cases hr
      · split at h
        · have hr := congrArg Rejection.reason (Verdict.refuse.inj (Except.ok.inj h))
          cases hr
        · split at h
          · have hr := congrArg Rejection.reason (Verdict.refuse.inj (Except.ok.inj h))
            cases hr
          · cases h
    · rw [if_pos hslot]
      refine iff_of_true rfl ?_
      rintro ⟨qv', hqv', hxid', hslot'⟩
      have hsame : qv' = qv := List.inj_on_of_nodup_map s.content.versionXids hqv' hqv
        (hxid'.trans hxid.symm)
      exact hslot (hsame ▸ hslot')

end

/-- The answer is known to `save_answers`, and its question is one the version is scored on. -/
def Answerable (ses : ExamSession) (s : Store) (a : Attempt) (ds : List AnswerDelta) (now : Time)
    (existing : Dict (ℕ × String) AttemptAnswer) (d : AnswerDelta) : Prop :=
  (ses.batchContext s a ds now).judge existing d ≠ .ok (.refuse (d.rejection .unknownSlot)) ∧
    ∃ p ∈ paperRows s.content a.testVersionId, p.questionVersion.xid = d.questionVersionXid

theorem answerable_iff (ses : ExamSession) {s : Store} {a : Attempt} {ds : List AnswerDelta}
    {now : Time} {existing : Dict (ℕ × String) AttemptAnswer} {d : AnswerDelta} (hd : d ∈ ds)
    (hpos : Positions s.content) : Answerable ses s a ds now existing d ↔
      ∃ e ∈ paper s.content a.testVersionId, e.questionVersionXid = .str d.questionVersionXid ∧
        .str d.slotKey ∈ e.slotKeys := by
  unfold Answerable
  rw [ne_eq, judge_unknown_iff hd, not_not]
  constructor
  · rintro ⟨⟨qv, hqv, hxid, hslot⟩, p, hp, hpxid⟩
    have hrow := (Table.get?_eq_some.1 (mem_paperRows hpos hp).2).1
    have hsame : p.questionVersion = qv := List.inj_on_of_nodup_map s.content.versionXids hrow hqv
      (hpxid.trans hxid.symm)
    refine ⟨placedEntry p, List.mem_map_of_mem hp, congrArg Json.str hpxid, ?_⟩
    exact List.mem_map_of_mem (by rw [hsame]; exact hslot)
  · rintro ⟨e, he, hxid, hslot⟩
    obtain ⟨p, hp, rfl⟩ := List.mem_map.1 he
    have hrow := (Table.get?_eq_some.1 (mem_paperRows hpos hp).2).1
    have hpxid : p.questionVersion.xid = d.questionVersionXid := Json.str.inj hxid
    obtain ⟨slot, hmem, hstr⟩ := List.mem_map.1 hslot
    exact ⟨⟨p.questionVersion, hrow, hpxid, Json.str.inj hstr ▸ hmem⟩, p, hp, hpxid⟩

/-! ## Edits that reach a paper -/

/-- What an edit that is let through must leave alone: the payload and slots of a question of the
paper, the rules of a group of it and its items, and what a key makes its question worth. -/
def Meets (scorer : Scorer) (tv : ℕ) (l : Library) : Act → Prop
  | .updateQuestion id _ request => request.1.access = .ok () → id ∈ questionsOn l.content tv →
    ∀ q, l.tables.questionVersions.get? id = some q → q.draft.status ≠ .published →
      ∀ payload, request.2.payload = some payload →
        payload = q.draft.payload ∧ slotsFrom payload = .ok q.draft.slotKeys
  | .updateGroup id _ request => request.1.access = .ok () → id ∈ groupsOn l.content tv →
    ∀ g, l.tables.groupVersions.get? id = some g → g.draft.status ≠ .published →
      request.2.wordLimit.or g.draft.wordLimit = g.draft.wordLimit ∧
        request.2.optionBank.or g.draft.optionBank = g.draft.optionBank
  | .addGroupItem id r _ => r.access = .ok () → id ∉ groupsOn l.content tv
  | .fixAnswerKey id r b _ => r.access = .ok () → id ∈ questionsOn l.content tv →
    ∀ q, l.content.questionVersions.get? id = some q → WorthSlots scorer q b.key
  | _ => True

/-- The version as it was published, its paper the printed one, and every key the worth of its
slots. -/
structure Intact (scorer : Scorer) (v : TestVersionRow) (printed : List Entry) (l : Library) :
    Prop where
  stored : l.tables.testVersions.get? v.id = some v
  same : paper l.content v.id = printed
  priced : Priced scorer v.id l.content

section
variable {scorer : Scorer} {v : TestVersionRow} {tv : ℕ} {printed : List Entry} {l l' : Library}

theorem intact_of_same (h : Intact scorer v printed l) (hsame : SamePaper v.id l.content l'.content)
    (hversions : l'.tables.testVersions = l.tables.testVersions)
    (hkeys : l'.tables.answerKeys = l.tables.answerKeys) : Intact scorer v printed l' where
  stored := by
    rw [hversions]
    exact h.stored
  same := hsame.paper.trans h.same
  priced := by
    intro n hn q hq k hk hcurrent hid
    have hrows : l'.content.answerKeys.rows = l.content.answerKeys.rows := by
      change l'.tables.answerKeys.rows.map _ = l.tables.answerKeys.rows.map _
      rw [hkeys]
    rw [hsame.questionsOn] at hn
    rw [hsame.questionVersions n hn] at hq
    rw [hrows] at hk
    exact h.priced n hn q hq k hk hcurrent hid

theorem samePaper_of_untouched (h : Untouched tv l.tables l'.tables) :
    SamePaper tv l.content l'.content := by
  have hrest := h.rest
  have hsections : l'.content.sections.select (fun s => s.testVersionId = tv) =
      l.content.sections.select (fun s => s.testVersionId = tv) := by
    rw [Library.select_sections, Library.select_sections]
    exact congrArg _ h.sections
  refine ⟨hsections, ?_, ?_, ?_, ?_, ?_⟩
  · intro s hs
    rw [Library.select_sections] at hs
    obtain ⟨row, hrow, rfl⟩ := List.mem_map.1 hs
    rw [Library.select_groups, Library.select_groups]
    exact h.placements row hrow
  · intro n _
    rw [Library.get?_groupVersions, Library.get?_groupVersions, hrest]
  · intro n _
    change l'.tables.groupItems.select _ = l.tables.groupItems.select _
    rw [hrest]
  · intro n _
    rw [Library.get?_questionVersions, Library.get?_questionVersions, hrest]
  · change l'.tables.questions = l.tables.questions
    rw [hrest]

theorem intact_of_untouched (h : Intact scorer v printed l)
    (huntouched : Untouched v.id l.tables l'.tables) : Intact scorer v printed l' := by
  apply intact_of_same h (samePaper_of_untouched huntouched)
  · rw [huntouched.rest]
  · rw [huntouched.rest]

theorem required_eq_ok {missing : String} {access : Except Denied Unit} {u : Unit}
    (h : required missing access = .ok u) : access = .ok () := by
  cases access with
  | ok u => rfl
  | error d => cases d <;> cases h

theorem unpublished_eq_ok {what : String} {status : VersionStatus} {u : Unit}
    (h : unpublished what status = .ok u) : status ≠ .published := by
  intro hpublished
  unfold unpublished at h
  rw [if_pos hpublished] at h
  cases h

theorem samePaper_of_tables (hsections : l'.tables.sections = l.tables.sections)
    (hplacements : l'.tables.placements = l.tables.placements)
    (hquestions : l'.tables.questions = l.tables.questions)
    (hgroups : ∀ n ∈ groupsOn l.content tv,
      (l'.tables.groupVersions.get? n).map GroupVersionRow.read =
        (l.tables.groupVersions.get? n).map GroupVersionRow.read)
    (hitems : ∀ n ∈ groupsOn l.content tv,
      l'.tables.groupItems.select (fun i => i.groupVersionId = n) =
        l.tables.groupItems.select (fun i => i.groupVersionId = n))
    (hversions : ∀ n ∈ questionsOn l.content tv,
      (l'.tables.questionVersions.get? n).map QuestionVersionRow.read =
        (l.tables.questionVersions.get? n).map QuestionVersionRow.read) :
    SamePaper tv l.content l'.content where
  sections := by rw [Library.select_sections, Library.select_sections, hsections]
  groups := by
    intro s _
    rw [Library.select_groups, Library.select_groups, hplacements]
  groupVersions := by
    intro n hn
    rw [Library.get?_groupVersions, Library.get?_groupVersions, hgroups n hn]
  items := hitems
  questionVersions := by
    intro n hn
    rw [Library.get?_questionVersions, Library.get?_questionVersions, hversions n hn]
  questions := hquestions

/-! ### Questions -/

theorem updateQuestionVersion_eq_ok {draft d : QuestionVersionDraft} {ifMatch : Option String}
    {context : Context} {b : QuestionVersionUpdate}
    (h : updateQuestionVersion draft ifMatch (context, b) = .ok d) :
    context.access = .ok () ∧ draft.status ≠ .published ∧
      match b.payload with
      | none => d.payload = draft.payload ∧ d.slotKeys = draft.slotKeys
      | some payload => d.payload = payload ∧ slotsFrom payload = .ok d.slotKeys := by
  unfold updateQuestionVersion at h
  obtain ⟨_, haccess, h⟩ := bind_eq_ok.1 h
  obtain ⟨_, hstatus, h⟩ := bind_eq_ok.1 h
  obtain ⟨_, _, h⟩ := bind_eq_ok.1 h
  refine ⟨required_eq_ok haccess, unpublished_eq_ok hstatus, ?_⟩
  · unfold withPayload at h
    cases hpayload : b.payload with
    | none =>
      rw [hpayload] at h
      cases h
      exact ⟨rfl, rfl⟩
    | some payload =>
      rw [hpayload] at h
      obtain ⟨slotKeys, hslots, h⟩ := bind_eq_ok.1 h
      cases h
      exact ⟨rfl, hslots⟩

theorem intact_updateQuestion {id : ℕ} {ifMatch : Option String}
    {request : Context × QuestionVersionUpdate} (hi : Intact scorer v printed l)
    (ha : Meets scorer v.id l (.updateQuestion id ifMatch request))
    (h : updateQuestion l id ifMatch request = .ok l') : Intact scorer v printed l' := by
  obtain ⟨context, b⟩ := request
  unfold updateQuestion at h
  obtain ⟨q, hq, h⟩ := bind_eq_ok.1 h
  obtain ⟨d, hd, h⟩ := bind_eq_ok.1 h
  have htables := commit_eq_ok h
  have hget := found_eq_ok hq
  obtain ⟨haccess, hstatus, hpayload⟩ := updateQuestionVersion_eq_ok hd
  have hid : q.id = id := Table.get?_key hget
  have hread : id ∈ questionsOn l.content v.id → { q with draft := d }.read = q.read := by
    intro hon
    cases hb : b.payload with
    | none =>
      rw [hb] at hpayload
      unfold QuestionVersionRow.read
      rw [hpayload.1, hpayload.2]
    | some payload =>
      rw [hb] at hpayload
      obtain ⟨hp, hslots⟩ := ha haccess hon q hget hstatus payload hb
      have hsame : d.slotKeys = q.draft.slotKeys :=
        Except.ok.inj (hpayload.2.symm.trans hslots)
      unfold QuestionVersionRow.read
      rw [hpayload.1, hp, hsame]
  apply intact_of_same hi
  · apply samePaper_of_tables
    · rw [htables]
    · rw [htables]
    · rw [htables]
    · intro n _
      rw [htables]
    · intro n _
      rw [htables]
    · intro n hn
      rw [htables]
      dsimp only
      rw [Table.get?_put]
      split
      · next heq =>
        have hnid : n = id := heq.symm.trans hid
        subst hnid
        rw [hget, Option.map_some, Option.map_some, hread hn]
      · rfl
  · rw [htables]
  · rw [htables]

/-! ### Groups and their items -/

theorem updateGroupVersion_eq_ok {draft d : GroupVersionDraft} {ifMatch : Option String}
    {context : Context} {b : GroupVersionUpdate}
    (h : updateGroupVersion draft ifMatch (context, b) = .ok d) :
    context.access = .ok () ∧ draft.status ≠ .published ∧
      d.wordLimit = b.wordLimit.or draft.wordLimit ∧
      d.optionBank = b.optionBank.or draft.optionBank := by
  unfold updateGroupVersion at h
  obtain ⟨_, haccess, h⟩ := bind_eq_ok.1 h
  obtain ⟨_, hstatus, h⟩ := bind_eq_ok.1 h
  obtain ⟨_, _, h⟩ := bind_eq_ok.1 h
  obtain ⟨_, _, h⟩ := bind_eq_ok.1 h
  cases h
  exact ⟨required_eq_ok haccess, unpublished_eq_ok hstatus, rfl, rfl⟩

theorem intact_updateGroup {id : ℕ} {ifMatch : Option String}
    {request : Context × GroupVersionUpdate} (hi : Intact scorer v printed l)
    (ha : Meets scorer v.id l (.updateGroup id ifMatch request))
    (h : updateGroup l id ifMatch request = .ok l') : Intact scorer v printed l' := by
  obtain ⟨context, b⟩ := request
  unfold updateGroup at h
  obtain ⟨g, hg, h⟩ := bind_eq_ok.1 h
  obtain ⟨d, hd, h⟩ := bind_eq_ok.1 h
  have htables := commit_eq_ok h
  have hget := found_eq_ok hg
  obtain ⟨haccess, hstatus, hlimit, hbank⟩ := updateGroupVersion_eq_ok hd
  have hid : g.id = id := Table.get?_key hget
  have hread : id ∈ groupsOn l.content v.id → { g with draft := d }.read = g.read := by
    intro hon
    obtain ⟨hl, hb⟩ := ha haccess hon g hget hstatus
    unfold GroupVersionRow.read
    rw [hlimit, hbank, hl, hb]
  apply intact_of_same hi
  · apply samePaper_of_tables
    · rw [htables]
    · rw [htables]
    · rw [htables]
    · intro n hn
      rw [htables]
      dsimp only
      rw [Table.get?_put]
      split
      · next heq =>
        have hnid : n = id := heq.symm.trans hid
        subst hnid
        rw [hget, Option.map_some, Option.map_some, hread hn]
      · rfl
    · intro n _
      rw [htables]
    · intro n _
      rw [htables]
  · rw [htables]
  · rw [htables]

theorem intact_addGroupItem {id : ℕ} {r : Reach} {b : GroupItemBody}
    (hi : Intact scorer v printed l) (ha : Meets scorer v.id l (.addGroupItem id r b))
    (h : addGroupItem l id r b = .ok l') : Intact scorer v printed l' := by
  unfold addGroupItem at h
  obtain ⟨g, hg, h⟩ := bind_eq_ok.1 h
  obtain ⟨_, haccess, h⟩ := bind_eq_ok.1 h
  obtain ⟨q, _, h⟩ := bind_eq_ok.1 h
  have htables := commit_eq_ok h
  have hid : g.id = id := Table.get?_key (found_eq_ok hg)
  have hoff := ha (required_eq_ok haccess)
  apply intact_of_same hi
  · apply samePaper_of_tables
    · rw [htables]
    · rw [htables]
    · rw [htables]
    · intro n _
      rw [htables]
    · intro n hn
      rw [htables]
      apply select_put_of_ne
      · have hne : g.id ≠ n := by
          rintro rfl
          exact hoff (hid ▸ hn)
        simpa using hne
      · exact ne_of_fresh (Table.get?_nextId _)
    · intro n _
      rw [htables]
  · rw [htables]
  · rw [htables]

/-! ### Keys -/

theorem superseded_current {id : ℕ} {k : AnswerKeyRow} (h : (superseded id k).isCurrent = true) :
    superseded id k = k := by
  unfold superseded at h ⊢
  split at h
  · cases h
  · rename_i hno
    exact if_neg hno

theorem intact_fixAnswerKey {id : ℕ} {r : Reach} {b : AnswerKeyBody} {xid : String}
    (hi : Intact scorer v printed l) (ha : Meets scorer v.id l (.fixAnswerKey id r b xid))
    (h : fixAnswerKey l id r b xid = .ok l') : Intact scorer v printed l' := by
  unfold fixAnswerKey at h
  obtain ⟨q, hq, h⟩ := bind_eq_ok.1 h
  obtain ⟨_, haccess, h⟩ := bind_eq_ok.1 h
  have htables := commit_eq_ok h
  have hid : q.id = id := Table.get?_key (found_eq_ok hq)
  have hsame : SamePaper v.id l.content l'.content := by
    apply samePaper_of_tables
    · rw [htables]
    · rw [htables]
    · rw [htables]
    · intro n _
      rw [htables]
    · intro n _
      rw [htables]
    · intro n _
      rw [htables]
  refine ⟨?_, hsame.paper.trans hi.same, ?_⟩
  · rw [htables]
    exact hi.stored
  · intro n hn w hw k hk hcurrent hkid
    rw [hsame.questionsOn] at hn
    rw [hsame.questionVersions n hn] at hw
    change k ∈ l'.tables.answerKeys.rows.map _ at hk
    rw [htables] at hk
    obtain ⟨row, hrow, rfl⟩ := List.mem_map.1 hk
    rcases Table.mem_put.1 hrow with rfl | ⟨hrow, -⟩
    · have hnid : n = id := hkid.symm.trans hid
      subst hnid
      exact ha (required_eq_ok haccess) hn w hw
    · obtain ⟨old, hold, rfl⟩ := List.mem_map.1 hrow
      have hsame' := superseded_current hcurrent
      rw [hsame'] at hcurrent hkid ⊢
      exact hi.priced n hn w hw _ (List.mem_map_of_mem hold) hcurrent hkid

theorem intact_act {a : Act} (hfrozen : mutable v.draft.status ≠ .ok ())
    (hi : Intact scorer v printed l) (ha : Meets scorer v.id l a) :
    Intact scorer v printed (act l a) := by
  have hfr : Frozen v.id l.tables := ⟨v, hi.stored, hfrozen⟩
  unfold act
  cases hanswer : answer l a with
  | error e => exact hi
  | ok l' =>
    dsimp only
    cases a with
    | createSection id r b => exact intact_of_untouched hi (untouched_createSection hfr hanswer)
    | updateSection id r b => exact intact_of_untouched hi (untouched_updateSection hfr hanswer)
    | deleteSection id r => exact intact_of_untouched hi (untouched_deleteSection hfr hanswer)
    | placeGroup id r b => exact intact_of_untouched hi (untouched_placeGroup hfr hanswer)
    | reorderGroups id r xids => exact intact_of_untouched hi (untouched_reorderGroups hfr hanswer)
    | updateQuestion id ifMatch request => exact intact_updateQuestion hi ha hanswer
    | updateGroup id ifMatch request => exact intact_updateGroup hi ha hanswer
    | addGroupItem id r b => exact intact_addGroupItem hi ha hanswer
    | fixAnswerKey id r b xid => exact intact_fixAnswerKey hi ha hanswer

end

/-! ## The published paper -/

/-- The version is as it was published, its questions are the printed ones, the printed slots are
those that can be answered, and a run has the stored maximum. -/
structure Stays (ses : ExamSession) (v : TestVersionRow) (l : Library) : Prop where
  stored : l.tables.testVersions.get? v.id = some v
  printed : paper l.content v.id = readSnapshot (v.snapshot.getD .null)
  answerable : ∀ (s : Store) (a : Attempt) (ds : List AnswerDelta) (now : Time)
    (existing : Dict (ℕ × String) AttemptAnswer) (d : AnswerDelta), s.content = l.content →
      a.testVersionId = v.id → d ∈ ds → (Answerable ses s a ds now existing d ↔
        ∃ e ∈ readSnapshot (v.snapshot.getD .null),
          e.questionVersionXid = .str d.questionVersionXid ∧ .str d.slotKey ∈ e.slotKeys)
  maximum : ∀ (s : Store) (a : Attempt) (reason : String) (run : ScoreRun),
    s.content = l.content → a.testVersionId = v.id →
      computeRun ses.scorer s a reason = .ok run → run.maxRaw = v.maxRaw

theorem stays_of_intact {ses : ExamSession} {v : TestVersionRow} {l : Library}
    (hmax : v.maxRaw = ((readSnapshot (v.snapshot.getD .null)).map
      (fun e => e.slotKeys.length)).sum)
    (h : Intact ses.scorer v (readSnapshot (v.snapshot.getD .null)) l) : Stays ses v l where
  stored := h.stored
  printed := h.same
  answerable := by
    intro s a ds now existing d hs ha hd
    have hpos : Positions s.content := hs ▸ positions_content l
    rw [answerable_iff ses hd hpos, hs, ha, h.same]
  maximum := by
    intro s a reason run hs ha hrun
    rw [maxRaw_of_priced (positions_content l) h.priced hs ha hrun, h.same, hmax]

theorem intact_publish {scorer : Scorer} {l : Library} {w : TestVersionRow}
    (hpriced : Priced scorer w.id l.content) :
    Intact scorer (l.publishedRow w) (readSnapshot (buildSnapshot (l.loadComposition w)))
      (l.publish w) where
  stored := Table.get?_put_self _ (l.publishedRow w)
  same := (readSnapshot_eq_paper l w).symm
  priced := hpriced

/-- From the publishing of a version on, its paper is the printed one through every sequence of
authoring requests none of which reaches it. -/
theorem published_paper_stays (ses : ExamSession) (l : Library) (w : TestVersionRow)
    (hpriced : Priced ses.scorer w.id l.content) (acts : List Act) (l' : Library)
    (hrun : Runs (fun l a l' => act l a = l') (Meets ses.scorer w.id) (l.publish w) acts l') :
    Stays ses (l.publishedRow w) l' := by
  apply stays_of_intact
  · exact (slots_readSnapshot (l.loadComposition w)).symm
  · have hfrozen : mutable (l.publishedRow w).draft.status ≠ .ok () := by
      intro h
      cases h
    refine Runs.invariant ?_ hrun (intact_publish hpriced)
    intro s a t hs ha hstep
    rw [← hstep]
    exact intact_act hfrozen hs ha

/-! ## One blank, published -/

def sampleVersion : TestVersionRow := { id := 1, xid := "tv1" }

def sampleQuestion : QuestionVersionRow where
  id := 1
  xid := "q1"
  questionId := 1
  typeKey := "sentence_completion"
  draft :=
    { payload := Dict.ofList [("text", .str "Leave it in the \x7b\x7bs1\x7d\x7d.")]
      slotKeys := ["s1"] }

def sampleTables : Tables where
  testVersions := .put .empty sampleVersion
  sections := .put .empty { id := 1, testVersionId := 1, title := "Passage 1" }
  placements := .put .empty { id := 1, sectionId := 1, groupVersionId := 1 }
  groupVersions := .put .empty { id := 1, xid := "g1" }
  groupItems := .put .empty { id := 1, groupVersionId := 1, questionVersionId := 1 }
  questions := .put .empty { id := 1 }
  questionVersions := .put .empty sampleQuestion
  answerKeys := .put .empty
    { id := 1, xid := "k1", questionVersionId := 1, key := KeySoundness.completionKey }

def sampleLibrary : Library := ⟨sampleTables, by decide +kernel⟩

def sampleSession : ExamSession where
  clock _ := 0
  scorer := KeySoundness.completionScorer
  validator := ScoringTotality.typeValidator
  sign _ := ""

def harmlessEdits : List Act := [
  .updateQuestion 1 none ({}, { points := some 2 }),
  .fixAnswerKey 1 {}
    { key := Dict.ofList [("slots", .obj [("s1",
        .obj [("accept", .arr [.str "car park", .str "garage"])])])] } "k2"]

def renamedBlank : Act :=
  .updateQuestion 1 none ({}, { payload := some (Dict.ofList
    [("text", .str "Leave it in the \x7b\x7bs2\x7d\x7d.")]) })

theorem worth_completion (key : Obj) (hkey : worth KeySoundness.completionType.scoring key = .ok 1)
    {q : QuestionVersion} (hq : q.slotKeys.length = 1) :
    WorthSlots KeySoundness.completionScorer q key := by
  intro d hd
  have hd' : d = KeySoundness.completionType := by
    change (Dict.empty.put ("sentence_completion", 1) KeySoundness.completionType).get? _ = _ at hd
    rw [Dict.get?_put] at hd
    split at hd
    · exact (Option.some.inj hd).symm
    · cases hd
  rw [hd', hkey, hq]
  rfl

theorem sample_priced : Priced sampleSession.scorer sampleVersion.id sampleLibrary.content := by
  intro n hn q hq k hk _ _
  have hq' : q = sampleQuestion.read := by
    have hn' : n ∈ [1] := by
      have hon : questionsOn sampleLibrary.content sampleVersion.id = [1] := by decide +kernel
      rwa [hon] at hn
    rw [List.mem_singleton.1 hn'] at hq
    exact (Option.some.inj hq).symm
  have hk' : k = ⟨1, 1, KeySoundness.completionKey, Dict.empty, true⟩ := List.mem_singleton.1 hk
  rw [hq', hk']
  exact worth_completion _ (by decide +kernel) rfl

theorem published_paper_stays_under_harmless_edits :
    Stays sampleSession (sampleLibrary.publishedRow sampleVersion)
      (harmlessEdits.foldl act (sampleLibrary.publish sampleVersion)) := by
  refine published_paper_stays sampleSession sampleLibrary sampleVersion sample_priced
    harmlessEdits _ (.next ?_ rfl (.next ?_ rfl (.refl _)))
  · intro _ _ q _ _ payload hpayload
    cases hpayload
  · intro _ _ q hq
    exact worth_completion _ (by decide +kernel) (by
      have hlen : (((act (sampleLibrary.publish sampleVersion)
        (.updateQuestion 1 none ({}, { points := some 2 }))).content.questionVersions.get? 1).map
          (fun q => q.slotKeys.length)) = some 1 := by decide +kernel
      rw [hq] at hlen
      exact Option.some.inj hlen)

/-- The blank of a published paper is renamed: the edit is let through, and the printed slot is no
longer one of the paper. -/
theorem published_blank_is_renamed :
    (answer (sampleLibrary.publish sampleVersion) renamedBlank).isOk = true ∧
      ¬ Stays sampleSession (sampleLibrary.publishedRow sampleVersion)
        (act (sampleLibrary.publish sampleVersion) renamedBlank) := by
  constructor
  · decide +kernel
  · intro h
    have hprinted := h.printed
    revert hprinted
    decide +kernel

end IeltsHub.FrozenPaper
