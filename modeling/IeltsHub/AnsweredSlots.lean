import IeltsHub.FrozenKeys

set_option autoImplicit false

/-!
# What counts as answered

An attempt under way tells its reader how many slots are answered; `has_response` says it of one
value, and the scorer says it by the verdict of a slot. The three are compared over the stored
answers of an attempt.
-/
namespace IeltsHub.AnsweredSlots
open PyExc PyText PyValue PyTime QtypesSchemas QtypesPrimitives QtypesRegistry RowTable
  ContentModels ExamScoring ExamModels ExamScoringInputs EqualAnswers ScoringMarks

/-! ## Resuming -/

structure ResumedAnswer where
  questionVersionXid : String
  slotKey : String
  response : Json
  clientSeq : ℤ

structure ResumeState where
  answers : List ResumedAnswer := []
  answeredCount : ℕ := 0
  lastAcceptedSeq : ℤ := 0

def resumed (c : ContentStore) (r : AttemptAnswer) : Option ResumedAnswer :=
  (c.questionVersions.get? r.questionVersionId).map (fun qv =>
    { questionVersionXid := qv.xid, slotKey := r.slotKey, response := r.response
      clientSeq := r.clientSeq.getD 0 })

/-- `response not in (None, "")`. -/
def present (response : Json) : Bool := response ≠ .null ∧ response ≠ .str ""

def resumeState (s : Store) (a : Attempt) : ResumeState :=
  if a.status = .issued ∨ a.status = .inProgress then
    let answers := (s.answersOf a.id).filterMap (resumed s.content)
    { answers
      answeredCount := (answers.filter (fun x => present x.response)).length
      lastAcceptedSeq := (answers.map ResumedAnswer.clientSeq).max?.getD 0 }
  else {}

/-! ## Three counts -/

def given (s : Store) (a : Attempt) : List AttemptAnswer :=
  (s.answersOf a.id).filter (fun r => hasResponse r.response)

def scoredSlots (run : ScoreRun) : Finset (String × String) :=
  (run.itemScores.flatMap (fun e =>
    (e.2.slots.filter (fun t => t.verdict ≠ .unanswered)).map (fun t => (e.1, t.slotKey)))).toFinset

/-- One notion of answered: the count a client is told, the slots that hold something, and the
slots the scorer does not mark unanswered. -/
def OneNotion (s : Store) (a : Attempt) (run : ScoreRun) : Prop :=
  (resumeState s a).answeredCount = (given s a).length ∧
    (given s a).length = (scoredSlots run).card

/-- Every stored answer is to a question there is: a foreign key of `attempt_answers`. -/
def Referenced (s : Store) (a : Attempt) : Prop :=
  ∀ r ∈ s.answersOf a.id, (s.content.questionVersions.get? r.questionVersionId).isSome = true

/-- Counted as present, though it holds nothing: white space, an empty list, an empty object. -/
def LeftBlank (v : Json) : Prop :=
  (∃ t, v = .str t ∧ t ≠ "" ∧ strip t = "") ∨ v = .arr [] ∨ v = .obj []

theorem leftBlank_iff {v : Json} : LeftBlank v ↔ present v = true ∧ hasResponse v = false := by
  unfold LeftBlank present
  cases v with
  | str t => simp [hasResponse]
  | arr es => simp [hasResponse]
  | obj ms => simp [hasResponse]
  | _ => simp [hasResponse]

theorem present_of_hasResponse {v : Json} (h : hasResponse v = true) : present v = true := by
  unfold present
  cases v with
  | null => cases h
  | str t =>
    have hne : t ≠ "" := by
      rintro rfl
      revert h
      decide
    simp [hne]
  | _ => rfl

variable {s : Store} {a : Attempt}

theorem resumed_responses {c : ContentStore} {rows : List AttemptAnswer}
    (h : ∀ r ∈ rows, (c.questionVersions.get? r.questionVersionId).isSome = true) :
    (rows.filterMap (resumed c)).map ResumedAnswer.response = rows.map AttemptAnswer.response := by
  induction rows with
  | nil => rfl
  | cons r rows ih =>
    obtain ⟨qv, hqv⟩ := Option.isSome_iff_exists.1 (h r List.mem_cons_self)
    have hr : resumed c r = some
        { questionVersionXid := qv.xid, slotKey := r.slotKey, response := r.response
          clientSeq := r.clientSeq.getD 0 } := by
      unfold resumed
      rw [hqv]
      rfl
    rw [List.filterMap_cons_some hr, List.map_cons, List.map_cons,
      ih (fun q hq => h q (List.mem_cons_of_mem r hq))]

theorem answeredCount_eq (hlive : a.status = .issued ∨ a.status = .inProgress)
    (hrefs : Referenced s a) : (resumeState s a).answeredCount =
      ((s.answersOf a.id).filter (fun r => present r.response)).length := by
  unfold resumeState
  rw [if_pos hlive]
  have hresponses := congrArg (fun vs => (vs.filter present).length)
    (resumed_responses (c := s.content) hrefs)
  simpa only [List.filter_map, List.length_map, Function.comp_def] using hresponses

theorem answeredCount_eq_given (hlive : a.status = .issued ∨ a.status = .inProgress)
    (hrefs : Referenced s a) : (resumeState s a).answeredCount = (given s a).length ↔
      ∀ r ∈ s.answersOf a.id, ¬ LeftBlank r.response := by
  rw [answeredCount_eq hlive hrefs]
  unfold given
  have hsub : ((s.answersOf a.id).filter (fun r => hasResponse r.response)).Sublist
      ((s.answersOf a.id).filter (fun r => present r.response)) :=
    List.monotone_filter_right _ (fun r hr => present_of_hasResponse hr)
  constructor
  · intro hlen r hr hblank
    obtain ⟨hpresent, hnothing⟩ := leftBlank_iff.1 hblank
    have hin : r ∈ (s.answersOf a.id).filter (fun r => hasResponse r.response) := by
      rw [hsub.eq_of_length hlen.symm]
      exact List.mem_filter.2 ⟨hr, hpresent⟩
    have hgiven := (List.mem_filter.1 hin).2
    rw [hnothing] at hgiven
    exact Bool.false_ne_true hgiven
  · intro h
    congr 1
    apply List.filter_congr
    intro r hr
    cases hgiven : hasResponse r.response with
    | true => exact present_of_hasResponse hgiven
    | false =>
      rw [Bool.eq_false_iff]
      intro hpresent
      exact h r hr (leftBlank_iff.2 ⟨hpresent, hgiven⟩)

/-! ## What a scored slot reads -/

def KeySlot (key : Obj) (slot : String) : Prop :=
  ∃ slots, asDict (getOr key "slots" (.obj [])) = some slots ∧ slot ∈ slots.keys

def SelectsVersion (scorer : Scorer) (c : ContentStore) (n : ℕ) : Prop :=
  ∃ qv, c.questionVersions.get? n = some qv ∧ Selects scorer qv.typeKey qv.typeVersion

def firstAnswer (s : Store) (a : Attempt) (n : ℕ) : Option AttemptAnswer :=
  (s.answersOf a.id).find? (fun r => r.questionVersionId = n ∧ r.response ≠ .null)

/-- The scorer reads this stored answer, and not as unanswered: the question is on the paper and
has a key; the slot is in the key and holds no container and no blank, or, for a selection, it is
the first that is not cleared and holds no empty list. -/
structure Read (scorer : Scorer) (s : Store) (a : Attempt) (r : AttemptAnswer) : Prop where
  stored : r ∈ s.answersOf a.id
  printed : r.questionVersionId ∈ ContestScoring.questionIds s.content a.testVersionId
  marked : ∃ kv, RegradeSpec.currentKeyOf s.content r.questionVersionId = some kv ∧
    (¬ SelectsVersion scorer s.content r.questionVersionId → KeySlot kv.key r.slotKey)
  told : ¬ SelectsVersion scorer s.content r.questionVersionId → asText r.response ≠ none
  picked : SelectsVersion scorer s.content r.questionVersionId →
    firstAnswer s a r.questionVersionId = some r ∧ r.response ≠ .arr []

def unkeyedSlots (c : ContentStore) (v : ℕ) : Finset (String × String) :=
  (((placed c v).filter (fun p =>
      (RegradeSpec.currentKeyOf c p.questionVersion.id).isNone)).flatMap (fun p =>
    p.questionVersion.slotKeys.map (fun slot => (str p.questionVersion.id, slot)))).toFinset

open Classical in
noncomputable def readAnswers (scorer : Scorer) (s : Store) (a : Attempt) :
    Finset AttemptAnswer :=
  (s.answersOf a.id).toFinset.filter (Read scorer s a)

/-- Nothing stored is left blank, and as many answers go unread as slots are taken for answered
that hold nothing. -/
structure ReadAlike (scorer : Scorer) (s : Store) (a : Attempt) : Prop where
  noBlank : ∀ r ∈ s.answersOf a.id, ¬ LeftBlank r.response
  balanced : ((given s a).toFinset \ readAnswers scorer s a).card =
    (readAnswers scorer s a \ (given s a).toFinset).card +
      (unkeyedSlots s.content a.testVersionId).card

/-! ## Verdicts -/

/-- The score has a slot of this name that is not unanswered. -/
def Tells (slots : List SlotScore) (slot : String) : Prop :=
  ∃ t ∈ slots, t.verdict ≠ .unanswered ∧ t.slotKey = slot

theorem gradeChoice_unanswered {spec : ScoringSpec} {options : List BankOption} {perSlot : ℚ}
    {slotKey : String} {raw : Option String} {accepted : List String} :
    (gradeChoice spec options perSlot slotKey raw accepted).verdict = .unanswered ↔
      raw = none := by
  unfold gradeChoice
  dsimp only
  cases raw with
  | none => simp
  | some r =>
    dsimp only
    split
    · simp
    · split <;> simp

theorem gradeText_unanswered {spec : ScoringSpec} {perSlot : ℚ} {slotKey : String} {t : TextSlot}
    {score : SlotScore} (h : gradeText spec perSlot slotKey t = .ok score) :
    score.verdict = .unanswered ↔ t.raw = none := by
  unfold gradeText at h
  dsimp only at h
  cases hraw : t.raw with
  | none =>
    rw [hraw] at h
    cases h
    simp
  | some r =>
    rw [hraw] at h
    dsimp only at h
    split at h
    · cases h
      simp
    · obtain ⟨got, _, h⟩ := bind_eq_ok.1 h
      obtain ⟨wants, _, h⟩ := bind_eq_ok.1 h
      split at h
      · cases h
        simp
      · cases h
        simp

theorem tells_aggregate (scores : List SlotScore) (spec : ScoringSpec) (slot : String) :
    Tells (aggregate ⟨scores⟩ spec).slots slot ↔ Tells scores slot := by
  by_cases hall : AllOrNothing spec
  · rw [aggregate_of_all hall]
    have hkept : ∀ i, ∀ t ∈ scores,
        ((collapsed (ItemScore.mk scores).maxPoints (allCorrect scores) i t).verdict ≠ .unanswered ↔
          t.verdict ≠ .unanswered) := by
      intro i t ht
      unfold collapsed
      dsimp only
      cases hc : allCorrect scores with
      | true =>
        have hcorrect := List.all_eq_true.1 hc t ht
        simp_all
      | false => simp
    constructor
    · rintro ⟨u, hu, hverdict, hslot⟩
      obtain ⟨i, hi, rfl⟩ := List.mem_mapIdx.1 hu
      have ht := List.getElem_mem hi
      exact ⟨scores[i], ht, (hkept i _ ht).1 hverdict, hslot⟩
    · rintro ⟨t, ht, hverdict, hslot⟩
      obtain ⟨i, hi, rfl⟩ := List.getElem_of_mem ht
      exact ⟨_, List.mem_mapIdx.2 ⟨i, hi, rfl⟩, (hkept i _ ht).2 hverdict, hslot⟩
  · rw [aggregate_of_not hall]

theorem tells_of_forall {entries : List (String × Json)} {scores : List SlotScore}
    {f : String → Option String}
    (h : List.Forall₂ (fun slot t => t.slotKey = slot.1 ∧
      (t.verdict = .unanswered ↔ f slot.1 = none)) entries scores) (slot : String) :
    Tells scores slot ↔ slot ∈ entries.map Prod.fst ∧ f slot ≠ none := by
  induction h with
  | nil => simp [Tells]
  | @cons e t es ts ht _ ih =>
    have hcons : Tells (t :: ts) slot ↔
        (t.verdict ≠ .unanswered ∧ t.slotKey = slot) ∨ Tells ts slot := by
      unfold Tells
      simp only [List.mem_cons, exists_eq_or_imp]
    rw [hcons, ih, ht.1, List.map_cons, List.mem_cons, or_and_right]
    have hfirst : t.verdict ≠ .unanswered ∧ e.1 = slot ↔ slot = e.1 ∧ f slot ≠ none := by
      constructor
      · rintro ⟨hverdict, rfl⟩
        exact ⟨rfl, fun hnone => hverdict (ht.2.2 hnone)⟩
      · rintro ⟨rfl, hsome⟩
        exact ⟨fun hverdict => hsome (ht.2.1 hverdict), rfl⟩
    rw [hfirst]

theorem tells_slotted {p : Primitive} (hp : p ≠ .setSelection) {response : Json} {key : Obj}
    {ctx : ScoringContext} {score : ItemScore} {f : String → Option String}
    (hsubmitted : ∀ slot, submittedText (responseSlots response) slot = .ok (f slot))
    (h : primitives p response key ctx = .ok score) (slot : String) :
    Tells score.slots slot ↔ KeySlot key slot ∧ f slot ≠ none := by
  have hslots : ∀ {entries : List (String × Json)}, keySlots key = .ok entries →
      (slot ∈ entries.map Prod.fst ↔ KeySlot key slot) := by
    intro entries hentries
    obtain ⟨slots, hslots, rfl⟩ := ScoringTotality.keySlots_eq_ok.1 hentries
    constructor
    · intro hmem
      exact ⟨slots, hslots, hmem⟩
    · rintro ⟨slots', hslots', hmem⟩
      have hsame : slots' = slots := Option.some.inj (hslots'.symm.trans hslots)
      subst hsame
      exact hmem
  cases p with
  | setSelection => exact absurd rfl hp
  | choicePerSlot =>
    change choicePerSlot response key ctx = .ok score at h
    unfold choicePerSlot at h
    simp only [bind_eq_ok] at h
    obtain ⟨options, _, perSlot, _, entries, hentries, scores, hscores, h⟩ := h
    cases h
    rw [tells_aggregate, ← hslots hentries]
    apply tells_of_forall
    refine (mapM_eq_ok.1 hscores).imp ?_
    intro e t ht
    unfold choiceSlot at ht
    simp only [bind_eq_ok, hsubmitted] at ht
    obtain ⟨raw, hraw, spec, _, accepted, _, ht⟩ := ht
    cases hraw
    cases ht
    exact ⟨(graded_gradeChoice _ _ _ _ _ _).slotKey_eq, gradeChoice_unanswered⟩
  | textPerSlot =>
    change textPerSlot response key ctx = .ok score at h
    unfold textPerSlot at h
    simp only [bind_eq_ok] at h
    obtain ⟨perSlot, _, entries, hentries, scores, hscores, h⟩ := h
    cases h
    rw [tells_aggregate, ← hslots hentries]
    apply tells_of_forall
    refine (mapM_eq_ok.1 hscores).imp ?_
    intro e t ht
    unfold textSlot readTextSlot at ht
    simp only [bind_eq_ok, hsubmitted] at ht
    obtain ⟨read, ⟨raw, hraw, spec, _, accepted, _, chain, _, limit, _, hread⟩, ht⟩ := ht
    cases hraw
    cases hread
    exact ⟨(graded_gradeText ht).slotKey_eq, gradeText_unanswered ht⟩

theorem firstSelection_eq_nil {vs : List Json} : firstSelection vs = [] ↔
    ∀ v, vs.find? (fun v => v ≠ .null) = some v → v = .arr [] := by
  induction vs with
  | nil => simp [firstSelection]
  | cons v vs ih =>
    cases v with
    | null => simpa [firstSelection] using ih
    | arr es => simp [firstSelection]
    | _ => simp [firstSelection]

theorem gradeSelection_unanswered {spec : ScoringSpec} {correct selected : List String}
    {expected : ℤ} {perCorrect : ℚ} :
    (gradeSelection spec correct expected perCorrect selected).verdict = .unanswered ↔
      selected = [] := by
  have hnil : foldedSet selected = [] ↔ selected = [] := by simp [foldedSet]
  unfold gradeSelection
  dsimp only
  split
  · rename_i h
    simp [hnil.1 h]
  · rename_i h
    have hne : selected ≠ [] := fun hs => h (hnil.2 hs)
    split
    · simp [hne]
    · dsimp only
      split
      · simp [hne]
      · split <;> simp [hne]

theorem tells_selection {response : Json} {key : Obj} {ctx : ScoringContext} {score : ItemScore}
    {selected : List String} (hselected : selection response = .ok selected)
    (h : setSelection response key ctx = .ok score) (slot : String) :
    Tells score.slots slot ↔ slot = "selection" ∧ selected ≠ [] := by
  obtain ⟨correct, expected, perCorrect, selected', _, _, _, hselected', rfl⟩ :=
    setSelection_eq_ok h
  have hsame : selected' = selected := Except.ok.inj (hselected'.symm.trans hselected)
  subst hsame
  have hname : (gradeSelection ctx.spec correct expected perCorrect selected').slotKey =
      "selection" := by
    unfold gradeSelection
    dsimp only
    split
    · rfl
    · split <;> rfl
  unfold Tells
  simp only [List.mem_singleton, exists_eq_left, hname, ne_eq, gradeSelection_unanswered]
  constructor
  · rintro ⟨hne, rfl⟩
    exact ⟨rfl, hne⟩
  · rintro ⟨rfl, hne⟩
    exact ⟨hne, rfl⟩

/-! ## Over the paper -/

section
variable {scorer : Scorer} {c : ContentStore} {v : ℕ}

/-- An item stands for a question of the paper. -/
structure Prints (c : ContentStore) (v : ℕ) (item : ItemInput) (p : Placed) : Prop where
  placed : p ∈ placed c v
  kept : c.questionVersions.get? p.questionVersion.id = some p.questionVersion
  xid : item.questionVersionXid = str p.questionVersion.id
  slotKeys : item.slotKeys = p.questionVersion.slotKeys
  typeKey : item.typeKey = p.questionVersion.typeKey
  typeVersion : item.typeVersion = p.questionVersion.typeVersion

theorem kept_of_placed {p : Placed} (hp : p ∈ ExamScoringInputs.placed c v) :
    c.questionVersions.get? p.questionVersion.id = some p.questionVersion := by
  obtain ⟨sec, _, hp⟩ := List.mem_flatMap.1 hp
  unfold placedIn at hp
  simp only [List.mem_flatMap, List.mem_map, Option.mem_toList] at hp
  obtain ⟨g, _, gv, _, i, _, qv, hqv, q, _, rfl⟩ := hp
  have hid : qv.id = i.questionVersionId := Table.get?_key hqv
  dsimp only
  rw [hid]
  exact hqv

theorem prints_of_input {p : Placed} {item : ItemInput} (hp : p ∈ ExamScoringInputs.placed c v)
    (h : p.itemInput = .ok item) : Prints c v item p := by
  obtain ⟨hxid, hslots, htype, hversion⟩ := FrozenPaper.itemInput_eq_ok h
  exact ⟨hp, kept_of_placed hp, hxid, hslots, htype, hversion⟩

theorem selects_iff {item : ItemInput} {p : Placed} (h : Prints c v item p) :
    Selects scorer item.typeKey item.typeVersion ↔
      SelectsVersion scorer c p.questionVersion.id := by
  unfold SelectsVersion
  rw [h.kept, h.typeKey, h.typeVersion]
  constructor
  · intro hs
    exact ⟨_, rfl, hs⟩
  · rintro ⟨qv, hqv, hs⟩
    cases hqv
    exact hs

/-- What a run was scored from: items for the questions of the paper, and their current keys. -/
structure Sources (c : ContentStore) (v : ℕ) (i : ScoringInputs) : Prop where
  prints : ∀ item ∈ i.items, ∃ p, Prints c v item p
  printed : ∀ p ∈ ExamScoringInputs.placed c v, ∃ item ∈ i.items, Prints c v item p
  keys : ∀ p ∈ ExamScoringInputs.placed c v, i.keys.get? (str p.questionVersion.id) =
    RegradeSpec.currentKeyOf c p.questionVersion.id

theorem sources_of_inputs {i : ScoringInputs} (h : scoringInputs c v = .ok i) :
    Sources c v i := by
  have hinputs := FrozenKeys.inputsOf_scoringInputs h
  unfold scoringInputs at h
  obtain ⟨items, hitems, h⟩ := bind_eq_ok.1 h
  obtain ⟨bandMap, _, h⟩ := bind_eq_ok.1 h
  cases h
  have hrows : ∀ p, p ∈ (ExamScoringInputs.placed c v).insertionSort Placed.before ↔
      p ∈ ExamScoringInputs.placed c v := fun p => (List.perm_insertionSort _ _).mem_iff
  constructor
  · intro item hitem
    obtain ⟨p, hp, hpi⟩ := exists_input_of_mapM hitems hitem
    exact ⟨p, prints_of_input ((hrows p).1 hp) hpi⟩
  · intro p hp
    obtain ⟨item, hitem, hpi⟩ := exists_of_mapM hitems ((hrows p).2 hp)
    exact ⟨item, hitem, prints_of_input hp hpi⟩
  · intro p hp
    exact hinputs.keys _ (List.mem_map_of_mem hp)

/-! ### The answers to one question -/

theorem answerTo_eq_some {n : ℕ} {slot : String} {f : Option String}
    (h : asText (answerTo s a.id n slot) = f) (hf : f ≠ none) :
    ∃ r ∈ s.answersOf a.id, r.questionVersionId = n ∧ r.slotKey = slot ∧
      asText r.response = f := by
  unfold answerTo at h
  cases hget : s.answers.get? (a.id, n, slot) with
  | none =>
    rw [hget] at h
    exact absurd h.symm hf
  | some r =>
    rw [hget] at h
    obtain ⟨hr, hkey⟩ := Table.get?_eq_some.1 hget
    simp only [AttemptAnswer.key, Prod.mk.injEq] at hkey
    exact ⟨r, List.mem_filter.2 ⟨hr, decide_eq_true hkey.1⟩, hkey.2.1, hkey.2.2, h⟩

theorem answerTo_stored {r : AttemptAnswer} (hr : r ∈ s.answersOf a.id) :
    answerTo s a.id r.questionVersionId r.slotKey = r.response := by
  obtain ⟨hr, ha⟩ := List.mem_filter.1 hr
  have ha := of_decide_eq_true ha
  unfold answerTo
  rw [Table.get?_eq_some.2 ⟨hr, by unfold AttemptAnswer.key; rw [ha]⟩]
  rfl

theorem stored_unique {r q : AttemptAnswer} (hr : r ∈ s.answersOf a.id)
    (hq : q ∈ s.answersOf a.id) (hn : r.questionVersionId = q.questionVersionId)
    (hslot : r.slotKey = q.slotKey) : r = q := by
  obtain ⟨hr, har⟩ := List.mem_filter.1 hr
  obtain ⟨hq, haq⟩ := List.mem_filter.1 hq
  apply List.inj_on_of_nodup_map s.answers.nodup hr hq
  unfold AttemptAnswer.key
  rw [of_decide_eq_true har, of_decide_eq_true haq, hn, hslot]

theorem picked_iff {n : ℕ} : firstSelection (answersTo s a.id n) ≠ [] ↔
    ∃ r, firstAnswer s a n = some r ∧ r.response ≠ .arr [] := by
  have hfind : (answersTo s a.id n).find? (fun v => v ≠ .null) =
      (firstAnswer s a n).map AttemptAnswer.response := by
    unfold answersTo firstAnswer
    rw [List.find?_map, List.find?_filter]
    congr 2
    funext r
    simp
  rw [ne_eq, firstSelection_eq_nil, hfind]
  cases firstAnswer s a n with
  | none => simp
  | some r => simp

theorem firstAnswer_spec {n : ℕ} {r : AttemptAnswer} (h : firstAnswer s a n = some r) :
    r ∈ s.answersOf a.id ∧ r.questionVersionId = n := by
  have hp := List.find?_some h
  simp only [Bool.decide_and, Bool.and_eq_true, decide_eq_true_eq] at hp
  exact ⟨List.mem_of_find?_eq_some h, hp.1⟩

/-! ### The slots of a run -/

open Classical in
noncomputable def scoredUnder (scorer : Scorer) (c : ContentStore) (r : AttemptAnswer) : String :=
  if SelectsVersion scorer c r.questionVersionId then "selection" else r.slotKey

theorem tells_item {v : ℕ} {item : ItemInput} {p : Placed} {kv : KeyVersion} {score : ItemScore}
    (hv : v = a.testVersionId) (hitem : Prints s.content v item p)
    (hkey : RegradeSpec.currentKeyOf s.content p.questionVersion.id = some kv)
    (h : scorer.scoreItem (scoreRequest item kv
      (responseTo (s.answersOf a.id) p.questionVersion.id)) = .ok score) (slot : String) :
    Tells score.slots slot ↔ ∃ r, Read scorer s a r ∧
      r.questionVersionId = p.questionVersion.id ∧ scoredUnder scorer s.content r = slot := by
  subst hv
  obtain ⟨d, hd, _, _, hscore⟩ := ScoringTotality.scoreItem_eq_ok.1 h
  have hget : scorer.registry.get item.typeKey item.typeVersion = .ok d :=
    ScoringTotality.registry_get_eq_ok.2 hd
  have hselects : SelectsVersion scorer s.content p.questionVersion.id ↔
      d.scoring.primitive = .setSelection := by
    rw [← selects_iff hitem]
    constructor
    · rintro ⟨d', hd', hp⟩
      have hsame : d' = d := Except.ok.inj (hd'.symm.trans hget)
      rw [← hsame]
      exact hp
    · intro hp
      exact ⟨d, hget, hp⟩
  have hprinted : p.questionVersion.id ∈ ContestScoring.questionIds s.content a.testVersionId :=
    List.mem_map_of_mem hitem.placed
  by_cases hp : d.scoring.primitive = .setSelection
  · have hsel := hselects.2 hp
    rw [hp] at hscore
    rw [tells_selection (selection_responseTo _ _) hscore, values_questionSlots, picked_iff]
    constructor
    · rintro ⟨rfl, r, hfirst, hne⟩
      obtain ⟨hstored, hn⟩ := firstAnswer_spec hfirst
      have hselr : SelectsVersion scorer s.content r.questionVersionId := by
        rw [hn]
        exact hsel
      refine ⟨r, ⟨hstored, ?_, ⟨kv, ?_, fun hnot => absurd hselr hnot⟩,
        fun hnot => absurd hselr hnot, fun _ => ⟨?_, hne⟩⟩, hn, if_pos hselr⟩
      · rw [hn]
        exact hprinted
      · rw [hn]
        exact hkey
      · rw [hn]
        exact hfirst
    · rintro ⟨r, hread, hn, rfl⟩
      have hselr : SelectsVersion scorer s.content r.questionVersionId := by
        rw [hn]
        exact hsel
      obtain ⟨hfirst, hne⟩ := hread.picked hselr
      rw [hn] at hfirst
      exact ⟨if_pos hselr, r, hfirst, hne⟩
  · have hnot : ¬ SelectsVersion scorer s.content p.questionVersion.id :=
      fun hsel => hp (hselects.1 hsel)
    have hsubmitted : ∀ slot, submittedText (responseSlots
        (responseTo (s.answersOf a.id) p.questionVersion.id)) slot =
          .ok (asText (answerTo s a.id p.questionVersion.id slot)) := by
      intro slot
      rw [submittedText_responseTo, getD_questionSlots]
    rw [tells_slotted hp hsubmitted hscore]
    constructor
    · rintro ⟨hslot, htold⟩
      obtain ⟨r, hstored, hn, hname, htext⟩ := answerTo_eq_some rfl htold
      have hnotr : ¬ SelectsVersion scorer s.content r.questionVersionId := by
        rw [hn]
        exact hnot
      refine ⟨r, ⟨hstored, ?_, ⟨kv, ?_, fun _ => ?_⟩, fun _ => ?_,
        fun hsel => absurd hsel hnotr⟩, hn, ?_⟩
      · rw [hn]
        exact hprinted
      · rw [hn]
        exact hkey
      · rw [hname]
        exact hslot
      · rw [htext]
        exact htold
      · rw [scoredUnder, if_neg hnotr]
        exact hname
    · rintro ⟨r, hread, hn, rfl⟩
      have hnotr : ¬ SelectsVersion scorer s.content r.questionVersionId := by
        rw [hn]
        exact hnot
      obtain ⟨kv', hkey', hslot⟩ := hread.marked
      have hsame : kv' = kv := by
        rw [hn] at hkey'
        exact Option.some.inj (hkey'.symm.trans hkey)
      subst hsame
      have hname : scoredUnder scorer s.content r = r.slotKey := if_neg hnotr
      rw [hname, ← hn, answerTo_stored hread.stored]
      exact ⟨hslot hnotr, hread.told hnotr⟩

theorem mem_scoredSlots {run : ScoreRun} {x slot : String} :
    (x, slot) ∈ scoredSlots run ↔ ∃ score, (x, score) ∈ run.itemScores ∧
      Tells score.slots slot := by
  unfold scoredSlots Tells
  simp only [List.mem_toFinset, List.mem_flatMap, List.mem_map, List.mem_filter,
    decide_eq_true_eq, Prod.mk.injEq, Prod.exists]
  constructor
  · rintro ⟨y, score, hmem, t, ⟨ht, hverdict⟩, rfl, rfl⟩
    exact ⟨score, hmem, t, ht, hverdict, rfl⟩
  · rintro ⟨score, hmem, t, ht, hverdict, rfl⟩
    exact ⟨x, score, hmem, t, ⟨ht, hverdict⟩, rfl, rfl⟩

theorem mem_itemScores {reason : String} {run : ScoreRun}
    (h : computeRun scorer s a reason = .ok run) : ∃ i, Sources s.content a.testVersionId i ∧
      (∀ item ∈ i.items, Returns
        (scoreOne scorer i.keys (responsesOf (s.answersOf a.id)) item)) ∧
      ∀ x score, (x, score) ∈ run.itemScores ↔ ∃ item ∈ i.items,
        item.questionVersionXid = x ∧
          scoreOne scorer i.keys (responsesOf (s.answersOf a.id)) item = .ok score := by
  unfold computeRun at h
  obtain ⟨i, hi, h⟩ := bind_eq_ok.1 h
  refine ⟨i, sources_of_inputs hi, returns_scoreAttempt.1 ⟨run, h⟩, ?_⟩
  obtain ⟨t, ht, rfl⟩ := map_eq_ok.1 h
  obtain ⟨scores, hscores, _, _, hitems⟩ := foldlM_scoreStep ht
  have hrun : (finishRun (attemptInput a i.items (responsesOf (s.answersOf a.id))) scorer i.bandMap
      reason t).itemScores = (i.items.map ItemInput.questionVersionXid).zip scores := by
    change t.itemScores = _
    rw [hitems]
    rfl
  intro x score
  rw [hrun, List.zip_map_left, List.mem_map]
  have hall := mapM_eq_ok.1 hscores
  constructor
  · rintro ⟨⟨item, sc⟩, hmem, heq⟩
    simp only [Prod.map_apply, id_eq, Prod.mk.injEq] at heq
    obtain ⟨rfl, rfl⟩ := heq
    obtain ⟨hitem, hone⟩ := mem_zip_of_forall₂ hall hmem
    exact ⟨item, hitem, rfl, hone⟩
  · rintro ⟨item, hitem, rfl, hone⟩
    obtain ⟨sc, hmem, hsc⟩ := exists_zip_of_forall₂ hall hitem
    have hsame : sc = score := Except.ok.inj (hsc.symm.trans hone)
    subst hsame
    exact ⟨(item, sc), hmem, rfl⟩

theorem tells_voidScore (item : ItemInput) (slot : String) :
    Tells (voidScore item).slots slot ↔ slot ∈ item.slotKeys := by
  unfold Tells voidScore
  simp

theorem mem_unkeyedSlots {x slot : String} : (x, slot) ∈ unkeyedSlots c v ↔
    ∃ p ∈ ExamScoringInputs.placed c v,
      RegradeSpec.currentKeyOf c p.questionVersion.id = none ∧
        slot ∈ p.questionVersion.slotKeys ∧ str p.questionVersion.id = x := by
  unfold unkeyedSlots
  simp only [List.mem_toFinset, List.mem_flatMap, List.mem_filter, Option.isNone_iff_eq_none,
    List.mem_map, Prod.mk.injEq]
  constructor
  · rintro ⟨p, ⟨hp, hnone⟩, k, hk, rfl, rfl⟩
    exact ⟨p, hp, hnone, hk, rfl⟩
  · rintro ⟨p, hp, hnone, hk, rfl⟩
    exact ⟨p, ⟨hp, hnone⟩, slot, hk, rfl, rfl⟩

theorem mem_scoredSlots_iff {reason : String} {run : ScoreRun}
    (h : computeRun scorer s a reason = .ok run) {x slot : String} :
    (x, slot) ∈ scoredSlots run ↔
      (∃ r, Read scorer s a r ∧ str r.questionVersionId = x ∧
        scoredUnder scorer s.content r = slot) ∨
      (x, slot) ∈ unkeyedSlots s.content a.testVersionId := by
  obtain ⟨i, hsources, hreturns, hscores⟩ := mem_itemScores h
  have hone : ∀ {item p}, item ∈ i.items → Prints s.content a.testVersionId item p →
      ∀ {score}, scoreOne scorer i.keys (responsesOf (s.answersOf a.id)) item = .ok score →
      (Tells score.slots slot ↔ (∃ r, Read scorer s a r ∧
          r.questionVersionId = p.questionVersion.id ∧ scoredUnder scorer s.content r = slot) ∨
        RegradeSpec.currentKeyOf s.content p.questionVersion.id = none ∧
          slot ∈ p.questionVersion.slotKeys) := by
    intro item p _ hprints score hscore
    unfold scoreOne at hscore
    rw [hprints.xid, hsources.keys p hprints.placed] at hscore
    cases hkey : RegradeSpec.currentKeyOf s.content p.questionVersion.id with
    | none =>
      rw [hkey] at hscore
      cases hscore
      rw [tells_voidScore, hprints.slotKeys]
      constructor
      · intro hslot
        exact .inr ⟨rfl, hslot⟩
      · rintro (⟨r, hread, hn, _⟩ | ⟨_, hslot⟩)
        · obtain ⟨kv, hkv, _⟩ := hread.marked
          rw [hn, hkey] at hkv
          cases hkv
        · exact hslot
    | some kv =>
      rw [hkey] at hscore
      rw [tells_item rfl hprints hkey hscore]
      constructor
      · exact Or.inl
      · rintro (hread | ⟨hnone, _⟩)
        · exact hread
        · cases hnone
  rw [mem_scoredSlots, mem_unkeyedSlots]
  constructor
  · rintro ⟨score, hmem, htells⟩
    obtain ⟨item, hitem, rfl, hscore⟩ := (hscores x score).1 hmem
    obtain ⟨p, hprints⟩ := hsources.prints item hitem
    rw [hprints.xid]
    rcases (hone hitem hprints hscore).1 htells with ⟨r, hread, hn, hslot⟩ | ⟨hnone, hslot⟩
    · exact .inl ⟨r, hread, by rw [hn], hslot⟩
    · exact .inr ⟨p, hprints.placed, hnone, hslot, rfl⟩
  · intro hor
    have hfound : ∃ p ∈ ExamScoringInputs.placed s.content a.testVersionId,
        str p.questionVersion.id = x ∧ ((∃ r, Read scorer s a r ∧
          r.questionVersionId = p.questionVersion.id ∧ scoredUnder scorer s.content r = slot) ∨
        RegradeSpec.currentKeyOf s.content p.questionVersion.id = none ∧
          slot ∈ p.questionVersion.slotKeys) := by
      rcases hor with ⟨r, hread, rfl, hslot⟩ | ⟨p, hp, hnone, hslot, hx⟩
      · obtain ⟨p, hp, hid⟩ := List.mem_map.1 hread.printed
        exact ⟨p, hp, by rw [hid], .inl ⟨r, hread, hid.symm, hslot⟩⟩
      · exact ⟨p, hp, hx, .inr ⟨hnone, hslot⟩⟩
    obtain ⟨p, hp, hx, hcase⟩ := hfound
    obtain ⟨item, hitem, hprints⟩ := hsources.printed p hp
    obtain ⟨score, hscore⟩ := hreturns item hitem
    exact ⟨score, (hscores x score).2 ⟨item, hitem, by rw [hprints.xid, hx], hscore⟩,
      (hone hitem hprints hscore).2 hcase⟩

/-! ### The counts -/

theorem mem_readAnswers {r : AttemptAnswer} :
    r ∈ readAnswers scorer s a ↔ Read scorer s a r := by
  simp only [readAnswers, Finset.mem_filter, List.mem_toFinset]
  exact ⟨And.right, fun h => ⟨h.stored, h⟩⟩

theorem scoredUnder_injOn : Set.InjOn
    (fun r => (str r.questionVersionId, scoredUnder scorer s.content r))
    (readAnswers scorer s a : Set AttemptAnswer) := by
  intro r hr q hq heq
  have hr := mem_readAnswers.1 hr
  have hq := mem_readAnswers.1 hq
  simp only [Prod.mk.injEq] at heq
  have hn := str_injective heq.1
  by_cases hsel : SelectsVersion scorer s.content r.questionVersionId
  · have hselq : SelectsVersion scorer s.content q.questionVersionId := by
      rw [← hn]
      exact hsel
    have hfirst := (hr.picked hsel).1
    rw [hn, (hq.picked hselq).1] at hfirst
    exact (Option.some.inj hfirst).symm
  · have hselq : ¬ SelectsVersion scorer s.content q.questionVersionId := by
      rw [← hn]
      exact hsel
    have hslot := heq.2
    rw [scoredUnder, scoredUnder, if_neg hsel, if_neg hselq] at hslot
    exact stored_unique hr.stored hq.stored hn hslot

theorem card_scoredSlots {reason : String} {run : ScoreRun}
    (h : computeRun scorer s a reason = .ok run) : (scoredSlots run).card =
      (readAnswers scorer s a).card + (unkeyedSlots s.content a.testVersionId).card := by
  have hunion : scoredSlots run = (readAnswers scorer s a).image
      (fun r => (str r.questionVersionId, scoredUnder scorer s.content r)) ∪
        unkeyedSlots s.content a.testVersionId := by
    ext ⟨x, slot⟩
    rw [Finset.mem_union, Finset.mem_image, mem_scoredSlots_iff h]
    simp only [mem_readAnswers, Prod.mk.injEq]
  have hdisjoint : Disjoint ((readAnswers scorer s a).image
      (fun r => (str r.questionVersionId, scoredUnder scorer s.content r)))
        (unkeyedSlots s.content a.testVersionId) := by
    rw [Finset.disjoint_left]
    rintro ⟨x, slot⟩ hread hvoid
    obtain ⟨r, hr, heq⟩ := Finset.mem_image.1 hread
    obtain ⟨p, _, hnone, _, hx⟩ := mem_unkeyedSlots.1 hvoid
    simp only [Prod.mk.injEq] at heq
    obtain ⟨kv, hkv, _⟩ := (mem_readAnswers.1 hr).marked
    rw [str_injective (heq.1.trans hx.symm), hnone] at hkv
    cases hkv
  rw [hunion, Finset.card_union_of_disjoint hdisjoint,
    Finset.card_image_of_injOn scoredUnder_injOn]

theorem length_given : (given s a).length = (given s a).toFinset.card := by
  rw [List.toFinset_card_of_nodup]
  exact (s.answers.nodup.of_map _).filter _ |>.filter _

theorem card_eq_iff {α : Type} [DecidableEq α] (x y : Finset α) (n : ℕ) :
    x.card = y.card + n ↔ (x \ y).card = (y \ x).card + n := by
  have hx := Finset.card_sdiff_add_card_inter x y
  have hy := Finset.card_sdiff_add_card_inter y x
  rw [Finset.inter_comm y x] at hy
  omega

/-- The three counts agree exactly when nothing is left blank and the answers that go unread are
as many as the slots taken for answered that hold nothing. -/
theorem one_notion_iff {reason : String} {run : ScoreRun}
    (hlive : a.status = .issued ∨ a.status = .inProgress) (hrefs : Referenced s a)
    (hrun : computeRun scorer s a reason = .ok run) :
    OneNotion s a run ↔ ReadAlike scorer s a := by
  unfold OneNotion
  rw [answeredCount_eq_given hlive hrefs, card_scoredSlots hrun, length_given, card_eq_iff]
  exact ⟨fun h => ⟨h.1, h.2⟩, fun h => ⟨h.noBlank, h.balanced⟩⟩

def answeredPage (text : String) : Store :=
  { AutosaveConvergence.sampleStore with
    answers := .put .empty
      { attemptId := 1, questionVersionId := 1, slotKey := "s1", response := .str text
        clientSeq := some 1, firstAnsweredAt := seconds 1, updatedAt := seconds 1 } }

theorem one_notion_of_two : ∃ run,
    computeRun ScoringTotality.sampleScorer (answeredPage "two")
      AutosaveConvergence.sampleAttempt "initial" = .ok run ∧
    (OneNotion (answeredPage "two") AutosaveConvergence.sampleAttempt run ↔
      ReadAlike ScoringTotality.sampleScorer (answeredPage "two")
        AutosaveConvergence.sampleAttempt) := by
  have hreturns : (computeRun ScoringTotality.sampleScorer (answeredPage "two")
      AutosaveConvergence.sampleAttempt "initial").toOption.isSome = true := by decide +kernel
  cases hrun : computeRun ScoringTotality.sampleScorer (answeredPage "two")
      AutosaveConvergence.sampleAttempt "initial" with
  | error e =>
    rw [hrun] at hreturns
    cases hreturns
  | ok run =>
    have hrefs : Referenced (answeredPage "two") AutosaveConvergence.sampleAttempt := by
      unfold Referenced
      decide +kernel
    exact ⟨run, rfl, one_notion_iff (.inr rfl) hrefs hrun⟩

/-- Two spaces are an answer the type accepts and the client is told of; no other rule counts
them. -/
theorem spaces_are_counted :
    ScoringTotality.sampleScorer.validateResponse ScoringTotality.typeValidator "short_answer" 1
        (.str "  ") = .ok none ∧
      ∃ run, computeRun ScoringTotality.sampleScorer (answeredPage "  ")
          AutosaveConvergence.sampleAttempt "initial" = .ok run ∧
        ¬ OneNotion (answeredPage "  ") AutosaveConvergence.sampleAttempt run := by
  have hreturns : (computeRun ScoringTotality.sampleScorer (answeredPage "  ")
      AutosaveConvergence.sampleAttempt "initial").toOption.isSome = true := by decide +kernel
  refine ⟨by decide +kernel, ?_⟩
  cases hrun : computeRun ScoringTotality.sampleScorer (answeredPage "  ")
      AutosaveConvergence.sampleAttempt "initial" with
  | error e =>
    rw [hrun] at hreturns
    cases hreturns
  | ok run =>
    refine ⟨run, rfl, fun h => ?_⟩
    exact absurd h.1 (by decide +kernel)

end

end IeltsHub.AnsweredSlots
