import IeltsHub.RegradeSpec

set_option autoImplicit false

/-!
# Equal answers, equal marks

A score reads the stored answers slot by slot, but for a selection, which is what the first slot
with an answer holds. Two attempts that agree on both get the same marks from the same items and
keys.
-/
namespace IeltsHub.EqualAnswers
open PyExc PyValue PyDict PlatformErrors QtypesSchemas QtypesPrimitives QtypesRegistry RowTable
  ExamScoring ExamModels ExamScoringInputs

def answerTo (s : Store) (attempt questionVersion : ℕ) (slot : String) : Json :=
  ((s.answers.get? (attempt, questionVersion, slot)).map AttemptAnswer.response).getD .null

def answersTo (s : Store) (attempt questionVersion : ℕ) : List Json :=
  ((s.answersOf attempt).filter (fun r => r.questionVersionId = questionVersion)).map
    AttemptAnswer.response

/-- Slot by slot the same answers; no answer is the empty one. -/
def SameResponses (s : Store) (a b : ℕ) : Prop :=
  ∀ questionVersion slot, answerTo s a questionVersion slot = answerTo s b questionVersion slot

def Selects (scorer : Scorer) (typeKey : String) (typeVersion : ℤ) : Prop :=
  ∃ d, scorer.registry.get typeKey typeVersion = .ok d ∧ d.scoring.primitive = .setSelection

/-! ## The answers to one question -/

def questionSlots (rows : List AttemptAnswer) (n : ℕ) : Obj :=
  Dict.ofList ((rows.filter (fun r => r.questionVersionId = n)).map
    (fun r => (r.slotKey, r.response)))

theorem questionSlots_append (rows : List AttemptAnswer) (r : AttemptAnswer) (n : ℕ) :
    questionSlots (rows ++ [r]) n =
      if r.questionVersionId = n then (questionSlots rows n).put r.slotKey r.response
      else questionSlots rows n := by
  unfold questionSlots Dict.ofList
  rw [List.filter_append]
  by_cases h : r.questionVersionId = n
  · simp [h]
  · simp [h]

theorem slotsOf_append (rows : List AttemptAnswer) (r : AttemptAnswer) :
    slotsOf (rows ++ [r]) = (slotsOf rows).put (str r.questionVersionId)
      ((((slotsOf rows).get? (str r.questionVersionId)).getD Dict.empty).put r.slotKey
        r.response) := by
  unfold slotsOf
  rw [List.foldl_append]
  rfl

theorem slotsOf_getD (rows : List AttemptAnswer) (n : ℕ) :
    ((slotsOf rows).get? (str n)).getD Dict.empty = questionSlots rows n := by
  induction rows using List.reverseRecOn with
  | nil => rfl
  | append_singleton rows r ih =>
    rw [slotsOf_append, questionSlots_append, Dict.get?_put]
    by_cases h : r.questionVersionId = n
    · subst h
      rw [if_pos rfl, if_pos rfl, Option.getD_some, ih]
    · rw [if_neg (fun hstr => h (str_injective hstr)), if_neg h, ih]

def responseTo (rows : List AttemptAnswer) (n : ℕ) : Json :=
  ((responsesOf rows).get? (str n)).getD .null

theorem responseTo_cases (rows : List AttemptAnswer) (n : ℕ) :
    responseTo rows n = .null ∧ questionSlots rows n = Dict.empty ∨
      responseTo rows n = .obj [("slots", .obj (questionSlots rows n).entries)] := by
  unfold responseTo responsesOf
  rw [Dict.get?_mapValues, ← slotsOf_getD]
  cases (slotsOf rows).get? (str n) with
  | none => exact .inl ⟨rfl, rfl⟩
  | some slots => exact .inr rfl

theorem responseSlots_responseTo (rows : List AttemptAnswer) (n : ℕ) :
    responseSlots (responseTo rows n) = .obj (questionSlots rows n).entries := by
  rcases responseTo_cases rows n with ⟨hnull, hempty⟩ | hslots
  · rw [hnull, hempty]
    rfl
  · rw [hslots]
    change (if truthy (.obj (questionSlots rows n).entries) then _ else _) = _
    split
    · rfl
    · rename_i hfalsy
      have hnil : (questionSlots rows n).entries = [] := by
        simpa [truthy] using hfalsy
      rw [hnil]

theorem dictMethod_entries (d : Obj) :
    (dictMethod (.obj d.entries) : Except Raised Obj) = .ok d := by
  change Except.ok (Dict.ofList d.entries) = _
  rw [Dict.ofList_entries]

theorem submittedText_responseTo (rows : List AttemptAnswer) (n : ℕ) (slot : String) :
    submittedText (responseSlots (responseTo rows n)) slot =
      .ok (asText (getD (questionSlots rows n) slot .null)) := by
  unfold submittedText
  rw [responseSlots_responseTo, dictMethod_entries]
  rfl

theorem selection_responseTo (rows : List AttemptAnswer) (n : ℕ) :
    selection (responseTo rows n) = .ok (firstSelection (questionSlots rows n).values) := by
  have hslots := responseSlots_responseTo rows n
  unfold selection
  rcases responseTo_cases rows n with ⟨hnull, hempty⟩ | h
  · rw [hnull, hempty]
    rfl
  · rw [h] at hslots ⊢
    change (fun slots => firstSelection slots.values) <$> dictMethod (responseSlots _) = _
    rw [hslots, dictMethod_entries]
    rfl

/-! ## The answers of an attempt -/

variable {s : Store} {a b n : ℕ}

theorem nodup_slots (s : Store) (a n : ℕ) :
    (((s.answersOf a).filter (fun r => r.questionVersionId = n)).map
      (fun r => (r.slotKey, r.response))).map Prod.fst |>.Nodup := by
  rw [List.map_map]
  apply List.Nodup.map_on
  · intro x hx y hy hslot
    obtain ⟨hx, hxn⟩ := List.mem_filter.1 hx
    obtain ⟨hx, hxa⟩ := List.mem_filter.1 hx
    obtain ⟨hy, hyn⟩ := List.mem_filter.1 hy
    obtain ⟨hy, hya⟩ := List.mem_filter.1 hy
    apply List.inj_on_of_nodup_map s.answers.nodup hx hy
    unfold AttemptAnswer.key
    rw [of_decide_eq_true hxn, of_decide_eq_true hyn, of_decide_eq_true hxa,
      of_decide_eq_true hya]
    exact congrArg _ (congrArg _ hslot)
  · exact (s.answers.nodup.of_map _).filter _ |>.filter _

theorem values_questionSlots (s : Store) (a n : ℕ) :
    (questionSlots (s.answersOf a) n).values = answersTo s a n := by
  unfold questionSlots Dict.ofList Dict.values
  rw [@Dict.foldl_put_entries _ _ _ _ [] Dict.empty rfl (nodup_slots s a n)]
  simp [answersTo, Function.comp_def]

theorem get?_questionSlots (s : Store) (a n : ℕ) (slot : String) :
    (questionSlots (s.answersOf a) n).get? slot =
      (s.answers.get? (a, n, slot)).map AttemptAnswer.response := by
  apply Option.ext
  intro v
  rw [Dict.get?_eq_some]
  unfold questionSlots Dict.ofList
  rw [@Dict.foldl_put_entries _ _ _ _ [] Dict.empty rfl (nodup_slots s a n), List.nil_append,
    List.mem_map, Option.map_eq_some_iff]
  constructor
  · rintro ⟨r, hr, hslot⟩
    obtain ⟨hr, hn⟩ := List.mem_filter.1 hr
    obtain ⟨hr, ha⟩ := List.mem_filter.1 hr
    have hn := of_decide_eq_true hn
    have ha := of_decide_eq_true ha
    obtain ⟨rfl, rfl⟩ := Prod.mk.inj hslot
    refine ⟨r, Table.get?_eq_some.2 ⟨hr, ?_⟩, rfl⟩
    rw [← hn, ← ha]
    rfl
  · rintro ⟨r, hr, rfl⟩
    obtain ⟨hr, hkey⟩ := Table.get?_eq_some.1 hr
    simp only [AttemptAnswer.key, Prod.mk.injEq] at hkey
    obtain ⟨ha, hn, hslot⟩ := hkey
    refine ⟨r, List.mem_filter.2 ⟨List.mem_filter.2 ⟨hr, decide_eq_true ha⟩, decide_eq_true hn⟩, ?_⟩
    rw [hslot]

theorem getD_questionSlots (s : Store) (a n : ℕ) (slot : String) :
    getD (questionSlots (s.answersOf a) n) slot .null = answerTo s a n slot := by
  unfold getD answerTo
  rw [get?_questionSlots]

/-! ## Marks -/

theorem primitives_congr {p : Primitive} {r r' : Json} {key : Obj} {ctx : ScoringContext}
    (hslots : ∀ slot, submittedText (responseSlots r) slot = submittedText (responseSlots r') slot)
    (hselection : p = .setSelection → selection r = selection r') :
    primitives p r key ctx = primitives p r' key ctx := by
  cases p with
  | choicePerSlot =>
    have hslot : ∀ options perSlot, choiceSlot ctx options perSlot (responseSlots r) =
        choiceSlot ctx options perSlot (responseSlots r') := by
      intro options perSlot
      funext slot
      unfold choiceSlot
      rw [hslots]
    simp only [primitives, choicePerSlot, hslot]
  | textPerSlot =>
    have hslot : ∀ perSlot, textSlot ctx perSlot (responseSlots r) =
        textSlot ctx perSlot (responseSlots r') := by
      intro perSlot
      funext slot
      unfold textSlot readTextSlot
      rw [hslots]
    simp only [primitives, textPerSlot, hslot]
  | setSelection => simp only [primitives, setSelection, hselection rfl]

theorem scoreItem_congr {scorer : Scorer} {item : ItemInput} {kv : KeyVersion} {r r' : Json}
    (hslots : ∀ slot, submittedText (responseSlots r) slot = submittedText (responseSlots r') slot)
    (hselection : Selects scorer item.typeKey item.typeVersion → selection r = selection r') :
    scorer.scoreItem (scoreRequest item kv r) = scorer.scoreItem (scoreRequest item kv r') := by
  unfold Scorer.scoreItem
  cases hd : scorer.registry.get item.typeKey item.typeVersion with
  | error e =>
    change (scorer.registry.get item.typeKey item.typeVersion >>= _) =
      (scorer.registry.get item.typeKey item.typeVersion >>= _)
    rw [hd]
    rfl
  | ok d =>
    have hprimitives : ∀ ctx, primitives d.scoring.primitive r kv.key ctx =
        primitives d.scoring.primitive r' kv.key ctx :=
      fun ctx => primitives_congr hslots (fun hsel => hselection ⟨d, hd, hsel⟩)
    change (scorer.registry.get item.typeKey item.typeVersion >>= _) =
      (scorer.registry.get item.typeKey item.typeVersion >>= _)
    rw [hd]
    change (scorer.context d (scoreRequest item kv r) >>= fun ctx => _) =
      (scorer.context d (scoreRequest item kv r') >>= fun ctx => _)
    congr 1
    funext ctx
    exact hprimitives ctx

theorem scoreOne_congr {scorer : Scorer} {keys : Dict String KeyVersion} {item : ItemInput}
    (hn : item.questionVersionXid = str n) (h : SameResponses s a b)
    (hpicks : Selects scorer item.typeKey item.typeVersion →
      firstSelection (answersTo s a n) = firstSelection (answersTo s b n)) :
    scoreOne scorer keys (responsesOf (s.answersOf a)) item =
      scoreOne scorer keys (responsesOf (s.answersOf b)) item := by
  unfold scoreOne
  rw [hn]
  cases keys.get? (str n) with
  | none => rfl
  | some kv =>
    dsimp only
    apply scoreItem_congr
    · intro slot
      change submittedText (responseSlots (responseTo (s.answersOf a) n)) slot =
        submittedText (responseSlots (responseTo (s.answersOf b) n)) slot
      rw [submittedText_responseTo, submittedText_responseTo, getD_questionSlots,
        getD_questionSlots, h n slot]
    · intro hsel
      change selection (responseTo (s.answersOf a) n) = selection (responseTo (s.answersOf b) n)
      rw [selection_responseTo, selection_responseTo, values_questionSlots, values_questionSlots,
        hpicks hsel]

theorem mapM_congr {α β : Type} {f g : α → Except Raised β} {xs : List α}
    (h : ∀ x ∈ xs, f x = g x) : xs.mapM f = xs.mapM g := by
  induction xs with
  | nil => rfl
  | cons x xs ih =>
    rw [List.mapM_cons, List.mapM_cons, h x List.mem_cons_self,
      ih (fun y hy => h y (List.mem_cons_of_mem x hy))]

theorem rawScore_eq {scorer : Scorer} {keys : Dict String KeyVersion} {items : List ItemInput}
    {bandMap bandMap' : Option BandMap} {reason : String} {x y : Attempt} {run run' : ScoreRun}
    (hitems : ∀ item ∈ items, ∃ n, item.questionVersionXid = str n ∧
      (Selects scorer item.typeKey item.typeVersion →
        firstSelection (answersTo s x.id n) = firstSelection (answersTo s y.id n)))
    (h : SameResponses s x.id y.id)
    (hx : scoreAttempt (attemptInput x items (responsesOf (s.answersOf x.id))) keys scorer bandMap
      reason = .ok run)
    (hy : scoreAttempt (attemptInput y items (responsesOf (s.answersOf y.id))) keys scorer bandMap'
      reason = .ok run') : run.rawScore = run'.rawScore := by
  obtain ⟨t, ht, rfl⟩ := map_eq_ok.1 hx
  obtain ⟨t', ht', rfl⟩ := map_eq_ok.1 hy
  obtain ⟨scores, hscores, hraw, _⟩ := foldlM_scoreStep ht
  obtain ⟨scores', hscores', hraw', _⟩ := foldlM_scoreStep ht'
  have hsame : scores = scores' := by
    have hone : items.mapM (scoreOne scorer keys (responsesOf (s.answersOf x.id))) =
        items.mapM (scoreOne scorer keys (responsesOf (s.answersOf y.id))) := by
      apply mapM_congr
      intro item hitem
      obtain ⟨n, hn, hpicks⟩ := hitems item hitem
      exact scoreOne_congr hn h hpicks
    exact Except.ok.inj (hscores.symm.trans (hone.trans hscores'))
  change t.raw = t'.raw
  rw [hraw, hraw', hsame]

end IeltsHub.EqualAnswers
