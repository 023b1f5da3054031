import IeltsHub.KeyReading

set_option autoImplicit false

/-!
# A key opened and saved

When a key that is read into the editor and written back is the key that it was.
-/
namespace IeltsHub.KeyRoundTrip
open PyDict PyText PyValue QtypesSchemas QtypesPrimitives MarkerText KeyEditor AnswerTexts
open KeyReading

/-! ## A key that is opened and saved -/

def saved (t : QuestionType) (slots bank : List String) (key : Json) :
    Except Thrown (Option Json) :=
  toKey (controlFor (some t.toDefinition) slots bank) (fromKey key)

def Unchanged (t : QuestionType) (slots bank : List String) (key : Json) : Prop :=
  ∃ key', saved t slots bank key = .ok (some key') ∧ SameKey key key'

def MarksKept (t : QuestionType) (slots bank : List String) (key : Json) : Prop :=
  ∀ key', saved t slots bank key = .ok (some key') → SameKey key key' → SameMarks key key'

/-- Answers that are typed. -/
structure TypedSurvive (key : Json) : Prop where
  named : "__proto__" ∉ (slotsOf key).keys
  plain : ∀ slot spec, specOf key slot = some spec → ∀ a ∈ accepted spec, Plain a.toList
  untuned : ∀ slot spec, specOf key slot = some spec →
    normalizers spec = .null ∧ wordLimit spec = .null
  oneCase : ∀ slot spec slot' spec', specOf key slot = some spec →
    specOf key slot' = some spec' → caseSensitive spec = caseSensitive spec'

/-- Answers that are picked, in one slot or in any. -/
structure PickedSurvive (key : Json) (single : Prop) : Prop where
  named : "__proto__" ∉ (slotsOf key).keys
  one : ∀ slot spec, specOf key slot = some spec →
    ∃ a, accepted spec = [a] ∧ trim a.toList = a.toList ∧ a ≠ ""
  alone : single → (slotsOf key).keys.length ≤ 1

def Survives (t : QuestionType) (key : Json) : Prop :=
  (∀ widget, t.keyWidget = some widget → widget ∈ alternativesWidgets → TypedSurvive key) ∧
  ∀ widget, t.keyWidget = some widget → widget ∈ pickers →
    PickedSurvive key (widget ∈ singlePickers)

variable {name : Option String} {schema : SlotSchema} {key key' : Json} {record spec spec' : Obj}
  {v : Json} {slot : String} {t : QuestionType} {L bank : List String} {value : KeyValue}
  {row : List Char → Option Json}

/-! ## The rows of the two controls -/

theorem slotJson_spec (b : Bool) {accept : List (List Char)} (h : accept ≠ []) :
    ∃ v d, slotJson b accept = some v ∧ asDict v = some d ∧
      accepted d = accept.map String.ofList ∧ acceptedOf d = .ok (accepted d) ∧
      caseSensitive d = b ∧ normalizers d = .null ∧ wordLimit d = .null := by
  have htexts : (accept.map (fun cs => Json.str (.ofList cs))).map pyStr =
      accept.map String.ofList := by
    rw [List.map_map]
    rfl
  unfold slotJson
  rw [if_neg h]
  cases b
  · exact ⟨_, _, rfl, rfl, htexts, rfl, rfl, rfl, rfl⟩
  · exact ⟨_, _, rfl, rfl, htexts, rfl, rfl, rfl, rfl⟩

theorem writes_slotJson (b : Bool) (f : List Char → List (List Char)) :
    Writes (fun raw => slotJson b (f raw)) := by
  intro cs v hv
  change slotJson b (f cs) = some v at hv
  by_cases hnil : f cs = []
  · rw [hnil] at hv
    cases hv
  · obtain ⟨w, d, hw, hd, _⟩ := slotJson_spec b hnil
    rw [hw] at hv
    exact ⟨d, Option.some.inj hv ▸ hd⟩

theorem sameSlot_iff {b : Bool} {accept : List (List Char)} (hne : accept ≠ []) :
    (∃ spec', (slotJson b accept).bind asDict = some spec' ∧ SameSlot spec spec') ↔
      (∀ x, x ∈ (accepted spec).map String.toList ↔ x ∈ accept) ∧ caseSensitive spec = b ∧
        normalizers spec = .null ∧ wordLimit spec = .null := by
  obtain ⟨v, d, hv, hd, haccepted, _, hcase, hnormal, hlimit⟩ := slotJson_spec b hne
  have hof : ∀ (x : List Char) (l : List String),
      x ∈ l.map String.toList ↔ String.ofList x ∈ l := by
    intro x l
    constructor
    · intro hx
      obtain ⟨a, ha, rfl⟩ := List.mem_map.1 hx
      rwa [String.ofList_toList]
    · exact fun hx => List.mem_map.2 ⟨_, hx, String.toList_ofList⟩
  have hback : ∀ a : String, a ∈ accept.map String.ofList ↔ a.toList ∈ accept := by
    intro a
    constructor
    · intro ha
      obtain ⟨x, hx, rfl⟩ := List.mem_map.1 ha
      rwa [String.toList_ofList]
    · exact fun ha => List.mem_map.2 ⟨_, ha, String.ofList_toList⟩
  rw [hv, Option.bind_some, hd]
  constructor
  · rintro ⟨spec', hspec', hsame⟩
    cases hspec'
    refine ⟨fun x => ?_, hsame.case.trans hcase, hsame.normal.trans hnormal,
      hsame.limit.trans hlimit⟩
    rw [hof, hsame.accept, haccepted, hback, String.toList_ofList]
  · rintro ⟨hsame, hcase', hnormal', hlimit'⟩
    refine ⟨d, rfl, fun a => ?_, hcase'.trans hcase.symm, hnormal'.trans hnormal.symm,
      hlimit'.trans hlimit.symm⟩
    rw [haccepted, hback, ← hsame, hof, String.ofList_toList]

def typedRow (b : Bool) (raw : List Char) : Option Json := slotJson b (splitAlternatives raw)

def pickedRow (raw : List Char) : Option Json := slotJson false [raw]

theorem writes_typed (b : Bool) : Writes (typedRow b) := writes_slotJson b splitAlternatives

theorem writes_picked : Writes pickedRow := writes_slotJson false (fun raw => [raw])

theorem writtenSpec_typed (b : Bool) (spec : Obj) : writtenSpec (typedRow b) spec =
    (slotJson b (splitAlternatives (trim (shown spec)))).bind asDict := by
  unfold writtenSpec rowJson
  split
  · next hnil =>
    rw [hnil]
    rfl
  · rfl

theorem typed_slot_iff (h : SlotSpec schema v spec) (b : Bool) :
    (∃ spec', writtenSpec (typedRow b) spec = some spec' ∧ SameSlot spec spec') ↔
      (∀ a ∈ accepted spec, Plain a.toList) ∧ caseSensitive spec = b ∧
        normalizers spec = .null ∧ wordLimit spec = .null := by
  have hplain : (∀ x ∈ (accepted spec).map String.toList, Plain x) ↔
      ∀ a ∈ accepted spec, Plain a.toList := List.forall_mem_map
  rw [writtenSpec_typed, ← hplain]
  by_cases hnil : splitAlternatives (trim (shown spec)) = []
  · rw [hnil]
    constructor
    · rintro ⟨spec', hspec', _⟩
      cases hspec'
    · rintro ⟨hall, _⟩
      unfold shown at hnil
      rw [split_trim, split_joined, flatMap_plain hall] at hnil
      exact absurd (List.map_eq_nil_iff.1 hnil) h.accepted_ne_nil
  · rw [sameSlot_iff hnil]
    exact and_congr typed_iff Iff.rfl

theorem picked_slot_iff (h : SlotSpec schema v spec) (hstrict : schema.tolerance = false) :
    (∃ spec', writtenSpec pickedRow spec = some spec' ∧ SameSlot spec spec') ↔
      ∃ a, accepted spec = [a] ∧ trim a.toList = a.toList ∧ a ≠ "" := by
  have hone : (∃ x, (accepted spec).map String.toList = [x] ∧ trim x = x) ↔
      ∃ a, accepted spec = [a] ∧ trim a.toList = a.toList := by
    constructor
    · rintro ⟨x, hx, htrim⟩
      obtain ⟨a, ha, rfl⟩ := List.map_eq_singleton_iff.1 hx
      exact ⟨a, ha, htrim⟩
    · rintro ⟨a, ha, htrim⟩
      exact ⟨a.toList, by rw [ha]; rfl, htrim⟩
  have hshown : ∀ a, accepted spec = [a] → shown spec = a.toList := by
    intro a ha
    unfold shown
    rw [ha]
    exact List.intercalate_singleton
  unfold writtenSpec rowJson
  split
  · next hnil =>
    constructor
    · rintro ⟨spec', hspec', _⟩
      cases hspec'
    · rintro ⟨a, ha, htrim, hne⟩
      rw [hshown a ha, htrim] at hnil
      exact absurd (String.toList_eq_nil_iff.1 hnil) hne
  · next hne =>
    have hmap : (accepted spec).map String.toList ≠ [] := mt List.map_eq_nil_iff.1 h.accepted_ne_nil
    unfold pickedRow
    rw [sameSlot_iff (List.cons_ne_nil _ _), and_iff_left (h.untuned hstrict)]
    have hpicked : (∀ x, x ∈ (accepted spec).map String.toList ↔ x ∈ [trim (shown spec)]) ↔
        ∃ x, (accepted spec).map String.toList = [x] ∧ trim x = x := by
      rw [← picked_iff hmap]
      exact forall_congr' (fun x => by rw [List.mem_singleton]; rfl)
    rw [hpicked, hone]
    constructor
    · rintro ⟨a, ha, htrim⟩
      refine ⟨a, ha, htrim, ?_⟩
      rintro rfl
      rw [hshown "" ha] at hne
      exact hne htrim
    · rintro ⟨a, ha, htrim, _⟩
      exact ⟨a, ha, htrim⟩

theorem accepted_typed (h : SlotSpec schema v spec) {b : Bool}
    (hwritten : writtenSpec (typedRow b) spec = some spec') (hsame : SameSlot spec spec') :
    accepted spec' = accepted spec ∧ acceptedOf spec' = .ok (accepted spec') := by
  have hplain := ((typed_slot_iff h b).1 ⟨spec', hwritten, hsame⟩).1
  have hpieces : splitAlternatives (trim (shown spec)) = (accepted spec).map String.toList := by
    unfold shown
    rw [split_trim, split_joined, flatMap_plain (List.forall_mem_map.2 hplain)]
  have hne : (accepted spec).map String.toList ≠ [] := mt List.map_eq_nil_iff.1 h.accepted_ne_nil
  rw [writtenSpec_typed, hpieces] at hwritten
  obtain ⟨w, d, hw, hd, haccepted, hof, _⟩ := slotJson_spec b hne
  rw [hw, Option.bind_some, hd] at hwritten
  cases hwritten
  refine ⟨?_, hof⟩
  rw [haccepted, List.map_map]
  exact (List.map_congr_left (fun a _ => String.ofList_toList)).trans (List.map_id _)

theorem accepted_picked (h : SlotSpec schema v spec) (hstrict : schema.tolerance = false)
    (hwritten : writtenSpec pickedRow spec = some spec') (hsame : SameSlot spec spec') :
    accepted spec' = accepted spec ∧ acceptedOf spec' = .ok (accepted spec') := by
  obtain ⟨a, ha, htrim, _⟩ := (picked_slot_iff h hstrict).1 ⟨spec', hwritten, hsame⟩
  have hshown : shown spec = a.toList := by
    unfold shown
    rw [ha]
    exact List.intercalate_singleton
  unfold writtenSpec rowJson pickedRow at hwritten
  rw [hshown, htrim] at hwritten
  split at hwritten
  · cases hwritten
  · obtain ⟨w, d, hw, hd, haccepted, hof, _⟩ :=
      slotJson_spec false (List.cons_ne_nil a.toList [])
    rw [hw, Option.bind_some, hd] at hwritten
    cases hwritten
    refine ⟨?_, hof⟩
    rw [haccepted, ha, List.map_singleton, String.ofList_toList]

/-! ## The controls -/

theorem typed_iff_survive (h : SlotsKey name schema key record) {slots : List String}
    (hs : slots.Perm (slotsOf key).keys) :
    (∃ key', slotsKey (fromKey key) (typedRow (fromKey key).caseSensitive) slots =
        .ok (some key') ∧ SameKey key key') ↔ TypedSurvive key := by
  rw [slotsKey_same_iff h (writes_typed _) (fun slot hslot => hs.mem_iff.1 hslot)]
  have hslot : ∀ {slot spec}, specOf key slot = some spec →
      ((∃ spec', writtenSpec (typedRow (fromKey key).caseSensitive) spec = some spec' ∧
        SameSlot spec spec') ↔ (∀ a ∈ accepted spec, Plain a.toList) ∧
          caseSensitive spec = (fromKey key).caseSensitive ∧
          normalizers spec = .null ∧ wordLimit spec = .null) := by
    intro slot spec hspec
    obtain ⟨v, _, hv⟩ := h.spec_of_specOf hspec
    exact typed_slot_iff hv _
  constructor
  · rintro ⟨hproto, _, heach⟩
    have hread := fun slot spec hspec => (hslot hspec).1 (heach slot spec hspec)
    exact ⟨hproto, fun slot spec hspec => (hread slot spec hspec).1,
      fun slot spec hspec => (hread slot spec hspec).2.2,
      fun slot spec slot' spec' hspec hspec' =>
        (hread slot spec hspec).2.1.trans (hread slot' spec' hspec').2.1.symm⟩
  · intro hsurvive
    refine ⟨hsurvive.named, fun slot hmem => hs.mem_iff.2 hmem, fun slot spec hspec => ?_⟩
    have hcase : caseSensitive spec = (fromKey key).caseSensitive := by
      rw [Bool.eq_iff_iff, h.caseSensitive]
      constructor
      · exact fun htrue => ⟨slot, spec, hspec, htrue⟩
      · rintro ⟨slot', spec', hspec', htrue⟩
        exact (hsurvive.oneCase slot spec slot' spec' hspec hspec').trans htrue
    exact (hslot hspec).2
      ⟨hsurvive.plain slot spec hspec, hcase, hsurvive.untuned slot spec hspec⟩

theorem all_mem_take_iff {slots : List String} (hnodup : slots.Nodup) :
    (∀ s ∈ slots, s ∈ slots.take 1) ↔ slots.length ≤ 1 := by
  cases slots with
  | nil => simp
  | cons a slots =>
    cases slots with
    | nil => simp
    | cons b slots =>
      have hne : a ≠ b := fun heq => (List.nodup_cons.1 hnodup).1 (heq ▸ List.mem_cons_self)
      constructor
      · intro h
        have hmem := h b (List.mem_cons_of_mem _ List.mem_cons_self)
        rw [List.take_succ_cons, List.take_zero, List.mem_singleton] at hmem
        exact absurd hmem.symm hne
      · intro h
        rw [List.length_cons, List.length_cons] at h
        omega

theorem mem_of_mem_single {slots : List String} {single : Prop} [Decidable single]
    (hs : slots.Perm (slotsOf key).keys) :
    ∀ slot ∈ (if single then slots.take 1 else slots), slot ∈ (slotsOf key).keys := by
  intro slot hslot
  split at hslot
  · exact hs.mem_iff.1 (List.mem_of_mem_take hslot)
  · exact hs.mem_iff.1 hslot

theorem picked_iff_survive (h : SlotsKey name schema key record)
    (hstrict : schema.tolerance = false) {slots : List String}
    (hs : slots.Perm (slotsOf key).keys) (single : Prop) [Decidable single] :
    (∃ key', slotsKey (fromKey key) pickedRow (if single then slots.take 1 else slots) =
        .ok (some key') ∧ SameKey key key') ↔ PickedSurvive key single := by
  have halone : (∀ slot ∈ (slotsOf key).keys, slot ∈ if single then slots.take 1 else slots) ↔
      (single → (slotsOf key).keys.length ≤ 1) := by
    by_cases hsingle : single
    · rw [if_pos hsingle, ← hs.length_eq, ← all_mem_take_iff (hs.nodup_iff.2 (slotsOf key).nodup)]
      constructor
      · exact fun hall _ s hmem => hall s (hs.mem_iff.1 hmem)
      · exact fun hall s hmem => hall hsingle s (hs.mem_iff.2 hmem)
    · rw [if_neg hsingle]
      exact ⟨fun _ habs => absurd habs hsingle, fun _ s hmem => hs.mem_iff.2 hmem⟩
  rw [slotsKey_same_iff h writes_picked (mem_of_mem_single hs), halone]
  have hslot : ∀ {slot spec}, specOf key slot = some spec →
      ((∃ spec', writtenSpec pickedRow spec = some spec' ∧ SameSlot spec spec') ↔
        ∃ a, accepted spec = [a] ∧ trim a.toList = a.toList ∧ a ≠ "") := by
    intro slot spec hspec
    obtain ⟨v, _, hv⟩ := h.spec_of_specOf hspec
    exact picked_slot_iff hv hstrict
  constructor
  · rintro ⟨hproto, halone, heach⟩
    exact ⟨hproto, fun slot spec hspec => (hslot hspec).1 (heach slot spec hspec), halone⟩
  · intro hsurvive
    exact ⟨hsurvive.named, hsurvive.alone,
      fun slot spec hspec => (hslot hspec).2 (hsurvive.one slot spec hspec)⟩

theorem judged_survive {values : List String}
    (h : SlotsKey (some "s1") { items := .oneOf values, maxItems := some 1 } key record)
    (hvalues : ∀ a ∈ values, trim a.toList = a.toList ∧ a ≠ "") (single : Prop) :
    PickedSurvive key single := by
  have hkeys := h.named "s1" rfl
  refine ⟨by rw [hkeys]; decide, fun slot spec hspec => ?_, fun _ => by rw [hkeys]; decide⟩
  obtain ⟨v, _, hv⟩ := h.spec_of_specOf hspec
  obtain ⟨es, hes, hne, hmax, hitems⟩ := hv.accept
  have hlength := hmax 1 rfl
  obtain ⟨e, rest, rfl⟩ := List.exists_cons_of_ne_nil hne
  rw [List.length_cons] at hlength
  obtain rfl := List.eq_nil_of_length_eq_zero (by omega : rest.length = 0)
  have hadmits := hitems e List.mem_cons_self
  cases e with
  | str s =>
    refine ⟨s, ?_, hvalues s (of_decide_eq_true hadmits)⟩
    unfold accepted
    rw [hes]
    rfl
  | _ => cases hadmits

/-! ## What the marker makes of it -/

theorem getOr_null (d : Obj) (f : String) :
    getOr d f .null = if truthy (getD d f .null) then getD d f .null else .null := rfl

theorem override_eq (p : QtypesNormalizers.Pipeline) (spec : Obj) :
    p.override (getD spec "normalizers" .null) = p.override (normalizers spec) := by
  unfold normalizers
  rw [getOr_null]
  split
  · rfl
  · next hfalse =>
    unfold QtypesNormalizers.Pipeline.override
    rw [if_neg hfalse]
    rfl

theorem fromDict_eq (spec : Obj) :
    WordLimit.fromDict (getD spec "word_limit" .null) = WordLimit.fromDict (wordLimit spec) := by
  unfold wordLimit
  rw [getOr_null]
  split
  · rfl
  · next hfalse =>
    unfold WordLimit.fromDict
    rw [if_neg hfalse]
    rfl

theorem sameMarks_of_slots
    (hread : ∀ slot v v', (slotsOf key).get? slot = some v → (slotsOf key').get? slot = some v' →
      ∃ spec spec', asDict v = some spec ∧ asDict v' = some spec' ∧ SameSlot spec spec' ∧
        acceptedOf spec = acceptedOf spec')
    (hcorrect : ∀ record record', asDict key = some record → asDict key' = some record' →
      correctOf record = correctOf record') : SameMarks key key' := by
  refine ⟨?_, ?_, ?_⟩
  · intro ctx options perSlot submitted slot v v' hv hv'
    obtain ⟨spec, spec', hdict, hdict', _, haccepted⟩ := hread slot v v' hv hv'
    unfold choiceSlot
    dsimp only
    rw [dictMethod_eq_ok.2 hdict, dictMethod_eq_ok.2 hdict']
    change _ >>= (fun raw => acceptedOf spec >>= _) = _ >>= (fun raw => acceptedOf spec' >>= _)
    rw [haccepted]
  · intro ctx perSlot submitted slot v v' hv hv'
    obtain ⟨spec, spec', hdict, hdict', hsame, haccepted⟩ := hread slot v v' hv hv'
    have hpipeline : slotPipeline ctx spec = slotPipeline ctx spec' := by
      unfold slotPipeline
      rw [override_eq, override_eq, hsame.normal]
      have hcase : truthy (getD spec "case_sensitive" .null) =
          truthy (getD spec' "case_sensitive" .null) := hsame.case
      rw [hcase]
    have hlimit : slotLimit ctx spec = slotLimit ctx spec' := by
      unfold slotLimit
      rw [fromDict_eq, fromDict_eq, hsame.limit]
    unfold textSlot readTextSlot
    dsimp only
    rw [dictMethod_eq_ok.2 hdict, dictMethod_eq_ok.2 hdict']
    change (_ >>= (fun raw => acceptedOf spec >>= (fun accepted => slotPipeline ctx spec >>=
      (fun pipeline => slotLimit ctx spec >>= _)))) >>= _ =
      (_ >>= (fun raw => acceptedOf spec' >>= (fun accepted => slotPipeline ctx spec' >>=
        (fun pipeline => slotLimit ctx spec' >>= _)))) >>= _
    rw [haccepted, hpipeline, hlimit]
  · intro ctx response record record' hrecord hrecord'
    unfold setSelection
    rw [hcorrect record record' hrecord hrecord']

theorem correctOf_none {d : Obj} (h : d.get? "correct" = none) : correctOf d = .ok [] := by
  unfold correctOf getOr getD
  rw [h]
  rfl

theorem slotsKey_marks (h : SlotsKey name schema key record) (hwrites : Writes row)
    (hL : ∀ slot ∈ L, slot ∈ (slotsOf key).keys)
    (hrow : ∀ v spec spec', SlotSpec schema v spec → writtenSpec row spec = some spec' →
      SameSlot spec spec' → accepted spec' = accepted spec ∧
        acceptedOf spec' = .ok (accepted spec'))
    (hsaved : slotsKey (fromKey key) row L = .ok (some key')) (hsame : SameKey key key') :
    SameMarks key key' := by
  obtain ⟨hnot, _, rfl⟩ := (slotsKey_eq_ok (h.readable hL) h.proto).1 hsaved
  refine sameMarks_of_slots ?_ ?_
  · intro slot v v' hv hv'
    obtain ⟨spec, hspec⟩ := h.exists_spec hv
    have hspecOf : specOf key slot = some spec := Option.bind_eq_some_iff.2 ⟨v, hv, hspec.dict⟩
    rw [slotsOf_built, get?_built] at hv'
    split at hv'
    · next hslot =>
      have hne : slot ≠ "__proto__" := fun heq => hnot (heq ▸ hslot)
      have hbuilt := h.specOf_built row hspecOf hne hslot
      rw [h.row hspecOf hne, Option.bind_some] at hv'
      have hobj : ∃ d, asDict v' = some d := by
        unfold rowJson at hv'
        split at hv'
        · cases hv'
        · exact hwrites _ _ hv'
      obtain ⟨spec', hspec'⟩ := hobj
      have hwritten : writtenSpec row spec = some spec' := by
        unfold writtenSpec
        rw [hv']
        exact hspec'
      have hslot := hsame.each slot spec spec' hspecOf (hbuilt.trans hwritten)
      obtain ⟨haccepted, hof⟩ := hrow v spec spec' hspec hwritten hslot
      exact ⟨spec, spec', hspec.dict, hspec', hslot, by rw [hspec.acceptedOf, hof, haccepted]⟩
    · cases hv'
  · intro r r' hr hr'
    have hr : record = r := Option.some.inj (h.dict.symm.trans hr)
    subst hr
    have hr' := Option.some.inj hr'
    rw [correctOf_none h.flat, correctOf_none (by rw [← hr']; rfl)]

/-! ### A selection -/

theorem foldedSet_mem {ids ids' : List String} (h : ids.Perm ids') (s : String) :
    (foldedSet ids).contains s = (foldedSet ids').contains s := by
  unfold foldedSet
  rw [Bool.eq_iff_iff, List.contains_iff_mem, List.contains_iff_mem, List.mem_dedup,
    List.mem_dedup]
  exact (h.map folded).mem_iff

theorem marks_gradeSelection {answers answers' : List String} (h : answers.Perm answers')
    (spec : ScoringSpec) (expected : ℤ) (perCorrect : ℚ) (selected : List String) :
    marks ⟨[gradeSelection spec answers expected perCorrect selected]⟩ =
      marks ⟨[gradeSelection spec answers' expected perCorrect selected]⟩ := by
  have hhits : (foldedSet selected).filter (fun s => (foldedSet answers).contains s) =
      (foldedSet selected).filter (fun s => (foldedSet answers').contains s) :=
    List.filter_congr (fun s _ => foldedSet_mem h s)
  unfold marks gradeSelection
  dsimp only
  rw [hhits]
  split
  · rfl
  · split
    · rfl
    · rfl

theorem marks_setSelection {d d' : Obj} {answers answers' : List String}
    (h : answers.Perm answers') (hd : correctOf d = .ok answers) (hd' : correctOf d' = .ok answers')
    (ctx : ScoringContext) (response : Json) :
    marks <$> setSelection response d ctx = marks <$> setSelection response d' ctx := by
  have hcount : selectCount ctx.spec answers = selectCount ctx.spec answers' := by
    unfold selectCount
    rw [h.length_eq]
  unfold setSelection
  rw [hd, hd']
  change marks <$> (selectCount ctx.spec answers >>= _) =
    marks <$> (selectCount ctx.spec answers' >>= _)
  rw [hcount]
  cases selectCount ctx.spec answers' with
  | error e => rfl
  | ok expected =>
    change marks <$> (pointsPerCorrect ctx.spec >>= _) = marks <$> (pointsPerCorrect ctx.spec >>= _)
    cases pointsPerCorrect ctx.spec with
    | error e => rfl
    | ok perCorrect =>
      change marks <$> (selection response >>= _) = marks <$> (selection response >>= _)
      cases selection response with
      | error e => rfl
      | ok selected =>
        exact congrArg Except.ok (marks_gradeSelection h ctx.spec expected perCorrect selected)

theorem correctOf_eq {d : Obj} {es : List Json} (h : d.get? "correct" = some (.arr es)) :
    correctOf d = .ok (es.map pyStr) := by
  unfold correctOf getOr getD
  rw [h]
  cases es <;> rfl

def selectionKey (answers : List String) : Json :=
  .obj [("correct", .arr ((sortUnits answers).map .str))]

theorem selection_same {lo hi : ℕ} {items : Items} (hlo : 0 < lo)
    (h : (KeySchema.correct lo hi items).admits key = true) :
    (fromKey key).correct ≠ [] ∧ SameKey key (selectionKey (fromKey key).correct) ∧
      SameMarks key (selectionKey (fromKey key).correct) := by
  unfold KeySchema.admits at h
  obtain ⟨v, hv, h⟩ := (Option.any_eq_true _ _).1 h
  obtain ⟨record, hrecord, honly⟩ := Option.bind_eq_some_iff.1 hv
  obtain ⟨hget, hother⟩ := get?_onlyMember honly
  obtain ⟨ms, rfl, rfl⟩ := asDict_eq hrecord
  cases v with
  | arr es =>
    have h := of_decide_eq_true h
    have htexts := textsOf_eq (fun e he => text_of_admits (List.all_eq_true.1 h.2.2.2 e he))
    have hread : (fromKey (.obj ms)).correct = es.map pyStr := by
      unfold fromKey members?
      dsimp only
      rw [hget]
      exact htexts
    have hperm : (es.map pyStr).Perm (sortUnits (es.map pyStr)) :=
      (List.mergeSort_perm _ _).symm
    have hwritten : ((sortUnits (es.map pyStr)).map Json.str).map pyStr =
        sortUnits (es.map pyStr) := by
      rw [List.map_map]
      exact List.map_id _
    have hslots : slotsOf (.obj ms) = Dict.empty := by
      unfold slotsOf
      rw [hrecord, Option.bind_some, hother "slots" (by decide)]
      rfl
    have hnone : ∀ slot v, (slotsOf (.obj ms)).get? slot = some v → False := by
      intro slot v hv
      rw [hslots] at hv
      cases hv
    rw [hread]
    refine ⟨?_, ⟨?_, ?_, ?_⟩, ⟨?_, ?_, ?_⟩⟩
    · intro hnil
      rw [List.map_eq_nil_iff.1 hnil] at h
      exact absurd (hlo.trans_le h.1) (lt_irrefl 0)
    · intro slot
      rw [hslots]
      exact Iff.rfl
    · intro slot spec spec' hspec
      obtain ⟨v, hv, _⟩ := Option.bind_eq_some_iff.1 hspec
      exact (hnone slot v hv).elim
    · intro a
      unfold correctAnswers selectionKey
      rw [hrecord, Option.bind_some, hget]
      change a ∈ es.map pyStr ↔ a ∈ ((sortUnits (es.map pyStr)).map Json.str).map pyStr
      rw [hwritten]
      exact hperm.mem_iff
    · exact fun _ _ _ _ slot v _ hv => (hnone slot v hv).elim
    · exact fun _ _ _ slot v _ hv => (hnone slot v hv).elim
    · intro ctx response d d' hd hd'
      have hd := Option.some.inj hd
      have hd' := Option.some.inj hd'
      refine marks_setSelection hperm (hd ▸ correctOf_eq hget) ?_ ctx response
      have hof := @correctOf_eq (dictOf
        [("correct", .arr ((sortUnits (es.map pyStr)).map .str))]) _ rfl
      rwa [hwritten, ← hd'] at *
  | _ => cases h

/-! ## The types of the registry -/

theorem controlFor_completion {widget : String} (hw : widget ∈ alternativesWidgets)
    (name : String) (slots bank : List String) :
    controlFor (some (completion name widget).toDefinition) slots bank = .alternatives slots := by
  unfold controlFor
  exact if_pos hw

theorem controlFor_choice {widget : String} (hw : widget ∈ pickers) (k source : String)
    (name : Option String) (schema : SlotSchema) (slots bank : List String) :
    controlFor (some (choice k widget source name schema).toDefinition) slots bank =
      .pick (if widget ∈ singlePickers then slots.take 1 else slots) bank source := by
  have hother : widget ∉ alternativesWidgets ∧ ¬ (widget = "tfng_picker" ∨ widget = "ynng_picker") ∧
      widget ≠ "multi_option_picker" := by
    revert widget
    decide
  unfold controlFor
  change (if widget ∈ alternativesWidgets then _ else
    if widget = "tfng_picker" ∨ widget = "ynng_picker" then _ else
    if widget = "multi_option_picker" ∨ some "choice_per_slot" = some "set_selection" then _ else
    if widget ∈ pickers then _ else _) = _
  rw [if_neg hother.1, if_neg hother.2.1, if_neg, if_pos hw]
  · rfl
  · rintro (heq | heq)
    · exact hother.2.2 heq
    · exact absurd heq (by decide)

theorem completion_iff {widget : String} (hw : widget ∈ alternativesWidgets) (k : String)
    (hk : (completion k widget).keySchema.admits key = true) {slots : List String}
    (hs : slots.Perm (slotsOf key).keys) (bank : List String) :
    (Unchanged (completion k widget) slots bank key ↔ TypedSurvive key) ∧
      MarksKept (completion k widget) slots bank key := by
  obtain ⟨record, h⟩ := slotsKey_of_admits hk
  have hsaved : saved (completion k widget) slots bank key =
      slotsKey (fromKey key) (typedRow (fromKey key).caseSensitive) slots := by
    unfold saved
    rw [controlFor_completion hw]
    rfl
  unfold Unchanged MarksKept
  rw [hsaved]
  exact ⟨typed_iff_survive h hs, fun key' => slotsKey_marks h (writes_typed _)
    (fun slot hslot => hs.mem_iff.1 hslot) (fun _ _ _ hv => accepted_typed hv)⟩

theorem picked_same {single : Prop} [Decidable single] (h : SlotsKey name schema key record)
    (hstrict : schema.tolerance = false) {slots : List String}
    (hs : slots.Perm (slotsOf key).keys) {result : Except Thrown (Option Json)}
    (hsaved : result = slotsKey (fromKey key) pickedRow (if single then slots.take 1 else slots)) :
    ((∃ key', result = .ok (some key') ∧ SameKey key key') ↔ PickedSurvive key single) ∧
      ∀ key', result = .ok (some key') → SameKey key key' → SameMarks key key' := by
  subst hsaved
  exact ⟨picked_iff_survive h hstrict hs single, fun key' => slotsKey_marks h writes_picked
    (mem_of_mem_single hs) (fun _ _ _ hv => accepted_picked hv hstrict)⟩

theorem choice_iff {widget : String} (hw : widget ∈ pickers) (k source : String)
    (hstrict : schema.tolerance = false)
    (hk : (choice k widget source name schema).keySchema.admits key = true)
    {slots : List String} (hs : slots.Perm (slotsOf key).keys) (bank : List String) :
    (Unchanged (choice k widget source name schema) slots bank key ↔
        PickedSurvive key (widget ∈ singlePickers)) ∧
      MarksKept (choice k widget source name schema) slots bank key := by
  obtain ⟨record, h⟩ := slotsKey_of_admits hk
  refine picked_same h hstrict hs ?_
  unfold saved
  rw [controlFor_choice hw]
  rfl

theorem judgement_same {widget : String} (hw : widget = "tfng_picker" ∨ widget = "ynng_picker")
    (k : String) {values : List String} (hvalues : ∀ a ∈ values, trim a.toList = a.toList ∧ a ≠ "")
    (hk : (judgement k widget values).keySchema.admits key = true) {slots : List String}
    (hs : slots.Perm (slotsOf key).keys) (bank : List String) :
    Unchanged (judgement k widget values) slots bank key ∧
      MarksKept (judgement k widget values) slots bank key := by
  obtain ⟨record, h⟩ := slotsKey_of_admits hk
  have hsaved : saved (judgement k widget values) slots bank key =
      slotsKey (fromKey key) pickedRow (if True then slots.take 1 else slots) := by
    unfold saved controlFor
    rcases hw with rfl | rfl <;> rfl
  obtain ⟨hiff, hmarks⟩ := picked_same h rfl hs hsaved
  exact ⟨hiff.2 (judged_survive h hvalues True), hmarks⟩

theorem survives_completion {widget : String} (hw : widget ∈ alternativesWidgets) (k : String) :
    Survives (completion k widget) key ↔ TypedSurvive key := by
  have hpicker : widget ∉ pickers := by
    revert widget
    decide
  constructor
  · exact fun h => h.1 widget rfl hw
  · intro h
    refine ⟨fun _ _ _ => h, fun other heq hother => ?_⟩
    have heq : widget = other := Option.some.inj heq
    exact absurd (heq ▸ hother) hpicker

theorem survives_choice {widget : String} (hw : widget ∈ pickers) (k source : String) :
    Survives (choice k widget source name schema) key ↔
      PickedSurvive key (widget ∈ singlePickers) := by
  have halternatives : widget ∉ alternativesWidgets := by
    revert widget
    decide
  constructor
  · exact fun h => h.2 widget rfl hw
  · intro h
    refine ⟨fun other heq hother => ?_, fun other heq _ => ?_⟩
    · have heq : widget = other := Option.some.inj heq
      exact absurd (heq ▸ hother) halternatives
    · have heq : widget = other := Option.some.inj heq
      exact heq ▸ h

theorem survives_other {widget : String} (hwidget : t.keyWidget = some widget)
    (hw : widget ∉ alternativesWidgets ∧ widget ∉ pickers) : Survives t key := by
  refine ⟨fun other h hother => ?_, fun other h hother => ?_⟩
  · rw [hwidget] at h
    exact absurd (Option.some.inj h ▸ hother) hw.1
  · rw [hwidget] at h
    exact absurd (Option.some.inj h ▸ hother) hw.2

theorem multi_same {lo hi : ℕ} {items : Items} (hwidget : t.keyWidget = some "multi_option_picker")
    (hschema : t.keySchema = .correct lo hi items) (hlo : 0 < lo)
    (hk : t.keySchema.admits key = true) (slots bank : List String) :
    Unchanged t slots bank key ∧ MarksKept t slots bank key := by
  rw [hschema] at hk
  obtain ⟨hne, hsame, hmarks⟩ := selection_same hlo hk
  have hsaved : saved t slots bank key = .ok (some (selectionKey (fromKey key).correct)) := by
    have hcontrol : ∃ options, controlFor (some t.toDefinition) slots bank = .multi options := by
      unfold controlFor
      rw [Option.bind_some, hwidget]
      exact ⟨_, rfl⟩
    obtain ⟨options, hcontrol⟩ := hcontrol
    unfold saved
    rw [hcontrol]
    change Except.ok (if (fromKey key).correct = [] then none else _) = _
    rw [if_neg hne]
    rfl
  refine ⟨⟨_, hsaved, hsame⟩, fun key' heq _ => ?_⟩
  rw [hsaved] at heq
  exact Option.some.inj (Except.ok.inj heq) ▸ hmarks

inductive Kind : QuestionType → Prop where
  | typed (k widget : String) (hw : widget ∈ alternativesWidgets) : Kind (completion k widget)
  | picked (k widget source : String) (name : Option String) (schema : SlotSchema)
      (hw : widget ∈ pickers) (hstrict : schema.tolerance = false) :
      Kind (choice k widget source name schema)
  | judged (k widget : String) (values : List String)
      (hw : widget = "tfng_picker" ∨ widget = "ynng_picker")
      (hvalues : ∀ a ∈ values, trim a.toList = a.toList ∧ a ≠ "") : Kind (judgement k widget values)
  | selected (t : QuestionType) (lo hi : ℕ) (items : Items)
      (hwidget : t.keyWidget = some "multi_option_picker")
      (hschema : t.keySchema = .correct lo hi items) (hlo : 0 < lo) : Kind t

theorem kind_of_registry (ht : t ∈ registry) : Kind t := by
  unfold registry at ht
  repeat' rcases List.mem_cons.1 ht with rfl | ht
  all_goals first
    | exact .typed _ _ (by decide)
    | exact .picked _ _ _ _ _ (by decide) rfl
    | exact .judged _ _ _ (by decide) (by decide)
    | exact .selected _ _ _ _ rfl rfl (by decide)
    | cases ht

/-- A key that a schema of the registry admits, opened and saved, is the same key exactly where it
survives the editor, and then every response is marked as before. -/
theorem unchanged_iff (ht : t ∈ registry) (hk : t.keySchema.admits key = true) {slots : List String}
    (hs : slots.Perm (slotsOf key).keys) (bank : List String) :
    (Unchanged t slots bank key ↔ Survives t key) ∧
      ∀ key', saved t slots bank key = .ok (some key') → SameKey key key' → SameMarks key key' := by
  change _ ∧ MarksKept t slots bank key
  cases kind_of_registry ht with
  | typed k widget hw =>
    rw [survives_completion hw]
    exact completion_iff hw k hk hs bank
  | picked k widget source name schema hw hstrict =>
    rw [survives_choice hw]
    exact choice_iff hw k source hstrict hk hs bank
  | judged k widget values hw hvalues =>
    obtain ⟨hsame, hmarks⟩ := judgement_same hw k hvalues hk hs bank
    have hother : widget ∉ alternativesWidgets ∧ widget ∉ pickers := by
      rcases hw with rfl | rfl <;> decide
    exact ⟨iff_of_true hsame (survives_other rfl hother), hmarks⟩
  | selected t lo hi items hwidget hschema hlo =>
    obtain ⟨hsame, hmarks⟩ := multi_same hwidget hschema hlo hk slots bank
    exact ⟨iff_of_true hsame (survives_other hwidget (by decide)), hmarks⟩

/-! ## Keys that change when they are looked at -/

def shortAnswer : QuestionType := completion "short_answer" "alternatives_editor"

def matchingFeatures : QuestionType :=
  choice "matching_features" "option_picker" "group.option_bank" (some "s1") { items := .text 0 }

def mcqSingle : QuestionType :=
  choice "mcq_single" "single_option_picker" "payload.options" none { items := .text 0 }

def answers (l : List String) : String × Json := ("accept", .arr (l.map .str))

def answerKey (specs : List (String × List (String × Json))) : Json :=
  .obj [("slots", .obj (specs.map (fun s => (s.1, .obj s.2))))]

def Changes (t : QuestionType) (key : Json) : Prop :=
  t ∈ registry ∧ t.keySchema.admits key = true ∧ ¬ Unchanged t (slotsOf key).keys [] key

theorem shortAnswer_mem : shortAnswer ∈ registry := by
  simp [registry, shortAnswer]

theorem changes_shortAnswer (hk : shortAnswer.keySchema.admits key = true)
    (h : ¬ TypedSurvive key) : Changes shortAnswer key :=
  ⟨shortAnswer_mem, hk,
    mt (completion_iff (by decide) "short_answer" hk (List.Perm.refl _) []).1.1 h⟩

theorem changes_matchingFeatures (hk : matchingFeatures.keySchema.admits key = true)
    (h : ¬ PickedSurvive key ("option_picker" ∈ singlePickers)) : Changes matchingFeatures key :=
  ⟨by simp [registry, matchingFeatures], hk,
    mt (choice_iff (by decide) _ _ rfl hk (List.Perm.refl _) []).1.1 h⟩

theorem changes_mcqSingle (hk : mcqSingle.keySchema.admits key = true)
    (h : ¬ PickedSurvive key ("single_option_picker" ∈ singlePickers)) : Changes mcqSingle key :=
  ⟨by simp [registry, mcqSingle], hk,
    mt (choice_iff (by decide) _ _ rfl hk (List.Perm.refl _) []).1.1 h⟩

def trimmed : ScoringContext where
  payload := Dict.empty
  group := {}
  spec := { primitive := .textPerSlot }
  pipeline := ⟨[.trim], {}, 0, by decide⟩
  tolerance := Dict.empty

def verdictOn (answer : String) (spec : List (String × Json)) : Option Verdict :=
  ((textSlot trimmed 1 (.obj [("s1", .str answer)]) ("s1", .obj spec)).toOption).map
    SlotScore.verdict

def fourteen : Json := answerKey [("s1", [answers ["14"]])]

theorem unchanged_iff_fourteen :
    (Unchanged shortAnswer ["s1"] [] fourteen ↔ Survives shortAnswer fourteen) ∧
      ∀ key', saved shortAnswer ["s1"] [] fourteen = .ok (some key') → SameKey fourteen key' →
        SameMarks fourteen key' :=
  unchanged_iff shortAnswer_mem (by decide +kernel) (List.Perm.refl ["s1"]) []

/-- A comma in an answer, a case that is one slot's, normalizers, two answers where one is picked,
two slots where one is drawn; and a response that comes to be correct. -/
theorem looked_at :
    Changes shortAnswer (answerKey [("s1", [answers ["1,000"]])]) ∧
    Changes shortAnswer (answerKey [("s1", [answers ["Kim"], ("case_sensitive", .bool true)]),
      ("s2", [answers ["pen"]])]) ∧
    Changes shortAnswer
      (answerKey [("s1", [answers ["14"], ("normalizers", .arr [.str "trim"])])]) ∧
    Changes matchingFeatures (answerKey [("s1", [answers ["A", "B"]])]) ∧
    Changes mcqSingle (answerKey [("s1", [answers ["A"]]), ("s2", [answers ["B"]])]) ∧
    saved shortAnswer ["s1"] [] (answerKey [("s1", [answers ["1,000"]])]) =
      .ok (some (answerKey [("s1", [answers ["1", "000"]])])) ∧
    verdictOn "1" [answers ["1,000"]] = some .incorrect ∧
    verdictOn "1" [answers ["1", "000"]] = some .correct := by
  refine ⟨changes_shortAnswer (by decide +kernel) (fun h => ?_),
    changes_shortAnswer (by decide +kernel) (fun h => ?_),
    changes_shortAnswer (by decide +kernel) (fun h => ?_),
    changes_matchingFeatures (by decide +kernel) (fun h => ?_),
    changes_mcqSingle (by decide +kernel) (fun h => ?_),
    by decide +kernel, by decide +kernel, by decide +kernel⟩
  · have hplain := h.plain "s1" _ rfl "1,000" (by decide +kernel)
    exact absurd (hplain.whole ',' (by decide)) (by decide)
  · exact absurd (h.oneCase "s1" _ "s2" _ rfl rfl) (by decide +kernel)
  · exact absurd (h.untuned "s1" _ rfl).1 (by decide +kernel)
  · obtain ⟨a, ha, _⟩ := h.one "s1" _ rfl
    have hlength : (["A", "B"] : List String).length = 1 := congrArg List.length ha
    exact absurd hlength (by decide)
  · exact absurd (h.alone (by decide)) (by decide +kernel)

end IeltsHub.KeyRoundTrip
