import IeltsHub.AnswerTexts

set_option autoImplicit false

/-!
# What is read of a key

The marker reads slots, answers and tolerance; the editor reads a text for each slot and one flag,
and writes what its rows become. When a key of slots that goes through the editor is the same key.
-/
namespace IeltsHub.KeyReading
open PyDict PyText PyValue QtypesSchemas QtypesPrimitives MarkerText KeyEditor

/-! ## What the marker reads of a key -/

def slotsOf (key : Json) : Obj :=
  (((asDict key).bind (·.get? "slots")).bind asDict).getD Dict.empty

def specOf (key : Json) (slot : String) : Option Obj := ((slotsOf key).get? slot).bind asDict

def answersOf : Option Json → List String
  | some (.arr es) => es.map pyStr
  | _ => []

def accepted (spec : Obj) : List String := answersOf (spec.get? "accept")

def correctAnswers (key : Json) : List String :=
  answersOf ((asDict key).bind (·.get? "correct"))

def caseSensitive (spec : Obj) : Bool := truthy (getD spec "case_sensitive" .null)

def normalizers (spec : Obj) : Json := getOr spec "normalizers" .null

def wordLimit (spec : Obj) : Json := getOr spec "word_limit" .null

structure SameSlot (spec spec' : Obj) : Prop where
  accept : ∀ a, a ∈ accepted spec ↔ a ∈ accepted spec'
  case : caseSensitive spec = caseSensitive spec'
  normal : normalizers spec = normalizers spec'
  limit : wordLimit spec = wordLimit spec'

structure SameKey (key key' : Json) : Prop where
  slots : ∀ slot, slot ∈ (slotsOf key).keys ↔ slot ∈ (slotsOf key').keys
  each : ∀ slot spec spec', specOf key slot = some spec → specOf key' slot = some spec' →
    SameSlot spec spec'
  correct : ∀ a, a ∈ correctAnswers key ↔ a ∈ correctAnswers key'

def marks (score : ItemScore) : List (String × ℚ × ℚ × Verdict) :=
  score.slots.map (fun s => (s.slotKey, s.awarded, s.maxPoints, s.verdict))

/-- Every response is marked alike, by each primitive and in every context. -/
structure SameMarks (key key' : Json) : Prop where
  choice : ∀ ctx options perSlot submitted slot v v', (slotsOf key).get? slot = some v →
    (slotsOf key').get? slot = some v' →
    choiceSlot ctx options perSlot submitted (slot, v) =
      choiceSlot ctx options perSlot submitted (slot, v')
  text : ∀ ctx perSlot submitted slot v v', (slotsOf key).get? slot = some v →
    (slotsOf key').get? slot = some v' →
    textSlot ctx perSlot submitted (slot, v) = textSlot ctx perSlot submitted (slot, v')
  selection : ∀ ctx response record record', asDict key = some record →
    asDict key' = some record' →
    marks <$> setSelection response record ctx = marks <$> setSelection response record' ctx

/-! ## A key of slots -/

/-- What the schema of a key of slots says. -/
structure SlotsKey (name : Option String) (schema : SlotSchema) (key : Json) (record : Obj) :
    Prop where
  dict : asDict key = some record
  members : objectEntries ((record.get? "slots").getD .null) = (slotsOf key).entries
  given : (record.get? "slots").isSome = true
  flat : record.get? "correct" = none
  nonempty : (slotsOf key).entries ≠ []
  named : ∀ s, name = some s → (slotsOf key).keys = [s]
  each : ∀ e ∈ (slotsOf key).entries, schema.admits e.2 = true

theorem get?_onlyMember {d : Obj} {name : String} {v : Json} (h : onlyMember d name = some v) :
    d.get? name = some v ∧ ∀ other, other ≠ name → d.get? other = none := by
  unfold onlyMember at h
  split at h
  · next hkeys =>
    refine ⟨h, fun other hne => ?_⟩
    rw [Dict.get?_eq_none, hkeys, List.mem_singleton]
    exact hne
  · cases h

theorem asDict_eq {v : Json} {d : Obj} (h : asDict v = some d) :
    ∃ ms, v = .obj ms ∧ d = dictOf ms := by
  cases v with
  | obj ms => exact ⟨ms, rfl, (Option.some.inj h).symm⟩
  | _ => cases h

theorem slotsKey_of_admits {name : Option String} {schema : SlotSchema} {key : Json}
    (h : (KeySchema.slots name schema).admits key = true) :
    ∃ record, SlotsKey name schema key record := by
  unfold KeySchema.admits at h
  obtain ⟨slots, hslots, h⟩ := (Option.any_eq_true _ _).1 h
  obtain ⟨v, hv, hdict⟩ := Option.bind_eq_some_iff.1 hslots
  obtain ⟨record, hrecord, honly⟩ := Option.bind_eq_some_iff.1 hv
  obtain ⟨hget, hother⟩ := get?_onlyMember honly
  have h := of_decide_eq_true h
  have hof : slotsOf key = slots := by
    unfold slotsOf
    rw [hrecord, Option.bind_some, hget, Option.bind_some, hdict]
    rfl
  obtain ⟨ms, rfl, rfl⟩ := asDict_eq hdict
  refine ⟨record, hrecord, ?_, ?_, hother "correct" (by decide), ?_, ?_, ?_⟩
  · rw [hget, hof]
    rfl
  · rw [hget]
    rfl
  · rw [hof]
    exact h.1
  · rintro s rfl
    rw [hof]
    exact of_decide_eq_true h.2.1
  · rw [hof]
    exact List.all_eq_true.1 h.2.2

/-- What the schema of a slot says. -/
structure SlotSpec (schema : SlotSchema) (v : Json) (spec : Obj) : Prop where
  dict : asDict v = some spec
  accept : ∃ es, spec.get? "accept" = some (.arr es) ∧ es ≠ [] ∧
    (∀ n, schema.maxItems = some n → es.length ≤ n) ∧ ∀ e ∈ es, schema.items.admits e = true
  case : ∀ v, spec.get? "case_sensitive" = some v → schema.tolerance = true ∧ ∃ b, v = .bool b
  tuned : ∀ name, name = "normalizers" ∨ name = "word_limit" → (spec.get? name).isSome = true →
    schema.tolerance = true

theorem slotSpec_of_admits {schema : SlotSchema} {v : Json} (h : schema.admits v = true) :
    ∃ spec, SlotSpec schema v spec := by
  unfold SlotSchema.admits at h
  obtain ⟨spec, hspec, h⟩ := (Option.any_eq_true _ _).1 h
  have h := of_decide_eq_true h
  have hmember : ∀ name w, spec.get? name = some w → schema.admitsMember (name, w) = true :=
    fun name w hw => List.all_eq_true.1 h.2 (name, w) (Dict.get?_eq_some.1 hw)
  refine ⟨spec, hspec, ?_, ?_, ?_⟩
  · obtain ⟨w, hw⟩ := Option.isSome_iff_exists.1 h.1
    have hadmits := hmember _ _ hw
    cases w with
    | arr es =>
      have hadmits := of_decide_eq_true hadmits
      refine ⟨es, hw, hadmits.1, fun n hn => ?_, List.all_eq_true.1 hadmits.2.2⟩
      have hmax := hadmits.2.1
      rw [hn] at hmax
      exact of_decide_eq_true hmax
    | _ => cases hadmits
  · intro w hw
    have hadmits := hmember _ _ hw
    cases w with
    | bool b => exact ⟨hadmits, b, rfl⟩
    | _ => cases hadmits
  · rintro name hname hsome
    obtain ⟨w, hw⟩ := Option.isSome_iff_exists.1 hsome
    have hadmits := hmember _ _ hw
    rcases hname with rfl | rfl
    · cases w with
      | arr es => exact (of_decide_eq_true hadmits).1
      | _ => cases hadmits
    · cases w with
      | obj ms => exact hadmits
      | _ => cases hadmits

variable {name : Option String} {schema : SlotSchema} {key key' : Json} {record spec spec' : Obj}
  {v : Json} {slot : String} {t : QuestionType} {L bank : List String}

theorem text_of_admits {items : Items} {e : Json} (h : items.admits e = true) :
    ∃ s, e = .str s := by
  cases e with
  | str s => exact ⟨s, rfl⟩
  | _ => cases items <;> cases h

theorem textsOf_eq {es : List Json} (h : ∀ e ∈ es, ∃ s, e = .str s) :
    textsOf (some (.arr es)) = answersOf (some (.arr es)) := by
  change es.filterMap text? = es.map pyStr
  induction es with
  | nil => rfl
  | cons e es ih =>
    obtain ⟨s, rfl⟩ := h e List.mem_cons_self
    rw [List.filterMap_cons, List.map_cons]
    exact congrArg (s :: ·) (ih (fun x hx => h x (List.mem_cons_of_mem _ hx)))

theorem SlotSpec.texts (h : SlotSpec schema v spec) :
    textsOf (spec.get? "accept") = accepted spec := by
  obtain ⟨es, hes, _, _, hitems⟩ := h.accept
  unfold accepted
  rw [hes]
  exact textsOf_eq (fun e he => text_of_admits (hitems e he))

theorem SlotSpec.accepted_ne_nil (h : SlotSpec schema v spec) : accepted spec ≠ [] := by
  obtain ⟨es, hes, hne, _⟩ := h.accept
  unfold accepted
  rw [hes]
  exact mt List.map_eq_nil_iff.1 hne

theorem SlotSpec.acceptedOf (h : SlotSpec schema v spec) :
    acceptedOf spec = .ok (accepted spec) := by
  obtain ⟨es, hes, _⟩ := h.accept
  unfold QtypesPrimitives.acceptedOf accepted getD
  rw [hes]
  rfl

theorem SlotSpec.flag (h : SlotSpec schema v spec) :
    decide (spec.get? "case_sensitive" = some (.bool true)) = caseSensitive spec := by
  unfold caseSensitive getD
  cases hget : spec.get? "case_sensitive" with
  | none => rfl
  | some w =>
    obtain ⟨_, b, rfl⟩ := h.case w hget
    cases b <;> rfl

theorem SlotSpec.members (h : SlotSpec schema v spec) : members? v = some spec := by
  obtain ⟨ms, rfl, rfl⟩ := asDict_eq h.dict
  rfl

theorem SlotSpec.untuned (h : SlotSpec schema v spec) (hstrict : schema.tolerance = false) :
    caseSensitive spec = false ∧ normalizers spec = .null ∧ wordLimit spec = .null := by
  have hcase : spec.get? "case_sensitive" = none := by
    cases hget : spec.get? "case_sensitive" with
    | none => rfl
    | some w =>
      have htolerance := (h.case w hget).1
      rw [hstrict] at htolerance
      cases htolerance
  have habsent : ∀ name, name = "normalizers" ∨ name = "word_limit" → spec.get? name = none := by
    intro name hname
    cases hget : spec.get? name with
    | none => rfl
    | some w =>
      have htolerance := h.tuned name hname (by rw [hget]; rfl)
      rw [hstrict] at htolerance
      cases htolerance
  unfold caseSensitive normalizers wordLimit getOr getD
  rw [hcase, habsent _ (.inl rfl), habsent _ (.inr rfl)]
  exact ⟨rfl, rfl, rfl⟩

/-! ## What the editor reads -/

def rowText (v : Json) : Option (List Char) :=
  (members? v).map (fun inner =>
    joinAlternatives ((textsOf (inner.get? "accept")).map String.toList))

def flagged (v : Json) : Bool :=
  (members? v).any (fun inner => inner.get? "case_sensitive" = some (.bool true))

theorem get?_assign (slots : Dict String (List Char)) (slot k : String) (text : List Char) :
    (assign slots slot text).get? k =
      if slot = k ∧ k ≠ "__proto__" then some text else slots.get? k := by
  unfold assign
  split
  · next hproto =>
    rw [if_neg]
    rintro ⟨rfl, hne⟩
    exact hne hproto
  · next hproto =>
    rw [Dict.get?_put]
    by_cases hk : slot = k
    · subst hk
      rw [if_pos rfl, if_pos ⟨rfl, hproto⟩]
    · rw [if_neg hk, if_neg (fun h => hk h.1)]

theorem get?_readSlot (value : KeyValue) (entry : String × Json) (k : String) :
    (readSlot value entry).slots.get? k =
      if entry.1 = k ∧ k ≠ "__proto__" then (rowText entry.2).or (value.slots.get? k)
      else value.slots.get? k := by
  unfold readSlot rowText
  cases members? entry.2 with
  | none => simp
  | some inner => exact get?_assign ..

theorem caseSensitive_readSlot (value : KeyValue) (entry : String × Json) :
    (readSlot value entry).caseSensitive = (value.caseSensitive || flagged entry.2) := by
  unfold readSlot flagged
  cases members? entry.2 with
  | none => simp
  | some inner => rfl

theorem get?_foldl_of_not_mem {es : List (String × Json)} {k : String}
    (hk : k ∉ es.map Prod.fst ∨ k = "__proto__") (value : KeyValue) :
    (es.foldl readSlot value).slots.get? k = value.slots.get? k := by
  induction es generalizing value with
  | nil => rfl
  | cons e es ih =>
    have hrest : k ∉ es.map Prod.fst ∨ k = "__proto__" :=
      hk.imp (fun hk hmem => hk (List.mem_cons_of_mem _ hmem)) id
    rw [List.foldl_cons, ih hrest, get?_readSlot, if_neg]
    rintro ⟨rfl, hne⟩
    rcases hk with hk | hk
    · exact hk List.mem_cons_self
    · exact hne hk

theorem get?_foldl {es : List (String × Json)} {k : String} {v : Json} {text : List Char}
    (hnodup : (es.map Prod.fst).Nodup) (hmem : (k, v) ∈ es) (hne : k ≠ "__proto__")
    (htext : rowText v = some text) (value : KeyValue) :
    (es.foldl readSlot value).slots.get? k = some text := by
  induction es generalizing value with
  | nil => cases hmem
  | cons e es ih =>
    obtain ⟨hnot, hnodup⟩ := List.nodup_cons.1 hnodup
    rw [List.foldl_cons]
    rcases List.mem_cons.1 hmem with rfl | hmem
    · rw [get?_foldl_of_not_mem (.inl hnot), get?_readSlot, if_pos ⟨rfl, hne⟩, htext]
      rfl
    · exact ih hnodup hmem _

theorem caseSensitive_foldl (es : List (String × Json)) (value : KeyValue) :
    (es.foldl readSlot value).caseSensitive =
      (value.caseSensitive || es.any (fun e => flagged e.2)) := by
  induction es generalizing value with
  | nil => simp
  | cons e es ih => rw [List.foldl_cons, ih, caseSensitive_readSlot, List.any_cons, Bool.or_assoc]

theorem SlotsKey.fromKey_eq (h : SlotsKey name schema key record) :
    fromKey key = (slotsOf key).entries.foldl readSlot emptyValue := by
  obtain ⟨ms, rfl, rfl⟩ := asDict_eq h.dict
  obtain ⟨w, hw⟩ := Option.isSome_iff_exists.1 h.given
  have hmembers := h.members
  rw [hw, Option.getD_some] at hmembers
  unfold fromKey members?
  dsimp only
  rw [h.flat, hw, ← hmembers]
  rfl

theorem SlotsKey.exists_spec (h : SlotsKey name schema key record)
    (hv : (slotsOf key).get? slot = some v) : ∃ spec, SlotSpec schema v spec :=
  slotSpec_of_admits (h.each (slot, v) (Dict.get?_eq_some.1 hv))

theorem SlotsKey.spec_of_specOf (h : SlotsKey name schema key record)
    (hspec : specOf key slot = some spec) :
    ∃ v, (slotsOf key).get? slot = some v ∧ SlotSpec schema v spec := by
  obtain ⟨v, hv, hdict⟩ := Option.bind_eq_some_iff.1 hspec
  obtain ⟨spec', hspec'⟩ := h.exists_spec hv
  have heq := Option.some.inj (hspec'.dict.symm.trans hdict)
  exact ⟨v, hv, heq ▸ hspec'⟩

theorem SlotsKey.specOf_of_mem (h : SlotsKey name schema key record)
    (hslot : slot ∈ (slotsOf key).keys) : ∃ spec, specOf key slot = some spec := by
  obtain ⟨v, hv⟩ := Dict.mem_keys.1 hslot
  obtain ⟨spec, hspec⟩ := h.exists_spec hv
  exact ⟨spec, Option.bind_eq_some_iff.2 ⟨v, hv, hspec.dict⟩⟩

theorem mem_keys_of_specOf (h : specOf key slot = some spec) : slot ∈ (slotsOf key).keys := by
  obtain ⟨v, hv, _⟩ := Option.bind_eq_some_iff.1 h
  exact Dict.mem_keys.2 ⟨v, hv⟩

def shown (spec : Obj) : List Char := joinAlternatives ((accepted spec).map String.toList)

theorem SlotsKey.row (h : SlotsKey name schema key record) (hspec : specOf key slot = some spec)
    (hne : slot ≠ "__proto__") : (fromKey key).slots.get? slot = some (shown spec) := by
  obtain ⟨v, hv, hslot⟩ := h.spec_of_specOf hspec
  have htext : rowText v = some (shown spec) := by
    unfold rowText
    rw [hslot.members, Option.map_some, hslot.texts]
    rfl
  rw [h.fromKey_eq]
  exact get?_foldl (slotsOf key).nodup (Dict.get?_eq_some.1 hv) hne htext _

theorem SlotsKey.proto (h : SlotsKey name schema key record) :
    (fromKey key).slots.get? "__proto__" = none := by
  rw [h.fromKey_eq, get?_foldl_of_not_mem (.inr rfl)]
  rfl

theorem SlotsKey.caseSensitive (h : SlotsKey name schema key record) :
    (fromKey key).caseSensitive = true ↔
      ∃ slot spec, specOf key slot = some spec ∧ KeyReading.caseSensitive spec = true := by
  rw [h.fromKey_eq, caseSensitive_foldl]
  change List.any _ _ = true ↔ _
  rw [List.any_eq_true]
  constructor
  · rintro ⟨e, he, hflag⟩
    obtain ⟨spec, hspec⟩ := h.exists_spec (Dict.get?_eq_some.2 he)
    refine ⟨e.1, spec, Option.bind_eq_some_iff.2 ⟨e.2, Dict.get?_eq_some.2 he, hspec.dict⟩, ?_⟩
    rw [← hspec.flag]
    unfold flagged at hflag
    rwa [hspec.members] at hflag
  · rintro ⟨slot, spec, hspec, hcase⟩
    obtain ⟨v, hv, hslot⟩ := h.spec_of_specOf hspec
    refine ⟨(slot, v), Dict.get?_eq_some.1 hv, ?_⟩
    unfold flagged
    rw [hslot.members]
    exact hslot.flag.trans hcase

/-! ## What the editor writes -/

variable {value : KeyValue} {row : List Char → Option Json}

def rowJson (row : List Char → Option Json) (text : List Char) : Option Json :=
  if trim text = [] then none else row (trim text)

def built (value : KeyValue) (row : List Char → Option Json) (L : List String) : Obj :=
  L.foldl (fun b slot => (((value.slots.get? slot).bind (rowJson row)).elim b (b.put slot)))
    Dict.empty

theorem foldlM_writeSlot (h : ∀ slot ∈ L, (value.slots.get? slot).isSome = true) (b : Obj) :
    L.foldlM (writeSlot value row) b =
      .ok (L.foldl (fun b slot =>
        (((value.slots.get? slot).bind (rowJson row)).elim b (b.put slot))) b) := by
  induction L generalizing b with
  | nil => rfl
  | cons slot L ih =>
    obtain ⟨text, htext⟩ := Option.isSome_iff_exists.1 (h slot List.mem_cons_self)
    have hstep : writeSlot value row b slot =
        .ok ((rowJson row text).elim b (b.put slot)) := by
      unfold writeSlot trimmedAt rowJson
      rw [htext]
      rfl
    rw [List.foldlM_cons, hstep, List.foldl_cons, htext]
    exact ih (fun s hs => h s (List.mem_cons_of_mem _ hs)) _

theorem not_proto_of_foldlM (hproto : value.slots.get? "__proto__" = none) {b b' : Obj}
    (h : L.foldlM (writeSlot value row) b = .ok b') : "__proto__" ∉ L := by
  induction L generalizing b with
  | nil => exact List.not_mem_nil
  | cons slot L ih =>
    rw [List.foldlM_cons] at h
    rintro hmem
    rcases List.mem_cons.1 hmem with rfl | hmem
    · unfold writeSlot trimmedAt at h
      rw [hproto] at h
      cases h
    · cases hstep : writeSlot value row b slot with
      | error e =>
        rw [hstep] at h
        cases h
      | ok b₁ =>
        rw [hstep] at h
        exact ih h hmem

theorem get?_foldl_elim {f : String → Option Json} (b : Obj) (k : String) :
    (L.foldl (fun b slot => (f slot).elim b (b.put slot)) b).get? k =
      if k ∈ L then (f k).or (b.get? k) else b.get? k := by
  induction L generalizing b with
  | nil => rfl
  | cons slot L ih =>
    rw [List.foldl_cons, ih]
    cases hf : f slot with
    | none =>
      by_cases hk : k = slot
      · subst hk
        simp [hf]
      · simp [hk]
    | some w =>
      by_cases hk : k = slot
      · subst hk
        simp [hf]
      · have hne : slot ≠ k := fun q => hk q.symm
        simp [hk, Dict.get?_put_of_ne _ _ hne]

theorem get?_built (k : String) : (built value row L).get? k =
    if k ∈ L then (value.slots.get? k).bind (rowJson row) else none := by
  unfold built
  rw [get?_foldl_elim, Dict.get?_empty, Option.or_none]

theorem slotsOf_built (built : Obj) : slotsOf (.obj [("slots", .obj built.entries)]) = built := by
  change (Dict.ofList built.entries) = built
  exact Dict.ofList_entries built

theorem slotsKey_eq_ok (hread : ∀ slot ∈ L, slot ≠ "__proto__" →
      (value.slots.get? slot).isSome = true) (hproto : value.slots.get? "__proto__" = none) :
    slotsKey value row L = .ok (some key') ↔ "__proto__" ∉ L ∧
      (built value row L).entries ≠ [] ∧
      key' = .obj [("slots", .obj (built value row L).entries)] := by
  unfold slotsKey
  constructor
  · intro h
    cases hfold : L.foldlM (writeSlot value row) Dict.empty with
    | error e =>
      rw [hfold] at h
      cases h
    | ok b =>
      have hnot := not_proto_of_foldlM hproto hfold
      have hsome : ∀ slot ∈ L, (value.slots.get? slot).isSome = true :=
        fun slot hslot => hread slot hslot (fun heq => hnot (heq ▸ hslot))
      rw [foldlM_writeSlot hsome] at h
      change Except.ok (if (built value row L).entries = [] then none
        else some (Json.obj [("slots", .obj (built value row L).entries)])) = _ at h
      split at h
      · cases h
      · next hne => exact ⟨hnot, hne, (Option.some.inj (Except.ok.inj h)).symm⟩
  · rintro ⟨hnot, hne, rfl⟩
    have hsome : ∀ slot ∈ L, (value.slots.get? slot).isSome = true :=
      fun slot hslot => hread slot hslot (fun heq => hnot (heq ▸ hslot))
    rw [foldlM_writeSlot hsome]
    change Except.ok (if (built value row L).entries = [] then none
      else some (Json.obj [("slots", .obj (built value row L).entries)])) = _
    rw [if_neg hne]

/-! ## When it is the same key -/

def writtenSpec (row : List Char → Option Json) (spec : Obj) : Option Obj :=
  (rowJson row (shown spec)).bind asDict

theorem SlotsKey.correct (h : SlotsKey name schema key record) : correctAnswers key = [] := by
  unfold correctAnswers
  rw [h.dict, Option.bind_some, h.flat]
  rfl

theorem SlotsKey.readable (h : SlotsKey name schema key record)
    (hL : ∀ slot ∈ L, slot ∈ (slotsOf key).keys) :
    ∀ slot ∈ L, slot ≠ "__proto__" → ((fromKey key).slots.get? slot).isSome = true := by
  intro slot hslot hne
  obtain ⟨spec, hspec⟩ := h.specOf_of_mem (hL slot hslot)
  rw [h.row hspec hne]
  rfl

theorem SlotsKey.specOf_built (h : SlotsKey name schema key record)
    (row : List Char → Option Json) (hspec : specOf key slot = some spec)
    (hne : slot ≠ "__proto__") (hslot : slot ∈ L) :
    specOf (.obj [("slots", .obj (built (fromKey key) row L).entries)]) slot =
      writtenSpec row spec := by
  unfold specOf
  rw [slotsOf_built, get?_built, if_pos hslot, h.row hspec hne, Option.bind_some]
  rfl

def Writes (row : List Char → Option Json) : Prop :=
  ∀ cs v, row cs = some v → ∃ d, asDict v = some d

theorem slotsKey_same_iff (h : SlotsKey name schema key record) (hrow : Writes row)
    (hL : ∀ slot ∈ L, slot ∈ (slotsOf key).keys) :
    (∃ key', slotsKey (fromKey key) row L = .ok (some key') ∧ SameKey key key') ↔
      "__proto__" ∉ (slotsOf key).keys ∧ (∀ slot ∈ (slotsOf key).keys, slot ∈ L) ∧
      ∀ slot spec, specOf key slot = some spec →
        ∃ spec', writtenSpec row spec = some spec' ∧ SameSlot spec spec' := by
  have hread := h.readable hL
  constructor
  · rintro ⟨key', hsaved, hsame⟩
    obtain ⟨hnot, _, rfl⟩ := (slotsKey_eq_ok hread h.proto).1 hsaved
    have hin : ∀ slot ∈ (slotsOf key).keys, slot ∈ L := by
      intro slot hslot
      have hslot := (hsame.slots slot).1 hslot
      rw [slotsOf_built] at hslot
      obtain ⟨w, hw⟩ := Dict.mem_keys.1 hslot
      rw [get?_built] at hw
      split at hw
      · assumption
      · cases hw
    refine ⟨fun hmem => hnot (hin _ hmem), hin, fun slot spec hspec => ?_⟩
    have hslot := mem_keys_of_specOf hspec
    have hne : slot ≠ "__proto__" := fun heq => hnot (heq ▸ hin _ hslot)
    have hwritten := h.specOf_built row hspec hne (hin _ hslot)
    have hmem := (hsame.slots slot).1 hslot
    rw [slotsOf_built] at hmem
    obtain ⟨w, hw⟩ := Dict.mem_keys.1 hmem
    rw [get?_built, if_pos (hin _ hslot), h.row hspec hne, Option.bind_some] at hw
    have hobj : ∃ d, asDict w = some d := by
      unfold rowJson at hw
      split at hw
      · cases hw
      · exact hrow _ _ hw
    obtain ⟨spec', hspec'⟩ := hobj
    have hsome : writtenSpec row spec = some spec' := by
      unfold writtenSpec
      rw [hw]
      exact hspec'
    exact ⟨spec', hsome, hsame.each slot spec spec' hspec (hwritten.trans hsome)⟩
  · rintro ⟨hproto, hin, heach⟩
    have hnot : "__proto__" ∉ L := fun hmem => hproto (hL _ hmem)
    have hkeys : ∀ slot ∈ (slotsOf key).keys, slot ∈ (built (fromKey key) row L).keys := by
      intro slot hslot
      obtain ⟨spec, hspec⟩ := h.specOf_of_mem hslot
      obtain ⟨spec', hwritten, _⟩ := heach slot spec hspec
      have hne : slot ≠ "__proto__" := fun heq => hproto (heq ▸ hslot)
      have hdict := h.specOf_built row hspec hne (hin _ hslot)
      unfold specOf at hdict
      rw [slotsOf_built, hwritten] at hdict
      obtain ⟨w, hw, _⟩ := Option.bind_eq_some_iff.1 hdict
      exact Dict.mem_keys.2 ⟨w, hw⟩
    have hne : (built (fromKey key) row L).entries ≠ [] := by
      obtain ⟨e, es, hes⟩ := List.exists_cons_of_ne_nil h.nonempty
      have hmem : e.1 ∈ (slotsOf key).keys :=
        List.mem_map.2 ⟨e, hes ▸ List.mem_cons_self, rfl⟩
      have hmem := hkeys _ hmem
      intro hnil
      unfold Dict.keys at hmem
      rw [hnil] at hmem
      cases hmem
    refine ⟨_, (slotsKey_eq_ok hread h.proto).2 ⟨hnot, hne, rfl⟩, ?_, ?_, ?_⟩
    · intro slot
      rw [slotsOf_built]
      refine ⟨hkeys slot, fun hslot => ?_⟩
      obtain ⟨w, hw⟩ := Dict.mem_keys.1 hslot
      rw [get?_built] at hw
      split at hw
      · next hslot => exact hL _ hslot
      · cases hw
    · intro slot spec spec' hspec hspec'
      have hslot := mem_keys_of_specOf hspec
      have hne : slot ≠ "__proto__" := fun heq => hproto (heq ▸ hslot)
      obtain ⟨spec'', hwritten, hsame⟩ := heach slot spec hspec
      rw [h.specOf_built row hspec hne (hin _ hslot), hwritten] at hspec'
      exact Option.some.inj hspec' ▸ hsame
    · intro a
      rw [h.correct]
      exact Iff.rfl

end IeltsHub.KeyReading
