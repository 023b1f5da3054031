import IeltsHub.KeySoundness

set_option autoImplicit false

/-!
# The blanks that a payload presents

A blank is a marker in a text, a member `slot` of a cell or of a field, an entry of `slots` with a
key, or a question as a whole. The gate looks at the markers of some fields. When the slots that are
scored are on the page.
-/
namespace IeltsHub.PresentedBlanks
open PyExc PyText PyValue PyDict PlatformFindings QtypesSchemas QtypesRegistry ContentComposition
  ContentPublishGate PublishGatePasses ScoringTotality KeySoundness

/-! ## What a payload presents -/

def items : Json → List Json
  | .arr es => es
  | _ => []

def member (v : Json) (name : String) : Json :=
  (asDict v).elim .null (fun d => getD d name .null)

def textOf : Json → List String
  | .str s => [s]
  | _ => []

mutual
/-- The members named `slot`, at any depth. -/
def carriedIn : Json → List String
  | .arr es => carriedInList es
  | .obj ms => carriedInMembers ms
  | _ => []

def carriedInList : List Json → List String
  | [] => []
  | e :: es => carriedIn e ++ carriedInList es

def carriedInMembers : List (String × Json) → List String
  | [] => []
  | (name, v) :: ms => (if name = "slot" then textOf v else []) ++ carriedIn v ++
      carriedInMembers ms
end

/-- The keys of the entries of `slots`. -/
def keyed (payload : Obj) : List String :=
  (items (getD payload "slots" .null)).flatMap (fun e => textOf (member e "key"))

def questionFields : List String := ["question", "statement", "stem"]

def isWhole (payload : Obj) : Bool := questionFields.any (fun f => (payload.get? f).isSome)

def wholeSlot (payload : Obj) : String :=
  (((items (getD payload "slots" .null)).flatMap textOf).head?).getD "s1"

def placed (payload : Obj) : List String :=
  markersInMembers payload.entries ++ carriedInMembers payload.entries ++ keyed payload

def presented (payload : Obj) : List String :=
  if placed payload = [] then if isWhole payload then [wholeSlot payload] else []
  else placed payload

/-! ## What the page asks of it -/

/-- Every row of a table has the columns that the table declares. -/
def RowsFit (payload : Obj) : Prop :=
  ∀ columns, getD payload "columns" .null = .arr columns →
    ∀ row ∈ items (getD payload "rows" .null), (items row).length = columns.length

def ExamplesFit (payload : Obj) : Prop :=
  ∀ field ∈ items (getD payload "fields" .null), truthy (member field "example") = true →
    carriedIn field = [] ∧ markersIn field = []

def ParagraphsFit (s : SectionNode) (payload : Obj) : Prop :=
  ∀ entry ∈ items (getD payload "slots" .null), ∀ p ∈ textOf (member entry "paragraph"),
    p ∈ (s.passage.map PassageRef.paragraphLabels).getD []

structure Shown (s : SectionNode) (q : QuestionNode) : Prop where
  slots : ∀ k, k ∈ presented q.payload ↔ k ∈ q.slotKeys
  rows : RowsFit q.payload
  examples : ExamplesFit q.payload
  paragraphs : ParagraphsFit s q.payload

/-! ## What the gate leaves to the author -/

def containers : List String := ["steps", "blocks", "fields", "rows"]

def isSearched (e : String × Json) : Bool :=
  (textFields.contains e.1 && (textOf e.2 ≠ [])) || containers.contains e.1

/-- The markers that the gate compares with the slots; of a selection it compares none. -/
def compared (d : QuestionTypeDef) (payload : Obj) : List String :=
  if d.scoring.primitive = .setSelection then []
  else markersInMembers (payload.entries.filter isSearched)

def unseen (d : QuestionTypeDef) (payload : Obj) : List String :=
  markersInMembers (payload.entries.filter
    (fun e => ¬ isSearched e ∨ d.scoring.primitive = .setSelection)) ++
    carriedInMembers payload.entries ++ keyed payload

def BlanksLaid (d : QuestionTypeDef) (q : QuestionNode) : Prop :=
  if compared d q.payload ≠ [] then ∀ k ∈ unseen d q.payload, k ∈ q.slotKeys
  else if unseen d q.payload ≠ [] then ∀ k, k ∈ unseen d q.payload ↔ k ∈ q.slotKeys
  else if isWhole q.payload then ∀ k, k ∈ q.slotKeys ↔ k = wholeSlot q.payload
  else q.slotKeys = []

structure Laid (d : QuestionTypeDef) (s : SectionNode) (q : QuestionNode) : Prop where
  blanks : BlanksLaid d q
  rows : RowsFit q.payload
  examples : ExamplesFit q.payload
  paragraphs : ParagraphsFit s q.payload

variable {s : SectionNode} {g : GroupNode} {q : QuestionNode} {d : QuestionTypeDef} {payload : Obj}
  {k : String} {validator : Validator} {registry : Registry} {c : TestComposition}

/-! ## The markers that are compared -/

theorem mem_markersInMembers {ms : List (String × Json)} :
    k ∈ markersInMembers ms ↔ ∃ e ∈ ms, k ∈ markersIn e.2 := by
  induction ms with
  | nil => simp [markersInMembers]
  | cons e ms ih =>
    obtain ⟨name, v⟩ := e
    rw [markersInMembers, List.mem_append, ih]
    simp

theorem mem_entries_iff {name : String} (hv : k ∈ markersIn (getD payload name .null)) :
    (name, getD payload name .null) ∈ payload.entries := by
  unfold getD at hv ⊢
  cases hget : payload.get? name with
  | none =>
    rw [hget] at hv
    cases hv
  | some v => exact Dict.get?_eq_some.1 hget

theorem mem_payloadMarkers :
    k ∈ payloadMarkers payload ↔ k ∈ markersInMembers (payload.entries.filter isSearched) := by
  unfold payloadMarkers
  rw [mem_markersInMembers, List.mem_append, List.mem_flatMap, List.mem_flatMap]
  constructor
  · rintro (⟨field, hfield, hk⟩ | ⟨container, hcontainer, hk⟩)
    · cases hv : getD payload field .null with
      | str s =>
        rw [hv] at hk
        have hin : k ∈ markersIn (getD payload field .null) := by
          rw [hv, markersIn]
          exact hk
        refine ⟨_, List.mem_filter.2 ⟨mem_entries_iff hin, ?_⟩, hin⟩
        unfold isSearched
        rw [hv]
        simp [hfield, textOf]
      | _ =>
        rw [hv] at hk
        cases hk
    · refine ⟨_, List.mem_filter.2 ⟨mem_entries_iff hk, ?_⟩, hk⟩
      unfold isSearched
      have hmem : containers.contains container = true := List.contains_iff_mem.2 hcontainer
      rw [hmem, Bool.or_true]
  · rintro ⟨⟨name, v⟩, he, hk⟩
    obtain ⟨hmem, hsearched⟩ := List.mem_filter.1 he
    have hget : getD payload name .null = v := by
      unfold getD
      rw [Dict.get?_eq_some.2 hmem]
      rfl
    unfold isSearched at hsearched
    rcases (Bool.or_eq_true _ _).mp hsearched with htext | hcontainer
    · left
      rw [Bool.and_eq_true] at htext
      refine ⟨name, List.contains_iff_mem.1 htext.1, ?_⟩
      rw [hget]
      cases v with
      | str s =>
        rw [markersIn] at hk
        exact hk
      | _ => simp [textOf] at htext
    · right
      refine ⟨name, List.contains_iff_mem.1 hcontainer, ?_⟩
      rw [hget]
      exact hk

/-! ## What a passing gate says of them -/

theorem mem_of_sameSet {a b : List String} (h : sameSet a b = true) : k ∈ a ↔ k ∈ b := by
  unfold sameSet at h
  rw [Bool.and_eq_true, List.all_eq_true, List.all_eq_true] at h
  exact ⟨fun ha => List.contains_iff_mem.1 (h.1 k ha),
    fun hb => List.contains_iff_mem.1 (h.2 k hb)⟩

theorem markers_of_checkSlotKey {path : String} {r : Report}
    (h : checkSlotKey q g s d path = .ok r) (hr : r.passed = true)
    (hne : payloadMarkers q.payload ≠ []) : k ∈ payloadMarkers q.payload ↔ k ∈ q.slotKeys := by
  unfold checkSlotKey at h
  obtain ⟨slots, _, h⟩ := bind_eq_ok.1 h
  obtain ⟨options, _, h⟩ := bind_eq_ok.1 h
  obtain ⟨unknown, _, h⟩ := bind_eq_ok.1 h
  obtain ⟨reused, _, h⟩ := bind_eq_ok.1 h
  cases h
  rw [passed_append, passed_append, passed_append, passed_append] at hr
  have hmarkers := hr.1.1.1.2
  unfold markerFindings at hmarkers
  dsimp only at hmarkers
  rw [passed_findIf (by rfl)] at hmarkers
  have hsome : (payloadMarkers q.payload).isEmpty = false := List.isEmpty_eq_false_iff.2 hne
  rw [hsome, Bool.not_false, Bool.true_and] at hmarkers
  apply mem_of_sameSet
  cases hsame : sameSet (payloadMarkers q.payload) q.slotKeys with
  | true => rfl
  | false =>
    rw [hsame] at hmarkers
    cases hmarkers

theorem compared_of_checkKey {path : String} {r : Report} (h : checkKey q g s d path = .ok r)
    (hr : r.passed = true) (hne : compared d q.payload ≠ []) :
    k ∈ compared d q.payload ↔ k ∈ q.slotKeys := by
  have hfound : d.scoring.primitive ≠ .setSelection →
      (∀ x, x ∈ compared d q.payload ↔ x ∈ payloadMarkers q.payload) := by
    intro hprim x
    unfold compared
    rw [if_neg hprim, mem_payloadMarkers]
  have hsome : d.scoring.primitive ≠ .setSelection → payloadMarkers q.payload ≠ [] := by
    intro hprim
    obtain ⟨x, hx⟩ := List.exists_mem_of_ne_nil _ hne
    exact List.ne_nil_of_mem ((hfound hprim x).1 hx)
  unfold checkKey at h
  cases hp : d.scoring.primitive with
  | setSelection =>
    unfold compared at hne
    rw [if_pos hp] at hne
    exact absurd rfl hne
  | choicePerSlot =>
    have hprim : d.scoring.primitive ≠ .setSelection := by rw [hp]; decide
    rw [hp] at h
    rw [hfound hprim]
    exact markers_of_checkSlotKey h hr (hsome hprim)
  | textPerSlot =>
    have hprim : d.scoring.primitive ≠ .setSelection := by rw [hp]; decide
    rw [hp] at h
    obtain ⟨slots, hslots, h⟩ := bind_eq_ok.1 h
    obtain ⟨limits, _, h⟩ := bind_eq_ok.1 h
    cases h
    rw [passed_append] at hr
    rw [hfound hprim]
    exact markers_of_checkSlotKey hslots hr.1 (hsome hprim)

/-! ## The blanks, looked at or not -/

theorem mem_placed : k ∈ placed payload ↔ k ∈ compared d payload ∨ k ∈ unseen d payload := by
  unfold placed compared unseen
  by_cases hp : d.scoring.primitive = .setSelection
  · rw [if_pos hp]
    simp [hp]
  · rw [if_neg hp]
    simp only [List.mem_append, mem_markersInMembers, List.mem_filter, hp, or_false,
      decide_eq_true_eq, ← or_assoc]
    refine or_congr_left (or_congr_left ?_)
    constructor
    · rintro ⟨e, he, hk⟩
      by_cases hs : isSearched e = true
      · exact .inl ⟨e, ⟨he, hs⟩, hk⟩
      · exact .inr ⟨e, ⟨he, hs⟩, hk⟩
    · rintro (⟨e, he, hk⟩ | ⟨e, he, hk⟩)
      · exact ⟨e, he.1, hk⟩
      · exact ⟨e, he.1, hk⟩

theorem presented_of_placed (h : k ∈ placed payload) (x : String) :
    x ∈ presented payload ↔ x ∈ placed payload := by
  unfold presented
  rw [if_neg (List.ne_nil_of_mem h)]

theorem slots_iff {path : String} {r : Report} (h : checkKey q g s d path = .ok r)
    (hr : r.passed = true) :
    (∀ k, k ∈ presented q.payload ↔ k ∈ q.slotKeys) ↔ BlanksLaid d q := by
  unfold BlanksLaid
  by_cases hc : compared d q.payload = []
  · rw [if_neg (not_not.2 hc)]
    have hall : ∀ k, k ∈ placed q.payload ↔ k ∈ unseen d q.payload := by
      intro k
      rw [mem_placed (d := d), hc]
      simp
    by_cases hu : unseen d q.payload = []
    · rw [if_neg (not_not.2 hu)]
      have hnone : placed q.payload = [] := by
        apply List.eq_nil_iff_forall_not_mem.2
        intro k hk
        rw [hall, hu] at hk
        cases hk
      unfold presented
      rw [if_pos hnone]
      by_cases hw : isWhole q.payload = true
      · rw [if_pos hw, if_pos hw]
        simp only [List.mem_singleton]
        exact forall_congr' (fun k => Iff.comm)
      · rw [if_neg hw, if_neg hw, List.eq_nil_iff_forall_not_mem]
        simp
    · rw [if_pos hu]
      obtain ⟨x, hx⟩ := List.exists_mem_of_ne_nil _ hu
      have hp := presented_of_placed ((hall x).2 hx)
      exact forall_congr' (fun k => by rw [hp, hall])
  · rw [if_pos hc]
    have hslots := fun k => compared_of_checkKey (k := k) h hr hc
    obtain ⟨x, hx⟩ := List.exists_mem_of_ne_nil _ hc
    have hp := presented_of_placed (mem_placed.2 (.inl hx))
    constructor
    · intro hpres k hk
      exact (hpres k).1 ((hp k).2 (mem_placed.2 (.inr hk)))
    · intro hlaid k
      rw [hp, mem_placed (d := d), hslots]
      exact ⟨fun hk => hk.elim id (hlaid k), .inl⟩

def EveryBlankShown (c : TestComposition) : Prop := ∀ p ∈ c.questions, Shown p.1 p.2.2

def ruled (rules : List String) : Json :=
  .obj [("rules", .arr (rules.map (fun name => .obj [("rule", .str name)])))]

def textType (key : String) (rules : List String) : QuestionTypeDef :=
  { sampleType with
    key, skills := ["reading", "listening"]
    validation := ruled (["key_slots_match_payload_slots"] ++ rules ++
      ["word_limit_present_on_group", "accepted_answers_within_word_limit"]) }

def headingsType : QuestionTypeDef :=
  { sampleType with
    key := "matching_headings", skills := ["reading"]
    scoring :=
      { primitive := .choicePerSlot
        options := Dict.ofList [("option_source", .str "group.option_bank"),
          ("unique_options", .bool true), ("aggregate", .str "per_slot"),
          ("points_per_slot", .int 1)] }
    validation := ruled ["key_slots_match_payload_slots", "key_values_in_option_set",
      "option_bank_at_least", "paragraph_labels_exist", "no_duplicate_key_values"] }

def blanksRegistry : Registry where
  defs := Dict.ofList
    [(("table_completion", 1),
        textType "table_completion" ["table_slots_declared", "table_rows_match_columns"]),
      (("form_completion", 1),
        textType "form_completion" ["form_slots_declared", "example_field_has_no_slot"]),
      (("sentence_completion", 1),
        textType "sentence_completion" ["blank_markers_match_slots"]),
      (("matching_headings", 1), headingsType)]

def answers (keys : List (String × String)) : Obj :=
  Dict.ofList [("slots", .obj (keys.map (fun k => (k.1, .obj [("accept", .arr [.str k.2])]))))]

def blanksQuestion (typeKey : String) (payload : Obj) (keys : List (String × String)) :
    QuestionNode where
  xid := "q1"
  typeKey := typeKey
  typeVersion := 1
  payload := payload
  slotKeys := keys.map Prod.fst
  key := some (answers keys)

def heading (id : String) : Json := .obj [("id", .str id), ("text", .str "A heading")]

def blanksGroup (q : QuestionNode) : GroupNode where
  xid := "g1"
  numberStart := 1
  questions := [q]
  wordLimit := .obj [("max_words", .int 2)]
  optionBank := [heading "i", heading "ii"]

def blanksSection (q : QuestionNode) : SectionNode where
  position := 1
  skill := "reading"
  title := "Passage 1"
  groups := [blanksGroup q]
  passage := some { xid := "p1", title := "Parking", paragraphLabels := ["A", "B"] }
  timeLimitSeconds := some 1200

def blanksPaper (q : QuestionNode) : TestComposition where
  xid := "t1"
  title := "One question"
  sections := [blanksSection q]
  bandMap := some
    { xid := "b1", maxRaw := 2
      mapping := [.obj [("raw_min", .int 0), ("raw_max", .int 2), ("band", .int 5)]] }
  coherent := by
    intro p hp p' hp' _
    simp only [questionsOf, blanksSection, blanksGroup, List.flatMap_cons, List.flatMap_nil,
      List.append_nil, List.map_cons, List.map_nil, List.mem_singleton] at hp hp'
    rw [hp, hp']

def blankCell (slot : String) : Json := .obj [("kind", .str "blank"), ("slot", .str slot)]

def textCell (value : String) : Json := .obj [("kind", .str "text"), ("value", .str value)]

def table (rows : List Json) (slots : List String) : Obj :=
  Dict.ofList [("columns", .arr [.str "Day", .str "Price"]), ("rows", .arr rows),
    ("slots", .arr (slots.map .str))]

def missingCell : TestComposition :=
  blanksPaper (blanksQuestion "table_completion"
    (table [.arr [textCell "Monday", blankCell "s1"]] ["s1", "s2"])
    [("s1", "five"), ("s2", "six")])

def narrowRow : TestComposition :=
  blanksPaper (blanksQuestion "table_completion" (table [.arr [blankCell "s1"]] ["s1"])
    [("s1", "five")])

def markedExample : TestComposition :=
  blanksPaper (blanksQuestion "form_completion"
    (Dict.ofList [("fields", .arr [.obj [("label", .str "Name"), ("value", .str "Smith"),
        ("slot", .str "s1"), ("example", .bool true)]]), ("slots", .arr [.str "s1"])])
    [("s1", "Smith")])

def unmarkedText : TestComposition :=
  blanksPaper (blanksQuestion "sentence_completion"
    (Dict.ofList [("text", .str "Leave it in the _____."), ("slots", .arr [.str "s1"])])
    [("s1", "car park")])

def strayParagraph : TestComposition :=
  blanksPaper (blanksQuestion "matching_headings"
    (Dict.ofList [("slots", .arr [.obj [("key", .str "s1"), ("paragraph", .str "Z")]])])
    [("s1", "i")])

end IeltsHub.PresentedBlanks
