import IeltsHub.MarkerText

set_option autoImplicit false

/-!
# The key editor of the console

`answerKey.ts`: the control that a type declares, an answer key read into it and written back, with
the types of the registry and the keys that their schemas admit.
-/
namespace IeltsHub.KeyEditor
open PyDict PyValue MarkerText

/-! ## The control of a type -/

structure FixedOption where
  id : Option String := none
  text : Option String := none

/-- What the console reads of a type. -/
structure Definition where
  keyWidget : Option String := none
  primitive : Option String := none
  optionSource : Option String := none
  fixedOptions : Option (List FixedOption) := none

inductive Control where
  | alternatives (slots : List String)
  | fixed (slots options : List String)
  | pick (slots options : List String) (source : String)
  | multi (options : List String)
  | raw (widget : String)

def alternativesWidgets : List String := ["alternatives_editor", "slot_alternatives_grid"]

def pickers : List String := ["slot_to_bank_grid", "option_picker", "paragraph_to_heading_grid",
  "paragraph_picker", "single_option_picker"]

def singlePickers : List String := ["paragraph_picker", "single_option_picker"]

def letters : List String := ["A", "B", "C", "D", "E", "F", "G", "H", "I", "J"]

def FixedOption.label (o : FixedOption) : String := (o.id.or o.text).getD ""

def controlFor (definition : Option Definition) (slots bank : List String) : Control :=
  let widget := (definition.bind Definition.keyWidget).getD ""
  if widget ∈ alternativesWidgets then .alternatives slots
  else if widget = "tfng_picker" ∨ widget = "ynng_picker" then
    .fixed (slots.take 1) ((((definition.bind Definition.fixedOptions).getD []).map
      FixedOption.label).filter (· ≠ ""))
  else if widget = "multi_option_picker" ∨
      definition.bind Definition.primitive = some "set_selection" then
    .multi (if bank = [] then letters else bank)
  else if widget ∈ pickers then
    .pick (if widget ∈ singlePickers then slots.take 1 else slots) bank
      ((definition.bind Definition.optionSource).getD "")
  else .raw (if widget = "" then "none declared" else widget)

/-! ## Text -/

def isSeparator (c : Char) : Bool := c = '|' ∨ c = ','

def splitAlternatives (text : List Char) : List (List Char) :=
  ((text.splitOnP isSeparator).map trim).filter (· ≠ [])

def joinAlternatives (values : List (List Char)) : List Char :=
  List.intercalate " | ".toList values

/-! ## Records of the browser -/

def inherited : List String := ["__proto__", "constructor", "hasOwnProperty", "isPrototypeOf",
  "propertyIsEnumerable", "toLocaleString", "toString", "valueOf", "__defineGetter__",
  "__defineSetter__", "__lookupGetter__", "__lookupSetter__"]

inductive Thrown where
  | typeError
  deriving DecidableEq

/-- An assignment of a text to `__proto__` does nothing. -/
def assign (slots : Dict String (List Char)) (slot : String) (text : List Char) :
    Dict String (List Char) :=
  if slot = "__proto__" then slots else slots.put slot text

/-- `(slots[slot] ?? "").trim()`, where nothing that is inherited has a `trim`. -/
def trimmedAt (slots : Dict String (List Char)) (slot : String) : Except Thrown (List Char) :=
  match slots.get? slot with
  | some text => .ok (trim text)
  | none => if slot ∈ inherited then .error .typeError else .ok []

/-- The members of what `typeof` calls an object. -/
def members? : Json → Option Obj
  | .obj ms => some (dictOf ms)
  | .arr _ => some Dict.empty
  | _ => none

def objectEntries : Json → List (String × Json)
  | .obj ms => (dictOf ms).entries
  | .arr es => es.mapIdx (fun i e => (toString i, e))
  | _ => []

def text? : Json → Option String
  | .str s => some s
  | _ => none

def textsOf : Option Json → List String
  | some (.arr es) => es.filterMap text?
  | _ => []

def utf16 (s : String) : List ℕ := s.toList.flatMap (fun c =>
  if c.toNat < 0x10000 then [c.toNat]
  else [0xd800 + (c.toNat - 0x10000) / 0x400, 0xdc00 + (c.toNat - 0x10000) % 0x400])

/-- `[...values].sort()`. -/
def sortUnits (values : List String) : List String :=
  values.mergeSort (fun a b => utf16 a ≤ utf16 b)

/-! ## The value of the editor -/

structure KeyValue where
  slots : Dict String (List Char) := Dict.empty
  correct : List String := []
  caseSensitive : Bool := false

def emptyValue : KeyValue := {}

def slotJson (caseSensitive : Bool) (accept : List (List Char)) : Option Json :=
  if accept = [] then none
  else
    let answers := ("accept", .arr (accept.map (fun cs => .str (.ofList cs))))
    some (.obj (if caseSensitive then [answers, ("case_sensitive", .bool true)] else [answers]))

def writeSlot (value : KeyValue) (row : List Char → Option Json) (built : Obj) (slot : String) :
    Except Thrown Obj := do
  let raw ← trimmedAt value.slots slot
  return (if raw = [] then none else row raw).elim built (built.put slot)

def slotsKey (value : KeyValue) (row : List Char → Option Json) (slots : List String) :
    Except Thrown (Option Json) := do
  let built ← slots.foldlM (writeSlot value row) Dict.empty
  return if built.entries = [] then none else some (.obj [("slots", .obj built.entries)])

def toKey (control : Control) (value : KeyValue) : Except Thrown (Option Json) :=
  match control with
  | .multi _ =>
    .ok (if value.correct = [] then none
      else some (.obj [("correct", .arr ((sortUnits value.correct).map .str))]))
  | .raw _ => .ok none
  | .alternatives slots =>
    slotsKey value (fun raw => slotJson value.caseSensitive (splitAlternatives raw)) slots
  | .fixed slots _ | .pick slots _ _ => slotsKey value (fun raw => slotJson false [raw]) slots

def readSlot (value : KeyValue) (entry : String × Json) : KeyValue :=
  match members? entry.2 with
  | none => value
  | some inner =>
    let accept := (textsOf (inner.get? "accept")).map String.toList
    { value with
      slots := assign value.slots entry.1 (joinAlternatives accept)
      caseSensitive := value.caseSensitive || inner.get? "case_sensitive" = some (.bool true) }

def fromKey (key : Json) : KeyValue :=
  match members? key with
  | none => emptyValue
  | some record =>
    match record.get? "correct" with
    | some (.arr cs) => { emptyValue with correct := textsOf (some (.arr cs)) }
    | _ => (((record.get? "slots").map objectEntries).getD []).foldl readSlot emptyValue

/-! ## The registry -/

/-- What one accepted answer may be. `^[A-Z]$` lets a line break follow the letter. -/
inductive Items where
  | text (minLength : ℕ)
  | letter (last : Char)
  | oneOf (values : List String)

def Items.admits : Items → Json → Bool
  | .text n, .str s => n ≤ s.length
  | .letter last, .str s =>
    match s.toList with
    | [c] => 'A' ≤ c ∧ c ≤ last
    | [c, '\n'] => 'A' ≤ c ∧ c ≤ last
    | _ => false
  | .oneOf values, .str s => s ∈ values
  | _, _ => false

structure SlotSchema where
  items : Items
  maxItems : Option ℕ := none
  /-- Whether a slot may have a `case_sensitive`, `normalizers` and a `word_limit`. -/
  tolerance : Bool := false

def SlotSchema.admitsMember (schema : SlotSchema) (member : String × Json) : Bool :=
  match member with
  | ("accept", .arr es) =>
    es ≠ [] ∧ schema.maxItems.all (es.length ≤ ·) ∧ es.all schema.items.admits
  | ("case_sensitive", .bool _) => schema.tolerance
  | ("normalizers", .arr es) => schema.tolerance ∧ es.all (fun e => (text? e).isSome)
  | ("word_limit", .obj _) => schema.tolerance
  | _ => false

def SlotSchema.admits (schema : SlotSchema) (spec : Json) : Bool :=
  (asDict spec).any (fun d =>
    (d.get? "accept").isSome ∧ d.entries.all schema.admitsMember)

/-- `slots` asks for some slots, or for the one of that name. -/
inductive KeySchema where
  | slots (name : Option String) (spec : SlotSchema)
  | correct (minItems maxItems : ℕ) (items : Items)

def onlyMember (d : Obj) (name : String) : Option Json :=
  if d.keys = [name] then d.get? name else none

def KeySchema.admits (schema : KeySchema) (key : Json) : Bool :=
  match schema with
  | .slots name spec =>
    (((asDict key).bind (onlyMember · "slots")).bind asDict).any (fun slots =>
      slots.entries ≠ [] ∧ name.all (fun s => slots.keys = [s]) ∧
        slots.entries.all (fun e => spec.admits e.2))
  | .correct minItems maxItems items =>
    ((asDict key).bind (onlyMember · "correct")).any (fun v => match v with
      | .arr es => minItems ≤ es.length ∧ es.length ≤ maxItems ∧ es.Nodup ∧ es.all items.admits
      | _ => false)

structure QuestionType extends Definition where
  key : String
  keySchema : KeySchema

def completion (key widget : String) : QuestionType where
  key
  keyWidget := some widget
  primitive := some "text_per_slot"
  keySchema := .slots none { items := .text 1, tolerance := true }

def choice (key widget optionSource : String) (name : Option String) (spec : SlotSchema) :
    QuestionType where
  key
  keyWidget := some widget
  primitive := some "choice_per_slot"
  optionSource := some optionSource
  keySchema := .slots name spec

def judgement (key widget : String) (values : List String) : QuestionType where
  toDefinition := { (choice key widget "fixed" (some "s1")
      { items := .oneOf values, maxItems := some 1 }).toDefinition with
    fixedOptions := some (values.map (fun v => ⟨some v, some v⟩)) }
  key
  keySchema := .slots (some "s1") { items := .oneOf values, maxItems := some 1 }

def registry : List QuestionType :=
  [completion "diagram_completion" "slot_alternatives_grid",
    completion "flowchart_completion" "slot_alternatives_grid",
    completion "form_completion" "slot_alternatives_grid",
    choice "map_labelling" "slot_to_bank_grid" "group.option_bank" none
      { items := .text 0, maxItems := some 1 },
    choice "matching_features" "option_picker" "group.option_bank" (some "s1")
      { items := .text 0 },
    choice "matching_headings" "paragraph_to_heading_grid" "group.option_bank" none
      { items := .text 0, maxItems := some 1 },
    choice "matching_information" "paragraph_picker" "section.passage_version.paragraph_labels"
      (some "s1") { items := .letter 'Z' },
    { key := "mcq_multi", keyWidget := some "multi_option_picker"
      primitive := some "set_selection", keySchema := .correct 2 5 (.letter 'J') },
    choice "mcq_single" "single_option_picker" "payload.options" none { items := .text 0 },
    completion "note_completion" "slot_alternatives_grid",
    completion "sentence_completion" "alternatives_editor",
    completion "short_answer" "alternatives_editor",
    completion "summary_completion" "slot_alternatives_grid",
    choice "summary_completion_bank" "slot_to_bank_grid" "group.option_bank" none
      { items := .text 0 },
    completion "table_completion" "slot_alternatives_grid",
    judgement "true_false_notgiven" "tfng_picker" ["TRUE", "FALSE", "NOT GIVEN"],
    judgement "yes_no_notgiven" "ynng_picker" ["YES", "NO", "NOT GIVEN"]]

end IeltsHub.KeyEditor
