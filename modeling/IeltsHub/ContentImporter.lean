import IeltsHub.ContentDrafts

set_option autoImplicit false

/-!
# Bulk import

`modules/content/importer.py` from the canonical document on: what is checked, and the rows a
commit writes. The database takes text only in a text column.
-/
namespace IeltsHub.ContentImporter
open PyText PyValue PyDict PlatformErrors PlatformFindings QtypesSchemas QtypesRegistry
open ContentPublishGate (markers)

/-! ## The payload of a question -/

/-- `_TEXT_FIELDS`. -/
def textFields : List String := ["text", "summary", "question", "statement", "stem"]

def infixOf (part cs : List Char) : Bool := cs.tails.any (fun tail => part.isPrefixOf tail)

/-- `name in value`. -/
def contains (name : String) : Json → Except Raised Bool
  | .arr es => .ok (es.contains (.str name))
  | .obj ms => .ok ((dictOf ms).get? name).isSome
  | .str s => .ok (infixOf name.toList s.toList)
  | _ => .error .typeError

def fieldIn (properties : Json) : List String → Except Raised String
  | [] => .ok "text"
  | f :: fs => do if ← contains f properties then return f else fieldIn properties fs

def schemaOf : Option QuestionTypeDef → Except Raised (Json × Json)
  | none => .ok (.obj [], .arr [])
  | some d => do
    let schema ← dictMethod d.payloadSchema
    return (getOr schema "properties" (.obj []), getOr schema "required" (.arr []))

def textOf (questionDoc : Obj) : Json :=
  getOr questionDoc "text" (getOr questionDoc "question" (.str ""))

def markerStart : String := "\x7b\x7bs"

def withBlank (slotted : Bool) (text : Json) : Except Raised Json :=
  if slotted then do
    if ← contains markerStart text then return text
    else return .str (strip (pyStr text ++ " \x7b\x7bs1\x7d\x7d"))
  else .ok text

def payloadFrom (questionDoc : Obj) (definition : Option QuestionTypeDef) :
    Except Raised Obj := do
  let (properties, required) ← schemaOf definition
  let field ← fieldIn properties textFields
  let slotted ← contains "slots" properties
  let text ← withBlank slotted (textOf questionDoc)
  let payload := Dict.empty.put field text
  if slotted then return payload.put "slots" (.arr [.str "s1"])
  else if ← contains "slots" required then return payload.put "slots" (.arr [.str "s1"])
  else return payload

/-- `question_doc.get("payload") or _payload_from(question_doc, definition)`. -/
def payloadOf (questionDoc : Obj) (definition : Option QuestionTypeDef) : Except Raised Obj :=
  let given := getD questionDoc "payload" .null
  if truthy given then dictMethod given else payloadFrom questionDoc definition

/-! ## Its slots and its key -/

def textMarkers : Json → List String
  | .str s => markers s.toList
  | _ => []

def textColumn : Json → Except Raised String
  | .str s => .ok s
  | _ => .error (.domain (.integrity "the column takes text"))

/-- `_slots_from`, for a column of text. -/
def slotsFrom (payload : Obj) : Except Raised (List String) :=
  let found := payload.values.flatMap textMarkers
  if found.isEmpty then do
    let listed ← iter (getOr payload "slots" (.arr [.str "s1"]))
    listed.mapM textColumn
  else .ok (sorted found.dedup)

/-- `len(value)`. -/
def len : Json → Except Raised ℕ
  | .arr es => .ok es.length
  | .str s => .ok s.toList.length
  | .obj ms => .ok (dictOf ms).keys.length
  | _ => .error .typeError

/-- `value[i]`; the keys of an object are text. -/
def index (v : Json) (i : ℕ) : Except Raised Json :=
  match v with
  | .arr es => (es[i]?).elim (.error .indexError) .ok
  | .str s => (s.toList[i]?).elim (.error .indexError) (fun c => .ok (.str (.singleton c)))
  | .obj _ => .error (.keyError (toString i))
  | _ => .error .typeError

def acceptSpec (accepted : Json) : Json := .obj [("accept", accepted)]

def slotSpec (accepted : Json) (slot : String × ℕ) : Except Raised (String × Json) := do
  let n ← len accepted
  if slot.2 < n then return (slot.1, acceptSpec (.arr [← index accepted slot.2]))
  else return (slot.1, acceptSpec (.arr []))

/-- `_key_from`. -/
def keyFrom (questionDoc payload : Obj) : Except Raised Json := do
  let accepted := getOr questionDoc "accept" (.arr [])
  match ← slotsFrom payload with
  | [slot] => return .obj [("slots", .obj [(slot, acceptSpec accepted)])]
  | slots => return .obj [("slots", .obj (← slots.zipIdx.mapM (slotSpec accepted)))]

/-! ## What is checked -/

structure Counts where
  sections : ℕ := 0
  groups : ℕ := 0
  questions : ℕ := 0
  keys : ℕ := 0
  deriving DecidableEq

structure ImportResult where
  canonical : Obj
  report : Report
  counts : Counts

def registered (registry : Registry) (typeKey : Json) (version : ℤ) : Option QuestionTypeDef :=
  match typeKey with
  | .str key => registry.defs.get? (key, version)
  | _ => none

def repr (v : Json) : String := .ofList (reprValue v)

def checkQuestion (registry : Registry) (skill : Json) (qpath : String) (question : Json) :
    Except Raised (Report × ℕ) := do
  let q ← dictMethod question
  let version ← pyInt (getOr q "type_version" (.int 1))
  match registered registry (getD q "type_key" .null) version with
  | none => return ([{
      code := "TYPE_UNKNOWN"
      message := "Unknown question type " ++ repr (getD q "type_key" .null) ++ " v" ++
        toString version ++ "."
      path := qpath }], 0)
  | some definition =>
    let known : Bool := definition.skills.any (fun s => .str s = skill)
    let accepted := truthy (getOr q "accept" (.arr []))
    return (findIf (!known) {
        code := "TYPE_WRONG_SKILL"
        message := definition.title ++ " cannot be used in a " ++ pyStr skill ++ " section."
        path := qpath } ++
      findIf (!accepted) {
        code := "KEY_MISSING", message := "Question has no accepted answer.", path := qpath },
      if accepted then 1 else 0)

def checkGroup (registry : Registry) (skill : Json) (path : String) (group : Json × ℕ) :
    Except Raised (Report × Counts) := do
  let g ← dictMethod group.1
  let gpath := path ++ ".groups[" ++ toString group.2 ++ "]"
  let questions ← iter (getOr g "questions" (.arr []))
  let checked ← questions.zipIdx.mapM (fun q =>
    checkQuestion registry skill (gpath ++ ".questions[" ++ toString q.2 ++ "]") q.1)
  return (findIf questions.isEmpty {
      code := "GROUP_EMPTY", message := "Group contains no questions.", path := gpath } ++
    (checked.map Prod.fst).flatten,
    { groups := 1, questions := questions.length, keys := (checked.map Prod.snd).sum })

def checkSection (registry : Registry) (sec : Json × ℕ) : Except Raised (Report × Counts) := do
  let s ← dictMethod sec.1
  let path := "sections[" ++ toString sec.2 ++ "]"
  let skill := getD s "skill" .null
  let groups ← iter (getOr s "groups" (.arr []))
  let checked ← groups.zipIdx.mapM (checkGroup registry skill path)
  return (findIf (skill ≠ .str "reading" ∧ skill ≠ .str "listening") {
      code := "SECTION_SKILL_INVALID"
      message := "Unknown skill " ++ repr skill ++ "."
      path } ++ (checked.map Prod.fst).flatten,
    { sections := 1
      groups := (checked.map (fun c => c.2.groups)).sum
      questions := (checked.map (fun c => c.2.questions)).sum
      keys := (checked.map (fun c => c.2.keys)).sum })

/-- `value == CANONICAL_VERSION`, for a number of any kind. -/
def isCanonicalVersion : Json → Bool
  | .int n => n = 1
  | .real q => q = 1
  | .bool b => b
  | _ => false

/-- `validate`: the findings of the adapter and those of the document. -/
def validate (canonical : Obj) (registry : Registry) (report : Report) :
    Except Raised ImportResult := do
  if canonical.entries.isEmpty then return ⟨Dict.empty, report, {}⟩
  else
    let version := getD canonical "canonical_version" .null
    let sections ← iter (getOr canonical "sections" (.arr []))
    let checked ← sections.zipIdx.mapM (checkSection registry)
    return {
      canonical
      report := report ++
        findIf (version ≠ .null ∧ !isCanonicalVersion version) {
          code := "CANONICAL_VERSION_MISMATCH", severity := .warning
          message := "File declares canonical_version " ++ pyStr version ++
            ", this server speaks 1."
          path := "canonical_version" } ++
        findIf (!truthy (getD canonical "title" .null)) {
          code := "TITLE_MISSING", message := "The test has no title.", path := "title" } ++
        findIf sections.isEmpty {
          code := "NO_SECTIONS", message := "The file contains no sections."
          path := "sections" } ++
        (checked.map Prod.fst).flatten
      counts := {
        sections := (checked.map (fun c => c.2.sections)).sum
        groups := (checked.map (fun c => c.2.groups)).sum
        questions := (checked.map (fun c => c.2.questions)).sum
        keys := (checked.map (fun c => c.2.keys)).sum } }

/-! ## What is written -/

structure QuestionRow where
  typeKey : String
  typeVersion : ℤ
  payload : Obj
  slotKeys : List String
  key : Json
  position : ℕ

structure GroupRow where
  title : String
  instructions : Json
  wordLimit : Json
  optionBank : Json
  questions : List QuestionRow
  position : ℕ
  numberStart : ℕ

structure PassageRow where
  title : String
  blocks : Json
  paragraphLabels : List String

structure SectionRow where
  position : ℕ
  skill : String
  title : String
  passage : Option PassageRow
  timeLimitSeconds : Json
  declaredQuestionCount : ℕ
  groups : List GroupRow

def questionsIn (groupDoc : Obj) : Json := getOr groupDoc "questions" (.arr [])

def commitQuestion (registry : Registry) (question : Json × ℕ) : Except Raised QuestionRow := do
  let typeKey ← textColumn (← subscript question.1 "type_key")
  let q ← dictMethod question.1
  let versionDoc := getOr q "type_version" (.int 1)
  let definition := match (pyInt versionDoc : Except Raised ℤ) with
    | .ok version => registry.defs.get? (typeKey, version)
    | .error _ => none
  let payload ← payloadOf q definition
  let typeVersion ← pyInt versionDoc
  let slotKeys ← slotsFrom payload
  let given := getD q "key" .null
  let key ← if truthy given then pure given else keyFrom q payload
  return { typeKey, typeVersion, payload, slotKeys, key, position := question.2 }

def countedSlots (question : Json) : Except Raised ℕ := do
  let q ← dictMethod question
  let payload ← payloadOf q none
  List.length <$> slotsFrom payload

def commitGroup (registry : Registry) (number : ℕ) (group : Json × ℕ) :
    Except Raised (GroupRow × ℕ) := do
  let g ← dictMethod group.1
  let title ← textColumn (getOr g "title" (.str ("Group " ++ toString group.2)))
  let docs ← iter (questionsIn g)
  let questions ← (docs.zipIdx 1).mapM (commitQuestion registry)
  let counted ← docs.mapM countedSlots
  return ({
    title
    instructions := getOr g "instructions" (.obj [])
    wordLimit := getD g "word_limit" .null
    optionBank := getD g "option_bank" .null
    questions
    position := group.2
    numberStart := number }, number + counted.sum)

def commitGroups (registry : Registry) : ℕ → List (Json × ℕ) → Except Raised (List GroupRow × ℕ)
  | number, [] => .ok ([], number)
  | number, group :: rest => do
    let (row, number) ← commitGroup registry number group
    let (rows, number) ← commitGroups registry number rest
    return (row :: rows, number)

def commitPassage (passageDoc : Json) (si : ℕ) : Except Raised (Option PassageRow) :=
  if truthy passageDoc then do
    let p ← dictMethod passageDoc
    let title ← textColumn (getOr p "title" (.str ("Passage " ++ toString si)))
    let blocks := getOr p "blocks" (.arr [])
    return some { title, blocks, paragraphLabels := ContentDrafts.letters (← len blocks) }
  else .ok none

def declaredCount (groupDocs : List Json) : Except Raised ℕ :=
  List.sum <$> groupDocs.mapM (fun group => do
    let g ← dictMethod group
    len (questionsIn g))

def commitSection (registry : Registry) (number : ℕ) (sec : Json × ℕ) :
    Except Raised (SectionRow × ℕ) := do
  let s ← dictMethod sec.1
  let passage ← commitPassage (getD s "passage" .null) sec.2
  let skill ← textColumn (getOr s "skill" (.str "reading"))
  let title ← textColumn (getOr s "title" (.str ("Section " ++ toString sec.2)))
  let groupDocs ← iter (getOr s "groups" (.arr []))
  let declaredQuestionCount ← declaredCount groupDocs
  let (groups, number) ← commitGroups registry number (groupDocs.zipIdx 1)
  return ({
    position := sec.2, skill, title, passage, declaredQuestionCount, groups
    timeLimitSeconds := getD s "time_limit_seconds" .null }, number)

def commitSections (registry : Registry) : ℕ → List (Json × ℕ) → Except Raised (List SectionRow)
  | _, [] => .ok []
  | number, sec :: rest => do
    let (row, number) ← commitSection registry number sec
    let rows ← commitSections registry number rest
    return row :: rows

/-- The sections of the draft `commit` leaves. -/
def commit (canonical : Obj) (registry : Registry) : Except Raised (List SectionRow) := do
  let sections ← iter (getOr canonical "sections" (.arr []))
  commitSections registry 1 (sections.zipIdx 1)

end IeltsHub.ContentImporter
