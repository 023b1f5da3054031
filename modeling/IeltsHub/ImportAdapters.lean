import IeltsHub.ContentImporter
import IeltsHub.PyCsv

set_option autoImplicit false

/-!
# The adapters of bulk import

From the bytes of a file to the canonical document, and on to the dry run. The JSON and zip
libraries are parameters: what they make of a text or an archive, and what they raise.
-/
namespace IeltsHub.ImportAdapters
open PyText PyValue PyDict PyCsv PlatformErrors PlatformFindings QtypesRegistry ContentImporter

/-- What `json.loads` makes of its argument: a value, a `JSONDecodeError`, or another exception. -/
inductive Loaded where
  | value (v : Json)
  | decodeError (message : String)
  | raises (e : Raised) (message : String)

structure Libraries where
  loadsBytes : ByteArray → Loaded
  loadsText : String → Loaded
  /-- `docProps/custom.xml` of an archive where it has one, or what opening it raised. -/
  customXml : ByteArray → Except String (Option String)
  /-- `str.upper`. -/
  upper : String → String

/-- What leaves `parse` other than a result. -/
inductive Escape where
  | unicodeDecodeError
  | csvError (e : CsvError)
  | raised (e : Raised)
  deriving DecidableEq, Repr

/-! ## JSON -/

def parseFailed (message : String) : Report :=
  [{ code := "PARSE_FAILED", message, path := "file" }]

/-- `from_json`, what it raises with its text. -/
def readJson : Loaded → Except (Raised × String) (Obj × Report)
  | .decodeError message =>
    .ok (Dict.empty, parseFailed ("The file is not valid JSON: " ++ message))
  | .raises e message => .error (e, message)
  | .value (.obj ms) => .ok (dictOf ms, [])
  | .value _ => .ok (Dict.empty, parseFailed "The top level of the file must be an object.")

def fromJson (loaded : Loaded) : Except Escape (Obj × Report) :=
  (readJson loaded).mapError (fun e => .raised e.1)

/-! ## CSV -/

structure CsvQuestion where
  typeKey : String
  typeVersion : ℤ
  text : String
  accept : List String

structure CsvGroup where
  title : String
  instructions : String
  wordLimit : Json
  questions : List CsvQuestion := []

structure CsvSection where
  title : String
  skill : String
  groups : Dict String CsvGroup := Dict.empty

def cell (row : Row) (column : String) : Option String :=
  (row.get? column).join.filter (fun s => s ≠ "")

def cellOr (row : Row) (column default : String) : String := strip ((cell row column).getD default)

def limitWords : List (String × ℤ) := [("ONE", 1), ("TWO", 2), ("THREE", 3), ("FOUR", 4)]

/-- `_word_limit`. -/
def wordLimit (upper : String → String) (raw : Option String) : Json :=
  match raw with
  | none => .null
  | some raw =>
    let text := (upper (strip raw)).toList
    match limitWords.find? (fun w => infixOf w.1.toList text) with
    | none => .null
    | some w => .obj [("max_words", .int w.2),
        ("allow_number", .bool (infixOf "NUMBER".toList text)),
        ("hyphen_counts_as_one", .bool true), ("on_violation", .str "mark_incorrect")]

/-- `int(row.get("type_version") or 1)`. -/
def versionOf (row : Row) : Except Raised ℤ :=
  match cell row "type_version" with
  | some text => intOfText text
  | none => .ok 1

def acceptedOf (row : Row) : List String :=
  ((splitOn '|' ((cell row "answer").getD "")).map strip).filter (fun a => a ≠ "")

abbrev Sections := Dict String CsvSection

def sectionOf (sections : Sections) (row : Row) : CsvSection :=
  let title := cellOr row "section" "Section 1"
  (sections.get? title).getD { title, skill := cellOr row "skill" "reading" }

def groupOf (upper : String → String) (sec : CsvSection) (row : Row) : CsvGroup :=
  let title := cellOr row "group" "Group 1"
  (sec.groups.get? title).getD
    { title, instructions := cellOr row "instructions" ""
      wordLimit := wordLimit upper (cell row "word_limit") }

def addRow (upper : String → String) (s : Sections × Report) (row : Row × ℕ) :
    Except Raised (Sections × Report) := do
  let sec := sectionOf s.1 row.1
  let group := groupOf upper sec row.1
  let accept := acceptedOf row.1
  let typeVersion ← versionOf row.1
  let question := {
    typeKey := cellOr row.1 "type_key" "sentence_completion", typeVersion
    text := cellOr row.1 "text" "", accept }
  let group := { group with questions := group.questions ++ [question] }
  let sec := { sec with groups := sec.groups.put (cellOr row.1 "group" "Group 1") group }
  return (s.1.put (cellOr row.1 "section" "Section 1") sec, s.2 ++ findIf accept.isEmpty {
    code := "CSV_NO_ANSWER", message := "Row has no answer."
    path := "file.row[" ++ toString row.2 ++ "]" })

def questionJson (q : CsvQuestion) : Json :=
  .obj [("type_key", .str q.typeKey), ("type_version", .int q.typeVersion), ("text", .str q.text),
    ("accept", .arr (q.accept.map .str))]

def groupJson (g : CsvGroup) : Json :=
  .obj [("title", .str g.title), ("instructions", .obj [("en", .str g.instructions)]),
    ("word_limit", g.wordLimit), ("questions", .arr (g.questions.map questionJson))]

def sectionJson (s : CsvSection) : Json :=
  .obj [("title", .str s.title), ("skill", .str s.skill),
    ("groups", .arr (s.groups.values.map groupJson))]

def csvDoc (title : String) (sections : Sections) : Obj :=
  dictOf [("canonical_version", .int 1), ("title", .str title),
    ("sections", .arr (sections.values.map sectionJson))]

def requiredColumns : List String := ["answer", "group", "section", "type_key"]

def missingColumns (row : Row) : List String := requiredColumns.filter (fun c => c ∉ row.keys)

/-- `from_csv` from the rows on. -/
def fromRows (upper : String → String) : List Row → Except Raised (Obj × Report)
  | [] => .ok (Dict.empty, parseFailed "The file has no data rows.")
  | first :: rest =>
    let missing := missingColumns first
    if missing ≠ [] then
      .ok (Dict.empty, [{
        code := "CSV_MISSING_COLUMNS"
        message := "Missing required column(s): " ++ join ", " missing ++ "."
        path := "file.header" }])
    else do
      let (sections, report) ← ((first :: rest).zipIdx 2).foldlM (addRow upper) (Dict.empty, [])
      return (csvDoc (cellOr first "test_title" "Imported test") sections, report)

def byteOrderMark : ByteArray := ⟨#[0xef, 0xbb, 0xbf]⟩

/-- `raw.decode("utf-8-sig")`. -/
def utf8Sig (raw : ByteArray) : Option String :=
  if raw.extract 0 3 = byteOrderMark then String.fromUTF8? (raw.extract 3 raw.size)
  else String.fromUTF8? raw

def fromCsv (upper : String → String) (raw : ByteArray) : Except Escape (Obj × Report) :=
  match utf8Sig raw with
  | none => .error .unicodeDecodeError
  | some text =>
    match dictReader text with
    | .error e => .error (.csvError e)
    | .ok rows => (fromRows upper rows).mapError .raised

/-! ## The template of a word processor -/

def cut (marker : List Char) : List Char → Option (List Char × List Char)
  | [] => none
  | c :: cs =>
    if marker.isPrefixOf (c :: cs) then some ([], (c :: cs).drop marker.length)
    else (cut marker cs).map (fun p => (c :: p.1, p.2))

def templatePayload (custom : String) : Option String :=
  (cut "IELTS-IMPORT:".toList custom.toList).map (fun p =>
    .ofList ((cut "</vt:lpwstr>".toList p.2).elim p.2 Prod.fst))

def notTemplate : Report :=
  [{ code := "DOCX_NOT_TEMPLATE", path := "file"
     message := "This .docx was not produced by the import template." }]

/-- `from_docx`: whatever is raised in it is caught. -/
def fromDocx (libs : Libraries) (raw : ByteArray) : Obj × Report :=
  let failed := fun message =>
    (Dict.empty, parseFailed ("The file could not be opened as a .docx: " ++ message))
  match libs.customXml raw with
  | .error message => failed message
  | .ok custom =>
    match custom.bind templatePayload with
    | none => (Dict.empty, notTemplate)
    | some payload =>
      match readJson (libs.loadsText payload) with
      | .ok read => read
      | .error e => failed e.2

/-! ## The dry run -/

def validated (registry : Registry) (read : Obj × Report) : Except Escape ImportResult :=
  (validate read.1 registry read.2).mapError .raised

/-- `parse`: adapter, then validation. -/
def parse (libs : Libraries) (registry : Registry) (raw : ByteArray) (sourceFormat : String) :
    Except Escape ImportResult :=
  match sourceFormat with
  | "json" => fromJson (libs.loadsBytes raw) >>= validated registry
  | "csv" => fromCsv libs.upper raw >>= validated registry
  | "docx" => validated registry (fromDocx libs raw)
  | _ => .ok {
      canonical := Dict.empty
      report := [{
        code := "FORMAT_UNSUPPORTED", path := "file"
        message := "Unsupported format " ++ ContentImporter.repr (.str sourceFormat) ++ "." }]
      counts := {} }

end IeltsHub.ImportAdapters
