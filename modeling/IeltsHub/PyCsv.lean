import IeltsHub.PyDict

set_option autoImplicit false

/-!
# Reading CSV

`csv.reader` with its default dialect, a state machine over the characters of a line and the end
of the line, and `csv.DictReader` over it. A line ends after a line feed only, as it does in a
`StringIO`.
-/
namespace IeltsHub.PyCsv
open PyDict

inductive CsvError where
  | newLineInUnquoted
  | fieldTooLarge
  deriving DecidableEq, Repr

inductive Mode where
  | startRecord | startField | inField | inQuoted | quoteInQuoted | eatCrnl
  deriving DecidableEq, Repr

/-- The record under way; `field` is reversed. -/
structure Reader where
  mode : Mode := .startRecord
  field : List Char := []
  fields : List String := []
  deriving DecidableEq

/-- `csv.field_size_limit()`. -/
def fieldLimit : ℕ := 131072

def Reader.saveField (r : Reader) : Reader :=
  { r with fields := r.fields ++ [.ofList r.field.reverse], field := [] }

def Reader.addChar (r : Reader) (c : Char) (mode : Mode) : Except CsvError Reader :=
  if fieldLimit ≤ r.field.length then .error .fieldTooLarge
  else .ok { r with field := c :: r.field, mode }

def endsLine : Option Char → Bool
  | none => true
  | some c => c = '\n' || c = '\r'

def Reader.endRecord (r : Reader) (c : Option Char) : Reader :=
  { r.saveField with mode := if c.isNone then .startRecord else .eatCrnl }

def startField (r : Reader) (c : Option Char) : Except CsvError Reader :=
  if endsLine c then .ok (r.endRecord c)
  else
    match c with
    | some '"' => .ok { r with mode := .inQuoted }
    | some ',' => .ok { r.saveField with mode := .startField }
    | some c => r.addChar c .inField
    | none => .ok r

def process (r : Reader) (c : Option Char) : Except CsvError Reader :=
  match r.mode with
  | .startRecord =>
    if c.isNone then .ok r
    else if endsLine c then .ok { r with mode := .eatCrnl }
    else startField r c
  | .startField => startField r c
  | .inField =>
    if endsLine c then .ok (r.endRecord c)
    else
      match c with
      | some ',' => .ok { r.saveField with mode := .startField }
      | some c => r.addChar c .inField
      | none => .ok r
  | .inQuoted =>
    match c with
    | some '"' => .ok { r with mode := .quoteInQuoted }
    | some c => r.addChar c .inQuoted
    | none => .ok r
  | .quoteInQuoted =>
    if endsLine c then .ok (r.endRecord c)
    else
      match c with
      | some '"' => r.addChar '"' .inQuoted
      | some ',' => .ok { r.saveField with mode := .startField }
      | some c => r.addChar c .inField
      | none => .ok r
  | .eatCrnl =>
    if c.isNone then .ok { r with mode := .startRecord }
    else if endsLine c then .ok r
    else .error .newLineInUnquoted

def readLine (r : Reader) (line : List Char) : Except CsvError Reader :=
  (line.map some ++ [none]).foldlM process r

/-- The lines of a text, each with its line feed; `line` is the reversed line under way. -/
def linesFrom (line : List Char) : List Char → List (List Char)
  | [] => if line.isEmpty then [] else [line.reverse]
  | c :: cs => if c = '\n' then (c :: line).reverse :: linesFrom [] cs else linesFrom (c :: line) cs

def records (r : Reader) : List (List Char) → Except CsvError (List (List String))
  | [] =>
    if !r.field.isEmpty || r.mode = .inQuoted then .ok [r.saveField.fields] else .ok []
  | line :: lines => do
    let r ← readLine r line
    if r.mode = .startRecord then
      let rest ← records {} lines
      return r.fields :: rest
    else records r lines

abbrev Row := Dict String (Option String)

def rowOf (header cells : List String) : Row :=
  (header.drop cells.length).foldl (fun d name => d.put name none)
    (Dict.ofList ((header.zip cells).map (fun e => (e.1, some e.2))))

/-- `list(csv.DictReader(io.StringIO(text)))`: blank lines are passed over. -/
def dictReader (text : String) : Except CsvError (List Row) := do
  match ← records {} (linesFrom [] text.toList) with
  | [] => return []
  | header :: rest => return (rest.filter (fun cells => cells ≠ [])).map (rowOf header)

example : (dictReader "a,b\r\n1,\"x\n\"\"y\"\r\n\n2").toOption.map (fun rows =>
    rows.map (fun r => (r.get? "a", r.get? "b"))) =
      some [(some (some "1"), some (some "x\n\"y")), (some (some "2"), some none)] := by
  decide +kernel

example : dictReader "a,b\rc" = .error .newLineInUnquoted := by decide +kernel

end IeltsHub.PyCsv
