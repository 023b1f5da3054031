import IeltsHub.PyUuid
import IeltsHub.PyValue

set_option autoImplicit false

/-!
# Writing JSON

`json.dumps` with ASCII output: what is not printable ASCII is escaped by its UTF-16 units.
`Layout` is the separators and whether the keys of an object are sorted.
-/
namespace IeltsHub.PyJson
open PyDict PyText PyUuid PyValue

structure Layout where
  itemSeparator : String := ", "
  keySeparator : String := ": "
  sortKeys : Bool := false

def compactSorted : Layout := ⟨",", ":", true⟩

def unitEscape (n : ℕ) : List Char := '\\' :: 'u' :: hexText n 4

def escapeAscii (c : Char) : List Char :=
  let n := c.toNat
  if c = '"' then ['\\', '"']
  else if c = '\\' then ['\\', '\\']
  else if c = '\n' then ['\\', 'n']
  else if c = '\r' then ['\\', 'r']
  else if c = '\t' then ['\\', 't']
  else if n = 8 then ['\\', 'b']
  else if n = 12 then ['\\', 'f']
  else if 0x20 ≤ n ∧ n ≤ 0x7e then [c]
  else if n < 0x10000 then unitEscape n
  else unitEscape (0xd800 + (n - 0x10000) / 0x400) ++ unitEscape (0xdc00 + (n - 0x10000) % 0x400)

def dumpsText (s : String) : List Char := '"' :: s.toList.flatMap escapeAscii ++ ['"']

def between (left right : Char) (separator : String) (parts : List (List Char)) : List Char :=
  left :: List.intercalate separator.toList parts ++ [right]

mutual
def dumpsValue (l : Layout) : Json → List Char
  | .null => "null".toList
  | .bool b => (if b then "true" else "false").toList
  | .int n => (toString n).toList
  | .real q => (textOfReal q).toList
  | .str s => dumpsText s
  | .arr es => between '[' ']' l.itemSeparator (dumpsList l es)
  | .obj ms =>
    let entries := (Dict.ofList (dumpsMembers l ms)).entries
    let ordered := if l.sortKeys then entries.insertionSort (fun a b => textLE a.1 b.1 = true)
      else entries
    between '\x7b' '\x7d' l.itemSeparator
      (ordered.map (fun e => dumpsText e.1 ++ l.keySeparator.toList ++ e.2))

def dumpsList (l : Layout) : List Json → List (List Char)
  | [] => []
  | e :: es => dumpsValue l e :: dumpsList l es

def dumpsMembers (l : Layout) : List (String × Json) → List (String × List Char)
  | [] => []
  | (k, v) :: ms => (k, dumpsValue l v) :: dumpsMembers l ms
end

/-- `json.dumps(value, …)`. -/
def dumps (l : Layout) (value : Json) : String := .ofList (dumpsValue l value)

example : dumps compactSorted (.obj [("b", .arr [.int 1, .null]), ("a", .str "é")]) =
    "\x7b\"a\":\"\\u00e9\",\"b\":[1,null]\x7d" := by
  decide +kernel

end IeltsHub.PyJson
