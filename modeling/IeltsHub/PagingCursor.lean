import IeltsHub.Base64
import IeltsHub.KeysetPaging
import IeltsHub.PlatformErrors
import IeltsHub.PyText
import IeltsHub.PyTime

set_option autoImplicit false

/-!
# Keyset cursors

A cursor is the last key seen, in base64; the next page resumes strictly past it. A string that
is no cursor decodes to nothing, and the listing starts from the top.
-/
namespace IeltsHub.PagingCursor
open PyText PyTime PlatformErrors

/-! ## Keys and their text -/

def padded (width : ℕ) (n : ℕ) : List Char :=
  List.replicate (width - (Nat.toDigits 10 n).length) '0' ++ Nat.toDigits 10 n

def civil (day : ℤ) : ℕ × ℕ × ℕ :=
  let z := day + 719468
  let era := z / 146097
  let doe := z - era * 146097
  let yoe := (doe - doe / 1460 + doe / 36524 - doe / 146096) / 365
  let doy := doe - (365 * yoe + yoe / 4 - yoe / 100)
  let mp := (5 * doy + 2) / 153
  let d := doy - (153 * mp + 2) / 5 + 1
  let m := if mp < 10 then mp + 3 else mp - 9
  let y := yoe + era * 400 + (if m ≤ 2 then 1 else 0)
  (y.toNat, m.toNat, d.toNat)

/-- `datetime.isoformat()`, in UTC; a whole second has no fraction. -/
def isoformat (t : Time) : List Char :=
  let day := civil (t / 86400000000)
  let us := (t % 86400000000).toNat
  padded 4 day.1 ++ '-' :: padded 2 day.2.1 ++ '-' :: padded 2 day.2.2 ++
    'T' :: padded 2 (us / 3600000000) ++ ':' :: padded 2 (us / 60000000 % 60) ++
    ':' :: padded 2 (us / 1000000 % 60) ++
    (if us % 1000000 = 0 then [] else '.' :: padded 6 (us % 1000000)) ++ "+00:00".toList

-- 2026-07-01T08:30:00.250000+00:00
example : String.ofList (isoformat 1782894600250000) = "2026-07-01T08:30:00.250000+00:00" := by
  decide +kernel

/-- What is in a key: a timestamp, an integer or a rank. -/
inductive KeyPart where
  | moment (t : Time)
  | int (n : ℕ)

def KeyPart.text : KeyPart → String
  | .moment t => .ofList (isoformat t)
  | .int n => toString n

/-! ## Cursors -/

def SEP : Char := '\x1f'

def utf8 (s : String) : List UInt8 := s.toByteArray.data.toList

/-- `bytes.decode()`. -/
def ofUtf8 (bs : List UInt8) : Option String := String.fromUTF8? ⟨bs.toArray⟩

/-- `s.rstrip("=")`. -/
def stripPads (cs : List Char) : List Char := (cs.reverse.dropWhile (fun c => c = '=')).reverse

def encodeText (raw : String) : String := .ofList (stripPads (Base64.encode (utf8 raw)))

def encodeCursor (key : KeyPart) : String := encodeText key.text

def decodeCursor (cursor : Option String) : Option String :=
  match cursor with
  | none => none
  | some cursor =>
    if cursor = "" then none
    else if cursor.toList.any (fun c => 128 ≤ c.toNat) then none
    else
      let cs := cursor.toList
      (Base64.decode (cs ++ List.replicate ((4 - cs.length % 4) % 4) '=')).bind ofUtf8

/-- `try: int(raw) except ValueError: None`. -/
def intOrNone (raw : String) : Except Raised (Option ℤ) :=
  match (intOfText raw : Except Raised ℤ) with
  | .ok n => .ok (some n)
  | .error .valueError => .ok none
  | .error e => .error e

def decodeId (cursor : Option String) : Except Raised (Option ℤ) :=
  match decodeCursor cursor with
  | none => .ok none
  | some raw => intOrNone raw

def encodeKey (parts : List KeyPart) : String :=
  encodeText (join (String.singleton SEP) (parts.map KeyPart.text))

def decodeKey (cursor : Option String) (arity : ℕ) : Except Raised (Option (List String × ℤ)) :=
  match decodeCursor cursor with
  | none => .ok none
  | some raw =>
    let parts := splitOn SEP raw
    if parts.length ≠ arity then .ok none
    else (Option.map (fun n => (parts.dropLast, n))) <$> intOrNone (parts.getLastD "")

/-! ## Pages -/

/-- Split a batch of `limit + 1` rows into a page and the cursor after it. -/
def page {ρ : Type} (id : ρ → ℕ) (rows : List ρ) (limit : ℕ) :
    Except Raised (List ρ × Option String) :=
  if rows.length ≤ limit then .ok (rows, none)
  else
    match (rows.take limit).getLast? with
    | none => .error .indexError
    | some r => .ok (rows.take limit, some (encodeCursor (.int (id r))))

/-- The order of a listing: the libraries go up, the list of tests goes down. -/
inductive Order where
  | ascending | descending
  deriving DecidableEq

def Order.rank (o : Order) (n : ℤ) : ℤ :=
  match o with
  | .ascending => n
  | .descending => -n

/-- One page of an id-ordered listing: strictly past the cursor, one row more than asked for. -/
def readPage {ρ : Type} (id : ρ → ℕ) (o : Order) (limit : ℕ) (cursor : Option String)
    (rows : List ρ) : Except Raised (List ρ × Option String) := do
  let after ← decodeId cursor
  let scope := match after with
    | none => rows
    | some k => rows.filter (fun r => o.rank k < o.rank (id r))
  page id ((scope.insertionSort (fun a b => o.rank (id a) ≤ o.rank (id b))).take (limit + 1)) limit

end IeltsHub.PagingCursor
