import Mathlib
import IeltsHub.PyText

set_option autoImplicit false

/-!
# UUIDs as text

`uuid.UUID(s)` and `str` of one. The constructor drops the URN prefixes, braces and hyphens and
reads the thirty-two characters left as a base-16 literal, in the generous sense of `int(s, 16)`.
-/
namespace IeltsHub.PyUuid
open PyText

/-- The text less every occurrence of `word`; the number is how much of one is still to drop. -/
def dropWord (word : List Char) : ℕ → List Char → List Char
  | _, [] => []
  | skip + 1, _ :: cs => dropWord word skip cs
  | 0, c :: cs =>
    if word.isPrefixOf (c :: cs) then dropWord word (word.length - 1) cs
    else c :: dropWord word 0 cs

def hexDigit? (c : Char) : Option ℕ :=
  match decimal? c with
  | some d => some d
  | none =>
    if 'a' ≤ c ∧ c ≤ 'f' then some (c.toNat - 87)
    else if 'A' ≤ c ∧ c ≤ 'F' then some (c.toNat - 55)
    else none

def hexDigits : List Char → Option (List ℕ)
  | [] => none
  | [c] => (hexDigit? c).map (fun d => [d])
  | c :: '_' :: cs => do
    let d ← hexDigit? c
    let ds ← hexDigits cs
    return d :: ds
  | c :: cs => do
    let d ← hexDigit? c
    let ds ← hexDigits cs
    return d :: ds

/-- The literal after its prefix `0x`, where it has one. -/
def afterPrefix : List Char → List Char
  | z :: x :: '_' :: cs =>
    if decimal? z = some 0 ∧ (x = 'x' ∨ x = 'X') then cs else z :: x :: '_' :: cs
  | z :: x :: cs => if decimal? z = some 0 ∧ (x = 'x' ∨ x = 'X') then cs else z :: x :: cs
  | cs => cs

/-- `int(s, 16)` where it is a number and not negative. -/
def natOfHex (cs : List Char) : Option ℕ := do
  let body := signOf (stripBy isSpace cs)
  let ds ← hexDigits (afterPrefix body.2)
  let n := ds.foldl (fun n d => 16 * n + d) 0
  if body.1 ∧ n ≠ 0 then none else some n

/-- `uuid.UUID(s).int`, nothing where the constructor raises `ValueError`. -/
def uuidOfText (s : String) : Option ℕ := do
  let bare := dropWord "uuid:".toList 0 (dropWord "urn:".toList 0 s.toList)
  let hex := (stripBy (fun c => c = '{' ∨ c = '}') bare).filter (fun c => c ≠ '-')
  if hex.length = 32 then
    let n ← natOfHex hex
    if n < 2 ^ 128 then some n else none
  else none

def hexText (n digits : ℕ) : List Char :=
  (List.range digits).reverse.map (fun i => Nat.digitChar (n / 16 ^ i % 16))

/-- `str(uuid.UUID(int=n))`. -/
def textOfUuid (n : ℕ) : String :=
  let h := hexText n 32
  .ofList (h.take 8 ++ '-' :: (h.drop 8).take 4 ++ '-' :: (h.drop 12).take 4 ++
    '-' :: (h.drop 16).take 4 ++ '-' :: h.drop 20)

example : (uuidOfText "{018F1111-1111-7111-8111-111111111111}").map textOfUuid =
    some "018f1111-1111-7111-8111-111111111111" := by decide +kernel

end IeltsHub.PyUuid
