import IeltsHub.ExamScoringInputs
import IeltsHub.IntervalTables
import IeltsHub.ContentPublishGate

set_option autoImplicit false

/-!
# Validating a band map

`app/modules/content/band_maps.py`. Every problem of the mapping goes into one report: rows that
are not numbers, ranges reversed or outside the paper, marks covered twice or not at all, bands
that are not IELTS bands or that go down as marks go up.
-/
namespace IeltsHub.ContentBandMaps
open PyExc PyText PyTime PyValue PlatformFindings ContentPublishGate

/-! ## `float` -/

inductive Overflow where
  | overflowError
  deriving DecidableEq

abbrev Reading := Except (Exc Overflow)

/-- The double nearest to `q`, none past the greatest. -/
def nearestDouble (q : ℚ) : Option ℚ :=
  if q = 0 then some 0
  else
    let ulp : ℚ := 2 ^ max (Int.log 2 |q| - 52) (-1074)
    let x := roundEven (q / ulp) * ulp
    if |x| < 2 ^ 1024 then some x else none

def isDecimal (c : Option Char) : Bool := c.any (fun c => (decimal? c).isSome)

/-- In a `float` literal an underscore stands between two digits. -/
def underscoresFit : Option Char → List Char → Bool
  | _, [] => true
  | before, c :: cs =>
    (c ≠ '_' || isDecimal before && isDecimal cs.head?) && underscoresFit (some c) cs

def floatLiteral (s : String) : Option ℚ :=
  if underscoresFit none (stripBy isSpace s.toList) then decimalLiteral s else none

/-- `float(value)`, none for a value that is not finite. -/
def float : Json → Reading (Option ℚ)
  | .bool b => .ok (some (if b then 1 else 0))
  | .int n =>
    match nearestDouble n with
    | some x => .ok (some x)
    | none => .error (.domain .overflowError)
  | .real q => .ok (some q)
  | .str s =>
    if ["nan", "inf", "infinity"].contains
        (.ofList (signOf (stripBy isSpace (casefold s).toList)).2) then .ok none
    else
      match floatLiteral s with
      | some q => .ok (nearestDouble q)
      | none => .error .valueError
  | _ => .error .typeError

/-! ## `findings` -/

def validBands : List ℚ := (List.range 19).map (fun x : ℕ => (x : ℚ) / 2)

abbrev Row := ℤ × ℤ × ℚ

def readRow (row : Json) : Reading (ℤ × ℤ × Option ℚ) := do
  let lo ← pyInt (← subscript row "raw_min")
  let hi ← pyInt (← subscript row "raw_max")
  let band ← float (← subscript row "band")
  return (lo, hi, band)

/-- `except (KeyError, TypeError, ValueError)`. -/
def malformed : Exc Overflow → Bool
  | .keyError _ | .typeError | .valueError => true
  | _ => false

def textOfFloat : Option ℚ → String
  | some q => pyStr (.real q)
  | none => "nan"

def rowPath (index : ℕ) : String := "mapping[" ++ toString index ++ "]"

def checkRow (maxRaw : ℤ) (index : ℕ) (row : Json) : Reading (Finding ⊕ Row) :=
  match readRow row with
  | .error e =>
    if malformed e then
      .ok (.inl { code := "BAND_MAP_ROW_MALFORMED"
                  message := "Each row needs raw_min, raw_max and band as numbers."
                  path := rowPath index })
    else .error e
  | .ok (lo, hi, band) =>
    if hi < lo then
      .ok (.inl { code := "BAND_MAP_RANGE_REVERSED"
                  message := "raw_min " ++ toString lo ++ " is above raw_max " ++ toString hi ++ "."
                  path := rowPath index })
    else if lo < 0 ∨ maxRaw < hi then
      .ok (.inl { code := "BAND_MAP_RANGE_OUTSIDE"
                  message := "Row covers " ++ toString lo ++ "-" ++ toString hi ++ ", outside 0-" ++
                    toString maxRaw ++ "."
                  path := rowPath index })
    else
      match band.filter (fun b => b ∈ validBands) with
      | some b => .ok (.inr (lo, hi, b))
      | none =>
        .ok (.inl { code := "BAND_MAP_BAND_INVALID"
                    message := textOfFloat band ++ " is not an IELTS band."
                    path := rowPath index })

def before (a b : Row) : Prop :=
  a.1 < b.1 ∨ a.1 = b.1 ∧ (a.2.1 < b.2.1 ∨ a.2.1 = b.2.1 ∧ a.2.2 ≤ b.2.2)

instance before_decidable : DecidableRel before := fun _ _ => inferInstanceAs (Decidable (_ ∨ _))

/-- `range(lo, hi + 1)`. -/
def marks (r : Row) : List ℤ :=
  (List.range (r.2.1 + 1 - r.1).toNat).map (fun k : ℕ => r.1 + k)

def overlaps (covered : List ℤ) : List Row → Report
  | [] => []
  | r :: rs =>
    let overlap := (marks r).filter (fun m => m ∈ covered)
    findIf (!overlap.isEmpty)
      { code := "BAND_MAP_OVERLAP"
        message := "Mark(s) " ++ intList (overlap.take 8) ++ " appear in more than one row."
        path := "mapping" } ++
    overlaps (covered ++ marks r) rs

def drops : Option ℚ → List Row → Report
  | _, [] => []
  | previous, r :: rs =>
    match previous.filter (fun p => r.2.2 < p) with
    | some p =>
      [{ code := "BAND_MAP_NOT_MONOTONIC"
         message := "Band drops to " ++ textOfFloat (some r.2.2) ++ " at mark " ++ toString r.1 ++
           ", below " ++ textOfFloat (some p) ++ " for a lower mark."
         path := "mapping" }]
    | none => drops (some r.2.2) rs

def gaps (maxRaw : ℤ) (rows : List Row) : Report :=
  let missing := (range (maxRaw + 1)).filter (fun m => m ∉ rows.flatMap marks)
  findIf (!missing.isEmpty)
    { code := "BAND_MAP_GAP"
      message := "No band for mark(s): " ++ firstEight missing
      path := "mapping" }

def findings (mapping : List Json) (maxRaw : ℤ) : Reading Report :=
  if maxRaw < 1 then
    .ok [{ code := "BAND_MAP_MAX_RAW_INVALID"
           message := "A band map must cover at least one mark; max_raw is " ++ toString maxRaw ++
             "."
           path := "max_raw" }]
  else if mapping.isEmpty then
    .ok [{ code := "BAND_MAP_EMPTY", message := "A band map needs at least one row."
           path := "mapping" }]
  else do
    let checked ← mapping.zipIdx.mapM (fun e => checkRow maxRaw e.2 e.1)
    let rows := checked.filterMap Sum.getRight?
    let report := checked.filterMap Sum.getLeft?
    if rows.isEmpty then return report
    else
      let sorted := rows.insertionSort before
      return report ++ overlaps [] sorted ++ gaps maxRaw sorted ++ drops none sorted

end IeltsHub.ContentBandMaps
