import IeltsHub.PlatformErrors
import IeltsHub.PyText

set_option autoImplicit false

/-!
# Ranges of a media object

`parse_range` of `platform/http_range.py`, `FileStorage.get` and the part of `read_media` that
answers with bytes.
-/
namespace IeltsHub.HttpRange
open PyText PlatformErrors

/-! ## The header -/

/-- `\d`. -/
def isDecimal (c : Char) : Bool := (decimal? c).isSome

/-- `^bytes=(\d*)-(\d*)$` on a text without surrounding blanks. -/
def rangeMatch (cs : List Char) : Option (List Char × List Char) :=
  if "bytes=".toList.isPrefixOf cs then
    let rest := cs.drop 6
    match rest.dropWhile isDecimal with
    | '-' :: last => if last.all isDecimal then some (rest.takeWhile isDecimal, last) else none
    | _ => none
  else none

def spanOf (first last : List Char) (size : ℕ) : Except Raised (Option (ℤ × ℤ)) :=
  if first = [] ∧ last = [] then .ok none
  else if first = [] then do
    let length := min (← intOfText (.ofList last)) size
    return some (max 0 (size - length), size - 1)
  else do
    let start ← intOfText (.ofList first)
    if last = [] then return some (start, size - 1)
    else
      let stop ← intOfText (.ofList last)
      if stop < start then return none
      else return some (start, min stop (size - 1))

def parseRange (header : Option String) (size : ℕ) : Except Raised (Option (ℤ × ℤ)) :=
  match header with
  | none => .ok none
  | some text =>
    if text = "" then .ok none
    else
      match rangeMatch (strip text).toList with
      | none => .ok none
      | some (first, last) => spanOf first last size

/-! ## The bytes -/

def chunkSize : ℕ := 64 * 1024

/-- The loop of `FileStorage.get`, from where the handle stands. -/
def readChunks (rest : List UInt8) (remaining : Option ℤ) : List (List UInt8) :=
  let size : ℤ := (remaining.map (min (chunkSize : ℤ))).getD chunkSize
  if size ≤ 0 then []
  else if rest = [] then []
  else
    let chunk := rest.take size.toNat
    chunk :: readChunks (rest.drop size.toNat) (remaining.map (fun left => left - chunk.length))
termination_by rest.length
decreasing_by
  rw [List.length_drop]
  have hne : 0 < rest.length := List.length_pos_iff.2 (by assumption)
  omega

def FileStorage.get (file : List UInt8) (start stop : Option ℤ) : List (List UInt8) :=
  readChunks (file.drop (start.getD 0).toNat) (stop.map (fun stop => stop - start.getD 0 + 1))

/-! ## The response -/

/-- An asset and its object, of the size the row records. -/
structure Media where
  object : List UInt8
  bytes : Option ℕ
  contentType : String
  recorded : bytes.getD 0 = object.length

structure Response where
  status : ℕ
  mediaType : Option String := none
  headers : List (String × String)
  body : List UInt8 := []
  deriving DecidableEq

def commonHeaders : List (String × String) := [("Accept-Ranges", "bytes"),
  ("Cache-Control", "no-store"), ("X-Content-Type-Options", "nosniff"),
  ("Content-Disposition", "inline")]

/-- `_chunks`, drained. -/
def streamed (m : Media) (start stop : ℤ) : List UInt8 :=
  (FileStorage.get m.object (some start) (some stop)).flatten

/-- `read_media` from the point where the object is known to be there. -/
def readMedia (m : Media) (range : Option String) : Except Raised Response := do
  let total := m.bytes.getD 0
  match ← parseRange range total with
  | none => return {
      status := 200
      mediaType := some m.contentType
      headers := commonHeaders ++ [("Content-Length", toString total)]
      body := streamed m 0 (total - 1) }
  | some (start, stop) =>
    if (total : ℤ) ≤ start then return {
      status := 416
      headers := commonHeaders ++ [("Content-Range", s!"bytes */{total}")] }
    else return {
      status := 206
      mediaType := some m.contentType
      headers := commonHeaders ++ [("Content-Range", s!"bytes {start}-{stop}/{total}"),
        ("Content-Length", toString (stop - start + 1))]
      body := streamed m start stop }

/-! ## What is read -/

theorem flatten_readChunks (rest : List UInt8) (remaining : ℤ) :
    (readChunks rest (some remaining)).flatten = rest.take remaining.toNat := by
  induction hn : rest.length using Nat.strong_induction_on generalizing rest remaining with
  | _ n ih =>
    subst hn
    have hchunk : (0 : ℤ) < chunkSize := by decide
    unfold readChunks
    dsimp only [Option.map_some, Option.getD_some]
    by_cases hsize : min (chunkSize : ℤ) remaining ≤ 0
    · have hremaining : remaining.toNat = 0 := by omega
      rw [if_pos hsize, hremaining]
      rfl
    · rw [if_neg hsize]
      by_cases hnil : rest = []
      · subst hnil
        rw [if_pos rfl, List.take_nil]
        rfl
      · have hpos : 0 < rest.length := List.length_pos_iff.2 hnil
        have hshorter : (rest.drop (min (chunkSize : ℤ) remaining).toNat).length < rest.length := by
          rw [List.length_drop]
          omega
        rw [if_neg hnil, List.flatten_cons, ih _ hshorter _ _ rfl, List.length_take]
        by_cases hlong : (min (chunkSize : ℤ) remaining).toNat ≤ rest.length
        · have hsplit : remaining.toNat = (min (chunkSize : ℤ) remaining).toNat +
              (remaining - ((min (chunkSize : ℤ) remaining).toNat : ℤ)).toNat := by omega
          rw [min_eq_left hlong, hsplit, List.take_add]
        · have hall : rest.length ≤ remaining.toNat := by omega
          rw [List.drop_eq_nil_of_le (not_le.1 hlong).le, List.take_nil, List.append_nil,
            List.take_of_length_le (not_le.1 hlong).le, List.take_of_length_le hall]

theorem streamed_eq (m : Media) {start stop : ℤ} :
    streamed m start stop = (m.object.drop start.toNat).take (stop - start + 1).toNat := by
  unfold streamed FileStorage.get
  exact flatten_readChunks _ _

/-! ## What the header says -/

def valueOf (cs : List Char) : ℕ := ofDigits (cs.filterMap decimal?)

theorem mapM_decimal {cs : List Char} (h : cs.all isDecimal = true) :
    cs.mapM decimal? = some (cs.filterMap decimal?) := by
  induction cs with
  | nil => rfl
  | cons c cs ih =>
    rw [List.all_cons, Bool.and_eq_true] at h
    obtain ⟨d, hd⟩ := Option.isSome_iff_exists.1 h.1
    rw [List.mapM_cons, hd, ih h.2, List.filterMap_cons_some hd]
    rfl

theorem intOfText_digits {cs : List Char} (h : cs.all isDecimal = true) (hne : cs ≠ []) :
    (intOfText (.ofList cs) : Except Raised ℤ) =
      if cs.length ≤ maxStrDigits then .ok (valueOf cs) else .error .valueError := by
  have hdigit : isdigit (.ofList cs) = true := by
    unfold isdigit
    rw [String.toList_ofList, Bool.and_eq_true, Bool.not_eq_true', List.isEmpty_eq_false_iff]
    refine ⟨hne, List.all_eq_true.2 (fun c hc => ?_)⟩
    obtain ⟨d, hd⟩ := Option.isSome_iff_exists.1 (List.all_eq_true.1 h c hc)
    exact decimal?_isDigitChar hd
  have hlength : (cs.filterMap decimal?).length = cs.length := by
    clear hdigit hne
    induction cs with
    | nil => rfl
    | cons c cs ih =>
      rw [List.all_cons, Bool.and_eq_true] at h
      obtain ⟨d, hd⟩ := Option.isSome_iff_exists.1 h.1
      rw [List.filterMap_cons_some hd, List.length_cons, List.length_cons, ih h.2]
  rw [intOfText_of_isdigit hdigit, String.toList_ofList, mapM_decimal h]
  dsimp only
  rw [hlength]
  rfl

theorem rangeMatch_eq_some {cs first last : List Char} : rangeMatch cs = some (first, last) ↔
    cs = "bytes=".toList ++ first ++ '-' :: last ∧ first.all isDecimal = true ∧
      last.all isDecimal = true := by
  constructor
  · intro h
    unfold rangeMatch at h
    split at h
    · rename_i hprefix
      obtain ⟨rest, rfl⟩ := List.isPrefixOf_iff_prefix.1 hprefix
      have hdrop : ("bytes=".toList ++ rest).drop 6 = rest := rfl
      rw [hdrop] at h
      dsimp only at h
      split at h
      · rename_i last' hlast
        split at h
        · rename_i hall
          cases h
          refine ⟨?_, ?_, hall⟩
          · rw [List.append_assoc, ← hlast, List.takeWhile_append_dropWhile]
          · exact List.all_takeWhile
        · cases h
      · cases h
    · cases h
  · rintro ⟨rfl, hfirst, hlast⟩
    have hprefix : "bytes=".toList.isPrefixOf ("bytes=".toList ++ first ++ '-' :: last) = true := by
      rw [List.append_assoc]
      exact List.isPrefixOf_iff_prefix.2 (List.prefix_append _ _)
    have hdrop : ("bytes=".toList ++ first ++ '-' :: last).drop 6 = first ++ '-' :: last := by
      rw [List.append_assoc]
      rfl
    have hall := List.all_eq_true.1 hfirst
    have htake : (first ++ '-' :: last).takeWhile isDecimal = first := by
      rw [List.takeWhile_append_of_pos hall, List.takeWhile_cons_of_neg (by decide),
        List.append_nil]
    have hrest : (first ++ '-' :: last).dropWhile isDecimal = '-' :: last := by
      rw [List.dropWhile_append_of_pos hall, List.dropWhile_cons_of_neg (by decide)]
    unfold rangeMatch
    rw [if_pos hprefix, hdrop]
    dsimp only
    rw [hrest, htake]
    exact if_pos hlast

end IeltsHub.HttpRange
