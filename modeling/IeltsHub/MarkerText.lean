import IeltsHub.BlankOrder
import IeltsHub.PyTime

set_option autoImplicit false

/-!
# Blank markers as the console reads them

`slotsInText` and `normaliseMarkers` of `payloadParts.ts`: a marker is a number between doubled
braces, with or without an `s` and white space. Once rewritten, the markers of a text are those the
server reads.
-/
namespace IeltsHub.MarkerText
open PyText PyTime BlankOrder
open ContentPublishGate (markerAt markers)

/-! ## Text -/

/-- White space of `trim` and of `\s`. -/
def isJsSpace (c : Char) : Bool :=
  let n := c.toNat
  (9 ≤ n ∧ n ≤ 13) ∨ n = 32 ∨ n = 160 ∨ n = 5760 ∨ (8192 ≤ n ∧ n ≤ 8202) ∨ n = 8232 ∨ n = 8233 ∨
    n = 8239 ∨ n = 8287 ∨ n = 12288 ∨ n = 65279

def trim (cs : List Char) : List Char := stripBy isJsSpace cs

/-! ## `Number(digits)` in a template string -/

/-- The number nearest to `x` with `e` zeros at its end, if `x` is the double it stands for. -/
def roundedTo (x e : ℕ) : Option ℕ :=
  let low := x / 10 ^ e * 10 ^ e
  let high := low + 10 ^ e
  let stands (y : ℕ) : Bool := toDouble y = x
  if stands high ∧ (¬ stands low ∨ high - x < x - low) then some high
  else if stands low then some low
  else none

/-- The shortest decimal that stands for a double: as many zeros at its end as can be. -/
def shortest (x : ℕ) : ℕ → ℕ
  | 0 => x
  | e + 1 => (roundedTo x (e + 1)).getD (shortest x e)

def printed (digits : List Char) : ℕ :=
  let x := ⌊toDouble (Nat.ofDigitChars 10 digits 0)⌋.toNat
  shortest x digits.length

def exponentText (n : ℕ) : List Char :=
  let ds := (Nat.repr n).toList
  let mantissa := stripBy (fun c => c = '0') ds
  let fraction := mantissa.drop 1
  mantissa.take 1 ++ (if fraction = [] then [] else '.' :: fraction) ++
    ['e', '+'] ++ (Nat.repr (ds.length - 1)).toList

def numberText (digits : List Char) : List Char :=
  let n := printed digits
  if n < 10 ^ 21 then (Nat.repr n).toList
  else if 2 ^ 1024 ≤ n then "Infinity".toList
  else exponentText n

example : String.ofList (numberText "007".toList) = "7" := by decide +kernel
example : String.ofList (numberText "9007199254740993".toList) = "9007199254740992" := by
  decide +kernel
example : String.ofList (numberText "123456789012345678901234".toList) =
    "1.2345678901234569e+23" := by decide +kernel

/-! ## Markers -/

def slotId (digits : List Char) : String := .ofList ('s' :: numberText digits)

def dropS : List Char → List Char
  | 's' :: cs => cs
  | cs => cs

def closedDigits (cs : List Char) : Option (List Char × List Char) :=
  let digits := cs.takeWhile isSlotDigit
  let rest := (cs.dropWhile isSlotDigit).dropWhile isJsSpace
  if digits ≠ [] ∧ rest.take 2 = ['\x7d', '\x7d'] then some (digits, rest.drop 2) else none

def blankAt : List Char → Option (List Char × List Char)
  | '\x7b' :: '\x7b' :: cs => closedDigits (dropS (cs.dropWhile isJsSpace))
  | _ => none

inductive Piece where
  | char (c : Char)
  | blank (digits : List Char)
  deriving DecidableEq

/-- `fuel` bounds the pieces; each takes a character at least. -/
def pieces : ℕ → List Char → List Piece
  | 0, _ => []
  | _ + 1, [] => []
  | fuel + 1, c :: cs =>
    match blankAt (c :: cs) with
    | some (digits, rest) => .blank digits :: pieces fuel rest
    | none => .char c :: pieces fuel cs

def scan (cs : List Char) : List Piece := pieces cs.length cs

def Piece.id? : Piece → Option String
  | .char _ => none
  | .blank digits => some (slotId digits)

def ids (cs : List Char) : List String := (scan cs).filterMap Piece.id?

def Piece.normal : Piece → List Char
  | .char c => [c]
  | .blank digits => '\x7b' :: '\x7b' :: (slotId digits).toList ++ ['\x7d', '\x7d']

def normaliseMarkers (cs : List Char) : List Char := (scan cs).flatMap Piece.normal

def onlyMarker (cs : List Char) : Bool :=
  match blankAt (cs.dropWhile isJsSpace) with
  | some (_, rest) => rest.all isJsSpace
  | none => false

def firstSeen : List String → List String → List String
  | seen, [] => seen
  | seen, id :: ids => firstSeen (if id ∈ seen then seen else seen ++ [id]) ids

def slotsInText (cs : List Char) : List String := firstSeen [] (ids cs)

def slotsInLines (lines : List (List Char)) : List String :=
  firstSeen [] (lines.flatMap slotsInText)

def serverId (id : String) : Bool :=
  match id.toList with
  | 's' :: digits => digits ≠ [] ∧ digits.all isSlotDigit
  | _ => false

variable {cs ws ds rest : List Char} {c : Char} {id : String}

/-! ## What a marker is -/

def markText (ws so ds ws' : List Char) : List Char :=
  '\x7b' :: '\x7b' :: (ws ++ (so ++ (ds ++ (ws' ++ ['\x7d', '\x7d']))))

def Marks (cs ds rest : List Char) : Prop := ∃ ws so ws', ws.all isJsSpace = true ∧
  (so = [] ∨ so = ['s']) ∧ Number ds ∧ ws'.all isJsSpace = true ∧ cs = markText ws so ds ws' ++ rest

theorem digit_not_space (h : isSlotDigit c = true) : isJsSpace c = false := by
  unfold isSlotDigit at h
  simp only [Bool.and_eq_true, decide_eq_true_eq] at h
  have hlow : 48 ≤ c.toNat := h.1
  have hhigh : c.toNat ≤ 57 := h.2
  unfold isJsSpace
  rw [decide_eq_false_iff_not]
  omega

theorem space_not_digit (h : isJsSpace c = true) : isSlotDigit c = false := by
  cases hc : isSlotDigit c with
  | false => rfl
  | true =>
    rw [digit_not_space hc] at h
    cases h

theorem dropWhile_all {p : Char → Bool} (h : ws.all p = true) (rest : List Char) :
    (ws ++ rest).dropWhile p = rest.dropWhile p := by
  rw [List.dropWhile_append, List.dropWhile_eq_nil_iff.2 (List.all_eq_true.1 h)]
  rfl

theorem not_digit_after {ws' : List Char} (hws' : ws'.all isJsSpace = true) :
    ∃ x xs, ws' ++ ('\x7d' :: '\x7d' :: rest) = x :: xs ∧ ¬ isSlotDigit x = true := by
  cases ws' with
  | nil => exact ⟨_, _, rfl, by decide⟩
  | cons w ws' =>
    have hw : isJsSpace w = true := List.all_eq_true.1 hws' w List.mem_cons_self
    exact ⟨w, _, rfl, by simp [space_not_digit hw]⟩

theorem closedDigits_eq {ws' : List Char} (hds : Number ds) (hws' : ws'.all isJsSpace = true) :
    closedDigits (ds ++ (ws' ++ ('\x7d' :: '\x7d' :: rest))) = some (ds, rest) := by
  have hstop : ∃ x xs, ws' ++ ('\x7d' :: '\x7d' :: rest) = x :: xs ∧ ¬ isSlotDigit x = true :=
    not_digit_after hws'
  obtain ⟨x, xs, hafter, hx⟩ := hstop
  have htake : (ds ++ (ws' ++ ('\x7d' :: '\x7d' :: rest))).takeWhile isSlotDigit = ds := by
    rw [hafter, List.takeWhile_append_of_pos (List.all_eq_true.1 hds.digits),
      List.takeWhile_cons_of_neg hx, List.append_nil]
  have hdrop : ((ds ++ (ws' ++ ('\x7d' :: '\x7d' :: rest))).dropWhile isSlotDigit).dropWhile
      isJsSpace = '\x7d' :: '\x7d' :: rest := by
    rw [dropWhile_all hds.digits, hafter, List.dropWhile_cons_of_neg hx, ← hafter,
      dropWhile_all hws', List.dropWhile_cons_of_neg (by decide)]
  unfold closedDigits
  dsimp only
  rw [htake, hdrop]
  exact if_pos ⟨hds.ne, rfl⟩

theorem dropS_space {so : List Char} {d : Char} (hws : ws.all isJsSpace = true)
    (hso : so = [] ∨ so = ['s']) (hd : isSlotDigit d = true) :
    dropS ((ws ++ (so ++ d :: rest)).dropWhile isJsSpace) = d :: rest := by
  rw [dropWhile_all hws]
  rcases hso with rfl | rfl
  · rw [List.nil_append, List.dropWhile_cons_of_neg (by simp [digit_not_space hd])]
    unfold dropS
    split
    · next heq =>
      cases heq
      cases hd
    · rfl
  · rfl

theorem blankAt_of_marks (h : Marks cs ds rest) : blankAt cs = some (ds, rest) := by
  obtain ⟨ws, so, ws', hws, hso, hds, hws', rfl⟩ := h
  obtain ⟨d, ds', rfl⟩ := List.exists_cons_of_ne_nil hds.ne
  have hd : isSlotDigit d = true := List.all_eq_true.1 hds.digits d List.mem_cons_self
  have htext : markText ws so (d :: ds') ws' ++ rest = '\x7b' :: '\x7b' ::
      (ws ++ (so ++ d :: (ds' ++ (ws' ++ ('\x7d' :: '\x7d' :: rest))))) := by
    simp [markText]
  rw [htext, blankAt, dropS_space hws hso hd]
  exact closedDigits_eq hds hws'

theorem exists_dropS (cs : List Char) : ∃ so, (so = [] ∨ so = ['s']) ∧ cs = so ++ dropS cs := by
  unfold dropS
  split
  · exact ⟨['s'], .inr rfl, rfl⟩
  · exact ⟨[], .inl rfl, rfl⟩

theorem marks_of_blankAt (h : blankAt cs = some (ds, rest)) : Marks cs ds rest := by
  unfold blankAt at h
  split at h
  · next tail =>
    obtain ⟨so, hso, hafter⟩ := exists_dropS (tail.dropWhile isJsSpace)
    unfold closedDigits at h
    dsimp only at h
    generalize dropS (tail.dropWhile isJsSpace) = digits at h hafter
    split at h
    · next hcond =>
      cases h
      refine ⟨tail.takeWhile isJsSpace, so, (digits.dropWhile isSlotDigit).takeWhile isJsSpace,
        List.all_takeWhile, hso, ⟨hcond.1, List.all_takeWhile⟩, List.all_takeWhile, ?_⟩
      have hclose := List.take_append_drop 2 ((digits.dropWhile isSlotDigit).dropWhile isJsSpace)
      rw [hcond.2] at hclose
      have hspace := List.takeWhile_append_dropWhile (p := isJsSpace)
        (l := digits.dropWhile isSlotDigit)
      have hdigits := List.takeWhile_append_dropWhile (p := isSlotDigit) (l := digits)
      have htail := List.takeWhile_append_dropWhile (p := isJsSpace) (l := tail)
      unfold markText
      simp only [List.cons_append, List.append_assoc, List.nil_append]
      rw [show '\x7d' :: '\x7d' :: ((digits.dropWhile isSlotDigit).dropWhile isJsSpace).drop 2 =
        (digits.dropWhile isSlotDigit).dropWhile isJsSpace from hclose, hspace, hdigits, ← hafter,
        htail]
    · cases h
  · cases h

theorem blankAt_of_ne (h : c ≠ '\x7b') (cs : List Char) : blankAt (c :: cs) = none := by
  unfold blankAt
  split
  · next heq => exact absurd (List.cons.inj heq).1 h
  · rfl

theorem Marks.append (h : Marks cs ds rest) (ws : List Char) :
    Marks (cs ++ ws) ds (rest ++ ws) := by
  obtain ⟨ws₁, so, ws', hws, hso, hds, hws', rfl⟩ := h
  exact ⟨ws₁, so, ws', hws, hso, hds, hws', List.append_assoc ..⟩

theorem Marks.length (h : Marks cs ds rest) : rest.length < cs.length := by
  obtain ⟨ws, so, ws', _, _, _, _, rfl⟩ := h
  simp only [markText, List.length_append, List.length_cons]
  omega

theorem blankAt_append_space (hws : ws.all isJsSpace = true) (h : blankAt cs = none) :
    blankAt (cs ++ ws) = none := by
  cases hsome : blankAt (cs ++ ws) with
  | none => rfl
  | some found =>
    obtain ⟨ws₁, so, ws', hws₁, hso, hds, hws', heq⟩ := marks_of_blankAt hsome
    rcases List.append_eq_append_iff.1 heq with ⟨w, hw, hw'⟩ | ⟨w, hw, hw'⟩
    · rcases List.eq_nil_or_concat w with rfl | ⟨w, z, rfl⟩
      · have hmarks : Marks cs found.1 [] := by
          refine ⟨ws₁, so, ws', hws₁, hso, hds, hws', ?_⟩
          rw [hw, List.append_nil, List.append_nil]
        rw [blankAt_of_marks hmarks] at h
        cases h
      · -- a marker ends in a brace, which is no white space
        have hbrace : z = '\x7d' := by
          have hlast := congrArg List.getLast? hw
          simpa [markText, List.getLast?_append, List.getLast?_cons] using hlast.symm
        have hspace : isJsSpace z = true := by
          refine List.all_eq_true.1 hws z ?_
          rw [hw']
          simp
        rw [hbrace] at hspace
        cases hspace
    · have hmarks : Marks cs found.1 w := ⟨ws₁, so, ws', hws₁, hso, hds, hws', hw⟩
      rw [blankAt_of_marks hmarks] at h
      cases h

/-! ## The scan -/

theorem pieces_fuel {fuel fuel' : ℕ} (h : cs.length ≤ fuel) (h' : cs.length ≤ fuel') :
    pieces fuel cs = pieces fuel' cs := by
  induction fuel generalizing cs fuel' with
  | zero =>
    rw [List.eq_nil_of_length_eq_zero (Nat.le_zero.1 h)]
    cases fuel' <;> rfl
  | succ fuel ih =>
    cases cs with
    | nil => cases fuel' <;> rfl
    | cons c cs =>
      cases fuel' with
      | zero => cases h'
      | succ fuel' =>
        rw [List.length_cons] at h h'
        unfold pieces
        split
        · next ds rest hsome =>
          have hlength := (marks_of_blankAt hsome).length
          rw [List.length_cons] at hlength
          have hrest : pieces fuel rest = pieces fuel' rest := ih (by omega) (by omega)
          rw [hrest]
        · have hrest : pieces fuel cs = pieces fuel' cs := ih (by omega) (by omega)
          rw [hrest]

theorem scan_none (h : blankAt (c :: cs) = none) : scan (c :: cs) = .char c :: scan cs := by
  unfold scan
  rw [List.length_cons, pieces, h]

theorem scan_some (h : blankAt cs = some (ds, rest)) : scan cs = .blank ds :: scan rest := by
  have hlength := (marks_of_blankAt h).length
  cases cs with
  | nil => cases hlength
  | cons c cs =>
    rw [List.length_cons] at hlength
    unfold scan
    rw [List.length_cons, pieces, h]
    dsimp only
    rw [pieces_fuel (by omega) le_rfl]

theorem scan_induction {P : List Char → Prop} (nil : P [])
    (char : ∀ c cs, blankAt (c :: cs) = none → P cs → P (c :: cs))
    (blank : ∀ cs ds rest, blankAt cs = some (ds, rest) → P rest → P cs) (cs : List Char) :
    P cs := by
  induction hn : cs.length using Nat.strong_induction_on generalizing cs with
  | _ n ih =>
    cases cs with
    | nil => exact nil
    | cons c cs =>
      cases h : blankAt (c :: cs) with
      | none =>
        refine char c cs h (ih cs.length ?_ cs rfl)
        rw [← hn, List.length_cons]
        omega
      | some found =>
        have hlength := (marks_of_blankAt h).length
        exact blank _ found.1 found.2 h (ih found.2.length (hn ▸ hlength) found.2 rfl)

@[simp] theorem ids_nil : ids [] = [] := rfl

theorem ids_none (h : blankAt (c :: cs) = none) : ids (c :: cs) = ids cs := by
  unfold ids
  rw [scan_none h]
  rfl

theorem ids_some (h : blankAt cs = some (ds, rest)) : ids cs = slotId ds :: ids rest := by
  unfold ids
  rw [scan_some h]
  rfl

theorem ids_space (h : ws.all isJsSpace = true) (cs : List Char) : ids (ws ++ cs) = ids cs := by
  induction ws with
  | nil => rfl
  | cons w ws ih =>
    rw [List.all_cons, Bool.and_eq_true] at h
    have hw : w ≠ '\x7b' := by
      rintro rfl
      cases h.1
    exact (ids_none (blankAt_of_ne hw _)).trans (ih h.2)

theorem ids_append_space (h : ws.all isJsSpace = true) (cs : List Char) :
    ids (cs ++ ws) = ids cs := by
  induction cs using scan_induction with
  | nil =>
    have hnil := ids_space h []
    rwa [List.append_nil] at hnil
  | char c cs hnone ih =>
    have happend : blankAt (c :: (cs ++ ws)) = none := blankAt_append_space h hnone
    rw [ids_none hnone, List.cons_append, ids_none happend, ih]
  | blank cs ds rest hsome ih =>
    rw [ids_some hsome, ids_some (blankAt_of_marks ((marks_of_blankAt hsome).append ws)), ih]

theorem exists_trim (cs : List Char) : ∃ ws ws', ws.all isJsSpace = true ∧
    ws'.all isJsSpace = true ∧ cs = ws ++ (trim cs ++ ws') := by
  refine ⟨cs.takeWhile isJsSpace, ((cs.dropWhile isJsSpace).reverse.takeWhile isJsSpace).reverse,
    List.all_takeWhile, ?_, ?_⟩
  · rw [List.all_reverse]
    exact List.all_takeWhile
  · unfold trim stripBy
    rw [← List.reverse_append, List.takeWhile_append_dropWhile, List.reverse_reverse,
      List.takeWhile_append_dropWhile]

theorem ids_trim (cs : List Char) : ids (trim cs) = ids cs := by
  obtain ⟨ws, ws', hws, hws', htrim⟩ := exists_trim cs
  conv_rhs => rw [htrim, ids_space hws, ids_append_space hws']

theorem ids_of_onlyMarker (h : onlyMarker cs = true) : ∃ id, ids cs = [id] := by
  have hstart : ids cs = ids (cs.dropWhile isJsSpace) := by
    conv_lhs => rw [← List.takeWhile_append_dropWhile (p := isJsSpace) (l := cs)]
    exact ids_space List.all_takeWhile _
  unfold onlyMarker at h
  split at h
  · next digits rest hsome =>
    have hrest := ids_space h []
    rw [List.append_nil] at hrest
    exact ⟨slotId digits, by rw [hstart, ids_some hsome, hrest, ids_nil]⟩
  · cases h

/-! ## What the server reads -/

theorem normaliseMarkers_none (h : blankAt (c :: cs) = none) :
    normaliseMarkers (c :: cs) = c :: normaliseMarkers cs := by
  unfold normaliseMarkers
  rw [scan_none h]
  rfl

theorem normaliseMarkers_some (h : blankAt cs = some (ds, rest)) : normaliseMarkers cs =
    '\x7b' :: '\x7b' :: (slotId ds).toList ++ ['\x7d', '\x7d'] ++ normaliseMarkers rest := by
  unfold normaliseMarkers
  rw [scan_some h]
  rfl

theorem prefix_of_normaliseMarkers (hws : '\x7b' ∉ ws) (h : ws <+: normaliseMarkers cs) :
    ws <+: cs := by
  induction ws generalizing cs with
  | nil => exact List.nil_prefix
  | cons w ws ih =>
    rw [List.mem_cons, not_or] at hws
    cases hfound : blankAt cs with
    | some found =>
      rw [normaliseMarkers_some hfound] at h
      exact absurd (List.cons_prefix_cons.1 h).1.symm hws.1
    | none =>
      cases cs with
      | nil => exact absurd h (by simp [normaliseMarkers, scan, pieces])
      | cons c cs =>
        rw [normaliseMarkers_none hfound] at h
        obtain ⟨heq, htail⟩ := List.cons_prefix_cons.1 h
        exact List.cons_prefix_cons.2 ⟨heq, ih hws.2 htail⟩

theorem markerAt_normaliseMarkers (h : blankAt (c :: cs) = none) :
    markerAt (c :: normaliseMarkers cs) = none := by
  cases hm : markerAt (c :: normaliseMarkers cs) with
  | none => rfl
  | some m =>
    obtain ⟨ds, rest, hds, heq⟩ := exists_of_markerAt hm
    obtain ⟨rfl, htext⟩ := List.cons.inj heq
    have hsecond : ∃ cs', cs = '\x7b' :: cs' ∧
        normaliseMarkers cs' = 's' :: ds ++ ['\x7d', '\x7d'] ++ rest := by
      cases hfound : blankAt cs with
      | some found =>
        rw [normaliseMarkers_some hfound] at htext
        cases (List.cons.inj (List.cons.inj htext).2).1
      | none =>
        cases cs with
        | nil => cases htext
        | cons d cs =>
          rw [normaliseMarkers_none hfound] at htext
          obtain ⟨rfl, hafter⟩ := List.cons.inj htext
          exact ⟨cs, rfl, hafter⟩
    obtain ⟨cs', rfl, htail⟩ := hsecond
    have hprefix : 's' :: ds ++ ['\x7d', '\x7d'] <+: cs' :=
      prefix_of_normaliseMarkers (brace_not_mem hds) ⟨rest, htail.symm⟩
    obtain ⟨rest', rfl⟩ := hprefix
    have hmarks : Marks (marker ds ++ rest') ds rest' :=
      ⟨[], ['s'], [], rfl, .inr rfl, hds, rfl, rfl⟩
    rw [show '\x7b' :: '\x7b' :: ('s' :: ds ++ ['\x7d', '\x7d'] ++ rest') = marker ds ++ rest' from
      rfl, blankAt_of_marks hmarks] at h
    cases h

/-! ## Each slot once -/

theorem mem_firstSeen {seen new : List String} :
    id ∈ firstSeen seen new ↔ id ∈ seen ∨ id ∈ new := by
  induction new generalizing seen with
  | nil => simp [firstSeen]
  | cons new news ih =>
    unfold firstSeen
    rw [ih, List.mem_cons]
    split
    · next hseen =>
      refine ⟨Or.imp_right .inr, ?_⟩
      rintro (h | rfl | h)
      · exact .inl h
      · exact .inl hseen
      · exact .inr h
    · rw [List.mem_append, List.mem_singleton, or_assoc]

theorem nodup_firstSeen {seen new : List String} (h : seen.Nodup) :
    (firstSeen seen new).Nodup := by
  induction new generalizing seen with
  | nil => exact h
  | cons new news ih =>
    unfold firstSeen
    split
    · exact ih h
    · next hfresh =>
      refine ih (List.nodup_append.2 ⟨h, List.nodup_singleton _, ?_⟩)
      intro a ha b hb
      rw [List.mem_singleton.1 hb]
      rintro rfl
      exact hfresh ha

theorem mem_slotsInText : id ∈ slotsInText cs ↔ id ∈ ids cs := by
  unfold slotsInText
  simp [mem_firstSeen]

theorem mem_slotsInLines {lines : List (List Char)} :
    id ∈ slotsInLines lines ↔ id ∈ lines.flatMap ids := by
  unfold slotsInLines
  simp only [mem_firstSeen, List.not_mem_nil, false_or, List.mem_flatMap, mem_slotsInText]

theorem nodup_slotsInLines (lines : List (List Char)) : (slotsInLines lines).Nodup :=
  nodup_firstSeen List.nodup_nil

theorem exists_slotId (h : id ∈ ids cs) : ∃ ds, id = slotId ds := by
  unfold ids at h
  rw [List.mem_filterMap] at h
  obtain ⟨piece, _, hid⟩ := h
  cases piece with
  | char c => cases hid
  | blank ds =>
    cases hid
    exact ⟨ds, rfl⟩

/-! ## Numbers as text -/

theorem isDigit_repr {n : ℕ} (h : c ∈ (Nat.repr n).toList) : c.isDigit = true := by
  unfold Nat.repr at h
  rw [String.toList_ofList] at h
  exact Nat.isDigit_of_mem_toDigits (by decide) (by decide) h

theorem not_brace_of_digit (h : c.isDigit = true) : c ≠ '\x7b' ∧ c ≠ '\x7d' := by
  constructor <;> rintro rfl <;> cases h

theorem mem_of_mem_stripBy {p : Char → Bool} (h : c ∈ stripBy p cs) : c ∈ cs := by
  unfold stripBy at h
  rw [List.mem_reverse] at h
  have h := (List.dropWhile_sublist p).subset h
  rw [List.mem_reverse] at h
  exact (List.dropWhile_sublist p).subset h

theorem not_brace_exponentText {n : ℕ} (h : c ∈ exponentText n) : c ≠ '\x7b' ∧ c ≠ '\x7d' := by
  unfold exponentText at h
  simp only [List.mem_append] at h
  have hdigit : ∀ k, c ∈ (stripBy (fun c => c = '0') (Nat.repr n).toList).drop k →
      c ≠ '\x7b' ∧ c ≠ '\x7d' := fun k hk =>
    not_brace_of_digit (isDigit_repr (mem_of_mem_stripBy (List.mem_of_mem_drop hk)))
  rcases h with ((h | h) | h) | h
  · exact hdigit 0 (List.mem_of_mem_take h)
  · split at h
    · cases h
    · rcases List.mem_cons.1 h with rfl | h
      · decide
      · exact hdigit 1 h
  · fin_cases h <;> decide
  · exact not_brace_of_digit (isDigit_repr h)

theorem not_brace_numberText (h : c ∈ numberText ds) : c ≠ '\x7b' ∧ c ≠ '\x7d' := by
  unfold numberText at h
  dsimp only at h
  split at h
  · exact not_brace_of_digit (isDigit_repr h)
  · split at h
    · have hletter : c ∈ ['I', 'n', 'f', 'i', 'n', 'i', 't', 'y'] := h
      fin_cases hletter <;> decide
    · exact not_brace_exponentText h

theorem serverId_iff : serverId id = true ↔ ∃ ds, Number ds ∧ id = .ofList ('s' :: ds) := by
  unfold serverId
  constructor
  · intro h
    split at h
    · next digits heq =>
      have h := of_decide_eq_true h
      exact ⟨digits, ⟨h.1, h.2⟩, by rw [← heq, String.ofList_toList]⟩
    · cases h
  · rintro ⟨ds, hds, rfl⟩
    rw [String.toList_ofList]
    exact decide_eq_true ⟨hds.ne, hds.digits⟩

theorem serverId_slotId : serverId (slotId ds) = true ↔ Number (numberText ds) := by
  rw [serverId_iff]
  constructor
  · rintro ⟨ds', hds', heq⟩
    cases String.ofList_injective heq
    exact hds'
  · exact fun h => ⟨numberText ds, h, rfl⟩

theorem eq_of_append_stop {cs' rest' : List Char} (h : c ∉ cs) (h' : c ∉ cs')
    (heq : cs ++ c :: rest = cs' ++ c :: rest') : cs = cs' := by
  have hbefore : ∀ cs rest : List Char, c ∉ cs → (cs ++ c :: rest).takeWhile (· ≠ c) = cs := by
    intro cs rest hcs
    have hall : ∀ x ∈ cs, decide (x ≠ c) = true := by
      intro x hx
      refine decide_eq_true ?_
      rintro rfl
      exact hcs hx
    rw [List.takeWhile_append_of_pos hall, List.takeWhile_cons_of_neg (by simp), List.append_nil]
  rw [← hbefore cs rest h, heq, hbefore cs' rest' h']

theorem close_not_mem (h : Number ds) : '\x7d' ∉ ds := by
  intro hmem
  have hdigit : isSlotDigit '\x7d' = true := List.all_eq_true.1 h.digits _ hmem
  cases hdigit

theorem markers_unread (h : ¬ Number (numberText ds)) (rest : List Char) :
    markers ('\x7b' :: '\x7b' :: (slotId ds).toList ++ ['\x7d', '\x7d'] ++ rest) =
      markers rest := by
  have hplain : '\x7b' ∉ (slotId ds).toList ++ ['\x7d', '\x7d'] := by
    intro hmem
    unfold slotId at hmem
    rw [String.toList_ofList, List.mem_append, List.mem_cons] at hmem
    rcases hmem with (hs | hdigits) | hclose
    · cases hs
    · exact (not_brace_numberText hdigits).1 rfl
    · revert hclose
      decide
  have hfirst : markerAt ('\x7b' :: '\x7b' :: (slotId ds).toList ++ ['\x7d', '\x7d'] ++ rest) =
      none := by
    cases hm : markerAt ('\x7b' :: '\x7b' :: (slotId ds).toList ++ ['\x7d', '\x7d'] ++ rest) with
    | none => rfl
    | some m =>
      obtain ⟨ds', rest', hds', heq⟩ := exists_of_markerAt hm
      unfold slotId at heq
      rw [String.toList_ofList] at heq
      have heq : numberText ds ++ '\x7d' :: ('\x7d' :: rest) =
          ds' ++ '\x7d' :: ('\x7d' :: rest') := by
        simpa [marker] using heq
      have hnumber : numberText ds = ds' :=
        eq_of_append_stop (fun hmem => (not_brace_numberText hmem).2 rfl)
          (close_not_mem hds') heq
      exact absurd (hnumber ▸ hds') h
  have hsecond : markerAt ('\x7b' :: ((slotId ds).toList ++ ['\x7d', '\x7d'] ++ rest)) = none := by
    unfold slotId
    rw [String.toList_ofList]
    rfl
  exact (markers_cons_none hfirst).trans ((markers_cons_none hsecond).trans
    (markers_skip hplain rest))

theorem markers_normaliseMarkers (cs : List Char) :
    markers (normaliseMarkers cs) = (ids cs).filter serverId := by
  induction cs using scan_induction with
  | nil => rfl
  | char c cs hnone ih =>
    rw [normaliseMarkers_none hnone, markers_cons_none (markerAt_normaliseMarkers hnone), ih,
      ids_none hnone]
  | blank cs ds rest hsome ih =>
    rw [normaliseMarkers_some hsome, ids_some hsome]
    by_cases hid : serverId (slotId ds) = true
    · obtain ⟨ds', hds', heq⟩ := serverId_iff.1 hid
      have htext : (slotId ds).toList = 's' :: ds' := by rw [heq, String.toList_ofList]
      rw [List.filter_cons_of_pos hid, htext, ← ih]
      exact (markers_marker hds' _).trans (by rw [heq])
    · rw [List.filter_cons_of_neg hid, ← ih]
      exact markers_unread (fun hnumber => hid (serverId_slotId.2 hnumber)) _

end IeltsHub.MarkerText
