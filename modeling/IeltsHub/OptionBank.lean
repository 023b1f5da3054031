import IeltsHub.AnswerTexts

set_option autoImplicit false

/-!
# The option bank as text

The console shows a bank as one option per line and assigns the identifiers by position. A leading
label that was pasted is stripped from its line, once each time the text is read.
-/
namespace IeltsHub.OptionBank
open PyText MarkerText AnswerTexts

/-! ## Identifiers -/

inductive BankStyle where
  | letters
  | roman
  deriving DecidableEq

structure BankOption where
  id : String
  text : List Char
  deriving DecidableEq

def numerals : List String := ["i", "ii", "iii", "iv", "v", "vi", "vii", "viii", "ix", "x",
  "xi", "xii", "xiii", "xiv", "xv", "xvi"]

def alphabet : List Char := "ABCDEFGHIJKLMNOPQRSTUVWXYZ".toList

/-- Past `ZZ` the first letter stays `Z`. -/
def identifier (index : ℕ) : BankStyle → String
  | .roman => numerals[index]?.getD ("x" ++ toString (index + 1))
  | .letters =>
    if index < alphabet.length then .singleton (alphabet.getD index 'Z')
    else .ofList [alphabet.getD (index / alphabet.length - 1) 'Z',
      alphabet.getD (index % alphabet.length) 'Z']

/-! ## Labels that were pasted -/

def isLetter (c : Char) : Bool := ('a' ≤ c ∧ c ≤ 'z') ∨ ('A' ≤ c ∧ c ≤ 'Z')

def isLabel (label : List Char) : Bool :=
  label.length = 1 ∨ numerals.contains (.ofList (label.map Char.toLower))

def isIdSeparator (c : Char) : Bool := ['.', ')', '=', ':', '—', '–', '-'].contains c

def afterLabel (line : List Char) : Option (List Char) :=
  let start := line.dropWhile isJsSpace
  match (start.dropWhile isLetter).dropWhile isJsSpace with
  | [] => none
  | c :: rest => if isLabel (start.takeWhile isLetter) && isIdSeparator c then some rest else none

/-- What `LEADING_ID` leaves of a line it matches: white space follows the separator. -/
def leadingId (line : List Char) : Option (List Char) :=
  (afterLabel line).bind (fun rest =>
    if rest.head?.any isJsSpace then some (rest.dropWhile isJsSpace) else none)

/-- `BARE_ID`: nothing but white space follows it. -/
def bareId (line : List Char) : Bool := (afterLabel line).any (fun rest => rest.all isJsSpace)

def stripIdentifier (line : List Char) : List Char :=
  let stripped := trim ((leadingId line).getD line)
  if stripped = [] then trim line else stripped

/-! ## Reading and writing -/

def keptLines (text : List Char) : List (List Char) :=
  ((text.splitOn '\n').map trim).filter (fun line => line ≠ [] ∧ ¬ bareId line)

def numbered (style : BankStyle) (bodies : List (List Char)) : List BankOption :=
  bodies.zipIdx.map (fun e => { id := identifier e.2 style, text := e.1 })

def parseBank (text : List Char) (style : BankStyle) : List BankOption :=
  numbered style (((keptLines text).map stripIdentifier).filter (fun body => body ≠ []))

def formatBank (options : Option (List BankOption)) : List Char :=
  ['\n'].intercalate ((options.getD []).map BankOption.text)

def styleOf (options : Option (List BankOption)) : BankStyle :=
  let first := ((options.bind List.head?).map BankOption.id).getD ""
  if first ≠ "" ∧ first.toList.all (fun c => ['i', 'v', 'x'].contains c) then .roman else .letters

example : parseBank "A. Trade routes\nB) War\n\nC.\niv — Glass".toList .letters =
    [⟨"A", "Trade routes".toList⟩, ⟨"B", "War".toList⟩, ⟨"C", "Glass".toList⟩] := by
  decide +kernel

/-! ## What the identifiers are -/

theorem alphabet_inj {i j : ℕ} (hi : i < 26) (hj : j < 26)
    (h : alphabet.getD i 'Z' = alphabet.getD j 'Z') : i = j := by
  have hall : ∀ i < 26, ∀ j < 26, alphabet.getD i 'Z' = alphabet.getD j 'Z' → i = j := by
    decide +kernel
  exact hall i hi j hj h

theorem identifier_letters_inj {i j : ℕ} (hi : i < 702) (hj : j < 702)
    (h : identifier i .letters = identifier j .letters) : i = j := by
  have hlength : alphabet.length = 26 := by decide
  have hchars := congrArg String.toList h
  unfold identifier at hchars
  rw [hlength] at hchars
  dsimp only at hchars
  split at hchars
  · rename_i hlow
    split at hchars
    · rename_i hlow'
      simp only [String.toList_singleton, List.cons.injEq, and_true] at hchars
      exact alphabet_inj hlow hlow' hchars
    · simp at hchars
  · split at hchars
    · simp at hchars
    · simp only [String.toList_ofList, List.cons.injEq, and_true] at hchars
      have hfirst := alphabet_inj (by omega) (by omega) hchars.1
      have hsecond := alphabet_inj (Nat.mod_lt _ (by decide)) (Nat.mod_lt _ (by decide)) hchars.2
      omega

theorem nodup_letters (n : ℕ) :
    ((List.range n).map (fun i => identifier i .letters)).Nodup ↔ n ≤ 702 := by
  constructor
  · intro h
    by_contra hlong
    have hlength : alphabet.length = 26 := by decide
    have hagain : identifier 676 .letters = identifier 702 .letters := by
      unfold identifier
      rw [hlength]
      decide +kernel
    have hinj := List.inj_on_of_nodup_map h
    have hfirst : 676 ∈ List.range n := List.mem_range.2 (by omega)
    have hsecond : 702 ∈ List.range n := List.mem_range.2 (by omega)
    have hsame := hinj hfirst hsecond hagain
    omega
  · intro hn
    refine List.Nodup.map_on ?_ List.nodup_range
    intro i hi j hj h
    have hi := List.mem_range.1 hi
    have hj := List.mem_range.1 hj
    exact identifier_letters_inj (by omega) (by omega) h

theorem counted_ne_numeral {i n : ℕ} {numeral : String} (hi : numerals[i]? = some numeral) :
    numeral ≠ "x" ++ toString n := by
  rintro rfl
  have hnone : ∀ s ∈ numerals, ∀ c ∈ s.toList, c.isDigit = false := by
    simp [numerals]
  obtain ⟨c, hc⟩ := List.exists_mem_of_ne_nil _ (Nat.toDigits_ne_nil (n := n) (b := 10))
  have hmem : c ∈ ("x" ++ toString n).toList := by
    rw [String.toList_append, List.mem_append]
    right
    change c ∈ (Nat.repr n).toList
    rw [Nat.toList_repr]
    exact hc
  have hdigit := Nat.isDigit_of_mem_toDigits (by decide) (by decide) hc
  rw [hnone _ (List.mem_of_getElem? hi) c hmem] at hdigit
  cases hdigit

theorem identifier_roman_inj {i j : ℕ} (h : identifier i .roman = identifier j .roman) :
    i = j := by
  unfold identifier at h
  dsimp only at h
  cases hi : numerals[i]? with
  | some s =>
    cases hj : numerals[j]? with
    | some u =>
      rw [hi, hj] at h
      have hlt := (List.getElem?_eq_some_iff.1 hi).1
      have hsu : s = u := h
      subst hsu
      exact (List.getElem?_inj hlt (by decide +kernel)).1 (hi.trans hj.symm)
    | none =>
      rw [hi, hj] at h
      exact absurd h (counted_ne_numeral hi)
  | none =>
    cases hj : numerals[j]? with
    | some u =>
      rw [hi, hj] at h
      exact absurd h.symm (counted_ne_numeral hj)
    | none =>
      rw [hi, hj] at h
      have hchars := congrArg String.toList h
      simp only [Option.getD_none, String.toList_append] at hchars
      have hrepr : Nat.repr (i + 1) = Nat.repr (j + 1) :=
        String.toList_inj.1 (List.append_cancel_left hchars)
      have hsame := Nat.repr_injective hrepr
      omega

theorem nodup_identifiers (style : BankStyle) (n : ℕ) :
    ((List.range n).map (fun i => identifier i style)).Nodup ↔ style = .roman ∨ n ≤ 702 := by
  cases style with
  | letters =>
    rw [nodup_letters]
    simp
  | roman =>
    have hroman : ((List.range n).map (fun i => identifier i .roman)).Nodup :=
      List.nodup_range.map (fun _ _ => identifier_roman_inj)
    exact ⟨fun _ => .inl rfl, fun _ => hroman⟩

/-! ## What a label leaves -/

def labelled (line : List Char) : Bool :=
  (afterLabel line).any (fun rest => rest.head?.all isJsSpace)

section
variable {line rest body : List Char}

theorem length_trim_le (cs : List Char) : (trim cs).length ≤ cs.length := by
  obtain ⟨ws, ws', _, _, h⟩ := exists_trim cs
  have hlength := congrArg List.length h
  rw [List.length_append, List.length_append] at hlength
  omega

theorem afterLabel_split (h : afterLabel line = some rest) :
    ∃ start, start ≠ [] ∧ line = start ++ rest := by
  unfold afterLabel at h
  dsimp only at h
  split at h
  · cases h
  · rename_i c tail hparts
    split at h
    · cases h
      have hspaces := List.takeWhile_append_dropWhile (p := isJsSpace) (l := line)
      have hletters := List.takeWhile_append_dropWhile (p := isLetter)
        (l := line.dropWhile isJsSpace)
      have hblank := List.takeWhile_append_dropWhile (p := isJsSpace)
        (l := (line.dropWhile isJsSpace).dropWhile isLetter)
      rw [hparts] at hblank
      rw [← hblank] at hletters
      rw [← hletters] at hspaces
      refine ⟨line.takeWhile isJsSpace ++ ((line.dropWhile isJsSpace).takeWhile isLetter ++
        (((line.dropWhile isJsSpace).dropWhile isLetter).takeWhile isJsSpace ++ [c])), by simp, ?_⟩
      simpa using hspaces.symm
    · cases h

theorem eq_nil_of_trimmed {start ws : List Char} (ht : trim (start ++ ws) = start ++ ws)
    (hws : ws.all isJsSpace = true) : ws = [] := by
  rw [trim_append_space hws] at ht
  have hle := length_trim_le start
  rw [ht, List.length_append] at hle
  exact List.length_eq_zero_iff.1 (by omega)

theorem bareId_iff (ht : trim line = line) : bareId line = true ↔ afterLabel line = some [] := by
  unfold bareId
  rw [Option.any_eq_true]
  constructor
  · rintro ⟨rest, hrest, hall⟩
    obtain ⟨start, _, rfl⟩ := afterLabel_split hrest
    rw [hrest, eq_nil_of_trimmed ht hall]
  · intro h
    exact ⟨[], h, rfl⟩

theorem leadingId_eq_some : leadingId line = some body ↔
    ∃ rest, afterLabel line = some rest ∧ rest.head?.any isJsSpace = true ∧
      rest.dropWhile isJsSpace = body := by
  unfold leadingId
  rw [Option.bind_eq_some_iff]
  refine exists_congr (fun rest => and_congr_right (fun _ => ?_))
  split
  · rename_i hhead
    simp [hhead]
  · rename_i hhead
    simp [hhead]

theorem leadingId_ne_nil (ht : trim line = line) (h : leadingId line = some body) :
    trim body ≠ [] := by
  obtain ⟨rest, hrest, hhead, rfl⟩ := leadingId_eq_some.1 h
  obtain ⟨start, _, rfl⟩ := afterLabel_split hrest
  intro hnil
  have hall : rest.all isJsSpace = true := by
    obtain ⟨ws, ws', hws, hws', hsplit⟩ := exists_trim (rest.dropWhile isJsSpace)
    rw [hnil, List.nil_append] at hsplit
    rw [← List.takeWhile_append_dropWhile (p := isJsSpace) (l := rest), hsplit, List.all_append,
      List.all_append, hws, hws', List.all_takeWhile]
    rfl
  rw [eq_nil_of_trimmed ht hall] at hhead
  cases hhead

theorem labelled_iff (ht : trim line = line) : labelled line = true ↔
    bareId line = true ∨ (leadingId line).isSome = true := by
  rw [bareId_iff ht, Option.isSome_iff_exists]
  unfold labelled
  rw [Option.any_eq_true]
  constructor
  · rintro ⟨rest, hrest, hhead⟩
    cases rest with
    | nil => exact .inl hrest
    | cons c cs => exact .inr ⟨_, leadingId_eq_some.2 ⟨_, hrest, hhead, rfl⟩⟩
  · rintro (h | ⟨body, h⟩)
    · exact ⟨[], h, rfl⟩
    · obtain ⟨rest, hrest, hhead, _⟩ := leadingId_eq_some.1 h
      refine ⟨rest, hrest, ?_⟩
      cases rest with
      | nil => rfl
      | cons c cs => exact hhead

theorem stripIdentifier_of_none (ht : trim line = line) (h : leadingId line = none) :
    stripIdentifier line = line := by
  unfold stripIdentifier
  rw [h, Option.getD_none, ht]
  dsimp only
  split <;> rfl

theorem stripIdentifier_of_some (ht : trim line = line) (h : leadingId line = some body) :
    stripIdentifier line = trim body := by
  unfold stripIdentifier
  rw [h, Option.getD_some]
  exact if_neg (leadingId_ne_nil ht h)

theorem stripIdentifier_eq_self_iff (ht : trim line = line) :
    stripIdentifier line = line ↔ leadingId line = none := by
  constructor
  · intro h
    cases hlead : leadingId line with
    | none => rfl
    | some body =>
      rw [stripIdentifier_of_some ht hlead] at h
      obtain ⟨rest, hrest, _, rfl⟩ := leadingId_eq_some.1 hlead
      obtain ⟨start, hne, rfl⟩ := afterLabel_split hrest
      have htrim := length_trim_le (rest.dropWhile isJsSpace)
      have hdrop := (List.dropWhile_sublist isJsSpace (l := rest)).length_le
      have hlength := congrArg List.length h
      rw [List.length_append] at hlength
      have hpos := List.length_pos_iff.2 hne
      omega
  · exact stripIdentifier_of_none ht

theorem trim_stripIdentifier (line : List Char) :
    trim (stripIdentifier line) = stripIdentifier line := by
  unfold stripIdentifier
  dsimp only
  split
  · exact trim_trim _
  · exact trim_trim _

theorem kept_again_iff (ht : trim line = line) (hbare : bareId line = false) :
    (bareId (stripIdentifier line) = false ∧
      stripIdentifier (stripIdentifier line) = stripIdentifier line) ↔
    ∀ body, leadingId line = some body → labelled (trim body) = false := by
  rw [stripIdentifier_eq_self_iff (trim_stripIdentifier line), ← Option.not_isSome_iff_eq_none,
    ← Bool.not_eq_true, ← not_or, ← labelled_iff (trim_stripIdentifier line), Bool.not_eq_true]
  cases hlead : leadingId line with
  | none =>
    have hline : labelled line = false := by
      rw [← Bool.not_eq_true, labelled_iff ht, hbare, hlead]
      simp
    rw [stripIdentifier_of_none ht hlead, hline]
    simp
  | some body =>
    rw [stripIdentifier_of_some ht hlead]
    simp

end

/-! ## Reading a bank again -/

section
variable {text line : List Char} {style : BankStyle} {bodies : List (List Char)}

theorem mem_keptLines (h : line ∈ keptLines text) :
    trim line = line ∧ line ≠ [] ∧ bareId line = false ∧ '\n' ∉ line := by
  unfold keptLines at h
  obtain ⟨hmem, hkept⟩ := List.mem_filter.1 h
  obtain ⟨piece, hpiece, rfl⟩ := List.mem_map.1 hmem
  have hkept : trim piece ≠ [] ∧ ¬ bareId (trim piece) = true := by simpa using hkept
  refine ⟨trim_trim piece, hkept.1, by simpa using hkept.2, ?_⟩
  intro hline
  have hnone := not_mem_piece hpiece '\n' (mem_of_mem_trim hline)
  cases hnone

theorem stripIdentifier_ne_nil (ht : trim line = line) (hne : line ≠ []) :
    stripIdentifier line ≠ [] := by
  unfold stripIdentifier
  dsimp only
  split
  · rw [ht]
    exact hne
  · assumption

def bodiesOf (text : List Char) : List (List Char) := (keptLines text).map stripIdentifier

theorem parseBank_eq (text : List Char) (style : BankStyle) :
    parseBank text style = numbered style (bodiesOf text) := by
  unfold parseBank bodiesOf
  congr 1
  rw [List.filter_eq_self]
  intro body hbody
  obtain ⟨line, hline, rfl⟩ := List.mem_map.1 hbody
  have h := mem_keptLines hline
  simpa using stripIdentifier_ne_nil h.1 h.2.1

theorem text_numbered (style : BankStyle) (bodies : List (List Char)) :
    (numbered style bodies).map BankOption.text = bodies := by
  unfold numbered
  rw [List.map_map]
  exact List.zipIdx_map_fst 0 bodies

theorem id_numbered (style : BankStyle) (bodies : List (List Char)) :
    (numbered style bodies).map BankOption.id =
      (List.range bodies.length).map (fun i => identifier i style) := by
  unfold numbered
  rw [List.map_map, List.range_eq_range', ← List.zipIdx_map_snd 0 bodies, List.map_map]
  rfl

theorem styleOf_numbered (h : bodies ≠ []) : styleOf (some (numbered style bodies)) = style := by
  obtain ⟨body, rest, rfl⟩ := List.exists_cons_of_ne_nil h
  have hstyle : styleOf (some (numbered style (body :: rest))) =
      if identifier 0 style ≠ "" ∧
        (identifier 0 style).toList.all (fun c => ['i', 'v', 'x'].contains c) then .roman
      else .letters := rfl
  rw [hstyle]
  cases style with
  | letters => decide +kernel
  | roman => decide +kernel

theorem keptLines_format (style : BankStyle) (hbodies : ∀ body ∈ bodies,
    trim body = body ∧ body ≠ [] ∧ '\n' ∉ body) :
    keptLines (formatBank (some (numbered style bodies))) =
      bodies.filter (fun body => !bareId body) := by
  unfold keptLines formatBank
  rw [Option.getD_some, text_numbered]
  cases bodies with
  | nil => rfl
  | cons body rest =>
    have htrim : (body :: rest).map trim = body :: rest := by
      conv_rhs => rw [← List.map_id (body :: rest)]
      exact List.map_congr_left (fun b hb => (hbodies b hb).1)
    rw [List.splitOn_intercalate '\n' (fun b hb => (hbodies b hb).2.2) (List.cons_ne_nil _ _),
      htrim]
    apply List.filter_congr
    intro b hb
    simp [(hbodies b hb).2.1]

end

/-- Identifiers that differ, and a bank that is saved as it was opened. -/
def Stable (text : List Char) (style : BankStyle) : Prop :=
  ((parseBank text style).map BankOption.id).Nodup ∧
    parseBank (formatBank (some (parseBank text style))) (styleOf (some (parseBank text style))) =
      parseBank text style

section
variable {text : List Char} {style : BankStyle}

theorem mem_bodiesOf {body : List Char} (h : body ∈ bodiesOf text) :
    trim body = body ∧ body ≠ [] ∧ '\n' ∉ body := by
  obtain ⟨line, hline, rfl⟩ := List.mem_map.1 h
  obtain ⟨ht, hne, _, hnewline⟩ := mem_keptLines hline
  refine ⟨trim_stripIdentifier line, stripIdentifier_ne_nil ht hne, ?_⟩
  cases hlead : leadingId line with
  | none =>
    rw [stripIdentifier_of_none ht hlead]
    exact hnewline
  | some body =>
    rw [stripIdentifier_of_some ht hlead]
    intro hmem
    obtain ⟨rest, hrest, _, rfl⟩ := leadingId_eq_some.1 hlead
    obtain ⟨start, _, rfl⟩ := afterLabel_split hrest
    exact hnewline (List.mem_append_right _
      ((List.dropWhile_sublist isJsSpace).subset (mem_of_mem_trim hmem)))

theorem read_again_iff : parseBank (formatBank (some (parseBank text style)))
      (styleOf (some (parseBank text style))) = parseBank text style ↔
    ∀ body ∈ bodiesOf text, bareId body = false ∧ stripIdentifier body = body := by
  have hlines : keptLines (formatBank (some (parseBank text style))) =
      (bodiesOf text).filter (fun body => !bareId body) := by
    rw [parseBank_eq]
    exact keptLines_format style (fun _ h => mem_bodiesOf h)
  have hagain : bodiesOf (formatBank (some (parseBank text style))) =
      ((bodiesOf text).filter (fun body => !bareId body)).map stripIdentifier :=
    congrArg (List.map stripIdentifier) hlines
  rw [parseBank_eq, hagain]
  constructor
  · intro h
    have htexts := congrArg (List.map BankOption.text) h
    rw [text_numbered, parseBank_eq, text_numbered] at htexts
    have hlength := congrArg List.length htexts
    rw [List.length_map] at hlength
    have hall := List.length_filter_eq_length_iff.1 hlength
    have hfilter := List.filter_eq_self.2 hall
    rw [hfilter] at htexts
    intro body hbody
    refine ⟨by simpa using hall body hbody, ?_⟩
    exact List.map_inj_left.1 (htexts.trans (List.map_id _).symm) body hbody
  · intro h
    have hfilter : (bodiesOf text).filter (fun body => !bareId body) = bodiesOf text := by
      rw [List.filter_eq_self]
      intro body hbody
      rw [(h body hbody).1]
      rfl
    have hmap : (bodiesOf text).map stripIdentifier = bodiesOf text := by
      conv_rhs => rw [← List.map_id (bodiesOf text)]
      exact List.map_congr_left (fun body hbody => (h body hbody).2)
    rw [hfilter, hmap, parseBank_eq]
    by_cases hnil : bodiesOf text = []
    · rw [hnil]
      rfl
    · rw [styleOf_numbered hnil]

end

/-- A bank is stable exactly where its letters do not run out and no line has a second label. -/
theorem stable_iff (text : List Char) (style : BankStyle) :
    Stable text style ↔ (style = .roman ∨ (keptLines text).length ≤ 702) ∧
      ∀ line ∈ keptLines text, ∀ body, leadingId line = some body →
        labelled (trim body) = false := by
  unfold Stable
  have hlength : (bodiesOf text).length = (keptLines text).length := List.length_map _
  rw [read_again_iff, parseBank_eq, id_numbered, nodup_identifiers, hlength]
  refine and_congr_right (fun _ => ?_)
  unfold bodiesOf
  rw [List.forall_mem_map]
  constructor
  · intro h line hline
    obtain ⟨ht, _, hbare, _⟩ := mem_keptLines hline
    exact (kept_again_iff ht hbare).1 (h line hline)
  · intro h line hline
    obtain ⟨ht, _, hbare, _⟩ := mem_keptLines hline
    exact (kept_again_iff ht hbare).2 (h line hline)

/-- Two labels on a line: the first is stripped when it is pasted, the second when it is opened. -/
theorem labels_eaten : ¬ ∀ (text : List Char) (style : BankStyle), Stable text style := by
  intro h
  have hread := (h "A. B. Cells".toList .letters).2
  exact absurd hread (by decide +kernel)

end IeltsHub.OptionBank
