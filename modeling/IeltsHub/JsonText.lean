import IeltsHub.PyJson

set_option autoImplicit false

/-!
# Reading JSON

`json.loads`, and what it makes of a flat object that `json.dumps` has written. A value that a text
may hold and a `Json` may not is refused: half of a surrogate pair, `NaN` and the infinities.
-/
namespace IeltsHub.JsonText
open PyText PyUuid PyValue PyJson

/-! ## The reader -/

def isBlank (c : Char) : Bool := c = ' ' ∨ c = '\t' ∨ c = '\n' ∨ c = '\r'

def skipBlanks (cs : List Char) : List Char := cs.dropWhile isBlank

def hexValue? (c : Char) : Option ℕ :=
  if '0' ≤ c ∧ c ≤ '9' then some (c.toNat - 48)
  else if 'a' ≤ c ∧ c ≤ 'f' then some (c.toNat - 87)
  else if 'A' ≤ c ∧ c ≤ 'F' then some (c.toNat - 55)
  else none

def readUnit : List Char → Option (ℕ × List Char)
  | a :: b :: c :: d :: rest => do
    let a ← hexValue? a
    let b ← hexValue? b
    let c ← hexValue? c
    let d ← hexValue? d
    return (((a * 16 + b) * 16 + c) * 16 + d, rest)
  | _ => none

def readUnits (cs : List Char) : Option (Char × List Char) := do
  let (high, rest) ← readUnit cs
  if 0xd800 ≤ high ∧ high < 0xdc00 then
    match rest with
    | '\\' :: 'u' :: rest =>
      let (low, rest) ← readUnit rest
      if 0xdc00 ≤ low ∧ low < 0xe000 then
        some (Char.ofNat (0x10000 + (high - 0xd800) * 0x400 + (low - 0xdc00)), rest)
      else none
    | _ => none
  else if 0xdc00 ≤ high ∧ high < 0xe000 then none
  else some (Char.ofNat high, rest)

def readEscape : List Char → Option (Char × List Char)
  | '"' :: rest => some ('"', rest)
  | '\\' :: rest => some ('\\', rest)
  | '/' :: rest => some ('/', rest)
  | 'b' :: rest => some (Char.ofNat 8, rest)
  | 'f' :: rest => some (Char.ofNat 12, rest)
  | 'n' :: rest => some ('\n', rest)
  | 'r' :: rest => some ('\r', rest)
  | 't' :: rest => some ('\t', rest)
  | 'u' :: rest => readUnits rest
  | _ => none

def readText : ℕ → List Char → Option (List Char × List Char)
  | 0, _ => none
  | _ + 1, [] => none
  | fuel + 1, c :: cs =>
    if c = '"' then some ([], cs)
    else if c = '\\' then do
      let (d, rest) ← readEscape cs
      let (text, rest) ← readText fuel rest
      return (d :: text, rest)
    else if c.toNat < 0x20 then none
    else do
      let (text, rest) ← readText fuel cs
      return (c :: text, rest)

def digitsOf (cs : List Char) : List Char × List Char :=
  (cs.takeWhile Char.isDigit, cs.dropWhile Char.isDigit)

def readWhole : List Char → Option (List Char × List Char)
  | '0' :: rest => some (['0'], rest)
  | cs => if (digitsOf cs).1 = [] then none else some (digitsOf cs)

def readFraction : List Char → List Char × List Char
  | '.' :: cs => if (digitsOf cs).1 = [] then ([], '.' :: cs) else digitsOf cs
  | cs => ([], cs)

def readExponent : List Char → Option ℤ × List Char
  | c :: cs =>
    let body := signOf cs
    if (c = 'e' ∨ c = 'E') ∧ (digitsOf body.2).1 ≠ [] then
      let n : ℤ := Nat.ofDigitChars 10 (digitsOf body.2).1 0
      (some (if body.1 then -n else n), (digitsOf body.2).2)
    else (none, c :: cs)
  | [] => (none, [])

def readNumber (cs : List Char) : Option (Json × List Char) := do
  let negative := cs.head? = some '-'
  let (whole, rest) ← readWhole (if negative then cs.tail else cs)
  let (fraction, rest) := readFraction rest
  let (exponent, rest) := readExponent rest
  if fraction = [] ∧ exponent = none then
    if whole.length ≤ maxStrDigits then
      let n : ℤ := Nat.ofDigitChars 10 whole 0
      some (.int (if negative then -n else n), rest)
    else none
  else
    let q := scale10 (Nat.ofDigitChars 10 (whole ++ fraction) 0)
      (exponent.getD 0 - fraction.length)
    some (.real (if negative then -q else q), rest)

mutual
def readValue : ℕ → List Char → Option (Json × List Char)
  | 0, _ => none
  | fuel + 1, cs =>
    match cs with
    | '"' :: rest => do
      let (text, rest) ← readText (rest.length + 1) rest
      return (.str (.ofList text), rest)
    | '\x7b' :: rest =>
      match skipBlanks rest with
      | '\x7d' :: rest => some (.obj [], rest)
      | rest => do
        let (members, rest) ← readMembers fuel rest
        return (.obj members, rest)
    | '[' :: rest =>
      match skipBlanks rest with
      | ']' :: rest => some (.arr [], rest)
      | rest => do
        let (elements, rest) ← readElements fuel rest
        return (.arr elements, rest)
    | 'n' :: 'u' :: 'l' :: 'l' :: rest => some (.null, rest)
    | 't' :: 'r' :: 'u' :: 'e' :: rest => some (.bool true, rest)
    | 'f' :: 'a' :: 'l' :: 's' :: 'e' :: rest => some (.bool false, rest)
    | cs => readNumber cs

def readMembers : ℕ → List Char → Option (List (String × Json) × List Char)
  | 0, _ => none
  | fuel + 1, cs =>
    match cs with
    | '"' :: rest => do
      let (name, rest) ← readText (rest.length + 1) rest
      match skipBlanks rest with
      | ':' :: rest => do
        let (value, rest) ← readValue fuel (skipBlanks rest)
        match skipBlanks rest with
        | ',' :: rest => do
          let (members, rest) ← readMembers fuel (skipBlanks rest)
          return ((.ofList name, value) :: members, rest)
        | '\x7d' :: rest => return ([(.ofList name, value)], rest)
        | _ => none
      | _ => none
    | _ => none

def readElements : ℕ → List Char → Option (List Json × List Char)
  | 0, _ => none
  | fuel + 1, cs => do
    let (value, rest) ← readValue fuel cs
    match skipBlanks rest with
    | ',' :: rest => do
      let (elements, rest) ← readElements fuel (skipBlanks rest)
      return (value :: elements, rest)
    | ']' :: rest => return ([value], rest)
    | _ => none
end

/-- `json.loads(text)`. -/
def loads (cs : List Char) : Option Json := do
  let (value, rest) ← readValue (cs.length + 1) (skipBlanks cs)
  if skipBlanks rest = [] then return value else none

example : loads "\x7b\"a\": [1, -2.5e1], \"b\":\"\\u00e9\\ud83d\\ude00\"\x7d".toList =
    some (.obj [("a", .arr [.int 1, .real (-25)]), ("b", .str "é😀")]) := by
  decide +kernel

/-! ## Texts read back -/

theorem hexValue?_digitChar : ∀ n < 16, hexValue? (Nat.digitChar n) = some n := by decide

theorem readUnit_hexText {n : ℕ} (h : n < 0x10000) (rest : List Char) :
    readUnit (hexText n 4 ++ rest) = some (n, rest) := by
  have hdigit : ∀ k, hexValue? (Nat.digitChar (k % 16)) = some (k % 16) :=
    fun k => hexValue?_digitChar _ (Nat.mod_lt k (by decide))
  have htext : hexText n 4 = [Nat.digitChar (n / 16 ^ 3 % 16), Nat.digitChar (n / 16 ^ 2 % 16),
      Nat.digitChar (n / 16 ^ 1 % 16), Nat.digitChar (n / 16 ^ 0 % 16)] := rfl
  rw [htext]
  simp only [List.cons_append, List.nil_append, readUnit, hdigit, Option.bind_eq_bind,
    Option.bind_some, Option.pure_def, Option.some.injEq, Prod.mk.injEq, and_true]
  omega

theorem toNat_valid (c : Char) : c.toNat < 0xd800 ∨ 0xdfff < c.toNat ∧ c.toNat < 0x110000 := c.valid

theorem readUnits_low {c : Char} (h : c.toNat < 0x10000) (rest : List Char) :
    readUnits (hexText c.toNat 4 ++ rest) = some (c, rest) := by
  have hvalid := toNat_valid c
  unfold readUnits
  simp only [readUnit_hexText h, Option.bind_eq_bind, Option.bind_some]
  rw [if_neg (by omega), if_neg (by omega), Char.ofNat_toNat]

theorem readUnits_pair {high low : ℕ} (hhigh : 0xd800 ≤ high ∧ high < 0xdc00)
    (hlow : 0xdc00 ≤ low ∧ low < 0xe000) (rest : List Char) :
    readUnits (hexText high 4 ++ unitEscape low ++ rest) =
      some (Char.ofNat (0x10000 + (high - 0xd800) * 0x400 + (low - 0xdc00)), rest) := by
  have hhigh' : high < 0x10000 := by omega
  have hlow' : low < 0x10000 := by omega
  unfold readUnits unitEscape
  rw [List.append_assoc]
  simp only [readUnit_hexText hhigh', Option.bind_eq_bind, Option.bind_some, List.cons_append]
  rw [if_pos hhigh]
  simp only [readUnit_hexText hlow', Option.bind_some]
  rw [if_pos hlow]

theorem readUnits_high {c : Char} (h : 0x10000 ≤ c.toNat) (rest : List Char) :
    readUnits (hexText (0xd800 + (c.toNat - 0x10000) / 0x400) 4 ++
      unitEscape (0xdc00 + (c.toNat - 0x10000) % 0x400) ++ rest) = some (c, rest) := by
  have hvalid := toNat_valid c
  rw [readUnits_pair (by omega) (by omega)]
  have hsum : 0x10000 + (0xd800 + (c.toNat - 0x10000) / 0x400 - 0xd800) * 0x400 +
      (0xdc00 + (c.toNat - 0x10000) % 0x400 - 0xdc00) = c.toNat := by omega
  rw [hsum, Char.ofNat_toNat]

theorem readText_escape {d : Char} {cs rest : List Char} (h : readEscape cs = some (d, rest))
    (fuel : ℕ) : readText (fuel + 1) ('\\' :: cs) =
      (readText fuel rest).map (fun r => (d :: r.1, r.2)) := by
  rw [readText, if_neg (by decide), if_pos rfl, h]
  simp only [Option.bind_eq_bind, Option.bind_some]
  cases readText fuel rest <;> rfl

theorem ofNat_of_toNat {c : Char} {n : ℕ} (h : c.toNat = n) : Char.ofNat n = c := by
  rw [← h, Char.ofNat_toNat]

theorem readText_escapeAscii (c : Char) (rest : List Char) (fuel : ℕ) :
    readText (fuel + 1) (escapeAscii c ++ rest) =
      (readText fuel rest).map (fun r => (c :: r.1, r.2)) := by
  unfold escapeAscii
  dsimp only
  by_cases hquote : c = '"'
  · rw [if_pos hquote, hquote]
    exact readText_escape rfl fuel
  rw [if_neg hquote]
  by_cases hback : c = '\\'
  · rw [if_pos hback, hback]
    exact readText_escape rfl fuel
  rw [if_neg hback]
  by_cases hn : c = '\n'
  · rw [if_pos hn, hn]
    exact readText_escape rfl fuel
  rw [if_neg hn]
  by_cases hr : c = '\r'
  · rw [if_pos hr, hr]
    exact readText_escape rfl fuel
  rw [if_neg hr]
  by_cases ht : c = '\t'
  · rw [if_pos ht, ht]
    exact readText_escape rfl fuel
  rw [if_neg ht]
  by_cases hb : c.toNat = 8
  · rw [if_pos hb, ← ofNat_of_toNat hb]
    exact readText_escape rfl fuel
  rw [if_neg hb]
  by_cases hf : c.toNat = 12
  · rw [if_pos hf, ← ofNat_of_toNat hf]
    exact readText_escape rfl fuel
  rw [if_neg hf]
  by_cases hprintable : 0x20 ≤ c.toNat ∧ c.toNat ≤ 0x7e
  · rw [if_pos hprintable, List.singleton_append, readText, if_neg hquote, if_neg hback,
      if_neg (by omega)]
    cases readText fuel rest <;> rfl
  rw [if_neg hprintable]
  by_cases hlow : c.toNat < 0x10000
  · rw [if_pos hlow]
    have hread : readEscape ('u' :: (hexText c.toNat 4 ++ rest)) = some (c, rest) :=
      readUnits_low hlow rest
    exact readText_escape hread fuel
  · rw [if_neg hlow, List.append_assoc]
    have hunits := readUnits_high (Nat.not_lt.1 hlow) rest
    rw [List.append_assoc] at hunits
    have hread : readEscape ('u' :: (hexText (0xd800 + (c.toNat - 0x10000) / 0x400) 4 ++
        (unitEscape (0xdc00 + (c.toNat - 0x10000) % 0x400) ++ rest))) = some (c, rest) := hunits
    exact readText_escape hread fuel

theorem readText_flatMap (text rest : List Char) {fuel : ℕ} (h : text.length < fuel) :
    readText fuel (text.flatMap escapeAscii ++ '"' :: rest) = some (text, rest) := by
  induction text generalizing fuel with
  | nil =>
    obtain ⟨fuel, rfl⟩ := Nat.exists_eq_add_of_lt h
    rw [List.flatMap_nil, List.nil_append, readText, if_pos rfl]
  | cons c text ih =>
    obtain ⟨fuel, rfl⟩ := Nat.exists_eq_add_of_lt (Nat.zero_lt_of_lt h)
    rw [Nat.zero_add, List.flatMap_cons, List.append_assoc, readText_escapeAscii,
      ih (by rw [List.length_cons] at h; omega)]
    rfl

/-! ## Flat objects read back -/

def Follows (rest : List Char) : Prop := ∃ cs, rest = ',' :: cs ∨ rest = '\x7d' :: cs

theorem head?_toDigits {n : ℕ} (h : 0 < n) : (Nat.toDigits 10 n).head? ≠ some '0' := by
  induction n using Nat.strong_induction_on with
  | _ n ih =>
    rw [Nat.toDigits_eq_if (by decide)]
    split
    · next hlt =>
      have hall : ∀ d < 10, 0 < d → [Nat.digitChar d].head? ≠ some '0' := by decide
      exact hall n hlt h
    · next hge =>
      rw [List.head?_append_of_ne_nil _ Nat.toDigits_ne_nil]
      exact ih (n / 10) (by omega) (by omega)

theorem digitsOf_append {digits rest : List Char} (hdigits : ∀ c ∈ digits, c.isDigit = true)
    (hrest : Follows rest) : digitsOf (digits ++ rest) = (digits, rest) := by
  have hstop : rest.takeWhile Char.isDigit = [] ∧ rest.dropWhile Char.isDigit = rest := by
    obtain ⟨cs, rfl | rfl⟩ := hrest <;> exact ⟨rfl, rfl⟩
  unfold digitsOf
  rw [List.takeWhile_append_of_pos hdigits, List.dropWhile_append_of_pos hdigits, hstop.1, hstop.2,
    List.append_nil]

theorem isDigit_toDigits (n : ℕ) : ∀ c ∈ Nat.toDigits 10 n, c.isDigit = true :=
  fun _ hc => Nat.isDigit_of_mem_toDigits (by decide) (by decide) hc

theorem readWhole_toDigits (n : ℕ) {rest : List Char} (hrest : Follows rest) :
    readWhole (Nat.toDigits 10 n ++ rest) = some (Nat.toDigits 10 n, rest) := by
  have hdigits := digitsOf_append (isDigit_toDigits n) hrest
  rcases Nat.eq_zero_or_pos n with rfl | hpos
  · rfl
  · have hhead := head?_toDigits hpos
    cases hlist : Nat.toDigits 10 n with
    | nil => exact absurd hlist Nat.toDigits_ne_nil
    | cons d ds =>
      rw [hlist] at hhead hdigits
      unfold readWhole
      split
      · next heq =>
        cases heq
        exact absurd rfl hhead
      · rw [hdigits]
        exact if_neg (List.cons_ne_nil d ds)

theorem toList_toString_int (n : ℤ) : (toString n).toList =
    if 0 ≤ n then Nat.toDigits 10 n.natAbs else '-' :: Nat.toDigits 10 n.natAbs := by
  rw [Int.toString_eq_repr, Int.repr_eq_if]
  split
  · next h =>
    rw [Nat.toList_repr, show n.toNat = n.natAbs by omega]
  · next h =>
    rw [String.toList_append, Nat.toList_repr, show (-n).toNat = n.natAbs by omega]
    rfl

theorem head?_toDigits_ne_minus (n : ℕ) : (Nat.toDigits 10 n).head? ≠ some '-' := by
  intro h
  have hdigit := isDigit_toDigits n '-' (List.mem_of_head? h)
  revert hdigit
  decide

theorem readNumber_toString {n : ℤ} (hn : (Nat.toDigits 10 n.natAbs).length ≤ maxStrDigits)
    {rest : List Char} (hrest : Follows rest) :
    readNumber ((toString n).toList ++ rest) = some (.int n, rest) := by
  have hfraction : readFraction rest = ([], rest) := by
    obtain ⟨cs, rfl | rfl⟩ := hrest <;> rfl
  have hexponent : readExponent rest = (none, rest) := by
    obtain ⟨cs, rfl | rfl⟩ := hrest <;> rfl
  have hwhole := readWhole_toDigits n.natAbs hrest
  rw [toList_toString_int]
  unfold readNumber
  by_cases hsign : 0 ≤ n
  · have hhead : (Nat.toDigits 10 n.natAbs ++ rest).head? ≠ some '-' := by
      rw [List.head?_append_of_ne_nil _ Nat.toDigits_ne_nil]
      exact head?_toDigits_ne_minus _
    simp only [if_pos hsign, hhead, if_false, hwhole, Option.bind_eq_bind, Option.bind_some,
      hfraction, hexponent, and_self, if_true, if_pos hn, Nat.ofDigitChars_ten_toDigits]
    rw [Int.natAbs_of_nonneg hsign]
  · simp only [if_neg hsign, List.cons_append, List.head?_cons, List.tail_cons, if_true, hwhole,
      Option.bind_eq_bind, Option.bind_some, hfraction, hexponent, and_self, if_pos hn,
      Nat.ofDigitChars_ten_toDigits]
    rw [show -(n.natAbs : ℤ) = n by omega]

def Flat : Json → Prop
  | .str _ => True
  | .int n => (Nat.toDigits 10 n.natAbs).length ≤ maxStrDigits
  | _ => False

theorem length_le_flatMap (text : List Char) : text.length ≤ (text.flatMap escapeAscii).length := by
  have hone : ∀ c, 1 ≤ (escapeAscii c).length := by
    intro c
    unfold escapeAscii
    dsimp only
    split_ifs <;> simp [unitEscape]
  induction text with
  | nil => exact le_rfl
  | cons c text ih =>
    have hc := hone c
    rw [List.flatMap_cons, List.length_append, List.length_cons]
    omega

theorem readText_dumpsText (s : String) (rest : List Char) :
    readText ((s.toList.flatMap escapeAscii ++ '"' :: rest).length + 1)
      (s.toList.flatMap escapeAscii ++ '"' :: rest) = some (s.toList, rest) := by
  refine readText_flatMap _ _ ?_
  have hle := length_le_flatMap s.toList
  rw [List.length_append]
  omega

theorem dumpsText_append (s : String) (rest : List Char) :
    dumpsText s ++ rest = '"' :: (s.toList.flatMap escapeAscii ++ '"' :: rest) := by
  simp [dumpsText]

theorem head_toString (n : ℤ) :
    ∃ c cs, (toString n).toList = c :: cs ∧ (c.isDigit = true ∨ c = '-') := by
  rw [toList_toString_int]
  split
  · cases hlist : Nat.toDigits 10 n.natAbs with
    | nil => exact absurd hlist Nat.toDigits_ne_nil
    | cons d ds =>
      have hdigit := isDigit_toDigits n.natAbs d (by rw [hlist]; exact List.mem_cons_self)
      exact ⟨d, ds, rfl, .inl hdigit⟩
  · exact ⟨'-', _, rfl, .inr rfl⟩

theorem readValue_number {c : Char} (h : c.isDigit = true ∨ c = '-') (fuel : ℕ) (cs : List Char) :
    readValue (fuel + 1) (c :: cs) = readNumber (c :: cs) := by
  unfold readValue
  split
  · next heq => cases heq; exact absurd h (by decide)
  · next heq => cases heq; exact absurd h (by decide)
  · next heq => cases heq; exact absurd h (by decide)
  · next heq => cases heq; exact absurd h (by decide)
  · next heq => cases heq; exact absurd h (by decide)
  · next heq => cases heq; exact absurd h (by decide)
  · rfl

theorem readValue_flat {v : Json} (hv : Flat v) (fuel : ℕ) {rest : List Char}
    (hrest : Follows rest) :
    readValue (fuel + 1) (dumpsValue compactSorted v ++ rest) = some (v, rest) := by
  cases v with
  | str s =>
    rw [dumpsValue, dumpsText_append]
    unfold readValue
    simp only [readText_dumpsText, Option.bind_eq_bind, Option.bind_some, String.ofList_toList,
      Option.pure_def]
  | int n =>
    rw [dumpsValue]
    have hnumber := readNumber_toString hv hrest
    obtain ⟨c, cs, hlist, hhead⟩ := head_toString n
    rw [hlist, List.cons_append] at hnumber ⊢
    rw [readValue_number hhead, hnumber]
  | _ => exact hv.elim

theorem skipBlanks_flat {v : Json} (hv : Flat v) (rest : List Char) :
    skipBlanks (dumpsValue compactSorted v ++ rest) = dumpsValue compactSorted v ++ rest := by
  cases v with
  | str s =>
    rw [dumpsValue, dumpsText_append]
    rfl
  | int n =>
    rw [dumpsValue]
    obtain ⟨c, cs, hlist, hhead⟩ := head_toString n
    have hblank : isBlank c = false := by
      unfold isBlank
      rw [decide_eq_false_iff_not]
      rintro (rfl | rfl | rfl | rfl) <;> revert hhead <;> decide
    rw [hlist, List.cons_append, skipBlanks, List.dropWhile_cons_of_neg (by simp [hblank])]
  | _ => exact hv.elim

def member (m : String × Json) : List Char := dumpsText m.1 ++ ':' :: dumpsValue compactSorted m.2

theorem skipBlanks_colon (cs : List Char) : skipBlanks (':' :: cs) = ':' :: cs := rfl

theorem skipBlanks_comma (cs : List Char) : skipBlanks (',' :: cs) = ',' :: cs := rfl

theorem skipBlanks_brace (cs : List Char) : skipBlanks ('\x7d' :: cs) = '\x7d' :: cs := rfl

theorem member_append (m : String × Json) (rest : List Char) : member m ++ rest =
    '"' :: (m.1.toList.flatMap escapeAscii ++
      '"' :: ':' :: (dumpsValue compactSorted m.2 ++ rest)) := by
  rw [member, List.append_assoc, dumpsText_append, List.cons_append]

theorem readMembers_last {m : String × Json} (hm : Flat m.2) (fuel : ℕ) (rest : List Char) :
    readMembers (fuel + 2) (member m ++ '\x7d' :: rest) = some ([m], rest) := by
  have hvalue := @readValue_flat m.2 hm fuel ('\x7d' :: rest) ⟨rest, .inr rfl⟩
  rw [member_append, readMembers]
  simp only [readText_dumpsText, Option.bind_eq_bind, Option.bind_some, String.ofList_toList,
    skipBlanks_colon, skipBlanks_flat hm, hvalue, skipBlanks_brace, Option.pure_def]

theorem readMembers_next {m : String × Json} (hm : Flat m.2) (fuel : ℕ) (rest : List Char) :
    readMembers (fuel + 2) (member m ++ ',' :: rest) =
      (readMembers (fuel + 1) (skipBlanks rest)).map (fun r => (m :: r.1, r.2)) := by
  have hvalue := @readValue_flat m.2 hm fuel (',' :: rest) ⟨rest, .inl rfl⟩
  rw [member_append, readMembers]
  simp only [readText_dumpsText, Option.bind_eq_bind, Option.bind_some, String.ofList_toList,
    skipBlanks_colon, skipBlanks_flat hm, hvalue, skipBlanks_comma, Option.pure_def]
  cases readMembers (fuel + 1) (skipBlanks rest) <;> rfl

theorem skipBlanks_members (m : String × Json) (ms : List (String × Json)) (rest : List Char) :
    skipBlanks (List.intercalate [','] ((m :: ms).map member) ++ rest) =
      List.intercalate [','] ((m :: ms).map member) ++ rest := by
  cases ms <;> rfl

theorem readMembers_intercalate {m : String × Json} {ms : List (String × Json)}
    (h : ∀ m' ∈ m :: ms, Flat m'.2) (rest : List Char) {fuel : ℕ} (hfuel : ms.length + 2 ≤ fuel) :
    readMembers fuel (List.intercalate [','] ((m :: ms).map member) ++ '\x7d' :: rest) =
      some (m :: ms, rest) := by
  obtain ⟨fuel, rfl⟩ := Nat.exists_eq_add_of_le' (Nat.le_trans (Nat.le_add_left 2 _) hfuel)
  have hm := h m List.mem_cons_self
  induction ms generalizing m fuel with
  | nil =>
    have hlast := readMembers_last hm fuel rest
    simpa [List.intercalate] using hlast
  | cons m' ms ih =>
    rw [List.length_cons] at hfuel
    obtain ⟨fuel, rfl⟩ : ∃ k, fuel = k + 1 := ⟨fuel - 1, by omega⟩
    have hms : ∀ m'' ∈ m' :: ms, Flat m''.2 := fun m'' hm'' => h m'' (List.mem_cons_of_mem _ hm'')
    have htail := ih hms fuel (by omega) (hms m' List.mem_cons_self)
    have hsplit : List.intercalate [','] ((m :: m' :: ms).map member) ++ '\x7d' :: rest =
        member m ++ ',' :: (List.intercalate [','] ((m' :: ms).map member) ++ '\x7d' :: rest) := by
      simp [List.intercalate]
    rw [hsplit, readMembers_next hm, skipBlanks_members, htail]
    rfl

theorem length_intercalate (ms : List (String × Json)) :
    ms.length ≤ (List.intercalate [','] (ms.map member)).length + 1 := by
  induction ms with
  | nil => exact Nat.zero_le _
  | cons m ms ih =>
    cases ms with
    | nil => simp
    | cons m' ms =>
      have hsplit : List.intercalate [','] ((m :: m' :: ms).map member) =
          member m ++ ',' :: List.intercalate [','] ((m' :: ms).map member) := by
        simp [List.intercalate]
      rw [hsplit]
      simp only [List.length_append, List.length_cons] at ih ⊢
      omega

theorem readValue_open (fuel : ℕ) (cs : List Char) :
    readValue (fuel + 1) ('\x7b' :: '"' :: cs) =
      (readMembers fuel ('"' :: cs)).map (fun r => (.obj r.1, r.2)) := by
  rw [readValue]
  change (readMembers fuel ('"' :: cs)).bind (fun r => some (Json.obj r.1, r.2)) = _
  cases readMembers fuel ('"' :: cs) <;> rfl

theorem loads_members {ms : List (String × Json)} (hne : ms ≠ []) (h : ∀ m ∈ ms, Flat m.2) :
    loads (between '\x7b' '\x7d' "," (ms.map member)) = some (.obj ms) := by
  cases ms with
  | nil => exact absurd rfl hne
  | cons m ms =>
    have hlength := length_intercalate (m :: ms)
    obtain ⟨cs, hcs⟩ : ∃ cs, List.intercalate [','] ((m :: ms).map member) ++ ['\x7d'] =
        '"' :: cs := by
      cases ms <;> exact ⟨_, rfl⟩
    have hfuel : ms.length + 2 ≤ ('"' :: cs).length + 1 := by
      rw [← hcs, List.length_append]
      simp only [List.length_cons, List.length_nil] at hlength ⊢
      omega
    have hread := readMembers_intercalate h [] hfuel
    rw [hcs] at hread
    have htext : between '\x7b' '\x7d' "," ((m :: ms).map member) = '\x7b' :: '"' :: cs := by
      rw [← hcs]
      rfl
    have hskip : skipBlanks ('\x7b' :: '"' :: cs) = '\x7b' :: '"' :: cs := rfl
    unfold loads
    rw [htext, hskip, List.length_cons, readValue_open, hread]
    rfl

end IeltsHub.JsonText
