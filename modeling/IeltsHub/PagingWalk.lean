import IeltsHub.PagingCursor

set_option autoImplicit false

/-!
# Walks by cursor

A cursor decodes to the key it was minted from, so following cursors is the keyset walk.
-/
namespace IeltsHub.PagingWalk
open PyExc PyText PyTime PlatformErrors KeysetPaging PagingCursor

/-! ## A cursor and its text -/

theorem stripPads_append {body : List Char} (h : '=' ∉ body) (k : ℕ) :
    stripPads (body ++ List.replicate k '=') = body := by
  unfold stripPads
  rw [List.reverse_append, List.reverse_replicate]
  have hdrop : ∀ cs : List Char, '=' ∉ cs →
      (List.replicate k '=' ++ cs).dropWhile (fun c => decide (c = '=')) = cs := by
    intro cs hcs
    induction k with
    | zero =>
      cases cs with
      | nil => rfl
      | cons c cs =>
        rw [List.replicate_zero, List.nil_append, List.dropWhile_cons_of_neg]
        simpa using fun q : c = '=' => hcs (q ▸ List.mem_cons_self)
    | succ k ih =>
      rw [List.replicate_succ, List.cons_append, List.dropWhile_cons_of_pos (by simp)]
      exact ih
  rw [hdrop _ (by simpa using h), List.reverse_reverse]

theorem alphabet_spec : ∀ c ∈ Base64.alphabet, c ≠ '=' ∧ c.toNat < 128 := by
  have hall : Base64.alphabet.all (fun c => decide (c ≠ '=') && decide (c.toNat < 128)) = true := by
    decide +kernel
  intro c hc
  simpa using List.all_eq_true.1 hall c hc

theorem ofUtf8_utf8 (s : String) : ofUtf8 (utf8 s) = some s := by
  have hbytes : (⟨(utf8 s).toArray⟩ : ByteArray) = s.toByteArray := by
    unfold utf8
    rw [Array.toArray_toList]
  unfold ofUtf8
  rw [hbytes]
  unfold String.fromUTF8?
  rw [dif_pos s.isValidUTF8]
  rfl

theorem utf8_ne_nil {s : String} (h : s ≠ "") : utf8 s ≠ [] := by
  intro hnil
  have hs := ofUtf8_utf8 s
  rw [hnil, show ([] : List UInt8) = utf8 "" from rfl, ofUtf8_utf8] at hs
  exact h (Option.some.inj hs).symm

theorem stripPads_encode (bs : List UInt8) :
    (∀ c ∈ stripPads (Base64.encode bs), c ∈ Base64.alphabet) ∧
      stripPads (Base64.encode bs) ++
        List.replicate ((4 - (stripPads (Base64.encode bs)).length % 4) % 4) '=' =
        Base64.encode bs := by
  obtain ⟨body, k, henc, hbody, hk, hlen⟩ := Base64.encode_eq_append bs
  have hpad : '=' ∉ body := fun q => (alphabet_spec _ (hbody _ q)).1 rfl
  have htext : stripPads (Base64.encode bs) = body := by
    rw [henc, stripPads_append hpad]
  have hk : (4 - body.length % 4) % 4 = k := by omega
  rw [htext, hk]
  exact ⟨hbody, henc.symm⟩

theorem decodeCursor_encodeText {raw : String} (h : raw ≠ "") :
    decodeCursor (some (encodeText raw)) = some raw := by
  obtain ⟨hbody, hwhole⟩ := stripPads_encode (utf8 raw)
  have htext : (encodeText raw).toList = stripPads (Base64.encode (utf8 raw)) := by
    unfold encodeText
    rw [String.toList_ofList]
  have hempty : encodeText raw ≠ "" := by
    intro q
    rw [q] at htext
    rw [← htext] at hwhole
    have hdecode := Base64.decode_encode (utf8 raw)
    rw [← hwhole] at hdecode
    exact utf8_ne_nil h (Option.some.inj hdecode).symm
  have hascii : (stripPads (Base64.encode (utf8 raw))).any (fun c => decide (128 ≤ c.toNat)) =
      false := by
    rw [List.any_eq_false]
    intro c hc
    simpa using (alphabet_spec c (hbody c hc)).2
  unfold decodeCursor
  simp only [hempty, if_false, htext, hascii, hwhole, Base64.decode_encode, Bool.false_eq_true]
  exact ofUtf8_utf8 raw

/-! ## Integers -/

/-- The largest value of a `bigint` column. -/
def maxBigint : ℕ := 2 ^ 63 - 1

theorem decimal?_of_isDigit {c : Char} (h : c.isDigit = true) :
    decimal? c = some (c.toNat - '0'.toNat) := by
  have hall : ∀ n, 48 ≤ n → n ≤ 57 →
      (decimalRuns.find? (fun r => r ≤ n && n < r + 10)).map (fun r => n - r) = some (n - 48) := by
    intro n h₁ h₂
    interval_cases n <;> decide
  have hc : 48 ≤ c.toNat ∧ c.toNat ≤ 57 := by
    simp only [Char.isDigit, Bool.and_eq_true, decide_eq_true_eq] at h
    exact h
  exact hall c.toNat hc.1 hc.2

theorem mapM_decimal {cs : List Char} (h : ∀ c ∈ cs, c.isDigit = true) :
    cs.mapM decimal? = some (cs.map (fun c => c.toNat - '0'.toNat)) := by
  induction cs with
  | nil => rfl
  | cons c cs ih =>
    rw [List.mapM_cons, decimal?_of_isDigit (h c List.mem_cons_self),
      ih (fun d hd => h d (List.mem_cons_of_mem c hd))]
    rfl

theorem ofDigits_map (cs : List Char) :
    ofDigits (cs.map (fun c => c.toNat - '0'.toNat)) = Nat.ofDigitChars 10 cs 0 := by
  unfold ofDigits
  rw [Nat.ofDigitChars_eq_foldl, List.foldl_map]

theorem toList_toString (n : ℕ) : (toString n).toList = Nat.toDigits 10 n := by
  rw [Nat.toString_eq_ofList_toDigits, String.toList_ofList]

theorem intOfText_toString {n : ℕ} (h : n ≤ maxBigint) :
    (intOfText (toString n) : Except Raised ℤ) = .ok n := by
  have hdigits : ∀ c ∈ Nat.toDigits 10 n, c.isDigit = true :=
    fun c hc => Nat.isDigit_of_mem_toDigits (by decide) (by decide) hc
  have hlen : (Nat.toDigits 10 n).length ≤ maxStrDigits := by
    refine (Nat.toDigits_length 10 n 19 (by decide) ?_).trans (by decide)
    exact lt_of_le_of_lt h (by decide)
  have hisdigit : isdigit (toString n) = true := by
    unfold isdigit
    rw [toList_toString, Bool.and_eq_true, List.all_eq_true]
    refine ⟨by simp [Nat.toDigits_ne_nil], fun c hc => ?_⟩
    exact decimal?_isDigitChar (decimal?_of_isDigit (hdigits c hc))
  rw [intOfText_of_isdigit hisdigit, toList_toString, mapM_decimal hdigits]
  simp only [List.length_map, hlen, if_true, ofDigits_map]
  rw [Nat.ofDigitChars_ten_toDigits]

theorem intOrNone_toString {n : ℕ} (h : n ≤ maxBigint) :
    intOrNone (toString n) = .ok (some (n : ℤ)) := by
  unfold intOrNone
  rw [intOfText_toString h]

theorem returns_intOrNone (raw : String) : Returns (intOrNone raw) := by
  unfold intOrNone intOfText
  simp only
  split
  · next n h => exact returns_ok _
  · exact returns_ok _
  · next e hne h =>
    split at h
    · cases h
      exact absurd rfl hne
    · split at h
      · cases h
      · cases h
        exact absurd rfl hne

theorem returns_decodeId (cursor : Option String) : Returns (decodeId cursor) := by
  unfold decodeId
  split
  · exact returns_ok _
  · exact returns_intOrNone _

theorem returns_decodeKey (cursor : Option String) (arity : ℕ) :
    Returns (decodeKey cursor arity) := by
  unfold decodeKey
  split
  · exact returns_ok _
  · simp only
    split
    · exact returns_ok _
    · exact returns_map.2 (returns_intOrNone _)

theorem toString_ne_empty (n : ℕ) : toString n ≠ "" := by
  intro h
  have hlist := toList_toString n
  rw [h] at hlist
  exact Nat.toDigits_ne_nil hlist.symm

theorem decodeId_encodeCursor {n : ℕ} (h : n ≤ maxBigint) :
    decodeId (some (encodeCursor (.int n))) = .ok (some (n : ℤ)) := by
  unfold decodeId encodeCursor KeyPart.text
  rw [decodeCursor_encodeText (toString_ne_empty n)]
  exact intOrNone_toString h

/-! ## Compound keys -/

theorem splitOnChar_of_not_mem {sep : Char} {cs : List Char} (h : sep ∉ cs) (word : List Char) :
    splitOnChar sep word cs = [word.reverse ++ cs] := by
  induction cs generalizing word with
  | nil => simp [splitOnChar]
  | cons c cs ih =>
    rw [List.mem_cons, not_or] at h
    rw [splitOnChar, if_neg (fun q => h.1 q.symm), ih h.2]
    simp

theorem splitOnChar_append {sep : Char} {cs : List Char} (h : sep ∉ cs) (word rest : List Char) :
    splitOnChar sep word (cs ++ sep :: rest) = (word.reverse ++ cs) :: splitOnChar sep [] rest := by
  induction cs generalizing word with
  | nil => simp [splitOnChar]
  | cons c cs ih =>
    rw [List.mem_cons, not_or] at h
    rw [List.cons_append, splitOnChar, if_neg (fun q => h.1 q.symm), ih h.2]
    simp

theorem splitOnChar_intercalate {sep : Char} {first : List Char} {rest : List (List Char)}
    (h : ∀ cs ∈ first :: rest, sep ∉ cs) :
    splitOnChar sep [] (List.intercalate [sep] (first :: rest)) = first :: rest := by
  induction rest generalizing first with
  | nil =>
    rw [List.intercalate_singleton, splitOnChar_of_not_mem (h first List.mem_cons_self)]
    rfl
  | cons second rest ih =>
    have hrest := @ih second (fun cs hcs => h cs (List.mem_cons_of_mem first hcs))
    rw [List.intercalate_cons_cons, List.append_assoc, List.singleton_append,
      splitOnChar_append (h first List.mem_cons_self), hrest]
    rfl

theorem splitOn_join {sep : Char} {parts : List String} (hne : parts ≠ [])
    (h : ∀ p ∈ parts, sep ∉ p.toList) :
    splitOn sep (join (String.singleton sep) parts) = parts := by
  obtain ⟨first, rest, rfl⟩ := List.exists_cons_of_ne_nil hne
  unfold splitOn join
  rw [String.toList_ofList, List.map_cons, String.toList_singleton, splitOnChar_intercalate]
  · simp
  · intro cs hcs
    rw [← List.map_cons, List.mem_map] at hcs
    obtain ⟨p, hp, rfl⟩ := hcs
    exact h p hp

theorem sep_not_mem_toDigits (n : ℕ) : SEP ∉ Nat.toDigits 10 n := by
  intro h
  have hdigit := Nat.isDigit_of_mem_toDigits (b := 10) (by decide) (by decide) h
  revert hdigit
  decide

theorem sep_not_mem_padded (width n : ℕ) : SEP ∉ padded width n := by
  unfold padded
  rw [List.mem_append, not_or]
  refine ⟨fun h => ?_, sep_not_mem_toDigits n⟩
  have heq := List.eq_of_mem_replicate h
  revert heq
  decide

theorem sep_not_mem_isoformat (t : Time) : SEP ∉ isoformat t := by
  have hne : SEP ≠ '-' ∧ SEP ≠ 'T' ∧ SEP ≠ ':' ∧ SEP ≠ '.' ∧ SEP ∉ "+00:00".toList := by decide
  obtain ⟨hminus, hT, hcolon, hdot, hzone⟩ := hne
  unfold isoformat
  simp only [List.mem_append, List.mem_cons, sep_not_mem_padded, hminus, hT, hcolon, hzone,
    or_false, false_or]
  split
  · simp
  · simp [hdot, sep_not_mem_padded]

theorem sep_not_mem_text (p : KeyPart) : SEP ∉ p.text.toList := by
  cases p with
  | moment t =>
    unfold KeyPart.text
    rw [String.toList_ofList]
    exact sep_not_mem_isoformat t
  | int n =>
    unfold KeyPart.text
    rw [toList_toString]
    exact sep_not_mem_toDigits n

theorem decodeKey_encodeKey (parts : List KeyPart) {n : ℕ} (h : n ≤ maxBigint) :
    decodeKey (some (encodeKey (parts ++ [.int n]))) (parts.length + 1) =
      .ok (some (parts.map KeyPart.text, (n : ℤ))) := by
  have hsplit : splitOn SEP (join (String.singleton SEP)
      ((parts ++ [KeyPart.int n]).map KeyPart.text)) =
      parts.map KeyPart.text ++ [toString n] := by
    rw [splitOn_join (by simp)]
    · simp [KeyPart.text]
    · intro p hp
      obtain ⟨q, _, rfl⟩ := List.mem_map.1 hp
      exact sep_not_mem_text q
  have hne : join (String.singleton SEP) ((parts ++ [KeyPart.int n]).map KeyPart.text) ≠ "" := by
    intro q
    rw [q] at hsplit
    have hone : [""] = parts.map KeyPart.text ++ [toString n] := hsplit
    cases hp : parts with
    | nil =>
      rw [hp] at hone
      exact toString_ne_empty n (List.cons.inj hone).1.symm
    | cons p ps =>
      rw [hp] at hone
      simp at hone
  unfold decodeKey encodeKey
  rw [decodeCursor_encodeText hne]
  simp only [hsplit, List.length_append, List.length_map, List.length_singleton, ne_eq,
    not_true_eq_false, if_false, List.dropLast_concat, List.getLastD_concat,
    intOrNone_toString h]
  rfl

/-! ## The walk -/

section
variable {ρ : Type} {id : ρ → ℕ} {o : Order} {limit : ℕ} {cursor : Option String} {rows : List ρ}

def rankOf (id : ρ → ℕ) (o : Order) (r : ρ) : WithBot ℤ := (o.rank (id r) : ℤ)

def start (o : Order) : Option ℤ → WithBot ℤ
  | none => ⊥
  | some k => (o.rank k : ℤ)

theorem past_start (o : Order) (after : Option ℤ) (rows : List ρ) :
    past (rankOf id o) rows (start o after) =
      (match after with
        | none => rows
        | some k => rows.filter (fun r => o.rank k < o.rank (id r))).insertionSort
          (fun a b => o.rank (id a) ≤ o.rank (id b)) := by
  unfold past rankOf start
  cases after with
  | none =>
    simp only [WithBot.coe_le_coe, WithBot.bot_lt_coe, decide_true, List.filter_true]
  | some k => simp only [WithBot.coe_le_coe, WithBot.coe_lt_coe]

theorem page_take (rows : List ρ) (hlimit : 0 < limit) :
    page id (rows.take (limit + 1)) limit =
      if rows.length ≤ limit then .ok (rows, none)
      else .ok (rows.take limit,
        ((rows.take limit).getLast?.map (fun r => encodeCursor (.int (id r))))) := by
  unfold page
  rw [List.length_take, List.take_take]
  have hmin : min limit (limit + 1) = limit := by omega
  by_cases h : rows.length ≤ limit
  · have hle : min (limit + 1) rows.length ≤ limit := by omega
    rw [if_pos hle, if_pos h, List.take_of_length_le (by omega)]
  · have hgt : ¬ min (limit + 1) rows.length ≤ limit := by omega
    rw [if_neg hgt, if_neg h, hmin]
    cases hlast : (rows.take limit).getLast? with
    | none =>
      rw [List.getLast?_eq_none_iff] at hlast
      have hlength := congrArg List.length hlast
      rw [List.length_take, List.length_nil] at hlength
      omega
    | some r => rfl

theorem readPage_eq {after : Option ℤ} (hcursor : decodeId cursor = .ok after)
    (hlimit : 0 < limit) : readPage id o limit cursor rows =
      if (past (rankOf id o) rows (start o after)).length ≤ limit then
        .ok (past (rankOf id o) rows (start o after), none)
      else .ok ((past (rankOf id o) rows (start o after)).take limit,
        (((past (rankOf id o) rows (start o after)).take limit).getLast?.map
          (fun r => encodeCursor (.int (id r))))) := by
  unfold readPage
  rw [hcursor, past_start]
  exact page_take _ hlimit

theorem returns_readPage (hlimit : 0 < limit) (cursor : Option String) (rows : List ρ) :
    Returns (readPage id o limit cursor rows) := by
  obtain ⟨after, hafter⟩ := returns_decodeId cursor
  rw [readPage_eq hafter hlimit]
  split
  · exact returns_ok _
  · exact returns_ok _

/-- What following `next_cursor` until it is null returns, a page from each state of the rows. -/
inductive Followed (id : ρ → ℕ) (o : Order) (limit : ℕ) :
    Option String → List (List ρ) → List ρ → Prop where
  | last {cursor : Option String} {rows items : List ρ}
      (h : readPage id o limit cursor rows = .ok (items, none)) :
      Followed id o limit cursor [rows] items
  | next {cursor : Option String} {rows items out : List ρ} {states : List (List ρ)}
      {following : String} (h : readPage id o limit cursor rows = .ok (items, some following))
      (tail : Followed id o limit (some following) states out) :
      Followed id o limit cursor (rows :: states) (items ++ out)

theorem Followed.walk {states : List (List ρ)} {out : List ρ}
    (h : Followed id o limit cursor states out) (hlimit : 0 < limit)
    (hids : ∀ rows ∈ states, ∀ r ∈ rows, id r ≤ maxBigint) {after : Option ℤ}
    (hcursor : decodeId cursor = .ok after) :
    Walk (rankOf id o) limit (start o after) states out := by
  induction h generalizing after with
  | last h =>
    rw [readPage_eq hcursor hlimit] at h
    split at h
    · next hlen =>
      cases h
      exact .done hlen
    · next hlen =>
      have hnone := congrArg Prod.snd (Except.ok.inj h)
      rw [Option.map_eq_none_iff, List.getLast?_eq_none_iff] at hnone
      have hlength := congrArg List.length hnone
      rw [List.length_take, List.length_nil] at hlength
      omega
  | @next cursor rows items out states following h tail ih =>
    rw [readPage_eq hcursor hlimit] at h
    split at h
    · cases h
    · next hlen =>
      obtain ⟨hitems, hnext⟩ := Prod.mk.inj (Except.ok.inj h)
      obtain ⟨r, hr, hfollowing⟩ := Option.map_eq_some_iff.1 hnext
      have hrow : r ∈ rows :=
        (mem_past.1 (List.mem_of_mem_take (List.mem_of_getLast? hr))).1
      have hdecode : decodeId (some following) = .ok (some (id r : ℤ)) := by
        rw [← hfollowing]
        exact decodeId_encodeCursor (hids rows List.mem_cons_self r hrow)
      have hwalk := ih (fun t ht => hids t (List.mem_cons_of_mem rows ht)) hdecode
      have hstart : start o (some (id r : ℤ)) = lastKey (rankOf id o)
          ((past (rankOf id o) rows (start o after)).take limit) (start o after) := by
        unfold lastKey
        rw [hr]
        rfl
      rw [hstart] at hwalk
      rw [← hitems]
      exact .more (by omega) hwalk

theorem rankOf_lt (o : Order) {a b : ρ} : rankOf id o a < rankOf id o b ↔
    o.rank (id a) < o.rank (id b) := WithBot.coe_lt_coe

theorem rankOf_inj (o : Order) {a b : ρ} : rankOf id o a = rankOf id o b ↔ id a = id b := by
  unfold rankOf
  rw [WithBot.coe_inj]
  cases o with
  | ascending => exact Nat.cast_inj
  | descending => exact neg_inj.trans Nat.cast_inj

end

end IeltsHub.PagingWalk
