import IeltsHub.QtypesNormalizers

set_option autoImplicit false

/-!
# The grammar of spelled numbers

`_parse_number` succeeds on exactly the token lists this grammar derives. A token is plain, or it
is a numeral: decimal digits throughout and no more than `int` converts. A token that `isdigit`
accepts and is neither has no derivation, and neither has a chain of scale words deeper than the
calls the recursion limit leaves.
-/
namespace IeltsHub.NumberGrammar
open PyExc PyText PlatformErrors QtypesLexicon QtypesNormalizers

def Plain (lex : Lexicon) (token : String) : Prop :=
  isdigit (lex.canonicalToken "number_word" token) = false

def Numeral (lex : Lexicon) (token : String) (n : ℕ) : Prop :=
  let canon := lex.canonicalToken "number_word" token
  isdigit canon = true ∧ ∃ ds, canon.toList.mapM decimal? = some ds ∧
    ds.length ≤ maxStrDigits ∧ n = ofDigits ds

/-- What stands next: a numeral of that value, or a plain token, or the end. -/
inductive Ahead (lex : Lexicon) : List String → Option ℕ → Prop where
  | nil : Ahead lex [] none
  | plain {t : String} {ts : List String} (h : Plain lex t) : Ahead lex (t :: ts) none
  | numeral {t : String} {ts : List String} {n : ℕ} (h : Numeral lex t n) :
      Ahead lex (t :: ts) (some n)

/-- `Phrase lex frames tokens consumed value`. -/
inductive Phrase (lex : Lexicon) : ℕ → List String → ℕ → ℕ → Prop where
  | plain {f : ℕ} {t : String} {ts : List String} (h : Plain lex t) :
      Phrase lex (f + 1) (t :: ts) 0 0
  | bare {f n : ℕ} {t : String} {ts : List String} (h : Numeral lex t n)
      (hs : ts.head?.bind scale? = none) (ht : ¬ Tens n) : Phrase lex (f + 1) (t :: ts) 1 n
  | tens {f n : ℕ} {t : String} {ts : List String} {o : Option ℕ} (h : Numeral lex t n)
      (hs : ts.head?.bind scale? = none) (ht : Tens n) (ho : Ahead lex ts o)
      (hu : ∀ m, o = some m → ¬ (1 ≤ m ∧ m ≤ 9)) : Phrase lex (f + 1) (t :: ts) 1 n
  | unit {f n m : ℕ} {t : String} {ts : List String} (h : Numeral lex t n)
      (hs : ts.head?.bind scale? = none) (ht : Tens n) (ho : Ahead lex ts (some m))
      (hu : 1 ≤ m ∧ m ≤ 9) : Phrase lex (f + 1) (t :: ts) 2 (n + m)
  | scaled {f n s : ℕ} {t : String} {ts : List String} {o : Option ℕ} (h : Numeral lex t n)
      (hs : ts.head?.bind scale? = some s) (ho : Ahead lex (afterScale ts) o)
      (hr : ∀ r, o = some r → s ≤ r) : Phrase lex (f + 1) (t :: ts) 2 (n * s)
  | scaledMore {f n s r c v : ℕ} {t : String} {ts : List String} (h : Numeral lex t n)
      (hs : ts.head?.bind scale? = some s) (ho : Ahead lex (afterScale ts) (some r)) (hr : r < s)
      (hmore : Phrase lex f (afterScale ts) c v) :
      Phrase lex (f + 1) (t :: ts) (2 + andSkip ts + c) (n * s + v)

/-- The token lists the loop of `_number_word` reads to their end. -/
inductive Reads (lex : Lexicon) (frames : ℕ) : List String → Prop where
  | nil : Reads lex frames []
  | word {t : String} {ts : List String} (h : Phrase lex frames (t :: ts) 0 0)
      (hrest : Reads lex frames ts) : Reads lex frames (t :: ts)
  | number {t : String} {ts : List String} {c v : ℕ} (h : Phrase lex frames (t :: ts) (c + 1) v)
      (hv : printable v = true) (hrest : Reads lex frames (ts.drop c)) : Reads lex frames (t :: ts)

/-! ## Tokens -/

theorem digitOf_none {lex : Lexicon} {t : String} :
    digitOf lex t = .ok none ↔ Plain lex t := by
  unfold digitOf Plain
  dsimp only
  split
  · rename_i h
    simp [map_eq_ok, h]
  · rename_i h
    simp [h]

theorem digitOf_some {lex : Lexicon} {t : String} {n : ℕ} :
    digitOf lex t = .ok (some n) ↔ Numeral lex t n := by
  unfold digitOf Numeral
  dsimp only
  split
  · rename_i h
    simp only [map_eq_ok, h, true_and, intOfText_of_isdigit h]
    cases hm : (lex.canonicalToken "number_word" t).toList.mapM decimal? with
    | none => simp
    | some ds =>
      by_cases hl : ds.length ≤ maxStrDigits
      · simp [hl, eq_comm]
      · simp [hl]
  · rename_i h
    simp [h]

theorem peek_eq_ok {lex : Lexicon} {ts : List String} {o : Option ℕ} :
    peek lex ts = .ok o ↔ Ahead lex ts o := by
  cases ts with
  | nil =>
    constructor
    · intro h
      cases h
      exact .nil
    · intro h
      cases h
      rfl
  | cons t ts =>
    change digitOf lex t = .ok o ↔ _
    cases o with
    | none =>
      rw [digitOf_none]
      constructor
      · exact .plain
      · intro h
        cases h with
        | plain h => exact h
    | some n =>
      rw [digitOf_some]
      constructor
      · exact .numeral
      · intro h
        cases h with
        | numeral h => exact h

theorem Numeral.not_plain {lex : Lexicon} {t : String} {n : ℕ} (h : Numeral lex t n) :
    ¬ Plain lex t := by
  intro hp
  rw [Plain, h.1] at hp
  cases hp

theorem Phrase.consumed_pos {lex : Lexicon} {f c v n : ℕ} {ts : List String}
    (h : Phrase lex f ts c v) (hn : Ahead lex ts (some n)) : 0 < c := by
  cases hn with
  | numeral hn =>
    cases h with
    | plain hp => exact absurd hp hn.not_plain
    | scaledMore h hs ho hr hmore => omega
    | _ => omega

theorem Phrase.value_eq_zero {lex : Lexicon} {f c v : ℕ} {ts : List String}
    (h : Phrase lex f ts c v) (hc : c = 0) : v = 0 := by
  cases h with
  | plain _ => rfl
  | _ => omega

/-! ## The parser derives the grammar -/

theorem phrase_of_parse {lex : Lexicon} {f : ℕ} {ts : List String} {c v : ℕ}
    (h : parseNumber lex f ts = .ok (c, v)) : Phrase lex f ts c v := by
  induction f generalizing ts c v with
  | zero => cases h
  | succ f ih =>
    cases ts with
    | nil => cases h
    | cons t ts =>
      rw [parseNumber, bind_eq_ok] at h
      obtain ⟨d, hd, h⟩ := h
      cases d with
      | none =>
        cases h
        exact .plain (digitOf_none.1 hd)
      | some n =>
        have hn : Numeral lex t n := digitOf_some.1 hd
        cases hs : ts.head?.bind scale? with
        | some s =>
          simp only [hs] at h
          obtain ⟨o, ho, h⟩ := bind_eq_ok.1 h
          have ho := peek_eq_ok.1 ho
          cases o with
          | none =>
            cases h
            exact .scaled hn hs ho (by rintro r ⟨⟩)
          | some r =>
            by_cases hr : r < s
            · simp only [hr, if_true] at h
              obtain ⟨⟨c', v'⟩, hmore, h⟩ := bind_eq_ok.1 h
              have hmore := ih hmore
              have hc : c' ≠ 0 := Nat.ne_of_gt (hmore.consumed_pos ho)
              simp only [hc, if_false] at h
              cases h
              exact .scaledMore hn hs ho hr hmore
            · simp only [hr, if_false] at h
              cases h
              refine .scaled hn hs ho ?_
              rintro r' ⟨⟩
              omega
        | none =>
          simp only [hs] at h
          by_cases ht : Tens n
          · rw [if_pos ht] at h
            obtain ⟨o, ho, h⟩ := bind_eq_ok.1 h
            have ho := peek_eq_ok.1 ho
            cases o with
            | none =>
              cases h
              exact .tens hn hs ht ho (by rintro m ⟨⟩)
            | some m =>
              by_cases hm : 1 ≤ m ∧ m ≤ 9
              · simp only [hm, and_self, if_true] at h
                cases h
                exact .unit hn hs ht ho hm
              · simp only [hm, if_false] at h
                cases h
                refine .tens hn hs ht ho ?_
                rintro m' ⟨⟩
                exact hm
          · rw [if_neg ht] at h
            cases h
            exact .bare hn hs ht

theorem parse_of_phrase {lex : Lexicon} {f : ℕ} {ts : List String} {c v : ℕ}
    (h : Phrase lex f ts c v) : parseNumber lex f ts = .ok (c, v) := by
  induction h with
  | plain h =>
    rw [parseNumber, digitOf_none.2 h]
    rfl
  | bare h hs ht =>
    rw [parseNumber, digitOf_some.2 h, bind_eq_ok]
    refine ⟨_, rfl, ?_⟩
    simp only [hs]
    exact if_neg ht
  | tens h hs ht ho hu =>
    rename_i o
    rw [parseNumber, digitOf_some.2 h, bind_eq_ok]
    refine ⟨_, rfl, ?_⟩
    simp only [hs]
    rw [if_pos ht, peek_eq_ok.2 ho, bind_eq_ok]
    refine ⟨_, rfl, ?_⟩
    cases o with
    | none => rfl
    | some m => exact if_neg (hu m rfl)
  | unit h hs ht ho hu =>
    rw [parseNumber, digitOf_some.2 h, bind_eq_ok]
    refine ⟨_, rfl, ?_⟩
    simp only [hs]
    rw [if_pos ht, peek_eq_ok.2 ho, bind_eq_ok]
    exact ⟨_, rfl, if_pos hu⟩
  | scaled h hs ho hr =>
    rename_i o
    rw [parseNumber, digitOf_some.2 h, bind_eq_ok]
    refine ⟨_, rfl, ?_⟩
    simp only [hs]
    rw [peek_eq_ok.2 ho, bind_eq_ok]
    refine ⟨_, rfl, ?_⟩
    cases o with
    | none => rfl
    | some r =>
      have hr : ¬ r < _ := Nat.not_lt.2 (hr r rfl)
      simp only [hr, if_false]
      rfl
  | scaledMore h hs ho hr hmore ih =>
    have hc := Nat.ne_of_gt (hmore.consumed_pos ho)
    rw [parseNumber, digitOf_some.2 h, bind_eq_ok]
    refine ⟨_, rfl, ?_⟩
    simp only [hs]
    rw [peek_eq_ok.2 ho, bind_eq_ok]
    refine ⟨_, rfl, ?_⟩
    simp only [hr, if_true, ih]
    rw [bind_eq_ok]
    refine ⟨_, rfl, ?_⟩
    simp only [hc, if_false]
    rfl

theorem parseNumber_eq_ok {lex : Lexicon} {f : ℕ} {ts : List String} {c v : ℕ} :
    parseNumber lex f ts = .ok (c, v) ↔ Phrase lex f ts c v :=
  ⟨phrase_of_parse, parse_of_phrase⟩

/-! ## The loop -/

theorem numberTokens_skip (lex : Lexicon) (frames k : ℕ) (ts : List String) :
    numberTokens lex frames k ts = numberTokens lex frames 0 (ts.drop k) := by
  induction ts generalizing k with
  | nil => cases k <;> rfl
  | cons t ts ih =>
    cases k with
    | zero => rfl
    | succ k => exact ih k

theorem Reads.of_returns {lex : Lexicon} {frames : ℕ} {ts : List String}
    (h : Returns (numberTokens lex frames 0 ts)) : Reads lex frames ts := by
  induction hl : ts.length using Nat.strong_induction_on generalizing ts with
  | _ l ih =>
    cases ts with
    | nil => exact .nil
    | cons t ts =>
      rw [numberTokens, returns_bind] at h
      obtain ⟨⟨c, v⟩, hp, h⟩ := h
      have hp := parseNumber_eq_ok.1 hp
      simp only [List.length_cons] at hl
      by_cases hc : c = 0
      · simp only [hc, if_true, returns_bind] at h
        obtain ⟨out, hrest, _⟩ := h
        have hv : v = 0 := hp.value_eq_zero hc
        subst hc hv
        exact .word hp (ih ts.length (by omega) ⟨out, hrest⟩ rfl)
      · simp only [hc, if_false, returns_bind] at h
        obtain ⟨text, htext, out, hrest, _⟩ := h
        obtain ⟨k, rfl⟩ : ∃ k, c = k + 1 := ⟨c - 1, by omega⟩
        have hv : printable v = true := (returns_textOfNat (δ := DomainError) v).1 ⟨text, htext⟩
        rw [Nat.add_sub_cancel, numberTokens_skip] at hrest
        have hlen : (ts.drop k).length < l := by
          rw [List.length_drop]
          omega
        exact .number hp hv (ih _ hlen ⟨out, hrest⟩ rfl)

theorem Reads.returns {lex : Lexicon} {frames : ℕ} {ts : List String} (h : Reads lex frames ts) :
    Returns (numberTokens lex frames 0 ts) := by
  induction h with
  | nil => exact ⟨[], rfl⟩
  | word h _ ih =>
    obtain ⟨out, hout⟩ := ih
    rw [numberTokens, returns_bind]
    refine ⟨(0, 0), parseNumber_eq_ok.2 h, ?_⟩
    simp only [if_true, returns_bind]
    exact ⟨out, hout, returns_pure _⟩
  | @number t ts c v h hv _ ih =>
    obtain ⟨out, hout⟩ := ih
    obtain ⟨text, htext⟩ := (returns_textOfNat (δ := DomainError) v).2 hv
    rw [numberTokens, returns_bind]
    refine ⟨(c + 1, v), parseNumber_eq_ok.2 h, ?_⟩
    simp only [Nat.succ_ne_zero, if_false, returns_bind]
    refine ⟨text, htext, out, ?_, returns_pure _⟩
    rw [Nat.add_sub_cancel, numberTokens_skip]
    exact hout

theorem returns_numberWord (lex : Lexicon) (frames : ℕ) (v : String) :
    Returns (numberWord lex frames v) ↔ Reads lex frames (numberWords lex v) := by
  rw [numberWord, returns_map]
  exact ⟨Reads.of_returns, Reads.returns⟩

end IeltsHub.NumberGrammar
