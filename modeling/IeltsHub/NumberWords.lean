import IeltsHub.NumberReading
import IeltsHub.LexiconLaw

set_option autoImplicit false

/-!
# Number words against the lexicon

Over a lexicon that knows the words of a cardinal, `_number_word` replaces the phrases, opens the
hyphens and reads the tokens as the parser over their values does.
-/
namespace IeltsHub.NumberWords
open PyText PyDict PlatformErrors QtypesLexicon QtypesNormalizers PhraseRewriting LexiconTables
  TextWords CardinalWords NumberReading

/-! ## What the words spell -/

theorem scale?_spell (t : Tok) : scale? t.spell = t.scale? := by
  cases t with
  | zero w => revert w; decide +kernel
  | unit u => revert u; decide +kernel
  | teen n => revert n; decide +kernel
  | tens n => revert n; decide +kernel
  | _ => decide +kernel

theorem spell_eq_and {t : Tok} (h : t.spell = "and") : t = .and := by
  cases t with
  | zero w => revert w; decide +kernel
  | unit u => revert u; decide +kernel
  | teen n => revert n; decide +kernel
  | tens n => revert n; decide +kernel
  | and => rfl
  | _ => revert h; decide +kernel

def unbroken (s : String) : Bool := !s.toList.isEmpty && s.toList.all (fun c => !isSpace c)

theorem isWord_of_unbroken {s : String} (h : unbroken s = true) : IsWord s := by
  simp only [unbroken, Bool.and_eq_true, Bool.not_eq_true', List.isEmpty_eq_false_iff,
    List.all_eq_true] at h
  exact h

theorem isWord_tok (t : Tok) : IsWord t.spell := by
  apply isWord_of_unbroken
  cases t with
  | zero w => revert w; decide +kernel
  | unit u => revert u; decide +kernel
  | teen n => revert n; decide +kernel
  | tens n => revert n; decide +kernel
  | _ => decide +kernel

theorem splitOn_tok (t : Tok) : splitOn '-' t.spell = [t.spell] := by
  cases t with
  | zero w => revert w; decide +kernel
  | unit u => revert u; decide +kernel
  | teen n => revert n; decide +kernel
  | tens n => revert n; decide +kernel
  | _ => decide +kernel

theorem isWord_word (w : Word) : IsWord w.spell := by
  cases w with
  | plain t => exact isWord_tok t
  | compound t u => apply isWord_of_unbroken; revert t u; decide +kernel

theorem splitOn_word (w : Word) : splitOn '-' w.spell = w.toks.map Tok.spell := by
  cases w with
  | plain t => exact splitOn_tok t
  | compound t u => revert t u; decide +kernel

/-! ## A lexicon that reads them -/

structure ReadsCardinals (lex : Lexicon) : Prop where
  digit : ∀ t : Tok, digitOf lex t.spell = .ok t.value?
  unit : ∀ t : Tok, t.value? = none → lex.canonicalToken "unit_form" t.spell = t.spell
  pair : ∀ w v : Word, gramLookup lex "number_word" [w.spell, v.spell] =
    (phrase? w v).map (fun t => [t.spell])
  single : ∀ w : Word, gramLookup lex "number_word" [w.spell] = none ∨
    gramLookup lex "number_word" [w.spell] = some [w.spell]
  longest : lex.maxPhraseLen = 2

section
variable {lex : Lexicon} {ts : List Tok} {frames : ℕ}

/-! ### Its phrases -/

theorem rewrite_one {lookup : List String → Option (List String)} {w : String}
    (h : lookup [w] = none ∨ lookup [w] = some [w]) (ws : List String)
    (hsize : longest lookup (w :: ws) (min 2 (w :: ws).length) = longest lookup (w :: ws) 1) :
    rewrite lookup 2 0 (w :: ws) = w :: rewrite lookup 2 0 ws := by
  have hone : longest lookup (w :: ws) 1 = none ∨
      longest lookup (w :: ws) 1 = some (1, [w]) := by
    rcases h with h | h
    · refine .inl ?_
      rw [longest, List.take_succ_cons, List.take_zero, h]
      rfl
    · refine .inr ?_
      rw [longest, List.take_succ_cons, List.take_zero, h]
  rw [rewrite, hsize]
  rcases hone with hone | hone
  · rw [hone]
  · rw [hone]
    rfl

theorem rewrite_merge (h : ReadsCardinals lex) (ws : List Word) :
    rewrite (gramLookup lex "number_word") 2 0 (ws.map Word.spell) =
      (merge ws).map Word.spell := by
  induction ws using merge.induct with
  | case1 => rfl
  | case2 w =>
    exact rewrite_one (h.single w) [] rfl
  | case3 w v ws t hphrase ih =>
    have hpair := h.pair w v
    rw [hphrase] at hpair
    rw [merge, hphrase]
    dsimp only
    rw [List.map_cons, List.map_cons, List.map_cons, ← ih, rewrite]
    have hlong : longest (gramLookup lex "number_word") (w.spell :: v.spell :: ws.map Word.spell)
        (min 2 (w.spell :: v.spell :: ws.map Word.spell).length) = some (2, [t.spell]) := by
      rw [min_eq_left (by simp)]
      rw [longest, List.take_succ_cons, List.take_succ_cons, List.take_zero, hpair]
      rfl
    rw [hlong]
    rfl
  | case4 w v ws hphrase ih =>
    have hpair := h.pair w v
    rw [hphrase] at hpair
    rw [merge, hphrase]
    dsimp only
    change rewrite _ 2 0 (w.spell :: (v :: ws).map Word.spell) =
      w.spell :: (merge (v :: ws)).map Word.spell
    rw [← ih]
    apply rewrite_one (h.single w)
    rw [List.map_cons, min_eq_left (by simp)]
    apply longest_of_none (by decide)
    intro j hj hj'
    have htwo : j = 2 := by omega
    subst htwo
    exact hpair

theorem numberWords_eq (h : ReadsCardinals lex) (ws : List Word) :
    numberWords lex (join " " (ws.map Word.spell)) = (tokens ws).map Tok.spell := by
  have hwords : ∀ s ∈ ws.map Word.spell, IsWord s := by
    intro s hs
    obtain ⟨w, _, rfl⟩ := List.mem_map.1 hs
    exact isWord_word w
  unfold numberWords tokens
  rw [split_join_words hwords, applyPhrases_eq, h.longest, rewrite_merge h, List.flatMap_map,
    List.map_flatMap]
  congr 1
  funext w
  exact splitOn_word w

/-! ### Its parser -/

theorem head_scale (ts : List Tok) :
    (ts.map Tok.spell).head?.bind scale? = scaleNext? ts := by
  cases ts with
  | nil => rfl
  | cons t ts => exact scale?_spell t

theorem andSkip_spell (ts : List Tok) : andSkip (ts.map Tok.spell) = andCount ts.tail := by
  unfold andSkip
  rw [← List.map_tail]
  cases ts.tail with
  | nil => rfl
  | cons t us =>
    rw [List.map_cons, List.head?_cons]
    by_cases ht : t = .and
    · subst ht
      rfl
    · rw [if_neg (fun h => ht (spell_eq_and (Option.some.inj h)))]
      cases t with
      | and => exact absurd rfl ht
      | _ => rfl

theorem afterScale_spell (ts : List Tok) :
    afterScale (ts.map Tok.spell) = (dropAnd ts.tail).map Tok.spell := by
  unfold afterScale
  rw [andSkip_spell, ← List.map_tail, ← List.map_drop]
  cases ts.tail with
  | nil => rfl
  | cons t us => cases t <;> rfl

theorem peek_spell (h : ReadsCardinals lex) (ts : List Tok) :
    peek lex (ts.map Tok.spell) = .ok (first? ts) := by
  cases ts with
  | nil => rfl
  | cons t ts => exact h.digit t

theorem first?_ne_nil {n : ℕ} (h : first? ts = some n) : ts ≠ [] := by
  rintro rfl
  cases h

theorem parse_first_pos {n : ℕ} (h : first? ts = some n) : (parse ts).1 ≠ 0 := by
  cases ts with
  | nil => cases h
  | cons t ts => exact Nat.ne_of_gt (parse_pos (show t.value? = some n from h))

theorem parseNumber_eq (h : ReadsCardinals lex) (hne : ts ≠ []) (hf : ts.length ≤ frames) :
    parseNumber lex frames (ts.map Tok.spell) = .ok (parse ts) := by
  induction frames generalizing ts with
  | zero => exact absurd (List.length_eq_zero_iff.1 (Nat.le_zero.1 hf)) hne
  | succ frames ih =>
    cases ts with
    | nil => exact absurd rfl hne
    | cons t ts =>
      have hlen : ts.length ≤ frames := Nat.le_of_succ_le_succ hf
      rw [List.map_cons, parseNumber, h.digit, head_scale, afterScale_spell, andSkip_spell,
        peek_spell h, peek_spell h]
      dsimp only [bind, Except.bind, pure, Except.pure]
      cases hv : t.value? with
      | none => rw [parse_word hv]
      | some n =>
        dsimp only
        cases hs : scaleNext? ts with
        | some s =>
          dsimp only
          cases hr : first? (dropAnd ts.tail) with
          | none => rw [parse_scaled_alone hv hs (fun r h => by rw [hr] at h; cases h)]
          | some r =>
            dsimp only
            by_cases hlt : r < s
            · have hdrop := length_dropAnd ts.tail
              have htail := List.length_tail (l := ts)
              rw [if_pos hlt, ih (first?_ne_nil hr) (by omega), parse_scaled hv hs hr hlt]
              dsimp only
              rw [if_neg (parse_first_pos hr)]
            · have hge : ∀ r, first? (dropAnd ts.tail) = some r → s ≤ r := by
                intro r' h
                rw [hr] at h
                exact Option.some.inj h ▸ Nat.not_lt.1 hlt
              rw [if_neg hlt, parse_scaled_alone hv hs hge]
        | none =>
          dsimp only
          by_cases ht : Tens n
          · rw [if_pos ht]
            cases hu : first? ts with
            | none => rw [parse_alone hv hs (fun _ u h => by rw [hu] at h; cases h)]
            | some u =>
              dsimp only
              by_cases hrange : 1 ≤ u ∧ u ≤ 9
              · rw [if_pos hrange, parse_unit hv hs ht hu hrange]
              · have hno : Tens n → ∀ v, first? ts = some v → ¬ (1 ≤ v ∧ v ≤ 9) := by
                  intro _ v h
                  rw [hu] at h
                  exact Option.some.inj h ▸ hrange
                rw [if_neg hrange, parse_alone hv hs hno]
          · rw [if_neg ht, parse_alone hv hs (fun h => absurd h ht)]

/-! ### Its loop -/

theorem printable_parse (hlen : ts.length ≤ 1000) : printable (parse ts).2 = true := by
  have hbound : ∀ m k : ℕ, m ≤ 1000000 → k ≤ 1000000 → m * k + m + 9 ≤ 10 ^ 13 := by
    intro m k hm hk
    have hprod := Nat.mul_le_mul hm hk
    norm_num at hprod ⊢
    omega
  have hvalue := parse_value_le hbound ts
  have hlt : (parse ts).2 < 10 ^ maxStrDigits := by
    calc (parse ts).2 ≤ ts.length * 10 ^ 13 := hvalue
      _ ≤ 1000 * 10 ^ 13 := Nat.mul_le_mul_right _ hlen
      _ < 10 ^ 17 := by norm_num
      _ ≤ 10 ^ maxStrDigits := Nat.pow_le_pow_right (by decide) (by decide)
  unfold printable
  rw [decide_eq_true_eq]
  exact (Nat.length_toDigits_le_iff (by decide) (by decide)).2 hlt

theorem textOfNat_parse (hlen : ts.length ≤ 1000) :
    (textOfNat (parse ts).2 : Except Raised String) = .ok (digits (parse ts).2) := by
  unfold textOfNat
  rw [if_pos (printable_parse hlen)]
  rfl

theorem numberTokens_eq (h : ReadsCardinals lex) (hlen : ts.length ≤ 1000)
    (hf : ts.length ≤ frames) (skip : ℕ) :
    numberTokens lex frames skip (ts.map Tok.spell) = .ok (NumberReading.read skip ts) := by
  induction ts generalizing skip with
  | nil => cases skip <;> rfl
  | cons t ts ih =>
    rw [List.length_cons] at hlen hf
    have ih := ih (by omega) (by omega)
    cases skip with
    | succ skip => exact ih skip
    | zero =>
      have hparse : parseNumber lex frames (t.spell :: ts.map Tok.spell) = .ok (parse (t :: ts)) :=
        parseNumber_eq h (List.cons_ne_nil t ts) hf
      rw [List.map_cons, numberTokens, hparse]
      dsimp only [bind, Except.bind, pure, Except.pure]
      simp only [ih]
      cases hv : t.value? with
      | none =>
        have hzero : (parse (t :: ts)).1 = 0 := by rw [parse_word hv]
        rw [if_pos hzero, h.unit t hv, NumberReading.read, if_pos hzero]
      | some n =>
        have hpos : (parse (t :: ts)).1 ≠ 0 := Nat.ne_of_gt (parse_pos hv)
        have htext : (textOfNat (parse (t :: ts)).2 : Except Raised String) =
            .ok (digits (parse (t :: ts)).2) := textOfNat_parse hlen
        rw [if_neg hpos, htext, NumberReading.read, if_neg hpos]

theorem numberWord_eq (h : ReadsCardinals lex) {ws : List Word}
    (hlen : (tokens ws).length ≤ 1000) (hf : (tokens ws).length ≤ frames) :
    numberWord lex frames (join " " (ws.map Word.spell)) =
      .ok (join " " (NumberReading.read 0 (tokens ws))) := by
  unfold numberWord
  rw [numberWords_eq h, numberTokens_eq h hlen hf]
  rfl

end

/-! ## The shipped lexicon -/

def vocabulary : List Tok :=
  (List.finRange 3).map .zero ++ (List.finRange 9).map .unit ++ (List.finRange 10).map .teen ++
    (List.finRange 8).map .tens ++
    [.hundred, .thousand, .million, .oneHundred, .oneThousand, .and, .article]

theorem mem_vocabulary (t : Tok) : t ∈ vocabulary := by
  cases t <;> simp [vocabulary]

def phraseRows : List (List String × List String) :=
  [(["one", "hundred"], ["100"]), (["100"], ["100"]), (["a", "hundred"], ["100"]),
    (["one", "thousand"], ["1000"]), (["1000"], ["1000"]), (["a", "thousand"], ["1000"]),
    (["a", "half"], ["0.5"]), (["0.5"], ["0.5"]), (["a", "quarter"], ["0.25"]),
    (["0.25"], ["0.25"])]

def Tabulated (lex : Lexicon) : Prop :=
  (lex.phrase.get? "number_word").map Dict.entries = some phraseRows ∧ lex.maxPhraseLen = 2 ∧
    ∀ t ∈ vocabulary, digitOf lex t.spell = .ok t.value? ∧
      (t.value? = none → lex.canonicalToken "unit_form" t.spell = t.spell)

instance (lex : Lexicon) : Decidable (Tabulated lex) := inferInstanceAs (Decidable (_ ∧ _))

theorem shipped_tabulated : Tabulated (Lexicon.ofEntries LexiconLaw.shipped) := by
  decide +kernel

example : ¬ Tabulated {} := by decide +kernel

/-! ### The phrases among the words -/

theorem forall_word {p : Word → Prop} (hplain : ∀ t ∈ vocabulary, p (.plain t))
    (hcompound : ∀ t u, p (.compound t u)) (w : Word) : p w := by
  cases w with
  | plain t => exact hplain t (mem_vocabulary t)
  | compound t u => exact hcompound t u

theorem spell_parts (w : Word) : (w.spell = "one" ↔ w = .plain (.unit 0)) ∧
    (w.spell = "a" ↔ w = .plain .article) ∧ (w.spell = "hundred" ↔ w = .plain .hundred) ∧
    (w.spell = "thousand" ↔ w = .plain .thousand) ∧ w.spell ≠ "half" ∧ w.spell ≠ "quarter" ∧
    w.spell ≠ "0.5" ∧ w.spell ≠ "0.25" := by
  revert w
  apply forall_word
  · decide +kernel
  · decide +kernel

theorem lookup_rows {table : Dict (List String) (List String)} (h : table.entries = phraseRows)
    (gram : List String) :
    table.get? gram = (phraseRows.find? (fun e => e.1 = gram)).map Prod.snd := by
  unfold Dict.get?
  rw [h]

theorem reads_of_tabulated {lex : Lexicon} (h : Tabulated lex) : ReadsCardinals lex := by
  obtain ⟨hrows, hlongest, hwords⟩ := h
  obtain ⟨table, htable, hentries⟩ := Option.map_eq_some_iff.1 hrows
  have hlookup : ∀ gram, gramLookup lex "number_word" gram =
      (phraseRows.find? (fun e => e.1 = gram)).map Prod.snd := by
    intro gram
    unfold gramLookup
    rw [htable, Option.getD_some, lookup_rows hentries]
  refine ⟨fun t => (hwords t (mem_vocabulary t)).1, fun t => (hwords t (mem_vocabulary t)).2,
    fun w v => ?_, fun w => ?_, hlongest⟩
  · obtain ⟨hone, ha, _, _, _, _, _, _⟩ := spell_parts w
    obtain ⟨_, _, hhundred, hthousand, hhalf, hquarter, _, _⟩ := spell_parts v
    rw [hlookup]
    unfold phrase? phraseRows
    simp only [List.find?_cons, List.cons.injEq, and_true, eq_comm (b := w.spell),
      eq_comm (b := v.spell), hone, ha, hhundred, hthousand, hhalf, hquarter]
    have hcent : Tok.oneHundred.spell = "100" := rfl
    have hmille : Tok.oneThousand.spell = "1000" := rfl
    by_cases hw : w = .plain (.unit 0) ∨ w = .plain .article
    · rw [if_pos hw]
      by_cases hv : v = .plain .hundred
      · rcases hw with rfl | rfl <;> simp [hv, hcent]
      · by_cases hv' : v = .plain .thousand
        · rcases hw with rfl | rfl <;> simp [hv', hmille]
        · simp [hv, hv']
    · rw [if_neg hw]
      rw [not_or] at hw
      simp [hw.1, hw.2]
  · obtain ⟨_, _, _, _, _, _, hhalf, hquarter⟩ := spell_parts w
    rw [hlookup]
    unfold phraseRows
    simp only [List.find?_cons, List.cons.injEq, and_true, eq_comm (b := w.spell), hhalf, hquarter]
    by_cases hcent : w.spell = "100"
    · exact .inr (by simp [hcent])
    · by_cases hmille : w.spell = "1000"
      · exact .inr (by simp [hmille])
      · exact .inl (by simp [hcent, hmille])

theorem shipped_reads : ReadsCardinals (Lexicon.ofEntries LexiconLaw.shipped) :=
  reads_of_tabulated shipped_tabulated

end IeltsHub.NumberWords
