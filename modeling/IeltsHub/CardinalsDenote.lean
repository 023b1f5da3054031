import IeltsHub.CardinalReading
import IeltsHub.NumberWords

set_option autoImplicit false

/-!
# Number words denote their value

A spelled cardinal comes out as its digits exactly when every part before a scale word is read with
it, and as its words one by one when none is read with the next. Hundreds and a further number
before a scale word come out as the digits of another number.
-/
namespace IeltsHub.CardinalsDenote
open PyText QtypesLexicon QtypesNormalizers TextWords CardinalWords NumberReading NumberWords
  CardinalReading

def text (c : CardinalWords.Cardinal) : String := join " " (c.words.map Word.spell)

def Uncombined (lex : Lexicon) (frames : ℕ) (v out : String) : Prop :=
  ∃ parts, List.Forall₂ (fun t part => numberWord lex frames t = .ok part) (numberWords lex v)
    parts ∧ out = join " " parts

/-- The digits of the value, or the tokens uncombined; never the digits of another number. -/
def Denotes (lex : Lexicon) (frames : ℕ) (c : CardinalWords.Cardinal) (out : String) : Prop :=
  (out = digits c.value ∨ Uncombined lex frames (text c) out) ∧
    ∀ n, out = digits n → n = c.value

/-! ## How long a cardinal is -/

def size (ws : List Word) : ℕ := (ws.flatMap Word.toks).length

theorem size_append (ws us : List Word) : size (ws ++ us) = size ws + size us := by
  unfold size
  rw [List.flatMap_append, List.length_append]

theorem size_cons (w : Word) (ws : List Word) : size (w :: ws) = w.toks.length + size ws := by
  unfold size
  rw [List.flatMap_cons, List.length_append]

theorem length_toks_pos (w : Word) : 0 < w.toks.length := by
  cases w with
  | plain t => exact Nat.one_pos
  | compound t u => exact Nat.two_pos

theorem tokens_pos {ws : List Word} (h : ws ≠ []) : 0 < (tokens ws).length := by
  cases ws with
  | nil => exact absurd rfl h
  | cons w ws =>
    have hw := length_toks_pos w
    cases ws with
    | nil =>
      change 0 < (w.toks ++ []).length
      rw [List.append_nil]
      exact hw
    | cons v ws =>
      cases hphrase : phrase? w v with
      | some t =>
        rw [tokens_phrase hphrase]
        exact Nat.succ_pos _
      | none =>
        rw [tokens_apart hphrase, List.length_append]
        omega

theorem tokens_cardinal_pos (c : CardinalWords.Cardinal) : 0 < (tokens c.words).length := by
  cases c with
  | zero w => exact Nat.one_pos
  | small t => exact (thousands_end t).2.length_pos
  | scaled m rest =>
    apply tokens_pos
    cases rest with
    | none => simp [Cardinal.words]
    | some rest => simp [Cardinal.words]

theorem length_tokens_le (ws : List Word) : (tokens ws).length ≤ size ws := by
  induction ws using merge.induct with
  | case1 => exact le_rfl
  | case2 w => exact le_rfl
  | case3 w v ws t hphrase ih =>
    have hw := length_toks_pos w
    rw [tokens_phrase hphrase, List.length_cons, size_cons, size_cons]
    omega
  | case4 w v ws hphrase ih =>
    rw [tokens_apart hphrase, List.length_append, size_cons w]
    omega

theorem size_below (r : Below100) : size r.words ≤ 2 := by
  cases r with
  | compound t u hyphen => cases hyphen <;> exact le_rfl
  | _ => exact Nat.le_succ 1

theorem size_and (b : Bool) : size (andWords b) ≤ 1 := by
  cases b <;> decide

theorem size_group (g : Group) : size g.words ≤ 5 := by
  cases g with
  | below r =>
    have := size_below r
    simp only [Group.words]
    omega
  | hundreds h rest =>
    have hcount : size h.words = 1 := by cases h <;> rfl
    cases rest with
    | none =>
      simp only [Group.words, size_append, hcount]
      decide
    | some rest =>
      have := size_below rest.2
      have := size_and rest.1
      simp only [Group.words, size_append, size_cons, hcount, Word.toks, List.length_singleton]
      omega

theorem size_multiplier (m : Multiplier) : size m.words ≤ 5 := by
  cases m with
  | group g => exact size_group g
  | article => decide

theorem size_thousands (t : Thousands) : size t.words ≤ 12 := by
  cases t with
  | group g => exact (size_group g).trans (by decide)
  | scaled m rest =>
    have := size_multiplier m
    have hscale : size [.plain .thousand] = 1 := rfl
    cases rest with
    | none =>
      simp only [Thousands.words, size_append, hscale]
      omega
    | some rest =>
      have := size_group rest.2
      have := size_and rest.1
      simp only [Thousands.words, size_append, size_cons, Word.toks, List.length_singleton]
      omega

theorem size_cardinal (c : CardinalWords.Cardinal) : size c.words ≤ 19 := by
  cases c with
  | zero w => exact (by decide : 1 ≤ 19)
  | small t => exact (size_thousands t).trans (by decide)
  | scaled m rest =>
    have := size_multiplier m
    have hscale : size [.plain .million] = 1 := rfl
    cases rest with
    | none =>
      simp only [Cardinal.words, size_append, hscale]
      omega
    | some rest =>
      have := size_thousands rest.2
      have := size_and rest.1
      simp only [Cardinal.words, size_append, size_cons, Word.toks, List.length_singleton]
      omega

/-! ## The words that come out -/

theorem isWord_digits (n : ℕ) : IsWord (digits n) := by
  unfold IsWord digits
  rw [String.toList_ofList]
  refine ⟨Nat.toDigits_ne_nil, fun c hc => ?_⟩
  have hdigit : c.isDigit = true := Nat.isDigit_of_mem_toDigits (by decide) (by decide) hc
  by_contra hspace
  have hcode := isSpace_codes (Bool.eq_true_of_not_eq_false hspace)
  simp only [Char.isDigit, Bool.and_eq_true, decide_eq_true_eq] at hdigit
  have hlow : 48 ≤ c.toNat := hdigit.1
  have hhigh : c.toNat ≤ 57 := hdigit.2
  simp only [List.mem_cons, List.not_mem_nil, or_false] at hcode
  omega

theorem isWord_alone (t : Tok) : IsWord (Tok.alone t) := by
  unfold Tok.alone
  cases t.value? with
  | some n => exact isWord_digits n
  | none => exact isWord_tok t

theorem isWord_read {s : String} {skip : ℕ} {ts : List Tok}
    (h : s ∈ NumberReading.read skip ts) : IsWord s := by
  induction ts generalizing skip with
  | nil => cases skip <;> cases h
  | cons t ts ih =>
    cases skip with
    | succ skip => exact ih h
    | zero =>
      rw [NumberReading.read] at h
      split at h
      · rcases List.mem_cons.1 h with rfl | h
        · exact isWord_tok t
        · exact ih h
      · rcases List.mem_cons.1 h with rfl | h
        · exact isWord_digits _
        · exact ih h

theorem join_inj {ws us : List String} (hw : ∀ s ∈ ws, IsWord s) (hu : ∀ s ∈ us, IsWord s)
    (h : join " " ws = join " " us) : ws = us := by
  rw [← split_join_words hw, h, split_join_words hu]

theorem join_singleton (s : String) : join " " [s] = s := by
  unfold join
  simp [List.intercalate]

section
variable {lex : Lexicon} {frames : ℕ}

theorem numberWord_alone (h : ReadsCardinals lex) (hf : 1 ≤ frames) (t : Tok) :
    numberWord lex frames t.spell = .ok (Tok.alone t) := by
  have hshort : (tokens [.plain t]).length ≤ 1000 := Nat.le_add_left 1 999
  have hone := numberWord_eq h hshort hf
  change numberWord lex frames (join " " [t.spell]) = _ at hone
  rw [join_singleton] at hone
  rw [hone]
  change Except.ok (join " " (NumberReading.read 0 [t])) = _
  rw [read_of_apart (List.isChain_singleton t), List.map_singleton, join_singleton]

theorem uncombined_iff (h : ReadsCardinals lex) (hf : 1 ≤ frames) (c : CardinalWords.Cardinal)
    (out : String) : Uncombined lex frames (text c) out ↔
      out = join " " ((tokens c.words).map Tok.alone) := by
  unfold Uncombined text
  rw [numberWords_eq h]
  constructor
  · rintro ⟨parts, hparts, rfl⟩
    have heq : parts = (tokens c.words).map Tok.alone := by
      rw [List.forall₂_map_left_iff] at hparts
      generalize tokens c.words = ts at hparts
      induction hparts with
      | nil => rfl
      | @cons t part ts parts hpart _ ih =>
        rw [numberWord_alone h hf] at hpart
        rw [List.map_cons, ih, Except.ok.inj hpart]
    rw [heq]
  · rintro rfl
    refine ⟨_, ?_, rfl⟩
    rw [List.forall₂_map_left_iff, List.forall₂_map_right_iff]
    exact List.forall₂_same.2 (fun t _ => numberWord_alone h hf t)

theorem join_ne_digits {ws : List String} (hw : ∀ s ∈ ws, IsWord s) (hlen : 2 ≤ ws.length)
    (n : ℕ) : join " " ws ≠ digits n := by
  intro h
  have hone : ∀ s ∈ [digits n], IsWord s := by
    intro s hs
    rw [List.mem_singleton.1 hs]
    exact isWord_digits n
  have heq : ws = [digits n] := join_inj hw hone (by rw [join_singleton, h])
  rw [heq] at hlen
  exact absurd hlen (Nat.not_succ_le_self 1)

theorem read_denotes (h : ReadsCardinals lex) (hf : 1 ≤ frames) (c : CardinalWords.Cardinal) :
    (Denotes lex frames c (join " " (NumberReading.read 0 (tokens c.words))) ↔
        Cardinal.outcome c = .whole ∨ Apart (tokens c.words)) ∧
      ((∃ n, n ≠ c.value ∧ join " " (NumberReading.read 0 (tokens c.words)) = digits n) ↔
        Cardinal.outcome c = .misread) := by
  have hturns := cardinal_turns c
  have hwords : ∀ s ∈ NumberReading.read 0 (tokens c.words), IsWord s := fun _ hs => isWord_read hs
  have halone : ∀ s ∈ (tokens c.words).map Tok.alone, IsWord s := by
    intro s hs
    obtain ⟨t, _, rfl⟩ := List.mem_map.1 hs
    exact isWord_alone t
  have hne : tokens c.words ≠ [] := List.ne_nil_of_length_pos (tokens_cardinal_pos c)
  unfold Denotes
  rw [uncombined_iff h hf]
  cases ho : Cardinal.outcome c with
  | whole =>
    rw [ho] at hturns
    have hparse : parse (tokens c.words) = _ := hturns
    rw [read_of_whole hne (by rw [hparse]), hparse, join_singleton]
    refine ⟨⟨fun _ => .inl rfl, fun _ => ⟨.inl rfl, fun n hn => (digits_injective hn).symm⟩⟩, ?_⟩
    simp only [reduceCtorEq, iff_false, not_exists, not_and]
    exact fun n hn heq => hn (digits_injective heq).symm
  | misread =>
    rw [ho] at hturns
    obtain ⟨htwo, w, hw, hparse⟩ := hturns
    have hread := read_of_whole hne (by rw [hparse])
    rw [hread, hparse, join_singleton]
    refine ⟨⟨fun hd => absurd (hd.2 w rfl) (Nat.ne_of_lt hw), ?_⟩,
      ⟨fun _ => rfl, fun _ => ⟨w, Nat.ne_of_lt hw, rfl⟩⟩⟩
    rintro (habs | hapart)
    · cases habs
    · -- the tokens would come out one by one
      have hlen := congrArg List.length ((read_of_apart hapart).symm.trans hread)
      rw [List.length_map, List.length_singleton] at hlen
      omega
  | broken =>
    rw [ho] at hturns
    obtain ⟨htwo, hlt⟩ := hturns
    have hread := two_le_length_read hlt htwo
    have hdigits := join_ne_digits hwords hread
    refine ⟨⟨?_, ?_⟩, ?_⟩
    · rintro ⟨hdone | hdone, _⟩
      · exact absurd hdone (hdigits _)
      · refine .inr ?_
        by_contra hapart
        have hshort := length_read_lt hapart
        rw [join_inj hwords halone hdone, List.length_map] at hshort
        exact Nat.lt_irrefl _ hshort
    · rintro (habs | hapart)
      · cases habs
      · exact ⟨.inr (by rw [read_of_apart hapart]), fun n hn => absurd hn (hdigits n)⟩
    · simp only [reduceCtorEq, iff_false, not_exists, not_and]
      exact fun n _ => hdigits n

end

/-- A cardinal denotes its value exactly when it is read whole or none of its tokens is read with
the next; it comes out as another number exactly when hundreds are crossed. -/
theorem number_words_denote_iff (c : CardinalWords.Cardinal) (frames : ℕ) (hf : 19 ≤ frames) :
    ∃ out, numberWord (Lexicon.ofEntries LexiconLaw.shipped) frames (text c) = .ok out ∧
      (Denotes (Lexicon.ofEntries LexiconLaw.shipped) frames c out ↔
        Cardinal.outcome c = .whole ∨ Apart (tokens c.words)) ∧
      ((∃ n, n ≠ c.value ∧ out = digits n) ↔ Cardinal.outcome c = .misread) := by
  have hlen := (length_tokens_le c.words).trans (size_cardinal c)
  exact ⟨_, numberWord_eq shipped_reads (hlen.trans (by decide)) (hlen.trans hf),
    read_denotes shipped_reads (Nat.le_trans (by decide) hf) c⟩

def crossedSample : CardinalWords.Cardinal :=
  .small (.scaled (.group (.hundreds (.digit 1) (some (false, .unit 4)))) none)

theorem number_words_denote_on_sample : 19 ≤ 900 ∧ ∃ out,
    numberWord (Lexicon.ofEntries LexiconLaw.shipped) 900 (text crossedSample) = .ok out ∧
      (Denotes (Lexicon.ofEntries LexiconLaw.shipped) 900 crossedSample out ↔
        Cardinal.outcome crossedSample = .whole ∨ Apart (tokens crossedSample.words)) ∧
      ((∃ n, n ≠ crossedSample.value ∧ out = digits n) ↔
        Cardinal.outcome crossedSample = .misread) :=
  ⟨by decide, number_words_denote_iff crossedSample 900 (by decide)⟩

/-- The thousand is read with the five alone. -/
theorem crossed_thousand_misread : text crossedSample = "two hundred five thousand" ∧
    crossedSample.value = 205000 ∧
    numberWord (Lexicon.ofEntries LexiconLaw.shipped) 900 "two hundred five thousand" =
      .ok "5200" ∧
    ¬ Denotes (Lexicon.ofEntries LexiconLaw.shipped) 900 crossedSample "5200" := by
  refine ⟨by decide +kernel, by decide +kernel, by decide +kernel, fun h => ?_⟩
  have hdigits : "5200" = digits 5200 := by decide +kernel
  have hvalue : 5200 = crossedSample.value := h.2 5200 hdigits
  have hne : 5200 ≠ crossedSample.value := by decide +kernel
  exact hne hvalue

end IeltsHub.CardinalsDenote
