import IeltsHub.QtypesNormalizers
import IeltsHub.PhraseRewriting

set_option autoImplicit false

/-!
# What the tables of a lexicon hold

A lookup gives what some entry says of its argument, and nothing where no entry says anything.
Which entry has its way depends on the order they were loaded in, unless all that speak agree.
-/
namespace IeltsHub.LexiconTables
open PyText PyDict QtypesLexicon PhraseRewriting

variable {lex : Lexicon} {entries : List LexEntry} {e : LexEntry}

def PhraseLike (e : LexEntry) : Prop := 1 < (split e.a).length ∨ 1 < (split e.b).length

instance (e : LexEntry) : Decidable (PhraseLike e) := inferInstanceAs (Decidable (_ ∨ _))

theorem ofEntries_append (entries : List LexEntry) (e : LexEntry) :
    Lexicon.ofEntries (entries ++ [e]) = (Lexicon.ofEntries entries).add e :=
  List.foldl_concat _ _ _ _

/-! ## Single words -/

/-- The entry sends the word to the other, as one of its sides. -/
def Claims (kind : String) (e : LexEntry) (word canon : String) : Prop :=
  e.kind = kind ∧ e.kind ≠ "contraction" ∧ ¬ PhraseLike e ∧ e.a = canon ∧
    (e.b = word ∨ (e.bidirectional = true ∧ e.a = word))

instance (kind : String) (e : LexEntry) (word canon : String) :
    Decidable (Claims kind e word canon) := inferInstanceAs (Decidable (_ ∧ _))

def tokenLookup (lex : Lexicon) (kind word : String) : Option String :=
  ((lex.token.get? kind).getD Dict.empty).get? word

theorem add_eq (e : LexEntry) (hc : e.kind ≠ "contraction") :
    lex.add e = if PhraseLike e then lex.addPhrase e else lex.addToken e := if_neg hc

theorem add_token_other (h : ¬ (e.kind ≠ "contraction" ∧ ¬ PhraseLike e)) :
    (lex.add e).token = lex.token := by
  by_cases hc : e.kind = "contraction"
  · unfold Lexicon.add
    rw [if_pos hc]
    rfl
  · have hp : PhraseLike e := by
      by_contra hp
      exact h ⟨hc, hp⟩
    rw [add_eq e hc, if_pos hp]
    rfl

theorem add_token (hc : e.kind ≠ "contraction") (hp : ¬ PhraseLike e) :
    lex.add e = lex.addToken e := by
  rw [add_eq e hc, if_neg hp]

theorem tokenLookup_add (kind word : String) : tokenLookup (lex.add e) kind word =
    if e.kind = kind ∧ e.kind ≠ "contraction" ∧ ¬ PhraseLike e then
      (tokenLookup lex kind word).or (if e.b = word ∨ (e.bidirectional = true ∧ e.a = word) then
        some e.a else none)
    else tokenLookup lex kind word := by
  by_cases h : e.kind ≠ "contraction" ∧ ¬ PhraseLike e
  · rw [add_token h.1 h.2]
    unfold tokenLookup Lexicon.addToken
    dsimp only
    rw [Dict.get?_put]
    by_cases hk : e.kind = kind
    · subst hk
      have hspeaks : e.kind = e.kind ∧ e.kind ≠ "contraction" ∧ ¬ PhraseLike e := ⟨rfl, h⟩
      rw [if_pos hspeaks, if_pos rfl, Option.getD_some]
      cases hb : e.bidirectional with
      | true =>
        simp only [if_true, Dict.get?_setDefault]
        grind
      | false =>
        simp only [Bool.false_eq_true, if_false, Dict.get?_setDefault]
        grind
    · rw [if_neg hk, if_neg (fun h => hk h.1)]
  · rw [if_neg (fun h' => h h'.2)]
    unfold tokenLookup
    rw [add_token_other h]

theorem claims_of_tokenLookup {kind word canon : String}
    (h : tokenLookup (Lexicon.ofEntries entries) kind word = some canon) :
    ∃ e ∈ entries, Claims kind e word canon := by
  induction entries using List.reverseRecOn with
  | nil => cases h
  | append_singleton es e ih =>
    rw [ofEntries_append, tokenLookup_add] at h
    by_cases hc : e.kind = kind ∧ e.kind ≠ "contraction" ∧ ¬ PhraseLike e
    · rw [if_pos hc, Option.or_eq_some_iff] at h
      rcases h with h | ⟨_, h⟩
      · obtain ⟨e', he', hclaims⟩ := ih h
        exact ⟨e', List.mem_append_left _ he', hclaims⟩
      · split at h
        · rename_i hside
          exact ⟨e, by simp, hc.1, hc.2.1, hc.2.2, Option.some.inj h, hside⟩
        · cases h
    · rw [if_neg hc] at h
      obtain ⟨e', he', hclaims⟩ := ih h
      exact ⟨e', List.mem_append_left _ he', hclaims⟩

theorem isSome_tokenLookup {kind word canon : String} (he : e ∈ entries)
    (h : Claims kind e word canon) :
    (tokenLookup (Lexicon.ofEntries entries) kind word).isSome = true := by
  induction entries using List.reverseRecOn with
  | nil => cases he
  | append_singleton es e' ih =>
    rw [ofEntries_append, tokenLookup_add]
    rcases List.mem_append.1 he with he | he
    · have hsome := ih he
      split
      · rw [Option.isSome_or, hsome, Bool.true_or]
      · exact hsome
    · rw [List.mem_singleton] at he
      subst he
      rw [if_pos ⟨h.1, h.2.1, h.2.2.1⟩, if_pos h.2.2.2.2, Option.isSome_or]
      simp

/-! ## Tables that are overwritten -/

/-- A lookup that entries write to: the last writer of a key has its way, and a key that is only
kept stands for itself. -/
structure Overwritten {κ ν : Type} (look : List LexEntry → κ → Option ν) where
  self : κ → ν
  Writes : LexEntry → κ → ν → Prop
  Keeps : LexEntry → κ → Prop
  functional : ∀ e k v w, Writes e k v → Writes e k w → v = w
  nil : ∀ k, look [] k = none
  written : ∀ es e k v, Writes e k v → look (es ++ [e]) k = some v
  kept : ∀ es e k, (∀ v, ¬ Writes e k v) → Keeps e k →
    look (es ++ [e]) k = (look es k).or (some (self k))
  other : ∀ es e k, (∀ v, ¬ Writes e k v) → ¬ Keeps e k → look (es ++ [e]) k = look es k

namespace Overwritten

variable {κ ν : Type} {look : List LexEntry → κ → Option ν}

theorem of_written (o : Overwritten look) {k : κ} (h : ∃ e ∈ entries, ∃ v, o.Writes e k v) :
    ∃ v, look entries k = some v ∧ ∃ e ∈ entries, o.Writes e k v := by
  induction entries using List.reverseRecOn with
  | nil =>
    obtain ⟨e, he, _⟩ := h
    cases he
  | append_singleton es e ih =>
    by_cases hw : ∃ v, o.Writes e k v
    · obtain ⟨v, hv⟩ := hw
      exact ⟨v, o.written es e k v hv, e, by simp, hv⟩
    · have hnot : ∀ v, ¬ o.Writes e k v := fun v hv => hw ⟨v, hv⟩
      obtain ⟨e', he', v', hv'⟩ := h
      have hes : e' ∈ es := by
        rcases List.mem_append.1 he' with h' | h'
        · exact h'
        · rw [List.mem_singleton.1 h'] at hv'
          exact absurd hv' (hnot v')
      obtain ⟨v, hlook, e'', he'', hv⟩ := ih ⟨e', hes, v', hv'⟩
      refine ⟨v, ?_, e'', List.mem_append_left _ he'', hv⟩
      by_cases hk : o.Keeps e k
      · rw [o.kept es e k hnot hk, hlook]
        rfl
      · rw [o.other es e k hnot hk, hlook]

theorem of_none (o : Overwritten look) {k : κ} (hnot : ∀ e ∈ entries, ∀ v, ¬ o.Writes e k v)
    (h : ∀ e ∈ entries, ¬ o.Keeps e k) : look entries k = none := by
  induction entries using List.reverseRecOn with
  | nil => exact o.nil k
  | append_singleton es e ih =>
    rw [o.other es e k (hnot e (by simp)) (h e (by simp))]
    exact ih (fun e he => hnot e (List.mem_append_left _ he))
      (fun e he => h e (List.mem_append_left _ he))

theorem of_kept (o : Overwritten look) {k : κ} (hnot : ∀ e ∈ entries, ∀ v, ¬ o.Writes e k v)
    (h : ∃ e ∈ entries, o.Keeps e k) : look entries k = some (o.self k) := by
  induction entries using List.reverseRecOn with
  | nil =>
    obtain ⟨e, he, _⟩ := h
    cases he
  | append_singleton es e ih =>
    have hlast := hnot e (by simp)
    have hes : ∀ e ∈ es, ∀ v, ¬ o.Writes e k v :=
      fun e' he' => hnot e' (List.mem_append_left _ he')
    by_cases hbefore : ∃ e ∈ es, o.Keeps e k
    · have hlook := ih hes hbefore
      by_cases hk : o.Keeps e k
      · rw [o.kept es e k hlast hk, hlook]
        rfl
      · rw [o.other es e k hlast hk, hlook]
    · obtain ⟨e', he', hkeep⟩ := h
      have hk : o.Keeps e k := by
        rcases List.mem_append.1 he' with h' | h'
        · exact absurd ⟨e', h', hkeep⟩ hbefore
        · rw [List.mem_singleton.1 h'] at hkeep
          exact hkeep
      rw [o.kept es e k hlast hk]
      rw [o.of_none hes (fun e he h => hbefore ⟨e, he, h⟩)]
      rfl

def Agrees (o : Overwritten look) (entries : List LexEntry) : Prop :=
  ∀ e ∈ entries, ∀ e' ∈ entries, ∀ k v v', o.Writes e k v → o.Writes e' k v' → v = v'

theorem Agrees.perm {o : Overwritten look} (h : o.Agrees entries) {entries' : List LexEntry}
    (hp : entries.Perm entries') (k : κ) : look entries' k = look entries k := by
  by_cases hw : ∃ e ∈ entries, ∃ v, o.Writes e k v
  · have hw' : ∃ e ∈ entries', ∃ v, o.Writes e k v := by
      obtain ⟨e, he, hv⟩ := hw
      exact ⟨e, hp.mem_iff.1 he, hv⟩
    obtain ⟨v, hlook, e, he, hv⟩ := o.of_written hw
    obtain ⟨v', hlook', e', he', hv'⟩ := o.of_written hw'
    rw [hlook, hlook', h e he e' (hp.mem_iff.2 he') k v v' hv hv']
  · have hnot : ∀ e ∈ entries, ∀ v, ¬ o.Writes e k v := fun e he v hv => hw ⟨e, he, v, hv⟩
    have hnot' : ∀ e ∈ entries', ∀ v, ¬ o.Writes e k v :=
      fun e he v hv => hw ⟨e, hp.mem_iff.2 he, v, hv⟩
    by_cases hk : ∃ e ∈ entries, o.Keeps e k
    · obtain ⟨e, he, hkeep⟩ := hk
      rw [o.of_kept hnot ⟨e, he, hkeep⟩, o.of_kept hnot' ⟨e, hp.mem_iff.1 he, hkeep⟩]
    · rw [o.of_none hnot (fun e he h => hk ⟨e, he, h⟩),
        o.of_none hnot' (fun e he h => hk ⟨e, hp.mem_iff.2 he, h⟩)]

end Overwritten

/-! ## Phrases -/

def gramLookup (lex : Lexicon) (kind : String) (gram : List String) : Option (List String) :=
  ((lex.phrase.get? kind).getD Dict.empty).get? gram

def IsPhrase (kind : String) (e : LexEntry) : Prop :=
  e.kind = kind ∧ e.kind ≠ "contraction" ∧ PhraseLike e

instance (kind : String) (e : LexEntry) : Decidable (IsPhrase kind e) :=
  inferInstanceAs (Decidable (_ ∧ _))

theorem gramLookup_add (kind : String) (gram : List String) : gramLookup (lex.add e) kind gram =
    if IsPhrase kind e then
      (if split e.b = gram then some (split e.a)
        else (gramLookup lex kind gram).or
          (if e.bidirectional = true ∧ split e.a = gram then some gram else none))
    else gramLookup lex kind gram := by
  by_cases hc : e.kind = "contraction"
  · have hnot : ¬ IsPhrase kind e := fun h => h.2.1 hc
    rw [if_neg hnot]
    unfold Lexicon.add
    rw [if_pos hc]
    rfl
  · rw [add_eq e hc]
    by_cases hp : PhraseLike e
    · rw [if_pos hp]
      unfold gramLookup Lexicon.addPhrase
      dsimp only
      rw [Dict.get?_put]
      by_cases hk : e.kind = kind
      · subst hk
        have hphrase : IsPhrase e.kind e := ⟨rfl, hc, hp⟩
        rw [if_pos hphrase, if_pos rfl, Option.getD_some]
        cases hb : e.bidirectional with
        | true =>
          simp only [if_true, Dict.get?_setDefault, Dict.get?_put]
          grind
        | false =>
          simp only [Bool.false_eq_true, if_false, Dict.get?_put]
          grind
      · rw [if_neg hk, if_neg (fun h => hk h.1)]
    · rw [if_neg hp, if_neg (fun h => hp h.2.2)]
      rfl

/-- The phrases of a kind: `b` becomes `a`, and an `a` that goes both ways stands for itself. -/
def phraseTable (kind : String) :
    Overwritten (fun entries gram => gramLookup (Lexicon.ofEntries entries) kind gram) where
  self := id
  Writes e gram image := IsPhrase kind e ∧ split e.b = gram ∧ split e.a = image
  Keeps e gram := IsPhrase kind e ∧ e.bidirectional = true ∧ split e.a = gram
  functional := fun _ _ _ _ hv hw => hv.2.2.symm.trans hw.2.2
  nil := fun _ => rfl
  written := by
    intro es e k v h
    rw [ofEntries_append, gramLookup_add, if_pos h.1, if_pos h.2.1, h.2.2]
  kept := by
    intro es e k hnot h
    rw [ofEntries_append, gramLookup_add, if_pos h.1,
      if_neg (fun hb => hnot (split e.a) ⟨h.1, hb, rfl⟩), if_pos h.2]
    rfl
  other := by
    intro es e k hnot h
    rw [ofEntries_append, gramLookup_add]
    by_cases hp : IsPhrase kind e
    · rw [if_pos hp, if_neg (fun hb => hnot (split e.a) ⟨hp, hb, rfl⟩),
        if_neg (fun hk => h ⟨hp, hk⟩), Option.or_none]
    · rw [if_neg hp]

theorem maxPhraseLen_add (lex : Lexicon) (e : LexEntry) : (lex.add e).maxPhraseLen =
    if e.kind ≠ "contraction" ∧ PhraseLike e then
      max lex.maxPhraseLen (max (split e.a).length (split e.b).length)
    else lex.maxPhraseLen := by
  by_cases hc : e.kind = "contraction"
  · rw [if_neg (fun h => h.1 hc)]
    unfold Lexicon.add
    rw [if_pos hc]
    rfl
  · rw [add_eq e hc]
    by_cases hp : PhraseLike e
    · rw [if_pos hp, if_pos ⟨hc, hp⟩]
      rfl
    · rw [if_neg hp, if_neg (fun h => hp h.2)]
      rfl

theorem maxPhraseLen_le {n : ℕ} : (Lexicon.ofEntries entries).maxPhraseLen ≤ n ↔ 1 ≤ n ∧
    ∀ e ∈ entries, e.kind ≠ "contraction" → PhraseLike e →
      (split e.a).length ≤ n ∧ (split e.b).length ≤ n := by
  induction entries using List.reverseRecOn with
  | nil => simp [Lexicon.ofEntries]
  | append_singleton es e ih =>
    rw [ofEntries_append, maxPhraseLen_add]
    simp only [List.mem_append, List.mem_singleton]
    by_cases h : e.kind ≠ "contraction" ∧ PhraseLike e
    · rw [if_pos h, max_le_iff, max_le_iff, ih]
      constructor
      · rintro ⟨⟨hn, hes⟩, hlen⟩
        refine ⟨hn, ?_⟩
        rintro e' (he' | rfl) hc hp
        · exact hes e' he' hc hp
        · exact hlen
      · rintro ⟨hn, hall⟩
        exact ⟨⟨hn, fun e' he' => hall e' (.inl he')⟩, hall e (.inr rfl) h.1 h.2⟩
    · rw [if_neg h, ih]
      constructor
      · rintro ⟨hn, hes⟩
        refine ⟨hn, ?_⟩
        rintro e' (he' | rfl) hc hp
        · exact hes e' he' hc hp
        · exact absurd ⟨hc, hp⟩ h
      · rintro ⟨hn, hall⟩
        exact ⟨hn, fun e' he' => hall e' (.inl he')⟩

theorem gram_length_le {kind : String} {gram : List String}
    (h : (gramLookup (Lexicon.ofEntries entries) kind gram).isSome = true) :
    gram.length ≤ (Lexicon.ofEntries entries).maxPhraseLen := by
  have hall := (@maxPhraseLen_le entries _).1 le_rfl
  by_contra hlong
  have hnone : gramLookup (Lexicon.ofEntries entries) kind gram = none := by
    apply (phraseTable kind).of_none
    · rintro e he v ⟨hp, rfl, _⟩
      exact hlong (hall.2 e he hp.2.1 hp.2.2).2
    · rintro e he ⟨hp, _, rfl⟩
      exact hlong (hall.2 e he hp.2.1 hp.2.2).1
  rw [hnone] at h
  cases h

theorem maxPhraseLen_perm {entries' : List LexEntry} (hp : entries.Perm entries') :
    (Lexicon.ofEntries entries').maxPhraseLen = (Lexicon.ofEntries entries).maxPhraseLen := by
  apply le_antisymm
  · rw [maxPhraseLen_le]
    have hall := (@maxPhraseLen_le entries _).1 le_rfl
    exact ⟨hall.1, fun e he => hall.2 e (hp.mem_iff.2 he)⟩
  · rw [maxPhraseLen_le]
    have hall := (@maxPhraseLen_le entries' _).1 le_rfl
    exact ⟨hall.1, fun e he => hall.2 e (hp.mem_iff.1 he)⟩

/-! ## Contractions -/

theorem contractions_add (word : String) : (lex.add e).contractions.get? word =
    if e.kind = "contraction" then
      (if e.a = word then some e.b
        else (lex.contractions.get? word).or
          (if e.bidirectional = true ∧ e.b = word then some word else none))
    else lex.contractions.get? word := by
  by_cases hc : e.kind = "contraction"
  · rw [if_pos hc]
    unfold Lexicon.add
    rw [if_pos hc]
    unfold Lexicon.addContraction
    dsimp only
    cases hb : e.bidirectional with
    | true =>
      simp only [if_true, Dict.get?_setDefault, Dict.get?_put]
      grind
    | false =>
      simp only [Bool.false_eq_true, if_false, Dict.get?_put]
      grind
  · rw [if_neg hc, add_eq e hc]
    split
    · rfl
    · rfl

/-- The contractions: `a` becomes `b`, and a `b` that goes both ways stands for itself. -/
def contractionTable :
    Overwritten (fun entries word => (Lexicon.ofEntries entries).contractions.get? word) where
  self := id
  Writes e word image := e.kind = "contraction" ∧ e.a = word ∧ e.b = image
  Keeps e word := e.kind = "contraction" ∧ e.bidirectional = true ∧ e.b = word
  functional := fun _ _ _ _ hv hw => hv.2.2.symm.trans hw.2.2
  nil := fun _ => rfl
  written := by
    intro es e k v h
    rw [ofEntries_append, contractions_add, if_pos h.1, if_pos h.2.1, h.2.2]
  kept := by
    intro es e k hnot h
    rw [ofEntries_append, contractions_add, if_pos h.1,
      if_neg (fun ha => hnot e.b ⟨h.1, ha, rfl⟩), if_pos h.2]
    rfl
  other := by
    intro es e k hnot h
    rw [ofEntries_append, contractions_add]
    by_cases hc : e.kind = "contraction"
    · rw [if_pos hc, if_neg (fun ha => hnot e.b ⟨hc, ha, rfl⟩), if_neg (fun hk => h ⟨hc, hk⟩),
        Option.or_none]
    · rw [if_neg hc]

/-! ## Lookups that do not depend on the order -/

def Settles (kind : String) (entries : List LexEntry) (word canon : String) : Prop :=
  (∀ e ∈ entries, Claims kind e word e.a → e.a = canon) ∧
    (canon = word ∨ ∃ e ∈ entries, Claims kind e word canon)

instance (kind : String) (entries : List LexEntry) (word canon : String) :
    Decidable (Settles kind entries word canon) := inferInstanceAs (Decidable (_ ∧ _))

theorem canonicalToken_of_settles {kind word canon : String}
    (h : Settles kind entries word canon) :
    (Lexicon.ofEntries entries).canonicalToken kind word = canon := by
  change (tokenLookup (Lexicon.ofEntries entries) kind word).getD word = canon
  cases hl : tokenLookup (Lexicon.ofEntries entries) kind word with
  | none =>
    rcases h.2 with hself | ⟨e, he, hclaims⟩
    · rw [hself]
      rfl
    · have hsome := isSome_tokenLookup he hclaims
      rw [hl] at hsome
      cases hsome
  | some c =>
    obtain ⟨e, he, hclaims⟩ := claims_of_tokenLookup hl
    have hside := hclaims
    rw [← hclaims.2.2.2.1] at hside
    exact hclaims.2.2.2.1.symm.trans (h.1 e he hside)

/-- The contraction is written out as the other, whatever the order. -/
def Expands (entries : List LexEntry) (word image : String) : Prop :=
  (∀ e ∈ entries, e.kind = "contraction" → e.a = word → e.b = image) ∧
    (image = word ∨ ∃ e ∈ entries, e.kind = "contraction" ∧ e.a = word ∧ e.b = image)

instance (entries : List LexEntry) (word image : String) :
    Decidable (Expands entries word image) := inferInstanceAs (Decidable (_ ∧ _))

theorem expandContraction_of_expands {word image : String} (h : Expands entries word image) :
    (Lexicon.ofEntries entries).expandContraction word = image := by
  unfold Lexicon.expandContraction
  by_cases hw : ∃ e ∈ entries, ∃ v, contractionTable.Writes e word v
  · obtain ⟨v, hlook, e, he, hv⟩ := contractionTable.of_written hw
    have heq := h.1 e he hv.1 hv.2.1
    rw [hlook, Option.getD_some, ← hv.2.2, heq]
  · have hnot : ∀ e ∈ entries, ∀ v, ¬ contractionTable.Writes e word v :=
      fun e he v hv => hw ⟨e, he, v, hv⟩
    have hself : image = word := by
      rcases h.2 with hself | ⟨e, he, hc, ha, hb⟩
      · exact hself
      · exact absurd ⟨hc, ha, hb⟩ (hnot e he image)
    rw [hself]
    by_cases hk : ∃ e ∈ entries, contractionTable.Keeps e word
    · rw [contractionTable.of_kept hnot hk]
      rfl
    · rw [contractionTable.of_none hnot (fun e he h => hk ⟨e, he, h⟩)]
      rfl

theorem replaceGrams_eq (table : Dict (List String) (List String)) (maxLen skip : ℕ)
    (tokens : List String) : Lexicon.replaceGrams table maxLen skip tokens =
      rewrite table.get? maxLen skip tokens := by
  have hgram : ∀ (ts : List String) (n : ℕ),
      Lexicon.longestGram table ts n = longest table.get? ts n := by
    intro ts n
    induction n with
    | zero => rfl
    | succ n ih =>
      rw [Lexicon.longestGram, longest, ih]
      cases table.get? (ts.take (n + 1)) with
      | none => rfl
      | some replacement => rfl
  induction tokens generalizing skip with
  | nil => cases skip <;> rfl
  | cons t ts ih =>
    cases skip with
    | succ skip => exact ih skip
    | zero =>
      rw [Lexicon.replaceGrams, rewrite, hgram]
      cases longest table.get? (t :: ts) (min maxLen (t :: ts).length) with
      | none =>
        dsimp only
        rw [ih]
      | some p =>
        dsimp only
        rw [ih]

theorem rewrite_none {maxLen : ℕ} (tokens : List String) :
    rewrite (fun _ => none) maxLen 0 tokens = tokens := by
  have hnone : ∀ (ts : List String) (n : ℕ),
      longest (fun _ : List String => none) ts n = none := by
    intro ts n
    induction n with
    | zero => rfl
    | succ n ih => exact ih
  induction tokens with
  | nil => rfl
  | cons t ts ih =>
    rw [rewrite, hnone]
    exact congrArg (List.cons t) ih

theorem applyPhrases_eq (lex : Lexicon) (kind : String) (tokens : List String) :
    lex.applyPhrases kind tokens = rewrite (gramLookup lex kind) lex.maxPhraseLen 0 tokens := by
  unfold Lexicon.applyPhrases gramLookup
  cases lex.phrase.get? kind with
  | none => exact (rewrite_none tokens).symm
  | some table =>
    dsimp only
    rw [Option.getD_some]
    split
    · rename_i hempty
      have hnone : table.get? = fun _ => none := by
        funext gram
        rw [Dict.get?_eq_none]
        unfold Dict.keys
        rw [List.isEmpty_iff.1 hempty]
        simp
      rw [hnone]
      exact (rewrite_none tokens).symm
    · exact replaceGrams_eq table lex.maxPhraseLen 0 tokens

/-! ### Phrases around which nothing is read together -/

def ClearOf (gram block : List String) : Prop :=
  (∀ i ∈ List.range gram.length, 0 < i → ¬ gram.drop i <+: block ∧ ¬ block <+: gram.drop i) ∧
    (block <+: gram → gram = block)

instance (gram block : List String) : Decidable (ClearOf gram block) :=
  inferInstanceAs (Decidable (_ ∧ _))

/-- No phrase of the kind reaches across an edge of the block. -/
def ClearIn (kind : String) (entries : List LexEntry) (block : List String) : Prop :=
  ∀ e ∈ entries, IsPhrase kind e →
    ClearOf (split e.b) block ∧ (e.bidirectional = true → ClearOf (split e.a) block)

instance (kind : String) (entries : List LexEntry) (block : List String) :
    Decidable (ClearIn kind entries block) :=
  inferInstanceAs (Decidable (∀ e ∈ entries, _))

theorem clear_of_clearIn {kind : String} {block : List String}
    (h : ClearIn kind entries block) :
    Clear (gramLookup (Lexicon.ofEntries entries) kind) block := by
  intro gram hsome
  have hclear : ClearOf gram block := by
    by_contra hno
    have hnone : gramLookup (Lexicon.ofEntries entries) kind gram = none := by
      apply (phraseTable kind).of_none
      · rintro e he v ⟨hp, rfl, _⟩
        exact hno (h e he hp).1
      · rintro e he ⟨hp, hb, rfl⟩
        exact hno ((h e he hp).2 hb)
    rw [hnone] at hsome
    cases hsome
  refine ⟨?_, hclear.2⟩
  rintro u v rfl hu hv
  have hpos : 0 < u.length := List.length_pos_of_ne_nil hu
  have hpos' : 0 < v.length := List.length_pos_of_ne_nil hv
  have hdrop := hclear.1 u.length (by rw [List.mem_range, List.length_append]; omega) hpos
  rwa [List.drop_left] at hdrop

def BecomesIn (kind : String) (entries : List LexEntry) (block image : List String) : Prop :=
  (∀ e ∈ entries, IsPhrase kind e → split e.b = block → split e.a = image) ∧
    ((∃ e ∈ entries, IsPhrase kind e ∧ split e.b = block ∧ split e.a = image) ∨
      (image = block ∧ (block.length = 1 ∨
        ∃ e ∈ entries, IsPhrase kind e ∧ e.bidirectional = true ∧ split e.a = block)))

instance (kind : String) (entries : List LexEntry) (block image : List String) :
    Decidable (BecomesIn kind entries block image) := inferInstanceAs (Decidable (_ ∧ _))

theorem becomes_of_becomesIn {kind : String} {block image : List String}
    (h : BecomesIn kind entries block image) :
    Becomes (gramLookup (Lexicon.ofEntries entries) kind) block image := by
  by_cases hw : ∃ e ∈ entries, ∃ v, (phraseTable kind).Writes e block v
  · obtain ⟨v, hlook, e, he, hv⟩ := (phraseTable kind).of_written hw
    have heq := h.1 e he hv.1 hv.2.1
    rw [hv.2.2] at heq
    exact .inl (heq ▸ hlook)
  · have hnot : ∀ e ∈ entries, ∀ v, ¬ (phraseTable kind).Writes e block v :=
      fun e he v hv => hw ⟨e, he, v, hv⟩
    rcases h.2 with ⟨e, he, hp, hb, ha⟩ | ⟨rfl, hone⟩
    · exact absurd ⟨hp, hb, ha⟩ (hnot e he image)
    · by_cases hk : ∃ e ∈ entries, (phraseTable kind).Keeps e image
      · exact .inl ((phraseTable kind).of_kept hnot hk)
      · refine .inr ⟨(phraseTable kind).of_none hnot (fun e he h => hk ⟨e, he, h⟩), ?_, rfl⟩
        rcases hone with hone | ⟨e, he, hkeep⟩
        · exact hone
        · exact absurd ⟨e, he, hkeep⟩ hk

/-- A run of clear blocks and what they become, whatever the order. -/
inductive BlocksIn (kind : String) (entries : List LexEntry) : List String → List String → Prop
  | one {block image : List String} : block ≠ [] → ClearIn kind entries block →
      BecomesIn kind entries block image → BlocksIn kind entries block image
  | cons {block image rest images : List String} : block ≠ [] → ClearIn kind entries block →
      BecomesIn kind entries block image → BlocksIn kind entries rest images →
      BlocksIn kind entries (block ++ rest) (image ++ images)

theorem blocks_of_blocksIn {kind : String} {blocks images : List String}
    (h : BlocksIn kind entries blocks images) :
    Blocks (gramLookup (Lexicon.ofEntries entries) kind) blocks images := by
  induction h with
  | one hne hclear himage =>
    exact .one hne (clear_of_clearIn hclear) (becomes_of_becomesIn himage)
  | cons hne hclear himage _ ih =>
    exact .cons hne (clear_of_clearIn hclear) (becomes_of_becomesIn himage) ih

theorem applyPhrases_blocks {kind : String} {blocks images : List String}
    (h : BlocksIn kind entries blocks images) (before after : List String) :
    (Lexicon.ofEntries entries).applyPhrases kind (before ++ blocks ++ after) =
      (Lexicon.ofEntries entries).applyPhrases kind before ++ images ++
        (Lexicon.ofEntries entries).applyPhrases kind after := by
  rw [applyPhrases_eq, applyPhrases_eq, applyPhrases_eq]
  exact rewrite_blocks (fun _ => gram_length_le) (blocks_of_blocksIn h) before after

/-! ## Entries that agree -/

/-- All that is said of a word as one of a kind is the same, or at least alike. -/
def TokensAgree (kind : String) (alike : String → String → Prop) (entries : List LexEntry) :
    Prop :=
  ∀ e ∈ entries, ∀ e' ∈ entries, ∀ word ∈ [e.a, e.b], Claims kind e word e.a →
    Claims kind e' word e'.a → alike e.a e'.a

theorem tokenLookup_perm {kind : String} {alike : String → String → Prop}
    (h : TokensAgree kind alike entries) {entries' : List LexEntry}
    (hp : entries.Perm entries') (word : String) :
    (tokenLookup (Lexicon.ofEntries entries) kind word = none ∧
      tokenLookup (Lexicon.ofEntries entries') kind word = none) ∨
    ∃ c c', tokenLookup (Lexicon.ofEntries entries) kind word = some c ∧
      tokenLookup (Lexicon.ofEntries entries') kind word = some c' ∧ alike c c' := by
  have hclaims : ∀ {es : List LexEntry} {c : String},
      tokenLookup (Lexicon.ofEntries es) kind word = some c →
        ∃ e ∈ es, Claims kind e word e.a ∧ e.a = c := by
    intro es c hl
    obtain ⟨e, he, hclaims⟩ := claims_of_tokenLookup hl
    have hside := hclaims
    rw [← hclaims.2.2.2.1] at hside
    exact ⟨e, he, hside, hclaims.2.2.2.1⟩
  cases hl : tokenLookup (Lexicon.ofEntries entries) kind word with
  | none =>
    left
    refine ⟨rfl, ?_⟩
    cases hl' : tokenLookup (Lexicon.ofEntries entries') kind word with
    | none => rfl
    | some c =>
      obtain ⟨e, he, hside, _⟩ := hclaims hl'
      have hsome := isSome_tokenLookup (hp.mem_iff.2 he) hside
      rw [hl] at hsome
      cases hsome
  | some c =>
    right
    obtain ⟨e, he, hside, rfl⟩ := hclaims hl
    obtain ⟨c', hl'⟩ := Option.isSome_iff_exists.1 (isSome_tokenLookup (hp.mem_iff.1 he) hside)
    obtain ⟨e', he', hside', rfl⟩ := hclaims hl'
    have hword : word ∈ [e.a, e.b] := by
      rcases hside.2.2.2.2 with hb | ⟨_, ha⟩
      · simp [hb]
      · simp [ha]
    exact ⟨e.a, e'.a, rfl, hl', h e he e' (hp.mem_iff.2 he') word hword hside hside'⟩

theorem canonicalToken_perm {kind : String} (h : TokensAgree kind Eq entries)
    {entries' : List LexEntry} (hp : entries.Perm entries') (word : String) :
    (Lexicon.ofEntries entries').canonicalToken kind word =
      (Lexicon.ofEntries entries).canonicalToken kind word := by
  change (tokenLookup (Lexicon.ofEntries entries') kind word).getD word =
    (tokenLookup (Lexicon.ofEntries entries) kind word).getD word
  rcases tokenLookup_perm h hp word with ⟨hl, hl'⟩ | ⟨c, c', hl, hl', halike⟩
  · rw [hl, hl']
  · rw [hl, hl', halike]

def PhrasesAgree (kind : String) (entries : List LexEntry) : Prop :=
  ∀ e ∈ entries, ∀ e' ∈ entries, IsPhrase kind e → IsPhrase kind e' → split e.b = split e'.b →
    split e.a = split e'.a

theorem applyPhrases_perm {kind : String} (h : PhrasesAgree kind entries)
    {entries' : List LexEntry} (hp : entries.Perm entries') (tokens : List String) :
    (Lexicon.ofEntries entries').applyPhrases kind tokens =
      (Lexicon.ofEntries entries).applyPhrases kind tokens := by
  have hagrees : (phraseTable kind).Agrees entries := by
    rintro e he e' he' k v v' ⟨hphrase, rfl, rfl⟩ ⟨hphrase', hb, rfl⟩
    exact h e he e' he' hphrase hphrase' hb.symm
  have hlook : gramLookup (Lexicon.ofEntries entries') kind =
      gramLookup (Lexicon.ofEntries entries) kind := funext (fun gram => hagrees.perm hp gram)
  rw [applyPhrases_eq, applyPhrases_eq, hlook, maxPhraseLen_perm hp]

def ContractionsAgree (entries : List LexEntry) : Prop :=
  ∀ e ∈ entries, ∀ e' ∈ entries, e.kind = "contraction" → e'.kind = "contraction" →
    e.a = e'.a → e.b = e'.b

theorem expandContraction_perm (h : ContractionsAgree entries) {entries' : List LexEntry}
    (hp : entries.Perm entries') (word : String) :
    (Lexicon.ofEntries entries').expandContraction word =
      (Lexicon.ofEntries entries).expandContraction word := by
  have hagrees : contractionTable.Agrees entries := by
    rintro e he e' he' k v v' ⟨hc, rfl, rfl⟩ ⟨hc', ha, rfl⟩
    exact h e he e' he' hc hc' ha.symm
  have hlook := hagrees.perm hp word
  unfold Lexicon.expandContraction
  rw [hlook]

end IeltsHub.LexiconTables
