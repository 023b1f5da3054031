import IeltsHub.LexiconTables
import IeltsHub.TextWords

set_option autoImplicit false

/-!
# What the lexicon makes of two sides of an entry

The chain reads an answer as a list of words. Its first stages act on each word by itself, a
contraction is written out word by word, phrases and numbers are read along the list. Two sides of
an entry come to the same text where the stages they go through make the same of them and no
phrase reaches across an edge of either.
-/
namespace IeltsHub.LexiconLaw
open PyExc PyText PlatformErrors QtypesSchemas QtypesLexicon QtypesNormalizers LexiconTables
  TextWords

/-! ## The chain on words -/

def fullPipeline (lex : Lexicon) (frames : ℕ) : Pipeline where
  names := normalizerOrder
  lexicon := lex
  frames := frames
  canonical := List.Sublist.refl _

def normalForm (lex : Lexicon) (frames : ℕ) (v : String) : Except Raised String :=
  Normalized.value <$> (fullPipeline lex frames).run v

def frontWord (w : String) : List String :=
  split (replaceChar '–' " " (replaceChar '-' " " (stripChars edgePunct (casefold w))))

def frontWords (v : String) : List String := (split v).flatMap frontWord

def kept (ws : List String) : List String := ws.filter (fun t => !articles.contains t)

def settled (ws : List String) : List String := if kept ws = [] then ws else kept ws

def expanded (lex : Lexicon) (ws : List String) : List String :=
  ws.flatMap (fun t => split (lex.expandContraction t))

def spelled (lex : Lexicon) (ws : List String) : List String :=
  (lex.applyPhrases "spelling_variant" ws).flatMap
    (fun t => split (lex.canonicalToken "spelling_variant" t))

def opened (lex : Lexicon) (ws : List String) : List String :=
  (lex.applyPhrases "number_word" ws).flatMap (splitOn '-')

def ordinalWord (t : String) : String := (ordinalSuffix t).getD ((ordinalWords.lookup t).getD t)

def written (ws : List String) : String := join " " ((ws.flatMap split).map ordinalWord)

theorem value_runStep (p : Pipeline) (done : Normalized) (n : Normalizer) :
    Normalized.value <$> p.runStep done n = implementation p.lexicon p.frames n done.value := by
  unfold Pipeline.runStep
  cases h : implementation p.lexicon p.frames n done.value with
  | error e => rfl
  | ok after =>
    by_cases hne : after ≠ done.value
    · change Normalized.value <$> (if after ≠ done.value then _ else _) = _
      rw [if_pos hne]
      rfl
    · change Normalized.value <$> (if after ≠ done.value then _ else _) = _
      rw [if_neg hne]
      rw [not_not] at hne
      rw [hne]
      rfl

theorem value_foldlM (p : Pipeline) (ns : List Normalizer) (done : Normalized) :
    Normalized.value <$> ns.foldlM p.runStep done =
      ns.foldlM (fun v n => implementation p.lexicon p.frames n v) done.value := by
  induction ns generalizing done with
  | nil => rfl
  | cons n ns ih =>
    rw [List.foldlM_cons, List.foldlM_cons, ← value_runStep]
    cases h : p.runStep done n with
    | error e => rfl
    | ok after => exact ih after

theorem flatMap_filter_empty {f : String → List String} (hf : f "" = []) (ts : List String) :
    (ts.filter (fun t => t ≠ "")).flatMap f = ts.flatMap f := by
  induction ts with
  | nil => rfl
  | cons t ts ih =>
    rw [List.flatMap_cons, ← ih]
    by_cases h : t = ""
    · subst h
      rw [List.filter_cons_of_neg (by simp), hf]
      rfl
    · rw [List.filter_cons_of_pos (by simpa using h), List.flatMap_cons]

theorem front_eq (v : String) :
    hyphenFlexible (stripPunctuation (casefold (collapseSpace (QtypesNormalizers.trim v)))) =
      join " " (frontWords v) := by
  have hfold : split (casefold (collapseSpace (QtypesNormalizers.trim v))) =
      (split v).map casefold := by
    unfold collapseSpace QtypesNormalizers.trim
    rw [split_casefold, split_join_words (fun w hw => split_words hw), split_strip]
  have hhyphen : '-' ≠ ' ' := by decide
  have hdash : '–' ≠ ' ' := by decide
  unfold hyphenFlexible stripPunctuation frontWords
  rw [hfold, replaceChar_join hhyphen, replaceChar_join hdash, split_join, List.map_map,
    List.flatMap_map, flatMap_filter_empty (by decide), List.flatMap_map, List.flatMap_map]
  rfl

theorem frontWords_words {v w : String} (h : w ∈ frontWords v) : IsWord w := by
  obtain ⟨u, _, hw⟩ := List.mem_flatMap.1 h
  exact split_words hw

theorem settled_words {ws : List String} (h : ∀ w ∈ ws, IsWord w) : ∀ w ∈ settled ws, IsWord w := by
  intro w hw
  unfold settled at hw
  split at hw
  · exact h w hw
  · exact h w (List.mem_of_mem_filter hw)

theorem stripArticles_join {ws : List String} (h : ∀ w ∈ ws, IsWord w) :
    stripArticles (join " " ws) = join " " (settled ws) := by
  unfold stripArticles settled kept
  rw [split_join_words h]
  dsimp only
  by_cases hk : ws.filter (fun t => !articles.contains t) = []
  · rw [if_pos (List.isEmpty_iff.2 hk), if_pos hk]
  · rw [if_neg (fun he => hk (List.isEmpty_iff.1 he)), if_neg hk]

theorem expanded_eq (lex : Lexicon) {ws : List String} (h : ∀ w ∈ ws, IsWord w) :
    split (contractionExpand lex (join " " ws)) = expanded lex ws := by
  unfold contractionExpand expanded
  rw [split_join_words h, split_join, List.flatMap_map]

theorem spelled_eq (lex : Lexicon) (v : String) :
    split (spellingUkUs lex v) = spelled lex (split v) := by
  unfold spellingUkUs spelled
  rw [split_join, List.flatMap_map]

theorem normalForm_eq (lex : Lexicon) (frames : ℕ) (v : String) : normalForm lex frames v =
    written <$> numberTokens lex frames 0
      (opened lex (spelled lex (expanded lex (settled (frontWords v))))) := by
  have hchain : normalForm lex frames v =
      (numberWord lex frames (spellingUkUs lex (contractionExpand lex (stripArticles
        (hyphenFlexible (stripPunctuation (casefold (collapseSpace
          (QtypesNormalizers.trim v)))))))) >>= fun out => .ok (ordinalDigit out)) :=
    value_foldlM (fullPipeline lex frames) normalizerOrder ⟨v, []⟩
  have hwords : split (spellingUkUs lex (contractionExpand lex (stripArticles
      (hyphenFlexible (stripPunctuation (casefold (collapseSpace
        (QtypesNormalizers.trim v)))))))) =
      spelled lex (expanded lex (settled (frontWords v))) := by
    have hfront : ∀ w ∈ frontWords v, IsWord w := fun w hw => frontWords_words hw
    rw [front_eq, stripArticles_join hfront, spelled_eq, expanded_eq lex (settled_words hfront)]
  rw [hchain]
  unfold numberWord numberWords
  rw [hwords]
  change (join " " <$> numberTokens lex frames 0 _) >>= _ = _
  unfold opened
  cases numberTokens lex frames 0 ((lex.applyPhrases "number_word"
      (spelled lex (expanded lex (settled (frontWords v))))).flatMap (splitOn '-')) with
  | error e => rfl
  | ok out =>
    change Except.ok (ordinalDigit (join " " out)) = .ok (written out)
    unfold ordinalDigit written
    rw [split_join]
    rfl

/-! ## Numbers are read by value -/

/-- The two words are the same to the reader of numbers: the digit they stand for, the scale, the
word `and`, and the unit where they are no number. -/
structure ReadAlike (lex : Lexicon) (s t : String) : Prop where
  digit : digitOf lex s = digitOf lex t
  scale : scale? s = scale? t
  conj : s = "and" ↔ t = "and"
  unit : digitOf lex s = .ok none →
    lex.canonicalToken "unit_form" s = lex.canonicalToken "unit_form" t

theorem ReadAlike.refl (lex : Lexicon) (s : String) : ReadAlike lex s s :=
  ⟨rfl, rfl, Iff.rfl, fun _ => rfl⟩

section
variable {lex : Lexicon} {ts ts' : List String}

theorem peek_alike (h : List.Forall₂ (ReadAlike lex) ts ts') : peek lex ts = peek lex ts' := by
  cases h with
  | nil => rfl
  | cons hr _ => exact hr.digit

theorem head_scale_alike (h : List.Forall₂ (ReadAlike lex) ts ts') :
    ts.head?.bind scale? = ts'.head?.bind scale? := by
  cases h with
  | nil => rfl
  | cons hr _ => exact hr.scale

theorem andSkip_alike (h : List.Forall₂ (ReadAlike lex) ts ts') : andSkip ts = andSkip ts' := by
  unfold andSkip
  cases h with
  | nil => rfl
  | cons _ hrest =>
    cases hrest with
    | nil => rfl
    | cons hr _ =>
      simp only [List.tail_cons, List.head?_cons, Option.some.injEq, hr.conj]

theorem afterScale_alike (h : List.Forall₂ (ReadAlike lex) ts ts') :
    List.Forall₂ (ReadAlike lex) (afterScale ts) (afterScale ts') := by
  have htail : List.Forall₂ (ReadAlike lex) ts.tail ts'.tail := by
    cases h with
    | nil => exact .nil
    | cons _ hrest => exact hrest
  unfold afterScale
  rw [andSkip_alike h]
  exact List.forall₂_drop _ htail

theorem parseNumber_alike {frames : ℕ} (h : List.Forall₂ (ReadAlike lex) ts ts') :
    parseNumber lex frames ts = parseNumber lex frames ts' := by
  induction frames generalizing ts ts' with
  | zero => cases h <;> rfl
  | succ frames ih =>
    cases h with
    | nil => rfl
    | cons hr hrest =>
      rw [parseNumber, parseNumber, hr.digit, head_scale_alike hrest,
        peek_alike (afterScale_alike hrest), ih (afterScale_alike hrest), andSkip_alike hrest,
        peek_alike hrest]

theorem digitOf_of_unread {frames : ℕ} {t : String} {value : ℕ}
    (h : parseNumber lex frames (t :: ts) = .ok (0, value)) : digitOf lex t = .ok none := by
  cases frames with
  | zero => cases h
  | succ frames =>
    rw [parseNumber] at h
    obtain ⟨digit, hdigit, h⟩ := bind_eq_ok.1 h
    cases digit with
    | none => exact hdigit
    | some first =>
      exfalso
      dsimp only at h
      split at h
      · obtain ⟨next, _, h⟩ := bind_eq_ok.1 h
        cases next with
        | none => cases h
        | some r =>
          dsimp only at h
          split at h
          · obtain ⟨nested, _, h⟩ := bind_eq_ok.1 h
            obtain ⟨n, v⟩ := nested
            dsimp only at h
            split at h
            · cases h
            · have hpair := Except.ok.inj h
              have hlen := congrArg Prod.fst hpair
              dsimp only at hlen
              omega
          · cases h
      · split at h
        · obtain ⟨next, _, h⟩ := bind_eq_ok.1 h
          cases next with
          | none => cases h
          | some unit =>
            dsimp only at h
            split at h
            · cases h
            · cases h
        · cases h

theorem numberTokens_alike {frames skip : ℕ} (h : List.Forall₂ (ReadAlike lex) ts ts') :
    numberTokens lex frames skip ts = numberTokens lex frames skip ts' := by
  induction h generalizing skip with
  | nil => cases skip <;> rfl
  | @cons s t ss us hr hrest ih =>
    cases skip with
    | succ skip => exact ih
    | zero =>
      have hparse : parseNumber lex frames (s :: ss) = parseNumber lex frames (t :: us) :=
        parseNumber_alike (.cons hr hrest)
      rw [numberTokens, numberTokens, ← hparse]
      cases hp : parseNumber lex frames (s :: ss) with
      | error e => rfl
      | ok read =>
        obtain ⟨consumed, value⟩ := read
        change (if consumed = 0 then _ else _) = (if consumed = 0 then _ else _)
        by_cases hc : consumed = 0
        · subst hc
          rw [if_pos rfl, if_pos rfl, ih, hr.unit (digitOf_of_unread hp)]
        · rw [if_neg hc, if_neg hc, ih]

end

/-! ## The sides of an entry, stage by stage -/

section
variable {entries : List LexEntry}

def ExpandedTo (entries : List LexEntry) (words images : List String) : Prop :=
  ∃ parts, List.Forall₂ (Expands entries) words parts ∧ images = parts.flatMap split

def SpelledTo (entries : List LexEntry) (words images : List String) : Prop :=
  ∃ phrased parts, BlocksIn "spelling_variant" entries words phrased ∧
    List.Forall₂ (Settles "spelling_variant" entries) phrased parts ∧ images = parts.flatMap split

def OpenedTo (entries : List LexEntry) (words images : List String) : Prop :=
  ∃ phrased, BlocksIn "number_word" entries words phrased ∧ images = phrased.flatMap (splitOn '-')

/-- One word, or two that stand for one number, or for one unit and no number. -/
def ReadsAlike (entries : List LexEntry) (s t : String) : Prop :=
  s = t ∨ (scale? s = scale? t ∧ (s = "and" ↔ t = "and") ∧
    ∃ c c', Settles "number_word" entries s c ∧ Settles "number_word" entries t c' ∧
      ((isdigit c = true ∧ isdigit c' = true ∧
          (intOfText c : Except Raised ℤ) = intOfText c') ∨
        (isdigit c = false ∧ isdigit c' = false ∧
          ∃ u, Settles "unit_form" entries s u ∧ Settles "unit_form" entries t u)))

/-- Some stage makes the same of both, and no stage before it reads either with what stands
around it. -/
inductive Merges (entries : List LexEntry) : List String → List String → Prop
  | same (words : List String) : Merges entries words words
  | expanded {words words' images : List String} : ExpandedTo entries words images →
      ExpandedTo entries words' images → Merges entries words words'
  | spelled {words words' a a' images : List String} : ExpandedTo entries words a →
      ExpandedTo entries words' a' → SpelledTo entries a images → SpelledTo entries a' images →
      Merges entries words words'
  | read {words words' a a' b b' images images' : List String} : ExpandedTo entries words a →
      ExpandedTo entries words' a' → SpelledTo entries a b → SpelledTo entries a' b' →
      OpenedTo entries b images → OpenedTo entries b' images' →
      List.Forall₂ (ReadsAlike entries) images images' → Merges entries words words'

theorem flatMap_forall₂ {g : String → String} {R : String → String → Prop}
    {words parts : List String} (h : List.Forall₂ R words parts) (hR : ∀ s t, R s t → g s = t) :
    words.flatMap (fun t => split (g t)) = parts.flatMap split := by
  induction h with
  | nil => rfl
  | cons hr _ ih => rw [List.flatMap_cons, List.flatMap_cons, ih, hR _ _ hr]

theorem expanded_around {words images : List String} (h : ExpandedTo entries words images)
    (before after : List String) :
    expanded (Lexicon.ofEntries entries) (before ++ words ++ after) =
      expanded (Lexicon.ofEntries entries) before ++ images ++
        expanded (Lexicon.ofEntries entries) after := by
  obtain ⟨parts, hparts, rfl⟩ := h
  have hwords := flatMap_forall₂ hparts (fun _ _ => expandContraction_of_expands)
  unfold expanded
  rw [List.flatMap_append, List.flatMap_append, hwords]

theorem spelled_around {words images : List String} (h : SpelledTo entries words images)
    (before after : List String) :
    spelled (Lexicon.ofEntries entries) (before ++ words ++ after) =
      spelled (Lexicon.ofEntries entries) before ++ images ++
        spelled (Lexicon.ofEntries entries) after := by
  obtain ⟨phrased, parts, hblocks, hparts, rfl⟩ := h
  have hwords := flatMap_forall₂ hparts (fun _ _ => canonicalToken_of_settles)
  unfold spelled
  rw [applyPhrases_blocks hblocks, List.flatMap_append, List.flatMap_append, hwords]

theorem opened_around {words images : List String} (h : OpenedTo entries words images)
    (before after : List String) :
    opened (Lexicon.ofEntries entries) (before ++ words ++ after) =
      opened (Lexicon.ofEntries entries) before ++ images ++
        opened (Lexicon.ofEntries entries) after := by
  obtain ⟨phrased, hblocks, rfl⟩ := h
  unfold opened
  rw [applyPhrases_blocks hblocks, List.flatMap_append, List.flatMap_append]

theorem readAlike_of_reads {s t : String} (h : ReadsAlike entries s t) :
    ReadAlike (Lexicon.ofEntries entries) s t := by
  rcases h with rfl | ⟨hscale, hand, c, c', hc, hc', hread⟩
  · exact .refl _ s
  · have hs : digitOf (Lexicon.ofEntries entries) s =
        if isdigit c then (fun n => some n.toNat) <$> intOfText c else .ok none := by
      unfold digitOf
      rw [canonicalToken_of_settles hc]
    have ht : digitOf (Lexicon.ofEntries entries) t =
        if isdigit c' then (fun n => some n.toNat) <$> intOfText c' else .ok none := by
      unfold digitOf
      rw [canonicalToken_of_settles hc']
    rcases hread with ⟨hd, hd', hval⟩ | ⟨hd, hd', u, hu, hu'⟩
    · rw [if_pos hd] at hs
      rw [if_pos hd', ← hval] at ht
      refine ⟨hs.trans ht.symm, hscale, hand, ?_⟩
      intro hnone
      exfalso
      rw [hs] at hnone
      obtain ⟨n, _, hn⟩ := map_eq_ok.1 hnone
      cases hn
    · rw [hd, if_neg Bool.false_ne_true] at hs
      rw [hd', if_neg Bool.false_ne_true] at ht
      refine ⟨hs.trans ht.symm, hscale, hand, fun _ => ?_⟩
      rw [canonicalToken_of_settles hu, canonicalToken_of_settles hu']

theorem forall₂_around {lex : Lexicon} {words words' : List String}
    (h : List.Forall₂ (ReadAlike lex) words words') (before after : List String) :
    List.Forall₂ (ReadAlike lex) (before ++ words ++ after) (before ++ words' ++ after) := by
  have hrefl : ∀ ws : List String, List.Forall₂ (ReadAlike lex) ws ws :=
    fun ws => List.forall₂_same.2 (fun w _ => .refl lex w)
  exact List.rel_append (List.rel_append (hrefl before) h) (hrefl after)

def printed (lex : Lexicon) (frames : ℕ) (ws : List String) : Except Raised (List String) :=
  numberTokens lex frames 0 (opened lex (spelled lex (expanded lex ws)))

theorem printed_of_merges {words words' : List String} (h : Merges entries words words')
    (frames : ℕ) (before after : List String) :
    printed (Lexicon.ofEntries entries) frames (before ++ words ++ after) =
      printed (Lexicon.ofEntries entries) frames (before ++ words' ++ after) := by
  unfold printed
  cases h with
  | same => rfl
  | expanded h h' => rw [expanded_around h, expanded_around h']
  | spelled h h' hs hs' =>
    rw [expanded_around h, expanded_around h', spelled_around hs, spelled_around hs']
  | read h h' hs hs' ho ho' hread =>
    rw [expanded_around h, expanded_around h', spelled_around hs, spelled_around hs',
      opened_around ho, opened_around ho']
    exact numberTokens_alike (forall₂_around
      (hread.imp (fun _ _ hr => readAlike_of_reads hr)) _ _)

/-! ## The law -/

def tolerances : List String := ["spelling_variant", "number_word", "contraction", "unit_form"]

/-- The answers differ by one side of the entry standing in place of the other. -/
def Differ (e : LexEntry) (x y : String) : Prop :=
  ∃ before after, split x = before ++ split e.a ++ after ∧ split y = before ++ split e.b ++ after

/-- In whatever order the entries are loaded, both sides of each lead to one text and every text
has one normal form. -/
def Lawful (frames : ℕ) (entries : List LexEntry) : Prop :=
  ∀ loaded, entries.Perm loaded →
    (∀ e ∈ loaded, e.bidirectional = true → e.kind ∈ tolerances → ∀ x y, Differ e x y →
      normalForm (Lexicon.ofEntries loaded) frames x =
        normalForm (Lexicon.ofEntries loaded) frames y) ∧
    ∀ v, normalForm (Lexicon.ofEntries loaded) frames v =
      normalForm (Lexicon.ofEntries entries) frames v

def Sound (entries : List LexEntry) (e : LexEntry) : Prop :=
  frontWords e.a = frontWords e.b ∨
    (kept (frontWords e.a) ≠ [] ∧ kept (frontWords e.b) ≠ [] ∧
      Merges entries (kept (frontWords e.a)) (kept (frontWords e.b)))

/-- Entries that speak of one word, phrase or contraction say the same of it; of two number words
it is enough that neither is one. -/
structure Coherent (entries : List LexEntry) : Prop where
  contractions : ContractionsAgree entries
  spellings : PhrasesAgree "spelling_variant" entries
  numbers : PhrasesAgree "number_word" entries
  spelling : TokensAgree "spelling_variant" Eq entries
  number : TokensAgree "number_word"
    (fun c c' => c = c' ∨ (isdigit c = false ∧ isdigit c' = false)) entries
  unit : TokensAgree "unit_form" Eq entries

theorem settled_around {words : List String} (h : kept words ≠ []) (before after : List String) :
    settled (before ++ words ++ after) = kept before ++ kept words ++ kept after := by
  have happend : kept (before ++ words ++ after) = kept before ++ kept words ++ kept after := by
    unfold kept
    rw [List.filter_append, List.filter_append]
  unfold settled
  rw [happend, if_neg (by simp [h])]

theorem normalForm_printed (lex : Lexicon) (frames : ℕ) (v : String) :
    normalForm lex frames v = written <$> printed lex frames (settled (frontWords v)) :=
  normalForm_eq lex frames v

theorem normalForm_of_sound {e : LexEntry} (h : Sound entries e) (frames : ℕ) {x y : String}
    (hxy : Differ e x y) : normalForm (Lexicon.ofEntries entries) frames x =
      normalForm (Lexicon.ofEntries entries) frames y := by
  obtain ⟨before, after, hx, hy⟩ := hxy
  have hfront : ∀ {s side : String}, split s = before ++ split side ++ after →
      frontWords s = before.flatMap frontWord ++ frontWords side ++ after.flatMap frontWord := by
    intro s side hs
    unfold frontWords
    rw [hs, List.flatMap_append, List.flatMap_append]
  rw [normalForm_printed, normalForm_printed, hfront hx, hfront hy]
  rcases h with hsame | ⟨hne, hne', hmerges⟩
  · rw [hsame]
  · rw [settled_around hne, settled_around hne', printed_of_merges hmerges]

/-! ### The order of loading -/

theorem digitOf_perm (h : Coherent entries) {loaded : List LexEntry}
    (hp : entries.Perm loaded) (t : String) :
    digitOf (Lexicon.ofEntries loaded) t = digitOf (Lexicon.ofEntries entries) t := by
  have hdigit : ∀ {lex : Lexicon}, digitOf lex t =
      if isdigit ((tokenLookup lex "number_word" t).getD t) then
        (fun n => some n.toNat) <$> intOfText ((tokenLookup lex "number_word" t).getD t)
      else .ok none := rfl
  rcases tokenLookup_perm h.number hp t with ⟨hl, hl'⟩ | ⟨c, c', hl, hl', halike⟩
  · rw [hdigit, hdigit, hl, hl']
  · rw [hdigit, hdigit, hl, hl', Option.getD_some, Option.getD_some]
    rcases halike with rfl | ⟨hno, hno'⟩
    · rfl
    · rw [hno, hno', if_neg Bool.false_ne_true, if_neg Bool.false_ne_true]

theorem parseNumber_congr {lex lex' : Lexicon} (h : ∀ t, digitOf lex' t = digitOf lex t)
    (frames : ℕ) (ts : List String) : parseNumber lex' frames ts = parseNumber lex frames ts := by
  have hpeek : ∀ us, peek lex' us = peek lex us := by
    intro us
    cases us with
    | nil => rfl
    | cons u us => exact h u
  induction frames generalizing ts with
  | zero => rfl
  | succ frames ih =>
    cases ts with
    | nil => rfl
    | cons t ts => rw [parseNumber, parseNumber, h, hpeek, hpeek, ih]

theorem numberTokens_congr {lex lex' : Lexicon} (h : ∀ t, digitOf lex' t = digitOf lex t)
    (hu : ∀ t, lex'.canonicalToken "unit_form" t = lex.canonicalToken "unit_form" t)
    (frames skip : ℕ) (ts : List String) :
    numberTokens lex' frames skip ts = numberTokens lex frames skip ts := by
  induction ts generalizing skip with
  | nil => cases skip <;> rfl
  | cons t ts ih =>
    cases skip with
    | succ skip => exact ih skip
    | zero =>
      rw [numberTokens, numberTokens, parseNumber_congr h, hu]
      simp only [ih]

theorem normalForm_perm (h : Coherent entries) (frames : ℕ) {loaded : List LexEntry}
    (hp : entries.Perm loaded) (v : String) :
    normalForm (Lexicon.ofEntries loaded) frames v =
      normalForm (Lexicon.ofEntries entries) frames v := by
  have hexpanded : ∀ ws, expanded (Lexicon.ofEntries loaded) ws =
      expanded (Lexicon.ofEntries entries) ws := by
    intro ws
    unfold expanded
    simp only [expandContraction_perm h.contractions hp]
  have hspelled : ∀ ws, spelled (Lexicon.ofEntries loaded) ws =
      spelled (Lexicon.ofEntries entries) ws := by
    intro ws
    unfold spelled
    simp only [applyPhrases_perm h.spellings hp, canonicalToken_perm h.spelling hp]
  have hopened : ∀ ws, opened (Lexicon.ofEntries loaded) ws =
      opened (Lexicon.ofEntries entries) ws := by
    intro ws
    unfold opened
    rw [applyPhrases_perm h.numbers hp]
  rw [normalForm_eq, normalForm_eq, hexpanded, hspelled, hopened,
    numberTokens_congr (digitOf_perm h hp) (canonicalToken_perm h.unit hp)]

end

def pairs (kind : String) (bidirectional : Bool) (rows : List (String × String)) :
    List LexEntry := rows.map (fun row => ⟨kind, row.1, row.2, bidirectional⟩)

/-! ### Sides of one word -/

section
variable {entries : List LexEntry}

/-- A word that contractions leave alone and no phrase of the kind touches. -/
structure Untouched (kind : String) (entries : List LexEntry) (w : String) : Prop where
  word : split w = [w]
  expands : Expands entries w w
  clear : ClearIn kind entries [w]
  becomes : BecomesIn kind entries [w] [w]

instance (kind : String) (entries : List LexEntry) (w : String) :
    Decidable (Untouched kind entries w) :=
  decidable_of_iff (split w = [w] ∧ Expands entries w w ∧ ClearIn kind entries [w] ∧
      BecomesIn kind entries [w] [w])
    ⟨fun ⟨h1, h2, h3, h4⟩ => ⟨h1, h2, h3, h4⟩, fun ⟨h1, h2, h3, h4⟩ => ⟨h1, h2, h3, h4⟩⟩

theorem expandedTo_words {ws : List String} (h : ∀ w ∈ ws, split w = [w] ∧ Expands entries w w) :
    ExpandedTo entries ws ws := by
  refine ⟨ws, List.forall₂_same.2 (fun w hw => (h w hw).2), ?_⟩
  induction ws with
  | nil => rfl
  | cons w ws ih =>
    rw [List.flatMap_cons, (h w List.mem_cons_self).1,
      ← ih (fun u hu => h u (List.mem_cons_of_mem w hu))]
    rfl

theorem Untouched.expandedTo {kind w : String} (h : Untouched kind entries w) :
    ExpandedTo entries [w] [w] :=
  expandedTo_words (fun u hu => by rw [List.mem_singleton.1 hu]; exact ⟨h.word, h.expands⟩)

theorem Untouched.spelledTo {w c : String} (h : Untouched "spelling_variant" entries w)
    (hc : Settles "spelling_variant" entries w c) : SpelledTo entries [w] (split c) :=
  ⟨[w], [c], .one (List.cons_ne_nil w []) h.clear h.becomes, .cons hc .nil, by simp⟩

theorem merges_spelling {s t c : String} (hs : Untouched "spelling_variant" entries s)
    (ht : Untouched "spelling_variant" entries t) (hc : Settles "spelling_variant" entries s c)
    (hc' : Settles "spelling_variant" entries t c) : Merges entries [s] [t] :=
  .spelled hs.expandedTo ht.expandedTo (hs.spelledTo hc) (ht.spelledTo hc')

theorem merges_read {s t : String} (hs : Untouched "spelling_variant" entries s)
    (ht : Untouched "spelling_variant" entries t) (hc : Settles "spelling_variant" entries s s)
    (hc' : Settles "spelling_variant" entries t t) (hn : Untouched "number_word" entries s)
    (hn' : Untouched "number_word" entries t) (ho : splitOn '-' s = [s])
    (ho' : splitOn '-' t = [t]) (hread : ReadsAlike entries s t) : Merges entries [s] [t] := by
  have hspell : SpelledTo entries [s] [s] := hs.word ▸ hs.spelledTo hc
  have hspell' : SpelledTo entries [t] [t] := ht.word ▸ ht.spelledTo hc'
  have hopen : OpenedTo entries [s] [s] :=
    ⟨[s], .one (List.cons_ne_nil s []) hn.clear hn.becomes, by simp [ho]⟩
  have hopen' : OpenedTo entries [t] [t] :=
    ⟨[t], .one (List.cons_ne_nil t []) hn'.clear hn'.becomes, by simp [ho']⟩
  exact .read hs.expandedTo ht.expandedTo hspell hspell' hopen hopen' (.cons hread .nil)

/-! ### Words that are left as they are -/

def PhraseFree (kind : String) (entries : List LexEntry) (ws : List String) : Prop :=
  ∀ e ∈ entries, IsPhrase kind e → ∀ w ∈ ws, w ∉ split e.a ∧ w ∉ split e.b

/-- Words that no stage changes and no number is read from. -/
structure Plain (entries : List LexEntry) (ws : List String) : Prop where
  words : ∀ w ∈ ws, split w = [w] ∧ splitOn '-' w = [w] ∧ isdigit w = false
  expands : ∀ w ∈ ws, Expands entries w w
  spellings : PhraseFree "spelling_variant" entries ws
  numbers : PhraseFree "number_word" entries ws
  canonical : ∀ e ∈ entries, ∀ w ∈ ws, e.b = w → e.a = w

variable {ws : List String} {w : String}

theorem clearOf_of_not_mem {gram : List String} (h : w ∉ gram) : ClearOf gram [w] := by
  have hself : w ∈ [w] := List.mem_singleton.2 rfl
  refine ⟨fun i hi _ => ⟨fun hpre => ?_, fun hpre => h (List.mem_of_mem_drop (hpre.subset hself))⟩,
    fun hpre => absurd (hpre.subset hself) h⟩
  obtain ⟨t, ht⟩ := List.exists_mem_of_ne_nil (gram.drop i) (by simpa using hi)
  exact h (List.mem_singleton.1 (hpre.subset ht) ▸ List.mem_of_mem_drop ht)

theorem PhraseFree.block {kind : String} (h : PhraseFree kind entries ws) (hw : w ∈ ws) :
    BlocksIn kind entries [w] [w] := by
  refine .one (List.cons_ne_nil w []) (fun e he hp => ?_)
    ⟨fun e he hp hb => ?_, .inr ⟨rfl, .inl rfl⟩⟩
  · obtain ⟨ha, hb⟩ := h e he hp w hw
    exact ⟨clearOf_of_not_mem hb, fun _ => clearOf_of_not_mem ha⟩
  · exact absurd (hb ▸ List.mem_singleton.2 rfl) (h e he hp w hw).2

theorem Plain.settles (h : Plain entries ws) (hw : w ∈ ws) (kind : String) :
    Settles kind entries w w := by
  refine ⟨?_, .inl rfl⟩
  rintro e he ⟨_, _, _, _, hb | ⟨_, ha⟩⟩
  · exact h.canonical e he w hw hb
  · exact ha

theorem eq_self_of_around {f : List String → List String} (hnil : f [] = [])
    (h : ∀ w ∈ ws, ∀ after, f ([] ++ [w] ++ after) = f [] ++ [w] ++ f after) : f ws = ws := by
  induction ws with
  | nil => exact hnil
  | cons w ws ih =>
    have hcons := h w List.mem_cons_self ws
    rw [hnil, ih (fun u hu => h u (List.mem_cons_of_mem w hu))] at hcons
    exact hcons

theorem numberTokens_of_unread {lex : Lexicon} (frames : ℕ) (h : ∀ w ∈ ws,
    digitOf lex w = .ok none ∧ lex.canonicalToken "unit_form" w = w) :
    numberTokens lex (frames + 1) 0 ws = .ok ws := by
  induction ws with
  | nil => rfl
  | cons w ws ih =>
    obtain ⟨hdigit, hunit⟩ := h w List.mem_cons_self
    have hparse : parseNumber lex (frames + 1) (w :: ws) = .ok (0, 0) := by
      rw [parseNumber, hdigit]
      rfl
    rw [numberTokens, hparse]
    dsimp only [bind, Except.bind]
    rw [if_pos rfl, hunit, ih (fun u hu => h u (List.mem_cons_of_mem w hu))]
    rfl

theorem printed_of_plain {words : List String} (h : Plain entries ws)
    (hsub : ∀ w ∈ words, w ∈ ws) (frames : ℕ) :
    printed (Lexicon.ofEntries entries) (frames + 1) words = .ok words := by
  have hexpanded : expanded (Lexicon.ofEntries entries) words = words := by
    refine eq_self_of_around rfl (fun w hw => expanded_around (expandedTo_words ?_) [])
    simpa using ⟨(h.words w (hsub w hw)).1, h.expands w (hsub w hw)⟩
  have hspelled : spelled (Lexicon.ofEntries entries) words = words :=
    eq_self_of_around (by unfold spelled; rw [applyPhrases_eq]; rfl) (fun w hw => spelled_around
      ⟨[w], [w], h.spellings.block (hsub w hw), .cons (h.settles (hsub w hw) _) .nil,
        by simp [(h.words w (hsub w hw)).1]⟩ [])
  have hopened : opened (Lexicon.ofEntries entries) words = words :=
    eq_self_of_around (by unfold opened; rw [applyPhrases_eq]; rfl) (fun w hw => opened_around
      ⟨[w], h.numbers.block (hsub w hw), by simp [(h.words w (hsub w hw)).2.1]⟩ [])
  unfold printed
  rw [hexpanded, hspelled, hopened]
  refine numberTokens_of_unread frames (fun w hw => ⟨?_, ?_⟩)
  · unfold digitOf
    dsimp only
    rw [canonicalToken_of_settles (h.settles (hsub w hw) _), (h.words w (hsub w hw)).2.2]
    rfl
  · exact canonicalToken_of_settles (h.settles (hsub w hw) _)

end

/-! ### A lexicon that keeps the law, and the shipped one -/

def tolerant : List LexEntry :=
  [⟨"spelling_variant", "colour", "color", true⟩, ⟨"number_word", "2", "two", true⟩,
    ⟨"contraction", "don't", "do not", true⟩, ⟨"unit_form", "km", "kilometres", true⟩]

def shipped : List LexEntry :=
  pairs "number_word" true
    [("0", "zero"), ("0", "nought"), ("0", "oh"), ("1", "one"), ("2", "two"), ("3", "three"),
      ("4", "four"), ("5", "five"), ("6", "six"), ("7", "seven"), ("8", "eight"), ("9", "nine"),
      ("10", "ten"), ("11", "eleven"), ("12", "twelve"), ("13", "thirteen"), ("14", "fourteen"),
      ("15", "fifteen"), ("16", "sixteen"), ("17", "seventeen"), ("18", "eighteen"),
      ("19", "nineteen"), ("20", "twenty"), ("30", "thirty"), ("40", "forty"), ("50", "fifty"),
      ("60", "sixty"), ("70", "seventy"), ("80", "eighty"), ("90", "ninety"),
      ("100", "hundred"), ("100", "one hundred"), ("100", "a hundred"), ("1000", "thousand"),
      ("1000", "one thousand"), ("1000", "a thousand"), ("1000000", "million"), ("0.5", "half"),
      ("0.5", "a half"), ("0.25", "quarter"), ("0.25", "a quarter")] ++
  pairs "unit_form" true
    [("%", "percent"), ("%", "per cent"), ("km", "kilometres"), ("km", "kilometers"),
      ("kg", "kilograms"), ("m", "metres"), ("cm", "centimetres"), ("hr", "hour"),
      ("hrs", "hours"), ("min", "minutes"), ("£", "pounds"), ("$", "dollars")] ++
  pairs "article" false
    [("the", ""), ("a", ""), ("an", "")] ++
  pairs "contraction" true
    [("don't", "do not"), ("doesn't", "does not"), ("can't", "cannot"), ("won't", "will not"),
      ("it's", "it is"), ("they're", "they are"), ("isn't", "is not"), ("aren't", "are not")] ++
  pairs "spelling_variant" true
    [("colour", "color"), ("colours", "colors"), ("behaviour", "behavior"),
      ("behaviours", "behaviors"), ("favour", "favor"), ("flavour", "flavor"),
      ("flavours", "flavors"), ("harbour", "harbor"), ("honour", "honor"), ("humour", "humor"),
      ("labour", "labor"), ("neighbour", "neighbor"), ("neighbours", "neighbors"),
      ("neighbourhood", "neighborhood"), ("odour", "odor"), ("rumour", "rumor"),
      ("vapour", "vapor"), ("centre", "center"), ("centres", "centers"), ("fibre", "fiber"),
      ("fibres", "fibers"), ("litre", "liter"), ("litres", "liters"), ("metre", "meter"),
      ("metres", "meters"), ("theatre", "theater"), ("theatres", "theaters"),
      ("analyse", "analyze"), ("analysed", "analyzed"), ("criticise", "criticize"),
      ("emphasise", "emphasize"), ("organise", "organize"), ("organisation", "organization"),
      ("organisations", "organizations"), ("realise", "realize"), ("recognise", "recognize"),
      ("specialise", "specialize"), ("specialised", "specialized"), ("apologise", "apologize"),
      ("minimise", "minimize"), ("maximise", "maximize"), ("utilise", "utilize"),
      ("defence", "defense"), ("offence", "offense"), ("licence", "license"),
      ("practise", "practice"), ("programme", "program"), ("programmes", "programs"),
      ("catalogue", "catalog"), ("dialogue", "dialog"), ("travelled", "traveled"),
      ("travelling", "traveling"), ("traveller", "traveler"), ("cancelled", "canceled"),
      ("modelling", "modeling"), ("jewellery", "jewelry"), ("enrolment", "enrollment"),
      ("fulfil", "fulfill"), ("skilful", "skillful"), ("ageing", "aging"), ("cheque", "check"),
      ("grey", "gray"), ("tyre", "tire"), ("plough", "plow"), ("sceptical", "skeptical"),
      ("mould", "mold"), ("storey", "story"), ("storeys", "stories"), ("aluminium", "aluminum"),
      ("archaeology", "archeology"), ("paediatric", "pediatric"),
      ("encyclopaedia", "encyclopedia"), ("manoeuvre", "maneuver"), ("kerb", "curb"),
      ("draught", "draft"), ("pyjamas", "pajamas"), ("moustache", "mustache"),
      ("aeroplane", "airplane"), ("whilst", "while"), ("amongst", "among"),
      ("car park", "carpark"), ("timetable", "time table"), ("healthcare", "health care"),
      ("email", "e-mail")]

theorem shipped_plain : Plain shipped ["email", "e", "mail"] where
  words := by decide +kernel
  expands := by decide +kernel
  spellings := by
    unfold PhraseFree
    decide +kernel
  numbers := by
    unfold PhraseFree
    decide +kernel
  canonical := by decide +kernel

example : frontWords "e-mail" = ["e", "mail"] := by decide +kernel

end IeltsHub.LexiconLaw
