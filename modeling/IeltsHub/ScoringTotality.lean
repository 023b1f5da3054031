import IeltsHub.NumberGrammar
import IeltsHub.QtypesRegistry

set_option autoImplicit false

/-!
# When scoring an item returns

`Scorable` says, of the type, the key, the tolerance and the response alone, that `score_item`
returns: every place read as an object, a list or a number holds one, and every text that reaches
`number_word` is in the grammar of spelled numbers.
-/
namespace IeltsHub.ScoringTotality
open PyExc PyText PyValue PyDict PlatformErrors QtypesSchemas QtypesLexicon QtypesNormalizers
  QtypesWordlimit QtypesPrimitives QtypesRegistry

/-! ## The chain of normalizers -/

/-- What a normalizer other than `number_word` makes of a text. -/
def edit (lex : Lexicon) (v : String) (n : Normalizer) : String :=
  match implementation lex 0 n v with
  | .ok w => w
  | .error _ => v

theorem implementation_eq_ok {n : Normalizer} (hn : n ≠ .numberWord) (lex : Lexicon) (f : ℕ)
    (v : String) : implementation lex f n v = .ok (edit lex v n) := by
  cases n with
  | numberWord => exact absurd rfl hn
  | _ => rfl

theorem runStep_eq_ok {p : Pipeline} {d : Normalized} {n : Normalizer} {w : String}
    (h : implementation p.lexicon p.frames n d.value = .ok w) :
    ∃ e, p.runStep d n = .ok e ∧ e.value = w := by
  unfold Pipeline.runStep
  rw [h]
  change ∃ e : Normalized, (if w ≠ d.value then _ else _) = Except.ok e ∧ e.value = w
  by_cases hw : w = d.value
  · rw [if_neg (not_not_intro hw)]
    exact ⟨d, rfl, hw.symm⟩
  · rw [if_pos hw]
    exact ⟨_, rfl, rfl⟩

theorem returns_runStep {p : Pipeline} {d : Normalized} {n : Normalizer} :
    Returns (p.runStep d n) ↔ Returns (implementation p.lexicon p.frames n d.value) := by
  constructor
  · intro h
    obtain ⟨w, hw, _⟩ := returns_bind.1 h
    exact ⟨w, hw⟩
  · rintro ⟨w, hw⟩
    obtain ⟨e, he, _⟩ := runStep_eq_ok hw
    exact ⟨e, he⟩

theorem foldlM_runStep {p : Pipeline} {names : List Normalizer} (d : Normalized)
    (hn : Normalizer.numberWord ∉ names) :
    ∃ e, names.foldlM p.runStep d = .ok e ∧ e.value = names.foldl (edit p.lexicon) d.value := by
  induction names generalizing d with
  | nil => exact ⟨d, rfl, rfl⟩
  | cons n names ih =>
    rw [List.mem_cons, not_or] at hn
    obtain ⟨e, he, hv⟩ := runStep_eq_ok (implementation_eq_ok (Ne.symm hn.1) p.lexicon p.frames d.value)
    obtain ⟨e', he', hv'⟩ := ih e hn.2
    refine ⟨e', ?_, ?_⟩
    · rw [List.foldlM_cons, he]
      exact he'
    · rw [hv', hv]
      rfl

/-- The text as the normalizers before `number_word` leave it. -/
def beforeNumbers (p : Pipeline) (v : String) : String :=
  (p.names.takeWhile (fun n => n ≠ .numberWord)).foldl (edit p.lexicon) v

/-- Every number the text spells can be read and written, where the chain reads numbers. -/
def Readable (p : Pipeline) (v : String) : Prop :=
  Normalizer.numberWord ∈ p.names →
    NumberGrammar.Reads p.lexicon p.frames (numberWords p.lexicon (beforeNumbers p v))

theorem names_split {p : Pipeline} (h : Normalizer.numberWord ∈ p.names) :
    ∃ after, p.names = p.names.takeWhile (fun n => n ≠ .numberWord) ++ .numberWord :: after ∧
      Normalizer.numberWord ∉ after := by
  have hn : p.names.Nodup := p.canonical.nodup (by decide)
  have hs := List.takeWhile_append_dropWhile (p := fun n => decide (n ≠ .numberWord)) (l := p.names)
  cases hd : p.names.dropWhile (fun n => decide (n ≠ .numberWord)) with
  | nil =>
    have := List.dropWhile_eq_nil_iff.1 hd _ h
    simp at this
  | cons m after =>
    have hm : m = .numberWord := by
      have hne : p.names.dropWhile (fun n => decide (n ≠ Normalizer.numberWord)) ≠ [] := by
        rw [hd]
        exact List.cons_ne_nil m after
      have hf := List.head_dropWhile_not _ hne
      simp only [hd, List.head_cons] at hf
      simpa using hf
    subst hm
    rw [hd] at hs
    refine ⟨after, hs.symm, ?_⟩
    rw [← hs] at hn
    exact (List.nodup_cons.1 (List.nodup_append.1 hn).2.1).1

theorem returns_run (p : Pipeline) (v : String) : Returns (p.run v) ↔ Readable p v := by
  unfold Readable Pipeline.run
  by_cases h : Normalizer.numberWord ∈ p.names
  · obtain ⟨after, hs, ha⟩ := names_split h
    have hb : Normalizer.numberWord ∉ p.names.takeWhile (fun n => n ≠ .numberWord) := by
      intro hm
      have := List.mem_takeWhile_imp hm
      simp at this
    obtain ⟨e, he, hv⟩ := foldlM_runStep (p := p) ⟨v, []⟩ hb
    have hstep : Returns (p.runStep e .numberWord) ↔
        NumberGrammar.Reads p.lexicon p.frames (numberWords p.lexicon (beforeNumbers p v)) := by
      rw [returns_runStep, hv]
      exact NumberGrammar.returns_numberWord p.lexicon p.frames (beforeNumbers p v)
    simp only [h, true_implies]
    rw [hs, List.foldlM_append, returns_bind_of_ok he, List.foldlM_cons, ← hstep, returns_bind]
    constructor
    · rintro ⟨w, hw, _⟩
      exact ⟨w, hw⟩
    · rintro ⟨w, hw⟩
      obtain ⟨u, hu, _⟩ := foldlM_runStep (p := p) w ha
      exact ⟨w, hw, u, hu⟩
  · obtain ⟨e, he, _⟩ := foldlM_runStep (p := p) ⟨v, []⟩ h
    exact iff_of_true ⟨e, he⟩ (fun hm => absurd hm h)

/-! ## What a key and a response must be to be read -/

/-- A list of names: nothing at all, or something to iterate whose elements a set can hold. -/
def NamesLegible (v : Json) : Prop :=
  truthy v = true → ∃ es, elements? v = some es ∧ es.all hashable = true

def chainOf (p : Pipeline) (names : Json) : Pipeline :=
  if truthy names then Pipeline.select ((elements? names).getD []) p.lexicon p.frames else p

/-- Options: something to iterate, each element an object with an `id`. -/
def OptionsLegible (listed : Json) : Prop :=
  ∃ es, elements? listed = some es ∧ ∀ o ∈ es, ∃ d id, asDict o = some d ∧ d.get? "id" = some id

/-- The option source is one of the four, and what it names can be read. -/
def SourceLegible (ctx : ScoringContext) : Prop :=
  let source := optionSource ctx.spec
  (source = .str "payload.options" ∧ OptionsLegible (getOr ctx.payload "options" (.arr []))) ∨
  source = .str "group.option_bank" ∨
  (source = .str "fixed" ∧ OptionsLegible (getOr ctx.spec.options "fixed_options" (.arr []))) ∨
  source = .str "section.passage_version.paragraph_labels"

/-- A key's slots are an object, and so are the submitted slots unless the key has none. -/
def SlotsLegible (response : Json) (key : Obj) (each : Obj → String × Json → Prop) : Prop :=
  ∃ slots, asDict (getOr key "slots" (.obj [])) = some slots ∧
    ∀ slot ∈ slots.entries, ∃ submitted, asDict (responseSlots response) = some submitted ∧
      each submitted slot

def AcceptLegible (spec : Obj) (accepted : List String) : Prop :=
  ∃ es, elements? (getD spec "accept" (.arr [])) = some es ∧ accepted = es.map pyStr

def ChoiceSlotLegible (_ : Obj) (slot : String × Json) : Prop :=
  ∃ spec accepted, asDict slot.2 = some spec ∧ AcceptLegible spec accepted

def limitOf (raw : Json) : Option WordLimit :=
  match WordLimit.fromDict raw with
  | .ok limit => limit
  | .error _ => none

def slotChain (ctx : ScoringContext) (spec : Obj) : Pipeline :=
  let p := chainOf ctx.pipeline (getD spec "normalizers" .null)
  if truthy (getD spec "case_sensitive" .null) then p.withoutCasefold else p

def limitFor (ctx : ScoringContext) (spec : Obj) : Option WordLimit :=
  (limitOf (getD spec "word_limit" .null)).or ctx.group.wordLimit

def overLimit (ctx : ScoringContext) (spec : Obj) (raw : String) : Bool :=
  applyLimit ctx.spec && violates raw (limitFor ctx spec)

/-- The chain reads the response, unless the word limit already decides, and the alternatives. -/
def TextSlotLegible (ctx : ScoringContext) (submitted : Obj) (slot : String × Json) : Prop :=
  ∃ spec accepted, asDict slot.2 = some spec ∧ AcceptLegible spec accepted ∧
    NamesLegible (getD spec "normalizers" .null) ∧
    WordLimit.Legible (getD spec "word_limit" .null) ∧
    ∀ raw, asText (getD submitted slot.1 .null) = some raw → overLimit ctx spec raw = false →
      Readable (slotChain ctx spec) raw ∧ ∀ a ∈ accepted, Readable (slotChain ctx spec) a

/-- A selection: a list under `selected`, or slots that are an object; or no object at all. -/
def SelectionLegible (response : Json) : Prop :=
  ∀ d, asDict response = some d →
    if (d.get? "selected").isSome then ∃ es, elements? (getOr d "selected" (.arr [])) = some es
    else ∃ slots, asDict (responseSlots response) = some slots

def PointsLegible (spec : ScoringSpec) (option : String) : Prop :=
  Returns (decimal (getD spec.options option (.int 1)) : Except Raised ℚ)

def CountLegible (spec : ScoringSpec) : Prop :=
  getD spec.options "select_count" (.str "from_key") = .str "from_key" ∨
    Returns (pyInt (getD spec.options "select_count" (.str "from_key")) : Except Raised ℤ)

def PrimitiveLegible (ctx : ScoringContext) (response : Json) (key : Obj) : Primitive → Prop
  | .choicePerSlot => SourceLegible ctx ∧ PointsLegible ctx.spec "points_per_slot" ∧
      SlotsLegible response key ChoiceSlotLegible
  | .textPerSlot => PointsLegible ctx.spec "points_per_slot" ∧
      SlotsLegible response key (TextSlotLegible ctx)
  | .setSelection => (∃ es, elements? (getOr key "correct" (.arr [])) = some es) ∧
      CountLegible ctx.spec ∧ PointsLegible ctx.spec "points_per_correct" ∧
      SelectionLegible response

def contextOf (s : Scorer) (spec : ScoringSpec) (req : ScoreRequest) : ScoringContext where
  payload := req.payload
  group :=
    if truthy (getD req.tolerance "word_limit" .null) then
      { req.group with wordLimit := limitOf (getD req.tolerance "word_limit" .null) }
    else req.group
  spec := spec
  pipeline := chainOf
    (Pipeline.select (spec.normalizers.map (fun n => .str n.name)) s.lexicon s.frames)
    (getD req.tolerance "normalizers" .null)
  tolerance := req.tolerance
  paragraphLabels := req.paragraphLabels

/-- `score_item` can read the request to its end. -/
def Scorable (s : Scorer) (req : ScoreRequest) : Prop :=
  ∃ definition, s.registry.defs.get? (req.typeKey, req.typeVersion) = some definition ∧
    NamesLegible (getD req.tolerance "normalizers" .null) ∧
    WordLimit.Legible (getD req.tolerance "word_limit" .null) ∧
    PrimitiveLegible (contextOf s definition.scoring req) req.response req.key
      definition.scoring.primitive

/-! ## Reading the parts -/

theorem returns_optionOf (o : Json) :
    Returns (optionOf o) ↔ ∃ d id, asDict o = some d ∧ d.get? "id" = some id := by
  unfold optionOf
  simp only [returns_bind, subscript_eq_ok, dictMethod_eq_ok]
  constructor
  · rintro ⟨id, ⟨d, hd, hid⟩, _⟩
    exact ⟨d, id, hd, hid⟩
  · rintro ⟨d, id, hd, hid⟩
    exact ⟨id, ⟨d, hd, hid⟩, d, hd, returns_pure _⟩

theorem returns_optionsOf (listed : Json) : Returns (optionsOf listed) ↔ OptionsLegible listed := by
  unfold optionsOf OptionsLegible
  simp only [returns_bind, iter_eq_ok, returns_mapM, returns_optionOf]

theorem returns_resolveOptions (ctx : ScoringContext) :
    Returns (resolveOptions ctx) ↔ SourceLegible ctx := by
  unfold resolveOptions SourceLegible
  dsimp only
  generalize optionSource ctx.spec = source
  by_cases h1 : source = .str "payload.options"
  · simp [h1, returns_optionsOf]
  · by_cases h2 : source = .str "group.option_bank"
    · simp [h2]
    · by_cases h3 : source = .str "fixed"
      · simp [h3, returns_optionsOf]
      · by_cases h4 : source = .str "section.passage_version.paragraph_labels"
        · simp [h4]
        · simp [h1, h2, h3, h4]

theorem keySlots_eq_ok {key : Obj} {entries : List (String × Json)} :
    keySlots key = .ok entries ↔
      ∃ slots, asDict (getOr key "slots" (.obj [])) = some slots ∧ slots.entries = entries := by
  unfold keySlots
  simp only [map_eq_ok, dictMethod_eq_ok]

theorem submittedText_eq_ok {submitted : Json} {slotKey : String} {raw : Option String} :
    submittedText submitted slotKey = .ok raw ↔
      ∃ d, asDict submitted = some d ∧ asText (getD d slotKey .null) = raw := by
  unfold submittedText
  simp only [map_eq_ok, dictMethod_eq_ok]

theorem acceptedOf_eq_ok {spec : Obj} {accepted : List String} :
    acceptedOf spec = .ok accepted ↔ AcceptLegible spec accepted := by
  unfold acceptedOf AcceptLegible
  simp only [map_eq_ok, iter_eq_ok]
  exact exists_congr (fun es => and_congr_right (fun _ => eq_comm))

theorem fromDict_eq_ok {raw : Json} {l : Option WordLimit} :
    WordLimit.fromDict raw = .ok l ↔ WordLimit.Legible raw ∧ l = limitOf raw := by
  rw [← WordLimit.returns_fromDict]
  unfold limitOf Returns
  cases WordLimit.fromDict raw with
  | ok m => simp [eq_comm]
  | error e => simp

theorem ofNames_eq_ok {names : List Json} {lex : Lexicon} {f : ℕ} {p : Pipeline} :
    Pipeline.ofNames names lex f = .ok p ↔
      names.all hashable = true ∧ p = Pipeline.select names lex f := by
  unfold Pipeline.ofNames
  split
  · rename_i h
    simp [h, eq_comm]
  · rename_i h
    simp [h]

theorem override_eq_ok {p q : Pipeline} {names : Json} :
    p.override names = .ok q ↔ NamesLegible names ∧ q = chainOf p names := by
  unfold Pipeline.override NamesLegible chainOf
  by_cases h : truthy names = true
  · rw [if_pos h, if_pos h]
    simp only [h, true_implies, bind_eq_ok, iter_eq_ok, ofNames_eq_ok]
    constructor
    · rintro ⟨es, hes, hall, rfl⟩
      exact ⟨⟨es, hes, hall⟩, by rw [hes]; rfl⟩
    · rintro ⟨⟨es, hes, hall⟩, hq⟩
      exact ⟨es, hes, hall, by rw [hq, hes]; rfl⟩
  · rw [if_neg h, if_neg h, Except.ok.injEq]
    constructor
    · rintro rfl
      exact ⟨fun ht => absurd ht h, rfl⟩
    · rintro ⟨_, rfl⟩
      rfl

theorem slotPipeline_eq_ok {ctx : ScoringContext} {spec : Obj} {p : Pipeline} :
    slotPipeline ctx spec = .ok p ↔
      NamesLegible (getD spec "normalizers" .null) ∧ p = slotChain ctx spec := by
  unfold slotPipeline slotChain
  simp only [map_eq_ok, override_eq_ok]
  constructor
  · rintro ⟨q, ⟨hn, rfl⟩, rfl⟩
    exact ⟨hn, rfl⟩
  · rintro ⟨hn, rfl⟩
    exact ⟨_, ⟨hn, rfl⟩, rfl⟩

theorem slotLimit_eq_ok {ctx : ScoringContext} {spec : Obj} {l : Option WordLimit} :
    slotLimit ctx spec = .ok l ↔
      WordLimit.Legible (getD spec "word_limit" .null) ∧ l = limitFor ctx spec := by
  unfold slotLimit limitFor
  simp only [map_eq_ok, fromDict_eq_ok]
  constructor
  · rintro ⟨own, ⟨hl, rfl⟩, rfl⟩
    exact ⟨hl, rfl⟩
  · rintro ⟨hl, rfl⟩
    exact ⟨_, ⟨hl, rfl⟩, rfl⟩

theorem readTextSlot_eq_ok {ctx : ScoringContext} {submitted : Json} {slot : String × Json}
    {t : TextSlot} :
    readTextSlot ctx submitted slot = .ok t ↔
      ∃ sub spec accepted, asDict submitted = some sub ∧ asDict slot.2 = some spec ∧
        AcceptLegible spec accepted ∧ NamesLegible (getD spec "normalizers" .null) ∧
        WordLimit.Legible (getD spec "word_limit" .null) ∧
        t = ⟨asText (getD sub slot.1 .null), accepted, slotChain ctx spec, limitFor ctx spec⟩ := by
  unfold readTextSlot
  simp only [bind_eq_ok, submittedText_eq_ok, dictMethod_eq_ok, acceptedOf_eq_ok,
    slotPipeline_eq_ok, slotLimit_eq_ok]
  constructor
  · rintro ⟨raw, ⟨sub, hsub, rfl⟩, spec, hspec, acc, hacc, p, ⟨hn, rfl⟩, l, ⟨hl, rfl⟩, h⟩
    cases h
    exact ⟨sub, spec, acc, hsub, hspec, hacc, hn, hl, rfl⟩
  · rintro ⟨sub, spec, acc, hsub, hspec, hacc, hn, hl, rfl⟩
    exact ⟨_, ⟨sub, hsub, rfl⟩, spec, hspec, acc, hacc, _, ⟨hn, rfl⟩, _, ⟨hl, rfl⟩, rfl⟩

/-! ## The primitives -/

theorem returns_choiceSlot {ctx : ScoringContext} {options : List BankOption} {perSlot : ℚ}
    {submitted : Json} {slot : String × Json} :
    Returns (choiceSlot ctx options perSlot submitted slot) ↔
      ∃ sub, asDict submitted = some sub ∧ ChoiceSlotLegible sub slot := by
  unfold choiceSlot ChoiceSlotLegible
  simp only [returns_bind, submittedText_eq_ok, dictMethod_eq_ok, acceptedOf_eq_ok, returns_pure,
    and_true]
  constructor
  · rintro ⟨raw, ⟨sub, hsub, _⟩, spec, hspec, acc, hacc⟩
    exact ⟨sub, hsub, spec, acc, hspec, hacc⟩
  · rintro ⟨sub, hsub, spec, acc, hspec, hacc⟩
    exact ⟨_, ⟨sub, hsub, rfl⟩, spec, hspec, acc, hacc⟩

theorem returns_gradeText {spec : ScoringSpec} {perSlot : ℚ} {slotKey : String} {t : TextSlot} :
    Returns (gradeText spec perSlot slotKey t) ↔ ∀ raw, t.raw = some raw →
      (applyLimit spec && violates raw t.limit) = false →
        Readable t.pipeline raw ∧ ∀ a ∈ t.accepted, Readable t.pipeline a := by
  unfold gradeText
  dsimp only
  cases hraw : t.raw with
  | none => simp
  | some raw =>
    have hv : (applyLimit spec && t.limit.isSome && violates raw t.limit) =
        (applyLimit spec && violates raw t.limit) := by
      cases t.limit with
      | none => simp
      | some l => simp
    simp only [Option.some.injEq, forall_eq', hv]
    by_cases h : (applyLimit spec && violates raw t.limit) = true
    · simp [h]
    · rw [Bool.not_eq_true] at h
      simp only [h, true_implies, returns_bind, Bool.false_eq_true, if_false, ← returns_run,
        ← returns_mapM]
      constructor
      · rintro ⟨got, hgot, wants, hwants, _⟩
        exact ⟨⟨got, hgot⟩, wants, hwants⟩
      · rintro ⟨⟨got, hgot⟩, wants, hwants⟩
        refine ⟨got, hgot, wants, hwants, ?_⟩
        split <;> exact returns_pure _

theorem returns_textSlot {ctx : ScoringContext} {perSlot : ℚ} {submitted : Json}
    {slot : String × Json} :
    Returns (textSlot ctx perSlot submitted slot) ↔
      ∃ sub, asDict submitted = some sub ∧ TextSlotLegible ctx sub slot := by
  unfold textSlot TextSlotLegible overLimit
  simp only [returns_bind, readTextSlot_eq_ok, returns_gradeText]
  constructor
  · rintro ⟨t, ⟨sub, spec, acc, hsub, hspec, hacc, hn, hl, rfl⟩, h⟩
    exact ⟨sub, hsub, spec, acc, hspec, hacc, hn, hl, h⟩
  · rintro ⟨sub, hsub, spec, acc, hspec, hacc, hn, hl, h⟩
    exact ⟨_, ⟨sub, spec, acc, hsub, hspec, hacc, hn, hl, rfl⟩, h⟩

theorem returns_slots {β : Type} {key : Obj} {response : Json}
    {grade : String × Json → Except Raised SlotScore} {finish : List SlotScore → Except Raised β}
    {each : Obj → String × Json → Prop}
    (hgrade : ∀ slot, Returns (grade slot) ↔
      ∃ sub, asDict (responseSlots response) = some sub ∧ each sub slot)
    (hfinish : ∀ scores, Returns (finish scores)) :
    Returns (keySlots key >>= fun slots => slots.mapM grade >>= finish) ↔
      SlotsLegible response key each := by
  unfold SlotsLegible
  simp only [returns_bind, keySlots_eq_ok, hfinish, and_true, ← hgrade]
  constructor
  · rintro ⟨entries, ⟨slots, hslots, rfl⟩, h⟩
    exact ⟨slots, hslots, returns_mapM.1 h⟩
  · rintro ⟨slots, hslots, h⟩
    exact ⟨_, ⟨slots, hslots, rfl⟩, returns_mapM.2 h⟩

theorem returns_choicePerSlot (ctx : ScoringContext) (response : Json) (key : Obj) :
    Returns (choicePerSlot response key ctx) ↔
      PrimitiveLegible ctx response key .choicePerSlot := by
  unfold choicePerSlot PrimitiveLegible PointsLegible
  rw [returns_bind, ← returns_resolveOptions]
  constructor
  · rintro ⟨options, ho, h⟩
    obtain ⟨perSlot, hp, h⟩ := returns_bind.1 h
    exact ⟨⟨options, ho⟩, ⟨perSlot, hp⟩,
      (returns_slots (fun _ => returns_choiceSlot) (fun _ => returns_pure _)).1 h⟩
  · rintro ⟨⟨options, ho⟩, ⟨perSlot, hp⟩, h⟩
    refine ⟨options, ho, returns_bind.2 ⟨perSlot, hp, ?_⟩⟩
    exact (returns_slots (fun _ => returns_choiceSlot) (fun _ => returns_pure _)).2 h

theorem returns_textPerSlot (ctx : ScoringContext) (response : Json) (key : Obj) :
    Returns (textPerSlot response key ctx) ↔ PrimitiveLegible ctx response key .textPerSlot := by
  unfold textPerSlot PrimitiveLegible PointsLegible
  rw [returns_bind]
  constructor
  · rintro ⟨perSlot, hp, h⟩
    exact ⟨⟨perSlot, hp⟩,
      (returns_slots (fun _ => returns_textSlot) (fun _ => returns_pure _)).1 h⟩
  · rintro ⟨⟨perSlot, hp⟩, h⟩
    exact ⟨perSlot, hp,
      (returns_slots (fun _ => returns_textSlot) (fun _ => returns_pure _)).2 h⟩

theorem returns_selectCount (spec : ScoringSpec) (correct : List String) :
    Returns (selectCount spec correct) ↔ CountLegible spec := by
  unfold selectCount CountLegible
  dsimp only
  split
  · rename_i h
    simp [h]
  · rename_i h
    simp [h]

theorem returns_selection (response : Json) :
    Returns (selection response) ↔ SelectionLegible response := by
  unfold selection SelectionLegible
  cases asDict response with
  | none => simp
  | some d =>
    simp only [Option.some.injEq, forall_eq']
    split
    · rw [returns_map, returns_iter]
    · rw [returns_map, returns_dictMethod]

theorem returns_setSelection (ctx : ScoringContext) (response : Json) (key : Obj) :
    Returns (setSelection response key ctx) ↔ PrimitiveLegible ctx response key .setSelection := by
  unfold setSelection PrimitiveLegible PointsLegible
  rw [← returns_iter (δ := DomainError), ← returns_map (f := List.map pyStr), returns_bind]
  constructor
  · rintro ⟨correct, hc, h⟩
    obtain ⟨expected, he, h⟩ := returns_bind.1 h
    obtain ⟨perCorrect, hp, h⟩ := returns_bind.1 h
    obtain ⟨selected, hs, _⟩ := returns_bind.1 h
    exact ⟨⟨correct, hc⟩, (returns_selectCount ctx.spec correct).1 ⟨expected, he⟩,
      ⟨perCorrect, hp⟩, (returns_selection response).1 ⟨selected, hs⟩⟩
  · rintro ⟨⟨correct, hc⟩, hcount, ⟨perCorrect, hp⟩, hsel⟩
    obtain ⟨expected, he⟩ := (returns_selectCount ctx.spec correct).2 hcount
    obtain ⟨selected, hs⟩ := (returns_selection response).2 hsel
    refine ⟨correct, hc, returns_bind.2 ⟨expected, he, returns_bind.2 ⟨perCorrect, hp, ?_⟩⟩⟩
    exact returns_bind.2 ⟨selected, hs, returns_pure _⟩

theorem returns_primitives (ctx : ScoringContext) (response : Json) (key : Obj) (p : Primitive) :
    Returns (primitives p response key ctx) ↔ PrimitiveLegible ctx response key p := by
  cases p with
  | choicePerSlot => exact returns_choicePerSlot ctx response key
  | textPerSlot => exact returns_textPerSlot ctx response key
  | setSelection => exact returns_setSelection ctx response key

/-! ## The item -/

theorem pipeline_eq_ok {s : Scorer} {spec : ScoringSpec} {tolerance : Obj} {p : Pipeline} :
    s.pipeline spec tolerance = .ok p ↔
      NamesLegible (getD tolerance "normalizers" .null) ∧
      p = chainOf (Pipeline.select (spec.normalizers.map (fun n => .str n.name)) s.lexicon s.frames)
        (getD tolerance "normalizers" .null) := by
  rw [← override_eq_ok]
  unfold Scorer.pipeline Pipeline.override
  dsimp only
  have hall : (spec.normalizers.map (fun n => Json.str n.name)).all hashable = true := by
    simp [hashable]
  have hdefault : Pipeline.ofNames (spec.normalizers.map (fun n => Json.str n.name)) s.lexicon
      s.frames = .ok (Pipeline.select (spec.normalizers.map (fun n => .str n.name)) s.lexicon
        s.frames) := if_pos hall
  rw [hdefault]
  rfl

theorem groupRules_eq_ok {group g : GroupRules} {tolerance : Obj} :
    Scorer.groupRules group tolerance = .ok g ↔
      WordLimit.Legible (getD tolerance "word_limit" .null) ∧
      g = if truthy (getD tolerance "word_limit" .null) then
        { group with wordLimit := limitOf (getD tolerance "word_limit" .null) } else group := by
  unfold Scorer.groupRules
  dsimp only
  generalize getD tolerance "word_limit" .null = limit
  by_cases h : truthy limit = true
  · rw [if_pos h, if_pos h]
    simp only [map_eq_ok, fromDict_eq_ok]
    constructor
    · rintro ⟨l, ⟨hl, rfl⟩, rfl⟩
      exact ⟨hl, rfl⟩
    · rintro ⟨hl, rfl⟩
      exact ⟨_, ⟨hl, rfl⟩, rfl⟩
  · have hl : WordLimit.Legible limit := fun ht => absurd ht h
    rw [if_neg h, if_neg h]
    constructor
    · intro hg
      cases hg
      exact ⟨hl, rfl⟩
    · rintro ⟨_, rfl⟩
      rfl

theorem context_eq_ok {s : Scorer} {d : QuestionTypeDef} {req : ScoreRequest}
    {ctx : ScoringContext} :
    s.context d req = .ok ctx ↔ NamesLegible (getD req.tolerance "normalizers" .null) ∧
      WordLimit.Legible (getD req.tolerance "word_limit" .null) ∧
      ctx = contextOf s d.scoring req := by
  unfold Scorer.context contextOf
  simp only [bind_eq_ok, pipeline_eq_ok, groupRules_eq_ok]
  constructor
  · rintro ⟨p, ⟨hn, rfl⟩, g, ⟨hl, rfl⟩, h⟩
    cases h
    exact ⟨hn, hl, rfl⟩
  · rintro ⟨hn, hl, rfl⟩
    exact ⟨_, ⟨hn, rfl⟩, _, ⟨hl, rfl⟩, rfl⟩

theorem registry_get_eq_ok {r : Registry} {key : String} {version : ℤ} {d : QuestionTypeDef} :
    r.get key version = .ok d ↔ r.defs.get? (key, version) = some d := by
  unfold Registry.get
  cases r.defs.get? (key, version) <;> simp

theorem scoreItem_eq_ok {s : Scorer} {req : ScoreRequest} {score : ItemScore} :
    s.scoreItem req = .ok score ↔
      ∃ d, s.registry.defs.get? (req.typeKey, req.typeVersion) = some d ∧
        NamesLegible (getD req.tolerance "normalizers" .null) ∧
        WordLimit.Legible (getD req.tolerance "word_limit" .null) ∧
        primitives d.scoring.primitive req.response req.key (contextOf s d.scoring req) =
          .ok score := by
  unfold Scorer.scoreItem
  simp only [bind_eq_ok, registry_get_eq_ok, context_eq_ok]
  constructor
  · rintro ⟨d, hd, ctx, ⟨hn, hl, rfl⟩, h⟩
    exact ⟨d, hd, hn, hl, h⟩
  · rintro ⟨d, hd, hn, hl, h⟩
    exact ⟨d, hd, _, ⟨hn, hl, rfl⟩, h⟩

theorem returns_scoreItem (s : Scorer) (req : ScoreRequest) :
    Returns (s.scoreItem req) ↔ Scorable s req := by
  unfold Scorable Returns
  simp only [scoreItem_eq_ok]
  constructor
  · rintro ⟨score, d, hd, hn, hl, h⟩
    exact ⟨d, hd, hn, hl, (returns_primitives _ _ _ _).1 ⟨score, h⟩⟩
  · rintro ⟨d, hd, hn, hl, h⟩
    obtain ⟨score, h⟩ := (returns_primitives _ _ _ _).2 h
    exact ⟨score, d, hd, hn, hl, h⟩

/-! ## What the scorer is meant to survive -/

def assembled (values : Obj) : Json := .obj [("slots", .obj values.entries)]

/-- No student is failed: a registered type, a key of its schema and accepted answers score. -/
def NeverFails (validator : Validator) (s : Scorer) : Prop :=
  ∀ (req : ScoreRequest) (d : QuestionTypeDef) (values : Obj),
    s.registry.defs.get? (req.typeKey, req.typeVersion) = some d →
    validator.iterErrors d.keySchema (.obj req.key.entries) = [] →
    req.response = assembled values →
    (∀ e ∈ values.entries,
      s.validateResponse validator req.typeKey req.typeVersion e.2 = .ok none) →
    Returns (s.scoreItem req)

/-- The `type` keyword of a schema, the only one the sample type uses. -/
def typeErrors (schema value : Json) : List SchemaError :=
  let name := match value with
    | .null => "null"
    | .bool _ => "boolean"
    | .int _ => "integer"
    | .real _ => "number"
    | .str _ => "string"
    | .arr _ => "array"
    | .obj _ => "object"
  let allowed := match (asDict schema).bind (fun d => d.get? "type") with
    | some (.str t) => [Json.str t]
    | some (.arr ts) => ts
    | _ => [.str name]
  if allowed.contains (.str name) then []
  else [{ message := "a value of type " ++ name ++ " is not allowed" }]

def typeValidator : Validator where
  iterErrors := typeErrors
  bestMatch := List.head?
  bestMatch_eq_none := fun _ => List.head?_eq_none_iff

def sampleType : QuestionTypeDef where
  key := "short_answer"
  version := 1
  keySchema := .obj [("type", .str "object")]
  responseSchema := .obj [("properties", .obj [("slots", .obj [("type", .str "object"),
    ("additionalProperties", .obj [("type", .arr [.str "string", .str "null"])])])])]
  scoring :=
    { primitive := .textPerSlot
      options := Dict.ofList [("aggregate", .str "per_slot"), ("points_per_slot", .int 1)]
      normalizers := normalizerOrder }

def sampleScorer : Scorer where
  registry := ⟨Dict.empty.put ("short_answer", 1) sampleType⟩
  lexicon := Lexicon.ofEntries [⟨"number_word", "2", "two", true⟩]
  frames := 900

def sampleRequest (answer : String) : ScoreRequest where
  typeKey := "short_answer"
  typeVersion := 1
  payload := Dict.empty
  key := Dict.ofList [("slots", .obj [("s1", .obj [("accept", .arr [.str "2"])])])]
  response := assembled (Dict.ofList [("s1", .str answer)])

example : Returns (sampleScorer.scoreItem (sampleRequest "two")) := by decide

end IeltsHub.ScoringTotality
