import IeltsHub.PublishGatePasses

set_option autoImplicit false

/-!
# The gate and the scorer on the answers of a key

An answer the key lists, stored verbatim, earns its slot's marks where the gate compared what the
scorer compares. The two part ways on the text around an answer, which only the scorer trims, on
an option source left to its default, and on the word limits the gate does not resolve.
-/
namespace IeltsHub.KeySoundness
open PyExc PyText PyValue PyDict QtypesSchemas QtypesPrimitives QtypesRegistry ContentComposition
  ContentPublishGate PublishGatePasses ScoringTotality ScoringMarks

def requestOf (q : QuestionNode) (key : Obj) (rules : GroupRules) (response : Json) :
    ScoreRequest where
  typeKey := q.typeKey
  typeVersion := q.typeVersion
  payload := q.payload
  key := key
  response := response
  group := rules
  tolerance := q.tolerance

def slotSpec (key : Obj) (slotKey : String) : Option Obj :=
  ((asDict (getOr key "slots" (.obj []))).bind (fun slots => slots.get? slotKey)).bind asDict

def Accepts (spec : Obj) (a : Json) : Prop :=
  ∃ accepted, elements? (getD spec "accept" (.arr [])) = some accepted ∧ a ∈ accepted

/-- The slot is scored, correct, with the full marks it carries. -/
def ScoresInFull (scorer : Scorer) (g : GroupNode) (q : QuestionNode) (key : Obj)
    (response : Json) (slotKey : String) : Prop :=
  ∃ rules score, g.rules = .ok rules ∧
    scorer.scoreItem (requestOf q key rules response) = .ok score ∧ FullMarks score slotKey

/-- The gate compared the answer with the options as the scorer will: a source is named, and
trimming changes nothing. -/
def OptionChecked (d : QuestionTypeDef) (a : Json) : Prop :=
  (d.scoring.options.get? "option_source").isSome = true ∧ strip (pyStr a) = pyStr a

/-- The answer, trimmed and folded, is an option, or there are none to choose from. -/
def IsOption (ctx : ScoringContext) (a : Json) : Prop :=
  ∃ options, resolveOptions ctx = .ok options ∧
    (options = [] ∨ folded (pyStr a) ∈ options.map (fun o => casefold o.id))

/-- The gate compared the answer with the limit the scorer enforces: the group has one, and no
tolerance stands between it and the slot's own. -/
def LimitChecked (g : GroupNode) (q : QuestionNode) (spec : Obj) : Prop :=
  truthy g.wordLimit = true ∧
    (truthy (getD spec "word_limit" .null) = true ∨
      truthy (getD q.tolerance "word_limit" .null) = false)

/-- The slot shares its fate with the others only where it is the first of a collapsed item. -/
def StandsAlone (ctx : ScoringContext) (p : Primitive) (key : Obj) (response : Json)
    (slotKey : String) : Prop :=
  ¬ AllOrNothing ctx.spec ∨ pointsPerSlot ctx.spec = .ok 0 ∨
    ∃ slots, asDict (getOr key "slots" (.obj [])) = some slots ∧
      (slots.entries.head?.map Prod.fst ≠ some slotKey ∨
        ∀ slot ∈ slots.entries, SlotRight ctx p response slot)

/-- When an accepted answer earns its marks, by the question, its key and the response alone. -/
structure AnswerCounts (scorer : Scorer) (g : GroupNode) (q : QuestionNode) (key : Obj)
    (d : QuestionTypeDef) (spec : Obj) (response : Json) (slotKey : String) (a : Json)
    (rules : GroupRules) : Prop where
  scorable : Scorable scorer (requestOf q key rules response)
  text : asText a = some (pyStr a)
  option : d.scoring.primitive = .choicePerSlot → OptionChecked d a ∨
    IsOption (contextOf scorer d.scoring (requestOf q key rules response)) a
  limit : d.scoring.primitive = .textPerSlot → LimitChecked g q spec ∨
    overLimit (contextOf scorer d.scoring (requestOf q key rules response)) spec (pyStr a) = false
  alone : StandsAlone (contextOf scorer d.scoring (requestOf q key rules response))
    d.scoring.primitive key response slotKey

/-- The ids selected are the correct ids, as the key lists them. -/
def SelectsExactly (key : Obj) (response : Json) : Prop :=
  ∃ selected correct, selection response = .ok selected ∧ correctOf key = .ok correct ∧
    ∀ id, id ∈ selected ↔ id ∈ correct

def SelectionInFull (scorer : Scorer) (g : GroupNode) (q : QuestionNode) (key : Obj)
    (response : Json) : Prop :=
  ∃ rules score, g.rules = .ok rules ∧
    scorer.scoreItem (requestOf q key rules response) = .ok score ∧
    score.awarded = score.maxPoints

/-- As many marks are counted as the key has ids: the gate saw to it where the count is the
key's and trimming changes no id. -/
def SelectionCounts (spec : ScoringSpec) (key : Obj) : Prop :=
  ∃ correct expected perCorrect, correctOf key = .ok correct ∧
    selectCount spec correct = .ok expected ∧ pointsPerCorrect spec = .ok perCorrect ∧
    ((getD spec.options "select_count" (.str "from_key") = .str "from_key" ∧
        ∀ id ∈ correct, strip id = id) ∨
      ((foldedSet correct).length : ℤ) = expected ∨ perCorrect = 0 ∨
      (expected = 0 ∧ getD spec.options "over_selection" .null = .str "score_zero"))

/-! ## What the two read alike -/

theorem asDict_responseSlots (values : Obj) :
    asDict (responseSlots (assembled values)) = some values := by
  have hslots : (asDict (assembled values)).bind (fun d => d.get? "slots") =
      some (.obj values.entries) := rfl
  unfold responseSlots
  rw [hslots]
  change asDict (if truthy (.obj values.entries) then _ else _) = _
  cases hv : values.entries with
  | nil =>
    change some (dictOf []) = some values
    rw [← hv]
    exact congrArg some (Dict.ofList_entries values)
  | cons e es =>
    change some (dictOf (e :: es)) = some values
    rw [← hv]
    exact congrArg some (Dict.ofList_entries values)

theorem rules_eq_ok {g : GroupNode} {rules : GroupRules} (h : g.rules = .ok rules) :
    g.optionBank.mapM optionOf = .ok rules.optionBank ∧
      WordLimit.fromDict g.wordLimit = .ok rules.wordLimit := by
  unfold GroupNode.rules GroupRules.fromDict at h
  obtain ⟨listed, hlisted, h⟩ := bind_eq_ok.1 h
  obtain ⟨bank, hbank, h⟩ := bind_eq_ok.1 h
  obtain ⟨limit, hlimit, h⟩ := bind_eq_ok.1 h
  cases h
  have hsame : elements? (getOr (Dict.ofList [("word_limit", g.wordLimit),
      ("option_bank", .arr g.optionBank), ("unique_options", g.uniqueOptions)])
      "option_bank" (.arr [])) = some g.optionBank := elements?_getOr rfl
  rw [iter_eq_ok, hsame] at hlisted
  cases hlisted
  exact ⟨hbank, hlimit⟩

section
variable {validator : Validator} {scorer : Scorer} {s : SectionNode} {g : GroupNode} {q : QuestionNode} {key : Obj}
  {d : QuestionTypeDef} {rules : GroupRules} {response : Json}

theorem gateOptions_eq {path : String} {valid : List String} {bank : PlatformFindings.Report}
    {options : List BankOption} (hrules : g.rules = .ok rules)
    (hsource : (d.scoring.options.get? "option_source").isSome = true)
    (hgate : gateOptions q g s d path = .ok (valid, bank))
    (ho : resolveOptions (contextOf scorer d.scoring (requestOf q key rules response)) =
      .ok options) :
    options = [] ∨ valid = options.map (fun o => casefold o.id) := by
  obtain ⟨source, hs⟩ := Option.isSome_iff_exists.1 hsource
  have hgetNull : getD d.scoring.options "option_source" .null = source := by
    unfold getD
    rw [hs]
    rfl
  have hgetDefault : optionSource (contextOf scorer d.scoring
      (requestOf q key rules response)).spec = source := by
    change optionSource d.scoring = source
    unfold optionSource getD
    rw [hs]
    rfl
  unfold gateOptions at hgate
  unfold resolveOptions at ho
  dsimp only at ho hgate
  rw [hgetDefault] at ho
  rw [hgetNull] at hgate
  by_cases h1 : source = .str "payload.options"
  · have hne : source ≠ .str "group.option_bank" := by rw [h1]; decide
    rw [if_neg hne, if_pos h1] at hgate
    rw [if_pos h1] at ho
    obtain ⟨listed, hlisted, hgate⟩ := bind_eq_ok.1 hgate
    obtain ⟨ids, hids, hgate⟩ := bind_eq_ok.1 hgate
    obtain ⟨listed', hlisted', ho⟩ := bind_eq_ok.1 ho
    change iter (getOr q.payload "options" (.arr [])) = .ok listed' at hlisted'
    rw [hlisted] at hlisted'
    cases hlisted'
    cases hgate
    exact .inr (optionIds_of_optionsOf ho hids)
  · by_cases h2 : source = .str "group.option_bank"
    · rw [if_pos h2] at hgate
      rw [if_neg h1, if_pos h2] at ho
      obtain ⟨ids, hids, hgate⟩ := bind_eq_ok.1 hgate
      obtain ⟨findings, _, hgate⟩ := bind_eq_ok.1 hgate
      cases hgate
      have hbank : options = rules.optionBank := by
        cases ho
        unfold contextOf
        dsimp only
        split <;> rfl
      rw [hbank]
      exact .inr (optionIds_of_optionsOf (rules_eq_ok hrules).1 hids)
    · by_cases h3 : source = .str "fixed"
      · rw [if_neg h2, if_neg h1, if_pos h3] at hgate
        rw [if_neg h1, if_neg h2, if_pos h3] at ho
        obtain ⟨listed, hlisted, hgate⟩ := bind_eq_ok.1 hgate
        obtain ⟨ids, hids, hgate⟩ := bind_eq_ok.1 hgate
        obtain ⟨listed', hlisted', ho⟩ := bind_eq_ok.1 ho
        change iter (getOr d.scoring.options "fixed_options" (.arr [])) = .ok listed' at hlisted'
        rw [iter_eq_ok, elements?_getOr (iter_eq_ok.1 hlisted)] at hlisted'
        cases hlisted'
        cases hgate
        exact .inr (optionIds_of_optionsOf ho hids)
      · rw [if_neg h1, if_neg h2, if_neg h3] at ho
        split at ho
        · cases ho
          exact .inl rfl
        · cases ho

theorem isOption_of_checked {path : String} {r : PlatformFindings.Report} {slots spec : Obj}
    {slotKey : String} {v a : Json} (hrules : g.rules = .ok rules)
    (hchecked : checkSlotKey q g s d path = .ok r) (hr : r.passed = true)
    (hkey : q.key = some key) (hc : OptionChecked d a)
    (hlegible : SourceLegible (contextOf scorer d.scoring (requestOf q key rules response)))
    (hslots : asDict (getD key "slots" (.obj [])) = some slots)
    (hv : slots.get? slotKey = some v) (hspec : asDict v = some spec) (ha : Accepts spec a) :
    IsOption (contextOf scorer d.scoring (requestOf q key rules response)) a := by
  obtain ⟨options, ho⟩ := (returns_resolveOptions _).2 hlegible
  refine ⟨options, ho, ?_⟩
  unfold checkSlotKey at hchecked
  obtain ⟨slotsReport, _, hchecked⟩ := bind_eq_ok.1 hchecked
  obtain ⟨⟨valid, bank⟩, hgate, hchecked⟩ := bind_eq_ok.1 hchecked
  obtain ⟨unknown, hunknown, hchecked⟩ := bind_eq_ok.1 hchecked
  obtain ⟨reused, _, hchecked⟩ := bind_eq_ok.1 hchecked
  cases hchecked
  rw [PlatformFindings.passed_append, PlatformFindings.passed_append] at hr
  rcases gateOptions_eq hrules hc.1 hgate ho with hnil | hsame
  · exact .inl hnil
  · by_cases hvalid : valid = []
    · rw [hvalid, eq_comm, List.map_eq_nil_iff] at hsame
      exact .inl hsame
    · have hentries : slotEntries q = .ok slots.entries := by
        unfold slotEntries slotsValue
        rw [hkey]
        exact map_eq_ok.2 ⟨slots, dictMethod_eq_ok.2 hslots, rfl⟩
      obtain ⟨accepted, haccepted, hm⟩ := ha
      have hvalues : acceptedValues v = .ok accepted :=
        bind_eq_ok.2 ⟨spec, dictMethod_eq_ok.2 hspec, iter_eq_ok.2 haccepted⟩
      have hin := accepted_in_options hunknown hr.1.2 hvalid hentries
        (Dict.get?_eq_some.1 hv) hvalues hm
      rw [hsame] at hin
      unfold folded
      rw [hc.2]
      exact .inr hin

theorem asDict_getD_slots {slots : Obj} {slotKey : String} {v : Json}
    (hslots : asDict (getOr key "slots" (.obj [])) = some slots)
    (hv : slots.get? slotKey = some v) : asDict (getD key "slots" (.obj [])) = some slots := by
  unfold getOr at hslots
  unfold getD at hslots ⊢
  cases hk : key.get? "slots" with
  | none =>
    rw [hk] at hslots
    exact hslots
  | some w =>
    rw [hk] at hslots
    change asDict (if truthy w = true then w else .obj []) = some slots at hslots
    change asDict w = some slots
    by_cases hw : truthy w = true
    · rw [if_pos hw] at hslots
      exact hslots
    · rw [if_neg hw] at hslots
      cases hslots
      cases hv

theorem overLimit_of_checked {path : String} {r : PlatformFindings.Report} {slots spec : Obj}
    {slotKey : String} {v a : Json} (hrules : g.rules = .ok rules)
    (hchecked : checkWordLimits q g d path = .ok r) (hr : r.passed = true)
    (hkey : q.key = some key) (hc : LimitChecked g q spec)
    (hlegible : WordLimit.Legible (getD spec "word_limit" .null))
    (hslots : asDict (getD key "slots" (.obj [])) = some slots)
    (hv : slots.get? slotKey = some v) (hspec : asDict v = some spec) (ha : Accepts spec a) :
    overLimit (contextOf scorer d.scoring (requestOf q key rules response)) spec (pyStr a) =
      false := by
  have hgroup := (rules_eq_ok hrules).2
  obtain ⟨rule, hrule⟩ := Option.isSome_iff_exists.1 (WordLimit.isSome_of_fromDict hgroup hc.1)
  rw [hrule] at hgroup
  have hentries : slotEntries q = .ok slots.entries := by
    unfold slotEntries slotsValue
    rw [hkey]
    exact map_eq_ok.2 ⟨slots, dictMethod_eq_ok.2 hslots, rfl⟩
  obtain ⟨accepted, haccepted, hm⟩ := ha
  have hvalues : acceptedValues v = .ok accepted :=
    bind_eq_ok.2 ⟨spec, dictMethod_eq_ok.2 hspec, iter_eq_ok.2 haccepted⟩
  have hwithin := accepted_within_limit hchecked hr hgroup hentries (Dict.get?_eq_some.1 hv) hspec
    hvalues hm
  have hsame : limitFor (contextOf scorer d.scoring (requestOf q key rules response)) spec =
      some ((limitOf (getD spec "word_limit" .null)).getD rule) := by
    unfold limitFor
    cases hown : limitOf (getD spec "word_limit" .null) with
    | some own => rfl
    | none =>
      have hnone : ¬ truthy (getD spec "word_limit" .null) = true := by
        intro ht
        have hsome := WordLimit.isSome_of_fromDict (fromDict_eq_ok.2 ⟨hlegible, hown.symm⟩) ht
        cases hsome
      have htol : truthy (getD q.tolerance "word_limit" .null) = false := hc.2.resolve_left hnone
      have hgroupLimit : (contextOf scorer d.scoring
          (requestOf q key rules response)).group = rules :=
        if_neg (fun ht => absurd (htol.symm.trans ht) (by decide))
      rw [hgroupLimit, hrule]
      rfl
  unfold overLimit
  rw [hsame, hwithin, Bool.and_false]

theorem slotRight_of_counts {values : Obj} {slots spec : Obj} {slotKey : String} {v a : Json}
    (hgate : QuestionPasses validator scorer.registry s g q d key)
    (hprim : d.scoring.primitive ≠ .setSelection) (hrules : g.rules = .ok rules)
    (hslots : asDict (getOr key "slots" (.obj [])) = some slots)
    (hv : slots.get? slotKey = some v) (hspec : asDict v = some spec) (ha : Accepts spec a)
    (hstored : values.get? slotKey = some a)
    (hc : AnswerCounts scorer g q key d spec (assembled values) slotKey a rules) :
    SlotRight (contextOf scorer d.scoring (requestOf q key rules (assembled values)))
      d.scoring.primitive (assembled values) (slotKey, v) := by
  obtain ⟨accepted, haccepted, hm⟩ := ha
  have hmt : pyStr a ∈ accepted.map pyStr := List.mem_map_of_mem hm
  obtain ⟨d', hd', _, _, hlegible⟩ := hc.scorable
  have hsame : d' = d := Option.some.inj (hd'.symm.trans hgate.registered)
  subst hsame
  have hraw : asText (getD values slotKey .null) = some (pyStr a) := by
    unfold getD
    rw [hstored]
    exact hc.text
  have hgetD := asDict_getD_slots hslots hv
  obtain ⟨path, r, hchecked, hr⟩ := hgate.checked
  refine ⟨values, spec, accepted.map pyStr, asDict_responseSlots values, hspec,
    ⟨accepted, haccepted, rfl⟩, ?_⟩
  unfold checkKey at hchecked
  cases hp : d'.scoring.primitive with
  | setSelection => exact absurd hp hprim
  | choicePerSlot =>
    rw [hp] at hchecked hlegible
    have hoption : IsOption (contextOf scorer d'.scoring
        (requestOf q key rules (assembled values))) a := by
      rcases hc.option hp with hc' | hc'
      · exact isOption_of_checked hrules hchecked hr hgate.keyed hc' hlegible.1 hgetD hv hspec
          ⟨accepted, haccepted, hm⟩
      · exact hc'
    obtain ⟨options, ho, hin⟩ := hoption
    exact ⟨options, ho, pyStr a, hraw, hin, pyStr a, hmt, rfl⟩
  | textPerSlot =>
    rw [hp] at hchecked hlegible
    obtain ⟨_, slots', hslots', heach⟩ := hlegible
    have hs : slots' = slots := Option.some.inj (hslots'.symm.trans hslots)
    subst hs
    obtain ⟨submitted, hsub, spec', accepted', hspec', ⟨es, hes, rfl⟩, _, hlimit, hread⟩ :=
      heach (slotKey, v) (Dict.get?_eq_some.1 hv)
    have h1 : submitted = values :=
      Option.some.inj (hsub.symm.trans (asDict_responseSlots values))
    have h2 : spec' = spec := Option.some.inj (hspec'.symm.trans hspec)
    subst h1 h2
    have h3 : es = accepted := Option.some.inj (hes.symm.trans haccepted)
    subst h3
    obtain ⟨slotsReport, _, hchecked⟩ := bind_eq_ok.1 hchecked
    obtain ⟨limits, hlimits, hchecked⟩ := bind_eq_ok.1 hchecked
    cases hchecked
    have hpass := (PlatformFindings.passed_append.1 hr).2
    have hover : overLimit (contextOf scorer d'.scoring
        (requestOf q key rules (assembled submitted))) spec' (pyStr a) = false := by
      rcases hc.limit hp with hc' | hc'
      · exact overLimit_of_checked hrules hlimits hpass hgate.keyed hc' hlimit hgetD hv hspec
          ⟨es, haccepted, hm⟩
      · exact hc'
    obtain ⟨n, hn⟩ := (returns_run _ _).2 (hread (pyStr a) hraw hover).1
    exact ⟨pyStr a, hraw, hover, pyStr a, hmt, n, n, hn, hn, rfl⟩

theorem fullMarks_iff {values : Obj} {slots : Obj} {slotKey : String} {v : Json}
    {score : ItemScore} (hd : scorer.registry.defs.get? (q.typeKey, q.typeVersion) = some d)
    (hprim : d.scoring.primitive ≠ .setSelection)
    (hslots : asDict (getOr key "slots" (.obj [])) = some slots)
    (hv : slots.get? slotKey = some v)
    (hscore : scorer.scoreItem (requestOf q key rules (assembled values)) = .ok score) :
    FullMarks score slotKey ↔
      SlotRight (contextOf scorer d.scoring (requestOf q key rules (assembled values)))
        d.scoring.primitive (assembled values) (slotKey, v) ∧
      StandsAlone (contextOf scorer d.scoring (requestOf q key rules (assembled values)))
        d.scoring.primitive key (assembled values) slotKey := by
  obtain ⟨d', hd', _, _, hprimitive⟩ := scoreItem_eq_ok.1 hscore
  have hsame : d' = d := Option.some.inj (hd'.symm.trans hd)
  subst hsame
  obtain ⟨perSlot, slots', scores, hps, hslots', rfl, hall⟩ := slotted_eq_ok hprim hprimitive
  have hs : slots' = slots := Option.some.inj (hslots'.symm.trans hslots)
  subst hs
  have hmem := Dict.get?_eq_some.1 hv
  unfold StandsAlone
  by_cases hall' : AllOrNothing (contextOf scorer d'.scoring
      (requestOf q key rules (assembled values))).spec
  · rw [fullMarks_collapsed hall' hall slots'.nodup hmem]
    refine and_congr_right (fun _ => ?_)
    constructor
    · rintro (hhead | hzero | hright)
      · exact .inr (.inr ⟨slots', hslots, .inl hhead⟩)
      · exact .inr (.inl (hzero ▸ hps))
      · exact .inr (.inr ⟨slots', hslots, .inr hright⟩)
    · rintro (hnot | hzero | ⟨slots'', hslots'', h⟩)
      · exact absurd hall' hnot
      · exact .inr (.inl (Except.ok.inj (hps.symm.trans hzero)))
      · have h' : slots'' = slots' := Option.some.inj (hslots''.symm.trans hslots)
        subst h'
        exact h.imp_right .inr
  · rw [fullMarks_per_slot hall' hall slots'.nodup hmem]
    exact ⟨fun hr => ⟨hr, .inl hall'⟩, fun hr => hr.1⟩

theorem counts_of_slotRight {values : Obj} {spec : Obj} {slotKey : String} {v a : Json}
    (hspec : asDict v = some spec) (hstored : values.get? slotKey = some a)
    (hscorable : Scorable scorer (requestOf q key rules (assembled values)))
    (hright : SlotRight (contextOf scorer d.scoring (requestOf q key rules (assembled values)))
      d.scoring.primitive (assembled values) (slotKey, v))
    (halone : StandsAlone (contextOf scorer d.scoring (requestOf q key rules (assembled values)))
      d.scoring.primitive key (assembled values) slotKey) :
    AnswerCounts scorer g q key d spec (assembled values) slotKey a rules := by
  obtain ⟨submitted, spec', accepted, hsub, hspec', hacc, hright⟩ := hright
  have h1 : submitted = values := Option.some.inj (hsub.symm.trans (asDict_responseSlots values))
  have h2 : spec' = spec := Option.some.inj (hspec'.symm.trans hspec)
  subst h1 h2
  have hget : getD submitted slotKey .null = a := by
    unfold getD
    rw [hstored]
    rfl
  have htext : ∀ r, asText a = some r → r = pyStr a := by
    intro r hr
    unfold asText at hr
    split at hr
    · cases hr
    · cases hr
    · cases hr
    · split at hr
      · cases hr
      · exact (Option.some.inj hr).symm
  dsimp only at hright
  rw [hget] at hright
  cases hp : d.scoring.primitive with
  | setSelection =>
    rw [hp] at hright
    exact hright.elim
  | choicePerSlot =>
    rw [hp] at hright
    obtain ⟨options, ho, r, hr, hin, _⟩ := hright
    have hra := htext r hr
    subst hra
    exact ⟨hscorable, hr, fun _ => .inr ⟨options, ho, hin⟩,
      fun h => absurd (hp.symm.trans h) (by decide), halone⟩
  | textPerSlot =>
    rw [hp] at hright
    obtain ⟨r, hr, hover, _⟩ := hright
    have hra := htext r hr
    subst hra
    exact ⟨hscorable, hr, fun h => absurd (hp.symm.trans h) (by decide), fun _ => .inr hover,
      halone⟩

theorem scoresInFull_iff {values : Obj} {spec : Obj} {slotKey : String} {a : Json}
    (hgate : QuestionPasses validator scorer.registry s g q d key)
    (hprim : d.scoring.primitive ≠ .setSelection) (hspec : slotSpec key slotKey = some spec)
    (ha : Accepts spec a) (hstored : values.get? slotKey = some a) :
    ScoresInFull scorer g q key (assembled values) slotKey ↔
      ∃ rules, g.rules = .ok rules ∧
        AnswerCounts scorer g q key d spec (assembled values) slotKey a rules := by
  unfold slotSpec at hspec
  obtain ⟨v, hv, hspec⟩ := Option.bind_eq_some_iff.1 hspec
  obtain ⟨slots, hslots, hv⟩ := Option.bind_eq_some_iff.1 hv
  constructor
  · rintro ⟨rules, score, hrules, hscore, hfull⟩
    obtain ⟨hright, halone⟩ :=
      (fullMarks_iff hgate.registered hprim hslots hv hscore).1 hfull
    exact ⟨rules, hrules,
      counts_of_slotRight hspec hstored ((returns_scoreItem _ _).1 ⟨score, hscore⟩) hright halone⟩
  · rintro ⟨rules, hrules, hc⟩
    obtain ⟨score, hscore⟩ := (returns_scoreItem _ _).2 hc.scorable
    have hright := slotRight_of_counts hgate hprim hrules hslots hv hspec ha hstored hc
    exact ⟨rules, score, hrules, hscore,
      (fullMarks_iff hgate.registered hprim hslots hv hscore).2 ⟨hright, hc.alone⟩⟩

theorem foldedSet_perm {selected correct : List String}
    (h : ∀ id, id ∈ selected ↔ id ∈ correct) : (foldedSet selected).Perm (foldedSet correct) := by
  unfold foldedSet
  rw [List.perm_ext_iff_of_nodup (List.nodup_dedup _) (List.nodup_dedup _)]
  intro x
  simp only [List.mem_dedup, List.mem_map, h]

theorem gradeSelection_exact {spec : ScoringSpec} {selected correct : List String} {expected : ℤ}
    {perCorrect : ℚ} (h : ∀ id, id ∈ selected ↔ id ∈ correct) (hne : correct ≠ []) :
    (gradeSelection spec correct expected perCorrect selected).awarded =
      if expected < (foldedSet correct).length ∧
          getD spec.options "over_selection" .null = .str "score_zero" then 0
      else perCorrect * (foldedSet correct).length := by
  have hperm := foldedSet_perm h
  have hlen := hperm.length_eq
  have hfull : foldedSet selected ≠ [] := by
    obtain ⟨id, hid⟩ := List.exists_mem_of_ne_nil correct hne
    have hmem : folded id ∈ foldedSet correct :=
      List.mem_dedup.2 (List.mem_map_of_mem hid)
    exact List.ne_nil_of_mem (hperm.mem_iff.2 hmem)
  have hhits : (foldedSet selected).filter (fun x => (foldedSet correct).contains x) =
      foldedSet selected := by
    rw [List.filter_eq_self]
    intro x hx
    simpa using hperm.mem_iff.1 hx
  unfold gradeSelection
  dsimp only
  rw [if_neg hfull, hlen, hhits, hlen]
  split <;> rfl

theorem foldedSet_length_of_gate {correct : List String} (hd : (correct.map casefold).Nodup)
    (ht : ∀ id ∈ correct, strip id = id) : (foldedSet correct).length = correct.length := by
  have hfold : correct.map folded = correct.map casefold := by
    apply List.map_congr_left
    intro id hid
    unfold folded
    rw [ht id hid]
  unfold foldedSet
  rw [hfold, List.dedup_eq_self.2 hd, List.length_map]

theorem selectionInFull_iff (hgate : QuestionPasses validator scorer.registry s g q d key)
    (hprim : d.scoring.primitive = .setSelection) (hexact : SelectsExactly key response) :
    SelectionInFull scorer g q key response ↔
      ∃ rules, g.rules = .ok rules ∧ Scorable scorer (requestOf q key rules response) ∧
        SelectionCounts d.scoring key := by
  obtain ⟨selected, correct, hselected, hcorrect, hsame⟩ := hexact
  obtain ⟨path, r, hchecked, hr⟩ := hgate.checked
  unfold checkKey at hchecked
  rw [hprim] at hchecked
  have hcorrect' : correctOf (q.key.getD Dict.empty) = .ok correct := by
    rw [hgate.keyed]
    exact hcorrect
  obtain ⟨hne, hdistinct⟩ := selection_distinct hchecked hr hcorrect'
  -- what the scorer makes of the exact selection, whatever the rules of the group
  have hmarks : ∀ {rules score}, scorer.scoreItem (requestOf q key rules response) = .ok score →
      (score.awarded = score.maxPoints ↔ SelectionCounts d.scoring key) := by
    intro rules score hscore
    obtain ⟨d', hd', _, _, hprimitive⟩ := scoreItem_eq_ok.1 hscore
    have hdd : d' = d := Option.some.inj (hd'.symm.trans hgate.registered)
    subst hdd
    rw [hprim] at hprimitive
    obtain ⟨correct', expected, perCorrect, selected', hc, he, hp, hs, rfl⟩ :=
      setSelection_eq_ok hprimitive
    have h1 : correct' = correct := Except.ok.inj (hc.symm.trans hcorrect)
    have h2 : selected' = selected := Except.ok.inj (hs.symm.trans hselected)
    subst h1 h2
    change selectCount d'.scoring correct' = .ok expected at he
    change pointsPerCorrect d'.scoring = .ok perCorrect at hp
    rw [ItemScore.awarded_cons, ItemScore.maxPoints_cons, ItemScore.awarded_nil,
      ItemScore.maxPoints_nil, add_zero, add_zero, gradeSelection_maxPoints,
      gradeSelection_exact hsame hne]
    have hpos : 0 < (foldedSet correct').length := by
      obtain ⟨id, hid⟩ := List.exists_mem_of_ne_nil correct' hne
      exact List.length_pos_of_mem (List.mem_dedup.2 (List.mem_map_of_mem hid) :
        folded id ∈ foldedSet correct')
    constructor
    · intro hfull
      refine ⟨correct', expected, perCorrect, hcorrect, he, hp, ?_⟩
      split at hfull
      · rename_i hover
        rw [eq_comm, mul_eq_zero] at hfull
        rcases hfull with hzero | hzero
        · exact .inr (.inr (.inl hzero))
        · exact .inr (.inr (.inr ⟨by exact_mod_cast hzero, hover.2⟩))
      · rw [mul_eq_mul_left_iff] at hfull
        rcases hfull with heq | hzero
        · exact .inr (.inl (by exact_mod_cast heq))
        · exact .inr (.inr (.inl hzero))
    · rintro ⟨correct'', expected', perCorrect', hc'', he', hp', h⟩
      have h1 : correct'' = correct' := Except.ok.inj (hc''.symm.trans hcorrect)
      subst h1
      have h2 : expected' = expected := Except.ok.inj (he'.symm.trans he)
      have h3 : perCorrect' = perCorrect := Except.ok.inj (hp'.symm.trans hp)
      subst h2 h3
      have hcount : ((foldedSet correct'').length : ℤ) = expected' ∨ perCorrect' = 0 ∨
          (expected' = 0 ∧ getD d'.scoring.options "over_selection" .null =
            .str "score_zero") := by
        rcases h with ⟨hkey, htrim⟩ | h
        · left
          have hlen : expected' = correct''.length := by
            unfold selectCount at he'
            rw [hkey, if_pos rfl] at he'
            exact (Except.ok.inj he').symm
          rw [hlen, foldedSet_length_of_gate hdistinct htrim]
        · exact h
      rcases hcount with heq | hzero | ⟨hzero, hover⟩
      · rw [if_neg (by rintro ⟨hlt, _⟩; omega), ← heq]
        push_cast
        rfl
      · rw [hzero]
        simp
      · rw [if_pos ⟨by omega, hover⟩, hzero]
        simp
  constructor
  · rintro ⟨rules, score, hrules, hscore, hfull⟩
    exact ⟨rules, hrules, (returns_scoreItem _ _).1 ⟨score, hscore⟩, (hmarks hscore).1 hfull⟩
  · rintro ⟨rules, hrules, hscorable, hcounts⟩
    obtain ⟨score, hscore⟩ := (returns_scoreItem _ _).2 hscorable
    exact ⟨rules, score, hrules, hscore, (hmarks hscore).2 hcounts⟩

end

/-! ## The keys of a paper that passes -/

/-- Every answer a key of the paper lists earns what it should. -/
def KeysScore (scorer : Scorer) (c : TestComposition) : Prop :=
  ∀ p ∈ c.questions, ∀ d key,
    scorer.registry.defs.get? (p.2.2.typeKey, p.2.2.typeVersion) = some d →
    p.2.2.key = some key →
    (d.scoring.primitive ≠ .setSelection → ∀ (values : Obj) (slotKey : String) (spec : Obj)
      (a : Json), slotSpec key slotKey = some spec → Accepts spec a →
        values.get? slotKey = some a →
        ScoresInFull scorer p.2.1 p.2.2 key (assembled values) slotKey) ∧
    (d.scoring.primitive = .setSelection → ∀ response, SelectsExactly key response →
      SelectionInFull scorer p.2.1 p.2.2 key response)

/-- On a paper that passes the gate, an answer of a key earns its marks exactly when it counts. -/
theorem key_answer_scores_iff {validator : Validator} {scorer : Scorer} {c : TestComposition}
    (hpass : Passes validator scorer.registry c) {p : SectionNode × GroupNode × QuestionNode}
    (hp : p ∈ c.questions) {d : QuestionTypeDef} {key : Obj}
    (hd : scorer.registry.defs.get? (p.2.2.typeKey, p.2.2.typeVersion) = some d)
    (hkey : p.2.2.key = some key) :
    (d.scoring.primitive ≠ .setSelection → ∀ (values : Obj) (slotKey : String) (spec : Obj)
      (a : Json), slotSpec key slotKey = some spec → Accepts spec a →
        values.get? slotKey = some a →
        (ScoresInFull scorer p.2.1 p.2.2 key (assembled values) slotKey ↔
          ∃ rules, p.2.1.rules = .ok rules ∧
            AnswerCounts scorer p.2.1 p.2.2 key d spec (assembled values) slotKey a rules)) ∧
    (d.scoring.primitive = .setSelection → ∀ response, SelectsExactly key response →
      (SelectionInFull scorer p.2.1 p.2.2 key response ↔
        ∃ rules, p.2.1.rules = .ok rules ∧
          Scorable scorer (requestOf p.2.2 key rules response) ∧
          SelectionCounts d.scoring key)) := by
  obtain ⟨d', key', hgate⟩ := hpass.question hp
  have hdd : d' = d := Option.some.inj (hgate.registered.symm.trans hd)
  have hkk : key' = key := Option.some.inj (hgate.keyed.symm.trans hkey)
  subst hdd hkk
  constructor
  · intro hprim values slotKey spec a hspec ha hstored
    exact scoresInFull_iff hgate hprim hspec ha hstored
  · intro hprim response hexact
    exact selectionInFull_iff hgate hprim hexact

def completionType : QuestionTypeDef :=
  { sampleType with
    key := "sentence_completion"
    skills := ["reading"]
    validation := .obj [("rules", .arr [.obj [("rule", .str "word_limit_present_on_group")]])] }

def completionScorer : Scorer where
  registry := ⟨Dict.empty.put ("sentence_completion", 1) completionType⟩
  lexicon := {}
  frames := 900

def completionKey : Obj :=
  Dict.ofList [("slots", .obj [("s1", .obj [("accept", .arr [.str "car park"])])])]

def completionQuestion (tolerance : Obj) : QuestionNode where
  xid := "q1"
  typeKey := "sentence_completion"
  typeVersion := 1
  payload := Dict.ofList [("text", .str "Leave it in the \x7b\x7bs1\x7d\x7d.")]
  slotKeys := ["s1"]
  key := some completionKey
  tolerance := tolerance

def completionGroup (tolerance : Obj) : GroupNode where
  xid := "g1"
  numberStart := 1
  questions := [completionQuestion tolerance]
  wordLimit := .obj [("max_words", .int 2)]

def completionSection (tolerance : Obj) : SectionNode where
  position := 1
  skill := "reading"
  title := "Passage 1"
  groups := [completionGroup tolerance]
  passage := some { xid := "p1", title := "Parking" }
  timeLimitSeconds := some 1200

def completionPaper (tolerance : Obj) : TestComposition where
  xid := "t1"
  title := "One blank"
  sections := [completionSection tolerance]
  bandMap := some
    { xid := "b1", maxRaw := 1
      mapping := [.obj [("raw_min", .int 0), ("raw_max", .int 1), ("band", .int 5)]] }
  coherent := by
    intro p hp p' hp' _
    simp only [questionsOf, completionSection, completionGroup, List.flatMap_cons,
      List.flatMap_nil, List.append_nil, List.map_cons, List.map_nil, List.mem_singleton] at hp hp'
    rw [hp, hp']

theorem key_answer_scores_on_completion :
    ScoresInFull completionScorer (completionGroup Dict.empty) (completionQuestion Dict.empty)
      completionKey (assembled (Dict.ofList [("s1", .str "car park")])) "s1" ↔
    ∃ rules, (completionGroup Dict.empty).rules = .ok rules ∧
      AnswerCounts completionScorer (completionGroup Dict.empty) (completionQuestion Dict.empty)
        completionKey completionType (Dict.ofList [("accept", .arr [.str "car park"])])
        (assembled (Dict.ofList [("s1", .str "car park")])) "s1" (.str "car park") rules :=
  (@key_answer_scores_iff typeValidator completionScorer (completionPaper Dict.empty)
    ⟨_, rfl, by decide⟩ (completionSection Dict.empty, completionGroup Dict.empty,
      completionQuestion Dict.empty) List.mem_cons_self _ _ rfl rfl).1
    (by decide) _ _ _ _ rfl ⟨_, rfl, List.mem_cons_self⟩ rfl

def oneWord : Obj := Dict.ofList [("word_limit", .obj [("max_words", .int 1)])]

/-- The gate compares with the group's two words, the scorer with the tolerance's one. -/
theorem tolerated_limit_breaks_key :
    Passes typeValidator completionScorer.registry (completionPaper oneWord) ∧
      ¬ KeysScore completionScorer (completionPaper oneWord) := by
  refine ⟨⟨_, rfl, by decide⟩, ?_⟩
  intro h
  obtain ⟨rules, score, hrules, hscore, t, ht, _, hv, _⟩ :=
    (h (completionSection oneWord, completionGroup oneWord, completionQuestion oneWord)
      List.mem_cons_self completionType completionKey rfl rfl).1 (by decide)
      (Dict.ofList [("s1", .str "car park")]) "s1"
      (Dict.ofList [("accept", .arr [.str "car park"])]) (.str "car park") rfl
      ⟨_, rfl, List.mem_cons_self⟩ rfl
  have hmarked : ((completionGroup oneWord).rules >>= fun rules =>
      (fun score => score.slots.map SlotScore.verdict) <$>
        completionScorer.scoreItem (requestOf (completionQuestion oneWord) completionKey rules
          (assembled (Dict.ofList [("s1", .str "car park")])))) = .ok [.incorrect] := by decide
  have hverdicts : score.slots.map SlotScore.verdict = [.incorrect] := by
    obtain ⟨rules', hrules', hmarked⟩ := bind_eq_ok.1 hmarked
    obtain ⟨score', hscore', hmarked⟩ := map_eq_ok.1 hmarked
    have h1 : rules' = rules := Except.ok.inj (hrules'.symm.trans hrules)
    subst h1
    have h2 : score' = score := Except.ok.inj (hscore'.symm.trans hscore)
    subst h2
    exact hmarked
  have hmem : t.verdict ∈ score.slots.map SlotScore.verdict := List.mem_map_of_mem ht
  rw [hverdicts, hv] at hmem
  exact absurd hmem (by decide)

end IeltsHub.KeySoundness
