import IeltsHub.BandMapCurves
import IeltsHub.PublishedPaper

set_option autoImplicit false

/-!
# What a key fix does to the marks

A key that extends another accepts what the other accepts. An item earns its points a number of
times, and the number is followed from the one key to the other; the mark of the paper and its
band follow the items.
-/
namespace IeltsHub.KeyFixMarks
open PyExc PyText PyValue PyDict PlatformErrors QtypesSchemas QtypesPrimitives QtypesRegistry
  ScoringTotality ScoringMarks ContentModels ExamModels ExamScoring ExamScoringInputs
  ContentBandMaps BandMapCurves IntervalTables

/-! ## Extending a key -/

/-- Nothing accepted is taken away, and nothing else of the slot is changed. -/
structure SpecExtends (spec spec' : Obj) : Prop where
  accept : ∀ accepted, AcceptLegible spec accepted →
    ∃ accepted', AcceptLegible spec' accepted' ∧ accepted ⊆ accepted'
  normalizers : getD spec' "normalizers" .null = getD spec "normalizers" .null
  caseSensitive : getD spec' "case_sensitive" .null = getD spec "case_sensitive" .null
  wordLimit : getD spec' "word_limit" .null = getD spec "word_limit" .null

def keySlotsOf (key : Obj) : Option Obj := asDict (getOr key "slots" (.obj []))

def SlotsExtend (key key' : Obj) : Prop :=
  ∀ slots slots', keySlotsOf key = some slots → keySlotsOf key' = some slots' →
    (∀ k, k ∈ slots.keys ↔ k ∈ slots'.keys) ∧
    ∀ k v v' spec, slots.get? k = some v → slots'.get? k = some v' → asDict v = some spec →
      ∃ spec', asDict v' = some spec' ∧ SpecExtends spec spec'

def CorrectExtends (key key' : Obj) : Prop :=
  ∀ correct correct', correctOf key = .ok correct → correctOf key' = .ok correct' →
    foldedSet correct ⊆ foldedSet correct'

structure Extends (key key' : Obj) : Prop where
  slots : SlotsExtend key key'
  correct : CorrectExtends key key'

/-! ## What an item earns -/

def pointsOf (spec : ScoringSpec) : Except Raised ℚ :=
  if spec.primitive = .setSelection then pointsPerCorrect spec else pointsPerSlot spec

open Classical in
/-- How many of the slots are answered right; none, where the item is all or nothing and one is
not. -/
noncomputable def rightSlots (ctx : ScoringContext) (response : Json) (slots : Obj) : ℕ :=
  if AllOrNothing ctx.spec ∧ ¬ ∀ slot ∈ slots.entries, SlotRight ctx ctx.spec.primitive response slot
  then 0
  else slots.entries.countP (fun slot => SlotRight ctx ctx.spec.primitive response slot)

def rightPicks (correct selected : List String) : ℕ :=
  ((foldedSet selected).filter (fun s => (foldedSet correct).contains s)).length

def OverPicked (spec : ScoringSpec) (expected : ℤ) (selected : List String) : Prop :=
  expected < (foldedSet selected).length ∧
    getD spec.options "over_selection" .null = .str "score_zero"

instance (spec : ScoringSpec) (expected : ℤ) (selected : List String) :
    Decidable (OverPicked spec expected selected) := inferInstanceAs (Decidable (_ ∧ _))

/-- The number of times the item's points are earned. -/
inductive Earns (ctx : ScoringContext) (response : Json) (key : Obj) : ℕ → Prop
  | slots {slots : Obj} (hp : ctx.spec.primitive ≠ .setSelection)
      (hslots : keySlotsOf key = some slots) :
      Earns ctx response key (rightSlots ctx response slots)
  | selection {correct selected : List String} {expected : ℤ}
      (hp : ctx.spec.primitive = .setSelection) (hcorrect : correctOf key = .ok correct)
      (hexpected : selectCount ctx.spec correct = .ok expected)
      (hselected : QtypesPrimitives.selection response = .ok selected) :
      Earns ctx response key
        (if OverPicked ctx.spec expected selected then 0 else rightPicks correct selected)

/-! ### Slots -/

section
variable {ctx : ScoringContext} {response : Json} {key key' : Obj}

theorem awarded_eq_countP {perSlot : ℚ} {right : String × Json → Prop} [DecidablePred right]
    {entries : List (String × Json)} {scores : List SlotScore}
    (h : List.Forall₂ (fun slot s => Graded slot.1 perSlot s ∧ (s.verdict = .correct ↔ right slot))
      entries scores) :
    (ItemScore.mk scores).awarded = perSlot * entries.countP (fun slot => right slot) := by
  induction h with
  | nil => simp
  | @cons slot s entries scores hs _ ih =>
    rw [ItemScore.awarded_cons, ih, hs.1.awarded_eq, List.countP_cons]
    by_cases hright : right slot
    · rw [if_pos (hs.2.2 hright)]
      simp only [hright, decide_true, if_true]
      push_cast
      ring
    · rw [if_neg (fun hc => hright (hs.2.1 hc))]
      simp [hright]

theorem awarded_of_slots {score : ItemScore} (hp : ctx.spec.primitive ≠ .setSelection)
    (h : primitives ctx.spec.primitive response key ctx = .ok score) :
    ∃ points slots, pointsPerSlot ctx.spec = .ok points ∧ keySlotsOf key = some slots ∧
      score.awarded = points * rightSlots ctx response slots := by
  classical
  obtain ⟨points, slots, scores, hpoints, hslots, rfl, hall⟩ := slotted_eq_ok hp h
  refine ⟨points, slots, hpoints, hslots, ?_⟩
  have hcount := awarded_eq_countP hall
  by_cases ha : AllOrNothing ctx.spec
  · rw [aggregate_of_all ha]
    change ((scores.mapIdx _).map SlotScore.awarded).sum = _
    have hac := allCorrect_iff hall
    rw [sum_mapIdx_first SlotScore.awarded _
      (if allCorrect scores then (ItemScore.mk scores).maxPoints else 0)
      (fun s => by simp [collapsed]) (fun i s => by simp [collapsed])]
    unfold rightSlots
    by_cases hright : ∀ slot ∈ slots.entries, SlotRight ctx ctx.spec.primitive response slot
    · have hnot : ¬ (AllOrNothing ctx.spec ∧
          ¬ ∀ slot ∈ slots.entries, SlotRight ctx ctx.spec.primitive response slot) :=
        fun h => h.2 hright
      have hlength := List.countP_eq_length.2 (fun slot hs =>
        decide_eq_true (hright slot hs))
      rw [if_neg hnot, hlength, if_pos (hac.2 hright), maxPoints_of_graded hall]
      split
      · rename_i hnil
        rw [hnil] at hall
        rw [List.forall₂_nil_right_iff.1 hall]
        simp
      · rfl
    · have hnone : ¬ allCorrect scores = true := fun hc => hright (hac.1 hc)
      rw [if_pos (⟨ha, hright⟩ : AllOrNothing ctx.spec ∧ _), if_neg hnone]
      simp
  · rw [aggregate_of_not ha, hcount]
    unfold rightSlots
    rw [if_neg (fun h => ha h.1)]

theorem SpecExtends.slotChain_eq {spec spec' : Obj} (h : SpecExtends spec spec') :
    slotChain ctx spec' = slotChain ctx spec := by
  unfold slotChain
  rw [h.normalizers, h.caseSensitive]

theorem SpecExtends.limitFor_eq {spec spec' : Obj} (h : SpecExtends spec spec') :
    limitFor ctx spec' = limitFor ctx spec := by
  unfold limitFor
  rw [h.wordLimit]

theorem choiceRight_mono {options : List BankOption} {accepted accepted' : List String}
    {raw : Option String} (h : ChoiceRight options accepted raw) (hsub : accepted ⊆ accepted') :
    ChoiceRight options accepted' raw := by
  obtain ⟨r, hr, hin, a, ha, heq⟩ := h
  exact ⟨r, hr, hin, a, hsub ha, heq⟩

theorem textRight_mono {spec : ScoringSpec} {t : TextSlot} {accepted' : List String}
    (h : TextRight spec t) (hsub : t.accepted ⊆ accepted') :
    TextRight spec { t with accepted := accepted' } := by
  obtain ⟨r, hr, hlimit, a, ha, hsame⟩ := h
  exact ⟨r, hr, hlimit, a, hsub ha, hsame⟩

theorem slotRight_mono {p : Primitive} {k : String} {v v' : Json}
    (hspec : ∀ spec, asDict v = some spec → ∃ spec', asDict v' = some spec' ∧ SpecExtends spec spec')
    (h : SlotRight ctx p response (k, v)) : SlotRight ctx p response (k, v') := by
  obtain ⟨submitted, spec, accepted, hsub, hv, haccept, hright⟩ := h
  obtain ⟨spec', hv', hext⟩ := hspec spec hv
  obtain ⟨accepted', haccept', hmore⟩ := hext.accept accepted haccept
  refine ⟨submitted, spec', accepted', hsub, hv', haccept', ?_⟩
  cases p with
  | choicePerSlot =>
    obtain ⟨options, hoptions, hright⟩ := hright
    exact ⟨options, hoptions, choiceRight_mono hright hmore⟩
  | textPerSlot =>
    dsimp only at hright ⊢
    rw [hext.slotChain_eq, hext.limitFor_eq]
    exact textRight_mono hright hmore
  | setSelection => exact hright

theorem countP_le_of_keys {right : String × Json → Bool} {d d' : Obj}
    (h : ∀ k v, d.get? k = some v → right (k, v) = true →
      ∃ v', d'.get? k = some v' ∧ right (k, v') = true) :
    d.entries.countP right ≤ d'.entries.countP right := by
  rw [List.countP_eq_length_filter, List.countP_eq_length_filter,
    ← List.length_map Prod.fst, ← List.length_map Prod.fst]
  have hnodup : ((d.entries.filter right).map Prod.fst).Nodup :=
    (List.filter_sublist.map Prod.fst).nodup d.nodup
  apply (hnodup.subperm _).length_le
  intro k hk
  obtain ⟨e, he, rfl⟩ := List.mem_map.1 hk
  obtain ⟨hmem, hright⟩ := List.mem_filter.1 he
  obtain ⟨v', hv', hright'⟩ := h e.1 e.2 (Dict.get?_eq_some.2 hmem) hright
  exact List.mem_map.2 ⟨(e.1, v'), List.mem_filter.2 ⟨Dict.get?_eq_some.1 hv', hright'⟩, rfl⟩

theorem rightSlots_le {slots slots' : Obj} (h : SlotsExtend key key')
    (hslots : keySlotsOf key = some slots) (hslots' : keySlotsOf key' = some slots') :
    rightSlots ctx response slots ≤ rightSlots ctx response slots' := by
  classical
  obtain ⟨hkeys, hspecs⟩ := h slots slots' hslots hslots'
  have hstays : ∀ k v v', slots.get? k = some v → slots'.get? k = some v' →
      SlotRight ctx ctx.spec.primitive response (k, v) →
      SlotRight ctx ctx.spec.primitive response (k, v') := fun k v v' hv hv' =>
    slotRight_mono (fun spec hspec => hspecs k v v' spec hv hv' hspec)
  unfold rightSlots
  by_cases hnone : AllOrNothing ctx.spec ∧
      ¬ ∀ slot ∈ slots.entries, SlotRight ctx ctx.spec.primitive response slot
  · rw [if_pos hnone]
    exact Nat.zero_le _
  · rw [if_neg hnone]
    have hnone' : ¬ (AllOrNothing ctx.spec ∧
        ¬ ∀ slot ∈ slots'.entries, SlotRight ctx ctx.spec.primitive response slot) := by
      rintro ⟨ha, hnot⟩
      refine hnot (fun slot hslot => ?_)
      have hall := not_not.1 (fun h => hnone ⟨ha, h⟩)
      have hget' := Dict.get?_eq_some.2 (show (slot.1, slot.2) ∈ slots'.entries from hslot)
      obtain ⟨v, hv⟩ := Dict.mem_keys.1 ((hkeys slot.1).2 (Dict.mem_keys.2 ⟨_, hget'⟩))
      exact hstays slot.1 v slot.2 hv hget' (hall _ (Dict.get?_eq_some.1 hv))
    rw [if_neg hnone']
    apply countP_le_of_keys
    intro k v hv hright
    obtain ⟨v', hv'⟩ := Dict.mem_keys.1 ((hkeys k).1 (Dict.mem_keys.2 ⟨v, hv⟩))
    exact ⟨v', hv', decide_eq_true (hstays k v v' hv hv' (of_decide_eq_true hright))⟩

/-! ### A selection -/

theorem gradeSelection_awarded {spec : ScoringSpec} {correct selected : List String} {expected : ℤ}
    {perCorrect : ℚ} :
    (gradeSelection spec correct expected perCorrect selected).awarded =
      perCorrect *
        ((if OverPicked spec expected selected then 0 else rightPicks correct selected : ℕ) : ℚ) := by
  unfold gradeSelection
  dsimp only
  split
  · rename_i hnil
    have hzero : rightPicks correct selected = 0 := by
      unfold rightPicks
      rw [hnil]
      rfl
    rw [hzero]
    simp
  · split
    · rename_i hover
      rw [if_pos (show OverPicked spec expected selected from hover)]
      simp
    · rename_i hover
      rw [if_neg (show ¬ OverPicked spec expected selected from hover)]
      rfl

theorem rightPicks_le {correct correct' : List String} (h : foldedSet correct ⊆ foldedSet correct')
    (selected : List String) : rightPicks correct selected ≤ rightPicks correct' selected := by
  unfold rightPicks
  rw [← List.countP_eq_length_filter, ← List.countP_eq_length_filter]
  apply List.countP_mono_left
  intro s _ hs
  simp only [List.contains_eq_mem, decide_eq_true_eq] at hs ⊢
  exact h hs

/-! ### An item under two keys -/

theorem earns_of_score {score : ItemScore}
    (h : primitives ctx.spec.primitive response key ctx = .ok score) :
    ∃ points count, pointsOf ctx.spec = .ok points ∧ Earns ctx response key count ∧
      score.awarded = points * (count : ℚ) := by
  unfold pointsOf
  by_cases hp : ctx.spec.primitive = .setSelection
  · rw [hp] at h
    obtain ⟨correct, expected, points, selected, hc, he, hpoints, hs, rfl⟩ := setSelection_eq_ok h
    rw [if_pos hp]
    refine ⟨points, _, hpoints, .selection hp hc he hs, ?_⟩
    rw [ItemScore.awarded_cons, ItemScore.awarded_nil, add_zero, gradeSelection_awarded]
  · obtain ⟨points, slots, hpoints, hslots, hawarded⟩ := awarded_of_slots hp h
    rw [if_neg hp]
    exact ⟨points, _, hpoints, .slots hp hslots, hawarded⟩

/-- A selection under the new key has too many picks only where it had, or had nothing right. -/
def StaysWithin (ctx : ScoringContext) (response : Json) (key key' : Obj) : Prop :=
  ctx.spec.primitive = .setSelection → ∀ correct correct' expected expected' selected,
    correctOf key = .ok correct → correctOf key' = .ok correct' →
    selectCount ctx.spec correct = .ok expected → selectCount ctx.spec correct' = .ok expected' →
    QtypesPrimitives.selection response = .ok selected → OverPicked ctx.spec expected' selected →
    OverPicked ctx.spec expected selected ∨ rightPicks correct selected = 0

/-- Positive points are earned as often as before; negative ones are not earned more often. -/
structure KeptItem (ctx : ScoringContext) (response : Json) (key key' : Obj) : Prop where
  within : ∀ points, pointsOf ctx.spec = .ok points → 0 < points →
    StaysWithin ctx response key key'
  penalty : ∀ points count count', pointsOf ctx.spec = .ok points → points < 0 →
    Earns ctx response key count → Earns ctx response key' count' → count' ≤ count

theorem Earns.unique {n m : ℕ} (h : Earns ctx response key n) (h' : Earns ctx response key m) :
    n = m := by
  cases h with
  | slots hp hslots =>
    cases h' with
    | slots _ hslots' =>
      rw [hslots] at hslots'
      cases hslots'
      rfl
    | selection hp' => exact absurd hp' hp
  | selection hp hc he hs =>
    cases h' with
    | slots hp' => exact absurd hp hp'
    | selection _ hc' he' hs' =>
      rw [hc] at hc'
      cases hc'
      rw [he] at he'
      cases he'
      rw [hs] at hs'
      cases hs'
      rfl

theorem count_le_iff {count count' : ℕ} (hext : Extends key key')
    (h : Earns ctx response key count) (h' : Earns ctx response key' count') :
    count ≤ count' ↔ StaysWithin ctx response key key' := by
  cases h with
  | slots hp hslots =>
    cases h' with
    | slots _ hslots' =>
      exact iff_of_true (rightSlots_le hext.slots hslots hslots') (fun h => absurd h hp)
    | selection hp' => exact absurd hp' hp
  | @selection correct selected expected hp hc he hs =>
    cases h' with
    | slots hp' => exact absurd hp hp'
    | @selection correct' selected' expected' _ hc' he' hs' =>
      have hsame : selected = selected' := Except.ok.inj (hs.symm.trans hs')
      subst hsame
      have hmore := rightPicks_le (hext.correct correct correct' hc hc') selected
      have hone : StaysWithin ctx response key key' ↔ (OverPicked ctx.spec expected' selected →
          OverPicked ctx.spec expected selected ∨ rightPicks correct selected = 0) := by
        constructor
        · intro h
          exact h hp correct correct' expected expected' selected hc hc' he he' hs
        · intro h _ a a' e e' l ha ha' hea hea' hl
          rw [← Except.ok.inj (hc.symm.trans ha)] at hea ⊢
          rw [← Except.ok.inj (hc'.symm.trans ha')] at hea'
          rw [← Except.ok.inj (hs.symm.trans hl), ← Except.ok.inj (he.symm.trans hea),
            ← Except.ok.inj (he'.symm.trans hea')]
          exact h
      rw [hone]
      by_cases hover' : OverPicked ctx.spec expected' selected
      · rw [if_pos hover']
        by_cases hover : OverPicked ctx.spec expected selected
        · simp [hover]
        · simp [hover, hover']
      · rw [if_neg hover']
        refine iff_of_true ?_ (fun h => absurd h hover')
        split
        · exact Nat.zero_le _
        · exact hmore

theorem awarded_le_iff {score score' : ItemScore} (hext : Extends key key')
    (h : primitives ctx.spec.primitive response key ctx = .ok score)
    (h' : primitives ctx.spec.primitive response key' ctx = .ok score') :
    score.awarded ≤ score'.awarded ↔ KeptItem ctx response key key' := by
  obtain ⟨points, count, hpoints, hearns, hawarded⟩ := earns_of_score h
  obtain ⟨points', count', hpoints', hearns', hawarded'⟩ := earns_of_score h'
  have hsame : points = points' := Except.ok.inj (hpoints.symm.trans hpoints')
  subst hsame
  rw [hawarded, hawarded']
  have hcount := count_le_iff hext hearns hearns'
  constructor
  · intro hle
    constructor
    · intro q hq hpos
      rw [hpoints] at hq
      cases hq
      have hcast := le_of_mul_le_mul_left hle hpos
      exact hcount.1 (by exact_mod_cast hcast)
    · intro q n n' hq hneg hn hn'
      rw [hpoints] at hq
      cases hq
      rw [hn.unique hearns, hn'.unique hearns']
      have hcast := (mul_le_mul_left_of_neg hneg).1 hle
      exact_mod_cast hcast
  · intro hkept
    rcases lt_trichotomy points 0 with hneg | hzero | hpos
    · have hless := hkept.penalty points count count' hpoints hneg hearns hearns'
      have hcast : (count' : ℚ) ≤ count := by exact_mod_cast hless
      exact mul_le_mul_of_nonpos_left hcast hneg.le
    · rw [hzero, zero_mul, zero_mul]
    · have hmore := hcount.2 (hkept.within points hpoints hpos)
      have hcast : (count : ℚ) ≤ count' := by exact_mod_cast hmore
      exact mul_le_mul_of_nonneg_left hcast hpos.le

end

/-! ## The paper -/

/-- The same questions have a key, of the same tolerance and extended. -/
def KeySetExtends (keys keys' : Dict String KeyVersion) : Prop :=
  ∀ q, (keys.get? q = none ∧ keys'.get? q = none) ∨
    ∃ kv kv', keys.get? q = some kv ∧ keys'.get? q = some kv' ∧
      kv'.tolerance = kv.tolerance ∧ Extends kv.key kv'.key

/-- What a student is promised of a key fix. -/
structure MarksKept (run run' : ScoreRun) : Prop where
  items : List.Forall₂ (fun e e' => e.1 = e'.1 ∧ e.2.awarded ≤ e'.2.awarded)
    run.itemScores run'.itemScores
  raw : run.rawScore ≤ run'.rawScore

section
variable {attempt : AttemptInput} {keys keys' : Dict String KeyVersion} {scorer : Scorer}
  {bandMap : Option BandMap} {reason reason' : String} {run run' : ScoreRun}

def responseOf (attempt : AttemptInput) (item : ItemInput) : Json :=
  (attempt.responses.get? item.questionVersionXid).getD .null

def contextFor (scorer : Scorer) (attempt : AttemptInput) (d : QuestionTypeDef) (item : ItemInput)
    (kv : KeyVersion) : ScoringContext :=
  contextOf scorer d.scoring (scoreRequest item kv (responseOf attempt item))

def KeptItems (scorer : Scorer) (attempt : AttemptInput) (keys keys' : Dict String KeyVersion) :
    Prop :=
  ∀ item ∈ attempt.items, ∀ kv kv' d, keys.get? item.questionVersionXid = some kv →
    keys'.get? item.questionVersionXid = some kv' →
    scorer.registry.defs.get? (item.typeKey, item.typeVersion) = some d →
    KeptItem (contextFor scorer attempt d item kv) (responseOf attempt item) kv.key kv'.key

theorem itemScores_of_run (h : scoreAttempt attempt keys scorer bandMap reason = .ok run) :
    ∃ scores, attempt.items.mapM (scoreOne scorer keys attempt.responses) = .ok scores ∧
      run.itemScores = (attempt.items.map ItemInput.questionVersionXid).zip scores ∧
      run.rawScore = (scores.map ItemScore.awarded).sum ∧
      run.maxRaw = (scores.map ItemScore.maxPoints).sum ∧
      run.band = bandOf bandMap run.rawScore := by
  unfold scoreAttempt at h
  obtain ⟨t, ht, h⟩ := map_eq_ok.1 h
  obtain ⟨scores, hscores, hraw, hmax, hitems⟩ := foldlM_scoreStep ht
  subst h
  refine ⟨scores, hscores, hitems, ?_, ?_, rfl⟩
  · change t.raw = _
    rw [hraw, zero_add]
  · change t.maximum = _
    rw [hmax, zero_add]

theorem scoreOne_le_iff {item : ItemInput} {score score' : ItemScore}
    (hext : KeySetExtends keys keys')
    (h : scoreOne scorer keys attempt.responses item = .ok score)
    (h' : scoreOne scorer keys' attempt.responses item = .ok score') :
    score.awarded ≤ score'.awarded ↔
      ∀ kv kv' d, keys.get? item.questionVersionXid = some kv →
        keys'.get? item.questionVersionXid = some kv' →
        scorer.registry.defs.get? (item.typeKey, item.typeVersion) = some d →
        KeptItem (contextFor scorer attempt d item kv) (responseOf attempt item) kv.key kv'.key := by
  unfold scoreOne at h h'
  rcases hext item.questionVersionXid with ⟨hnone, hnone'⟩ | ⟨kv, kv', hkv, hkv', htol, hkeys⟩
  · rw [hnone] at h
    rw [hnone'] at h'
    cases h
    cases h'
    refine iff_of_true (le_refl _) (fun kv kv' d hkv => ?_)
    rw [hnone] at hkv
    cases hkv
  · rw [hkv] at h
    rw [hkv'] at h'
    obtain ⟨d, hd, _, _, hscore⟩ := scoreItem_eq_ok.1 h
    obtain ⟨d', hd', _, _, hscore'⟩ := scoreItem_eq_ok.1 h'
    have hsame : d = d' := Option.some.inj (hd.symm.trans hd')
    subst hsame
    have hctx : contextOf scorer d.scoring (scoreRequest item kv' (responseOf attempt item)) =
        contextFor scorer attempt d item kv := by
      unfold contextFor contextOf scoreRequest
      rw [htol]
    change primitives d.scoring.primitive (responseOf attempt item) kv'.key
      (contextOf scorer d.scoring (scoreRequest item kv' (responseOf attempt item))) = _ at hscore'
    rw [hctx] at hscore'
    rw [@awarded_le_iff (contextFor scorer attempt d item kv) _ _ _ _ _ hkeys hscore hscore']
    constructor
    · intro hkept a a' e ha ha' he
      rw [hkv] at ha
      rw [hkv'] at ha'
      rw [show scorer.registry.defs.get? (item.typeKey, item.typeVersion) = some d from hd] at he
      cases ha
      cases ha'
      cases he
      exact hkept
    · intro hall
      exact hall kv kv' d hkv hkv' hd

theorem forall_items_iff (hext : KeySetExtends keys keys') {items : List ItemInput}
    {scores scores' : List ItemScore}
    (h : items.mapM (scoreOne scorer keys attempt.responses) = .ok scores)
    (h' : items.mapM (scoreOne scorer keys' attempt.responses) = .ok scores') :
    List.Forall₂ (fun e e' => e.1 = e'.1 ∧ e.2.awarded ≤ e'.2.awarded)
        ((items.map ItemInput.questionVersionXid).zip scores)
        ((items.map ItemInput.questionVersionXid).zip scores') ↔
      ∀ item ∈ items, ∀ kv kv' d, keys.get? item.questionVersionXid = some kv →
        keys'.get? item.questionVersionXid = some kv' →
        scorer.registry.defs.get? (item.typeKey, item.typeVersion) = some d →
        KeptItem (contextFor scorer attempt d item kv) (responseOf attempt item) kv.key kv'.key := by
  induction items generalizing scores scores' with
  | nil =>
    cases h
    cases h'
    exact iff_of_true .nil (by simp)
  | cons item items ih =>
    obtain ⟨score, rest, hscore, hrest, rfl⟩ := mapM_cons_eq_ok.1 h
    obtain ⟨score', rest', hscore', hrest', rfl⟩ := mapM_cons_eq_ok.1 h'
    rw [List.map_cons, List.zip_cons_cons, List.zip_cons_cons, List.forall₂_cons,
      List.forall_mem_cons, ih hrest hrest', scoreOne_le_iff hext hscore hscore']
    simp only [true_and]

theorem pairs_sum_le {l l' : List (String × ItemScore)}
    (h : List.Forall₂ (fun e e' => e.1 = e'.1 ∧ e.2.awarded ≤ e'.2.awarded) l l') :
    ((l.map Prod.snd).map ItemScore.awarded).sum ≤ ((l'.map Prod.snd).map ItemScore.awarded).sum := by
  induction h with
  | nil => exact le_refl _
  | cons hle _ ih =>
    simp only [List.map_cons, List.sum_cons]
    linarith [hle.2]

theorem marksKept_iff (hext : KeySetExtends keys keys')
    (h : scoreAttempt attempt keys scorer bandMap reason = .ok run)
    (h' : scoreAttempt attempt keys' scorer bandMap reason' = .ok run') :
    MarksKept run run' ↔ KeptItems scorer attempt keys keys' := by
  obtain ⟨scores, hscores, hitems, hraw, _⟩ := itemScores_of_run h
  obtain ⟨scores', hscores', hitems', hraw', _⟩ := itemScores_of_run h'
  have hlen := mapM_length hscores
  have hlen' := mapM_length hscores'
  rw [KeptItems, ← forall_items_iff hext hscores hscores', ← hitems, ← hitems']
  constructor
  · exact fun hkept => hkept.items
  · intro hall
    have hsum := pairs_sum_le hall
    rw [hitems, hitems', List.map_snd_zip (by simp [hlen]), List.map_snd_zip (by simp [hlen']),
      ← hraw, ← hraw'] at hsum
    exact ⟨hall, hsum⟩

/-! ## The band -/

/-- A map that passes its validation and reaches the paper's maximum bands the second run no
lower. -/
def BandKept (bandMap : Option BandMap) (run run' : ScoreRun) : Prop :=
  ∀ b m, bandMap = some m → bandMapOf b = .ok m → findings b.mapping b.maxRaw = .ok [] →
    run'.maxRaw ≤ b.maxRaw → ∀ band, run.band = some band →
      ∃ band', run'.band = some band' ∧ band ≤ band'

def FineMap (bandMap : Option BandMap) : Prop :=
  ∀ b m, bandMap = some m → bandMapOf b = .ok m → FineBands b.mapping

def PaysWithin (scorer : Scorer) (attempt : AttemptInput) (keys : Dict String KeyVersion) : Prop :=
  ∀ item ∈ attempt.items, ∀ kv d, keys.get? item.questionVersionXid = some kv →
    scorer.registry.defs.get? (item.typeKey, item.typeVersion) = some d →
    NeverOverpays d.scoring kv.key ∧ ∀ points, worth d.scoring kv.key = .ok points → 0 ≤ points

theorem sum_le_of_forall {scores : List ItemScore}
    (h : ∀ s ∈ scores, s.awarded ≤ s.maxPoints) :
    (scores.map ItemScore.awarded).sum ≤ (scores.map ItemScore.maxPoints).sum := by
  induction scores with
  | nil => exact le_refl _
  | cons s scores ih =>
    rw [List.forall_mem_cons] at h
    have hrest := ih h.2
    simp only [List.map_cons, List.sum_cons]
    linarith [h.1]

theorem rawScore_le_maxRaw (hpays : PaysWithin scorer attempt keys)
    (h : scoreAttempt attempt keys scorer bandMap reason = .ok run) :
    run.rawScore ≤ run.maxRaw := by
  obtain ⟨scores, hscores, _, hraw, hmax, _⟩ := itemScores_of_run h
  rw [hraw, hmax]
  refine sum_le_of_forall (fun score hscore => ?_)
  obtain ⟨item, hitem, hone⟩ := exists_input_of_mapM hscores hscore
  unfold scoreOne at hone
  cases hkv : keys.get? item.questionVersionXid with
  | none =>
    rw [hkv] at hone
    cases hone
    rw [voidScore_awarded, voidScore_maxPoints]
    exact Nat.cast_nonneg _
  | some kv =>
    rw [hkv] at hone
    obtain ⟨d, hd, _, _, hprim⟩ := scoreItem_eq_ok.1 hone
    obtain ⟨hpay, hworth⟩ := hpays item hitem kv d hkv hd
    have hpoints := hworth _ (@worth_of_score (contextFor scorer attempt d item kv) _ _ _ hprim)
    exact (@awarded_bounds (contextFor scorer attempt d item kv) _ _ _ hprim hpoints hpay).2

theorem nonneg_of_banded {b : BandMapVersion} {m : BandMap} (hm : bandMapOf b = .ok m)
    (hfind : findings b.mapping b.maxRaw = .ok []) {raw band : ℚ}
    (hband : m.bandFor raw = some band) : 0 ≤ roundHalfUp raw := by
  obtain ⟨_, rows, hcurve⟩ := curve_of_findings hfind
  obtain ⟨scored, hscored, rfl⟩ := bandMapOf_eq_ok.1 hm
  rw [bandFor_eq_lookup] at hband
  have hsome : (lookup scored (roundHalfUp raw)).isSome := by
    rw [show lookup scored (roundHalfUp raw) = some band from hband]
    rfl
  obtain ⟨s, hs, hwithin⟩ := isSome_lookup.1 hsome
  obtain ⟨r, hr, row, _, hread, htwin⟩ := mem_twin (twins_of_mapM hcurve.read hscored) hs
  have hlower := hread.inside.1
  rw [← htwin.lower] at hlower
  exact hlower.trans hwithin.1

theorem bandFor_rises {b : BandMapVersion} {m : BandMap} (hm : bandMapOf b = .ok m)
    (hfind : findings b.mapping b.maxRaw = .ok []) (hfine : FineBands b.mapping) {raw raw' band : ℚ}
    (hle : raw ≤ raw') (hmax : raw' ≤ b.maxRaw) (hband : m.bandFor raw = some band) :
    ∃ band', m.bandFor raw' = some band' ∧ band ≤ band' := by
  have hnonneg := nonneg_of_banded hm hfind hband
  obtain ⟨_, rows, hcurve⟩ := curve_of_findings hfind
  obtain ⟨scored, hscored, rfl⟩ := bandMapOf_eq_ok.1 hm
  have hround := roundHalfUp_mono hle
  have hround' := roundHalfUp_mono hmax
  rw [roundHalfUp_intCast] at hround'
  have hsome := covers_scored hcurve hscored (hnonneg.trans hround) hround'
  obtain ⟨band', hband'⟩ := Option.isSome_iff_exists.1 hsome
  have hmono := ((separate_scored hcurve hscored).rising_iff (proper_scored hcurve hscored)).1
    ((rising_scored_iff hcurve hscored).2 hfine)
  exact ⟨band', hband', hmono _ _ _ _ hround hband hband'⟩

end

def threePicks : AttemptInput where
  attemptXid := "a1"
  userXid := "u1"
  items := [{
    questionXid := "q1", questionVersionXid := "q1", typeKey := "mcq_multi", typeVersion := 1
    payload := Dict.empty, slotKeys := ["s1"], skill := "reading" }]
  responses := Dict.ofList
    [("q1", assembled (Dict.ofList [("s1", .arr [.str "A", .str "B", .str "C"])]))]

def keyOf (correct : List Json) : Dict String KeyVersion :=
  Dict.empty.put "q1" { xid := "k1", key := Dict.empty.put "correct" (.arr correct) }

def spelledTwice : Dict String KeyVersion := keyOf [.str "A", .str "a", .str "B"]

def spelledOnce : Dict String KeyVersion := keyOf [.str "A", .str "B"]

theorem spelledOnce_extends : KeySetExtends spelledTwice spelledOnce := by
  intro q
  by_cases hq : "q1" = q
  · subst hq
    refine .inr ⟨_, _, rfl, rfl, rfl, ?_, ?_⟩
    · intro slots slots' hslots hslots'
      cases hslots
      cases hslots'
      exact ⟨fun k => Iff.rfl, fun k v v' spec hv => by cases hv⟩
    · intro correct correct' hc hc'
      cases hc
      cases hc'
      decide
  · left
    unfold spelledTwice spelledOnce keyOf
    rw [Dict.get?_put, if_neg hq, Dict.get?_put, if_neg hq]
    exact ⟨rfl, rfl⟩

theorem raw_spelledTwice : ScoreRun.rawScore <$>
    scoreAttempt threePicks spelledTwice PublishedPaper.multiScorer none "initial" = .ok 2 := by
  decide +kernel

theorem raw_spelledOnce : ScoreRun.rawScore <$>
    scoreAttempt threePicks spelledOnce PublishedPaper.multiScorer none "regrade" = .ok 0 := by
  decide +kernel

end IeltsHub.KeyFixMarks
