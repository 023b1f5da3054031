import IeltsHub.QuestionView

set_option autoImplicit false

/-!
# Every blank can be answered

What a question's controls send is said by the name of its type alone, and whether that suits the
type is said by its definition. The two agree on the law for a question exactly where the controls
are one for each slot, the slot shape takes all they send and a sheet of theirs earns the marks.
-/
namespace IeltsHub.EveryBlank
open PyExc PyText PyValue PyDict PlatformErrors QtypesSchemas QtypesPrimitives QtypesRegistry
  ContentComposition PublishGatePasses ScoringTotality ScoringMarks KeySoundness QuestionView

/-! ## What a selection can become -/

theorem toggleSelection_filter {ids : List Json} {id : Json} (p : Json → Bool) (h : id ∈ ids) :
    toggleSelection (ids.filter p) id ids =
      ids.filter (fun o => if o = id then !p o else p o) := by
  have hin : (ids.filter p).contains id = p id := by
    rw [Bool.eq_iff_iff, List.contains_iff_mem, List.mem_filter]
    exact ⟨fun hp => hp.2, fun hp => ⟨h, hp⟩⟩
  unfold toggleSelection
  rw [hin]
  cases hp : p id with
  | true =>
    rw [if_pos rfl, List.filter_filter]
    apply List.filter_congr
    intro o _
    by_cases ho : o = id
    · subst ho
      simp [hp]
    · simp [ho]
  | false =>
    rw [if_neg Bool.false_ne_true]
    apply List.filter_congr
    intro o ho
    by_cases hid : o = id
    · subst hid
      simp [hp]
    · simp [hid, ho]

theorem clicked_filter {ids : List Json} (picked : List Json) :
    Clicked ids (ids.filter (fun o => picked.contains o)) := by
  induction picked with
  | nil =>
    have hnil : ids.filter (fun o => ([] : List Json).contains o) = [] := by simp
    rw [hnil]
    exact .none
  | cons x xs ih =>
    by_cases hx : x ∈ ids ∧ x ∉ xs
    · have hstep := Clicked.toggle ih hx.1
      rw [toggleSelection_filter _ hx.1] at hstep
      have hsame : ids.filter (fun o => if o = x then !xs.contains o else xs.contains o) =
          ids.filter (fun o => (x :: xs).contains o) := by
        apply List.filter_congr
        intro o _
        by_cases ho : o = x
        · subst ho
          simp [hx.2]
        · simp [ho]
      rw [← hsame]
      exact hstep
    · have hsame : ids.filter (fun o => (x :: xs).contains o) =
          ids.filter (fun o => xs.contains o) := by
        apply List.filter_congr
        intro o ho
        by_cases hox : o = x
        · subst hox
          have hmem : o ∈ xs := by
            by_contra hno
            exact hx ⟨ho, hno⟩
          simp [hmem]
        · simp [hox]
      rw [hsame]
      exact ih

theorem clicked_iff {ids chosen : List Json} :
    Clicked ids chosen ↔ ∃ p : Json → Bool, chosen = ids.filter p := by
  constructor
  · intro h
    induction h with
    | none => exact ⟨fun _ => false, by simp⟩
    | toggle _ hid ih =>
      obtain ⟨p, rfl⟩ := ih
      exact ⟨_, toggleSelection_filter p hid⟩
  · rintro ⟨p, rfl⟩
    have hsame : ids.filter p = ids.filter (fun o => (ids.filter p).contains o) := by
      apply List.filter_congr
      intro o ho
      simp [ho]
    rw [hsame]
    exact clicked_filter (ids.filter p)

theorem emits_checkbox {ids : List Json} {v : Json} :
    (Widget.checkbox ids).Emits v ↔ ids ≠ [] ∧ ∃ p : Json → Bool, v = .arr (ids.filter p) := by
  constructor
  · rintro ⟨chosen, id, hid, hclicked, rfl⟩
    obtain ⟨p, hp⟩ := clicked_iff.1 (hclicked.toggle hid)
    exact ⟨List.ne_nil_of_mem hid, p, congrArg Json.arr hp⟩
  · rintro ⟨hne, p, rfl⟩
    obtain ⟨id, hid⟩ := List.exists_mem_of_ne_nil ids hne
    refine ⟨ids.filter (fun o => if o = id then !p o else p o), id, hid, clicked_iff.2 ⟨_, rfl⟩, ?_⟩
    rw [toggleSelection_filter _ hid]
    congr 1
    apply List.filter_congr
    intro o _
    by_cases ho : o = id
    · simp [ho]
    · simp [ho]

/-! ## The law -/

/-- The slot's answer is awarded full marks; of a selection, the item is. -/
def InFull (scorer : Scorer) (g : GroupNode) (q : QuestionNode) (d : QuestionTypeDef) (key : Obj)
    (values : Obj) (slot : String) : Prop :=
  if d.scoring.primitive = .setSelection then SelectionInFull scorer g q key (assembled values)
  else ScoresInFull scorer g q key (assembled values) slot

/-- The view draws one control for each slot and no other, the server takes whatever they send,
and each slot can be filled, with the others, so that it earns its marks. -/
def Answerable (validator : Validator) (scorer : Scorer) (g : GroupNode) (q : QuestionNode)
    (d : QuestionTypeDef) (key : Obj) : Prop :=
  ∃ controls, questionView q g = some controls ∧
    (∀ slot, (controls.map Control.slot).count slot = if slot ∈ q.slotKeys then 1 else 0) ∧
    (∀ c ∈ controls, ∀ v, c.widget.Emits v →
      scorer.validateResponse validator q.typeKey q.typeVersion v = .ok none) ∧
    ∀ slot ∈ q.slotKeys, ∃ values : Obj,
      (∀ e ∈ values.entries, ∃ c ∈ controls, c.slot = e.1 ∧ c.widget.Emits e.2) ∧
      (values.get? slot).isSome = true ∧ InFull scorer g q d key values slot

/-! ## When it holds -/

/-- The slots a type of that name is answered in are the question's, each once. -/
def OneEach (q : QuestionNode) : Prop :=
  match branchOf q.typeKey with
  | .gapped => (gaps (gapText q.payload).toList).Nodup ∧
      ∀ k, k ∈ gaps (gapText q.payload).toList ↔ k ∈ q.slotKeys
  | .headings => (paragraphSlots q.payload q.slotKeys).Nodup ∧
      ∀ k, k ∈ paragraphSlots q.payload q.slotKeys ↔ k ∈ q.slotKeys
  | .boxes => q.slotKeys.Nodup
  | _ => ∃ slot ∈ q.slotKeys, ∀ k ∈ q.slotKeys, k = slot

def Drawable (q : QuestionNode) (g : GroupNode) : Prop :=
  match branchOf q.typeKey with
  | .single | .multi => (payloadIds q.payload).isSome = true
  | .headings => paragraphSlots q.payload q.slotKeys = [] ∨ g.optionBank = [] ∨
      (g.optionBank.mapM optionValue).isSome = true
  | .matching => g.optionBank = [] ∨ (g.optionBank.mapM optionValue).isSome = true
  | _ => True

/-- A line of text, or a choice from the group's list where it has one. -/
def FromBank (bank : List Json) (v : Json) : Prop :=
  if bank = [] then ∃ s, OneLine s ∧ v = .str s
  else ∃ values, bank.mapM optionValue = some values ∧ (v = .str "" ∨ ∃ x ∈ values, v = .str x)

def Sendable (q : QuestionNode) (g : GroupNode) (v : Json) : Prop :=
  match branchOf q.typeKey with
  | .fixed choices => ∃ x ∈ choices, v = .str x
  | .single => ∃ ids, payloadIds q.payload = some ids ∧ v ∈ ids
  | .multi => ∃ ids, payloadIds q.payload = some ids ∧ ids ≠ [] ∧
      ∃ p : Json → Bool, v = .arr (ids.filter p)
  | .headings | .matching => FromBank g.optionBank v
  | .gapped | .short | .boxes => ∃ s, OneLine s ∧ v = .str s

def Takes (validator : Validator) (d : QuestionTypeDef) (v : Json) : Prop :=
  v = .null ∨ ∃ schema, d.slotResponseSchema = .ok (some schema) ∧
    validator.iterErrors schema v = []

def SelectionRight (spec : ScoringSpec) (key : Obj) (response : Json) : Prop :=
  ∃ correct expected perCorrect selected, correctOf key = .ok correct ∧
    selectCount spec correct = .ok expected ∧ pointsPerCorrect spec = .ok perCorrect ∧
    selection response = .ok selected ∧ (perCorrect = 0 ∨ expected =
      if expected < (foldedSet selected).length ∧
          getD spec.options "over_selection" .null = .str "score_zero" then 0
      else (((foldedSet selected).filter (fun x => (foldedSet correct).contains x)).length : ℤ))

def KeyReads (scorer : Scorer) (q : QuestionNode) (d : QuestionTypeDef) (key : Obj)
    (values : Obj) (slot : String) (rules : GroupRules) : Prop :=
  Scorable scorer (requestOf q key rules (assembled values)) ∧
    if d.scoring.primitive = .setSelection then SelectionRight d.scoring key (assembled values)
    else ∃ slots v, asDict (getOr key "slots" (.obj [])) = some slots ∧ slots.get? slot = some v ∧
      SlotRight (contextOf scorer d.scoring (requestOf q key rules (assembled values)))
        d.scoring.primitive (assembled values) (slot, v) ∧
      StandsAlone (contextOf scorer d.scoring (requestOf q key rules (assembled values)))
        d.scoring.primitive key (assembled values) slot

/-- The name of the type and its definition agree about the question. -/
structure Accords (validator : Validator) (scorer : Scorer) (g : GroupNode) (q : QuestionNode)
    (d : QuestionTypeDef) (key : Obj) : Prop where
  drawable : Drawable q g
  oneEach : OneEach q
  takes : ∀ slot ∈ q.slotKeys, ∀ v, Sendable q g v → Takes validator d v
  earned : ∀ slot ∈ q.slotKeys, ∃ (values : Obj) (rules : GroupRules),
    (∀ e ∈ values.entries, e.1 ∈ q.slotKeys ∧ Sendable q g e.2) ∧
    (values.get? slot).isSome = true ∧ g.rules = .ok rules ∧
    KeyReads scorer q d key values slot rules

/-! ## The controls of a view -/

def drawnSlots (q : QuestionNode) : List String :=
  match branchOf q.typeKey with
  | .gapped => gaps (gapText q.payload).toList
  | .headings => paragraphSlots q.payload q.slotKeys
  | .boxes => q.slotKeys
  | _ => [firstSlot q]

theorem each_once_iff {drawn wanted : List String} :
    (∀ k, drawn.count k = if k ∈ wanted then 1 else 0) ↔
      drawn.Nodup ∧ ∀ k, k ∈ drawn ↔ k ∈ wanted := by
  constructor
  · intro h
    constructor
    · rw [List.nodup_iff_count_le_one]
      intro k
      rw [h k]
      split <;> omega
    · intro k
      rw [← List.count_pos_iff, h k]
      split <;> simp_all
  · rintro ⟨hn, hsame⟩ k
    by_cases hk : k ∈ wanted
    · rw [if_pos hk]
      exact List.count_eq_one_of_mem hn ((hsame k).2 hk)
    · rw [if_neg hk]
      exact List.count_eq_zero_of_not_mem (fun h => hk ((hsame k).1 h))

theorem single_slot_iff {keys : List String} :
    (∃ slot ∈ keys, ∀ k ∈ keys, k = slot) ↔
      [keys.head?.getD "s1"].Nodup ∧ ∀ k, k ∈ [keys.head?.getD "s1"] ↔ k ∈ keys := by
  cases keys with
  | nil => simp
  | cons x xs =>
    simp only [List.head?_cons, Option.getD_some, List.nodup_singleton, true_and,
      List.mem_singleton]
    constructor
    · rintro ⟨slot, _, hall⟩ k
      have hx := hall x List.mem_cons_self
      constructor
      · rintro rfl
        exact List.mem_cons_self
      · intro hk
        rw [hall k hk, hx]
    · intro h
      exact ⟨x, List.mem_cons_self, fun k hk => (h k).2 hk⟩

theorem oneEach_iff {q : QuestionNode} :
    OneEach q ↔ (drawnSlots q).Nodup ∧ ∀ k, k ∈ drawnSlots q ↔ k ∈ q.slotKeys := by
  unfold OneEach drawnSlots
  cases branchOf q.typeKey with
  | gapped => exact Iff.rfl
  | headings => exact Iff.rfl
  | boxes => simp
  | fixed _ => exact single_slot_iff
  | single => exact single_slot_iff
  | multi => exact single_slot_iff
  | short => exact single_slot_iff
  | matching => exact single_slot_iff

theorem emits_bank {bank : List Json} {widget : Widget} (h : bankWidget bank = some widget)
    (v : Json) : widget.Emits v ↔ FromBank bank v := by
  unfold bankWidget at h
  unfold FromBank
  by_cases hb : bank = []
  · rw [if_pos hb] at h ⊢
    cases h
    exact Iff.rfl
  · rw [if_neg hb] at h ⊢
    obtain ⟨values, hvalues, rfl⟩ := Option.map_eq_some_iff.1 h
    rw [hvalues]
    simp only [Option.some.injEq, exists_eq_left']
    exact Iff.rfl

theorem mapM_widget {keys : List String} {widget : Option Widget} {controls : List Control}
    (h : keys.mapM (fun key => (fun w => Control.mk key w) <$> widget) = some controls) :
    controls.map Control.slot = keys ∧ ∀ c ∈ controls, widget = some c.widget := by
  induction keys generalizing controls with
  | nil =>
    cases h
    simp
  | cons key keys ih =>
    rw [List.mapM_cons] at h
    obtain ⟨c, hc, h⟩ := Option.bind_eq_some_iff.1 h
    obtain ⟨cs, hcs, h⟩ := Option.bind_eq_some_iff.1 h
    cases h
    obtain ⟨w, hw, rfl⟩ := Option.map_eq_some_iff.1 hc
    obtain ⟨hslots, hwidgets⟩ := ih hcs
    constructor
    · rw [List.map_cons, hslots]
    · intro c hc
      rcases List.mem_cons.1 hc with rfl | hc
      · exact hw
      · exact hwidgets c hc

theorem isSome_mapM_widget {keys : List String} {widget : Option Widget} :
    (keys.mapM (fun key => (fun w => Control.mk key w) <$> widget)).isSome = true ↔
      keys = [] ∨ widget.isSome = true := by
  cases widget with
  | none =>
    cases keys with
    | nil => simp
    | cons key keys => simp [List.mapM_cons]
  | some w =>
    simp only [Option.map_eq_map, Option.map_some, Option.isSome_some, or_true, iff_true]
    induction keys with
    | nil => rfl
    | cons key keys ih =>
      obtain ⟨cs, hcs⟩ := Option.isSome_iff_exists.1 ih
      rw [List.mapM_cons]
      simp [hcs]

theorem isSome_bankWidget {bank : List Json} :
    (bankWidget bank).isSome = true ↔ bank = [] ∨ (bank.mapM optionValue).isSome = true := by
  unfold bankWidget
  by_cases hb : bank = []
  · simp [hb]
  · simp [hb]

theorem isSome_questionView {q : QuestionNode} {g : GroupNode} :
    (questionView q g).isSome = true ↔ Drawable q g := by
  unfold questionView Drawable
  cases branchOf q.typeKey with
  | headings => 
    dsimp only
    rw [isSome_mapM_widget, isSome_bankWidget]
  | matching => simpa using isSome_bankWidget
  | single => simp
  | multi => simp
  | fixed _ => simp
  | gapped => simp
  | short => simp
  | boxes => simp

theorem controls_of_view {q : QuestionNode} {g : GroupNode} {controls : List Control}
    (h : questionView q g = some controls) :
    controls.map Control.slot = drawnSlots q ∧
      ∀ c ∈ controls, ∀ v, c.widget.Emits v ↔ Sendable q g v := by
  unfold questionView at h
  unfold drawnSlots Sendable
  cases hb : branchOf q.typeKey with
  | fixed choices =>
    rw [hb] at h
    cases h
    refine ⟨rfl, ?_⟩
    intro c hc v
    rw [List.mem_singleton.1 hc]
    change v ∈ choices.map Json.str ↔ _
    simp only [List.mem_map, eq_comm]
  | single =>
    rw [hb] at h
    obtain ⟨ids, hids, rfl⟩ := Option.map_eq_some_iff.1 h
    refine ⟨rfl, ?_⟩
    intro c hc v
    rw [List.mem_singleton.1 hc]
    simp only [hids, Option.some.injEq, exists_eq_left']
    exact Iff.rfl
  | multi =>
    rw [hb] at h
    obtain ⟨ids, hids, rfl⟩ := Option.map_eq_some_iff.1 h
    refine ⟨rfl, ?_⟩
    intro c hc v
    rw [List.mem_singleton.1 hc]
    simp only [hids, Option.some.injEq, exists_eq_left']
    exact emits_checkbox
  | gapped =>
    rw [hb] at h
    cases h
    constructor
    · exact (List.map_map).trans (List.map_id _)
    · intro c hc v
      obtain ⟨gap, _, rfl⟩ := List.mem_map.1 hc
      exact Iff.rfl
  | short =>
    rw [hb] at h
    cases h
    refine ⟨rfl, ?_⟩
    intro c hc v
    rw [List.mem_singleton.1 hc]
    exact Iff.rfl
  | headings =>
    rw [hb] at h
    obtain ⟨hslots, hwidgets⟩ := mapM_widget h
    exact ⟨hslots, fun c hc v => emits_bank (hwidgets c hc) v⟩
  | matching =>
    rw [hb] at h
    obtain ⟨widget, hw, rfl⟩ := Option.map_eq_some_iff.1 h
    refine ⟨rfl, ?_⟩
    intro c hc v
    rw [List.mem_singleton.1 hc]
    exact emits_bank hw v
  | boxes =>
    rw [hb] at h
    cases h
    constructor
    · exact (List.map_map).trans (List.map_id _)
    · intro c hc v
      obtain ⟨slot, _, rfl⟩ := List.mem_map.1 hc
      exact Iff.rfl

/-! ## What the server makes of it -/

section
variable {validator : Validator} {scorer : Scorer} {g : GroupNode} {q : QuestionNode}
  {d : QuestionTypeDef} {key : Obj}

theorem validate_iff (hd : scorer.registry.defs.get? (q.typeKey, q.typeVersion) = some d)
    {v : Json} : scorer.validateResponse validator q.typeKey q.typeVersion v = .ok none ↔
      Takes validator d v := by
  unfold Scorer.validateResponse Registry.validateResponse Takes
  by_cases hv : v = .null
  · simp only [hv, if_true, true_or, iff_true]
    rfl
  · have hget : scorer.registry.get q.typeKey q.typeVersion = .ok d := registry_get_eq_ok.2 hd
    simp only [hv, if_false, false_or, bind_eq_ok, hget, Except.ok.injEq, exists_eq_left']
    constructor
    · rintro ⟨shape, hshape, h⟩
      cases shape with
      | none => cases h
      | some schema =>
        have hbest := Option.map_eq_none_iff.1 (Except.ok.inj h)
        exact ⟨schema, hshape, (validator.bestMatch_eq_none _).1 hbest⟩
    · rintro ⟨schema, hshape, herrors⟩
      refine ⟨some schema, hshape, ?_⟩
      have hbest := (validator.bestMatch_eq_none _).2 herrors
      dsimp only
      rw [hbest]
      rfl

theorem gradeSelection_full {spec : ScoringSpec} {correct selected : List String} {expected : ℤ}
    {perCorrect : ℚ} :
    (gradeSelection spec correct expected perCorrect selected).awarded = perCorrect * expected ↔
      perCorrect = 0 ∨ expected =
        if expected < (foldedSet selected).length ∧
            getD spec.options "over_selection" .null = .str "score_zero" then 0
        else
          (((foldedSet selected).filter (fun x => (foldedSet correct).contains x)).length : ℤ) := by
  have hmul : ∀ n : ℤ, perCorrect * n = perCorrect * expected ↔ perCorrect = 0 ∨ expected = n := by
    intro n
    rw [mul_eq_mul_left_iff, or_comm, Int.cast_inj, eq_comm (a := n)]
  unfold gradeSelection
  dsimp only
  by_cases hnone : foldedSet selected = []
  · rw [if_pos hnone, hnone]
    simp
  · rw [if_neg hnone]
    by_cases hover : expected < (foldedSet selected).length ∧
        getD spec.options "over_selection" .null = .str "score_zero"
    · rw [if_pos hover, if_pos hover]
      simp
    · rw [if_neg hover, if_neg hover]
      exact_mod_cast hmul _

theorem selectionInFull_right
    (hd : scorer.registry.defs.get? (q.typeKey, q.typeVersion) = some d)
    (hprim : d.scoring.primitive = .setSelection) {response : Json} :
    SelectionInFull scorer g q key response ↔ ∃ rules, g.rules = .ok rules ∧
      Scorable scorer (requestOf q key rules response) ∧
      SelectionRight d.scoring key response := by
  have hmarks : ∀ {rules score}, scorer.scoreItem (requestOf q key rules response) = .ok score →
      (score.awarded = score.maxPoints ↔ SelectionRight d.scoring key response) := by
    intro rules score hscore
    obtain ⟨d', hd', _, _, hprimitive⟩ := scoreItem_eq_ok.1 hscore
    have hsame : d' = d := Option.some.inj (hd'.symm.trans hd)
    subst hsame
    rw [hprim] at hprimitive
    obtain ⟨correct, expected, perCorrect, selected, hc, he, hp, hs, rfl⟩ :=
      setSelection_eq_ok hprimitive
    change selectCount d'.scoring correct = .ok expected at he
    change pointsPerCorrect d'.scoring = .ok perCorrect at hp
    change selection response = .ok selected at hs
    change correctOf key = .ok correct at hc
    rw [ItemScore.awarded_cons, ItemScore.maxPoints_cons, ItemScore.maxPoints_nil,
      ItemScore.awarded_nil, add_zero, add_zero, gradeSelection_maxPoints]
    refine gradeSelection_full.trans ?_
    constructor
    · intro h
      exact ⟨correct, expected, perCorrect, selected, hc, he, hp, hs, h⟩
    · rintro ⟨correct', expected', perCorrect', selected', hc', he', hp', hs', h⟩
      have h1 : correct' = correct := Except.ok.inj (hc'.symm.trans hc)
      subst h1
      have h2 : expected' = expected := Except.ok.inj (he'.symm.trans he)
      have h3 : perCorrect' = perCorrect := Except.ok.inj (hp'.symm.trans hp)
      have h4 : selected' = selected := Except.ok.inj (hs'.symm.trans hs)
      subst h2 h3 h4
      exact h
  constructor
  · rintro ⟨rules, score, hrules, hscore, hfull⟩
    exact ⟨rules, hrules, (returns_scoreItem _ _).1 ⟨score, hscore⟩, (hmarks hscore).1 hfull⟩
  · rintro ⟨rules, hrules, hscorable, hright⟩
    obtain ⟨score, hscore⟩ := (returns_scoreItem _ _).2 hscorable
    exact ⟨rules, score, hrules, hscore, (hmarks hscore).2 hright⟩

theorem aggregate_slotKeys (score : ItemScore) (spec : ScoringSpec) :
    (aggregate score spec).slots.map SlotScore.slotKey = score.slots.map SlotScore.slotKey := by
  by_cases h : AllOrNothing spec
  · rw [aggregate_of_all h]
    apply List.ext_getElem
    · simp
    · intro i _ _
      simp [collapsed]
  · rw [aggregate_of_not h]

theorem graded_slotKeys {perSlot : ℚ} {R : String × Json → SlotScore → Prop}
    {entries : List (String × Json)} {scores : List SlotScore}
    (h : List.Forall₂ (fun slot s => Graded slot.1 perSlot s ∧ R slot s) entries scores) :
    scores.map SlotScore.slotKey = entries.map Prod.fst := by
  induction h with
  | nil => rfl
  | cons hg _ ih => rw [List.map_cons, List.map_cons, ih, hg.1.slotKey_eq]

theorem keyed_of_fullMarks {rules : GroupRules} {response : Json} {score : ItemScore}
    {slot : String} (hd : scorer.registry.defs.get? (q.typeKey, q.typeVersion) = some d)
    (hprim : d.scoring.primitive ≠ .setSelection)
    (hscore : scorer.scoreItem (requestOf q key rules response) = .ok score)
    (hfull : FullMarks score slot) :
    ∃ slots v, asDict (getOr key "slots" (.obj [])) = some slots ∧ slots.get? slot = some v := by
  obtain ⟨d', hd', _, _, hprimitive⟩ := scoreItem_eq_ok.1 hscore
  have hsame : d' = d := Option.some.inj (hd'.symm.trans hd)
  subst hsame
  obtain ⟨perSlot, slots, scores, _, hslots, rfl, hall⟩ := slotted_eq_ok hprim hprimitive
  obtain ⟨t, ht, hkey, _⟩ := hfull
  have hmem : slot ∈ slots.entries.map Prod.fst := by
    rw [← graded_slotKeys hall, ← hkey]
    have hin := List.mem_map_of_mem (f := SlotScore.slotKey) ht
    rw [aggregate_slotKeys] at hin
    exact hin
  obtain ⟨e, he, rfl⟩ := List.mem_map.1 hmem
  exact ⟨slots, e.2, hslots, Dict.get?_eq_some.2 he⟩

theorem scoresInFull_right {values : Obj} {slot : String}
    (hd : scorer.registry.defs.get? (q.typeKey, q.typeVersion) = some d)
    (hprim : d.scoring.primitive ≠ .setSelection) :
    ScoresInFull scorer g q key (assembled values) slot ↔ ∃ rules, g.rules = .ok rules ∧
      Scorable scorer (requestOf q key rules (assembled values)) ∧
      ∃ slots v, asDict (getOr key "slots" (.obj [])) = some slots ∧ slots.get? slot = some v ∧
        SlotRight (contextOf scorer d.scoring (requestOf q key rules (assembled values)))
          d.scoring.primitive (assembled values) (slot, v) ∧
        StandsAlone (contextOf scorer d.scoring (requestOf q key rules (assembled values)))
          d.scoring.primitive key (assembled values) slot := by
  constructor
  · rintro ⟨rules, score, hrules, hscore, hfull⟩
    obtain ⟨slots, v, hslots, hv⟩ := keyed_of_fullMarks hd hprim hscore hfull
    obtain ⟨hright, halone⟩ := (fullMarks_iff hd hprim hslots hv hscore).1 hfull
    exact ⟨rules, hrules, (returns_scoreItem _ _).1 ⟨score, hscore⟩, slots, v, hslots, hv, hright,
      halone⟩
  · rintro ⟨rules, hrules, hscorable, slots, v, hslots, hv, hright, halone⟩
    obtain ⟨score, hscore⟩ := (returns_scoreItem _ _).2 hscorable
    exact ⟨rules, score, hrules, hscore,
      (fullMarks_iff hd hprim hslots hv hscore).2 ⟨hright, halone⟩⟩

theorem inFull_iff (hd : scorer.registry.defs.get? (q.typeKey, q.typeVersion) = some d)
    {values : Obj} {slot : String} : InFull scorer g q d key values slot ↔
      ∃ rules, g.rules = .ok rules ∧ KeyReads scorer q d key values slot rules := by
  unfold InFull KeyReads
  by_cases hprim : d.scoring.primitive = .setSelection
  · simp only [if_pos hprim]
    exact selectionInFull_right hd hprim
  · simp only [if_neg hprim]
    exact scoresInFull_right hd hprim

theorem answerable_iff (hd : scorer.registry.defs.get? (q.typeKey, q.typeVersion) = some d) :
    Answerable validator scorer g q d key ↔ Accords validator scorer g q d key := by
  constructor
  · rintro ⟨controls, hview, hcount, htakes, hearned⟩
    obtain ⟨hslots, hemits⟩ := controls_of_view hview
    rw [hslots] at hcount
    have heach := each_once_iff.1 hcount
    refine ⟨isSome_questionView.1 (hview ▸ rfl), oneEach_iff.2 heach, ?_, ?_⟩
    · intro slot hslot v hv
      have hdrawn : slot ∈ controls.map Control.slot := by
        rw [hslots]
        exact (heach.2 slot).2 hslot
      obtain ⟨c, hc, rfl⟩ := List.mem_map.1 hdrawn
      exact (validate_iff hd).1 (htakes c hc v ((hemits c hc v).2 hv))
    · intro slot hslot
      obtain ⟨values, hentered, hsome, hfull⟩ := hearned slot hslot
      obtain ⟨rules, hrules, hreads⟩ := (inFull_iff hd).1 hfull
      refine ⟨values, rules, ?_, hsome, hrules, hreads⟩
      intro e he
      obtain ⟨c, hc, hce, hsent⟩ := hentered e he
      have hdrawn : e.1 ∈ drawnSlots q := by
        rw [← hslots, ← hce]
        exact List.mem_map_of_mem hc
      exact ⟨(heach.2 e.1).1 hdrawn, (hemits c hc e.2).1 hsent⟩
  · intro h
    obtain ⟨controls, hview⟩ := Option.isSome_iff_exists.1 (isSome_questionView.2 h.drawable)
    obtain ⟨hslots, hemits⟩ := controls_of_view hview
    have heach := oneEach_iff.1 h.oneEach
    have hdrawn : ∀ k ∈ q.slotKeys, ∃ c ∈ controls, c.slot = k := by
      intro k hk
      have hk := (heach.2 k).2 hk
      rw [← hslots] at hk
      exact List.mem_map.1 hk
    refine ⟨controls, hview, ?_, ?_, ?_⟩
    · rw [hslots]
      exact each_once_iff.2 heach
    · intro c hc v hv
      have hslot : c.slot ∈ q.slotKeys := by
        rw [← heach.2, ← hslots]
        exact List.mem_map_of_mem hc
      exact (validate_iff hd).2 (h.takes c.slot hslot v ((hemits c hc v).1 hv))
    · intro slot hslot
      obtain ⟨values, rules, hentered, hsome, hrules, hreads⟩ := h.earned slot hslot
      refine ⟨values, ?_, hsome, (inFull_iff hd).2 ⟨rules, hrules, hreads⟩⟩
      intro e he
      obtain ⟨hin, hsent⟩ := hentered e he
      obtain ⟨c, hc, hce⟩ := hdrawn e.1 hin
      exact ⟨c, hc, hce, (hemits c hc e.2).2 hsent⟩

end

/-- Every blank of a question of a passing paper can be answered exactly when the name of its type
and its definition agree about it. -/
theorem blanks_answerable_iff {validator : Validator} {scorer : Scorer} {c : TestComposition}
    (hpass : Passes validator scorer.registry c) {p : SectionNode × GroupNode × QuestionNode}
    (hp : p ∈ c.questions) :
    ∃ d key, scorer.registry.defs.get? (p.2.2.typeKey, p.2.2.typeVersion) = some d ∧
      p.2.2.key = some key ∧
      (Answerable validator scorer p.2.1 p.2.2 d key ↔
        Accords validator scorer p.2.1 p.2.2 d key) := by
  obtain ⟨d, key, hgate⟩ := hpass.question hp
  exact ⟨d, key, hgate.registered, hgate.keyed, answerable_iff hgate.registered⟩

theorem blanks_answerable_on_completion :
    ∃ d key, completionScorer.registry.defs.get? ("sentence_completion", 1) = some d ∧
      some completionKey = some key ∧
      (Answerable typeValidator completionScorer (completionGroup Dict.empty)
          (completionQuestion Dict.empty) d key ↔
        Accords typeValidator completionScorer (completionGroup Dict.empty)
          (completionQuestion Dict.empty) d key) :=
  @blanks_answerable_iff typeValidator completionScorer (completionPaper Dict.empty)
    ⟨_, rfl, by decide⟩ (completionSection Dict.empty, completionGroup Dict.empty,
      completionQuestion Dict.empty) List.mem_cons_self

/-! ## A question with two blanks and one text field -/

/-- `slots_from`: the slots a question is stored with. -/
def slotsFrom (payload : Obj) : Except Raised (List Json) :=
  let found := payload.values.flatMap (fun value => match value with
    | .str s => ContentPublishGate.markers s.toList
    | .arr entries => entries.flatMap (fun entry => match entry with
      | .obj ms => match (dictOf ms).get? "key" with
        | some key => [pyStr key]
        | none => []
      | .str s => ContentPublishGate.markers s.toList
      | _ => [])
    | _ => [])
  if found = [] then iter (getOr payload "slots" (.arr [.str "s1"]))
  else .ok ((sorted found.dedup).map .str)

def shortAnswerType : QuestionTypeDef :=
  { sampleType with
    skills := ["reading"]
    validation := .obj [("rules", .arr [.obj [("rule", .str "word_limit_present_on_group")]])] }

def shortAnswerScorer : Scorer where
  registry := ⟨Dict.empty.put ("short_answer", 1) shortAnswerType⟩
  lexicon := {}
  frames := 900

def riversKey : Obj :=
  Dict.ofList [("slots", .obj [("s1", .obj [("accept", .arr [.str "Cam"])]),
    ("s2", .obj [("accept", .arr [.str "Isis"])])])]

def riversQuestion : QuestionNode where
  xid := "q1"
  typeKey := "short_answer"
  typeVersion := 1
  payload := Dict.ofList [("question", .str "Which TWO rivers are named?"),
    ("slots", .arr [.str "s1", .str "s2"])]
  slotKeys := ["s1", "s2"]
  key := some riversKey

def riversGroup : GroupNode where
  xid := "g1"
  numberStart := 1
  questions := [riversQuestion]
  wordLimit := .obj [("max_words", .int 1)]

def riversSection : SectionNode where
  position := 1
  skill := "reading"
  title := "Passage 1"
  groups := [riversGroup]
  passage := some { xid := "p1", title := "Rivers" }
  timeLimitSeconds := some 1200

def riversPaper : TestComposition where
  xid := "t1"
  title := "Two blanks"
  sections := [riversSection]
  bandMap := some
    { xid := "b1", maxRaw := 2
      mapping := [.obj [("raw_min", .int 0), ("raw_max", .int 2), ("band", .int 5)]] }
  coherent := by
    intro p hp p' hp' _
    simp only [questionsOf, riversSection, riversGroup, List.flatMap_cons,
      List.flatMap_nil, List.append_nil, List.map_cons, List.map_nil, List.mem_singleton] at hp hp'
    rw [hp, hp']

/-- A short answer may have two slots and gets one text field: the second cannot be answered. -/
theorem second_blank_has_no_control :
    slotsFrom riversQuestion.payload = .ok [.str "s1", .str "s2"] ∧
      Passes typeValidator shortAnswerScorer.registry riversPaper ∧
      (riversSection, riversGroup, riversQuestion) ∈ riversPaper.questions ∧
      shortAnswerScorer.registry.defs.get? ("short_answer", 1) = some shortAnswerType ∧
      ¬ Answerable typeValidator shortAnswerScorer riversGroup riversQuestion shortAnswerType
        riversKey := by
  refine ⟨by decide, ⟨_, rfl, by decide⟩, List.mem_cons_self, rfl, ?_⟩
  rintro ⟨controls, hview, hcount, _⟩
  cases hview
  exact absurd (hcount "s2") (by decide)

end IeltsHub.EveryBlank
