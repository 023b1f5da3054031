import IeltsHub.ScoringMarks
import IeltsHub.TextWords

set_option autoImplicit false

/-!
# The marks of a selection

The same picks arrive as the answer to the whole question or as the slots the exam assembles, in
any order and any case. What they are awarded depends on the distinct options picked, and stays
within what the item is worth when the item does not count fewer options than its key holds.
-/
namespace IeltsHub.SelectionMarks
open PyExc PyText PyValue PyDict PlatformErrors QtypesSchemas QtypesPrimitives ScoringMarks
  TextWords

/-! ## Picks -/

/-- What the first answered slot holds: a list is the picks, anything else a single one. -/
inductive FirstAnswer : List Json → List Json → Prop
  | none : FirstAnswer [] []
  | skip {vs picks : List Json} : FirstAnswer vs picks → FirstAnswer (.null :: vs) picks
  | listed {picks vs : List Json} : FirstAnswer (.arr picks :: vs) picks
  | single {v : Json} {vs : List Json} (hnull : v ≠ .null) (hlist : ∀ es, v ≠ .arr es) :
      FirstAnswer (v :: vs) [v]

/-- A response in which the picks arrive, in the one shape or the other. -/
inductive Arrives (picks : List Json) : Json → Prop
  | selected {ms : List (String × Json)} (h : (dictOf ms).get? "selected" = some (.arr picks)) :
      Arrives picks (.obj ms)
  | assembled {ms slots : List (String × Json)} (hs : (dictOf ms).get? "selected" = none)
      (h : (dictOf ms).get? "slots" = some (.obj slots))
      (hfirst : FirstAnswer (dictOf slots).values picks) : Arrives picks (.obj ms)

/-- The same picks in another order, with repetitions, or in other letters' case. -/
inductive Rewritten : List Json → List Json → Prop
  | reordered {p q : List Json} : p.Perm q → Rewritten p q
  | repeated {p : List Json} {v : Json} : v ∈ p → Rewritten p (v :: p)
  | recased {a b : String} {p : List Json} :
      casefold a = casefold b → Rewritten (.str a :: p) (.str b :: p)
  | symm {p q : List Json} : Rewritten p q → Rewritten q p
  | trans {p q r : List Json} : Rewritten p q → Rewritten q r → Rewritten p r

def options (picks : List Json) : List String := foldedSet (picks.map pyStr)

def rightOptions (correct : List String) (picks : List Json) : List String :=
  (options picks).filter (fun s => (foldedSet correct).contains s)

def ScoresZero (spec : ScoringSpec) : Prop :=
  getD spec.options "over_selection" .null = .str "score_zero"

def marks (score : ItemScore) : ℚ × ℚ × Verdict × List (ℚ × ℚ × Verdict) :=
  (score.awarded, score.maxPoints, score.verdict,
    score.slots.map (fun s => (s.awarded, s.maxPoints, s.verdict)))

/-- What the marks of a selection are to be. -/
structure Sound (key : Obj) (ctx : ScoringContext) (picks : List Json) : Prop where
  shapes : ∀ r r', Arrives picks r → Arrives picks r' →
    setSelection r key ctx = setSelection r' key ctx
  rewriting : ∀ picks' r r', Rewritten picks picks' → Arrives picks r → Arrives picks' r' →
    marks <$> setSelection r key ctx = marks <$> setSelection r' key ctx
  bounds : ∀ r score, Arrives picks r → setSelection r key ctx = .ok score →
    0 ≤ score.awarded ∧ score.awarded ≤ score.maxPoints
  verdict : ∀ r score, Arrives picks r → setSelection r key ctx = .ok score →
    (score.verdict = .correct ↔ 0 < score.maxPoints ∧ score.awarded = score.maxPoints) ∧
      ∀ s ∈ score.slots,
        (s.verdict = .correct ↔ 0 < s.maxPoints ∧ s.awarded = s.maxPoints)
  overSelection : ∀ r score correct expected, Arrives picks r →
    setSelection r key ctx = .ok score → correctOf key = .ok correct →
    selectCount ctx.spec correct = .ok expected → ScoresZero ctx.spec →
    expected < (options picks).length → score.awarded = 0

/-- What is counted is worth something, and no more of it is picked than is counted, or picking
more scores zero. -/
def CountsItsKey (key : Obj) (ctx : ScoringContext) (picks : List Json) : Prop :=
  ∀ correct expected perCorrect, correctOf key = .ok correct →
    selectCount ctx.spec correct = .ok expected → pointsPerCorrect ctx.spec = .ok perCorrect →
    0 ≤ perCorrect * expected ∧
      (picks ≠ [] → 0 < perCorrect * expected ∧
        (ScoresZero ctx.spec ∨ rightOptions correct picks = [] ∨
          ((rightOptions correct picks).length : ℤ) ≤ expected))

/-! ## Reading the picks -/

theorem firstSelection_of_first {vs picks : List Json} (h : FirstAnswer vs picks) :
    firstSelection vs = picks.map pyStr := by
  induction h with
  | none => rfl
  | skip _ ih => exact ih
  | listed => rfl
  | @single v vs hnull hlist =>
    cases v with
    | null => exact absurd rfl hnull
    | arr es => exact absurd rfl (hlist es)
    | _ => rfl

theorem selection_of_arrives {picks : List Json} {response : Json} (h : Arrives picks response) :
    selection response = .ok (picks.map pyStr) := by
  cases h with
  | @selected ms h =>
    change (if ((dictOf ms).get? "selected").isSome then
      List.map pyStr <$> iter (getOr (dictOf ms) "selected" (.arr [])) else _) = _
    rw [h, Option.isSome_some, if_pos rfl]
    have hor : getOr (dictOf ms) "selected" (.arr []) = .arr picks := by
      unfold getOr getD
      rw [h]
      cases picks with
      | nil => rfl
      | cons v picks => rfl
    rw [hor]
    rfl
  | @assembled ms slots hs h hfirst =>
    have hslots : dictMethod (responseSlots (.obj ms)) =
        (.ok (dictOf slots) : Except Raised Obj) := by
      unfold responseSlots asDict
      rw [Option.bind_some, h]
      cases slots with
      | nil => rfl
      | cons m ms => rfl
    change (if ((dictOf ms).get? "selected").isSome then _ else
      (fun slots => firstSelection slots.values) <$> dictMethod (responseSlots (.obj ms))) = _
    rw [hs, if_neg (by simp), hslots, ← firstSelection_of_first hfirst]
    rfl

theorem setSelection_of_arrives {picks : List Json} {response : Json}
    (h : Arrives picks response) (key : Obj) (ctx : ScoringContext) :
    setSelection response key ctx = do
      let correct ← correctOf key
      let expected ← selectCount ctx.spec correct
      let perCorrect ← pointsPerCorrect ctx.spec
      return ⟨[gradeSelection ctx.spec correct expected perCorrect (picks.map pyStr)]⟩ := by
  unfold setSelection
  simp only [selection_of_arrives h]
  rfl

theorem arrives_selected (picks : List Json) :
    Arrives picks (.obj [("selected", .arr picks)]) := .selected rfl

/-! ## One set of options -/

theorem mem_options {picks : List Json} {x : String} :
    x ∈ options picks ↔ ∃ v ∈ picks, folded (pyStr v) = x := by
  simp [options, foldedSet]

theorem options_eq_nil {picks : List Json} : options picks = [] ↔ picks = [] := by
  simp [options, foldedSet]

theorem folded_recased {a b : String} (h : casefold a = casefold b) : folded a = folded b := by
  unfold folded
  rw [← strip_casefold, ← strip_casefold, h]

theorem mem_options_rewritten {p q : List Json} (h : Rewritten p q) (x : String) :
    x ∈ options p ↔ x ∈ options q := by
  induction h with
  | reordered h => simp only [mem_options, h.mem_iff]
  | repeated h =>
    rw [mem_options, mem_options]
    constructor
    · rintro ⟨v, hv, hx⟩
      exact ⟨v, List.mem_cons_of_mem _ hv, hx⟩
    · rintro ⟨v, hv, hx⟩
      rcases List.mem_cons.1 hv with rfl | hv
      · exact ⟨v, h, hx⟩
      · exact ⟨v, hv, hx⟩
  | recased h =>
    rw [mem_options, mem_options]
    simp only [List.mem_cons, exists_eq_or_imp, pyStr_str, folded_recased h]
  | symm _ ih => exact ih.symm
  | trans _ _ ihp ihq => exact ihp.trans ihq

theorem options_perm {p q : List Json} (h : Rewritten p q) : (options p).Perm (options q) := by
  unfold options foldedSet
  rw [List.perm_ext_iff_of_nodup (List.nodup_dedup _) (List.nodup_dedup _)]
  exact mem_options_rewritten h

theorem rightOptions_perm {p q : List Json} (h : Rewritten p q) (correct : List String) :
    (rightOptions correct p).Perm (rightOptions correct q) := (options_perm h).filter _

theorem rightOptions_length_le (correct : List String) (picks : List Json) :
    (rightOptions correct picks).length ≤ (options picks).length := List.length_filter_le _ _

/-! ## The graded selection -/

theorem within_worth {perCorrect : ℚ} {hits : ℕ} {expected : ℤ} :
    (0 ≤ perCorrect * hits ∧ perCorrect * hits ≤ perCorrect * expected ∧
        (perCorrect * hits = perCorrect * expected → 0 < perCorrect * expected)) ↔
      0 < perCorrect * expected ∧ (hits = 0 ∨ (hits : ℤ) ≤ expected) := by
  constructor
  · rintro ⟨hnonneg, hle, hfull⟩
    have hpos : 0 < perCorrect * (expected : ℚ) := by
      rcases hle.lt_or_eq with hlt | heq
      · linarith
      · exact hfull heq
    refine ⟨hpos, ?_⟩
    by_cases hzero : hits = 0
    · exact .inl hzero
    · right
      have hhits : (0 : ℚ) < hits := by exact_mod_cast Nat.pos_of_ne_zero hzero
      have hper : 0 ≤ perCorrect := nonneg_of_mul_nonneg_left hnonneg hhits
      have hper' : 0 < perCorrect := by
        rcases hper.lt_or_eq with hlt | heq
        · exact hlt
        · rw [← heq, zero_mul] at hpos
          exact absurd hpos (lt_irrefl 0)
      have hcast := le_of_mul_le_mul_left hle hper'
      exact_mod_cast hcast
  · rintro ⟨hpos, hzero | hle⟩
    · rw [hzero, Nat.cast_zero, mul_zero]
      exact ⟨le_refl 0, hpos.le, fun _ => hpos⟩
    · obtain ⟨hnonneg, hbound⟩ := mul_bounds hle hpos.le
      exact ⟨hnonneg, hbound, fun _ => hpos⟩

section
variable (spec : ScoringSpec) (correct : List String) (expected : ℤ) (perCorrect : ℚ)

/-- More options are picked than are counted, and that scores zero. -/
def OverSelected (picks : List Json) : Prop :=
  expected < (options picks).length ∧ ScoresZero spec

def graded (picks : List Json) : SlotScore :=
  gradeSelection spec correct expected perCorrect (picks.map pyStr)

variable (picks : List Json)

theorem graded_maxPoints :
    (graded spec correct expected perCorrect picks).maxPoints = perCorrect * expected :=
  gradeSelection_maxPoints spec correct expected perCorrect _

variable {spec correct expected perCorrect picks}

theorem graded_nothing (h : options picks = []) :
    (graded spec correct expected perCorrect picks).awarded = 0 ∧
      (graded spec correct expected perCorrect picks).verdict = .unanswered := by
  unfold graded gradeSelection
  dsimp only
  split
  · exact ⟨rfl, rfl⟩
  · rename_i hne
    exact absurd h hne

theorem graded_over (hne : options picks ≠ []) (h : OverSelected spec expected picks) :
    (graded spec correct expected perCorrect picks).awarded = 0 ∧
      (graded spec correct expected perCorrect picks).verdict = .incorrect := by
  unfold graded gradeSelection
  dsimp only
  split
  · rename_i hnil
    exact absurd hnil hne
  · split
    · exact ⟨rfl, rfl⟩
    · rename_i hover
      exact absurd h hover

theorem graded_counted (hne : options picks ≠ []) (h : ¬ OverSelected spec expected picks) :
    (graded spec correct expected perCorrect picks).awarded =
        perCorrect * (rightOptions correct picks).length ∧
      (graded spec correct expected perCorrect picks).verdict =
        if perCorrect * (rightOptions correct picks).length = perCorrect * expected then .correct
        else if perCorrect * ((rightOptions correct picks).length : ℚ) = 0 then .incorrect
        else .partly := by
  unfold graded gradeSelection
  dsimp only
  split
  · rename_i hnil
    exact absurd hnil hne
  · split
    · rename_i hover
      exact absurd hover h
    · exact ⟨rfl, rfl⟩

theorem graded_rewritten {picks' : List Json} (h : Rewritten picks picks') :
    (graded spec correct expected perCorrect picks).awarded =
        (graded spec correct expected perCorrect picks').awarded ∧
      (graded spec correct expected perCorrect picks).verdict =
        (graded spec correct expected perCorrect picks').verdict := by
  have hoptions := options_perm h
  have hright := (rightOptions_perm h correct).length_eq
  by_cases hnil : options picks = []
  · have hnil' : options picks' = [] := by
      rw [hnil] at hoptions
      exact hoptions.nil_eq.symm
    have hp := @graded_nothing spec correct expected perCorrect picks hnil
    have hp' := @graded_nothing spec correct expected perCorrect picks' hnil'
    rw [hp.1, hp.2, hp'.1, hp'.2]
    exact ⟨rfl, rfl⟩
  · have hne' : options picks' ≠ [] := by
      intro hnil'
      rw [hnil'] at hoptions
      exact hnil hoptions.eq_nil
    have hcount : OverSelected spec expected picks ↔ OverSelected spec expected picks' := by
      unfold OverSelected
      rw [hoptions.length_eq]
    by_cases hover : OverSelected spec expected picks
    · have hp := @graded_over spec correct expected perCorrect picks hnil hover
      have hp' := @graded_over spec correct expected perCorrect picks' hne' (hcount.1 hover)
      rw [hp.1, hp.2, hp'.1, hp'.2]
      exact ⟨rfl, rfl⟩
    · have hp := @graded_counted spec correct expected perCorrect picks hnil hover
      have hp' := @graded_counted spec correct expected perCorrect picks' hne'
        (fun h => hover (hcount.2 h))
      rw [hp.1, hp.2, hp'.1, hp'.2, hright]
      exact ⟨rfl, rfl⟩

/-- The marks of one slot within its worth, and the verdict, its own and the item's, right. -/
structure Fair (s : SlotScore) : Prop where
  nonneg : 0 ≤ s.awarded
  le_max : s.awarded ≤ s.maxPoints
  slot : s.verdict = .correct ↔ 0 < s.maxPoints ∧ s.awarded = s.maxPoints
  item : (ItemScore.mk [s]).verdict = .correct ↔ 0 < s.maxPoints ∧ s.awarded = s.maxPoints

theorem item_verdict (s : SlotScore) : (ItemScore.mk [s]).verdict = .correct ↔
    s.verdict ≠ .unanswered ∧ s.awarded = s.maxPoints := by
  unfold ItemScore.verdict
  by_cases hnone : s.verdict = .unanswered
  · simp [hnone]
  · by_cases hfull : s.awarded = s.maxPoints
    · simp [hnone, hfull]
    · simp only [List.isEmpty_cons, Bool.false_eq_true, if_false, List.all_cons, List.all_nil,
        Bool.and_true, decide_eq_true_eq, if_neg hnone, ItemScore.awarded_cons,
        ItemScore.awarded_nil, ItemScore.maxPoints_cons, ItemScore.maxPoints_nil, add_zero,
        if_neg hfull]
      split <;> simp [hfull]

theorem fair_nothing (h : options picks = []) :
    Fair (graded spec correct expected perCorrect picks) ↔ 0 ≤ perCorrect * expected := by
  obtain ⟨hawarded, hverdict⟩ := @graded_nothing spec correct expected perCorrect picks h
  have hmax := graded_maxPoints spec correct expected perCorrect picks
  constructor
  · intro hfair
    have hle := hfair.le_max
    rw [hawarded, hmax] at hle
    exact hle
  · intro hpos
    have hnot : ¬ (0 < perCorrect * (expected : ℚ) ∧ 0 = perCorrect * (expected : ℚ)) :=
      fun hboth => absurd hboth.2 hboth.1.ne
    constructor
    · rw [hawarded]
    · rw [hawarded, hmax]
      exact hpos
    · rw [hverdict, hawarded, hmax]
      simpa using hnot
    · rw [item_verdict, hverdict, hawarded, hmax]
      simpa using hnot

theorem fair_over (hne : options picks ≠ []) (h : OverSelected spec expected picks) :
    Fair (graded spec correct expected perCorrect picks) ↔ 0 < perCorrect * expected := by
  obtain ⟨hawarded, hverdict⟩ := @graded_over spec correct expected perCorrect picks hne h
  have hmax := graded_maxPoints spec correct expected perCorrect picks
  constructor
  · intro hfair
    have hle := hfair.le_max
    have hitem := hfair.item
    rw [item_verdict, hverdict, hawarded, hmax] at hitem
    rw [hawarded, hmax] at hle
    rcases hle.lt_or_eq with hpos | hzero
    · exact hpos
    · exact (hitem.1 ⟨by simp, hzero⟩).1
  · intro hpos
    have hnot : ¬ 0 = perCorrect * (expected : ℚ) := hpos.ne
    constructor
    · rw [hawarded]
    · rw [hawarded, hmax]
      exact hpos.le
    · rw [hverdict, hawarded, hmax]
      simp [hnot]
    · rw [item_verdict, hverdict, hawarded, hmax]
      simp [hnot]

theorem fair_counted (hne : options picks ≠ []) (h : ¬ OverSelected spec expected picks) :
    Fair (graded spec correct expected perCorrect picks) ↔ 0 < perCorrect * expected ∧
      (rightOptions correct picks = [] ∨
        ((rightOptions correct picks).length : ℤ) ≤ expected) := by
  obtain ⟨hawarded, hverdict⟩ := @graded_counted spec correct expected perCorrect picks hne h
  have hmax := graded_maxPoints spec correct expected perCorrect picks
  have hcorrect : (graded spec correct expected perCorrect picks).verdict = .correct ↔
      perCorrect * ((rightOptions correct picks).length : ℚ) = perCorrect * expected := by
    rw [hverdict]
    split
    · simp_all
    · rename_i hpart
      split <;> simp [hpart]
  have hanswered : (graded spec correct expected perCorrect picks).verdict ≠ .unanswered := by
    rw [hverdict]
    split
    · simp
    · split <;> simp
  rw [← List.length_eq_zero_iff, ← within_worth]
  constructor
  · rintro ⟨hnonneg, hle, hslot, -⟩
    rw [hcorrect, hawarded, hmax] at hslot
    rw [hawarded] at hnonneg hle
    rw [hmax] at hle
    exact ⟨hnonneg, hle, fun hfull => (hslot.1 hfull).1⟩
  · rintro ⟨hnonneg, hle, hfull⟩
    constructor
    · rw [hawarded]
      exact hnonneg
    · rw [hawarded, hmax]
      exact hle
    · rw [hcorrect, hawarded, hmax]
      exact ⟨fun h => ⟨hfull h, h⟩, And.right⟩
    · rw [item_verdict, hawarded, hmax]
      exact ⟨fun h => ⟨hfull h.2, h.2⟩, fun h => ⟨hanswered, h.2⟩⟩

/-- Marks and verdict are right exactly when what is counted is worth something and no more is
awarded than that. -/
theorem fair_graded : Fair (graded spec correct expected perCorrect picks) ↔
    0 ≤ perCorrect * expected ∧
      (picks ≠ [] → 0 < perCorrect * expected ∧
        (ScoresZero spec ∨ rightOptions correct picks = [] ∨
          ((rightOptions correct picks).length : ℤ) ≤ expected)) := by
  by_cases hnil : options picks = []
  · rw [fair_nothing hnil]
    have hpicks := options_eq_nil.1 hnil
    exact ⟨fun h => ⟨h, fun hne => absurd hpicks hne⟩, And.left⟩
  · have hpicks : picks ≠ [] := fun h => hnil (options_eq_nil.2 h)
    by_cases hover : OverSelected spec expected picks
    · rw [fair_over hnil hover]
      exact ⟨fun h => ⟨h.le, fun _ => ⟨h, .inl hover.2⟩⟩, fun h => (h.2 hpicks).1⟩
    · rw [fair_counted hnil hover]
      have hle := rightOptions_length_le correct picks
      constructor
      · rintro ⟨hpos, hright⟩
        exact ⟨hpos.le, fun _ => ⟨hpos, .inr hright⟩⟩
      · rintro ⟨-, h⟩
        obtain ⟨hpos, hzero | hright⟩ := h hpicks
        · have hcount : ¬ expected < (options picks).length := fun h => hover ⟨h, hzero⟩
          exact ⟨hpos, .inr (by omega)⟩
        · exact ⟨hpos, hright⟩

end

/-! ## Every key, every type, every response -/

theorem setSelection_eq_ok_iff {key : Obj} {ctx : ScoringContext} {picks : List Json}
    {response : Json} (h : Arrives picks response) {score : ItemScore} :
    setSelection response key ctx = .ok score ↔ ∃ correct expected perCorrect,
      correctOf key = .ok correct ∧ selectCount ctx.spec correct = .ok expected ∧
      pointsPerCorrect ctx.spec = .ok perCorrect ∧
      ⟨[graded ctx.spec correct expected perCorrect picks]⟩ = score := by
  rw [setSelection_of_arrives h]
  simp only [bind_eq_ok]
  constructor
  · rintro ⟨correct, hc, expected, he, perCorrect, hp, hscore⟩
    exact ⟨correct, expected, perCorrect, hc, he, hp, Except.ok.inj hscore⟩
  · rintro ⟨correct, expected, perCorrect, hc, he, hp, rfl⟩
    exact ⟨correct, hc, expected, he, perCorrect, hp, rfl⟩

theorem marks_graded {spec : ScoringSpec} {correct : List String} {expected : ℤ}
    {perCorrect : ℚ} {picks picks' : List Json} (h : Rewritten picks picks') :
    marks ⟨[graded spec correct expected perCorrect picks]⟩ =
      marks ⟨[graded spec correct expected perCorrect picks']⟩ := by
  obtain ⟨hawarded, hverdict⟩ := @graded_rewritten spec correct expected perCorrect picks picks' h
  have hmax : (graded spec correct expected perCorrect picks).maxPoints =
      (graded spec correct expected perCorrect picks').maxPoints := by
    rw [graded_maxPoints, graded_maxPoints]
  simp only [marks, ItemScore.verdict, ItemScore.awarded_cons, ItemScore.awarded_nil,
    ItemScore.maxPoints_cons, ItemScore.maxPoints_nil, List.map_cons, List.map_nil,
    List.all_cons, List.all_nil, List.isEmpty_cons, hawarded, hverdict, hmax]

theorem map_setSelection {key : Obj} {ctx : ScoringContext} {picks : List Json} {response : Json}
    (h : Arrives picks response) :
    marks <$> setSelection response key ctx = do
      let correct ← correctOf key
      let expected ← selectCount ctx.spec correct
      let perCorrect ← pointsPerCorrect ctx.spec
      return marks ⟨[graded ctx.spec correct expected perCorrect picks]⟩ := by
  rw [setSelection_of_arrives h]
  simp only [map_bind]
  rfl

theorem fair_of_sound {key : Obj} {ctx : ScoringContext} {picks : List Json}
    (h : Sound key ctx picks) {correct : List String} {expected : ℤ} {perCorrect : ℚ}
    (hc : correctOf key = .ok correct) (he : selectCount ctx.spec correct = .ok expected)
    (hp : pointsPerCorrect ctx.spec = .ok perCorrect) :
    Fair (graded ctx.spec correct expected perCorrect picks) := by
  have harrives := arrives_selected picks
  have hscore := (setSelection_eq_ok_iff harrives).2
    ⟨correct, expected, perCorrect, hc, he, hp, rfl⟩
  obtain ⟨hnonneg, hle⟩ := h.bounds _ _ harrives hscore
  obtain ⟨hitem, hslot⟩ := h.verdict _ _ harrives hscore
  rw [ItemScore.awarded_cons, ItemScore.awarded_nil, add_zero] at hnonneg hle hitem
  rw [ItemScore.maxPoints_cons, ItemScore.maxPoints_nil, add_zero] at hle hitem
  exact ⟨hnonneg, hle, hslot _ List.mem_cons_self, hitem⟩

def oneOfTwo : ScoringContext where
  payload := Dict.empty
  group := {}
  spec :=
    { primitive := .setSelection
      options := Dict.ofList [("select_count", .int 1), ("points_per_correct", .int 1)] }
  pipeline := ⟨[], {}, 0, List.nil_sublist _⟩
  tolerance := Dict.empty

end IeltsHub.SelectionMarks
