import IeltsHub.ScoringTotality

set_option autoImplicit false

/-!
# What a score is worth

The maximum of an item depends on its type and its key, never on the response; what is awarded
lies between nothing and that maximum. A slot is right or wrong by its verdict, and its marks
follow the verdict.
-/
namespace IeltsHub.ScoringMarks
open PyExc PyText PyValue PlatformErrors QtypesSchemas QtypesNormalizers QtypesWordlimit
  QtypesPrimitives ScoringTotality

/-! ## One slot -/

/-- The slot carries these points, and gives them exactly when its verdict is correct. -/
structure Graded (slotKey : String) (perSlot : ℚ) (s : SlotScore) : Prop where
  slotKey_eq : s.slotKey = slotKey
  maxPoints_eq : s.maxPoints = perSlot
  awarded_eq : s.awarded = if s.verdict = .correct then perSlot else 0

theorem graded_gradeChoice (spec : ScoringSpec) (options : List BankOption) (perSlot : ℚ)
    (slotKey : String) (raw : Option String) (accepted : List String) :
    Graded slotKey perSlot (gradeChoice spec options perSlot slotKey raw accepted) := by
  unfold gradeChoice
  dsimp only
  cases raw with
  | none => exact ⟨rfl, rfl, rfl⟩
  | some r =>
    dsimp only
    split
    · exact ⟨rfl, rfl, rfl⟩
    · split
      · exact ⟨rfl, rfl, rfl⟩
      · exact ⟨rfl, rfl, rfl⟩

theorem graded_gradeText {spec : ScoringSpec} {perSlot : ℚ} {slotKey : String} {t : TextSlot}
    {s : SlotScore} (h : gradeText spec perSlot slotKey t = .ok s) : Graded slotKey perSlot s := by
  unfold gradeText at h
  dsimp only at h
  cases hraw : t.raw with
  | none =>
    rw [hraw] at h
    cases h
    exact ⟨rfl, rfl, rfl⟩
  | some r =>
    rw [hraw] at h
    dsimp only at h
    split at h
    · cases h
      exact ⟨rfl, rfl, rfl⟩
    · obtain ⟨got, _, h⟩ := bind_eq_ok.1 h
      obtain ⟨wants, _, h⟩ := bind_eq_ok.1 h
      split at h
      · cases h
        exact ⟨rfl, rfl, rfl⟩
      · cases h
        exact ⟨rfl, rfl, rfl⟩

/-- An answer is right where it is an option, if the options are known, and an accepted one. -/
def ChoiceRight (options : List BankOption) (accepted : List String) (raw : Option String) :
    Prop :=
  ∃ r, raw = some r ∧
    (options = [] ∨ folded r ∈ options.map (fun o => casefold o.id)) ∧
    ∃ a ∈ accepted, folded a = folded r

theorem gradeChoice_correct {spec : ScoringSpec} {options : List BankOption} {perSlot : ℚ}
    {slotKey : String} {raw : Option String} {accepted : List String} :
    (gradeChoice spec options perSlot slotKey raw accepted).verdict = .correct ↔
      ChoiceRight options accepted raw := by
  unfold gradeChoice ChoiceRight
  dsimp only
  cases raw with
  | none => simp
  | some r =>
    simp only [Option.some.injEq, exists_eq_left']
    by_cases hv : (!(options.map (fun o => casefold o.id)).isEmpty &&
        !(options.map (fun o => casefold o.id)).contains (folded r)) = true
    · rw [if_pos hv]
      simp only [Bool.and_eq_true, Bool.not_eq_true', List.isEmpty_map, List.isEmpty_eq_false_iff,
        List.contains_eq_mem, decide_eq_false_iff_not] at hv
      simp [hv]
    · rw [if_neg hv]
      have hin : options = [] ∨ folded r ∈ options.map (fun o => casefold o.id) := by
        by_contra hno
        rw [not_or] at hno
        exact hv (by simp [hno.1, hno.2])
      simp only [hin, true_and]
      cases hf : accepted.find? (fun a => decide (folded a = folded r)) with
      | none =>
        have hall := List.find?_eq_none.1 hf
        simp only [reduceCtorEq, false_iff, not_exists, not_and]
        intro a ha
        simpa using hall a ha
      | some a =>
        simp only [true_iff]
        exact ⟨a, List.mem_of_find?_eq_some hf, by simpa using List.find?_some hf⟩

def SameReading (p : Pipeline) (v w : String) : Prop :=
  ∃ n m, p.run v = .ok n ∧ p.run w = .ok m ∧ n.value = m.value

/-- An answer is right where it is within the limit and reads like an accepted one. -/
def TextRight (spec : ScoringSpec) (t : TextSlot) : Prop :=
  ∃ r, t.raw = some r ∧ (applyLimit spec && violates r t.limit) = false ∧
    ∃ a ∈ t.accepted, SameReading t.pipeline r a

theorem mem_zip_of_forall₂ {α β : Type} {R : α → β → Prop} {as : List α} {bs : List β}
    (h : List.Forall₂ R as bs) {a : α} {b : β} (hm : (a, b) ∈ as.zip bs) : a ∈ as ∧ R a b := by
  induction h with
  | nil => simp at hm
  | cons hr _ ih =>
    rw [List.zip_cons_cons, List.mem_cons] at hm
    rcases hm with hm | hm
    · cases hm
      exact ⟨List.mem_cons_self, hr⟩
    · exact ⟨List.mem_cons_of_mem _ (ih hm).1, (ih hm).2⟩

theorem exists_zip_of_forall₂ {α β : Type} {R : α → β → Prop} {as : List α} {bs : List β}
    (h : List.Forall₂ R as bs) {a : α} (ha : a ∈ as) : ∃ b, (a, b) ∈ as.zip bs ∧ R a b := by
  induction h with
  | nil => simp at ha
  | @cons x y xs ys hr _ ih =>
    rcases List.mem_cons.1 ha with rfl | ha
    · exact ⟨y, by simp, hr⟩
    · obtain ⟨b, hb, hr'⟩ := ih ha
      exact ⟨b, by simp [hb], hr'⟩

theorem limited_eq {spec : ScoringSpec} {raw : String} (limit : Option WordLimit) :
    (applyLimit spec && limit.isSome && violates raw limit) =
      (applyLimit spec && violates raw limit) := by
  cases limit with
  | none => simp
  | some l => simp

theorem gradeText_correct {spec : ScoringSpec} {perSlot : ℚ} {slotKey : String} {t : TextSlot}
    {s : SlotScore} (h : gradeText spec perSlot slotKey t = .ok s) :
    s.verdict = .correct ↔ TextRight spec t := by
  unfold gradeText at h
  unfold TextRight
  dsimp only at h
  cases hraw : t.raw with
  | none =>
    rw [hraw] at h
    cases h
    simp
  | some r =>
    rw [hraw] at h
    simp only [Option.some.injEq, exists_eq_left', limited_eq] at h ⊢
    by_cases hv : (applyLimit spec && violates r t.limit) = true
    · rw [if_pos hv] at h
      cases h
      simp [hv]
    · rw [if_neg hv] at h
      rw [Bool.not_eq_true] at hv
      obtain ⟨got, hgot, h⟩ := bind_eq_ok.1 h
      obtain ⟨wants, hwants, h⟩ := bind_eq_ok.1 h
      have hall := mapM_eq_ok.1 hwants
      simp only [hv, true_and]
      cases hf : (t.accepted.zip wants).find? (fun p => decide (got.value = p.2.value)) with
      | none =>
        rw [hf] at h
        cases h
        have hnone := List.find?_eq_none.1 hf
        simp only [reduceCtorEq, false_iff, not_exists, not_and]
        rintro a ha ⟨n, m, hn, hm, hnm⟩
        obtain ⟨b, hb, hr⟩ := exists_zip_of_forall₂ hall ha
        have hgn : got = n := Except.ok.inj (hgot.symm.trans hn)
        have hbm : b = m := Except.ok.inj (hr.symm.trans hm)
        subst hgn hbm
        exact hnone (a, b) hb (by simpa using hnm)
      | some p =>
        rw [hf] at h
        cases h
        simp only [true_iff]
        obtain ⟨ha, hr⟩ := mem_zip_of_forall₂ hall (List.mem_of_find?_eq_some hf)
        exact ⟨p.1, ha, got, p.2, hgot, hr, by simpa using List.find?_some hf⟩

/-! ## Aggregation -/

def AllOrNothing (spec : ScoringSpec) : Prop :=
  getD spec.options "aggregate" (.str "per_slot") = .str "all_or_nothing"

instance (spec : ScoringSpec) : Decidable (AllOrNothing spec) :=
  inferInstanceAs (Decidable (_ = _))

theorem aggregate_of_not {spec : ScoringSpec} (h : ¬ AllOrNothing spec) (score : ItemScore) :
    aggregate score spec = score := if_neg h

def collapsed (total : ℚ) (allCorrect : Bool) (i : ℕ) (s : SlotScore) : SlotScore :=
  { s with
    awarded := if i = 0 ∧ allCorrect then total else 0
    maxPoints := if i = 0 then total else 0
    verdict := if allCorrect then .correct else s.verdict
    explain := s.explain.put "aggregate" (.str "all_or_nothing") }

def allCorrect (slots : List SlotScore) : Bool := slots.all (fun s => s.verdict = .correct)

theorem aggregate_of_all {spec : ScoringSpec} (h : AllOrNothing spec) (score : ItemScore) :
    aggregate score spec =
      ⟨score.slots.mapIdx (collapsed score.maxPoints (allCorrect score.slots))⟩ := if_pos h

theorem sum_mapIdx_first (f : SlotScore → ℚ) (g : ℕ → SlotScore → SlotScore) (total : ℚ)
    (h0 : ∀ s, f (g 0 s) = total) (hs : ∀ i s, f (g (i + 1) s) = 0) (slots : List SlotScore) :
    ((slots.mapIdx g).map f).sum = if slots = [] then 0 else total := by
  cases slots with
  | nil => rfl
  | cons s ss =>
    have hrest : ((ss.mapIdx (fun i => g (i + 1))).map f).sum = 0 := by
      apply List.sum_eq_zero
      intro x hx
      obtain ⟨y, hy, rfl⟩ := List.mem_map.1 hx
      obtain ⟨i, hi, rfl⟩ := List.mem_mapIdx.1 hy
      exact hs i _
    rw [List.mapIdx_cons, List.map_cons, List.sum_cons, h0, if_neg (List.cons_ne_nil s ss)]
    change total + ((ss.mapIdx (fun i => g (i + 1))).map f).sum = total
    rw [hrest, add_zero]

theorem aggregate_maxPoints (score : ItemScore) (spec : ScoringSpec) :
    (aggregate score spec).maxPoints = score.maxPoints := by
  by_cases h : AllOrNothing spec
  · rw [aggregate_of_all h]
    change ((score.slots.mapIdx _).map SlotScore.maxPoints).sum = score.maxPoints
    rw [sum_mapIdx_first SlotScore.maxPoints _ score.maxPoints (fun _ => rfl) (fun _ _ => rfl)]
    split
    · rename_i hnil
      simp [ItemScore.maxPoints, hnil]
    · rfl
  · rw [aggregate_of_not h]

theorem aggregate_awarded_bounds {score : ItemScore} (spec : ScoringSpec)
    (h : 0 ≤ score.awarded ∧ score.awarded ≤ score.maxPoints) :
    0 ≤ (aggregate score spec).awarded ∧
      (aggregate score spec).awarded ≤ (aggregate score spec).maxPoints := by
  rw [aggregate_maxPoints]
  by_cases ha : AllOrNothing spec
  · have hmax : 0 ≤ score.maxPoints := h.1.trans h.2
    rw [aggregate_of_all ha]
    change 0 ≤ ((score.slots.mapIdx _).map SlotScore.awarded).sum ∧
      ((score.slots.mapIdx _).map SlotScore.awarded).sum ≤ score.maxPoints
    rw [sum_mapIdx_first SlotScore.awarded _ (if allCorrect score.slots then score.maxPoints else 0)
      (fun s => by simp [collapsed]) (fun i s => by simp [collapsed])]
    split
    · exact ⟨le_refl 0, hmax⟩
    · split
      · exact ⟨hmax, le_refl _⟩
      · exact ⟨le_refl 0, hmax⟩
  · rw [aggregate_of_not ha]
    exact h

/-! ## One item with slots -/

def SlotRight (ctx : ScoringContext) (p : Primitive) (response : Json) (slot : String × Json) :
    Prop :=
  ∃ submitted spec accepted, asDict (responseSlots response) = some submitted ∧
    asDict slot.2 = some spec ∧ AcceptLegible spec accepted ∧
    match p with
    | .choicePerSlot => ∃ options, resolveOptions ctx = .ok options ∧
        ChoiceRight options accepted (asText (getD submitted slot.1 .null))
    | .textPerSlot => TextRight ctx.spec
        ⟨asText (getD submitted slot.1 .null), accepted, slotChain ctx spec, limitFor ctx spec⟩
    | .setSelection => False

theorem choiceSlot_eq_ok {ctx : ScoringContext} {options : List BankOption} {perSlot : ℚ}
    {response : Json} {slot : String × Json} {s : SlotScore}
    (ho : resolveOptions ctx = .ok options)
    (h : choiceSlot ctx options perSlot (responseSlots response) slot = .ok s) :
    Graded slot.1 perSlot s ∧
      (s.verdict = .correct ↔ SlotRight ctx .choicePerSlot response slot) := by
  unfold choiceSlot at h
  simp only [bind_eq_ok, submittedText_eq_ok, dictMethod_eq_ok, acceptedOf_eq_ok] at h
  obtain ⟨raw, ⟨sub, hsub, rfl⟩, spec, hspec, accepted, hacc, h⟩ := h
  cases h
  refine ⟨graded_gradeChoice _ _ _ _ _ _, ?_⟩
  rw [gradeChoice_correct]
  constructor
  · intro hr
    exact ⟨sub, spec, accepted, hsub, hspec, hacc, options, ho, hr⟩
  · rintro ⟨sub', spec', accepted', hsub', hspec', ⟨es, hes, rfl⟩, options', ho', hr⟩
    obtain ⟨es', hes', rfl⟩ := hacc
    have h1 : sub = sub' := Option.some.inj (hsub.symm.trans hsub')
    have h2 : spec = spec' := Option.some.inj (hspec.symm.trans hspec')
    have h3 : options = options' := Except.ok.inj (ho.symm.trans ho')
    subst h1 h2 h3
    have h4 : es' = es := Option.some.inj (hes'.symm.trans hes)
    subst h4
    exact hr

theorem textSlot_eq_ok {ctx : ScoringContext} {perSlot : ℚ} {response : Json}
    {slot : String × Json} {s : SlotScore}
    (h : textSlot ctx perSlot (responseSlots response) slot = .ok s) :
    Graded slot.1 perSlot s ∧
      (s.verdict = .correct ↔ SlotRight ctx .textPerSlot response slot) := by
  unfold textSlot at h
  simp only [bind_eq_ok, readTextSlot_eq_ok] at h
  obtain ⟨t, ⟨sub, spec, accepted, hsub, hspec, hacc, hn, hl, rfl⟩, h⟩ := h
  refine ⟨graded_gradeText h, ?_⟩
  rw [gradeText_correct h]
  constructor
  · intro hr
    exact ⟨sub, spec, accepted, hsub, hspec, hacc, hr⟩
  · rintro ⟨sub', spec', accepted', hsub', hspec', ⟨es, hes, rfl⟩, hr⟩
    obtain ⟨es', hes', rfl⟩ := hacc
    have h1 : sub = sub' := Option.some.inj (hsub.symm.trans hsub')
    have h2 : spec = spec' := Option.some.inj (hspec.symm.trans hspec')
    subst h1 h2
    have h3 : es' = es := Option.some.inj (hes'.symm.trans hes)
    subst h3
    exact hr

theorem slotted_eq_ok {ctx : ScoringContext} {p : Primitive} {response : Json} {key : Obj}
    {score : ItemScore} (hp : p ≠ .setSelection)
    (h : primitives p response key ctx = .ok score) :
    ∃ perSlot slots scores, pointsPerSlot ctx.spec = .ok perSlot ∧
      asDict (getOr key "slots" (.obj [])) = some slots ∧
      score = aggregate ⟨scores⟩ ctx.spec ∧
      List.Forall₂ (fun slot s => Graded slot.1 perSlot s ∧
        (s.verdict = .correct ↔ SlotRight ctx p response slot)) slots.entries scores := by
  cases p with
  | setSelection => exact absurd rfl hp
  | choicePerSlot =>
    change choicePerSlot response key ctx = .ok score at h
    unfold choicePerSlot at h
    simp only [bind_eq_ok, keySlots_eq_ok] at h
    obtain ⟨options, ho, perSlot, hps, entries, ⟨slots, hslots, rfl⟩, scores, hm, h⟩ := h
    cases h
    refine ⟨perSlot, slots, scores, hps, hslots, rfl, ?_⟩
    exact (mapM_eq_ok.1 hm).imp (fun _ _ hs => choiceSlot_eq_ok ho hs)
  | textPerSlot =>
    change textPerSlot response key ctx = .ok score at h
    unfold textPerSlot at h
    simp only [bind_eq_ok, keySlots_eq_ok] at h
    obtain ⟨perSlot, hps, entries, ⟨slots, hslots, rfl⟩, scores, hm, h⟩ := h
    cases h
    refine ⟨perSlot, slots, scores, hps, hslots, rfl, ?_⟩
    exact (mapM_eq_ok.1 hm).imp (fun _ _ hs => textSlot_eq_ok hs)

theorem setSelection_eq_ok {ctx : ScoringContext} {response : Json} {key : Obj}
    {score : ItemScore} (h : setSelection response key ctx = .ok score) :
    ∃ correct expected perCorrect selected, correctOf key = .ok correct ∧
      selectCount ctx.spec correct = .ok expected ∧ pointsPerCorrect ctx.spec = .ok perCorrect ∧
      selection response = .ok selected ∧
      score = ⟨[gradeSelection ctx.spec correct expected perCorrect selected]⟩ := by
  unfold setSelection at h
  simp only [bind_eq_ok] at h
  obtain ⟨correct, hc, expected, he, perCorrect, hp, selected, hs, h⟩ := h
  cases h
  exact ⟨correct, expected, perCorrect, selected, hc, he, hp, hs, rfl⟩

theorem maxPoints_of_graded {perSlot : ℚ} {R : String × Json → SlotScore → Prop}
    {entries : List (String × Json)} {scores : List SlotScore}
    (h : List.Forall₂ (fun slot s => Graded slot.1 perSlot s ∧ R slot s) entries scores) :
    (ItemScore.mk scores).maxPoints = perSlot * entries.length := by
  induction h with
  | nil => simp
  | cons hg _ ih =>
    rw [ItemScore.maxPoints_cons, ih, hg.1.maxPoints_eq, List.length_cons]
    push_cast
    ring

/-! ## One slot of a scored item -/

section
variable {spec : ScoringSpec} {perSlot : ℚ} {right : String × Json → Prop}
  {entries : List (String × Json)} {scores : List SlotScore}

def FullMarks (score : ItemScore) (slotKey : String) : Prop :=
  ∃ t ∈ score.slots, t.slotKey = slotKey ∧ t.verdict = .correct ∧ t.awarded = t.maxPoints

theorem allCorrect_iff
    (h : List.Forall₂ (fun slot s => Graded slot.1 perSlot s ∧ (s.verdict = .correct ↔ right slot))
      entries scores) : allCorrect scores = true ↔ ∀ slot ∈ entries, right slot := by
  unfold allCorrect
  induction h with
  | nil => simp
  | cons hg _ ih =>
    rw [List.all_cons, Bool.and_eq_true, List.forall_mem_cons, ih, decide_eq_true_iff, hg.2]

theorem exists_slot_of_score
    (h : List.Forall₂ (fun slot s => Graded slot.1 perSlot s ∧ (s.verdict = .correct ↔ right slot))
      entries scores) {t : SlotScore} (ht : t ∈ scores) :
    ∃ slot ∈ entries, Graded slot.1 perSlot t ∧ (t.verdict = .correct ↔ right slot) := by
  induction h with
  | nil => cases ht
  | @cons e u es us hg _ ih =>
    rcases List.mem_cons.1 ht with rfl | ht
    · exact ⟨e, List.mem_cons_self, hg⟩
    · obtain ⟨slot, hs, hr⟩ := ih ht
      exact ⟨slot, List.mem_cons_of_mem e hs, hr⟩

theorem exists_correct_iff
    (h : List.Forall₂ (fun slot s => Graded slot.1 perSlot s ∧ (s.verdict = .correct ↔ right slot))
      entries scores) (hn : (entries.map Prod.fst).Nodup) {slot : String × Json}
    (hs : slot ∈ entries) :
    (∃ t ∈ scores, t.slotKey = slot.1 ∧ t.verdict = .correct) ↔ right slot := by
  constructor
  · rintro ⟨t, ht, hk, hv⟩
    obtain ⟨e, he, hg, hr⟩ := exists_slot_of_score h ht
    have hsame : e = slot :=
      List.inj_on_of_nodup_map hn he hs (hg.slotKey_eq.symm.trans hk)
    rw [← hsame]
    exact hr.1 hv
  · intro hr
    obtain ⟨t, ht, hg, hv⟩ := exists_zip_of_forall₂ h hs
    exact ⟨t, (List.of_mem_zip ht).2, hg.slotKey_eq, hv.2 hr⟩

theorem fullMarks_per_slot (hnot : ¬ AllOrNothing spec)
    (h : List.Forall₂ (fun slot s => Graded slot.1 perSlot s ∧ (s.verdict = .correct ↔ right slot))
      entries scores) (hn : (entries.map Prod.fst).Nodup) {slot : String × Json}
    (hs : slot ∈ entries) : FullMarks (aggregate ⟨scores⟩ spec) slot.1 ↔ right slot := by
  rw [aggregate_of_not hnot, ← exists_correct_iff h hn hs]
  unfold FullMarks
  constructor
  · rintro ⟨t, ht, hk, hv, _⟩
    exact ⟨t, ht, hk, hv⟩
  · rintro ⟨t, ht, hk, hv⟩
    obtain ⟨e, _, hg, _⟩ := exists_slot_of_score h ht
    exact ⟨t, ht, hk, hv, by rw [hg.awarded_eq, hg.maxPoints_eq, if_pos hv]⟩

theorem fullMarks_collapsed (hall : AllOrNothing spec)
    (h : List.Forall₂ (fun slot s => Graded slot.1 perSlot s ∧ (s.verdict = .correct ↔ right slot))
      entries scores) (hn : (entries.map Prod.fst).Nodup) {slot : String × Json}
    (hs : slot ∈ entries) :
    FullMarks (aggregate ⟨scores⟩ spec) slot.1 ↔
      right slot ∧ (entries.head?.map Prod.fst ≠ some slot.1 ∨ perSlot = 0 ∨
        ∀ e ∈ entries, right e) := by
  have hac := allCorrect_iff h
  have hmax : (ItemScore.mk scores).maxPoints = perSlot * entries.length := maxPoints_of_graded h
  rw [aggregate_of_all hall, hmax]
  unfold FullMarks
  dsimp only
  cases h with
  | nil => cases hs
  | @cons e t es ts hg hrest =>
    obtain ⟨he, hn'⟩ := List.nodup_cons.1 (by simpa using hn : (e.1 :: es.map Prod.fst).Nodup)
    have htotal : perSlot * ((e :: es).length : ℚ) = 0 ↔ perSlot = 0 := by
      have hlen : ((e :: es).length : ℚ) ≠ 0 := Nat.cast_ne_zero.2 (by simp)
      rw [mul_eq_zero, or_iff_left hlen]
    generalize perSlot * ((e :: es).length : ℚ) = total at htotal ⊢
    generalize allCorrect (t :: ts) = ac at hac ⊢
    rw [List.mapIdx_cons]
    simp only [List.head?_cons, Option.map_some, ne_eq, Option.some.injEq]
    rcases List.mem_cons.1 hs with rfl | hs
    · have hfirst : (∃ u ∈ collapsed total ac 0 t :: ts.mapIdx (fun i => collapsed total ac (i + 1)),
          u.slotKey = slot.1 ∧ u.verdict = .correct ∧ u.awarded = u.maxPoints) ↔
          (collapsed total ac 0 t).verdict = .correct ∧
            (collapsed total ac 0 t).awarded = (collapsed total ac 0 t).maxPoints := by
        constructor
        · rintro ⟨u, hu, hk, hv⟩
          rcases List.mem_cons.1 hu with rfl | hu
          · exact hv
          · obtain ⟨i, hi, rfl⟩ := List.mem_mapIdx.1 hu
            obtain ⟨e', he', hg', _⟩ := exists_slot_of_score hrest (List.getElem_mem hi)
            have hk' : e'.1 = slot.1 := hg'.slotKey_eq.symm.trans hk
            rw [← hk'] at he
            exact absurd (List.mem_map_of_mem he') he
        · intro hv
          exact ⟨_, List.mem_cons_self, hg.1.slotKey_eq, hv⟩
      rw [hfirst]
      cases ac with
      | true =>
        have hright := hac.1 rfl
        simp [collapsed, hright slot List.mem_cons_self]
        exact .inr (fun a b hab => hright (a, b) (List.mem_cons_of_mem _ hab))
      | false =>
        have hnot : ¬ ∀ e ∈ slot :: es, right e := fun hr => by cases hac.2 hr
        simp only [collapsed, hg.2, eq_comm (a := (0 : ℚ)), htotal, not_true_eq_false, false_or,
          hnot, or_false, if_true, Bool.false_eq_true, and_false, if_false]
    · have hne : ¬ e.1 = slot.1 := fun hk => he (hk ▸ List.mem_map_of_mem hs)
      have hlater : (∃ u ∈ collapsed total ac 0 t :: ts.mapIdx (fun i => collapsed total ac (i + 1)),
          u.slotKey = slot.1 ∧ u.verdict = .correct ∧ u.awarded = u.maxPoints) ↔
          ∃ u ∈ ts, u.slotKey = slot.1 ∧ (ac = true ∨ u.verdict = .correct) := by
        constructor
        · rintro ⟨u, hu, hk, hv, _⟩
          rcases List.mem_cons.1 hu with rfl | hu
          · exact absurd (hg.1.slotKey_eq.symm.trans hk) hne
          · obtain ⟨i, hi, rfl⟩ := List.mem_mapIdx.1 hu
            refine ⟨ts[i], List.getElem_mem hi, hk, ?_⟩
            cases ac with
            | true => exact .inl rfl
            | false => exact .inr hv
        · rintro ⟨u, hu, hk, hv⟩
          obtain ⟨i, hi, rfl⟩ := List.mem_iff_getElem.1 hu
          refine ⟨collapsed total ac (i + 1) ts[i],
            List.mem_cons_of_mem _ (List.mem_mapIdx.2 ⟨i, hi, rfl⟩), hk, ?_, ?_⟩
          · cases ac with
            | true => rfl
            | false => simpa [collapsed] using hv
          · simp [collapsed]
      rw [hlater]
      simp only [hne, not_false_eq_true, true_or, and_true]
      rw [← exists_correct_iff hrest hn' hs]
      constructor
      · rintro ⟨u, hu, hk, hv⟩
        rcases hv with hac' | hv
        · have hr := hac.1 hac' slot (List.mem_cons_of_mem e hs)
          exact (exists_correct_iff hrest hn' hs).2 hr
        · exact ⟨u, hu, hk, hv⟩
      · rintro ⟨u, hu, hk, hv⟩
        exact ⟨u, hu, hk, .inr hv⟩

end

/-! ## The worth of an item -/

def worth (spec : ScoringSpec) (key : Obj) : Except Raised ℚ :=
  match spec.primitive with
  | .setSelection => do
    let correct ← correctOf key
    let expected ← selectCount spec correct
    let perCorrect ← pointsPerCorrect spec
    return perCorrect * expected
  | _ => do
    let perSlot ← pointsPerSlot spec
    let slots ← keySlots key
    return perSlot * slots.length

theorem gradeSelection_maxPoints (spec : ScoringSpec) (correct : List String) (expected : ℤ)
    (perCorrect : ℚ) (selected : List String) :
    (gradeSelection spec correct expected perCorrect selected).maxPoints =
      perCorrect * expected := by
  unfold gradeSelection
  dsimp only
  split
  · rfl
  · split <;> rfl

theorem awarded_of_graded {perSlot : ℚ} (hpos : 0 ≤ perSlot) {R : String × Json → SlotScore → Prop}
    {entries : List (String × Json)} {scores : List SlotScore}
    (h : List.Forall₂ (fun slot s => Graded slot.1 perSlot s ∧ R slot s) entries scores) :
    0 ≤ (ItemScore.mk scores).awarded ∧
      (ItemScore.mk scores).awarded ≤ (ItemScore.mk scores).maxPoints := by
  induction h with
  | nil => simp
  | cons hg _ ih =>
    rw [ItemScore.awarded_cons, ItemScore.maxPoints_cons, hg.1.maxPoints_eq, hg.1.awarded_eq]
    split
    · constructor
      · linarith
      · linarith
    · constructor
      · linarith
      · linarith

theorem worth_of_score {ctx : ScoringContext} {response : Json} {key : Obj} {score : ItemScore}
    (h : primitives ctx.spec.primitive response key ctx = .ok score) :
    worth ctx.spec key = .ok score.maxPoints := by
  unfold worth
  by_cases hp : ctx.spec.primitive = .setSelection
  · rw [hp] at h
    obtain ⟨correct, expected, perCorrect, selected, hc, he, hpc, _, rfl⟩ := setSelection_eq_ok h
    simp only [hp, bind_eq_ok]
    refine ⟨correct, hc, expected, he, perCorrect, hpc, ?_⟩
    rw [ItemScore.maxPoints_cons, gradeSelection_maxPoints, ItemScore.maxPoints_nil, add_zero]
    rfl
  · obtain ⟨perSlot, slots, scores, hps, hslots, rfl, hall⟩ := slotted_eq_ok hp h
    have hmax := maxPoints_of_graded hall
    have hw : (do
        let perSlot ← pointsPerSlot ctx.spec
        let entries ← keySlots key
        return perSlot * entries.length : Except Raised ℚ) = .ok (perSlot * slots.entries.length) :=
      bind_eq_ok.2 ⟨perSlot, hps, bind_eq_ok.2 ⟨_, keySlots_eq_ok.2 ⟨slots, hslots, rfl⟩, rfl⟩⟩
    rw [aggregate_maxPoints, hmax, ← hw]
    cases hprim : ctx.spec.primitive with
    | setSelection => exact absurd hprim hp
    | choicePerSlot => rfl
    | textPerSlot => rfl

/-! ## What is awarded -/

/-- A selection never pays more than it is worth: over-selection scores zero, or the key has no
more distinct ids than are counted. -/
def NeverOverpays (spec : ScoringSpec) (key : Obj) : Prop :=
  spec.primitive = .setSelection → getD spec.options "over_selection" .null = .str "score_zero" ∨
    ∃ correct expected, correctOf key = .ok correct ∧ selectCount spec correct = .ok expected ∧
      ((foldedSet correct).length : ℤ) ≤ expected

theorem mul_bounds {perCorrect : ℚ} {hits : ℕ} {expected : ℤ} (hle : (hits : ℤ) ≤ expected)
    (hpos : 0 ≤ perCorrect * expected) :
    0 ≤ perCorrect * hits ∧ perCorrect * hits ≤ perCorrect * expected := by
  have hq : (hits : ℚ) ≤ (expected : ℚ) := by exact_mod_cast hle
  by_cases hz : expected = 0
  · have hh : hits = 0 := by omega
    simp [hz, hh]
  · have hexp : (0 : ℚ) < expected := by
      have : 0 < expected := by omega
      exact_mod_cast this
    have hper : 0 ≤ perCorrect := nonneg_of_mul_nonneg_left hpos hexp
    exact ⟨mul_nonneg hper (Nat.cast_nonneg hits), mul_le_mul_of_nonneg_left hq hper⟩

theorem gradeSelection_bounds {spec : ScoringSpec} {correct selected : List String} {expected : ℤ}
    {perCorrect : ℚ} (hpos : 0 ≤ perCorrect * expected)
    (hpay : getD spec.options "over_selection" .null = .str "score_zero" ∨
      ((foldedSet correct).length : ℤ) ≤ expected) :
    0 ≤ (gradeSelection spec correct expected perCorrect selected).awarded ∧
      (gradeSelection spec correct expected perCorrect selected).awarded ≤
        perCorrect * expected := by
  unfold gradeSelection
  dsimp only
  split
  · exact ⟨le_refl 0, hpos⟩
  · split
    · exact ⟨le_refl 0, hpos⟩
    · rename_i hover
      apply mul_bounds _ hpos
      have hnodup : ((foldedSet selected).filter
          (fun x => (foldedSet correct).contains x)).Nodup := (List.nodup_dedup _).filter _
      have hsub : (foldedSet selected).filter (fun x => (foldedSet correct).contains x) ⊆
          foldedSet correct := by
        intro x hx
        simpa using (List.mem_filter.1 hx).2
      have hcorrect := (hnodup.subperm hsub).length_le
      have hselected := List.length_filter_le (fun x => (foldedSet correct).contains x)
        (foldedSet selected)
      rcases hpay with hzero | hle
      · have hnot : ¬ expected < ((foldedSet selected).length : ℤ) := fun h => hover ⟨h, hzero⟩
        omega
      · omega

theorem awarded_bounds {ctx : ScoringContext} {response : Json} {key : Obj} {score : ItemScore}
    (h : primitives ctx.spec.primitive response key ctx = .ok score)
    (hpos : 0 ≤ score.maxPoints) (hpay : NeverOverpays ctx.spec key) :
    0 ≤ score.awarded ∧ score.awarded ≤ score.maxPoints := by
  by_cases hp : ctx.spec.primitive = .setSelection
  · have hpay := hpay hp
    rw [hp] at h
    obtain ⟨correct, expected, perCorrect, selected, hc, he, _, _, rfl⟩ := setSelection_eq_ok h
    rw [ItemScore.maxPoints_cons, ItemScore.awarded_cons, gradeSelection_maxPoints,
      ItemScore.maxPoints_nil, ItemScore.awarded_nil, add_zero, add_zero] at *
    apply gradeSelection_bounds hpos
    rcases hpay with hzero | ⟨correct', expected', hc', he', hle⟩
    · exact .inl hzero
    · have h1 : correct' = correct := Except.ok.inj (hc'.symm.trans hc)
      subst h1
      have h2 : expected' = expected := Except.ok.inj (he'.symm.trans he)
      subst h2
      exact .inr hle
  · obtain ⟨perSlot, slots, scores, _, _, rfl, hall⟩ := slotted_eq_ok hp h
    apply aggregate_awarded_bounds
    rw [aggregate_maxPoints, maxPoints_of_graded hall] at hpos
    cases hn : slots.entries with
    | nil =>
      rw [hn] at hall
      cases hall
      simp
    | cons e es =>
      have hlen : (0 : ℚ) < slots.entries.length := by
        rw [hn]
        exact_mod_cast Nat.succ_pos es.length
      exact awarded_of_graded (nonneg_of_mul_nonneg_left hpos hlen) hall

end IeltsHub.ScoringMarks
