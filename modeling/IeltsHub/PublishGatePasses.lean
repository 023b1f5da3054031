import IeltsHub.ContentPublishGate
import IeltsHub.ScoringMarks

set_option autoImplicit false

/-!
# What a passing gate has checked

The report of a run is the concatenation of the reports of its checks, so a run without an error
is a run in which no check found one. The lemmas read off the checks later results rest on.
-/
namespace IeltsHub.PublishGatePasses
open PyExc PyText PyValue PyDict PlatformFindings QtypesSchemas QtypesWordlimit QtypesPrimitives
  QtypesRegistry ContentComposition ContentPublishGate ScoringTotality

def Passes (validator : Validator) (registry : Registry) (c : TestComposition) : Prop :=
  ∃ report, run validator c registry = .ok report ∧ report.passed = true

section
variable {validator : Validator} {registry : Registry} {c : TestComposition}

theorem exists_zipIdx {α : Type} {l : List α} {a : α} (h : a ∈ l) : ∃ i, (a, i) ∈ l.zipIdx := by
  obtain ⟨i, hi, rfl⟩ := List.mem_iff_getElem.1 h
  exact ⟨i, by simp [List.mem_zipIdx_iff_getElem?, hi]⟩

/-- A question of a passing composition has a registered type and a key the checks accept. -/
structure QuestionPasses (validator : Validator) (registry : Registry) (s : SectionNode)
    (g : GroupNode) (q : QuestionNode) (d : QuestionTypeDef) (key : Obj) : Prop where
  registered : registry.defs.get? (q.typeKey, q.typeVersion) = some d
  keyed : q.key = some key
  checked : ∃ path r, checkKey q g s d path = .ok r ∧ r.passed = true

theorem questionPasses_of_check {s : SectionNode} {g : GroupNode} {q : QuestionNode}
    {path : String} {r : Report} (h : checkQuestion validator registry s g q path = .ok r)
    (hr : r.passed = true) : ∃ d key, QuestionPasses validator registry s g q d key := by
  unfold checkQuestion at h
  cases hd : registry.defs.get? (q.typeKey, q.typeVersion) with
  | none =>
    rw [hd] at h
    cases h
    simp [passed_iff] at hr
  | some d =>
    rw [hd] at h
    dsimp only at h
    cases hk : q.key with
    | none =>
      rw [hk] at h
      cases h
      exact absurd rfl (passed_iff.1 hr _ (List.mem_append_right _ (List.mem_singleton_self _)))
    | some key =>
      rw [hk] at h
      obtain ⟨checks, hchecks, h⟩ := bind_eq_ok.1 h
      obtain ⟨diagram, hdiagram, h⟩ := bind_eq_ok.1 h
      cases h
      rw [passed_append, passed_append] at hr
      exact ⟨d, key, hd, hk, path, checks, hchecks, hr.1.2⟩

theorem mem_questions {p : SectionNode × GroupNode × QuestionNode} (h : p ∈ c.questions) :
    p.1 ∈ c.sections ∧ p.2.1 ∈ p.1.groups ∧ p.2.2 ∈ p.2.1.questions := by
  obtain ⟨s, hs, h⟩ := List.mem_flatMap.1 h
  obtain ⟨g, hg, h⟩ := List.mem_flatMap.1 h
  obtain ⟨q, hq, rfl⟩ := List.mem_map.1 h
  exact ⟨hs, hg, hq⟩

theorem Passes.sections (h : Passes validator registry c) {s : SectionNode} (hs : s ∈ c.sections) :
    ∃ r, checkSection validator registry s = .ok r ∧ r.passed = true := by
  obtain ⟨report, hrun, hpass⟩ := h
  obtain ⟨bandMap, _, hrun⟩ := bind_eq_ok.1 hrun
  obtain ⟨sections, hsections, hrun⟩ := bind_eq_ok.1 hrun
  cases hrun
  rw [passed_append, passed_append, passed_flatten] at hpass
  obtain ⟨r, hr, hcheck⟩ := exists_of_mapM hsections hs
  exact ⟨r, hcheck, hpass.1.2 r hr⟩

theorem Passes.question (h : Passes validator registry c)
    {p : SectionNode × GroupNode × QuestionNode} (hp : p ∈ c.questions) :
    ∃ d key, QuestionPasses validator registry p.1 p.2.1 p.2.2 d key := by
  obtain ⟨hs, hg, hq⟩ := mem_questions hp
  obtain ⟨r, hsection, hr⟩ := h.sections hs
  unfold checkSection at hsection
  obtain ⟨groups, hgroups, hsection⟩ := bind_eq_ok.1 hsection
  cases hsection
  rw [passed_append, passed_append, passed_flatten] at hr
  obtain ⟨i, hi⟩ := exists_zipIdx hg
  obtain ⟨rg, hrg, hgroup⟩ := exists_of_mapM hgroups hi
  have hrg := hr.1.2 rg hrg
  unfold checkGroup at hgroup
  have hne : p.2.1.questions.isEmpty = false := by
    rw [List.isEmpty_eq_false_iff]
    exact List.ne_nil_of_mem hq
  rw [hne, if_neg (by decide)] at hgroup
  obtain ⟨questions, hquestions, hflat⟩ := map_eq_ok.1 hgroup
  subst hflat
  rw [passed_flatten] at hrg
  obtain ⟨j, hj⟩ := exists_zipIdx hq
  obtain ⟨rq, hrq, hquestion⟩ := exists_of_mapM hquestions hj
  exact questionPasses_of_check hquestion (hrg rq hrq)

end

/-! ## The checks of a key with slots -/

section
variable {s : SectionNode} {g : GroupNode} {q : QuestionNode} {d : QuestionTypeDef}

theorem optionIds_of_optionsOf {listed : List Json} {bank : List BankOption} {valid : List String}
    (hb : listed.mapM optionOf = .ok bank) (hv : optionIds listed = .ok valid) :
    valid = bank.map (fun o => casefold o.id) := by
  unfold optionIds at hv
  induction listed generalizing bank valid with
  | nil =>
    cases hb
    cases hv
    rfl
  | cons o os ih =>
    obtain ⟨b, bs, hob, hbs, rfl⟩ := mapM_cons_eq_ok.1 hb
    obtain ⟨v, vs, hov, hvs, rfl⟩ := mapM_cons_eq_ok.1 hv
    rw [List.map_cons, ih hbs hvs]
    unfold optionOf at hob
    obtain ⟨id, hid, hob⟩ := bind_eq_ok.1 hob
    obtain ⟨od, _, hob⟩ := bind_eq_ok.1 hob
    cases hob
    obtain ⟨id', hid', rfl⟩ := map_eq_ok.1 hov
    rw [hid] at hid'
    cases hid'
    rfl

theorem accepted_in_options {path : String} {valid : List String} {r : Report}
    (h : unknownOptionFindings q valid path = .ok r) (hr : r.passed = true) (hv : valid ≠ [])
    {entries : List (String × Json)} (he : slotEntries q = .ok entries) {slot : String × Json}
    (hs : slot ∈ entries) {accepted : List Json} (ha : acceptedValues slot.2 = .ok accepted)
    {a : Json} (hm : a ∈ accepted) : casefold (pyStr a) ∈ valid := by
  unfold unknownOptionFindings at h
  rw [if_neg (by simpa using hv)] at h
  obtain ⟨entries', he', h⟩ := bind_eq_ok.1 h
  rw [he] at he'
  cases he'
  obtain ⟨rs, hrs, h⟩ := bind_eq_ok.1 h
  cases h
  rw [passed_flatten] at hr
  obtain ⟨rslot, hrslot, hslot⟩ := exists_of_mapM hrs hs
  have hpass := hr rslot hrslot
  unfold unknownOptions at hslot
  obtain ⟨accepted', ha', rfl⟩ := map_eq_ok.1 hslot
  rw [ha] at ha'
  cases ha'
  rw [passed_flatten] at hpass
  have hfind := (passed_findIf (by rfl)).1 (hpass _ (List.mem_map_of_mem hm))
  simpa using hfind

theorem accepted_within_limit {path : String} {r : Report}
    (h : checkWordLimits q g d path = .ok r) (hr : r.passed = true) {rule : WordLimit}
    (hg : WordLimit.fromDict g.wordLimit = .ok (some rule)) {entries : List (String × Json)}
    (he : slotEntries q = .ok entries) {slot : String × Json} (hs : slot ∈ entries)
    {spec : Obj} (hspec : asDict slot.2 = some spec) {accepted : List Json}
    (ha : acceptedValues slot.2 = .ok accepted) {a : Json} (hm : a ∈ accepted) :
    violates (pyStr a) (some ((limitOf (getD spec "word_limit" .null)).getD rule)) = false := by
  unfold checkWordLimits at h
  obtain ⟨limit, hlimit, h⟩ := bind_eq_ok.1 h
  rw [hg] at hlimit
  cases hlimit
  obtain ⟨entries', he', h⟩ := bind_eq_ok.1 h
  rw [he] at he'
  cases he'
  obtain ⟨rs, hrs, h⟩ := bind_eq_ok.1 h
  cases h
  rw [passed_flatten] at hr
  obtain ⟨rslot, hrslot, hslot⟩ := exists_of_mapM hrs hs
  have hpass := hr rslot hrslot
  unfold overLimitFindings at hslot
  simp only [bind_eq_ok, dictMethod_eq_ok, fromDict_eq_ok] at hslot
  obtain ⟨spec', hspec', own, ⟨_, rfl⟩, accepted', ha', hslot⟩ := hslot
  rw [hspec] at hspec'
  cases hspec'
  rw [ha] at ha'
  cases ha'
  cases hslot
  rw [passed_flatten] at hpass
  exact (passed_findIf (by rfl)).1 (hpass _ (List.mem_map_of_mem hm))

theorem selection_distinct {path : String} {r : Report}
    (h : checkSetSelectionKey q path = .ok r) (hr : r.passed = true) {correct : List String}
    (hc : correctOf (q.key.getD Dict.empty) = .ok correct) :
    correct ≠ [] ∧ (correct.map casefold).Nodup := by
  unfold checkSetSelectionKey at h
  obtain ⟨listed, hlisted, h⟩ := bind_eq_ok.1 h
  have hsame : listed.map pyStr = correct := by
    unfold correctOf at hc
    obtain ⟨listed', hlisted', rfl⟩ := map_eq_ok.1 hc
    have helems := elements?_getOr (iter_eq_ok.1 hlisted)
    rw [iter_eq_ok, helems] at hlisted'
    cases hlisted'
    rfl
  rw [hsame] at h
  by_cases hne : correct = []
  · subst hne
    cases h
    simp [passed_iff] at hr
  · have he : correct.isEmpty = false := List.isEmpty_eq_false_iff.2 hne
    simp only [he] at h
    change selectionFindings q path correct = .ok r at h
    obtain ⟨miscounted, _, h⟩ := bind_eq_ok.1 h
    obtain ⟨options, _, h⟩ := bind_eq_ok.1 h
    obtain ⟨valid, _, h⟩ := bind_eq_ok.1 h
    cases h
    rw [passed_append, passed_append, passed_findIf (by rfl)] at hr
    have hlen : (correct.map casefold).dedup.length = (correct.map casefold).length := by
      simpa using hr.1.1
    refine ⟨hne, ?_⟩
    have hsub := List.dedup_sublist (correct.map casefold)
    rw [← List.dedup_eq_self]
    exact hsub.eq_of_length hlen

end

end IeltsHub.PublishGatePasses
