import IeltsHub.FrozenPaper

set_option autoImplicit false

/-!
# What a key fix does

A fix sets the current key of its question aside and adds another one: it rewrites no key, and no
other question has another current key.
-/
namespace IeltsHub.KeyFixes
open PyExc PyValue PyDict RowTable ContentModels ExamScoringInputs ContentTables AuthoringEdits
  RegradeSpec UntouchedVersions

/-- The same content but for its keys, none of which is gone or rewritten. -/
structure Rekeyed (c c' : ContentStore) : Prop where
  testVersions : c'.testVersions = c.testVersions
  sections : c'.sections = c.sections
  groups : c'.groups = c.groups
  groupVersions : c'.groupVersions = c.groupVersions
  groupItems : c'.groupItems = c.groupItems
  questions : c'.questions = c.questions
  questionVersions : c'.questionVersions = c.questionVersions
  bandMaps : c'.bandMaps = c.bandMaps
  kept : ∀ k ∈ c.answerKeys.rows, ∃ k' ∈ c'.answerKeys.rows, keyEntry k' = keyEntry k

theorem Rekeyed.refl (c : ContentStore) : Rekeyed c c :=
  ⟨rfl, rfl, rfl, rfl, rfl, rfl, rfl, rfl, fun k hk => ⟨k, hk, rfl⟩⟩

theorem Rekeyed.trans {c d e : ContentStore} (h : Rekeyed c d) (h' : Rekeyed d e) :
    Rekeyed c e where
  testVersions := h'.testVersions.trans h.testVersions
  sections := h'.sections.trans h.sections
  groups := h'.groups.trans h.groups
  groupVersions := h'.groupVersions.trans h.groupVersions
  groupItems := h'.groupItems.trans h.groupItems
  questions := h'.questions.trans h.questions
  questionVersions := h'.questionVersions.trans h.questionVersions
  bandMaps := h'.bandMaps.trans h.bandMaps
  kept k hk := by
    obtain ⟨k₁, hk₁, hsame⟩ := h.kept k hk
    obtain ⟨k₂, hk₂, hsame'⟩ := h'.kept k₁ hk₁
    exact ⟨k₂, hk₂, hsame'.trans hsame⟩

section
variable {c c' : ContentStore} {v n : ℕ}

theorem Rekeyed.placed (h : Rekeyed c c') : placed c' v = placed c v := by
  unfold ExamScoringInputs.placed placedIn
  rw [h.sections, h.groups, h.groupVersions, h.groupItems, h.questions, h.questionVersions]

theorem Rekeyed.bandMapVersion (h : Rekeyed c c') : bandMapVersion c' v = bandMapVersion c v := by
  unfold ExamScoringInputs.bandMapVersion
  rw [h.testVersions, h.bandMaps]

end

def fixedRow (l : Library) (id : ℕ) (b : AnswerKeyBody) (xid : String) : AnswerKeyRow where
  id := (l.tables.answerKeys.mapRows (superseded id) (superseded_id id)).nextId
  questionVersionId := id
  xid := xid
  key := b.key
  versionNo := ((l.currentKey id).map (fun k => k.versionNo + 1)).getD 1
  tolerance := b.tolerance.getD Dict.empty
  reason := b.reason
  note := b.note

theorem fixAnswerKey_eq_ok {l l' : Library} {id : ℕ} {r : Reach} {b : AnswerKeyBody}
    {xid : String} (h : fixAnswerKey l id r b xid = .ok l') :
    r.access = .ok () ∧ l'.tables = { l.tables with
      answerKeys := (l.tables.answerKeys.mapRows (superseded id) (superseded_id id)).put
        (fixedRow l id b xid) } := by
  unfold fixAnswerKey at h
  obtain ⟨q, hq, h⟩ := bind_eq_ok.1 h
  obtain ⟨_, haccess, h⟩ := bind_eq_ok.1 h
  have hid : q.id = id := Table.get?_key (found_eq_ok hq)
  have htables := commit_eq_ok h
  subst hid
  exact ⟨FrozenPaper.required_eq_ok haccess, htables⟩

theorem rows_fixed (l : Library) (id : ℕ) (b : AnswerKeyBody) (xid : String) :
    ((l.tables.answerKeys.mapRows (superseded id) (superseded_id id)).put
      (fixedRow l id b xid)).rows =
        l.tables.answerKeys.rows.map (superseded id) ++ [fixedRow l id b xid] :=
  Table.rows_put_of_get?_eq_none (Table.get?_nextId _)

theorem fixAnswerKey_content {l l' : Library} {id : ℕ} {r : Reach} {b : AnswerKeyBody}
    {xid : String} (h : fixAnswerKey l id r b xid = .ok l') :
    Rekeyed l.content l'.content ∧
      ∀ n, n ≠ id → currentKeyOf l'.content n = currentKeyOf l.content n := by
  obtain ⟨_, htables⟩ := fixAnswerKey_eq_ok h
  have hrows : l'.content.answerKeys.rows =
      (l.tables.answerKeys.rows.map (superseded id) ++ [fixedRow l id b xid]).map
        AnswerKeyRow.toAnswerKeyVersion := by
    change l'.tables.answerKeys.rows.map _ = _
    rw [htables]
    exact congrArg _ (rows_fixed l id b xid)
  constructor
  · constructor
    case kept =>
      intro k hk
      obtain ⟨k₀, hk₀, rfl⟩ := List.mem_map.1 hk
      refine ⟨(superseded id k₀).toAnswerKeyVersion, ?_, ?_⟩
      · rw [hrows]
        exact List.mem_map_of_mem (List.mem_append_left _ (List.mem_map_of_mem hk₀))
      · unfold superseded
        split <;> rfl
    case testVersions =>
      change l'.tables.testVersions.project TestVersionRow.read (fun _ => rfl) = _
      rw [htables]
      rfl
    case sections =>
      change l'.tables.sections.project SectionRow.toTestVersionSection (fun _ => rfl) = _
      rw [htables]
      rfl
    case groups =>
      change l'.tables.placements.project PlacementRow.toTestVersionGroup (fun _ => rfl) = _
      rw [htables]
      rfl
    case groupVersions =>
      change l'.tables.groupVersions.project GroupVersionRow.read (fun _ => rfl) = _
      rw [htables]
      rfl
    case groupItems =>
      change l'.tables.groupItems = _
      rw [htables]
      rfl
    case questions =>
      change l'.tables.questions = _
      rw [htables]
      rfl
    case questionVersions =>
      change l'.tables.questionVersions.project QuestionVersionRow.read (fun _ => rfl) = _
      rw [htables]
      rfl
    case bandMaps =>
      change l'.tables.bandMaps = _
      rw [htables]
      rfl
  · intro n hn
    apply Option.ext
    intro kv
    rw [currentKeyOf_eq_some, currentKeyOf_eq_some, hrows]
    constructor
    · rintro ⟨k, hk, hcurrent, hqv, rfl⟩
      obtain ⟨k₁, hk₁, rfl⟩ := List.mem_map.1 hk
      rcases List.mem_append.1 hk₁ with hk₁ | hk₁
      · obtain ⟨k₀, hk₀, rfl⟩ := List.mem_map.1 hk₁
        have hsame := FrozenPaper.superseded_current hcurrent
        rw [hsame] at hcurrent hqv ⊢
        exact ⟨_, List.mem_map_of_mem hk₀, hcurrent, hqv, rfl⟩
      · rw [List.mem_singleton.1 hk₁] at hqv
        exact absurd hqv.symm hn
    · rintro ⟨k, hk, hcurrent, hqv, rfl⟩
      obtain ⟨k₀, hk₀, rfl⟩ := List.mem_map.1 hk
      have hsame : superseded id k₀ = k₀ :=
        if_neg (fun h => hn (hqv.symm.trans h.1))
      refine ⟨k₀.toAnswerKeyVersion, ?_, hcurrent, hqv, rfl⟩
      apply List.mem_map_of_mem
      apply List.mem_append_left
      rw [List.mem_map]
      exact ⟨k₀, hk₀, hsame⟩

end IeltsHub.KeyFixes
