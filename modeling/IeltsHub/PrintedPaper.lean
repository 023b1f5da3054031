import IeltsHub.ContentTables
import IeltsHub.ExamScoringInputs

set_option autoImplicit false

/-!
# The printed paper and the scored one

A version is published from the tree of `load_composition` and scored from the join of
`_scoring_inputs`. The unique positions make the two one list of questions, and what the snapshot
prints of it can be read back.
-/
namespace IeltsHub.PrintedPaper
open PyValue RowTable ContentModels ContentComposition ContentFingerprint ContentTables
  ExamScoringInputs

/-- A question as a paper has it: what is asked, its slots, and the rules of its group. -/
structure Entry where
  questionVersionXid : Json
  typeKey : Json
  typeVersion : Json
  payload : Json
  slotKeys : List Json
  wordLimit : Json
  optionBank : Json
  deriving DecidableEq

/-! ## What the snapshot prints -/

def member (name : String) : Json → Json
  | .obj members => (members.lookup name).getD .null
  | _ => .null

def elements : Json → List Json
  | .arr values => values
  | _ => []

def readQuestion (group question : Json) : Entry where
  questionVersionXid := member "question_version_xid" question
  typeKey := member "type_key" question
  typeVersion := member "type_version" question
  payload := member "payload" question
  slotKeys := elements (member "slot_keys" question)
  wordLimit := member "word_limit" group
  optionBank := member "option_bank" group

def readSnapshot (snapshot : Json) : List Entry :=
  (elements (member "sections" snapshot)).flatMap fun s =>
    (elements (member "groups" s)).flatMap fun g =>
      (elements (member "questions" g)).map (readQuestion g)

def entryOf (g : Group) (q : ContentFingerprint.Question) : Entry where
  questionVersionXid := .str q.xid
  typeKey := .str q.typeKey
  typeVersion := .int q.typeVersion
  payload := objJson q.payload
  slotKeys := q.slotKeys.map .str
  wordLimit := g.wordLimit
  optionBank := .arr g.optionBank

def entriesOf (sections : List Section) : List Entry :=
  sections.flatMap (fun s => s.groups.flatMap (fun g => g.questions.map (entryOf g)))

theorem readQuestions_eq (g : Group) (number number' : ℕ) (qs : List ContentFingerprint.Question) :
    (questionEntries number qs).map (readQuestion (groupEntry number' g)) =
      qs.map (entryOf g) := by
  induction qs generalizing number with
  | nil => rfl
  | cons q qs ih =>
    rw [questionEntries, List.map_cons, List.map_cons, ih]
    rfl

theorem readGroups_eq (number : ℕ) (gs : List Group) :
    (groupEntries number gs).flatMap (fun g =>
      (elements (member "questions" g)).map (readQuestion g)) =
        gs.flatMap (fun g => g.questions.map (entryOf g)) := by
  induction gs generalizing number with
  | nil => rfl
  | cons g gs ih =>
    rw [groupEntries, List.flatMap_cons, List.flatMap_cons, ih]
    exact congrArg (· ++ _) (readQuestions_eq g number number g.questions)

theorem readSections_eq (number : ℕ) (ss : List Section) :
    (sectionEntries number ss).flatMap (fun s =>
      (elements (member "groups" s)).flatMap fun g =>
        (elements (member "questions" g)).map (readQuestion g)) = entriesOf ss := by
  induction ss generalizing number with
  | nil => rfl
  | cons s ss ih =>
    rw [sectionEntries, List.flatMap_cons, ih]
    exact congrArg (· ++ _) (readGroups_eq number s.groups)

theorem readSnapshot_buildSnapshot (c : Composition) :
    readSnapshot (buildSnapshot c) = entriesOf c.sections :=
  readSections_eq 1 c.sections

theorem slots_entriesOf (ss : List Section) :
    ((entriesOf ss).map (fun e => e.slotKeys.length)).sum =
      ((questionsOf (ss.map Section.core)).map (fun p => p.2.2.slotKeys.length)).sum := by
  have hlist : (entriesOf ss).map (fun e => e.slotKeys.length) =
      (questionsOf (ss.map Section.core)).map (fun p => p.2.2.slotKeys.length) := by
    simp [entriesOf, questionsOf, entryOf, Section.core, Group.core, List.map_flatMap,
      List.flatMap_map, Function.comp_def]
  rw [hlist]

theorem slots_readSnapshot (c : Composition) :
    ((readSnapshot (buildSnapshot c)).map (fun e => e.slotKeys.length)).sum = c.totalSlots := by
  rw [readSnapshot_buildSnapshot, slots_entriesOf]
  rfl

/-! ## The join, in order -/

/-- `(gv.option_bank or [])`. -/
def bankOf (g : QuestionGroupVersion) : Json :=
  if truthy g.optionBank then g.optionBank else .arr []

def placedEntry (p : Placed) : Entry where
  questionVersionXid := .str p.questionVersion.xid
  typeKey := .str p.questionVersion.typeKey
  typeVersion := .int p.questionVersion.typeVersion
  payload := objJson p.questionVersion.payload
  slotKeys := p.questionVersion.slotKeys.map .str
  wordLimit := p.groupVersion.wordLimit
  optionBank := bankOf p.groupVersion

def paperRows (c : ContentStore) (testVersionId : ℕ) : List Placed :=
  (placed c testVersionId).insertionSort Placed.before

def paper (c : ContentStore) (testVersionId : ℕ) : List Entry :=
  (paperRows c testVersionId).map placedEntry

def inOrder {ρ : Type} (position : ρ → ℤ) (rows : List ρ) : List ρ :=
  rows.insertionSort (fun a b => position a ≤ position b)

section
variable {ρ : Type} {position : ρ → ℤ} {rows : List ρ}

instance position_total : Std.Total (fun a b : ρ => position a ≤ position b) := ⟨fun _ _ => le_total _ _⟩

instance position_trans : IsTrans ρ (fun a b : ρ => position a ≤ position b) := ⟨fun _ _ _ => le_trans⟩

theorem inOrder_perm : (inOrder position rows).Perm rows := List.perm_insertionSort _ rows

theorem mem_inOrder {r : ρ} : r ∈ inOrder position rows ↔ r ∈ rows := inOrder_perm.mem_iff

theorem inOrder_strict (hn : (rows.map position).Nodup) :
    (inOrder position rows).Pairwise (fun a b => position a < position b) := by
  have hle : (inOrder position rows).Pairwise (fun a b => position a ≤ position b) :=
    List.pairwise_insertionSort _ rows
  have hne : (inOrder position rows).Pairwise (fun a b => position a ≠ position b) :=
    List.pairwise_map.1 (((inOrder_perm.map position).nodup_iff).2 hn)
  exact (hle.and hne).imp (fun h => lt_of_le_of_ne h.1 h.2)

theorem inOrder_map {σ : Type} {position' : σ → ℤ} (f : ρ → σ)
    (hf : ∀ r, position' (f r) = position r) :
    (inOrder position rows).map f = inOrder position' (rows.map f) := by
  unfold inOrder
  apply List.map_insertionSort
  intro a _ b _
  rw [hf, hf]

end

section
variable (c : ContentStore)

def itemRows (s : TestVersionSection) (g : TestVersionGroup) (gv : QuestionGroupVersion)
    (i : QuestionGroupItem) : List Placed :=
  (c.questionVersions.get? i.questionVersionId).toList.flatMap fun qv =>
    (c.questions.get? qv.questionId).toList.map fun q => ⟨qv, gv, s, q, g, i⟩

def groupRows (s : TestVersionSection) (g : TestVersionGroup) : List Placed :=
  (c.groupVersions.get? g.groupVersionId).toList.flatMap fun gv =>
    (inOrder QuestionGroupItem.position
      (c.groupItems.select (fun i => i.groupVersionId = gv.id))).flatMap (itemRows c s g gv)

def sectionRows (s : TestVersionSection) : List Placed :=
  (inOrder TestVersionGroup.position
    (c.groups.select (fun g => g.sectionId = s.id))).flatMap (groupRows c s)

def walk (testVersionId : ℕ) : List Placed :=
  (inOrder TestVersionSection.position
    (c.sections.select (fun s => s.testVersionId = testVersionId))).flatMap (sectionRows c)

theorem walk_perm (testVersionId : ℕ) : (walk c testVersionId).Perm (placed c testVersionId) := by
  apply List.Perm.flatMap inOrder_perm
  intro s _
  apply List.Perm.flatMap inOrder_perm
  intro g _
  apply List.Perm.flatMap_left
  intro gv _
  exact List.Perm.flatMap inOrder_perm (fun i _ => .refl _)

/-- The unique indexes of positions. -/
structure Positions : Prop where
  sections : (c.sections.rows.map (fun s => (s.testVersionId, s.position))).Nodup
  groups : (c.groups.rows.map (fun g => (g.sectionId, g.position))).Nodup
  items : (c.groupItems.rows.map (fun i => (i.groupVersionId, i.position))).Nodup

end

section
variable {c : ContentStore}

theorem nodup_positions {ρ : Type} {owner : ρ → ℕ} {position : ρ → ℤ} {rows : List ρ} {n : ℕ}
    (h : (rows.map (fun r => (owner r, position r))).Nodup) :
    ((rows.filter (fun r => owner r = n)).map position).Nodup := by
  have hsub := (List.filter_sublist (p := fun r => decide (owner r = n)) (l := rows)).map
    (fun r => (owner r, position r))
  have hn := hsub.nodup h
  rw [List.Nodup, List.pairwise_map] at hn ⊢
  have hall : ∀ r ∈ rows.filter (fun r => owner r = n), owner r = n := by
    intro r hr
    simpa using (List.mem_filter.1 hr).2
  exact hn.imp_of_mem (fun ha hb hne heq => hne (Prod.ext ((hall _ ha).trans (hall _ hb).symm) heq))

theorem mem_itemRows {s : TestVersionSection} {g : TestVersionGroup} {gv : QuestionGroupVersion}
    {i : QuestionGroupItem} {p : Placed} (h : p ∈ itemRows c s g gv i) :
    p.testSection = s ∧ p.group = g ∧ p.groupVersion = gv ∧ p.item = i ∧
      c.questionVersions.get? i.questionVersionId = some p.questionVersion ∧
      c.questions.get? p.questionVersion.questionId = some p.question := by
  obtain ⟨qv, hqv, h⟩ := List.mem_flatMap.1 h
  obtain ⟨q, hq, rfl⟩ := List.mem_map.1 h
  exact ⟨rfl, rfl, rfl, rfl, Option.mem_toList.1 hqv, Option.mem_toList.1 hq⟩

theorem mem_groupRows {s : TestVersionSection} {g : TestVersionGroup} {p : Placed}
    (h : p ∈ groupRows c s g) :
    p.testSection = s ∧ p.group = g ∧
      c.groupVersions.get? g.groupVersionId = some p.groupVersion ∧
      p.item ∈ c.groupItems.rows ∧ p.item.groupVersionId = p.groupVersion.id ∧
      c.questionVersions.get? p.item.questionVersionId = some p.questionVersion ∧
      c.questions.get? p.questionVersion.questionId = some p.question := by
  obtain ⟨gv, hgv, h⟩ := List.mem_flatMap.1 h
  obtain ⟨i, hi, h⟩ := List.mem_flatMap.1 h
  obtain ⟨hs, hg, rfl, rfl, hqv, hq⟩ := mem_itemRows h
  obtain ⟨hi, howner⟩ := List.mem_filter.1 (mem_inOrder.1 hi)
  exact ⟨hs, hg, Option.mem_toList.1 hgv, hi, by simpa using howner, hqv, hq⟩

theorem mem_sectionRows {s : TestVersionSection} {p : Placed} (h : p ∈ sectionRows c s) :
    p.testSection = s ∧ p.group ∈ c.groups.rows ∧ p.group.sectionId = s.id ∧
      p ∈ groupRows c s p.group := by
  obtain ⟨g, hg, h⟩ := List.mem_flatMap.1 h
  obtain ⟨hg, howner⟩ := List.mem_filter.1 (mem_inOrder.1 hg)
  obtain ⟨hs, rfl, _⟩ := mem_groupRows h
  exact ⟨hs, hg, by simpa using howner, h⟩

theorem mem_walk {testVersionId : ℕ} {p : Placed} (h : p ∈ walk c testVersionId) :
    p.testSection ∈ c.sections.rows ∧ p.testSection.testVersionId = testVersionId ∧
      p ∈ sectionRows c p.testSection := by
  obtain ⟨s, hs, h⟩ := List.mem_flatMap.1 h
  obtain ⟨hs, howner⟩ := List.mem_filter.1 (mem_inOrder.1 hs)
  obtain ⟨rfl, _⟩ := mem_sectionRows h
  exact ⟨hs, by simpa using howner, h⟩

theorem itemRows_length_le (s : TestVersionSection) (g : TestVersionGroup)
    (gv : QuestionGroupVersion) (i : QuestionGroupItem) : (itemRows c s g gv i).length ≤ 1 := by
  unfold itemRows
  cases c.questionVersions.get? i.questionVersionId with
  | none => simp
  | some qv => cases h : c.questions.get? qv.questionId <;> simp [h]

theorem pairwise_of_length_le {α : Type} {r : α → α → Prop} {l : List α} (h : l.length ≤ 1) :
    l.Pairwise r := by
  match l, h with
  | [], _ => exact .nil
  | [a], _ => exact List.pairwise_singleton r a

theorem walk_ordered (h : Positions c) (testVersionId : ℕ) :
    (walk c testVersionId).Pairwise Placed.before := by
  refine List.pairwise_flatMap.2 ⟨?_, ?_⟩
  · intro s _
    refine List.pairwise_flatMap.2 ⟨?_, ?_⟩
    · intro g _
      refine List.pairwise_flatMap.2 ⟨?_, ?_⟩
      · intro gv _
        refine List.pairwise_flatMap.2 ⟨?_, ?_⟩
        · intro i _
          exact pairwise_of_length_le (itemRows_length_le s g gv i)
        · refine (inOrder_strict (nodup_positions h.items)).imp ?_
          intro i j hij p hp q hq
          obtain ⟨hps, hpg, _, hpi, _⟩ := mem_itemRows hp
          obtain ⟨hqs, hqg, _, hqi, _⟩ := mem_itemRows hq
          unfold Placed.before
          rw [hps, hpg, hpi, hqs, hqg, hqi]
          exact .inr ⟨rfl, .inr ⟨rfl, hij.le⟩⟩
      · exact pairwise_of_length_le (by cases c.groupVersions.get? g.groupVersionId <;> simp)
    · refine (inOrder_strict (nodup_positions h.groups)).imp ?_
      intro g g' hgg p hp q hq
      obtain ⟨hps, hpg, _⟩ := mem_groupRows hp
      obtain ⟨hqs, hqg, _⟩ := mem_groupRows hq
      unfold Placed.before
      rw [hps, hpg, hqs, hqg]
      exact .inr ⟨rfl, .inl hgg⟩
  · refine (inOrder_strict (nodup_positions h.sections)).imp ?_
    intro s s' hss p hp q hq
    obtain ⟨hps, _⟩ := mem_sectionRows hp
    obtain ⟨hqs, _⟩ := mem_sectionRows hq
    unfold Placed.before
    rw [hps, hqs]
    exact .inl hss

instance : Std.Total Placed.before := ⟨fun a b => by unfold Placed.before; omega⟩

instance : IsTrans Placed Placed.before := ⟨fun a b d => by unfold Placed.before; omega⟩

theorem eq_of_position {ρ : Type} {owner : ρ → ℕ} {position : ρ → ℤ} {rows : List ρ} {a b : ρ}
    (h : (rows.map (fun r => (owner r, position r))).Nodup) (ha : a ∈ rows) (hb : b ∈ rows)
    (howner : owner a = owner b) (hposition : position a = position b) : a = b :=
  List.inj_on_of_nodup_map h ha hb (Prod.ext howner hposition)

theorem walk_antisymm (h : Positions c) {testVersionId : ℕ} {p q : Placed}
    (hp : p ∈ walk c testVersionId) (hq : q ∈ walk c testVersionId) (hpq : p.before q)
    (hqp : q.before p) : p = q := by
  obtain ⟨hps, hpv, hp⟩ := mem_walk hp
  obtain ⟨hqs, hqv, hq⟩ := mem_walk hq
  obtain ⟨_, hpg, hpo, hp⟩ := mem_sectionRows hp
  obtain ⟨_, hqg, hqo, hq⟩ := mem_sectionRows hq
  obtain ⟨_, _, hpgv, hpi, hpio, hpqv, hpq'⟩ := mem_groupRows hp
  obtain ⟨_, _, hqgv, hqi, hqio, hqqv, hqq'⟩ := mem_groupRows hq
  unfold Placed.before at hpq hqp
  have hs : p.testSection = q.testSection :=
    eq_of_position h.sections hps hqs (hpv.trans hqv.symm) (by omega)
  have hg : p.group = q.group :=
    eq_of_position h.groups hpg hqg (by rw [hpo, hqo, hs]) (by omega)
  have hgv : p.groupVersion = q.groupVersion := by
    rw [hg, hqgv] at hpgv
    exact (Option.some.inj hpgv).symm
  have hi : p.item = q.item :=
    eq_of_position h.items hpi hqi (by rw [hpio, hqio, hgv]) (by omega)
  have hqve : p.questionVersion = q.questionVersion := by
    rw [hi, hqqv] at hpqv
    exact (Option.some.inj hpqv).symm
  have hqe : p.question = q.question := by
    rw [hqve, hqq'] at hpq'
    exact (Option.some.inj hpq').symm
  cases p
  cases q
  simp_all

theorem paperRows_eq_walk (h : Positions c) (testVersionId : ℕ) :
    paperRows c testVersionId = walk c testVersionId := by
  have hperm : (paperRows c testVersionId).Perm (walk c testVersionId) :=
    (List.perm_insertionSort _ _).trans (walk_perm c testVersionId).symm
  refine List.Perm.eq_of_pairwise ?_ (List.pairwise_insertionSort _ _)
    (walk_ordered h testVersionId) hperm
  intro p q hp hq hpq hqp
  exact walk_antisymm h (hperm.mem_iff.1 hp) hq hpq hqp

end

/-! ## The tree and the join -/

theorem bankOf_read (g : GroupVersionRow) :
    bankOf g.read = .arr ((g.draft.optionBank.getD []).map objJson) := by
  unfold bankOf GroupVersionRow.read
  cases hbank : g.draft.optionBank with
  | none => rfl
  | some bank =>
    cases bank with
    | nil => rfl
    | cons b bs => rfl

theorem flatMap_filterMap {α β γ : Type} (f : α → Option β) (g : β → List γ) (as : List α) :
    (as.filterMap f).flatMap g = as.flatMap (fun a => (f a).toList.flatMap g) := by
  induction as with
  | nil => rfl
  | cons a as ih =>
    rw [List.flatMap_cons, List.filterMap_cons, ← ih]
    cases f a with
    | none => rfl
    | some b => simp

section
variable (l : Library)

theorem positions_content : Positions l.content where
  sections := by
    have h := l.valid.sectionPositions
    simpa [Library.content, Table.project, Function.comp_def] using h
  groups := by
    have h := l.valid.placementPositions
    simpa [Library.content, Table.project, Function.comp_def] using h
  items := l.valid.itemPositions

theorem entries_item (s : TestVersionSection) (p : PlacementRow) (gv : GroupVersionRow)
    (i : QuestionGroupItem) :
    (itemRows l.content s p.toTestVersionGroup gv.read i).map placedEntry =
      (l.tables.questionVersions.get? i.questionVersionId).toList.map
        (fun q => entryOf (l.groupNode p gv) (l.questionNode q)) := by
  unfold itemRows
  rw [l.get?_questionVersions]
  cases hq : l.tables.questionVersions.get? i.questionVersionId with
  | none => rfl
  | some q =>
    obtain ⟨question, hquestion⟩ :=
      Option.isSome_iff_exists.1 (l.valid.asked q (Table.get?_eq_some.1 hq).1)
    have hasked : l.content.questions.get? q.read.questionId = some question := hquestion
    have hbank := bankOf_read gv
    simp only [Option.map_some, Option.toList_some, List.flatMap_cons, List.flatMap_nil, hasked,
      List.map_cons, List.map_nil, List.append_nil, placedEntry, hbank]
    rfl

theorem entries_group (s : TestVersionSection) (p : PlacementRow) :
    (groupRows l.content s p.toTestVersionGroup).map placedEntry =
      ((l.tables.groupVersions.get? p.groupVersionId).map (l.groupNode p)).toList.flatMap
        (fun g => g.questions.map (entryOf g)) := by
  unfold groupRows
  rw [l.get?_groupVersions]
  cases l.tables.groupVersions.get? p.groupVersionId with
  | none => rfl
  | some gv =>
    have hitems : inOrder QuestionGroupItem.position
        (l.content.groupItems.select (fun i => i.groupVersionId = gv.read.id)) =
          l.itemsOf gv.id := rfl
    simp only [Option.map_some, Option.toList_some, List.flatMap_cons, List.flatMap_nil,
      List.append_nil, hitems, List.map_flatMap, entries_item]
    change _ = ((l.questionsOfGroup gv.id).map l.questionNode).map (entryOf (l.groupNode p gv))
    unfold Library.questionsOfGroup
    rw [List.map_map, ← List.flatMap_pure_eq_map, flatMap_filterMap]
    exact List.flatMap_congr (fun i _ => (List.flatMap_pure_eq_map _ _).symm)

theorem entries_section (s : SectionRow) :
    (sectionRows l.content s.toTestVersionSection).map placedEntry =
      (l.groupsOf s.id).flatMap (fun g => g.questions.map (entryOf g)) := by
  have hgroups : inOrder TestVersionGroup.position
      (l.content.groups.select (fun g => g.sectionId = s.id)) =
        (l.placementsOf s.id).map PlacementRow.toTestVersionGroup := by
    rw [l.select_groups]
    exact (inOrder_map PlacementRow.toTestVersionGroup (fun _ => rfl)).symm
  unfold sectionRows Library.groupsOf
  rw [hgroups, List.flatMap_map, List.map_flatMap, flatMap_filterMap]
  exact List.flatMap_congr (fun p _ => entries_group l s.toTestVersionSection p)

theorem entries_walk (testVersionId : ℕ) :
    (walk l.content testVersionId).map placedEntry =
      entriesOf ((l.sectionsOf testVersionId).map l.sectionNode) := by
  have hsections : inOrder TestVersionSection.position
      (l.content.sections.select (fun s => s.testVersionId = testVersionId)) =
        (l.sectionsOf testVersionId).map SectionRow.toTestVersionSection := by
    rw [l.select_sections]
    exact (inOrder_map SectionRow.toTestVersionSection (fun _ => rfl)).symm
  unfold walk entriesOf
  rw [hsections, List.flatMap_map, List.map_flatMap, List.flatMap_map]
  exact List.flatMap_congr (fun s _ => entries_section l s)

theorem readSnapshot_eq_paper (v : TestVersionRow) :
    readSnapshot (buildSnapshot (l.loadComposition v)) = paper l.content v.id := by
  rw [readSnapshot_buildSnapshot]
  unfold paper
  rw [paperRows_eq_walk (positions_content l), entries_walk]
  rfl

end

end IeltsHub.PrintedPaper
