import IeltsHub.ContentDrafts
import IeltsHub.ContentFingerprint

set_option autoImplicit false

/-!
# The tables an author writes

The content tables with the columns authoring writes, their unique indexes, and the two readings
of them: the rows the exam joins, and the composition a version is published from.
-/
namespace IeltsHub.ContentTables
open PyDict PyValue PyJson RowTable ContentModels ContentComposition ContentDrafts
  ContentFingerprint

/-! ## Rows -/

structure TestVersionRow where
  id : ℕ
  xid : String
  draft : TestVersionDraft := {}
  snapshot : Option Json := none
  totalQuestions : ℕ := 0
  maxRaw : ℕ := 0
  deriving DecidableEq

structure SectionRow extends TestVersionSection where
  title : String := ""
  passageVersionId : Option ℕ := none
  declaredQuestionCount : Option ℤ := none
  deriving DecidableEq

structure PlacementRow extends TestVersionGroup where
  numberStart : ℤ := 1
  audioStartMs : Option ℤ := none
  audioEndMs : Option ℤ := none
  deriving DecidableEq

structure GroupVersionRow where
  id : ℕ
  xid : String
  display : Obj := Dict.empty
  draft : GroupVersionDraft := {}
  deriving DecidableEq

structure QuestionVersionRow where
  id : ℕ
  xid : String
  questionId : ℕ
  typeKey : String
  typeVersion : ℤ := 1
  draft : QuestionVersionDraft := {}
  deriving DecidableEq

structure AnswerKeyRow extends AnswerKeyVersion where
  xid : String
  versionNo : ℕ := 1
  reason : String := "initial"
  note : Option String := none
  deriving DecidableEq

def listColumn : Option (List Obj) → Json
  | none => .null
  | some entries => .arr (entries.map objJson)

/-! The rows as the exam reads them. -/

def TestVersionRow.read (v : TestVersionRow) : TestVersion where
  id := v.id
  xid := v.xid
  status := v.draft.status
  config := v.draft.config
  bandMapVersionId := v.draft.bandMapVersionId
  snapshot := v.snapshot

def GroupVersionRow.read (g : GroupVersionRow) : QuestionGroupVersion where
  id := g.id
  wordLimit := optional objJson g.draft.wordLimit
  optionBank := listColumn g.draft.optionBank
  display := g.display

def QuestionVersionRow.read (q : QuestionVersionRow) : QuestionVersion where
  id := q.id
  xid := q.xid
  questionId := q.questionId
  typeKey := q.typeKey
  typeVersion := q.typeVersion
  payload := q.draft.payload
  slotKeys := q.draft.slotKeys

/-! ## Tables -/

/-- The passages and recordings a section may refer to are what the library holds of them. -/
structure Tables where
  testVersions : Table TestVersionRow ℕ TestVersionRow.id := .empty
  sections : Table SectionRow ℕ (fun s => s.id) := .empty
  placements : Table PlacementRow ℕ (fun g => g.id) := .empty
  groupVersions : Table GroupVersionRow ℕ GroupVersionRow.id := .empty
  groupItems : Table QuestionGroupItem ℕ QuestionGroupItem.id := .empty
  questions : Table ContentModels.Question ℕ ContentModels.Question.id := .empty
  questionVersions : Table QuestionVersionRow ℕ QuestionVersionRow.id := .empty
  answerKeys : Table AnswerKeyRow ℕ (fun k => k.id) := .empty
  bandMaps : Table BandMapVersion ℕ BandMapVersion.id := .empty
  passages : ℕ → Option Passage := fun _ => none
  tracks : ℕ → Option MediaRef := fun _ => none

/-- `audio_end_ms > audio_start_ms`, where both are there. -/
def markersOrdered (g : PlacementRow) : Bool :=
  match g.audioStartMs, g.audioEndMs with
  | some start, some stop => start < stop
  | _, _ => true

/-- The unique indexes, the check, and the question every question version has. -/
structure Tables.Valid (t : Tables) : Prop where
  sectionPositions : (t.sections.rows.map (fun s => (s.testVersionId, s.position))).Nodup
  placementPositions : (t.placements.rows.map (fun g => (g.sectionId, g.position))).Nodup
  itemPositions : (t.groupItems.rows.map (fun i => (i.groupVersionId, i.position))).Nodup
  versionXids : (t.questionVersions.rows.map QuestionVersionRow.xid).Nodup
  keyNumbers : (t.answerKeys.rows.map (fun k => (k.questionVersionId, k.versionNo))).Nodup
  currentKeys : ((t.answerKeys.select (fun k => k.isCurrent)).map
    (fun k => k.questionVersionId)).Nodup
  markers : ∀ g ∈ t.placements.rows, markersOrdered g = true
  asked : ∀ q ∈ t.questionVersions.rows, (t.questions.get? q.questionId).isSome = true

theorem Tables.valid_iff (t : Tables) : t.Valid ↔
    (t.sections.rows.map (fun s => (s.testVersionId, s.position))).Nodup ∧
    (t.placements.rows.map (fun g => (g.sectionId, g.position))).Nodup ∧
    (t.groupItems.rows.map (fun i => (i.groupVersionId, i.position))).Nodup ∧
    (t.questionVersions.rows.map QuestionVersionRow.xid).Nodup ∧
    (t.answerKeys.rows.map (fun k => (k.questionVersionId, k.versionNo))).Nodup ∧
    ((t.answerKeys.select (fun k => k.isCurrent)).map (fun k => k.questionVersionId)).Nodup ∧
    (∀ g ∈ t.placements.rows, markersOrdered g = true) ∧
    ∀ q ∈ t.questionVersions.rows, (t.questions.get? q.questionId).isSome = true := by
  constructor
  · intro h
    exact ⟨h.1, h.2, h.3, h.4, h.5, h.6, h.7, h.8⟩
  · rintro ⟨h1, h2, h3, h4, h5, h6, h7, h8⟩
    exact ⟨h1, h2, h3, h4, h5, h6, h7, h8⟩

instance (t : Tables) : Decidable t.Valid := decidable_of_iff _ (Tables.valid_iff t).symm

structure Library where
  tables : Tables
  valid : tables.Valid

def commit (t : Tables) : Except Raised Library :=
  if h : t.Valid then .ok ⟨t, h⟩ else .error (.domain .integrity)

theorem commit_eq_ok {t : Tables} {l : Library} (h : commit t = .ok l) : l.tables = t := by
  unfold commit at h
  split at h
  · cases h
    rfl
  · cases h

namespace Library
variable (l : Library)

def content : ContentStore where
  testVersions := l.tables.testVersions.project TestVersionRow.read (fun _ => rfl)
  sections := l.tables.sections.project SectionRow.toTestVersionSection (fun _ => rfl)
  groups := l.tables.placements.project PlacementRow.toTestVersionGroup (fun _ => rfl)
  groupVersions := l.tables.groupVersions.project GroupVersionRow.read (fun _ => rfl)
  groupItems := l.tables.groupItems
  questions := l.tables.questions
  questionVersions := l.tables.questionVersions.project QuestionVersionRow.read (fun _ => rfl)
  answerKeys := l.tables.answerKeys.project AnswerKeyRow.toAnswerKeyVersion (fun _ => rfl)
  bandMaps := l.tables.bandMaps
  versionXids := by
    have h := l.valid.versionXids
    simpa [Table.project, Function.comp_def, QuestionVersionRow.read] using h
  currentKeys := by
    rw [Table.select_project, List.map_map]
    exact l.valid.currentKeys

theorem get?_questionVersions (n : ℕ) : l.content.questionVersions.get? n =
    (l.tables.questionVersions.get? n).map QuestionVersionRow.read :=
  Table.get?_project _ _ (fun _ => rfl) n

theorem get?_groupVersions (n : ℕ) : l.content.groupVersions.get? n =
    (l.tables.groupVersions.get? n).map GroupVersionRow.read :=
  Table.get?_project _ _ (fun _ => rfl) n

theorem select_groups (p : TestVersionGroup → Bool) : l.content.groups.select p =
    (l.tables.placements.select (fun g => p g.toTestVersionGroup)).map
      PlacementRow.toTestVersionGroup :=
  Table.select_project _ _ (fun _ => rfl) p

theorem select_sections (p : TestVersionSection → Bool) : l.content.sections.select p =
    (l.tables.sections.select (fun s => p s.toTestVersionSection)).map
      SectionRow.toTestVersionSection :=
  Table.select_project _ _ (fun _ => rfl) p

/-! ## The composition of a version -/

def currentKey (questionVersionId : ℕ) : Option AnswerKeyRow :=
  (l.tables.answerKeys.select
    (fun k => decide (k.questionVersionId = questionVersionId) && k.isCurrent)).head?

def questionNode (q : QuestionVersionRow) : ContentFingerprint.Question where
  xid := q.xid
  typeKey := q.typeKey
  typeVersion := q.typeVersion
  payload := q.draft.payload
  slotKeys := q.draft.slotKeys
  points := if q.draft.points = 0 then 1 else q.draft.points
  key := (l.currentKey q.id).map (fun k => k.key)
  keyVersionXid := (l.currentKey q.id).map AnswerKeyRow.xid
  tolerance := ((l.currentKey q.id).map (fun k => k.tolerance)).getD Dict.empty

/-- `ORDER BY position`. -/
def itemsOf (groupVersionId : ℕ) : List QuestionGroupItem :=
  (l.tables.groupItems.select (fun i => i.groupVersionId = groupVersionId)).insertionSort
    (fun a b => a.position ≤ b.position)

def placementsOf (sectionId : ℕ) : List PlacementRow :=
  (l.tables.placements.select (fun g => g.sectionId = sectionId)).insertionSort
    (fun a b => a.position ≤ b.position)

def sectionsOf (testVersionId : ℕ) : List SectionRow :=
  (l.tables.sections.select (fun s => s.testVersionId = testVersionId)).insertionSort
    (fun a b => a.position ≤ b.position)

def questionsOfGroup (groupVersionId : ℕ) : List QuestionVersionRow :=
  (l.itemsOf groupVersionId).filterMap
    (fun i => l.tables.questionVersions.get? i.questionVersionId)

def groupNode (p : PlacementRow) (g : GroupVersionRow) : Group where
  xid := g.xid
  numberStart := p.numberStart
  questions := (l.questionsOfGroup g.id).map l.questionNode
  instructions := g.draft.instructions
  wordLimit := optional objJson g.draft.wordLimit
  optionBank := (g.draft.optionBank.getD []).map objJson
  uniqueOptions := getD g.display "unique_options" .null
  diagramMedia := (g.draft.diagramMediaId.filter (· ≠ 0)).map (fun id => { xid := toString id })
  hotspots := (g.draft.hotspots.getD []).map objJson
  audioStartMs := p.audioStartMs
  audioEndMs := p.audioEndMs

def groupsOf (sectionId : ℕ) : List Group :=
  (l.placementsOf sectionId).filterMap
    (fun p => (l.tables.groupVersions.get? p.groupVersionId).map (l.groupNode p))

def sectionNode (s : SectionRow) : Section where
  position := s.position
  skill := s.skill
  title := s.title
  groups := l.groupsOf s.id
  passage := s.passageVersionId.bind l.tables.passages
  audio := s.audioTrackId.bind l.tables.tracks
  timeLimitSeconds := s.timeLimitSeconds
  declaredQuestionCount := s.declaredQuestionCount
  playOnce := s.playOnce

def bandMapRef (v : TestVersionRow) : Option BandMapRef := do
  let id ← v.draft.bandMapVersionId
  let row ← if id = 0 then none else l.tables.bandMaps.get? id
  return { xid := toString row.id, maxRaw := row.maxRaw, mapping := row.mapping }

theorem mem_questionsOfGroup {q : QuestionVersionRow} {groupVersionId : ℕ}
    (h : q ∈ l.questionsOfGroup groupVersionId) : q ∈ l.tables.questionVersions.rows := by
  obtain ⟨i, _, h⟩ := List.mem_filterMap.1 h
  exact (Table.get?_eq_some.1 h).1

theorem eq_of_xid {q q' : QuestionVersionRow} (h : q ∈ l.tables.questionVersions.rows)
    (h' : q' ∈ l.tables.questionVersions.rows) (hxid : q.xid = q'.xid) : q = q' :=
  List.inj_on_of_nodup_map l.valid.versionXids h h' hxid

theorem exists_row {ss : List SectionRow} {p : SectionNode × GroupNode × QuestionNode}
    (h : p ∈ questionsOf ((ss.map l.sectionNode).map Section.core)) :
    ∃ q ∈ l.tables.questionVersions.rows, p.2.2 = (l.questionNode q).toQuestionNode := by
  obtain ⟨s, hs, h⟩ := List.mem_flatMap.1 h
  obtain ⟨g, hg, h⟩ := List.mem_flatMap.1 h
  obtain ⟨n, hn, rfl⟩ := List.mem_map.1 h
  obtain ⟨s', hs', rfl⟩ := List.mem_map.1 hs
  obtain ⟨row, _, rfl⟩ := List.mem_map.1 hs'
  obtain ⟨g', hg', rfl⟩ := List.mem_map.1 hg
  obtain ⟨placement, _, hnode⟩ := List.mem_filterMap.1 hg'
  obtain ⟨gv, _, rfl⟩ := Option.map_eq_some_iff.1 hnode
  obtain ⟨n', hn', rfl⟩ := List.mem_map.1 hn
  obtain ⟨q, hq, rfl⟩ := List.mem_map.1 hn'
  exact ⟨q, l.mem_questionsOfGroup hq, rfl⟩

/-- `load_composition`. -/
def loadComposition (v : TestVersionRow) : Composition where
  xid := v.xid
  title := v.draft.title
  sections := (l.sectionsOf v.id).map l.sectionNode
  bandMap := l.bandMapRef v
  coherent := by
    intro p hp p' hp' hxid
    obtain ⟨q, hq, h⟩ := l.exists_row hp
    obtain ⟨q', hq', h'⟩ := l.exists_row hp'
    rw [h, h'] at hxid ⊢
    rw [l.eq_of_xid hq hq' hxid]

/-! ## Publishing -/

/-- `_checksum`. -/
def checksumOf (snapshot : Json) : Checksum :=
  ⟨Sha256.ofText (dumps compactSorted snapshot), fun _ h => Sha256.hexChar_of_mem h⟩

def publishedRow (v : TestVersionRow) : TestVersionRow :=
  let composition := l.loadComposition v
  let snapshot := buildSnapshot composition
  { v with
    snapshot := some snapshot
    totalQuestions := composition.totalSlots
    maxRaw := composition.totalSlots
    draft := { v.draft with status := .published, checksum := some (checksumOf snapshot) } }

/-- `publish`: the caller has run the gate. -/
def publish (v : TestVersionRow) : Library where
  tables := { l.tables with testVersions := l.tables.testVersions.put (l.publishedRow v) }
  valid := ⟨l.valid.1, l.valid.2, l.valid.3, l.valid.4, l.valid.5, l.valid.6, l.valid.7, l.valid.8⟩

end Library

end IeltsHub.ContentTables
