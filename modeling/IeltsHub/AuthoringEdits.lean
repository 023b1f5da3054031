import IeltsHub.ContentTables

set_option autoImplicit false

/-!
# Authoring over the tables

The endpoints that change what a test is made of: its sections and what is placed in them, the
questions and groups it refers to, and the answer keys. A request names its target by its row.
`Reach` is what the scope of its sender comes to: whether the target may be edited, and what the
xids in the body refer to.
-/
namespace IeltsHub.AuthoringEdits
open PyDict PyValue RowTable ContentModels ContentDrafts ContentTables

structure Reach where
  access : Except Denied Unit := .ok ()
  passages : String → Option ℕ := fun _ => none
  audioTracks : String → Option ℕ := fun _ => none
  groupVersions : String → Option ℕ := fun _ => none
  questionVersions : String → Option ℕ := fun _ => none

def found {ρ : Type} (missing : String) : Option ρ → Except Raised ρ
  | some row => .ok row
  | none => .error (.domain (.notFound missing))

def editable (t : Tables) (testVersionId : ℕ) (access : Except Denied Unit) (missing : String) :
    Except Raised TestVersionRow := do
  let v ← found missing (t.testVersions.get? testVersionId)
  required missing access
  mutable v.draft.status
  return v

/-! ## Positions

A plain unique index forbids two rows one position even while they move, so a shift parks the rows
it moves at the negatives of their positions and then lands them. -/

class Positioned {ρ : Type} (key : ρ → ℕ) where
  position : ρ → ℤ
  place : ρ → ℤ → ρ
  key_place : ∀ r n, key (place r n) = key r

open Positioned

instance : Positioned (fun s : SectionRow => s.id) where
  position s := s.position
  place s n := { s with position := n }
  key_place _ _ := rfl

instance : Positioned (fun g : PlacementRow => g.id) where
  position g := g.position
  place g n := { g with position := n }
  key_place _ _ := rfl

section
variable {ρ : Type} {key : ρ → ℕ} [Positioned key]

def replace (moves : ρ → Bool) (f : ℤ → ℤ) (t : Table ρ ℕ key) : Table ρ ℕ key :=
  t.mapRows (fun r => if moves r then place key r (f (position key r)) else r) (by
    intro r
    split
    · exact key_place r _
    · rfl)

def park (moves : ρ → Bool) (t : Table ρ ℕ key) : Table ρ ℕ key := replace moves (fun n => -n) t

/-- Land the parked rows under a condition, `delta` away from where they came from. -/
def land (within : ρ → Bool) (delta : ℤ) (t : Table ρ ℕ key) : Table ρ ℕ key :=
  replace (fun r => within r && decide (position key r < 0)) (fun n => -n + delta) t

def shift (moves within : ρ → Bool) (delta : ℤ) (t : Table ρ ℕ key) : Table ρ ℕ key :=
  if t.rows.any moves then land within delta (park moves t) else t

end

def inVersion (testVersionId : ℕ) (s : SectionRow) : Bool := s.testVersionId = testVersionId

def inSection (sectionId : ℕ) (g : PlacementRow) : Bool := g.sectionId = sectionId

def makeRoom (testVersionId : ℕ) (p : ℤ) (t : Tables) : Tables :=
  let moves (s : SectionRow) := inVersion testVersionId s && decide (p ≤ s.position)
  { t with sections := shift moves (inVersion testVersionId) 1 t.sections }

def makeRoomForGroup (sectionId : ℕ) (p : ℤ) (t : Tables) : Tables :=
  let moves (g : PlacementRow) := inSection sectionId g && decide (p ≤ g.position)
  { t with placements := shift moves (inSection sectionId) 1 t.placements }

def closePositionGap (testVersionId : ℕ) (removed : ℤ) (t : Tables) : Tables :=
  let moves (s : SectionRow) := inVersion testVersionId s && decide (removed < s.position)
  { t with sections := land (inVersion testVersionId) (-1) (park moves t.sections) }

def sectionCount (t : Tables) (testVersionId : ℕ) : ℕ :=
  (t.sections.select (inVersion testVersionId)).length

def span (start stop : ℤ) : ℤ × ℤ × ℤ :=
  if start < stop then (start + 1, stop, -1) else (stop, start - 1, 1)

def moveSection (s : SectionRow) (wanted : ℤ) (t : Tables) : Tables :=
  let stop := max 1 (min wanted (sectionCount t s.testVersionId))
  if stop = s.position then t
  else
    let (low, high, delta) := span s.position stop
    let parked := t.sections.put { s with position := -s.position }
    let shifted := shift
      (fun r => inVersion s.testVersionId r && decide (low ≤ r.position ∧ r.position ≤ high))
      (fun r => inVersion s.testVersionId r && decide (r.id ≠ s.id)) delta parked
    { t with sections := shifted.put { s with position := stop } }

/-! ## Numbering -/

def orderedSections (t : Tables) (testVersionId : ℕ) : List SectionRow :=
  (t.sections.select (inVersion testVersionId)).insertionSort (fun a b => a.position ≤ b.position)

def orderedPlacements (t : Tables) (sectionId : ℕ) : List PlacementRow :=
  (t.placements.select (inSection sectionId)).insertionSort (fun a b => a.position ≤ b.position)

def slotsOfItem (t : Tables) (i : QuestionGroupItem) : ℕ :=
  ((t.questionVersions.get? i.questionVersionId).map (fun q => q.draft.slotKeys.length)).getD 0

def numberingRows (t : Tables) (g : PlacementRow) : List (ℕ × ℕ) :=
  let items := (t.groupItems.select (fun i => i.groupVersionId = g.groupVersionId)).insertionSort
    (fun a b => a.position ≤ b.position)
  if items = [] then [(g.id, 0)] else items.map (fun i => (g.id, slotsOfItem t i))

def numberStarts (rows : List (ℕ × ℕ)) : Dict ℕ ℤ :=
  (rows.foldl (fun (starts, number) row => (starts.setDefault row.1 number, number + row.2))
    ((Dict.empty : Dict ℕ ℤ), (1 : ℤ))).1

def renumber (testVersionId : ℕ) (t : Tables) : Tables :=
  let starts := numberStarts ((orderedSections t testVersionId).flatMap (fun s =>
    (orderedPlacements t s.id).flatMap (numberingRows t)))
  let numbered (g : PlacementRow) :=
    { g with numberStart := (starts.get? g.id).getD g.numberStart }
  { t with placements := t.placements.mapRows numbered (fun _ => rfl) }

/-! ## Sections -/

structure SectionBody where
  position : ℕ
  positive : 1 ≤ position := by decide
  skill : String
  title : String
  passageVersionXid : Option String := none
  audioTrackXid : Option String := none
  timeLimitSeconds : Option ℤ := none
  declaredQuestionCount : Option ℤ := none
  playOnce : Bool := true

/-- `_passage_ref`. -/
def passageRef (r : Reach) (current : Option ℕ) : Option String → Except Raised (Option ℕ) :=
  resolved "Passage version not found." r.passages current

/-- `_audio_ref`. -/
def audioRef (r : Reach) (current : Option ℕ) : Option String → Except Raised (Option ℕ) :=
  resolved "Audio track not found." r.audioTracks current

def createSection (l : Library) (testVersionId : ℕ) (r : Reach) (b : SectionBody) :
    Except Raised Library := do
  let v ← editable l.tables testVersionId r.access "Test version not found."
  let position : ℕ := min b.position (sectionCount l.tables v.id + 1)
  let t := makeRoom v.id position l.tables
  let passageVersionId ← passageRef r none b.passageVersionXid
  let audioTrackId ← audioRef r none b.audioTrackXid
  let row : SectionRow :=
    { id := t.sections.nextId, testVersionId := v.id, position, skill := b.skill, title := b.title
      passageVersionId, audioTrackId, timeLimitSeconds := b.timeLimitSeconds
      declaredQuestionCount := b.declaredQuestionCount, playOnce := b.playOnce }
  commit (renumber v.id { t with sections := t.sections.put row })

/-- What a `PATCH` leaves of a section, its position apart. -/
def revised (b : SectionBody) (passageVersionId audioTrackId : Option ℕ) (s : SectionRow) :
    SectionRow :=
  { s with
    skill := b.skill, title := b.title, timeLimitSeconds := b.timeLimitSeconds
    declaredQuestionCount := b.declaredQuestionCount, playOnce := b.playOnce
    passageVersionId, audioTrackId }

def reviseSection (id : ℕ) (f : SectionRow → SectionRow) (hf : ∀ s, (f s).id = s.id) (t : Tables) :
    Tables :=
  let revise (s : SectionRow) := if s.id = id then f s else s
  have hrevise : ∀ s, (revise s).id = s.id := by
    intro s
    unfold revise
    split
    · exact hf s
    · rfl
  { t with sections := t.sections.mapRows revise hrevise }

def updateSection (l : Library) (sectionId : ℕ) (r : Reach) (b : SectionBody) :
    Except Raised Library := do
  let s ← found "Section not found." (l.tables.sections.get? sectionId)
  let v ← editable l.tables s.testVersionId r.access "Section not found."
  let passageVersionId ← passageRef r s.passageVersionId b.passageVersionXid
  let audioTrackId ← audioRef r s.audioTrackId b.audioTrackXid
  let t := if (b.position : ℤ) = s.position then l.tables else moveSection s b.position l.tables
  commit (renumber v.id
    (reviseSection s.id (revised b passageVersionId audioTrackId) (fun _ => rfl) t))

def deleteSection (l : Library) (sectionId : ℕ) (r : Reach) : Except Raised Library := do
  let s ← found "Section not found." (l.tables.sections.get? sectionId)
  let v ← editable l.tables s.testVersionId r.access "Section not found."
  let t := { l.tables with
    placements := l.tables.placements.remove (inSection s.id)
    sections := l.tables.sections.remove (fun x => x.id = s.id) }
  commit (renumber v.id (closePositionGap v.id s.position t))

/-! ## Placements -/

structure GroupPlacementBody where
  groupVersionXid : String
  position : ℕ
  positive : 1 ≤ position := by decide
  audioStartMs : Option ℤ := none
  audioEndMs : Option ℤ := none

def alreadyPlaced (t : Tables) (testVersionId groupVersionId : ℕ) : Bool :=
  t.placements.rows.any (fun g => decide (g.groupVersionId = groupVersionId) &&
    (t.sections.get? g.sectionId).any (inVersion testVersionId))

def placeGroup (l : Library) (sectionId : ℕ) (r : Reach) (b : GroupPlacementBody) :
    Except Raised Library := do
  let s ← found "Section not found." (l.tables.sections.get? sectionId)
  let v ← editable l.tables s.testVersionId r.access "Section not found."
  let gv ← found "Question group version not found."
    ((r.groupVersions b.groupVersionXid).bind l.tables.groupVersions.get?)
  if alreadyPlaced l.tables v.id gv.id then
    .error (.domain (.conflict "This group is already placed in this test version."
      "group_already_placed"))
  else
    let t := makeRoomForGroup s.id b.position l.tables
    let row : PlacementRow :=
      { id := t.placements.nextId, sectionId := s.id, groupVersionId := gv.id
        position := b.position, audioStartMs := b.audioStartMs, audioEndMs := b.audioEndMs }
    commit (renumber v.id { t with placements := t.placements.put row })

def placementsByXid (t : Tables) (sectionId : ℕ) : Dict String ℕ :=
  Dict.ofList ((t.placements.select (inSection sectionId)).filterMap (fun g =>
    (t.groupVersions.get? g.groupVersionId).map (fun gv => (gv.xid, g.id))))

def setPosition (id : ℕ) (n : ℤ) : Table PlacementRow ℕ (fun g => g.id) →
    Table PlacementRow ℕ (fun g => g.id) :=
  replace (fun g => decide (g.id = id)) (fun _ => n)

def reorderGroups (l : Library) (sectionId : ℕ) (r : Reach) (xids : List String) :
    Except Raised Library := do
  let s ← found "Section not found." (l.tables.sections.get? sectionId)
  let v ← editable l.tables s.testVersionId r.access "Section not found."
  let placements := placementsByXid l.tables s.id
  if ¬ (xids ⊆ placements.keys ∧ placements.keys ⊆ xids) then
    .error (.domain (.conflict "The reorder must list every group in this section exactly once."
      "reorder_incomplete"))
  else
    let moved := placements.values
    let parked := park (fun g : PlacementRow => decide (g.id ∈ moved)) l.tables.placements
    let ordered := (xids.filterMap placements.get?).zipIdx 1
    commit (renumber v.id { l.tables with
      placements := ordered.foldl (fun t e => setPosition e.1 e.2 t) parked })

/-! ## Questions, groups and keys -/

/-- `update_question_version` over its row. -/
def updateQuestion (l : Library) (id : ℕ) (ifMatch : Option String)
    (request : Context × QuestionVersionUpdate) : Except Raised Library := do
  let q ← found "Question version not found." (l.tables.questionVersions.get? id)
  let draft ← updateQuestionVersion q.draft ifMatch request
  commit { l.tables with questionVersions := l.tables.questionVersions.put { q with draft } }

/-- `update_group_version` over its row. -/
def updateGroup (l : Library) (id : ℕ) (ifMatch : Option String)
    (request : Context × GroupVersionUpdate) : Except Raised Library := do
  let g ← found "Question group version not found." (l.tables.groupVersions.get? id)
  let draft ← updateGroupVersion g.draft ifMatch request
  commit { l.tables with groupVersions := l.tables.groupVersions.put { g with draft } }

structure GroupItemBody where
  questionVersionXid : String
  position : Option ℕ := none
  positive : ∀ n ∈ position, 1 ≤ n := by decide

def nextPosition (t : Tables) (groupVersionId : ℕ) : ℤ :=
  let positions := (t.groupItems.select (fun i => i.groupVersionId = groupVersionId)).map
    QuestionGroupItem.position
  positions.max?.getD 0 + 1

def addGroupItem (l : Library) (groupVersionId : ℕ) (r : Reach) (b : GroupItemBody) :
    Except Raised Library := do
  let g ← found "Question group version not found." (l.tables.groupVersions.get? groupVersionId)
  required "Question group version not found." r.access
  let q ← found "Question version not found."
    ((r.questionVersions b.questionVersionXid).bind l.tables.questionVersions.get?)
  let item : QuestionGroupItem :=
    { id := l.tables.groupItems.nextId, groupVersionId := g.id, questionVersionId := q.id
      position := (b.position.map Nat.cast).getD (nextPosition l.tables g.id) }
  commit { l.tables with groupItems := l.tables.groupItems.put item }

structure AnswerKeyBody where
  key : Obj
  reason : String := "key_fix"
  note : Option String := none
  tolerance : Option Obj := none

def superseded (questionVersionId : ℕ) (k : AnswerKeyRow) : AnswerKeyRow :=
  if k.questionVersionId = questionVersionId ∧ k.isCurrent = true then { k with isCurrent := false }
  else k

theorem superseded_id (questionVersionId : ℕ) (k : AnswerKeyRow) :
    (superseded questionVersionId k).id = k.id := by
  unfold superseded
  split <;> rfl

/-- `fix_answer_key`, on published content too. `xid` is the new key's. -/
def fixAnswerKey (l : Library) (questionVersionId : ℕ) (r : Reach) (b : AnswerKeyBody)
    (xid : String) : Except Raised Library := do
  let q ← found "Question version not found." (l.tables.questionVersions.get? questionVersionId)
  required "Question version not found." r.access
  let current := l.currentKey q.id
  let keys := l.tables.answerKeys.mapRows (superseded q.id) (superseded_id q.id)
  let row : AnswerKeyRow :=
    { id := keys.nextId, questionVersionId := q.id, xid, key := b.key
      versionNo := (current.map (fun k => k.versionNo + 1)).getD 1
      tolerance := b.tolerance.getD Dict.empty, reason := b.reason, note := b.note }
  commit { l.tables with answerKeys := keys.put row }

/-! ## Requests -/

inductive Act where
  | createSection (testVersionId : ℕ) (r : Reach) (b : SectionBody)
  | updateSection (sectionId : ℕ) (r : Reach) (b : SectionBody)
  | deleteSection (sectionId : ℕ) (r : Reach)
  | placeGroup (sectionId : ℕ) (r : Reach) (b : GroupPlacementBody)
  | reorderGroups (sectionId : ℕ) (r : Reach) (xids : List String)
  | updateQuestion (id : ℕ) (ifMatch : Option String) (request : Context × QuestionVersionUpdate)
  | updateGroup (id : ℕ) (ifMatch : Option String) (request : Context × GroupVersionUpdate)
  | addGroupItem (groupVersionId : ℕ) (r : Reach) (b : GroupItemBody)
  | fixAnswerKey (questionVersionId : ℕ) (r : Reach) (b : AnswerKeyBody) (xid : String)

def answer (l : Library) : Act → Except Raised Library
  | .createSection id r b => AuthoringEdits.createSection l id r b
  | .updateSection id r b => AuthoringEdits.updateSection l id r b
  | .deleteSection id r => AuthoringEdits.deleteSection l id r
  | .placeGroup id r b => AuthoringEdits.placeGroup l id r b
  | .reorderGroups id r xids => AuthoringEdits.reorderGroups l id r xids
  | .updateQuestion id ifMatch request => AuthoringEdits.updateQuestion l id ifMatch request
  | .updateGroup id ifMatch request => AuthoringEdits.updateGroup l id ifMatch request
  | .addGroupItem id r b => AuthoringEdits.addGroupItem l id r b
  | .fixAnswerKey id r b xid => AuthoringEdits.fixAnswerKey l id r b xid

def act (l : Library) (a : Act) : Library :=
  match answer l a with
  | .ok l' => l'
  | .error _ => l

end IeltsHub.AuthoringEdits
