import IeltsHub.ContentDrafts
import IeltsHub.OptimisticLock

set_option autoImplicit false

/-!
# The optimistic lock on drafts

The five handlers are locks. The tag of a test is a digest of what an edit can change; the tag of
every version is made of its number and its checksum, and no edit moves either.
-/
namespace IeltsHub.DraftLocks
open PyExc PyText PyValue RowTable ContentModels ContentDrafts OptimisticLock

/-! ## The handlers as locks -/

section
variable {δ β : Type}

def lockOf (inner : δ → String) (plain : ∀ d, ∀ c ∈ (inner d).toList, tagChar c = true)
    (patch : δ → Option String → β → Except Raised δ) (gate : δ → β → Except Raised Unit)
    (write : δ → β → Except Raised δ) (merge : δ → δ → δ → δ)
    (hpatch : ∀ d m r, patch d m r =
      gate d r >>= fun _ => checkIfMatch (quoted (inner d)) m >>= fun _ => write d r)
    (hwrite : ∀ d r, write d r ≠ .error stale)
    (hmerge : ∀ loaded mine, merge loaded mine loaded = mine) : Lock δ String β Raised where
  tag := fun d => quoted (inner d)
  patch := patch
  gate := gate
  write := write
  stale := stale
  merge := merge
  patch_bare := fun d r => hpatch d none r
  patch_held := by
    intro d d' r
    rw [hpatch, checkIfMatch_quoted (plain d) (plain d')]
    congr 1
    funext _
    split <;> rfl
  write_ne_stale := hwrite
  merge_loaded := hmerge

/-! ## Tags that no write moves -/

def versionInner (pin : ℕ × Option Checksum) : String :=
  toString pin.1 ++ "-" ++ pin.2.elim "None" Checksum.text

def versionLockOf (pin : δ → ℕ × Option Checksum) (patch : δ → Option String → β → Except Raised δ)
    (gate : δ → β → Except Raised Unit) (write : δ → β → Except Raised δ) (merge : δ → δ → δ → δ)
    (hpatch : ∀ d m r, patch d m r =
      gate d r >>= fun _ => checkIfMatch (quoted (versionInner (pin d))) m >>= fun _ => write d r)
    (hwrite : ∀ d r, write d r ≠ .error stale)
    (hmerge : ∀ loaded mine, merge loaded mine loaded = mine) : Lock δ String β Raised :=
  lockOf (fun d => versionInner (pin d)) (fun _ => tagChar_versionEtag) patch gate write merge
    hpatch hwrite hmerge

theorem merged_of_eq {α : Type} [DecidableEq α] {loaded mine stored : α} (h : mine = stored) :
    merged loaded mine stored = stored := by
  unfold merged
  split
  · rfl
  · exact h

theorem merged_some {α : Type} [DecidableEq α] (loaded mine stored : α) :
    merged (some loaded) (some mine) (some stored) = some (merged loaded mine stored) := by
  unfold merged
  by_cases h : mine = loaded <;> simp [h]

variable {pin : δ → ℕ × Option Checksum} {patch : δ → Option String → β → Except Raised δ}
  {gate : δ → β → Except Raised Unit} {write : δ → β → Except Raised δ} {merge : δ → δ → δ → δ}

theorem pinned_versionLockOf {hpatch hwrite hmerge}
    (hkeep : ∀ {d r mine}, write d r = .ok mine → pin mine = pin d)
    (hcolumns : ∀ loaded mine stored, pin (merge loaded mine stored) =
      (merged (pin loaded).1 (pin mine).1 (pin stored).1,
        merged (pin loaded).2 (pin mine).2 (pin stored).2)) :
    Pinned (versionLockOf pin patch gate write merge hpatch hwrite hmerge) pin where
  tag := by
    intro d d' h
    change quoted (versionInner (pin d)) = quoted (versionInner (pin d'))
    rw [h]
  patch := by
    intro d held r mine h
    change patch d held r = .ok mine at h
    rw [hpatch] at h
    obtain ⟨_, _, h⟩ := bind_eq_ok.1 h
    obtain ⟨_, _, h⟩ := bind_eq_ok.1 h
    exact hkeep h
  merge := by
    intro loaded mine stored h
    change pin (merge loaded mine stored) = pin stored
    rw [hcolumns]
    exact Prod.ext (merged_of_eq (congrArg Prod.fst h)) (merged_of_eq (congrArg Prod.snd h))

end

/-- What a handler raises past the tag is never the lock's own refusal. -/
abbrev Unlocked {α : Type} (x : Except Raised α) : Prop := Raises (fun e => e ≠ stale) x

theorem unlocked_required (missing : String) (x : Except Denied Unit) :
    Unlocked (required missing x) := by
  rcases x with (_ | code) | _
  · exact raises_error (by simp [stale])
  · exact raises_error (by simp [stale])
  · exact raises_ok ()

theorem ne_stale_of_unlocked {α : Type} {x : Except Raised α} (h : Unlocked x) : x ≠ .error stale :=
  fun heq => h stale heq rfl

theorem unlocked_iter (v : Json) : Unlocked (iter v) := by
  unfold iter
  split
  · exact raises_ok _
  · exact raises_error (by simp [stale])

theorem unlocked_dictMethod (v : Json) : Unlocked (dictMethod v) := by
  unfold dictMethod
  split
  · exact raises_ok _
  · exact raises_error (by simp [stale])

theorem unlocked_resolved (missing : String) (lookup : String → Option ℕ) (current : Option ℕ)
    (xid : Option String) : Unlocked (resolved missing lookup current xid) := by
  unfold resolved
  split
  · exact raises_ok _
  · split
    · exact raises_ok _
    · exact raises_error (by simp [stale])

/-! ## A test -/

def testGate (_ : Test) (request : Context × TestUpdate) : Except Raised Unit :=
  required "Test not found." request.1.access

def testWrite (test : Test) (request : Context × TestUpdate) : Except Raised Test := do
  let visibility ← sharedAs test request.1.share request.2.visibility
  return { test with
    visibility
    title := request.2.title.getD test.title
    description := request.2.description.or test.description
    tags := request.2.tags.getD test.tags }

theorem unlocked_testWrite (test : Test) (request : Context × TestUpdate) :
    Unlocked (testWrite test request) := by
  refine raises_bind ?_ (fun _ => raises_ok _)
  unfold sharedAs
  split
  · exact raises_ok _
  · split
    · exact raises_ok _
    · exact raises_map (unlocked_required _ _)

def mergeTest (loaded mine stored : Test) : Test where
  title := merged loaded.title mine.title stored.title
  description := merged loaded.description mine.description stored.description
  tags := merged loaded.tags mine.tags stored.tags
  visibility := merged loaded.visibility mine.visibility stored.visibility

def testLock : Lock Test String (Context × TestUpdate) Raised :=
  lockOf _ tagChar_testEtag updateTest testGate testWrite mergeTest (fun _ _ _ => rfl)
    (fun test request => ne_stale_of_unlocked (unlocked_testWrite test request))
    (by simp [mergeTest])

/-! ## The versions -/

def versionGate (tv : TestVersionDraft) (request : Context × TestVersionUpdate) :
    Except Raised Unit := do
  required "Test version not found." request.1.access
  mutable tv.status

def versionWrite (tv : TestVersionDraft) (request : Context × TestVersionUpdate) :
    Except Raised TestVersionDraft := do
  let bandMapVersionId ← resolved "Band map version not found." request.1.bandMaps
    tv.bandMapVersionId request.2.bandMapVersionXid
  return { tv with
    title := request.2.title.getD tv.title
    config := request.2.config.getD tv.config
    bandMapVersionId }

theorem unlocked_versionWrite (tv : TestVersionDraft) (request : Context × TestVersionUpdate) :
    Unlocked (versionWrite tv request) :=
  raises_bind (unlocked_resolved _ _ _ _) (fun _ => raises_ok _)

def mergeVersion (loaded mine stored : TestVersionDraft) : TestVersionDraft where
  versionNo := merged loaded.versionNo mine.versionNo stored.versionNo
  checksum := merged loaded.checksum mine.checksum stored.checksum
  status := merged loaded.status mine.status stored.status
  title := merged loaded.title mine.title stored.title
  config := merged loaded.config mine.config stored.config
  bandMapVersionId := merged loaded.bandMapVersionId mine.bandMapVersionId stored.bandMapVersionId

def versionLock : Lock TestVersionDraft String (Context × TestVersionUpdate) Raised :=
  versionLockOf (fun d => (d.versionNo, d.checksum)) updateVersion versionGate versionWrite mergeVersion
    (fun _ _ _ => by simp only [updateVersion, versionGate, bind_assoc]; rfl)
    (fun d r => ne_stale_of_unlocked (unlocked_versionWrite d r))
    (by simp [mergeVersion])

theorem pinned_versionLock : Pinned versionLock (fun d => (d.versionNo, d.checksum)) := by
  refine pinned_versionLockOf ?_ (fun _ _ _ => rfl)
  · intro d r mine h
    obtain ⟨_, _, h⟩ := bind_eq_ok.1 h
    cases h
    rfl

def passageGate (pv : PassageVersionDraft) (request : Context × PassageVersionUpdate) :
    Except Raised Unit := do
  required "Passage version not found." request.1.access
  unpublished "passage" pv.status

def passageWrite (pv : PassageVersionDraft) (request : Context × PassageVersionUpdate) :
    Except Raised PassageVersionDraft :=
  withBlocks { pv with title := request.2.title.getD pv.title } request.2.blocks

theorem unlocked_countWords (blocks : List Obj) : Unlocked (countWords blocks) := by
  refine raises_bind (raises_mapM (fun block => ?_)) (fun _ => raises_ok _)
  refine raises_bind (unlocked_iter _) (fun runs => ?_)
  refine raises_bind (raises_mapM (fun run => ?_)) (fun _ => raises_ok _)
  exact raises_bind (unlocked_dictMethod run) (fun _ => raises_ok _)

theorem unlocked_passageWrite (pv : PassageVersionDraft) (request : Context × PassageVersionUpdate) :
    Unlocked (passageWrite pv request) := by
  unfold passageWrite withBlocks
  split
  · exact raises_ok _
  · exact raises_bind (unlocked_countWords _) (fun _ => raises_ok _)

def mergePassage (loaded mine stored : PassageVersionDraft) : PassageVersionDraft where
  versionNo := merged loaded.versionNo mine.versionNo stored.versionNo
  checksum := merged loaded.checksum mine.checksum stored.checksum
  status := merged loaded.status mine.status stored.status
  title := merged loaded.title mine.title stored.title
  blocks := merged loaded.blocks mine.blocks stored.blocks
  paragraphLabels := merged loaded.paragraphLabels mine.paragraphLabels stored.paragraphLabels
  wordCount := merged loaded.wordCount mine.wordCount stored.wordCount

def passageLock : Lock PassageVersionDraft String (Context × PassageVersionUpdate) Raised :=
  versionLockOf (fun d => (d.versionNo, some d.checksum)) updatePassageVersion passageGate passageWrite mergePassage
    (fun _ _ _ => by simp only [updatePassageVersion, passageGate, bind_assoc]; rfl)
    (fun d r => ne_stale_of_unlocked (unlocked_passageWrite d r))
    (by simp [mergePassage])

theorem pinned_passageLock : Pinned passageLock (fun d => (d.versionNo, some d.checksum)) := by
  refine pinned_versionLockOf ?_ (fun _ _ _ => Prod.ext rfl (merged_some _ _ _).symm)
  · intro d r mine h
    unfold passageWrite withBlocks at h
    split at h
    · cases h
      rfl
    · obtain ⟨_, _, h⟩ := bind_eq_ok.1 h
      cases h
      rfl

def questionGate (qv : QuestionVersionDraft) (request : Context × QuestionVersionUpdate) :
    Except Raised Unit := do
  required "Question version not found." request.1.access
  unpublished "question" qv.status

def questionWrite (qv : QuestionVersionDraft) (request : Context × QuestionVersionUpdate) :
    Except Raised QuestionVersionDraft :=
  withPayload { qv with points := request.2.points.getD qv.points } request.2.payload

theorem unlocked_slotsFrom (payload : Obj) : Unlocked (slotsFrom payload) := by
  unfold slotsFrom
  dsimp only
  split
  · refine raises_bind (unlocked_iter _) (fun listed => raises_mapM (fun entry => ?_))
    split
    · exact raises_ok _
    · exact raises_error (by simp [stale])
  · exact raises_ok _

theorem unlocked_questionWrite (qv : QuestionVersionDraft)
    (request : Context × QuestionVersionUpdate) : Unlocked (questionWrite qv request) := by
  unfold questionWrite withPayload
  split
  · exact raises_ok _
  · exact raises_bind (unlocked_slotsFrom _) (fun _ => raises_ok _)

def mergeQuestion (loaded mine stored : QuestionVersionDraft) : QuestionVersionDraft where
  versionNo := merged loaded.versionNo mine.versionNo stored.versionNo
  checksum := merged loaded.checksum mine.checksum stored.checksum
  status := merged loaded.status mine.status stored.status
  payload := merged loaded.payload mine.payload stored.payload
  slotKeys := merged loaded.slotKeys mine.slotKeys stored.slotKeys
  points := merged loaded.points mine.points stored.points

def questionLock : Lock QuestionVersionDraft String (Context × QuestionVersionUpdate) Raised :=
  versionLockOf (fun d => (d.versionNo, some d.checksum)) updateQuestionVersion questionGate questionWrite mergeQuestion
    (fun _ _ _ => by simp only [updateQuestionVersion, questionGate, bind_assoc]; rfl)
    (fun d r => ne_stale_of_unlocked (unlocked_questionWrite d r))
    (by simp [mergeQuestion])

theorem pinned_questionLock : Pinned questionLock (fun d => (d.versionNo, some d.checksum)) := by
  refine pinned_versionLockOf ?_ (fun _ _ _ => Prod.ext rfl (merged_some _ _ _).symm)
  · intro d r mine h
    unfold questionWrite withPayload at h
    split at h
    · cases h
      rfl
    · obtain ⟨_, _, h⟩ := bind_eq_ok.1 h
      cases h
      rfl

def groupGate (gv : GroupVersionDraft) (request : Context × GroupVersionUpdate) :
    Except Raised Unit := do
  required "Question group version not found." request.1.access
  unpublished "group" gv.status

def groupWrite (gv : GroupVersionDraft) (request : Context × GroupVersionUpdate) :
    Except Raised GroupVersionDraft := do
  let diagramMediaId ← resolved "Media asset not found." request.1.media gv.diagramMediaId
    request.2.diagramMediaXid
  return { gv with
    instructions := request.2.instructions.getD gv.instructions
    wordLimit := request.2.wordLimit.or gv.wordLimit
    optionBank := request.2.optionBank.or gv.optionBank
    diagramMediaId
    hotspots := request.2.hotspots.or gv.hotspots }

theorem unlocked_groupWrite (gv : GroupVersionDraft) (request : Context × GroupVersionUpdate) :
    Unlocked (groupWrite gv request) :=
  raises_bind (unlocked_resolved _ _ _ _) (fun _ => raises_ok _)

def mergeGroup (loaded mine stored : GroupVersionDraft) : GroupVersionDraft where
  versionNo := merged loaded.versionNo mine.versionNo stored.versionNo
  checksum := merged loaded.checksum mine.checksum stored.checksum
  status := merged loaded.status mine.status stored.status
  instructions := merged loaded.instructions mine.instructions stored.instructions
  wordLimit := merged loaded.wordLimit mine.wordLimit stored.wordLimit
  optionBank := merged loaded.optionBank mine.optionBank stored.optionBank
  diagramMediaId := merged loaded.diagramMediaId mine.diagramMediaId stored.diagramMediaId
  hotspots := merged loaded.hotspots mine.hotspots stored.hotspots

def groupLock : Lock GroupVersionDraft String (Context × GroupVersionUpdate) Raised :=
  versionLockOf (fun d => (d.versionNo, some d.checksum)) updateGroupVersion groupGate groupWrite mergeGroup
    (fun _ _ _ => by simp only [updateGroupVersion, groupGate, bind_assoc]; rfl)
    (fun d r => ne_stale_of_unlocked (unlocked_groupWrite d r))
    (by simp [mergeGroup])

theorem pinned_groupLock : Pinned groupLock (fun d => (d.versionNo, some d.checksum)) := by
  refine pinned_versionLockOf ?_ (fun _ _ _ => Prod.ext rfl (merged_some _ _ _).symm)
  · intro d r mine h
    obtain ⟨_, _, h⟩ := bind_eq_ok.1 h
    cases h
    rfl

/-! ## The five kinds of draft -/

inductive Kind where
  | test | testVersion | passageVersion | questionVersion | groupVersion
  deriving DecidableEq, Repr

def Draft : Kind → Type
  | .test => Test
  | .testVersion => TestVersionDraft
  | .passageVersion => PassageVersionDraft
  | .questionVersion => QuestionVersionDraft
  | .groupVersion => GroupVersionDraft

def Edit : Kind → Type
  | .test => TestUpdate
  | .testVersion => TestVersionUpdate
  | .passageVersion => PassageVersionUpdate
  | .questionVersion => QuestionVersionUpdate
  | .groupVersion => GroupVersionUpdate

def lock : (kind : Kind) → Lock (Draft kind) String (Context × Edit kind) Raised
  | .test => testLock
  | .testVersion => versionLock
  | .passageVersion => passageLock
  | .questionVersion => questionLock
  | .groupVersion => groupLock

/-- The lock's promise along a run of editors over one draft. -/
def Kept (kind : Kind) (draft : Draft kind) (acts : List (Act (Context × Edit kind))) : Prop :=
  Along (lock kind) (Honoured (lock kind)) { stored := draft } acts

/-- What the lock of a kind needs of an act. Over a test, that a reading which is no longer what is
stored differs from it in its digest; over a version, that there is no such reading. -/
def Needs : (kind : Kind) → State (Draft kind) String → Act (Context × Edit kind) → Prop
  | .test => Meets testLock
  | .testVersion => Unmoved versionLock
  | .passageVersion => Unmoved passageLock
  | .questionVersion => Unmoved questionLock
  | .groupVersion => Unmoved groupLock

theorem kept_iff (kind : Kind) (draft : Draft kind) (acts : List (Act (Context × Edit kind))) :
    Kept kind draft acts ↔ Along (lock kind) (Needs kind) { stored := draft } acts := by
  cases kind with
  | test => exact along_honoured_iff (entries_start draft) acts
  | testVersion => exact along_honoured_iff_unmoved pinned_versionLock draft acts
  | passageVersion => exact along_honoured_iff_unmoved pinned_passageLock draft acts
  | questionVersion => exact along_honoured_iff_unmoved pinned_questionLock draft acts
  | groupVersion => exact along_honoured_iff_unmoved pinned_groupLock draft acts

/-! ## Two editors of one question -/

def firstEdit : Context × QuestionVersionUpdate := ({}, { points := some 2 })

def secondEdit : Context × QuestionVersionUpdate := ({}, { points := some 3 })

def afterFirst : State QuestionVersionDraft String :=
  [.read 0, .read 1, .send 0 firstEdit, .commit 0].foldl (act questionLock) { stored := {} }

/-- The second edit is let through over a reading that is gone, and the first is lost. -/
theorem second_editor_wins : ¬ Kept .questionVersion ({} : QuestionVersionDraft)
    [.read 0, .read 1, .send 0 firstEdit, .commit 0, .send 1 secondEdit, .commit 1] := by
  intro h
  obtain ⟨-, -, -, -, hsend, -⟩ := h
  change Honoured questionLock afterFirst (.send 1 secondEdit) at hsend
  have hstored : afterFirst.stored = { points := 2 } := by decide +kernel
  have hkept : afterFirst.kept 1 = some ({}, questionLock.tag {}) := by decide +kernel
  have hidle : (afterFirst.pending 1).isNone = true := by decide +kernel
  have hrefused := ((hsend _ _ hkept (Option.isNone_iff_eq_none.1 hidle)).1
    (by rw [hstored]; decide)).2 (by rw [hstored]; rfl)
  have hlet : questionLock.patch afterFirst.stored (some (questionLock.tag {})) secondEdit =
      .ok { points := 3 } := by
    rw [hstored]
    exact (patch_of_tag rfl).trans rfl
  rw [hlet] at hrefused
  cases hrefused

end IeltsHub.DraftLocks
