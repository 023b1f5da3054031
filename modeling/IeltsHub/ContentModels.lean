import IeltsHub.PyTime
import IeltsHub.RowTable
import IeltsHub.QtypesSchemas

set_option autoImplicit false

/-!
# The content tables the exam reads

One structure for each row type, with the columns the exam module uses.
-/
namespace IeltsHub.ContentModels
open PyValue PyDict RowTable

inductive VersionStatus where
  | draft | inReview | published | archived
  deriving DecidableEq, Repr

structure TestVersion where
  id : ℕ
  xid : String
  status : VersionStatus := .published
  config : Obj := Dict.empty
  bandMapVersionId : Option ℕ := none
  snapshot : Option Json := none
  deriving DecidableEq

structure TestVersionSection where
  id : ℕ
  testVersionId : ℕ
  position : ℤ := 1
  skill : String := "reading"
  audioTrackId : Option ℕ := none
  timeLimitSeconds : Option ℤ := none
  playOnce : Bool := true
  deriving DecidableEq

structure TestVersionGroup where
  id : ℕ
  sectionId : ℕ
  groupVersionId : ℕ
  position : ℤ := 1
  deriving DecidableEq

structure QuestionGroupVersion where
  id : ℕ
  wordLimit : Json := .null
  optionBank : Json := .null
  display : Obj := Dict.empty
  deriving DecidableEq

structure QuestionGroupItem where
  id : ℕ
  groupVersionId : ℕ
  questionVersionId : ℕ
  position : ℤ := 1
  deriving DecidableEq

structure Question where
  id : ℕ
  xid : String := ""
  deriving DecidableEq

structure QuestionVersion where
  id : ℕ
  xid : String
  questionId : ℕ
  typeKey : String
  typeVersion : ℤ := 1
  payload : Obj := Dict.empty
  slotKeys : List String := []
  deriving DecidableEq

structure AnswerKeyVersion where
  id : ℕ
  questionVersionId : ℕ
  key : Obj := Dict.empty
  tolerance : Obj := Dict.empty
  isCurrent : Bool := true
  deriving DecidableEq

structure BandMapVersion where
  id : ℕ
  mapping : List Json := []
  maxRaw : ℤ := 40
  deriving DecidableEq

structure AudioTrack where
  id : ℕ
  masterMediaId : Option ℕ := none
  deliveryMediaId : Option ℕ := none
  deriving DecidableEq

structure MediaAsset where
  id : ℕ
  xid : String
  deriving DecidableEq

/-- The tables, with the two unique indexes the exam relies on: the public id of a question
version, and its one current key. -/
structure ContentStore where
  testVersions : Table TestVersion ℕ TestVersion.id := .empty
  sections : Table TestVersionSection ℕ TestVersionSection.id := .empty
  groups : Table TestVersionGroup ℕ TestVersionGroup.id := .empty
  groupVersions : Table QuestionGroupVersion ℕ QuestionGroupVersion.id := .empty
  groupItems : Table QuestionGroupItem ℕ QuestionGroupItem.id := .empty
  questions : Table Question ℕ Question.id := .empty
  questionVersions : Table QuestionVersion ℕ QuestionVersion.id := .empty
  answerKeys : Table AnswerKeyVersion ℕ AnswerKeyVersion.id := .empty
  bandMaps : Table BandMapVersion ℕ BandMapVersion.id := .empty
  audioTracks : Table AudioTrack ℕ AudioTrack.id := .empty
  mediaAssets : Table MediaAsset ℕ MediaAsset.id := .empty
  versionXids : (questionVersions.rows.map QuestionVersion.xid).Nodup := by decide
  currentKeys : ((answerKeys.select AnswerKeyVersion.isCurrent).map
    AnswerKeyVersion.questionVersionId).Nodup := by decide

end IeltsHub.ContentModels
