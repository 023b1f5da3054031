import IeltsHub.ContentComposition
import IeltsHub.PyJson
import IeltsHub.Sha256

set_option autoImplicit false

/-!
# The whole composition, its fingerprint and its snapshot

The tree `load_composition` assembles, with every field it has; its `core` is what the publish gate
reads. `fingerprint` is the digest an approval is bound to, `buildSnapshot` the document a student
is served.
-/
namespace IeltsHub.ContentFingerprint
open PyDict PyValue PyJson ContentComposition

structure Question extends QuestionNode where
  points : ℚ := 1
  deriving DecidableEq

structure Group where
  xid : String
  numberStart : ℤ
  questions : List Question
  instructions : Obj := Dict.empty
  wordLimit : Json := .null
  optionBank : List Json := []
  uniqueOptions : Json := .null
  diagramMedia : Option MediaRef := none
  hotspots : List Json := []
  audioStartMs : Option ℤ := none
  audioEndMs : Option ℤ := none

structure Passage extends PassageRef where
  blocks : List Json := []

structure Section where
  position : ℤ
  skill : String
  title : String
  groups : List Group
  passage : Option Passage := none
  audio : Option MediaRef := none
  timeLimitSeconds : Option ℤ := none
  declaredQuestionCount : Option ℤ := none
  playOnce : Bool := true

def Group.core (g : Group) : GroupNode where
  xid := g.xid
  numberStart := g.numberStart
  questions := g.questions.map Question.toQuestionNode
  wordLimit := g.wordLimit
  optionBank := g.optionBank
  uniqueOptions := g.uniqueOptions
  diagramMedia := g.diagramMedia
  hotspots := g.hotspots
  audioEndMs := g.audioEndMs

def Section.core (s : Section) : SectionNode where
  position := s.position
  skill := s.skill
  title := s.title
  groups := s.groups.map Group.core
  passage := s.passage.map Passage.toPassageRef
  audio := s.audio
  timeLimitSeconds := s.timeLimitSeconds
  declaredQuestionCount := s.declaredQuestionCount

structure Composition where
  xid : String
  title : String
  sections : List Section
  bandMap : Option BandMapRef := none
  coherent : ∀ p ∈ questionsOf (sections.map Section.core),
    ∀ p' ∈ questionsOf (sections.map Section.core), p.2.2.xid = p'.2.2.xid → p.2.2 = p'.2.2

def Composition.core (c : Composition) : TestComposition where
  xid := c.xid
  title := c.title
  sections := c.sections.map Section.core
  bandMap := c.bandMap
  coherent := c.coherent

/-! ## The fingerprint -/

def objJson (d : Obj) : Json := .obj d.entries

def optional {α : Type} (f : α → Json) : Option α → Json
  | some a => f a
  | none => .null

def texts (l : List String) : Json := .arr (l.map .str)

def MediaRef.asdict (m : MediaRef) : Json := .obj [
  ("xid", .str m.xid), ("status", .str m.status), ("duration_ms", optional .int m.durationMs),
  ("has_attestation", .bool m.hasAttestation), ("under_takedown", .bool m.underTakedown)]

def Passage.asdict (p : Passage) : Json := .obj [
  ("xid", .str p.xid), ("title", .str p.title), ("paragraph_labels", texts p.paragraphLabels),
  ("blocks", .arr p.blocks), ("has_attestation", .bool p.hasAttestation),
  ("under_takedown", .bool p.underTakedown)]

def BandMapRef.asdict (m : BandMapRef) : Json := .obj [
  ("xid", .str m.xid), ("max_raw", .int m.maxRaw), ("mapping", .arr m.mapping)]

def Question.asdict (q : Question) : Json := .obj [
  ("xid", .str q.xid), ("type_key", .str q.typeKey), ("type_version", .int q.typeVersion),
  ("payload", objJson q.payload), ("slot_keys", texts q.slotKeys), ("points", .real q.points),
  ("key", optional objJson q.key), ("key_version_xid", optional .str q.keyVersionXid),
  ("tolerance", objJson q.tolerance)]

def Group.asdict (g : Group) : Json := .obj [
  ("xid", .str g.xid), ("number_start", .int g.numberStart),
  ("questions", .arr (g.questions.map Question.asdict)), ("instructions", objJson g.instructions),
  ("word_limit", g.wordLimit), ("option_bank", .arr g.optionBank),
  ("unique_options", g.uniqueOptions), ("diagram_media", optional MediaRef.asdict g.diagramMedia),
  ("hotspots", .arr g.hotspots), ("audio_start_ms", optional .int g.audioStartMs),
  ("audio_end_ms", optional .int g.audioEndMs)]

def Section.asdict (s : Section) : Json := .obj [
  ("position", .int s.position), ("skill", .str s.skill), ("title", .str s.title),
  ("groups", .arr (s.groups.map Group.asdict)), ("passage", optional Passage.asdict s.passage),
  ("audio", optional MediaRef.asdict s.audio),
  ("time_limit_seconds", optional .int s.timeLimitSeconds),
  ("declared_question_count", optional .int s.declaredQuestionCount),
  ("play_once", .bool s.playOnce)]

/-- `dataclasses.asdict(composition)`. -/
def Composition.asdict (c : Composition) : Json := .obj [
  ("xid", .str c.xid), ("title", .str c.title), ("sections", .arr (c.sections.map Section.asdict)),
  ("band_map", optional BandMapRef.asdict c.bandMap)]

def fingerprint (c : Composition) : String := Sha256.ofText (dumps compactSorted c.asdict)

/-! ## The snapshot -/

def questionEntry (number : ℕ) (q : Question) : Json := .obj [
  ("number", .int number), ("question_version_xid", .str q.xid), ("type_key", .str q.typeKey),
  ("type_version", .int q.typeVersion), ("payload", objJson q.payload),
  ("slot_keys", texts q.slotKeys)]

def questionEntries : ℕ → List Question → List Json
  | _, [] => []
  | number, q :: qs => questionEntry number q :: questionEntries (number + q.slotKeys.length) qs

def slotCount (g : Group) : ℕ := (g.questions.map (fun q => q.slotKeys.length)).sum

def groupEntry (number : ℕ) (g : Group) : Json := .obj [
  ("number_start", .int g.numberStart), ("instructions", objJson g.instructions),
  ("word_limit", g.wordLimit), ("option_bank", .arr g.optionBank),
  ("diagram_media_xid", optional (fun m => .str m.xid) g.diagramMedia),
  ("hotspots", .arr g.hotspots), ("audio_start_ms", optional .int g.audioStartMs),
  ("audio_end_ms", optional .int g.audioEndMs),
  ("questions", .arr (questionEntries number g.questions))]

def groupEntries : ℕ → List Group → List Json
  | _, [] => []
  | number, g :: gs => groupEntry number g :: groupEntries (number + slotCount g) gs

def passageEntry (p : Passage) : Json := .obj [
  ("title", .str p.title), ("blocks", .arr p.blocks), ("paragraph_labels", texts p.paragraphLabels)]

def audioEntry (playOnce : Bool) (m : MediaRef) : Json := .obj [
  ("track_xid", .str m.xid), ("duration_ms", optional .int m.durationMs),
  ("play_once", .bool playOnce)]

def sectionEntry (number : ℕ) (s : Section) : Json := .obj [
  ("position", .int s.position), ("skill", .str s.skill), ("title", .str s.title),
  ("time_limit_seconds", optional .int s.timeLimitSeconds),
  ("passage", optional passageEntry s.passage),
  ("audio", optional (audioEntry s.playOnce) s.audio),
  ("groups", .arr (groupEntries number s.groups))]

def sectionEntries : ℕ → List Section → List Json
  | _, [] => []
  | number, s :: ss =>
    sectionEntry number s :: sectionEntries (number + (s.groups.map slotCount).sum) ss

def Composition.totalSlots (c : Composition) : ℕ := c.core.totalSlots

def buildSnapshot (c : Composition) : Json := .obj [
  ("test_version_xid", .str c.xid), ("title", .str c.title),
  ("total_questions", .int c.totalSlots), ("sections", .arr (sectionEntries 1 c.sections))]

/-! ## What students see and how they are marked -/

/-- How a question is marked: its current key and the key's tolerance. -/
structure Marking where
  question : String
  key : Option Obj
  tolerance : Obj

structure Seen where
  snapshot : Json
  marking : List Marking
  /-- Word limit, option bank and the rule of unique options, for each group. -/
  rules : List (Json × List Json × Json)
  bandMap : Option BandMapRef
  sectionLimits : List (Option ℤ)

def seen (c : Composition) : Seen where
  snapshot := buildSnapshot c
  marking := c.core.questions.map (fun p => ⟨p.2.2.xid, p.2.2.key, p.2.2.tolerance⟩)
  rules := c.sections.flatMap (fun s =>
    s.groups.map (fun g => (g.wordLimit, g.optionBank, g.uniqueOptions)))
  bandMap := c.bandMap
  sectionLimits := c.sections.map Section.timeLimitSeconds

/-- `(tv.config or {}).get("time_limit_seconds")`. -/
def testLimit (config : Obj) : Json := getD config "time_limit_seconds" .null

end IeltsHub.ContentFingerprint
