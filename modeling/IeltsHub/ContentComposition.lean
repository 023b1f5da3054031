import IeltsHub.ExamScoring

set_option autoImplicit false

/-!
# The composition tree the publish gate reads

Value objects rather than rows. A composition is read from one version of a test, so two nodes
with one `xid` are the same question version; `coherent` carries that.
-/
namespace IeltsHub.ContentComposition
open PyValue PyDict PlatformErrors QtypesSchemas ExamScoring

structure MediaRef where
  xid : String
  status : String := "ready"
  durationMs : Option ℤ := none
  hasAttestation : Bool := true
  underTakedown : Bool := false

structure PassageRef where
  xid : String
  title : String
  paragraphLabels : List String := []
  hasAttestation : Bool := true
  underTakedown : Bool := false

structure BandMapRef where
  xid : String
  maxRaw : ℤ
  mapping : List Json := []

structure QuestionNode where
  xid : String
  typeKey : String
  typeVersion : ℤ
  payload : Obj
  slotKeys : List String
  key : Option Obj := none
  keyVersionXid : Option String := none
  tolerance : Obj := Dict.empty
  deriving DecidableEq

structure GroupNode where
  xid : String
  numberStart : ℤ
  questions : List QuestionNode
  wordLimit : Json := .null
  optionBank : List Json := []
  uniqueOptions : Json := .null
  diagramMedia : Option MediaRef := none
  hotspots : List Json := []
  audioEndMs : Option ℤ := none

structure SectionNode where
  position : ℤ
  skill : String
  title : String
  groups : List GroupNode
  passage : Option PassageRef := none
  audio : Option MediaRef := none
  timeLimitSeconds : Option ℤ := none
  declaredQuestionCount : Option ℤ := none

def questionsOf (sections : List SectionNode) : List (SectionNode × GroupNode × QuestionNode) :=
  sections.flatMap (fun s => s.groups.flatMap (fun g => g.questions.map (fun q => (s, g, q))))

structure TestComposition where
  xid : String
  title : String
  sections : List SectionNode
  bandMap : Option BandMapRef := none
  coherent : ∀ p ∈ questionsOf sections, ∀ p' ∈ questionsOf sections,
    p.2.2.xid = p'.2.2.xid → p.2.2 = p'.2.2

namespace TestComposition

def questions (c : TestComposition) : List (SectionNode × GroupNode × QuestionNode) :=
  questionsOf c.sections

def totalSlots (c : TestComposition) : ℕ := (c.questions.map (fun p => p.2.2.slotKeys.length)).sum

end TestComposition

/-! ## The paper as the scorer receives it -/

def GroupNode.rules (g : GroupNode) : Except Raised GroupRules :=
  GroupRules.fromDict (Dict.ofList
    [("word_limit", g.wordLimit), ("option_bank", .arr g.optionBank),
      ("unique_options", g.uniqueOptions)])

def itemOf (p : SectionNode × GroupNode × QuestionNode) : Except Raised ItemInput :=
  (fun group =>
    { questionXid := p.2.2.xid
      questionVersionXid := p.2.2.xid
      typeKey := p.2.2.typeKey
      typeVersion := p.2.2.typeVersion
      payload := p.2.2.payload
      slotKeys := p.2.2.slotKeys
      skill := p.1.skill
      group }) <$> p.2.1.rules

def QuestionNode.keyVersion (q : QuestionNode) : Option KeyVersion :=
  q.key.map (fun key =>
    { xid := q.keyVersionXid.getD "", key, tolerance := q.tolerance })

def TestComposition.keys (c : TestComposition) : Dict String KeyVersion :=
  Dict.ofList (c.questions.filterMap (fun p => p.2.2.keyVersion.map (fun k => (p.2.2.xid, k))))

def bandRow (row : Json) : Except Raised (ℤ × ℤ × ℚ) := do
  let lo ← pyInt (← subscript row "raw_min")
  let hi ← pyInt (← subscript row "raw_max")
  let band ← decimal (← subscript row "band")
  return (lo, hi, band)

def BandMapRef.toBandMap (m : BandMapRef) : Except Raised BandMap :=
  (fun rows => { xid := m.xid, maxRaw := m.maxRaw, rows }) <$> m.mapping.mapM bandRow

end IeltsHub.ContentComposition
