import IeltsHub.QtypesPrimitives

set_option autoImplicit false

/-!
# The question-type registry and the scorer

Definitions are keyed by `(key, version)` and never replaced. The JSON Schema library is a
parameter: the errors it finds in a value, and the one it calls best, which is none when there
are none.
-/
namespace IeltsHub.QtypesRegistry
open PyValue PyDict PlatformErrors QtypesSchemas QtypesLexicon QtypesNormalizers QtypesPrimitives

/-- A step from a document to a part of it: a member or an index. -/
inductive PathPart where
  | key (name : String)
  | index (i : ℕ)
  deriving DecidableEq

def PathPart.text : PathPart → String
  | .key name => name
  | .index i => toString i

structure SchemaError where
  path : List PathPart := []
  message : String
  deriving DecidableEq

structure Validator where
  iterErrors : (schema value : Json) → List SchemaError
  bestMatch : List SchemaError → Option SchemaError
  bestMatch_eq_none : ∀ errors, bestMatch errors = none ↔ errors = []

structure Registry where
  defs : Dict (String × ℤ) QuestionTypeDef

namespace Registry

def empty : Registry := ⟨Dict.empty⟩

def register (r : Registry) (d : QuestionTypeDef) : Except Raised Registry :=
  match r.defs.get? (d.key, d.version) with
  | some _ => .error (.domain (.registryError
      (d.ref ++ " already registered; bump the version instead")))
  | none => .ok ⟨r.defs.put (d.key, d.version) d⟩

def ofDefs (defs : List QuestionTypeDef) : Except Raised Registry := defs.foldlM register empty

def get (r : Registry) (key : String) (version : ℤ) : Except Raised QuestionTypeDef :=
  match r.defs.get? (key, version) with
  | some d => .ok d
  | none => .error (.domain (.registryError
      ("question type " ++ key ++ "@v" ++ toString version ++ " is not registered")))

/-- Check one slot's answer against the type: why it is invalid, or nothing. -/
def validateResponse (r : Registry) (validator : Validator) (key : String) (version : ℤ)
    (value : Json) : Except Raised (Option String) := do
  if value = .null then return none
  let definition ← r.get key version
  match ← definition.slotResponseSchema with
  | none => return some (definition.ref ++
      " does not declare a per-slot response shape, so an answer for it cannot be checked.")
  | some schema =>
    return (validator.bestMatch (validator.iterErrors schema value)).map SchemaError.message

end Registry

structure ScoreRequest where
  typeKey : String
  typeVersion : ℤ
  payload : Obj
  key : Obj
  response : Json
  group : GroupRules := {}
  tolerance : Obj := Dict.empty
  paragraphLabels : List String := []

/-- Registry, lexicon, and the nested calls the process's recursion limit leaves a parser. -/
structure Scorer where
  registry : Registry
  lexicon : Lexicon
  frames : ℕ
  engineVersion : String := "1.0.0"

namespace Scorer

def validateResponse (s : Scorer) (validator : Validator) (key : String) (version : ℤ)
    (value : Json) : Except Raised (Option String) :=
  s.registry.validateResponse validator key version value

def pipeline (s : Scorer) (spec : ScoringSpec) (tolerance : Obj) : Except Raised Pipeline :=
  let names := getD tolerance "normalizers" .null
  if truthy names then iter names >>= fun es => Pipeline.ofNames es s.lexicon s.frames
  else Pipeline.ofNames (spec.normalizers.map (fun n => .str n.name)) s.lexicon s.frames

def groupRules (group : GroupRules) (tolerance : Obj) : Except Raised GroupRules :=
  let limit := getD tolerance "word_limit" .null
  if truthy limit then (fun l => { group with wordLimit := l }) <$> WordLimit.fromDict limit
  else pure group

def context (s : Scorer) (definition : QuestionTypeDef) (req : ScoreRequest) :
    Except Raised ScoringContext := do
  let pipeline ← s.pipeline definition.scoring req.tolerance
  let group ← groupRules req.group req.tolerance
  return { payload := req.payload, group, spec := definition.scoring, pipeline
           tolerance := req.tolerance, paragraphLabels := req.paragraphLabels }

def scoreItem (s : Scorer) (req : ScoreRequest) : Except Raised ItemScore := do
  let definition ← s.registry.get req.typeKey req.typeVersion
  let ctx ← s.context definition req
  primitives definition.scoring.primitive req.response req.key ctx

end Scorer

end IeltsHub.QtypesRegistry
