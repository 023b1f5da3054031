import IeltsHub.QtypesWordlimit

set_option autoImplicit false

/-!
# The three scoring primitives

Each reads the key and the response as JSON, slot by slot, and grades what it read. What can
raise is kept apart from what cannot: the reading of a slot is a raising computation, the grading
of a choice or a selection is a function of what was read.
-/
namespace IeltsHub.QtypesPrimitives
open PyText PyValue PyDict PlatformErrors QtypesSchemas QtypesNormalizers QtypesWordlimit

/-- Everything a primitive needs that is not the response or the key. -/
structure ScoringContext where
  payload : Obj
  group : GroupRules
  spec : ScoringSpec
  pipeline : Pipeline
  tolerance : Obj
  paragraphLabels : List String := []

def pointsPerSlot (spec : ScoringSpec) : Except Raised ℚ :=
  decimal (getD spec.options "points_per_slot" (.int 1))

def responseSlots (response : Json) : Json :=
  match (asDict response).bind (fun d => d.get? "slots") with
  | some slots => if truthy slots then slots else .obj []
  | none => .obj []

/-- Did the student put anything in this slot at all; blind to the primitive. -/
def hasResponse : Json → Bool
  | .null => false
  | .str s => !(strip s).isEmpty
  | .arr es => !es.isEmpty
  | .obj ms => !ms.isEmpty
  | _ => true

def asText : Json → Option String
  | .null | .arr _ | .obj _ => none
  | v => if strip (pyStr v) = "" then none else some (pyStr v)

def optionSource (spec : ScoringSpec) : Json :=
  getD spec.options "option_source" (.str "payload.options")

def optionsOf (listed : Json) : Except Raised (List BankOption) := do
  (← iter listed).mapM optionOf

def resolveOptions (ctx : ScoringContext) : Except Raised (List BankOption) :=
  let source := optionSource ctx.spec
  if source = .str "payload.options" then optionsOf (getOr ctx.payload "options" (.arr []))
  else if source = .str "group.option_bank" then .ok ctx.group.optionBank
  else if source = .str "fixed" then optionsOf (getOr ctx.spec.options "fixed_options" (.arr []))
  else if source = .str "section.passage_version.paragraph_labels" then
    .ok (ctx.paragraphLabels.map (fun label => ⟨label, ""⟩))
  else .error .valueError

def keySlots (key : Obj) : Except Raised (List (String × Json)) :=
  Dict.entries <$> dictMethod (getOr key "slots" (.obj []))

def submittedText (submitted : Json) (slotKey : String) : Except Raised (Option String) :=
  (fun d => asText (getD d slotKey .null)) <$> dictMethod submitted

/-- `[str(a) for a in spec.get("accept", [])]`. -/
def acceptedOf (spec : Obj) : Except Raised (List String) :=
  List.map pyStr <$> iter (getD spec "accept" (.arr []))

def texts (l : List String) : Json := .arr (l.map .str)

/-! ## Aggregation -/

/-- `all_or_nothing` collapses the item to full marks or none, carried by its first slot. -/
def aggregate (score : ItemScore) (spec : ScoringSpec) : ItemScore :=
  if getD spec.options "aggregate" (.str "per_slot") = .str "all_or_nothing" then
    let allCorrect := score.slots.all (fun s => s.verdict = .correct)
    ⟨score.slots.mapIdx (fun i s =>
      { s with
        awarded := if i = 0 ∧ allCorrect then score.maxPoints else 0
        maxPoints := if i = 0 then score.maxPoints else 0
        verdict := if allCorrect then .correct else s.verdict
        explain := s.explain.put "aggregate" (.str "all_or_nothing") })⟩
  else score

/-! ## choice_per_slot -/

def folded (s : String) : String := casefold (strip s)

def gradeChoice (spec : ScoringSpec) (options : List BankOption) (perSlot : ℚ)
    (slotKey : String) (raw : Option String) (accepted : List String) : SlotScore :=
  let explain : Obj := Dict.ofList
    [("primitive", .str "choice_per_slot"), ("option_source", optionSource spec),
      ("option_count", .int options.length), ("accepted", texts accepted)]
  match raw with
  | none =>
    { slotKey, awarded := 0, maxPoints := perSlot, verdict := .unanswered, explain }
  | some raw =>
    let normalized := folded raw
    let explain := explain.put "normalized_response" (.str normalized)
    let validIds := options.map (fun o => casefold o.id)
    if !validIds.isEmpty && !validIds.contains normalized then
      { slotKey, awarded := 0, maxPoints := perSlot, verdict := .incorrect
        rawResponse := some raw, normalizedResponse := some normalized
        explain := explain.put "reason" (.str "not_in_option_set") }
    else
      match accepted.find? (fun a => folded a = normalized) with
      | some matched =>
        { slotKey, awarded := perSlot, maxPoints := perSlot, verdict := .correct
          rawResponse := some raw, normalizedResponse := some normalized
          matchedAlternative := some matched, explain }
      | none =>
        { slotKey, awarded := 0, maxPoints := perSlot, verdict := .incorrect
          rawResponse := some raw, normalizedResponse := some normalized, explain }

def choiceSlot (ctx : ScoringContext) (options : List BankOption) (perSlot : ℚ)
    (submitted : Json) (slot : String × Json) : Except Raised SlotScore := do
  let raw ← submittedText submitted slot.1
  let accepted ← acceptedOf (← dictMethod slot.2)
  return gradeChoice ctx.spec options perSlot slot.1 raw accepted

def choicePerSlot (response : Json) (key : Obj) (ctx : ScoringContext) :
    Except Raised ItemScore := do
  let options ← resolveOptions ctx
  let perSlot ← pointsPerSlot ctx.spec
  let slots ← keySlots key
  let scores ← slots.mapM (choiceSlot ctx options perSlot (responseSlots response))
  return aggregate ⟨scores⟩ ctx.spec

/-! ## text_per_slot -/

/-- Tolerance of one slot: the key's own normalizers and case, over the type's. -/
def slotPipeline (ctx : ScoringContext) (spec : Obj) : Except Raised Pipeline :=
  (fun p => if truthy (getD spec "case_sensitive" .null) then p.withoutCasefold else p) <$>
    ctx.pipeline.override (getD spec "normalizers" .null)

def slotLimit (ctx : ScoringContext) (spec : Obj) : Except Raised (Option WordLimit) :=
  (fun own => own.or ctx.group.wordLimit) <$> WordLimit.fromDict (getD spec "word_limit" .null)

def applyLimit (spec : ScoringSpec) : Bool :=
  truthy (getD spec.options "apply_word_limit" (.bool true))

structure TextSlot where
  raw : Option String
  accepted : List String
  pipeline : Pipeline
  limit : Option WordLimit

def readTextSlot (ctx : ScoringContext) (submitted : Json) (slot : String × Json) :
    Except Raised TextSlot := do
  let raw ← submittedText submitted slot.1
  let spec ← dictMethod slot.2
  let accepted ← acceptedOf spec
  let pipeline ← slotPipeline ctx spec
  let limit ← slotLimit ctx spec
  return ⟨raw, accepted, pipeline, limit⟩

def gradeText (spec : ScoringSpec) (perSlot : ℚ) (slotKey : String) (t : TextSlot) :
    Except Raised SlotScore :=
  let explain : Obj := Dict.ofList
    [("primitive", .str "text_per_slot"),
      ("normalizers", texts (t.pipeline.names.map Normalizer.name)),
      ("accepted", texts t.accepted)]
  match t.raw with
  | none =>
    .ok { slotKey, awarded := 0, maxPoints := perSlot, verdict := .unanswered, explain }
  | some raw =>
    let limited := applyLimit spec && t.limit.isSome
    let explain := if limited then explain.put "word_limit" (violatesExplain raw t.limit)
      else explain
    if limited && violates raw t.limit then
      .ok { slotKey, awarded := 0, maxPoints := perSlot, verdict := .incorrect
            rawResponse := some raw
            explain := explain.put "reason" (.str "word_limit_exceeded") }
    else do
      let got ← t.pipeline.run raw
      let wants ← t.accepted.mapM t.pipeline.run
      let explain := ((explain.put "steps" got.asExplain).put
        "normalized_response" (.str got.value)).put
        "normalized_accepted" (texts (wants.map Normalized.value))
      match (t.accepted.zip wants).find? (fun p => got.value = p.2.value) with
      | some p =>
        return { slotKey, awarded := perSlot, maxPoints := perSlot, verdict := .correct
                 rawResponse := some raw, normalizedResponse := some got.value
                 matchedAlternative := some p.1, explain }
      | none =>
        return { slotKey, awarded := 0, maxPoints := perSlot, verdict := .incorrect
                 rawResponse := some raw, normalizedResponse := some got.value, explain }

def textSlot (ctx : ScoringContext) (perSlot : ℚ) (submitted : Json) (slot : String × Json) :
    Except Raised SlotScore := do
  gradeText ctx.spec perSlot slot.1 (← readTextSlot ctx submitted slot)

def textPerSlot (response : Json) (key : Obj) (ctx : ScoringContext) :
    Except Raised ItemScore := do
  let perSlot ← pointsPerSlot ctx.spec
  let slots ← keySlots key
  let scores ← slots.mapM (textSlot ctx perSlot (responseSlots response))
  return aggregate ⟨scores⟩ ctx.spec

/-! ## set_selection -/

/-- The first value that is not null: a list is the selection, anything else a single pick. -/
def firstSelection : List Json → List String
  | [] => []
  | .arr es :: _ => es.map pyStr
  | .null :: vs => firstSelection vs
  | v :: _ => [pyStr v]

def selection (response : Json) : Except Raised (List String) :=
  match asDict response with
  | none => .ok []
  | some d =>
    if (d.get? "selected").isSome then
      List.map pyStr <$> iter (getOr d "selected" (.arr []))
    else (fun slots => firstSelection slots.values) <$> dictMethod (responseSlots response)

def correctOf (key : Obj) : Except Raised (List String) :=
  List.map pyStr <$> iter (getOr key "correct" (.arr []))

def selectCount (spec : ScoringSpec) (correct : List String) : Except Raised ℤ :=
  let selectCount := getD spec.options "select_count" (.str "from_key")
  if selectCount = .str "from_key" then .ok correct.length else pyInt selectCount

def pointsPerCorrect (spec : ScoringSpec) : Except Raised ℚ :=
  decimal (getD spec.options "points_per_correct" (.int 1))

def foldedSet (ids : List String) : List String := (ids.map folded).dedup

def gradeSelection (spec : ScoringSpec) (correct : List String) (expected : ℤ) (perCorrect : ℚ)
    (selectedRaw : List String) : SlotScore :=
  let selectedNorm := foldedSet selectedRaw
  let maxPoints := perCorrect * expected
  let explain : Obj := Dict.ofList
    [("primitive", .str "set_selection"), ("expected_count", .int expected),
      ("selected_count", .int selectedNorm.length), ("accepted", texts correct)]
  if selectedNorm = [] then
    { slotKey := "selection", awarded := 0, maxPoints, verdict := .unanswered, explain }
  else if expected < selectedNorm.length ∧
      getD spec.options "over_selection" .null = .str "score_zero" then
    { slotKey := "selection", awarded := 0, maxPoints, verdict := .incorrect
      rawResponse := some (join ", " (sorted selectedRaw))
      explain := explain.put "reason" (.str "over_selection") }
  else
    let hits := selectedNorm.filter (fun s => (foldedSet correct).contains s)
    let awarded := perCorrect * hits.length
    { slotKey := "selection", awarded, maxPoints
      verdict := if awarded = maxPoints then .correct else if awarded = 0 then .incorrect else .partly
      rawResponse := some (join ", " (sorted selectedRaw))
      explain := explain.put "matched" (texts (sorted hits)) }

def setSelection (response : Json) (key : Obj) (ctx : ScoringContext) :
    Except Raised ItemScore := do
  let correct ← correctOf key
  let expected ← selectCount ctx.spec correct
  let perCorrect ← pointsPerCorrect ctx.spec
  let selectedRaw ← selection response
  return ⟨[gradeSelection ctx.spec correct expected perCorrect selectedRaw]⟩

def primitives : Primitive → Json → Obj → ScoringContext → Except Raised ItemScore
  | .choicePerSlot => choicePerSlot
  | .textPerSlot => textPerSlot
  | .setSelection => setSelection

end IeltsHub.QtypesPrimitives
