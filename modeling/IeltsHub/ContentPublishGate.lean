import IeltsHub.ContentComposition
import IeltsHub.PlatformFindings

set_option autoImplicit false

/-!
# The publish gate

A function of the composition and the registry that returns every finding at once. Each check is
the list of the findings it adds, and a check that reads JSON raises where Python would. The fix
hints of the findings are not carried.
-/
namespace IeltsHub.ContentPublishGate
open PyText PyValue PyDict PlatformErrors PlatformFindings QtypesSchemas QtypesWordlimit
  QtypesRegistry ContentComposition

/-! ## Sets of text, and their printed forms -/

def diff (a b : List String) : List String := sorted ((a.filter (fun x => !b.contains x)).dedup)

def sameSet (a b : List String) : Bool :=
  a.all (fun x => b.contains x) && b.all (fun x => a.contains x)

def textList (l : List String) : String := .ofList (reprValue (.arr (l.map .str)))

def intList (l : List ℤ) : String := .ofList (reprValue (.arr (l.map .int)))

def firstEight (l : List ℤ) : String :=
  intList (l.take 8) ++ if 8 < l.length then " …" else ""

/-! ## Whole-test checks -/

def range (n : ℤ) : List ℤ := (List.range n.toNat).map Int.ofNat

/-- Positions must be `1..n` with no holes. -/
def checkSectionPositions (c : TestComposition) : Report :=
  let positions := c.sections.map SectionNode.position
  let wanted := (range positions.length).map (fun i => i + 1)
  let missing := ((range (positions.foldl max 0)).map (fun i => i + 1)).filter
    (fun i => !positions.contains i)
  findIf (!positions.isEmpty && positions ≠ wanted)
    { code := "SECTION_POSITION_GAP"
      message := "Section positions are " ++ intList positions ++ ", which is not 1-" ++
        toString positions.length ++ "." ++
        (if missing.isEmpty then "" else " Missing: " ++ intList missing ++ ".")
      path := "sections" }

def checkStructure (c : TestComposition) : Report :=
  findIf c.sections.isEmpty
    { code := "NO_SECTIONS", message := "The test has no sections.", path := "sections" } ++
  findIf (!c.sections.any (fun s => s.groups.any (fun g => !g.questions.isEmpty)))
    { code := "NO_QUESTIONS", message := "The test has no questions.", path := "sections" } ++
  checkSectionPositions c

/-- `(int(row["raw_min"]), int(row["raw_max"]))`. -/
def coveredRange (row : Json) : Except Raised (ℤ × ℤ) := do
  let lo ← pyInt (← subscript row "raw_min")
  let hi ← pyInt (← subscript row "raw_max")
  return (lo, hi)

def uncovered (rows : List (ℤ × ℤ)) (top : ℤ) : List ℤ :=
  (range (top + 1)).filter (fun m => !rows.any (fun r => r.1 ≤ m ∧ m ≤ r.2))

def checkBandMap (c : TestComposition) : Except Raised Report :=
  match c.bandMap with
  | none => .ok [{ code := "BAND_MAP_MISSING"
                   message := "No band map is attached to this version.", path := "band_map" }]
  | some bandMap => do
    let total : ℤ := c.totalSlots
    let rows ← bandMap.mapping.mapM coveredRange
    let missing := uncovered rows (min total bandMap.maxRaw)
    return findIf (bandMap.maxRaw < total)
        { code := "BAND_MAP_TOO_SHORT"
          message := "Band map covers up to " ++ toString bandMap.maxRaw ++
            " marks but the test is worth " ++ toString total ++ "."
          path := "band_map" } ++
      findIf (!missing.isEmpty)
        { code := "BAND_MAP_GAP"
          message := "Band map has no band for raw score(s): " ++ firstEight missing
          path := "band_map" }

def slotCount (g : GroupNode) : ℕ := (g.questions.map (fun q => q.slotKeys.length)).sum

/-- The groups with their sections, and `expected` as the numbering runs on. -/
def numberingFrom : ℤ → List (SectionNode × GroupNode) → Report
  | _, [] => []
  | expected, (s, g) :: rest =>
    findIf (g.numberStart ≠ expected)
      { code := "NUMBERING_DISCONTINUOUS"
        message := "Group starts at question " ++ toString g.numberStart ++ ", expected " ++
          toString expected ++ "."
        path := "sections[" ++ toString s.position ++ "].groups[" ++ toString g.numberStart ++ "]"
        subjectXid := some g.xid } ++
    numberingFrom (max expected g.numberStart + slotCount g) rest

def checkNumbering (c : TestComposition) : Report :=
  numberingFrom 1 (c.sections.flatMap (fun s => s.groups.map (fun g => (s, g))))

/-! ## Section checks -/

def checkPassage (s : SectionNode) (path : String) : Report :=
  match s.passage with
  | none => findIf (s.skill = "reading")
      { code := "PASSAGE_MISSING"
        message := "Reading section '" ++ s.title ++ "' has no passage.", path }
  | some p =>
    findIf (!p.hasAttestation)
      { code := "ATTESTATION_MISSING"
        message := "Passage '" ++ p.title ++ "' has no copyright attestation."
        path := path ++ ".passage", subjectXid := some p.xid } ++
    findIf p.underTakedown
      { code := "TAKEDOWN_OPEN"
        message := "Passage '" ++ p.title ++ "' is subject to an open takedown request."
        path := path ++ ".passage", subjectXid := some p.xid }

def audioMarks (s : SectionNode) (path : String) (duration : ℤ) : Report :=
  (s.groups.mapIdx (fun index g =>
    match g.audioEndMs with
    | some stop => findIf (duration < stop)
        { code := "AUDIO_TOO_SHORT"
          message := "Questions " ++ toString g.numberStart ++ "+ are marked to " ++
            toString stop ++ " ms but the recording is only " ++ toString duration ++ " ms long."
          path := path ++ ".groups[" ++ toString index ++ "]", subjectXid := some g.xid }
    | none => [])).flatten

def checkAudio (s : SectionNode) (path : String) : Report :=
  match s.audio with
  | none => [{ code := "AUDIO_MISSING"
               message := "Listening section '" ++ s.title ++ "' has no audio track.", path }]
  | some a =>
    findIf (a.status ≠ "ready")
      { code := "AUDIO_NOT_READY"
        message := "Audio for '" ++ s.title ++ "' is '" ++ a.status ++ "', not ready."
        path := path ++ ".audio", subjectXid := some a.xid } ++
    findIf (!a.hasAttestation)
      { code := "ATTESTATION_MISSING"
        message := "Audio for '" ++ s.title ++ "' has no copyright attestation."
        path := path ++ ".audio", subjectXid := some a.xid } ++
    findIf a.underTakedown
      { code := "TAKEDOWN_OPEN"
        message := "Audio for '" ++ s.title ++ "' is subject to an open takedown request."
        path := path ++ ".audio", subjectXid := some a.xid } ++
    match a.durationMs with
    | none => []
    | some duration => audioMarks s path duration

/-! ## Question checks -/

def pathLE : List PathPart → List PathPart → Bool
  | [], _ => true
  | _ :: _, [] => false
  | .index i :: a, .index j :: b => if i = j then pathLE a b else i < j
  | .key i :: a, .key j :: b => if i = j then pathLE a b else textLE i j
  | .index _ :: _, .key _ :: _ => true
  | .key _ :: _, .index _ :: _ => false

def schemaFindings (validator : Validator) (schema : Json) (value : Json) (code what path : String)
    (xid : String) : Report :=
  let errors := (validator.iterErrors schema value).insertionSort
    (fun a b => pathLE a.path b.path = true)
  errors.map (fun e =>
    let pointer := join "." (e.path.map PathPart.text)
    { code
      message := "Invalid " ++ what ++ (if pointer = "" then "" else ": " ++ pointer) ++ " — " ++
        e.message
      path := if pointer = "" then path else path ++ "." ++ pointer
      subjectXid := some xid })

/-- The markers of the shape `s` and digits between doubled braces. -/
def markerAt : List Char → Option String
  | '\x7b' :: '\x7b' :: 's' :: cs =>
    let digits := cs.takeWhile (fun c => '0' ≤ c && c ≤ '9')
    let rest := cs.drop digits.length
    if !digits.isEmpty && rest.take 2 = ['\x7d', '\x7d'] then some (.ofList ('s' :: digits))
    else none
  | _ => none

def markers : List Char → List String
  | [] => []
  | c :: cs => match markerAt (c :: cs) with
    | some m => m :: markers cs
    | none => markers cs

mutual
def markersIn : Json → List String
  | .arr es => markersInList es
  | .obj ms => markersInMembers ms
  | .str s => markers s.toList
  | _ => []

def markersInList : List Json → List String
  | [] => []
  | e :: es => markersIn e ++ markersInList es

def markersInMembers : List (String × Json) → List String
  | [] => []
  | (_, v) :: ms => markersIn v ++ markersInMembers ms
end

def textFields : List String := ["text", "summary", "question", "statement", "stem"]

def payloadMarkers (payload : Obj) : List String :=
  textFields.flatMap (fun field =>
    match getD payload field .null with
    | .str s => markers s.toList
    | _ => []) ++
  ["steps", "blocks", "fields", "rows"].flatMap (fun container =>
    markersIn (getD payload container .null))

/-- `(q.key or {}).get("slots", {})`. -/
def slotsValue (q : QuestionNode) : Json := getD (q.key.getD Dict.empty) "slots" (.obj [])

def asTexts (l : List Json) : Except Raised (List String) :=
  l.mapM (fun v => match v with
    | .str s => .ok s
    | _ => .error .typeError)

/-- `set(slots)`: every member must be hashable, and to be joined they must be text. -/
def keySlotSet (q : QuestionNode) : Except Raised (List String) := do
  let members ← iter (slotsValue q)
  asTexts members

def keySlotFindings (q : QuestionNode) (path : String) : Except Raised Report := do
  let keySlots ← keySlotSet q
  let missing := diff q.slotKeys keySlots
  let extra := diff keySlots q.slotKeys
  return findIf (!missing.isEmpty)
      { code := "KEY_SLOTS_MISSING"
        message := "No answer for blank(s): " ++ join ", " missing ++ "."
        path := path ++ ".key", subjectXid := some q.xid } ++
    findIf (!extra.isEmpty)
      { code := "KEY_SLOTS_ORPHANED"
        message := "Answer key references blank(s) that do not exist: " ++ join ", " extra ++ "."
        path := path ++ ".key", subjectXid := some q.xid }

def markerFindings (q : QuestionNode) (path : String) : Report :=
  let found := payloadMarkers q.payload
  findIf (!found.isEmpty && !sameSet found q.slotKeys)
    { code := "BLANK_MARKERS_MISMATCH"
      message := "Blank markers in the text " ++ textList (sorted found.dedup) ++
        " do not match the declared blanks " ++ textList (sorted q.slotKeys.dedup) ++ "."
      path, subjectXid := some q.xid }

def rulesOf (d : QuestionTypeDef) : Except Raised (List Json) := do
  let validation ← dictMethod d.validation
  iter (getD validation "rules" (.arr []))

def findRule (name : String) : List Json → Except Raised (Option Obj)
  | [] => .ok none
  | r :: rs => do
    let rule ← dictMethod r
    if getD rule "rule" .null = .str name then return some rule else findRule name rs

def bankOffset (d : QuestionTypeDef) : Except Raised (Option ℤ) := do
  match ← findRule "option_bank_at_least" (← rulesOf d) with
  | some rule => some <$> pyInt (getD rule "offset" (.int 1))
  | none => return none

/-- `{str(o["id"]).casefold() for o in listed}`. -/
def optionIds (listed : List Json) : Except Raised (List String) :=
  listed.mapM (fun o => (fun id => casefold (pyStr id)) <$> subscript o "id")

def bankFindings (g : GroupNode) (d : QuestionTypeDef) (valid : List String)
    (path : String) : Except Raised Report :=
  if valid.isEmpty then
    .ok [{ code := "OPTION_BANK_MISSING"
           message := d.title ++ " needs a shared option list on its question group."
           path := path ++ ".group", subjectXid := some g.xid }]
  else do
    match ← bankOffset d with
    | none => return []
    | some offset =>
      let needed := (slotCount g : ℤ) + offset
      return findIf ((valid.dedup.length : ℤ) < needed)
        { code := "OPTION_BANK_TOO_SMALL"
          message := toString valid.dedup.length ++ " options for " ++
            toString (needed - offset) ++ " questions; this type needs at least " ++
            toString offset ++ " spare distractor(s)."
          path := path ++ ".group", subjectXid := some g.xid }

/-- Check 6: where the options come from, as the gate reads it; nothing where no source is
named. -/
def gateOptions (q : QuestionNode) (g : GroupNode) (s : SectionNode) (d : QuestionTypeDef)
    (path : String) : Except Raised (List String × Report) :=
  let source := getD d.scoring.options "option_source" .null
  if source = .str "group.option_bank" then do
    let valid ← optionIds g.optionBank
    return (valid, ← bankFindings g d valid path)
  else if source = .str "payload.options" then do
    return (← optionIds (← iter (getOr q.payload "options" (.arr []))), [])
  else if source = .str "fixed" then do
    return (← optionIds (← iter (getD d.scoring.options "fixed_options" (.arr []))), [])
  else if source = .str "section.passage_version.paragraph_labels" then
    let valid := ((s.passage.map PassageRef.paragraphLabels).getD []).map casefold
    .ok (valid, findIf valid.isEmpty
      { code := "PARAGRAPH_LABELS_MISSING"
        message := "This question refers to passage paragraphs, but the passage has no lettering."
        path, subjectXid := some q.xid })
  else .ok ([], [])

def slotEntries (q : QuestionNode) : Except Raised (List (String × Json)) :=
  Dict.entries <$> dictMethod (slotsValue q)

/-- `spec.get("accept", [])`, as a loop meets it. -/
def acceptedValues (spec : Json) : Except Raised (List Json) := do
  let d ← dictMethod spec
  iter (getD d "accept" (.arr []))

def unknownOptions (q : QuestionNode) (valid : List String) (path : String)
    (slot : String × Json) : Except Raised Report :=
  (fun accepted => (accepted.map (fun a => findIf (!valid.contains (casefold (pyStr a)))
    { code := "KEY_OPTION_UNKNOWN"
      message := "Answer '" ++ pyStr a ++ "' for blank " ++ slot.1 ++ " is not one of the options."
      path := path ++ ".key." ++ slot.1, subjectXid := some q.xid })).flatten) <$>
    acceptedValues slot.2

def unknownOptionFindings (q : QuestionNode) (valid : List String) (path : String) :
    Except Raised Report :=
  if valid.isEmpty then .ok []
  else do
    return (← (← slotEntries q).mapM (unknownOptions q valid path)).flatten

/-- `spec["accept"][0]` of a spec whose `accept` is not empty. -/
def firstAccepted (spec : Json) : Except Raised (Option String) := do
  let d ← dictMethod spec
  let accept := getD d "accept" .null
  if truthy accept then
    match accept with
    | .arr (e :: _) => return some (casefold (pyStr e))
    | .str s => return s.toList.head?.map (fun c => casefold (.singleton c))
    | .obj _ => throw (.keyError "0")
    | _ => throw .typeError
  else return none

def reusedFindings (q : QuestionNode) (d : QuestionTypeDef) (path : String) :
    Except Raised Report :=
  if getD d.scoring.options "unique_options" .null = .bool true then do
    let firsts ← (← slotEntries q).mapM (fun slot => firstAccepted slot.2)
    let used := firsts.filterMap id
    return findIf (used.dedup.length ≠ used.length)
      { code := "KEY_OPTION_REUSED"
        message := "The same option is the answer to more than one blank, but this type " ++
          "uses each option at most once."
        path := path ++ ".key", subjectXid := some q.xid }
  else .ok []

def checkSlotKey (q : QuestionNode) (g : GroupNode) (s : SectionNode) (d : QuestionTypeDef)
    (path : String) : Except Raised Report := do
  let slots ← keySlotFindings q path
  let (valid, bank) ← gateOptions q g s d path
  let unknown ← unknownOptionFindings q valid path
  let reused ← reusedFindings q d path
  return slots ++ markerFindings q path ++ bank ++ unknown ++ reused

def miscounts (q : QuestionNode) (correct : List String) : Except Raised Bool :=
  let expected := getD q.payload "select_count" .null
  if expected = .null then .ok false
  else (fun n => decide ((correct.length : ℤ) ≠ n)) <$> pyInt expected

def selectionFindings (q : QuestionNode) (path : String) (correct : List String) :
    Except Raised Report := do
  let miscounted ← miscounts q correct
  let valid ← optionIds (← iter (getOr q.payload "options" (.arr [])))
  return findIf ((correct.map casefold).dedup.length ≠ correct.length)
      { code := "KEY_DUPLICATE", message := "The same letter is listed twice as correct."
        path := path ++ ".key", subjectXid := some q.xid } ++
    findIf miscounted
      { code := "KEY_COUNT_MISMATCH"
        message := "The question asks for " ++ pyStr (getD q.payload "select_count" .null) ++
          " answers but the key lists " ++ toString correct.length ++ "."
        path := path ++ ".key", subjectXid := some q.xid } ++
    (correct.map (fun a => findIf (!valid.isEmpty && !valid.contains (casefold a))
      { code := "KEY_OPTION_UNKNOWN", message := "Answer '" ++ a ++ "' is not one of the options."
        path := path ++ ".key", subjectXid := some q.xid })).flatten

def checkSetSelectionKey (q : QuestionNode) (path : String) : Except Raised Report := do
  let correct := (← iter (getD (q.key.getD Dict.empty) "correct" (.arr []))).map pyStr
  if correct.isEmpty then
    .ok [{ code := "KEY_MISSING", message := "Question has no correct answers."
           path := path ++ ".key", subjectXid := some q.xid }]
  else selectionFindings q path correct

def overLimitFindings (q : QuestionNode) (rule : WordLimit) (path : String)
    (slot : String × Json) : Except Raised Report := do
  let d ← dictMethod slot.2
  let own ← WordLimit.fromDict (getD d "word_limit" .null)
  let effective := own.getD rule
  let accepted ← acceptedValues slot.2
  return (accepted.map (fun a =>
    let c := count (pyStr a) effective
    findIf (violates (pyStr a) (some effective))
      { code := "KEY_EXCEEDS_WORD_LIMIT"
        message := "Accepted answer '" ++ pyStr a ++ "' for blank " ++ slot.1 ++
          " breaks this group's own word limit (" ++ toString c.words ++ " words, " ++
          toString c.numbers ++ " number(s); limit " ++ toString effective.maxWords ++ ")."
        path := path ++ ".key." ++ slot.1, subjectXid := some q.xid })).flatten

def checkWordLimits (q : QuestionNode) (g : GroupNode) (d : QuestionTypeDef) (path : String) :
    Except Raised Report := do
  match ← WordLimit.fromDict g.wordLimit with
  | none =>
    let required ← findRule "word_limit_present_on_group" (← rulesOf d)
    return findIf required.isSome
      { code := "WORD_LIMIT_MISSING"
        message := d.title ++ " needs a word limit on its question group."
        path := path ++ ".group", subjectXid := some g.xid }
  | some rule =>
    return (← (← slotEntries q).mapM (overLimitFindings q rule path)).flatten

/-- `float(value)`, none for a value that is not finite. -/
def pyFloat : Json → Except Raised (Option ℚ)
  | .bool b => .ok (some (if b then 1 else 0))
  | .int n => .ok (some n)
  | .real q => .ok (some q)
  | .str s =>
    if ["nan", "inf", "infinity"].contains
        (.ofList (signOf (stripBy isSpace (casefold s).toList)).2) then .ok none
    else match decimalLiteral s with
      | some q => .ok (some q)
      | none => .error .valueError
  | _ => .error .typeError

def inUnit : Option ℚ → Bool
  | some q => 0 ≤ q ∧ q ≤ 1
  | none => false

def hotspotFindings (g : GroupNode) (path : String) (h : Json) : Except Raised Report := do
  let d ← dictMethod h
  let x ← pyFloat (getD d "x" (.int (-1)))
  let y ← pyFloat (getD d "y" (.int (-1)))
  return findIf (!(inUnit x && inUnit y))
    { code := "HOTSPOT_OUT_OF_BOUNDS"
      message := "Hotspot for " ++ pyStr (getD d "slot" .null) ++ " is outside the image."
      path := path ++ ".group", subjectXid := some g.xid }

/-- `{rule.get("rule") for rule in rules}`: every name must be hashable. -/
def ruleNames (d : QuestionTypeDef) : Except Raised (List Json) := do
  (← rulesOf d).mapM (fun r => do
    let rule ← dictMethod r
    let name := getD rule "rule" .null
    if hashable name then return name else throw .typeError)

def placedFindings (q : QuestionNode) (g : GroupNode) (media : MediaRef) (rules : List Json)
    (path : String) : Except Raised Report := do
  let placed ← g.hotspots.mapM (fun h =>
    (fun e => pyStr (getD e "slot" .null)) <$> dictMethod h)
  let unplacedSlots := diff q.slotKeys placed
  let bank ← (if rules.contains (.str "hotspots_cover_option_bank") then g.optionBank else []).mapM
    (fun o => pyStr <$> subscript o "id")
  let unplacedOptions := diff bank placed
  let bounds ← g.hotspots.mapM (hotspotFindings g path)
  return findIf (media.status ≠ "ready")
      { code := "DIAGRAM_NOT_READY"
        message := "The group's image is '" ++ media.status ++ "', not ready."
        path := path ++ ".group", subjectXid := some g.xid } ++
    findIf (!media.hasAttestation)
      { code := "ATTESTATION_MISSING"
        message := "The group's image has no copyright attestation."
        path := path ++ ".group", subjectXid := some g.xid } ++
    findIf (rules.contains (.str "hotspots_cover_slots") && !unplacedSlots.isEmpty)
      { code := "HOTSPOTS_INCOMPLETE"
        message := "No position on the image for blank(s): " ++ join ", " unplacedSlots ++ "."
        path := path ++ ".group", subjectXid := some g.xid } ++
    findIf (!unplacedOptions.isEmpty)
      { code := "HOTSPOTS_INCOMPLETE"
        message := "No position on the map for label(s): " ++ join ", " unplacedOptions ++ "."
        path := path ++ ".group", subjectXid := some g.xid } ++
    bounds.flatten

def checkDiagram (q : QuestionNode) (g : GroupNode) (d : QuestionTypeDef) (path : String) :
    Except Raised Report := do
  let rules ← ruleNames d
  if rules.contains (.str "group_has_diagram_media") then
    match g.diagramMedia with
    | none =>
      .ok [{ code := "DIAGRAM_MISSING"
             message := d.title ++ " needs an image on its question group."
             path := path ++ ".group", subjectXid := some g.xid }]
    | some media => placedFindings q g media rules path
  else .ok []

def checkKey (q : QuestionNode) (g : GroupNode) (s : SectionNode) (d : QuestionTypeDef)
    (path : String) : Except Raised Report :=
  match d.scoring.primitive with
  | .setSelection => checkSetSelectionKey q path
  | .choicePerSlot => checkSlotKey q g s d path
  | .textPerSlot => do
    let slots ← checkSlotKey q g s d path
    let limits ← checkWordLimits q g d path
    return slots ++ limits

def checkQuestion (validator : Validator) (registry : Registry) (s : SectionNode) (g : GroupNode)
    (q : QuestionNode) (path : String) : Except Raised Report :=
  match registry.defs.get? (q.typeKey, q.typeVersion) with
  | none => .ok [{ code := "TYPE_UNKNOWN"
                   message := "Question type " ++ q.typeKey ++ "@v" ++ toString q.typeVersion ++
                     " is not registered."
                   path, subjectXid := some q.xid }]
  | some d =>
    let content :=
      findIf (!d.skills.contains s.skill)
        { code := "TYPE_WRONG_SKILL"
          message := d.title ++ " cannot be used in a " ++ s.skill ++ " section."
          path, subjectXid := some q.xid } ++
      schemaFindings validator d.payloadSchema (.obj q.payload.entries) "PAYLOAD_INVALID"
        "question content" path q.xid
    match q.key with
    | none => .ok (content ++
        [{ code := "KEY_MISSING", message := "Question has no answer key.", path
           subjectXid := some q.xid }])
    | some key => do
      let checks ← checkKey q g s d path
      let diagram ← checkDiagram q g d path
      return content ++
        schemaFindings validator d.keySchema (.obj key.entries) "KEY_INVALID" "answer key" path
          q.xid ++
        checks ++ diagram

def checkGroup (validator : Validator) (registry : Registry) (s : SectionNode) (g : GroupNode)
    (path : String) : Except Raised Report :=
  if g.questions.isEmpty then
    .ok [{ code := "GROUP_EMPTY", message := "Question group contains no questions.", path
           subjectXid := some g.xid }]
  else
    List.flatten <$> g.questions.zipIdx.mapM (fun p =>
      checkQuestion validator registry s g p.1
        (path ++ ".questions[" ++ toString p.2 ++ "]"))

def countFindings (s : SectionNode) (path : String) : Report :=
  let actual : ℤ := (s.groups.map slotCount).sum
  match s.declaredQuestionCount with
  | none => []
  | some declared => findIf (actual ≠ declared)
      { code := "SECTION_COUNT_MISMATCH"
        message := "Section '" ++ s.title ++ "' declares " ++ toString declared ++
          " questions but contains " ++ toString actual ++ "."
        path }

def checkSection (validator : Validator) (registry : Registry) (s : SectionNode) :
    Except Raised Report := do
  let path := "sections[" ++ toString s.position ++ "]"
  let groups ← s.groups.zipIdx.mapM (fun p =>
    checkGroup validator registry s p.1 (path ++ ".groups[" ++ toString p.2 ++ "]"))
  return findIf s.timeLimitSeconds.isNone
      { code := "SECTION_NO_TIME_LIMIT", severity := .warning
        message := "Section '" ++ s.title ++
          "' has no time limit; the test-level limit will apply."
        path } ++
    checkPassage s path ++
    (if s.skill = "listening" then checkAudio s path else []) ++
    groups.flatten ++ countFindings s path

def run (validator : Validator) (c : TestComposition) (registry : Registry) :
    Except Raised Report := do
  let bandMap ← checkBandMap c
  let sections ← c.sections.mapM (checkSection validator registry)
  return checkStructure c ++ bandMap ++ sections.flatten ++ checkNumbering c

end IeltsHub.ContentPublishGate
