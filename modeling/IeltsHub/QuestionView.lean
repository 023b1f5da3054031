import IeltsHub.KeySoundness

set_option autoImplicit false

/-!
# The controls a question is answered with

The renderer switches on the name of the type; it has no registry. A control is bound to one slot
and sends what its element can hold. A view is none where drawing it throws. A property a value
does not have is read as null, which is also how it is sent.
-/
namespace IeltsHub.QuestionView
open PyText PyValue ContentComposition

/-! ## Values of a payload, as the page meets them -/

mutual
/-- `String(value)`. -/
def jsText : Json → String
  | .null => "null"
  | .bool b => if b then "true" else "false"
  | .int n => toString n
  | .real q => textOfReal q
  | .str s => s
  | .arr es => join "," (jsTexts es)
  | .obj _ => "[object Object]"

def jsTexts : List Json → List String
  | [] => []
  | e :: es => (if e = .null then "" else jsText e) :: jsTexts es
end

mutual
def child : Json → Option String
  | .null | .bool _ => some ""
  | .obj _ => none
  | .arr es => childList es
  | .int n => some (toString n)
  | .real q => some (textOfReal q)
  | .str s => some s

def childList : List Json → Option String
  | [] => some ""
  | e :: es => do return (← child e) ++ (← childList es)
end

/-- `o.name`: null has no properties and throws. -/
def property (o : Json) (name : String) : Option Json :=
  match o with
  | .null => none
  | .obj ms => some (getD (dictOf ms) name .null)
  | _ => some .null

def drawnId (o : Json) : Option Json := do
  let id ← property o "id"
  let text ← property o "text"
  let _ ← child id
  let _ ← child text
  return id

def asciiSpace (c : Char) : Bool :=
  c = ' ' || c = '\n' || c = '\t' || c = '\r' || c = '\x0c'

def squeeze (s : String) : String :=
  join " " (((s.toList.splitOnP asciiSpace).filter (fun w => !w.isEmpty)).map String.ofList)

/-- The value of an `<option>`: its label where the id leaves no attribute. -/
def optionValue (o : Json) : Option String := do
  let id ← property o "id"
  let text ← property o "text"
  let shownId ← child id
  let shownText ← child text
  match id with
  | .null | .bool _ => return squeeze (shownId ++ ". " ++ shownText)
  | v => return jsText v

/-- `(p["options"] ?? []).map(...)`. -/
def payloadIds (payload : Obj) : Option (List Json) :=
  match getD payload "options" .null with
  | .null => some []
  | .arr es => es.mapM drawnId
  | _ => none

/-! ## Placeholders and paragraphs -/

def isWord (c : Char) : Bool :=
  ('a' ≤ c && c ≤ 'z') || ('A' ≤ c && c ≤ 'Z') || ('0' ≤ c && c ≤ '9') || c = '_'

def gapAt : List Char → Option String
  | '\x7b' :: '\x7b' :: cs =>
    let word := cs.takeWhile isWord
    if !word.isEmpty && (cs.drop word.length).take 2 = ['\x7d', '\x7d'] then some (.ofList word)
    else none
  | _ => none

def gaps : List Char → List String
  | [] => []
  | c :: cs => match gapAt (c :: cs) with
    | some gap => gap :: gaps cs
    | none => gaps cs

/-- `String(p["text"] ?? p["summary"] ?? "")`. -/
def gapText (payload : Obj) : String :=
  match getD payload "text" .null with
  | .null => match getD payload "summary" .null with
    | .null => ""
    | v => jsText v
  | v => jsText v

def paragraphSlot (entry : Json) : Option String :=
  (asDict entry).bind (fun d => match d.get? "key", d.get? "paragraph" with
    | some (.str key), some (.str _) => some key
    | _, _ => none)

def paragraphSlots (payload : Obj) (slotKeys : List String) : List String :=
  match getD payload "slots" .null with
  | .arr es => if es.filterMap paragraphSlot = [] then slotKeys else es.filterMap paragraphSlot
  | _ => slotKeys

/-- Add or remove one option from a selection, keeping the options' own order. -/
def toggleSelection (chosen : List Json) (id : Json) (optionIds : List Json) : List Json :=
  if chosen.contains id then chosen.filter (fun c => c ≠ id)
  else optionIds.filter (fun o => o = id || chosen.contains o)

/-! ## Controls -/

inductive Widget where
  | input
  | radio (ids : List Json)
  | checkbox (ids : List Json)
  | select (values : List String)

structure Control where
  slot : String
  widget : Widget

/-- The selections reached from none by clicking. -/
inductive Clicked (ids : List Json) : List Json → Prop
  | none : Clicked ids []
  | toggle {chosen : List Json} {id : Json} : Clicked ids chosen → id ∈ ids →
      Clicked ids (toggleSelection chosen id ids)

def OneLine (s : String) : Prop := ∀ c ∈ s.toList, c ≠ '\n' ∧ c ≠ '\r'

/-- What a control can hand to `onAnswer`. -/
def Widget.Emits : Widget → Json → Prop
  | .input, v => ∃ s, OneLine s ∧ v = .str s
  | .radio ids, v => v ∈ ids
  | .checkbox ids, v => ∃ chosen, ∃ id ∈ ids, Clicked ids chosen ∧
      v = .arr (toggleSelection chosen id ids)
  | .select values, v => v = .str "" ∨ ∃ x ∈ values, v = .str x

/-- The cases of the switch. -/
inductive Branch where
  | fixed (choices : List String)
  | single
  | multi
  | gapped
  | short
  | headings
  | matching
  | boxes

def branchOf (typeKey : String) : Branch :=
  match typeKey with
  | "true_false_notgiven" => .fixed ["TRUE", "FALSE", "NOT GIVEN"]
  | "yes_no_notgiven" => .fixed ["YES", "NO", "NOT GIVEN"]
  | "mcq_single" => .single
  | "mcq_multi" => .multi
  | "sentence_completion" | "summary_completion" | "summary_completion_bank" => .gapped
  | "short_answer" => .short
  | "matching_headings" => .headings
  | "matching_information" | "matching_features" => .matching
  | _ => .boxes

def bankWidget (bank : List Json) : Option Widget :=
  if bank = [] then some .input else Widget.select <$> bank.mapM optionValue

def firstSlot (q : QuestionNode) : String := q.slotKeys.head?.getD "s1"

def questionView (q : QuestionNode) (g : GroupNode) : Option (List Control) :=
  match branchOf q.typeKey with
  | .fixed choices => some [⟨firstSlot q, .radio (choices.map .str)⟩]
  | .single => (fun ids => [⟨firstSlot q, .radio ids⟩]) <$> payloadIds q.payload
  | .multi => (fun ids => [⟨firstSlot q, .checkbox ids⟩]) <$> payloadIds q.payload
  | .gapped => some ((gaps (gapText q.payload).toList).map (fun gap => ⟨gap, .input⟩))
  | .short => some [⟨firstSlot q, .input⟩]
  | .headings => (paragraphSlots q.payload q.slotKeys).mapM (fun key =>
      (fun widget => ⟨key, widget⟩) <$> bankWidget g.optionBank)
  | .matching => (fun widget => [⟨firstSlot q, widget⟩]) <$> bankWidget g.optionBank
  | .boxes => some (q.slotKeys.map (fun slot => ⟨slot, .input⟩))

end IeltsHub.QuestionView
