import IeltsHub.PyValue
import IeltsHub.PlatformErrors

set_option autoImplicit false

/-!
# Value types of the scoring engine

A question type composes one of three closed primitives with options and a pipeline of
normalizers. The options, the key and the payload stay JSON: nothing checks them when a type is
loaded, and the primitives read them as they go.
-/
namespace IeltsHub.QtypesSchemas
open PyExc PyValue PyDict PlatformErrors

inductive Verdict where
  | correct
  | incorrect
  | partly
  | unanswered
  | void
  deriving DecidableEq, Repr

inductive Primitive where
  | choicePerSlot
  | textPerSlot
  | setSelection
  deriving DecidableEq, Repr

def Primitive.value : Primitive → String
  | .choicePerSlot => "choice_per_slot"
  | .textPerSlot => "text_per_slot"
  | .setSelection => "set_selection"

inductive Normalizer where
  | trim
  | collapseSpace
  | casefold
  | stripPunctuation
  | hyphenFlexible
  | stripArticles
  | contractionExpand
  | spellingUkUs
  | numberWord
  | ordinalDigit
  deriving DecidableEq, Repr

def Normalizer.name : Normalizer → String
  | .trim => "trim"
  | .collapseSpace => "collapse_space"
  | .casefold => "casefold"
  | .stripPunctuation => "strip_punctuation"
  | .hyphenFlexible => "hyphen_flexible"
  | .stripArticles => "strip_articles"
  | .contractionExpand => "contraction_expand"
  | .spellingUkUs => "spelling_uk_us"
  | .numberWord => "number_word"
  | .ordinalDigit => "ordinal_digit"

def normalizerOrder : List Normalizer :=
  [.trim, .collapseSpace, .casefold, .stripPunctuation, .hyphenFlexible, .stripArticles,
    .contractionExpand, .spellingUkUs, .numberWord, .ordinalDigit]

structure BankOption where
  id : String
  text : String := ""
  deriving DecidableEq

def optionOf (o : Json) : Except Raised BankOption := do
  let id ← subscript o "id"
  let d ← dictMethod o
  return ⟨pyStr id, pyStr (getD d "text" (.str ""))⟩

/-- `NO MORE THAN TWO WORDS AND/OR A NUMBER`, as an enforceable rule. -/
structure WordLimit where
  maxWords : ℤ
  allowNumber : Bool := true
  hyphenCountsAsOne : Bool := true
  onViolation : String := "mark_incorrect"
  deriving DecidableEq

def WordLimit.fromDict (raw : Json) : Except Raised (Option WordLimit) :=
  if truthy raw then do
    let maxWords ← pyInt (← subscript raw "max_words")
    let d ← dictMethod raw
    return some
      { maxWords
        allowNumber := truthy (getD d "allow_number" (.bool true))
        hyphenCountsAsOne := truthy (getD d "hyphen_counts_as_one" (.bool true))
        onViolation := pyStr (getD d "on_violation" (.str "mark_incorrect")) }
  else return none

/-- What the question group contributes to scoring one of its items. -/
structure GroupRules where
  wordLimit : Option WordLimit := none
  optionBank : List BankOption := []
  uniqueOptions : Json := .null
  deriving DecidableEq

def GroupRules.fromDict (raw : Obj) : Except Raised GroupRules := do
  let entries ← iter (getOr raw "option_bank" (.arr []))
  let bank ← entries.mapM optionOf
  let wordLimit ← WordLimit.fromDict (getD raw "word_limit" .null)
  return { wordLimit, optionBank := bank, uniqueOptions := getD raw "unique_options" .null }

structure ScoringSpec where
  primitive : Primitive
  options : Obj := Dict.empty
  normalizers : List Normalizer := []

structure QuestionTypeDef where
  key : String
  version : ℤ
  title : String := ""
  skills : List String := []
  payloadSchema : Json := .obj []
  keySchema : Json := .obj []
  responseSchema : Json := .obj []
  scoring : ScoringSpec
  validation : Json := .obj []

def QuestionTypeDef.ref (d : QuestionTypeDef) : String := d.key ++ "@v" ++ toString d.version

/-- `(schema or {}).get("properties") or {}`, and `none` where a schema is not an object. -/
def properties (schema : Json) : Option Obj :=
  if truthy schema then
    match asDict schema with
    | none => none
    | some d =>
      let p := getD d "properties" .null
      if truthy p then asDict p else some Dict.empty
  else some Dict.empty

def QuestionTypeDef.slotResponseSchema (d : QuestionTypeDef) : Except Raised (Option Json) :=
  match properties d.responseSchema with
  | none => .error .attributeError
  | some props =>
    match (props.get? "slots").bind asDict with
    | some slots =>
      match slots.get? "additionalProperties" with
      | some (.obj ms) => .ok (some (.obj ms))
      | _ => .ok none
    | none =>
      match props.get? "selected" with
      | some (.obj ms) => .ok (some (.obj ms))
      | _ => .ok none

structure SlotScore where
  slotKey : String
  awarded : ℚ
  maxPoints : ℚ
  verdict : Verdict
  rawResponse : Option String := none
  normalizedResponse : Option String := none
  matchedAlternative : Option String := none
  explain : Obj := Dict.empty
  deriving DecidableEq

structure ItemScore where
  slots : List SlotScore
  deriving DecidableEq

namespace ItemScore

def awarded (s : ItemScore) : ℚ := (s.slots.map SlotScore.awarded).sum

def maxPoints (s : ItemScore) : ℚ := (s.slots.map SlotScore.maxPoints).sum

def verdict (s : ItemScore) : Verdict :=
  if s.slots.isEmpty then .void
  else if s.slots.all (fun t => t.verdict = .unanswered) then .unanswered
  else if s.awarded = s.maxPoints then .correct
  else if s.awarded = 0 then .incorrect
  else .partly

@[simp] theorem awarded_nil : (ItemScore.mk []).awarded = 0 := rfl

@[simp] theorem maxPoints_nil : (ItemScore.mk []).maxPoints = 0 := rfl

@[simp] theorem awarded_cons (s : SlotScore) (ss : List SlotScore) :
    (ItemScore.mk (s :: ss)).awarded = s.awarded + (ItemScore.mk ss).awarded := by
  simp [awarded]

@[simp] theorem maxPoints_cons (s : SlotScore) (ss : List SlotScore) :
    (ItemScore.mk (s :: ss)).maxPoints = s.maxPoints + (ItemScore.mk ss).maxPoints := by
  simp [maxPoints]

end ItemScore

/-! ## What a word limit must be to be read -/

/-- `WordLimit.from_dict` reads the value: nothing at all, or an object whose `max_words` is a
number or the text of one. -/
def WordLimit.Legible (raw : Json) : Prop :=
  truthy raw = true → ∃ d v, asDict raw = some d ∧ d.get? "max_words" = some v ∧
    Returns (pyInt v : Except Raised ℤ)

theorem subscript_eq_ok {δ : Type} {v w : Json} {key : String} :
    (subscript v key : Except (Exc δ) Json) = .ok w ↔
      ∃ d, asDict v = some d ∧ d.get? key = some w := by
  cases v with
  | obj ms =>
    unfold subscript asDict
    cases h : (dictOf ms).get? key <;> simp [h]
  | _ => simp [subscript, asDict]

theorem WordLimit.returns_fromDict (raw : Json) :
    Returns (WordLimit.fromDict raw) ↔ WordLimit.Legible raw := by
  unfold WordLimit.fromDict WordLimit.Legible
  split
  · rename_i h
    simp only [h, true_implies, returns_bind, subscript_eq_ok, dictMethod_eq_ok]
    constructor
    · rintro ⟨v, ⟨d, hd, hv⟩, n, hn, _⟩
      exact ⟨d, v, hd, hv, n, hn⟩
    · rintro ⟨d, v, hd, hv, n, hn⟩
      exact ⟨v, ⟨d, hd, hv⟩, n, hn, d, hd, returns_pure _⟩
  · rename_i h
    simp [h]

theorem WordLimit.isSome_of_fromDict {raw : Json} {l : Option WordLimit}
    (h : WordLimit.fromDict raw = .ok l) (ht : truthy raw = true) : l.isSome = true := by
  unfold WordLimit.fromDict at h
  rw [if_pos ht] at h
  obtain ⟨v, _, h⟩ := bind_eq_ok.1 h
  obtain ⟨n, _, h⟩ := bind_eq_ok.1 h
  obtain ⟨d, _, h⟩ := bind_eq_ok.1 h
  cases h
  rfl

end IeltsHub.QtypesSchemas
