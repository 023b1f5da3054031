import IeltsHub.QtypesLexicon

set_option autoImplicit false

/-!
# The normalizer pipeline

Ten rewrites of a text in one canonical order. All but `number_word` are total. `number_word`
converts a token once `str.isdigit` has accepted it, prints the number it read, and calls itself
for what follows a scale word: it raises for a digit that is no decimal, for a numeral too long to
convert or to print, and when the recursion limit is met.
-/
namespace IeltsHub.QtypesNormalizers
open PyText PyValue PlatformErrors QtypesSchemas QtypesLexicon

def edgePunct : String := "\"'“”‘’.,;:!?()[]\x7b\x7d…"

def articles : List String := ["a", "an", "the"]

def ordinalWords : List (String × String) :=
  [("first", "1"), ("second", "2"), ("third", "3"), ("fourth", "4"), ("fifth", "5"),
    ("sixth", "6"), ("seventh", "7"), ("eighth", "8"), ("ninth", "9"), ("tenth", "10"),
    ("eleventh", "11"), ("twelfth", "12"), ("twentieth", "20"), ("thirtieth", "30")]

def scale? (token : String) : Option ℕ :=
  if token = "hundred" then some 100
  else if token = "thousand" then some 1000
  else if token = "million" then some 1000000
  else none

structure Step where
  name : String
  before : String
  after : String
  deriving DecidableEq

structure Normalized where
  value : String
  steps : List Step
  deriving DecidableEq

def Normalized.asExplain (n : Normalized) : Json :=
  .arr (n.steps.map (fun s =>
    .obj [("normalizer", .str s.name), ("before", .str s.before), ("after", .str s.after)]))

/-! ## The total rewrites -/

def trim (v : String) : String := strip v

def collapseSpace (v : String) : String := join " " (split v)

/-- Edges only: internal hyphens and apostrophes belong to later normalizers. -/
def stripPunctuation (v : String) : String :=
  join " " (((split v).map (stripChars edgePunct)).filter (fun t => t ≠ ""))

def hyphenFlexible (v : String) : String :=
  join " " (split (replaceChar '–' " " (replaceChar '-' " " v)))

def stripArticles (v : String) : String :=
  let kept := (split v).filter (fun t => !articles.contains t)
  if kept.isEmpty then v else join " " kept

def contractionExpand (lex : Lexicon) (v : String) : String :=
  join " " ((split v).map lex.expandContraction)

def spellingUkUs (lex : Lexicon) (v : String) : String :=
  join " " ((lex.applyPhrases "spelling_variant" (split v)).map
    (lex.canonicalToken "spelling_variant"))

/-- `^(\d+)(st|nd|rd|th)$`, and the digits it captures. -/
def ordinalSuffix (token : String) : Option String :=
  let cs := token.toList
  let digits := cs.takeWhile (fun c => (decimal? c).isSome)
  if digits.isEmpty then none
  else if ["st", "nd", "rd", "th"].contains (.ofList (cs.drop digits.length)) then
    some (.ofList digits)
  else none

def ordinalDigit (v : String) : String :=
  join " " ((split v).map (fun t =>
    (ordinalSuffix t).getD ((ordinalWords.lookup t).getD t)))

/-! ## Number words -/

/-- The guard is `isdigit`, the conversion is `int`. -/
def digitOf (lex : Lexicon) (token : String) : Except Raised (Option ℕ) :=
  let canon := lex.canonicalToken "number_word" token
  if isdigit canon then (fun n => some n.toNat) <$> intOfText canon
  else .ok none

def Tens (n : ℕ) : Prop := 20 ≤ n ∧ n ≤ 90 ∧ n % 10 = 0

instance (n : ℕ) : Decidable (Tens n) := inferInstanceAs (Decidable (_ ∧ _))

/-- `_digit_of` of the next token, and none where the tokens end. -/
def peek (lex : Lexicon) : List String → Except Raised (Option ℕ)
  | [] => .ok none
  | u :: _ => digitOf lex u

/-- The word `and` may stand between a scale word and what is below the scale. -/
def andSkip (ts : List String) : ℕ := if ts.tail.head? = some "and" then 1 else 0

def afterScale (ts : List String) : List String := ts.tail.drop (andSkip ts)

/-- `_parse_number` at the head of the tokens: how many it consumes, none when no number stands
there, and the value. `frames` is how many nested calls the recursion limit still admits. -/
def parseNumber (lex : Lexicon) : ℕ → List String → Except Raised (ℕ × ℕ)
  | 0, _ => .error .recursionError
  | _ + 1, [] => .error .indexError
  | frames + 1, t :: ts => do
    match ← digitOf lex t with
    | none => return (0, 0)
    | some first =>
      match ts.head?.bind scale? with
      | some scale =>
        match ← peek lex (afterScale ts) with
        | some r =>
          if r < scale then
            let (nested, value) ← parseNumber lex frames (afterScale ts)
            if nested = 0 then return (2, first * scale)
            else return (2 + andSkip ts + nested, first * scale + value)
          else return (2, first * scale)
        | none => return (2, first * scale)
      | none =>
        -- only the tens take a unit
        if Tens first then
          match ← peek lex ts with
          | some unit => if 1 ≤ unit ∧ unit ≤ 9 then return (2, first + unit) else return (1, first)
          | none => return (1, first)
        else return (1, first)

/-- The loop of `_number_word`; `skip` tokens belong to the number just written. -/
def numberTokens (lex : Lexicon) (frames : ℕ) : ℕ → List String → Except Raised (List String)
  | _, [] => .ok []
  | skip + 1, _ :: ts => numberTokens lex frames skip ts
  | 0, t :: ts => do
    let (consumed, value) ← parseNumber lex frames (t :: ts)
    if consumed = 0 then
      return lex.canonicalToken "unit_form" t :: (← numberTokens lex frames 0 ts)
    else
      let text ← textOfNat value
      return text :: (← numberTokens lex frames (consumed - 1) ts)

/-- The tokens `_number_word` reads: phrases replaced, then hyphens opened. -/
def numberWords (lex : Lexicon) (v : String) : List String :=
  (lex.applyPhrases "number_word" (split v)).flatMap (splitOn '-')

def numberWord (lex : Lexicon) (frames : ℕ) (v : String) : Except Raised String :=
  join " " <$> numberTokens lex frames 0 (numberWords lex v)

/-! ## The chain -/

def implementation (lex : Lexicon) (frames : ℕ) (n : Normalizer) (v : String) :
    Except Raised String :=
  match n with
  | .trim => .ok (trim v)
  | .collapseSpace => .ok (collapseSpace v)
  | .casefold => .ok (casefold v)
  | .stripPunctuation => .ok (stripPunctuation v)
  | .hyphenFlexible => .ok (hyphenFlexible v)
  | .stripArticles => .ok (stripArticles v)
  | .contractionExpand => .ok (contractionExpand lex v)
  | .spellingUkUs => .ok (spellingUkUs lex v)
  | .numberWord => numberWord lex frames v
  | .ordinalDigit => .ok (ordinalDigit v)

/-- A chain bound to one lexicon; its names select from the canonical order. -/
structure Pipeline where
  names : List Normalizer
  lexicon : Lexicon
  frames : ℕ
  canonical : names.Sublist normalizerOrder

namespace Pipeline

def select (names : List Json) (lexicon : Lexicon) (frames : ℕ) : Pipeline where
  names := normalizerOrder.filter (fun n => names.contains (.str n.name))
  lexicon := lexicon
  frames := frames
  canonical := List.filter_sublist

/-- `Pipeline(names, lexicon)`: the names go through a set, so each must be hashable. -/
def ofNames (names : List Json) (lexicon : Lexicon) (frames : ℕ) : Except Raised Pipeline :=
  if names.all hashable then .ok (select names lexicon frames) else .error .typeError

def withoutCasefold (p : Pipeline) : Pipeline :=
  { p with
    names := p.names.filter (fun n => n ≠ .casefold)
    canonical := List.filter_sublist.trans p.canonical }

/-- `replacing(tuple(names))`, where a key names its own normalizers. -/
def override (p : Pipeline) (names : Json) : Except Raised Pipeline :=
  if truthy names then iter names >>= fun es => ofNames es p.lexicon p.frames else .ok p

def runStep (p : Pipeline) (done : Normalized) (n : Normalizer) : Except Raised Normalized := do
  let after ← implementation p.lexicon p.frames n done.value
  if after ≠ done.value then
    return ⟨after, done.steps ++ [⟨n.name, done.value, after⟩]⟩
  else return done

def run (p : Pipeline) (value : String) : Except Raised Normalized :=
  p.names.foldlM p.runStep ⟨value, []⟩

end Pipeline

end IeltsHub.QtypesNormalizers
