import IeltsHub.QtypesNormalizers

set_option autoImplicit false

/-!
# Word-limit enforcement

The count runs on the raw response: words up to the limit, and one number on top of them where
the rule allows a number. A violation marks the answer wrong outright.
-/
namespace IeltsHub.QtypesWordlimit
open PyText PyValue QtypesSchemas QtypesNormalizers

structure WordCount where
  words : ℕ
  numbers : ℕ
  tokens : List String
  deriving DecidableEq

def isDecimal (c : Char) : Bool := (decimal? c).isSome

/-- What `_NUMBER_RE` admits after the first digit: more digits, groups joined by a separator,
then a percent sign and a unit of at most three letters. -/
def numberTail : List Char → Bool
  | [] => true
  | [c] => isDecimal c || isSpace c || c = '%' || ('a' ≤ c && c ≤ 'z')
  | c :: d :: cs =>
    if isDecimal c then numberTail (d :: cs)
    else if ['.', ',', ':', '/', '-'].contains c && isDecimal d then numberTail cs
    else
      let rest := (c :: d :: cs).dropWhile isSpace
      let unit := if rest.head? = some '%' then rest.tail else rest
      unit.all (fun e => 'a' ≤ e && e ≤ 'z') && unit.length ≤ 3

/-- `_NUMBER_RE.match(core)`. -/
def numberLike (core : List Char) : Bool :=
  let body := match core with
    | c :: cs => if ['£', '$', '€'].contains c then cs else c :: cs
    | [] => []
  match body with
  | d :: cs => isDecimal d && numberTail cs
  | [] => false

def countCore (rule : WordLimit) (done : WordCount) (core : String) : WordCount :=
  if core = "" then done
  else if numberLike core.toList then { done with numbers := done.numbers + 1 }
  else if rule.hyphenCountsAsOne then { done with words := done.words + 1 }
  else { done with words := done.words + core.toList.count '-' + 1 }

def count (raw : String) (rule : WordLimit) : WordCount :=
  let tokens := (split (strip raw)).filter (fun t => stripChars edgePunct t ≠ "")
  (tokens.map (fun t => casefold (stripChars edgePunct t))).foldl (countCore rule) ⟨0, 0, tokens⟩

def effectiveWords (rule : WordLimit) (c : WordCount) : ℕ :=
  if rule.allowNumber then c.words else c.words + c.numbers

def numbersOk (rule : WordLimit) (c : WordCount) : Bool := !rule.allowNumber || c.numbers ≤ 1

def wordsOk (rule : WordLimit) (c : WordCount) : Bool := (effectiveWords rule c : ℤ) ≤ rule.maxWords

/-- `violates(raw, rule)[0]`: both limits must hold. -/
def violates (raw : String) : Option WordLimit → Bool
  | none => false
  | some rule => !(wordsOk rule (count raw rule) && numbersOk rule (count raw rule))

/-- `violates(raw, rule)[1]`. -/
def violatesExplain (raw : String) : Option WordLimit → Json
  | none => .obj []
  | some rule =>
    let c := count raw rule
    .obj
      [("max_words", .int rule.maxWords), ("allow_number", .bool rule.allowNumber),
        ("hyphen_counts_as_one", .bool rule.hyphenCountsAsOne),
        ("counted_words", .int c.words), ("counted_numbers", .int c.numbers),
        ("effective_words", .int (effectiveWords rule c)), ("words_ok", .bool (wordsOk rule c)),
        ("numbers_ok", .bool (numbersOk rule c)), ("violated", .bool (violates raw (some rule)))]

@[simp] theorem violates_none (raw : String) : violates raw none = false := rfl

end IeltsHub.QtypesWordlimit
