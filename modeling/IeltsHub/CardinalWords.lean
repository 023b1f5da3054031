import Mathlib

set_option autoImplicit false

/-!
# English cardinals below one billion

A cardinal is up to three groups below a thousand, each before its scale word, with or without an
`and` between them. A compound of tens and units may be hyphenated, and one hundred, one thousand
and one million may begin with the article.
-/
namespace IeltsHub.CardinalWords

/-- Units are numbered from zero, as teens and tens are. -/
instance unit_neZero : NeZero 9 := ⟨by decide⟩

/-- The words a cardinal is written with, and the digits of one hundred and one thousand. -/
inductive Tok where
  | zero (w : Fin 3)
  | unit (u : Fin 9)
  | teen (n : Fin 10)
  | tens (t : Fin 8)
  | hundred
  | thousand
  | million
  | oneHundred
  | oneThousand
  | and
  | article
  deriving DecidableEq

def Tok.spell : Tok → String
  | .zero w => ["zero", "nought", "oh"].getD w ""
  | .unit u =>
    ["one", "two", "three", "four", "five", "six", "seven", "eight", "nine"].getD u ""
  | .teen n =>
    ["ten", "eleven", "twelve", "thirteen", "fourteen", "fifteen", "sixteen", "seventeen",
      "eighteen", "nineteen"].getD n ""
  | .tens t =>
    ["twenty", "thirty", "forty", "fifty", "sixty", "seventy", "eighty", "ninety"].getD t ""
  | .hundred => "hundred"
  | .thousand => "thousand"
  | .million => "million"
  | .oneHundred => "100"
  | .oneThousand => "1000"
  | .and => "and"
  | .article => "a"

def Tok.value? : Tok → Option ℕ
  | .zero _ => some 0
  | .unit u => some (u + 1)
  | .teen n => some (n + 10)
  | .tens t => some (10 * (t + 2))
  | .hundred | .oneHundred => some 100
  | .thousand | .oneThousand => some 1000
  | .million => some 1000000
  | .and | .article => none

def Tok.scale? : Tok → Option ℕ
  | .hundred => some 100
  | .thousand => some 1000
  | .million => some 1000000
  | _ => none

/-- What stands between spaces: one word, or a hyphenated compound. -/
inductive Word where
  | plain (t : Tok)
  | compound (t : Fin 8) (u : Fin 9)
  deriving DecidableEq

def Word.spell : Word → String
  | .plain t => t.spell
  | .compound t u => (Tok.tens t).spell ++ "-" ++ (Tok.unit u).spell

def Word.toks : Word → List Tok
  | .plain t => [t]
  | .compound t u => [.tens t, .unit u]

/-! ## Cardinals -/

inductive Below100 where
  | unit (u : Fin 9)
  | teen (n : Fin 10)
  | tens (t : Fin 8)
  | compound (t : Fin 8) (u : Fin 9) (hyphen : Bool)

/-- How many hundreds: a digit, or the article for one. -/
inductive Count where
  | digit (u : Fin 9)
  | article

/-- One to nine hundred and ninety-nine; the truth value is whether an `and` is written. -/
inductive Group where
  | below (r : Below100)
  | hundreds (h : Count) (rest : Option (Bool × Below100))

inductive Multiplier where
  | group (g : Group)
  | article

inductive Thousands where
  | group (g : Group)
  | scaled (m : Multiplier) (rest : Option (Bool × Group))

inductive Cardinal where
  | zero (w : Fin 3)
  | small (t : Thousands)
  | scaled (m : Multiplier) (rest : Option (Bool × Thousands))

/-! ## Their values -/

def Below100.value : Below100 → ℕ
  | .unit u => u + 1
  | .teen n => n + 10
  | .tens t => 10 * (t + 2)
  | .compound t u _ => 10 * (t + 2) + (u + 1)

def Count.value : Count → ℕ
  | .digit u => u + 1
  | .article => 1

def Group.value : Group → ℕ
  | .below r => r.value
  | .hundreds h none => h.value * 100
  | .hundreds h (some (_, r)) => h.value * 100 + r.value

def Multiplier.value : Multiplier → ℕ
  | .group g => g.value
  | .article => 1

def Thousands.value : Thousands → ℕ
  | .group g => g.value
  | .scaled m none => m.value * 1000
  | .scaled m (some (_, g)) => m.value * 1000 + g.value

def Cardinal.value : Cardinal → ℕ
  | .zero _ => 0
  | .small t => t.value
  | .scaled m none => m.value * 1000000
  | .scaled m (some (_, t)) => m.value * 1000000 + t.value

/-! ## Their words -/

def andWords (b : Bool) : List Word := if b then [.plain .and] else []

def Below100.words : Below100 → List Word
  | .unit u => [.plain (.unit u)]
  | .teen n => [.plain (.teen n)]
  | .tens t => [.plain (.tens t)]
  | .compound t u true => [.compound t u]
  | .compound t u false => [.plain (.tens t), .plain (.unit u)]

def Count.words : Count → List Word
  | .digit u => [.plain (.unit u)]
  | .article => [.plain .article]

def Group.words : Group → List Word
  | .below r => r.words
  | .hundreds h none => h.words ++ [.plain .hundred]
  | .hundreds h (some (b, r)) => h.words ++ .plain .hundred :: (andWords b ++ r.words)

def Multiplier.words : Multiplier → List Word
  | .group g => g.words
  | .article => [.plain .article]

def Thousands.words : Thousands → List Word
  | .group g => g.words
  | .scaled m none => m.words ++ [.plain .thousand]
  | .scaled m (some (b, g)) => m.words ++ .plain .thousand :: (andWords b ++ g.words)

def Cardinal.words : Cardinal → List Word
  | .zero w => [.plain (.zero w)]
  | .small t => t.words
  | .scaled m none => m.words ++ [.plain .million]
  | .scaled m (some (b, t)) => m.words ++ .plain .million :: (andWords b ++ t.words)

/-! ## Bounds -/

theorem Below100.value_bounds (r : Below100) : 1 ≤ r.value ∧ r.value < 100 := by
  cases r <;> simp only [Below100.value] <;> omega

theorem Count.value_bounds (h : Count) : 1 ≤ h.value ∧ h.value ≤ 9 := by
  cases h <;> simp only [Count.value] <;> omega

end IeltsHub.CardinalWords
