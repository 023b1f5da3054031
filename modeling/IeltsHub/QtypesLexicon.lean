import IeltsHub.QtypesSchemas

set_option autoImplicit false

/-!
# Tolerance lexicon

Lookup tables built once from the entry list. The canonical direction is `b -> a`: both sides of
a pair collapse onto the form `a` holds.
-/
namespace IeltsHub.QtypesLexicon
open PyText PyDict

structure LexEntry where
  kind : String
  a : String
  b : String
  bidirectional : Bool := true

structure Lexicon where
  token : Dict String (Dict String String) := Dict.empty
  phrase : Dict String (Dict (List String) (List String)) := Dict.empty
  contractions : Dict String String := Dict.empty
  maxPhraseLen : ℕ := 1

namespace Lexicon

def addContraction (lex : Lexicon) (e : LexEntry) : Lexicon :=
  let contractions := lex.contractions.put e.a e.b
  { lex with
    contractions := if e.bidirectional then contractions.setDefault e.b e.b else contractions }

def addPhrase (lex : Lexicon) (e : LexEntry) : Lexicon :=
  let a := split e.a
  let b := split e.b
  let table := ((lex.phrase.get? e.kind).getD Dict.empty).put b a
  { lex with
    phrase := lex.phrase.put e.kind (if e.bidirectional then table.setDefault a a else table)
    maxPhraseLen := max lex.maxPhraseLen (max a.length b.length) }

def addToken (lex : Lexicon) (e : LexEntry) : Lexicon :=
  -- the first entry wins, so a later one-way pair cannot redirect a canonical form
  let table := ((lex.token.get? e.kind).getD Dict.empty).setDefault e.b e.a
  { lex with
    token := lex.token.put e.kind (if e.bidirectional then table.setDefault e.a e.a else table) }

def add (lex : Lexicon) (e : LexEntry) : Lexicon :=
  if e.kind = "contraction" then lex.addContraction e
  else if 1 < (split e.a).length ∨ 1 < (split e.b).length then lex.addPhrase e
  else lex.addToken e

def ofEntries (entries : List LexEntry) : Lexicon := entries.foldl add {}

def canonicalToken (lex : Lexicon) (kind token : String) : String :=
  (((lex.token.get? kind).getD Dict.empty).get? token).getD token

def expandContraction (lex : Lexicon) (token : String) : String :=
  (lex.contractions.get? token).getD token

def longestGram (table : Dict (List String) (List String)) (tokens : List String) :
    ℕ → Option (ℕ × List String)
  | 0 => none
  | size + 1 =>
    match table.get? (tokens.take (size + 1)) with
    | some replacement => some (size + 1, replacement)
    | none => longestGram table tokens size

/-- The loop of `apply_phrases`; `skip` tokens belong to the phrase just replaced. -/
def replaceGrams (table : Dict (List String) (List String)) (maxLen : ℕ) :
    ℕ → List String → List String
  | _, [] => []
  | skip + 1, _ :: ts => replaceGrams table maxLen skip ts
  | 0, t :: ts =>
    match longestGram table (t :: ts) (min maxLen (t :: ts).length) with
    | some (size, replacement) => replacement ++ replaceGrams table maxLen (size - 1) ts
    | none => t :: replaceGrams table maxLen 0 ts

def applyPhrases (lex : Lexicon) (kind : String) (tokens : List String) : List String :=
  match lex.phrase.get? kind with
  | none => tokens
  | some table => if table.entries.isEmpty then tokens
    else replaceGrams table lex.maxPhraseLen 0 tokens

end Lexicon

end IeltsHub.QtypesLexicon
