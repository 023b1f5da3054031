import Mathlib
import IeltsHub.PyDict
import IeltsHub.PyTime
import IeltsHub.GreedyPairing

set_option autoImplicit false

/-!
# The matcher

`app/modules/speaking/matching.py`. Candidates are partitioned on age and language before anybody
is compared; within a partition they take turns in waiting order, each free one taking the free
partner nearest in band.
-/
namespace IeltsHub.SpeakingMatching
open PyDict PyTime

/-- Raised rather than returned. -/
structure UnsafePair where
  message : String
  deriving DecidableEq, Repr

structure Candidate where
  userXid : String
  isMinor : Bool
  language : String := "en"
  band : Option ℚ := none
  waitingSince : Option Time := none
  orgXid : Option String := none
  orgOnly : Bool := false
  recentPartners : Finset String := ∅
  blocked : Finset String := ∅
  deriving DecidableEq

def Candidate.cohortKey (c : Candidate) : Bool × String := (c.isMinor, c.language)

structure Pair where
  a : Candidate
  b : Candidate
  ageBand : String
  bandGap : Option ℚ
  again : Bool
  deriving DecidableEq

structure Outcome where
  pairs : List Pair
  unmatched : List Candidate
  deriving DecidableEq

def maxBandGap : ℚ := 2

/-- `datetime.max`, the last microsecond of the year 9999. -/
def datetimeMax : Time := 253402300799999999

def gap (a b : Candidate) : Option ℚ :=
  match a.band, b.band with
  | some x, some y => some |x - y|
  | _, _ => none

def closer (gap best : Option ℚ) : Bool :=
  match gap, best with
  | none, _ => false
  | some _, none => true
  | some g, some b => g < b

def order (c : Candidate) : ℤ ×ₗ ℚ ×ₗ String :=
  toLex (c.waitingSince.getD datetimeMax, toLex (c.band.getD 99, c.userXid))

def sortedByOrder (pool : List Candidate) : List Candidate :=
  pool.insertionSort (fun a b => order a ≤ order b)

def compatible (a b : Candidate) (allowRepeat : Bool) : Bool :=
  if b.userXid ∈ a.blocked ∨ a.userXid ∈ b.blocked then false
  else if a.language ≠ b.language then false
  else if (a.orgOnly || b.orgOnly) &&
      (a.orgXid.isNone || b.orgXid.isNone || a.orgXid != b.orgXid) then false
  else if !allowRepeat &&
      (decide (b.userXid ∈ a.recentPartners) || decide (a.userXid ∈ b.recentPartners)) then false
  else true

/-- One turn of the loop of `_best_partner`: the best so far, with its gap. -/
def considerPartner (candidate : Candidate) (taken : List String) (allowRepeat : Bool)
    (best : Option (Candidate × Option ℚ)) (other : Candidate) :
    Option (Candidate × Option ℚ) :=
  if other.userXid = candidate.userXid ∨ other.userXid ∈ taken then best
  else if !compatible candidate other allowRepeat then best
  else if (gap candidate other).any (fun g => maxBandGap < g) then best
  else
    match best with
    | none => some (other, gap candidate other)
    | some (_, bestGap) =>
      if closer (gap candidate other) bestGap then some (other, gap candidate other) else best

def bestPartner (candidate : Candidate) (pool : List Candidate) (taken : List String)
    (allowRepeat : Bool) : Option Candidate :=
  (pool.foldl (considerPartner candidate taken allowRepeat) none).map Prod.fst

def partnerOf (candidate : Candidate) (ordered : List Candidate) (taken : List String)
    (allowRepeats : Bool) : Option (Candidate × Bool) :=
  match bestPartner candidate ordered taken false with
  | some partner => some (partner, false)
  | none =>
    if allowRepeats then
      (bestPartner candidate ordered taken true).map (fun partner => (partner, true))
    else none

structure Loop where
  taken : List String := []
  pairs : List Pair := []

def pairTurn (ordered : List Candidate) (allowRepeats : Bool) (s : Loop) (candidate : Candidate) :
    Loop :=
  if candidate.userXid ∈ s.taken then s
  else
    match partnerOf candidate ordered s.taken allowRepeats with
    | none => s
    | some (partner, again) =>
      { taken := s.taken ++ [candidate.userXid, partner.userXid]
        pairs := s.pairs ++ [{
          a := candidate
          b := partner
          ageBand := if candidate.isMinor then "minor" else "adult"
          bandGap := gap candidate partner
          again }] }

def pairWithin (pool : List Candidate) (allowRepeats : Bool) : List Pair × List Candidate :=
  let ordered := sortedByOrder pool
  let s := ordered.foldl (pairTurn ordered allowRepeats) {}
  (s.pairs, ordered.filter (fun c => c.userXid ∉ s.taken))

/-- `partitions.setdefault(key, []).append(candidate)`. -/
def joinCohort (partitions : Dict (Bool × String) (List Candidate)) (candidate : Candidate) :
    Dict (Bool × String) (List Candidate) :=
  partitions.put candidate.cohortKey
    ((partitions.get? candidate.cohortKey).getD [] ++ [candidate])

def partitions (candidates : List Candidate) : Dict (Bool × String) (List Candidate) :=
  candidates.foldl joinCohort Dict.empty

def sortedKeys (d : Dict (Bool × String) (List Candidate)) : List (Bool × String) :=
  d.keys.insertionSort (fun k l => toLex k ≤ toLex l)

def checkPair (pair : Pair) : Except UnsafePair Unit :=
  if pair.a.isMinor ≠ pair.b.isMinor then
    .error ⟨s!"{pair.a.userXid} and {pair.b.userXid} are in different age bands. " ++
      "This is a bug in the partitioning, not a match to reject."⟩
  else .ok ()

def matchCandidates (candidates : List Candidate) (allowRepeats : Bool) :
    Except UnsafePair Outcome := do
  let parts := partitions candidates
  let made := (sortedKeys parts).map (fun key => pairWithin ((parts.get? key).getD []) allowRepeats)
  let pairs := made.flatMap Prod.fst
  pairs.forM checkPair
  return { pairs, unmatched := sortedByOrder (made.flatMap Prod.snd) }

end IeltsHub.SpeakingMatching
