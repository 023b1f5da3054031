import IeltsHub.PyTime

set_option autoImplicit false

/-!
# The competition state machine

`schedule.py`: the next state of a contest from its state, its times and the clock, one step at a
time, and the only state a student may register in.
-/
namespace IeltsHub.CompetitionSchedule
open PyTime

inductive Status where
  | scheduled | registration | lobby | live | grading | final | cancelled
  deriving DecidableEq, Repr

structure Timing where
  status : Status
  lobbyOpensAt : Time
  startsAt : Time
  endsAt : Time
  registrationClosesAt : Option Time := none

def gradingPatience : ℤ := seconds 600

def nextStatus (timing : Timing) (now : Time) (entriesPending : ℕ) : Option Status :=
  match timing.status with
  | .final | .cancelled => none
  | .scheduled => some .registration
  | .registration => if now ≥ timing.lobbyOpensAt then some .lobby else none
  | .lobby => if now ≥ timing.startsAt then some .live else none
  | .live => if now ≥ timing.endsAt then some .grading else none
  | .grading =>
    if entriesPending = 0 then some .final
    else if now ≥ timing.endsAt + gradingPatience then some .final
    else none

def registrationOpen (timing : Timing) (now : Time) : Bool :=
  if timing.status ≠ .scheduled ∧ timing.status ≠ .registration then false
  else if timing.registrationClosesAt.any (fun t => now ≥ t) then false
  else now < timing.startsAt

/-- The place of a state on the way to `final`. -/
def Status.rank : Status → ℕ
  | .scheduled => 0
  | .registration => 1
  | .lobby => 2
  | .live => 3
  | .grading => 4
  | .final => 5
  | .cancelled => 6

def Status.begun (s : Status) : Bool := s = .live ∨ s = .grading ∨ s = .final

/-- A status that stands, or comes later on the way; none comes after `final` and `cancelled`. -/
def Forward (a b : Status) : Prop :=
  a = b ∨ (a ≠ .final ∧ a ≠ .cancelled ∧ b ≠ .cancelled ∧ a.rank < b.rank)

instance (a b : Status) : Decidable (Forward a b) := inferInstanceAs (Decidable (_ ∨ _))

theorem nextStatus_rank {timing : Timing} {now : Time} {pending : ℕ} {target : Status}
    (h : nextStatus timing now pending = some target) :
    target.rank = timing.status.rank + 1 ∧ timing.status ≠ .final ∧ target ≠ .cancelled := by
  unfold nextStatus at h
  split at h <;> rename_i hstatus <;> rw [hstatus]
  · cases h
  · cases h
  · cases h
    decide
  · split at h <;> cases h
    decide
  · split at h <;> cases h
    decide
  · split at h <;> cases h
    decide
  · split at h
    · cases h
      decide
    · split at h <;> cases h
      decide

theorem forward_nextStatus {timing : Timing} {now : Time} {pending : ℕ} {target : Status}
    (h : nextStatus timing now pending = some target) : Forward timing.status target := by
  obtain ⟨hrank, hfinal, hcancelled⟩ := nextStatus_rank h
  refine .inr ⟨hfinal, ?_, hcancelled, by omega⟩
  intro heq
  unfold nextStatus at h
  rw [heq] at h
  cases h

end IeltsHub.CompetitionSchedule
