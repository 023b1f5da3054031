import IeltsHub.BillingModels

set_option autoImplicit false

/-!
# Is this allowed

The check walks the rows held by the user and then those of the organizations, and answers with
the first live one; a seat licence counts for the users who hold a seat of it. A denial names the
most informative reason met.
-/
namespace IeltsHub.Entitlements
open PyTime BillingModels

inductive Reason where
  | granted | no_entitlement | expired | not_started | revoked | exhausted | no_seat
  deriving DecidableEq, Repr

/-- `None` is unlimited. -/
def remaining (e : Entitlement) : Option ℤ := e.quantity.map (fun q => max 0 (q - e.consumed))

def statusAt (e : Entitlement) (now : Time) : Reason :=
  if e.revokedAt.any (fun t => t ≤ now) then .revoked
  else if now < e.startsAt then .not_started
  else if e.expiresAt.any (fun t => t ≤ now) then .expired
  else if remaining e = some 0 then .exhausted
  else .granted

structure Decision where
  allowed : Bool
  reason : Reason
  entitlement : Option Entitlement := none
  remaining : Option ℤ := none

/-- The place of a reason in `_INFORMATIVENESS`. -/
def informativeness : Reason → ℕ
  | .granted => 0
  | .no_entitlement => 1
  | .no_seat => 2
  | .not_started => 3
  | .exhausted => 4
  | .expired => 5
  | .revoked => 6

/-- `max`: of equals the first. -/
def moreInformative (current candidate : Reason) : Reason :=
  if informativeness current < informativeness candidate then candidate else current

/-- The first live row that `covers` the user, or the best denial so far. -/
def firstGranted (now : Time) (covers : Entitlement → Bool) :
    Reason → List Entitlement → Decision
  | best, [] => { allowed := false, reason := best }
  | best, e :: rest =>
    if statusAt e now ≠ .granted then
      firstGranted now covers (moreInformative best (statusAt e now)) rest
    else if covers e then
      { allowed := true, reason := .granted, entitlement := some e, remaining := remaining e }
    else firstGranted now covers (moreInformative best .no_seat) rest

structure Seat where
  entitlementId : ℕ
  userId : ℕ
  releasedAt : Option Time
  deriving DecidableEq

def heldSeats (seats : List Seat) : List ℕ :=
  (seats.filter (fun s => s.releasedAt = none)).map Seat.entitlementId

def coveredBySeat (held : List ℕ) (e : Entitlement) : Bool := e.sourceKind ≠ .seat ∨ e.id ∈ held

def checkUser (now : Time) (rows : List Entitlement) : Decision :=
  firstGranted now (fun _ => true) .no_entitlement rows

def checkOrgs (now : Time) (held : List ℕ) (best : Reason) (rows : List Entitlement) : Decision :=
  firstGranted now (coveredBySeat held) best rows

/-- `check` over the rows the store returns: those of the user, those of the organizations where
there are any, and the user's seats. -/
def check (now : Time) (userRows : List Entitlement) (orgRows : Option (List Entitlement))
    (seats : List Seat) : Decision :=
  let direct := checkUser now userRows
  if direct.allowed then direct
  else
    match orgRows with
    | none => direct
    | some rows => checkOrgs now (heldSeats seats) direct.reason rows

/-- What spending one unit of the row found does, before the store is asked: nothing for an
unlimited row, and nothing for one with less than `amount` left. -/
inductive Spending where
  | unlimited
  | short
  | spend
  deriving DecidableEq

def spending (e : Entitlement) (amount : ℤ) : Spending :=
  match remaining e with
  | none => .unlimited
  | some left => if left < amount then .short else .spend

/-- `row.consumed += amount`. -/
def consumeRow (e : Entitlement) (amount : ℤ) : ℤ := e.consumed + amount

def refundRow (e : Entitlement) (amount : ℤ) : ℤ := max 0 (e.consumed - amount)

/-! ## What a grant says -/

variable {now : Time} {covers : Entitlement → Bool} {best : Reason} {rows : List Entitlement}
  {e : Entitlement}

theorem firstGranted_entitlement (h : (firstGranted now covers best rows).entitlement = some e) :
    e ∈ rows ∧ statusAt e now = .granted ∧ covers e = true := by
  induction rows generalizing best with
  | nil => cases h
  | cons x rest ih =>
    unfold firstGranted at h
    split at h
    · obtain ⟨hmem, hlive⟩ := ih h
      exact ⟨List.mem_cons_of_mem _ hmem, hlive⟩
    · next hstatus =>
      split at h
      · next hcovers =>
        cases h
        exact ⟨List.mem_cons_self, not_not.1 hstatus, hcovers⟩
      · obtain ⟨hmem, hlive⟩ := ih h
        exact ⟨List.mem_cons_of_mem _ hmem, hlive⟩

theorem consumed_lt_of_granted {q : ℤ} (h : statusAt e now = .granted) (hq : e.quantity = some q) :
    e.consumed < q := by
  unfold statusAt at h
  split at h
  · cases h
  · split at h
    · cases h
    · split at h
      · cases h
      · split at h
        · cases h
        · next hleft =>
          rw [remaining, hq] at hleft
          by_contra hnot
          have hzero : max 0 (q - e.consumed) = 0 := by omega
          exact hleft (by rw [Option.map_some, hzero])

end IeltsHub.Entitlements
