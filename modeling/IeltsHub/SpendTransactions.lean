import IeltsHub.Entitlements
import IeltsHub.GuardedRuns

set_option autoImplicit false

/-!
# Spending and refunding as transactions

`consume` and `refund` calls, each in a READ COMMITTED transaction of its own. A call reads its
rows statement by statement, adds to the copy it was given and writes the sum back; the flush
waits for the row's lock, and the others see the write once it commits. `spends` and `returns`
count what was committed, for the statements only.
-/
namespace IeltsHub.SpendTransactions
open PyTime RowTable BillingModels Entitlements

inductive Request where
  | consume (userId : ℕ) (feature : String) (orgIds : List ℕ)
  | refund (entitlementId : ℕ) (amount : ℕ)

/-- A unit spent: the row as the check read it, and for whom. -/
structure Spent where
  row : Entitlement
  userId : ℕ
  feature : String
  orgIds : List ℕ
  now : Time

/-- What a call writes back: the row as loaded, the sum, and what it counts as. -/
structure Held where
  loaded : Entitlement
  consumed : ℤ
  spent : Option Spent
  returned : ℕ

inductive Phase where
  | waiting
  | askedUser (now : Time) (best : Reason)
  | askedSeats (now : Time) (best : Reason) (held : List ℕ)
  | chosen (now : Time) (row : Entitlement)
  | loaded (row : Entitlement)
  | flushed (h : Held)
  | done (allowed : Bool)

structure Sys where
  rows : Table Entitlement ℕ Entitlement.id
  seats : List Seat
  requests : ℕ → Request
  phases : ℕ → Phase
  locks : List (ℕ × ℕ) := []
  spends : List Spent := []
  returns : List (ℕ × ℕ) := []

/-- `order` is the order a statement returns its rows in. -/
inductive Act where
  | readUser (now : Time) (order : List Entitlement)
  | readSeats
  | readOrgs (order : List Entitlement)
  | load
  | flush
  | commit
  | fail

namespace Sys

def put (s : Sys) (r : ℕ) (phase : Phase) : Sys :=
  { s with phases := Function.update s.phases r phase }

def finish (s : Sys) (r : ℕ) (allowed : Bool) : Sys :=
  { s.put r (.done allowed) with locks := s.locks.filter (fun l => l.2 ≠ r) }

def flush (s : Sys) (r : ℕ) (h : Held) : Option Sys :=
  if h.consumed = h.loaded.consumed then some (s.put r (.flushed h))
  else if s.locks.all (fun l => l.2 = r ∨ l.1 ≠ h.loaded.id) then
    some { s.put r (.flushed h) with locks := (h.loaded.id, r) :: s.locks }
  else none

end Sys

def selects (kind : SubjectKind) (ids : List ℕ) (feature : String) (e : Entitlement) : Bool :=
  e.subjectKind = kind ∧ e.subjectId.any (fun i => i ∈ ids) ∧ e.feature = feature

def found (s : Sys) (r : ℕ) (now : Time) (d : Decision) (next : Reason → Sys) : Sys :=
  match d.entitlement with
  | some row => s.put r (.chosen now row)
  | none => next d.reason

def withConsumed (e : Entitlement) (consumed : ℤ) : Entitlement := { e with consumed }

@[simp] theorem withConsumed_self (e : Entitlement) : withConsumed e e.consumed = e := rfl

@[simp] theorem withConsumed_withConsumed (e : Entitlement) (a b : ℤ) :
    withConsumed (withConsumed e a) b = withConsumed e b := rfl

def Held.landRow (h : Held) (e : Entitlement) : Entitlement :=
  if e.id = h.loaded.id then
    withConsumed e (merged h.loaded.consumed h.consumed e.consumed)
  else e

theorem Held.landRow_id (h : Held) (e : Entitlement) : (h.landRow e).id = e.id := by
  unfold landRow
  split <;> rfl

def Held.land (h : Held) (t : Table Entitlement ℕ Entitlement.id) :
    Table Entitlement ℕ Entitlement.id := t.mapRows h.landRow h.landRow_id

def step (s : Sys) (i : ℕ × Act) : Option Sys :=
  let r := i.1
  match s.requests r, s.phases r, i.2 with
  | .consume userId feature orgIds, .waiting, .readUser now order =>
    if order.isPerm (s.rows.select (selects .user [userId] feature)) then
      some (found s r now (checkUser now order) (fun best =>
        if orgIds = [] then s.finish r false else s.put r (.askedUser now best)))
    else none
  | .consume userId _ _, .askedUser now best, .readSeats =>
    some (s.put r (.askedSeats now best (heldSeats (s.seats.filter (fun x => x.userId = userId)))))
  | .consume _ feature orgIds, .askedSeats now best held, .readOrgs order =>
    if order.isPerm (s.rows.select (selects .org orgIds feature)) then
      some (found s r now (checkOrgs now held best order) (fun _ => s.finish r false))
    else none
  | .consume userId feature orgIds, .chosen now row, .flush =>
    match spending row 1 with
    | .unlimited => some (s.finish r true)
    | .short => some (s.finish r false)
    | .spend => s.flush r
        { loaded := row, consumed := consumeRow row 1, returned := 0
          spent := some { row, userId, feature, orgIds, now } }
  | .refund id _, .waiting, .load =>
    match s.rows.get? id with
    | none => some (s.finish r false)
    | some row => some (s.put r (.loaded row))
  | .refund _ amount, .loaded row, .flush =>
    s.flush r
      { loaded := row, consumed := refundRow row amount, returned := amount, spent := none }
  | _, .flushed h, .commit =>
    some { s.finish r true with
      rows := h.land s.rows
      spends := h.spent.toList ++ s.spends
      returns := (h.loaded.id, h.returned) :: s.returns }
  | _, .done _, _ => none
  | _, .waiting, _ => none
  | _, _, .fail => some (s.finish r false)
  | _, _, _ => none

abbrev Step (s : Sys) (i : ℕ × Act) (t : Sys) : Prop := step s i = some t

end IeltsHub.SpendTransactions
