import IeltsHub.PyTime
import IeltsHub.RowTable
import IeltsHub.WorkersActors

set_option autoImplicit false

/-!
# The outbox relay

`app/workers/relay.py`: one pass claims a batch of pending rows, dispatches each, and marks it or
pushes it out. `World` is the outbox with what has left it: the messages on the queue, by the row
they were sent for, and the trials that committed passes made. `Act` is everything that happens
to the outbox, a relay that dies in the middle of a pass included.
-/
namespace IeltsHub.WorkersRelay
open PyValue PyTime RowTable WorkersActors

def batchSize : ℕ := 100
def maxAttempts : ℕ := 8
def backoffBase : ℕ := 2
def backoffCap : ℤ := seconds 600

/-- `isinstance(exc, TRANSIENT)`. -/
def transient : Failure → Bool
  | .domain (.broker (.other _)) => false
  | .domain (.broker _) => true
  | _ => false

structure Event where
  aggregateType : String
  aggregateId : String
  eventType : String
  payload : Json
  deriving DecidableEq

/-- `last_error` is held by the exception its text is cut from. -/
structure Row where
  id : ℕ
  event : Event
  availableAt : Time
  dispatchedAt : Option Time := none
  attempts : ℕ := 0
  lastError : Option Failure := none
  deriving DecidableEq

def Row.pending (r : Row) : Bool := r.dispatchedAt.isNone

/-- `row["payload"] or {}`. -/
def Row.payload (r : Row) : Json := if truthy r.event.payload then r.event.payload else .obj []

/-! ## The table -/

/-- No row has an id the sequence is still to give. -/
structure Outbox where
  rows : Table Row ℕ Row.id
  nextId : ℕ
  fresh : ∀ r ∈ rows.rows, r.id < nextId

namespace Outbox

def get? (o : Outbox) (id : ℕ) : Option Row := o.rows.get? id

/-- `UPDATE outbox SET … WHERE id = :id`. -/
def update (o : Outbox) (id : ℕ) (f : Row → Row) (hf : ∀ r, (f r).id = r.id) : Outbox where
  rows := o.rows.mapRows (fun r => if r.id = id then f r else r) (by
    intro r
    split
    · exact hf r
    · rfl)
  nextId := o.nextId
  fresh := by
    intro r hr
    obtain ⟨r₀, h₀, rfl⟩ := List.mem_map.1 hr
    have := o.fresh r₀ h₀
    split
    · rw [hf]
      exact this
    · exact this

/-- `INSERT INTO outbox`, the other columns by their defaults. -/
def insert (o : Outbox) (event : Event) (now : Time) : Outbox where
  rows := o.rows.put { id := o.nextId, event, availableAt := now }
  nextId := o.nextId + 1
  fresh := by
    have hnone : o.rows.get? o.nextId = none :=
      Table.get?_eq_none.2 (fun r hr => (o.fresh r hr).ne)
    intro r hr
    rw [Table.rows_put_of_get?_eq_none hnone, List.mem_append, List.mem_singleton] at hr
    rcases hr with hr | rfl
    · exact (o.fresh r hr).trans (Nat.lt_succ_self _)
    · exact Nat.lt_succ_self _

/-- `purge_dispatched`, with the cutoff worked out. -/
def purge (o : Outbox) (cutoff : Time) : Outbox where
  rows := {
    rows := o.rows.rows.filter (fun r => !(r.dispatchedAt.any (fun t => t < cutoff)))
    nodup := o.rows.nodup.sublist (List.filter_sublist.map _) }
  nextId := o.nextId
  fresh := fun r hr => o.fresh r (List.mem_filter.1 hr).1

variable {o : Outbox} {r : Row}

theorem get?_eq_some {id : ℕ} : o.get? id = some r ↔ r ∈ o.rows.rows ∧ r.id = id :=
  Table.get?_eq_some

theorem get?_update (id : ℕ) {f : Row → Row} (hf : ∀ r, (f r).id = r.id) :
    (o.update id f hf).get? id = (o.get? id).map f := by
  unfold get? update
  rw [Table.get?_mapRows]
  cases h : o.rows.get? id with
  | none => rfl
  | some r => simp [Table.get?_key h]

theorem get?_update_of_ne {id id' : ℕ} {f : Row → Row} (hf : ∀ r, (f r).id = r.id)
    (h : id' ≠ id) :
    (o.update id f hf).get? id' = o.get? id' := by
  unfold get? update
  rw [Table.get?_mapRows]
  cases hr : o.rows.get? id' with
  | none => rfl
  | some r => simp [Table.get?_key hr, h]

theorem get?_insert {event : Event} {now : Time} (id : ℕ) :
    (o.insert event now).get? id =
      if o.nextId = id then some { id := o.nextId, event, availableAt := now } else o.get? id :=
  Table.get?_put o.rows _ id

theorem get?_purge {cutoff : Time} {id : ℕ} : (o.purge cutoff).get? id = some r ↔
    o.get? id = some r ∧ ∀ t, r.dispatchedAt = some t → cutoff ≤ t := by
  rw [get?_eq_some, get?_eq_some]
  unfold purge
  rw [List.mem_filter]
  cases r.dispatchedAt <;> simp [and_comm, and_left_comm]

theorem lt_nextId {id : ℕ} (h : o.get? id = some r) : id < o.nextId := by
  obtain ⟨hr, rfl⟩ := get?_eq_some.1 h
  exact o.fresh r hr

end Outbox

/-! ## One pass -/

/-- One trial a committed pass made of a row, and what it raised. -/
structure Trial where
  row : ℕ
  moment : Time
  raised : Option Failure
  deriving DecidableEq

structure World where
  outbox : Outbox
  queue : List (ℕ × Message) := []
  frames : List RealtimeFrame := []
  history : List Trial := []

/-- What a pass meets: the clock, the rows other passes hold, and the broker for each row. -/
structure Pass where
  now : Time
  batch : ℕ := batchSize
  locked : ℕ → Bool := fun _ => false
  broker : ℕ → Broker := fun _ => {}

def selectable (now : Time) (r : Row) : Bool :=
  r.pending && r.availableAt ≤ now && r.attempts < maxAttempts

/-- `ORDER BY available_at, id`. -/
def Row.before (r s : Row) : Prop :=
  r.availableAt < s.availableAt ∨ r.availableAt = s.availableAt ∧ r.id ≤ s.id

instance (r s : Row) : Decidable (r.before s) := inferInstanceAs (Decidable (_ ∨ _))

/-- The rows the `SELECT … FOR UPDATE SKIP LOCKED` of a pass returns. -/
def claimed (p : Pass) (o : Outbox) : List Row :=
  (((o.rows.select (selectable p.now)).filter (fun r => !p.locked r.id)).insertionSort
    Row.before).take p.batch

def trial (p : Pass) (row : Row) : Except Failure Unit × Wire :=
  dispatchAll (p.broker row.id) row.event.eventType row.payload row.event.aggregateId {}

def backoff (attempts : ℕ) : ℤ := min backoffCap (seconds (backoffBase ^ max 1 (attempts + 1)))

/-- The columns `_reschedule` writes, from the row as it was read. -/
def reschedule (row : Row) (e : Failure) (moment : Time) (r : Row) : Row :=
  { r with
    attempts := row.attempts + (if transient e then 0 else 1)
    lastError := some e
    availableAt := moment + backoff row.attempts }

def markDispatched (moment : Time) (r : Row) : Row :=
  { r with dispatchedAt := some moment, lastError := none }

@[simp] theorem reschedule_id (row : Row) (e : Failure) (moment : Time) (r : Row) :
    (reschedule row e moment r).id = r.id := rfl

@[simp] theorem markDispatched_id (moment : Time) (r : Row) : (markDispatched moment r).id = r.id :=
  rfl

def relayRow (p : Pass) (s : World × ℕ) (row : Row) : World × ℕ :=
  let (result, wire) := trial p row
  let w := { s.1 with
    queue := s.1.queue ++ wire.queue.map (fun m => (row.id, m))
    frames := s.1.frames ++ wire.frames }
  match result with
  | .error e =>
    ({ w with
      outbox := w.outbox.update row.id (reschedule row e p.now) (reschedule_id row e p.now)
      history := w.history ++ [⟨row.id, p.now, some e⟩] }, s.2)
  | .ok () =>
    ({ w with
      outbox := w.outbox.update row.id (markDispatched p.now) (markDispatched_id p.now)
      history := w.history ++ [⟨row.id, p.now, none⟩] }, s.2 + 1)

def drain (p : Pass) (w : World) : World × ℕ := (claimed p w.outbox).foldl (relayRow p) (w, 0)

/-! ## Everything that happens to the outbox -/

inductive Act where
  | drain (p : Pass)
  /-- A relay that dies in a pass: the transaction is gone, the first `sent` messages are not. -/
  | died (p : Pass) (sent : ℕ)
  | emit (event : Event) (now : Time)
  | purge (cutoff : Time)

def act (w : World) : Act → World
  | .drain p => (drain p w).1
  | .died p sent => { w with
      queue := w.queue ++ ((drain p w).1.queue.drop w.queue.length).take sent }
  | .emit event now => { w with outbox := w.outbox.insert event now }
  | .purge cutoff => { w with outbox := w.outbox.purge cutoff }

def runAll (w : World) (acts : List Act) : World := acts.foldl act w

/-! ## What one pass leaves -/

section
variable {p : Pass} {w : World} {o : Outbox} {row r : Row}

theorem mem_claimed (h : r ∈ claimed p o) :
    r ∈ o.rows.rows ∧ selectable p.now r = true ∧ p.locked r.id = false := by
  unfold claimed at h
  have h := List.mem_of_mem_take h
  rw [List.mem_insertionSort, List.mem_filter, Table.select, List.mem_filter] at h
  exact ⟨h.1.1, h.1.2, by simpa using h.2⟩

theorem claimed_nodup (p : Pass) (o : Outbox) : ((claimed p o).map Row.id).Nodup := by
  unfold claimed
  refine List.Nodup.sublist ((List.take_sublist ..).map _) ?_
  refine ((List.perm_insertionSort ..).map Row.id).nodup_iff.2 ?_
  refine List.Nodup.sublist (List.filter_sublist.map _) ?_
  exact List.Nodup.sublist (List.filter_sublist.map _) o.rows.nodup

theorem selectable_iff {now : Time} : selectable now r = true ↔
    r.pending = true ∧ r.availableAt ≤ now ∧ r.attempts < maxAttempts := by
  simp [selectable, and_assoc]

end

end IeltsHub.WorkersRelay
