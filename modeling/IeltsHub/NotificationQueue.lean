import IeltsHub.GuardedRuns
import IeltsHub.PyTime
import IeltsHub.PyValue
import IeltsHub.RowTable

set_option autoImplicit false

/-!
# Notifications

`modules/identity/notify.py`: a message is queued for a moment outside the quiet hours of its
recipient's zone, and `deliver` hands what is due to a transport, up to three times each. Other
services insert their notices themselves, due at once. `Db` keeps, beside the table, what was
scheduled and what was handed over.
-/
namespace IeltsHub.NotificationQueue
open PyValue PyDict PyTime RowTable GuardedRuns

def QUIET_START : ℤ := 22
def QUIET_END : ℤ := 8
def MAX_ATTEMPTS : ℕ := 3

def URGENT : List String := ["auth.otp", "safety.action_taken", "competition.starting_soon"]

def SECRET_PARAMS : List String := ["code"]

inductive Channel where
  | telegram | sms | email | inApp | push
  deriving DecidableEq

def COST_MINOR : Channel → ℕ
  | .sms => 4500
  | _ => 0

/-! ## Local time -/

def hours (n : ℤ) : ℤ := seconds (3600 * n)

/-- A zone: the offset in force at a moment, whether the moment is a second reading of its local
time, and the moment a local time is of. Of a local time that is read twice the fold takes the
earlier or the later moment. -/
structure Zone where
  utcoffset : Time → ℤ
  fold : Time → Bool
  instant : ℤ → Bool → Time
  earlier : ∀ t, (∀ u, u + utcoffset u = t + utcoffset t → t ≤ u) →
    instant (t + utcoffset t) false = t
  later : ∀ t, (∀ u, u + utcoffset u = t + utcoffset t → u ≤ t) →
    instant (t + utcoffset t) true = t

/-- `zoneinfo.ZoneInfo`, which raises for a name it does not know. -/
structure Zones where
  named : String → Option Zone
  tashkent : Zone

def Zone.wall (z : Zone) (t : Time) : ℤ := t + z.utcoffset t

def hour (wall : ℤ) : ℤ := wall / hours 1 % 24

def waking (z : Zone) (t : Time) : Bool :=
  QUIET_END ≤ hour (z.wall t) ∧ hour (z.wall t) < QUIET_START

/-- The next 08:00 after a quiet moment: `replace` keeps the fold, the day that is added drops
it. -/
def Zone.target (z : Zone) (now : Time) : ℤ × Bool :=
  let morning := z.wall now / hours 24 * hours 24 + hours QUIET_END
  if QUIET_START ≤ hour (z.wall now) then (morning + hours 24, false) else (morning, z.fold now)

/-! ## Recipients -/

/-- A row of `users`; `active` is its status. -/
structure User where
  id : ℕ
  locale : String := "uz-Latn"
  timezone : String := "Asia/Tashkent"
  phone : Option String := none
  telegramUserId : Option ℤ := none
  active : Bool := true
  deleted : Bool := false

structure Recipient where
  userId : ℕ
  locale : String
  timezone : String
  phone : Option String
  telegramUserId : Option ℤ
  deriving DecidableEq

abbrev Users := Table User ℕ User.id

/-- `_recipient`. -/
def recipient (users : Users) (userId : ℕ) : Option Recipient :=
  ((users.get? userId).filter (fun u => u.active && !u.deleted)).map (fun u =>
    { userId := u.id, locale := u.locale
      timezone := if u.timezone = "" then "Asia/Tashkent" else u.timezone
      phone := u.phone, telegramUserId := u.telegramUserId })

/-- `_channel`. -/
def channelOf (whom : Recipient) (template : String) : Channel :=
  if whom.telegramUserId.any (· ≠ 0) then .telegram
  else if template = "auth.otp" && whom.phone.any (· ≠ "") then .sms
  else .inApp

def Zones.of (zones : Zones) (whom : Recipient) : Zone :=
  (zones.named whom.timezone).getD zones.tashkent

/-- `_schedule`. -/
def schedule (zones : Zones) (whom : Recipient) (template : String) (now : Time) : Time :=
  if template ∈ URGENT then now
  else
    let z := zones.of whom
    if waking z now then now else z.instant (z.target now).1 (z.target now).2

/-! ## The table -/

inductive Status where
  | queued | sent | failed | suppressed
  deriving DecidableEq

structure Notification where
  id : ℕ := 0
  userId : ℕ
  channel : Channel
  template : String
  params : Obj
  locale : String := "uz-Latn"
  dedupeKey : Option String
  status : Status := .queued
  scheduledAt : Time
  sentAt : Option Time := none
  attempts : ℕ := 0
  failedReason : Option String := none
  costMinor : Option ℕ := none

/-- What became of a send: an exception has the name of its class and a text. -/
inductive Outcome where
  | sent
  | raised (permanent : Bool) (kind text : String)
  deriving DecidableEq

structure Scheduled where
  recipient : Recipient
  template : String
  now : Time
  due : Time

structure Handing where
  id : ℕ
  recipient : Recipient
  template : String
  moment : Time
  outcome : Outcome

structure Db where
  users : Users := .empty
  rows : Table Notification ℕ Notification.id := .empty
  scheduled : List Scheduled := []
  handed : List Handing := []

/-- `INSERT … ON CONFLICT (dedupe_key) DO NOTHING RETURNING id`. -/
def Db.insert (db : Db) (n : Notification) : Db × Option ℕ :=
  if n.dedupeKey.isSome && db.rows.rows.any (fun r => r.dedupeKey = n.dedupeKey) then (db, none)
  else ({ db with rows := db.rows.put { n with id := db.rows.nextId } }, some db.rows.nextId)

structure Message where
  userId : ℕ
  template : String
  params : Obj
  dedupeKey : Option String := none

def queue (zones : Zones) (db : Db) (m : Message) (channel : Option Channel) (now : Time) :
    Db × Option ℕ :=
  match recipient db.users m.userId with
  | none => (db, none)
  | some whom =>
    let due := schedule zones whom m.template now
    let noted : Db := { db with scheduled := db.scheduled ++ [⟨whom, m.template, now, due⟩] }
    noted.insert
      { userId := m.userId, channel := channel.getD (channelOf whom m.template)
        template := m.template, params := m.params, locale := whom.locale
        dedupeKey := m.dedupeKey, scheduledAt := due }

/-- `_notify` of the other services, the columns it does not name by their defaults. -/
def notice (db : Db) (m : Message) (now : Time) : Db :=
  (db.insert
    { userId := m.userId, channel := .inApp, template := m.template, params := m.params
      dedupeKey := m.dedupeKey, scheduledAt := now }).1

/-! ## Delivery -/

/-- `params - CAST(:secret AS text[])`. -/
def strip (params : Obj) : Obj := SECRET_PARAMS.foldl Dict.erase params

/-- `_reason`. -/
def reason (kind text : String) : String := .ofList ((kind ++ ": " ++ text).toList.take 300)

def Notification.settle (r : Notification) (now : Time) : Outcome → Notification
  | .sent =>
    { r with
      status := .sent, sentAt := some now, attempts := r.attempts + 1
      costMinor := some (COST_MINOR r.channel), params := strip r.params }
  | .raised true kind text =>
    { r with
      attempts := r.attempts + 1, failedReason := some (reason kind text), status := .failed
      params := strip r.params }
  | .raised false kind text =>
    { r with
      attempts := r.attempts + 1, failedReason := some (reason kind text)
      status := if MAX_ATTEMPTS ≤ r.attempts + 1 then .failed else .queued
      scheduledAt := now + seconds (300 * (r.attempts + 1))
      params := if MAX_ATTEMPTS ≤ r.attempts + 1 then strip r.params else r.params }

structure Delivered where
  sent : ℕ := 0
  failed : ℕ := 0
  suppressed : ℕ := 0

def deliverRow (now : Time) (send : Recipient → Notification → Outcome) (acc : Db × Delivered)
    (r : Notification) : Db × Delivered :=
  match recipient acc.1.users r.userId with
  | none =>
    ({ acc.1 with rows := acc.1.rows.put { r with status := .suppressed } },
      { acc.2 with suppressed := acc.2.suppressed + 1 })
  | some whom =>
    ({ acc.1 with
        rows := acc.1.rows.put (r.settle now (send whom r))
        handed := acc.1.handed ++ [⟨r.id, whom, r.template, now, send whom r⟩] },
      match send whom r with
      | .sent => { acc.2 with sent := acc.2.sent + 1 }
      | .raised .. => { acc.2 with failed := acc.2.failed + 1 })

def deliver (now : Time) (send : Recipient → Notification → Outcome) (db : Db)
    (rows : List Notification) : Db × Delivered :=
  rows.foldl (deliverRow now send) (db, {})

def isDue (now : Time) (locked : List ℕ) (r : Notification) : Bool :=
  r.status = .queued ∧ r.scheduledAt ≤ now ∧ r.attempts < MAX_ATTEMPTS ∧ r.id ∉ locked

/-- `ORDER BY scheduled_at LIMIT :limit FOR UPDATE SKIP LOCKED`; rows due at one moment come in
any order. -/
def Selects (db : Db) (now : Time) (limit : ℕ) (locked : List ℕ) (rows : List Notification) :
    Prop :=
  ∃ ordered : List Notification, ordered.Perm (db.rows.select (isDue now locked)) ∧
    ordered.Pairwise (fun a b => a.scheduledAt ≤ b.scheduledAt) ∧ rows = ordered.take limit

inductive Event where
  | queue (m : Message) (channel : Option Channel) (now : Time)
  | notice (m : Message) (now : Time)
  | account (u : User)
  | deliver (now : Time) (limit : ℕ) (locked : List ℕ) (rows : List Notification)
      (send : Recipient → Notification → Outcome)

def Step (zones : Zones) (db : Db) : Event → Db → Prop
  | .queue m channel now, t => t = (queue zones db m channel now).1
  | .notice m now, t => t = notice db m now
  | .account u, t => t = { db with users := db.users.put u }
  | .deliver now limit locked rows send, t =>
    Selects db now limit locked rows ∧ t = (deliver now send db rows).1

def start (users : Users) : Db := { users }

end IeltsHub.NotificationQueue
