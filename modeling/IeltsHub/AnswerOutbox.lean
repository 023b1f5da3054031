import IeltsHub.PyDict
import IeltsHub.PyValue
import IeltsHub.LatestWins

set_option autoImplicit false

/-!
# The answer outbox and the runner's flows

A device keeps the deltas of an attempt on disk until the server has them. A flush reads what is
waiting, sends a batch, deletes what was taken and marks what was refused; the submit flow
flushes, sends what is left with the submit and then clears the disk. Every call is its own step:
keystrokes, timer flushes and failures come between any two of them.

The server is modelled as far as a device can tell: the answer and the number of each slot, the
replies it keeps by idempotency key, and whether the attempt still takes answers. Why it declines
a delta on its merits is an input of the step.
-/
namespace IeltsHub.AnswerOutbox
open PyDict PyValue LatestWins

/-! ## Deltas and rows -/

structure Delta where
  questionVersionXid : String
  slotKey : String
  response : Json
  clientSeq : ℤ
  deriving DecidableEq

/-- A queued delta, its local id, and the server's reason once it was declined. -/
structure Row extends Delta where
  id : ℕ
  refused : Option String := none
  deriving DecidableEq

def Delta.slot (d : Delta) : String × String := (d.questionVersionXid, d.slotKey)

structure Rejection where
  questionVersionXid : String
  slotKey : String
  reason : String
  deriving DecidableEq

def Rejection.slot (r : Rejection) : String × String := (r.questionVersionXid, r.slotKey)

/-! ## The pure parts of the outbox -/

def pending (disk : List Row) : List Row := disk.filter (fun r => r.refused = none)

def maxBatch : ℕ := 200

def batch (rows : List Row) : List Row := rows.take maxBatch

def keepNewest (newest : Dict (String × String) Row) (row : Row) : Dict (String × String) Row :=
  match newest.get? row.slot with
  | none => newest.put row.slot row
  | some held => if held.clientSeq < row.clientSeq then newest.put row.slot row else newest

def collapse (rows : List Row) : List Row :=
  (rows.foldl keepNewest Dict.empty).values.mergeSort (fun a b => a.id ≤ b.id)

def bodyOf (waiting : List Row) : List Row :=
  batch (if maxBatch < waiting.length then collapse waiting else waiting)

def refusedSlots (rejected : List Rejection) : Dict (String × String) String :=
  Dict.ofList (rejected.map (fun r => (r.slot, r.reason)))

def partition (rows : List Row) (rejected : List Rejection) : List ℕ × List (ℕ × String) :=
  ((rows.filter (fun r => ((refusedSlots rejected).get? r.slot).isNone)).map Row.id,
    rows.filterMap (fun r => ((refusedSlots rejected).get? r.slot).map (fun why => (r.id, why))))

structure InFlight where
  key : ℕ
  ids : List ℕ
  deriving DecidableEq

def flushKey (previous : Option InFlight) (ids : List ℕ) (mint : ℕ) : InFlight × ℕ :=
  match previous with
  | some held => if held.ids = ids then (held, mint) else (⟨mint, ids⟩, mint + 1)
  | none => (⟨mint, ids⟩, mint + 1)

/-! ## The store of the device -/

def forget (ids : List ℕ) (disk : List Row) : List Row := disk.filter (fun r => r.id ∉ ids)

def refuseOne (m : ℕ × String) (disk : List Row) : List Row :=
  disk.map (fun r => if r.id = m.1 then { r with refused := some m.2 } else r)

def refuse (marks : List (ℕ × String)) (disk : List Row) : List Row :=
  marks.foldl (fun disk m => refuseOne m disk) disk

/-! ## The server -/

/-- `stored` and `declined` are the ids of the rows it has judged, for the proofs. -/
structure Server where
  answers : Registers (String × String) ℤ Json := fun _ => none
  isOpen : Bool := true
  replies : ℕ → Option (List Row × List Rejection) := fun _ => none
  stored : List ℕ := []
  declined : List ℕ := []

def writeOf (d : Delta) : Write (String × String) ℤ Json := ⟨d.slot, d.clientSeq, d.response⟩

def Row.rejection (r : Row) (reason : String) : Rejection :=
  ⟨r.questionVersionXid, r.slotKey, reason⟩

def saveOne (merits : Delta → Option String) (acc : Server × List Rejection) (r : Row) :
    Server × List Rejection :=
  match merits r.toDelta with
  | some reason =>
    ({ acc.1 with declined := r.id :: acc.1.declined }, acc.2 ++ [r.rejection reason])
  | none =>
    if Stale acc.1.answers (writeOf r.toDelta) then
      ({ acc.1 with declined := r.id :: acc.1.declined }, acc.2 ++ [r.rejection "stale_seq"])
    else
      ({ acc.1 with
          answers := offer acc.1.answers (writeOf r.toDelta)
          stored := r.id :: acc.1.stored }, acc.2)

def saveAnswers (merits : Delta → Option String) (server : Server) (rows : List Row) :
    Server × List Rejection :=
  rows.foldl (saveOne merits) (server, [])

/-- `POST /answers`: the reply kept under the key, a refusal where the body is another one or the
attempt is frozen, else the batch. -/
def postAnswers (merits : Delta → Option String) (server : Server) (key : ℕ) (rows : List Row) :
    Option (Server × List Rejection) :=
  match server.replies key with
  | some (sent, rejected) =>
    if sent.map Row.toDelta = rows.map Row.toDelta then some (server, rejected) else none
  | none =>
    if server.isOpen then
      let saved := saveAnswers merits server rows
      some ({ saved.1 with
        replies := Function.update saved.1.replies key (some (rows, saved.2)) }, saved.2)
    else none

/-- `POST /submit`: the last flush, unless the attempt takes no more answers; it is frozen then. -/
def postSubmit (merits : Delta → Option String) (server : Server) (body : List Row) : Server :=
  if server.isOpen then { (saveAnswers merits server body).1 with isOpen := false } else server

/-! ## The runner -/

/-- One call of `flushNow`, after the step it has reached. -/
inductive Flush where
  | starting (inFlight : Option InFlight)
  | sending (rows : List Row) (carrying : InFlight)
  | answered (rows : List Row) (carrying : InFlight) (rejected : List Rejection)
  | refusing (marks : List (ℕ × String))
  | readingBack
  | done (drained : Bool)

/-- The submit flow; `left` are the rows its last read of the disk found waiting. -/
inductive Flow where
  | idle
  | first (flush : ℕ)
  | second (flush : ℕ)
  | reading
  | sending (left body : List Row)
  | answered (left : List Row)
  | clearing (left : List Row)
  | dropping (ids : List ℕ)
  | submitted

/-- `queued` are all rows ever on the disk and `boundTo` the rows a key was minted for. -/
structure State where
  disk : List Row
  nextId : ℕ
  queued : List Row
  server : Server := {}
  flushes : ℕ → Option Flush := fun _ => none
  inFlight : Option InFlight := none
  minted : ℕ := 0
  boundTo : ℕ → List ℕ := fun _ => []
  flow : Flow := .idle

inductive Event where
  | queue (d : Delta)
  | freeze
  | flush (t : ℕ)
  | read (t : ℕ) (ok : Bool)
  | land (t : ℕ) (merits : Delta → Option String)
  | lose (t : ℕ)
  | forget (t : ℕ) (ok : Bool)
  | refuse (t : ℕ) (ok : Bool)
  | readBack (t : ℕ) (ok : Bool)
  | press (t : ℕ)
  | flushed (t : ℕ)
  | left (ok : Bool)
  | submit (merits : Delta → Option String)
  | fail
  | reply
  | rows (ok : Bool)
  | clear (ok : Bool)

def State.put (s : State) (t : ℕ) (f : Flush) : State :=
  { s with flushes := Function.update s.flushes t (some f) }

def start (s : State) (t : ℕ) : Option State :=
  match s.flushes t with
  | none => some (s.put t (.starting s.inFlight))
  | some _ => none

def queue (s : State) (d : Delta) : State :=
  let row : Row := { d with id := s.nextId }
  { s with disk := s.disk ++ [row], queued := s.queued ++ [row], nextId := s.nextId + 1 }

def readWaiting (s : State) (t : ℕ) (inFlight : Option InFlight) (ok : Bool) : State :=
  if ok then
    if pending s.disk = [] then { s.put t (.done true) with inFlight := inFlight }
    else
      let rows := bodyOf (pending s.disk)
      let key := flushKey inFlight (rows.map Row.id) s.minted
      { s.put t (.sending rows key.1) with
        minted := key.2
        boundTo := Function.update s.boundTo key.1.key (rows.map Row.id) }
  else s.put t (.done false)

def forgetTaken (s : State) (t : ℕ) (rows : List Row) (rejected : List Rejection) (ok : Bool) :
    State :=
  if ok then
    { s.put t (.refusing (partition rows rejected).2) with
      disk := forget (partition rows rejected).1 s.disk }
  else s.put t (.done false)

def stepFlush (s : State) (t : ℕ) (e : Event) : Option State :=
  match s.flushes t, e with
  | some (.starting inFlight), .read _ ok => some (readWaiting s t inFlight ok)
  | some (.sending rows carrying), .land _ merits =>
    match postAnswers merits s.server carrying.key rows with
    | some (server, rejected) =>
      some { s.put t (.answered rows carrying rejected) with server := server }
    | none => some { s.put t (.done false) with inFlight := some carrying }
  | some (.sending _ carrying), .lose _ =>
    some { s.put t (.done false) with inFlight := some carrying }
  | some (.answered _ carrying _), .lose _ =>
    some { s.put t (.done false) with inFlight := some carrying }
  | some (.answered rows _ rejected), .forget _ ok => some (forgetTaken s t rows rejected ok)
  | some (.refusing marks), .refuse _ ok =>
    if ok then some { s.put t .readingBack with disk := refuse marks s.disk }
    else some (s.put t (.done false))
  | some .readingBack, .readBack _ ok =>
    if ok then some { s.put t (.done (pending s.disk = [])) with inFlight := none }
    else some (s.put t (.done false))
  | _, _ => none

def ended (s : State) (t : ℕ) : Option Bool :=
  match s.flushes t with
  | some (.done drained) => some drained
  | _ => none

def stepFlow (s : State) (e : Event) : Option State :=
  match s.flow, e with
  | .idle, .press t => (start s t).map (fun s => { s with flow := .first t })
  | .first u, .flushed t =>
    match ended s u with
    | some true => some { s with flow := .sending [] [] }
    | some false => (start s t).map (fun s => { s with flow := .second t })
    | none => none
  | .second u, .flushed _ =>
    match ended s u with
    | some true => some { s with flow := .sending [] [] }
    | some false => some { s with flow := .reading }
    | none => none
  | .reading, .left ok =>
    -- a store that cannot be read has nothing the body could carry
    let left := if ok then pending s.disk else []
    some { s with flow := .sending left (bodyOf left) }
  | .sending left body, .submit merits =>
    some { s with server := postSubmit merits s.server body, flow := .answered left }
  | .sending _ _, .fail => some { s with flow := .idle }
  | .answered _, .fail => some { s with flow := .idle }
  | .answered left, .reply => some { s with flow := .clearing left }
  | .clearing _, .rows ok =>
    some { s with flow := if ok then .dropping (s.disk.map Row.id) else .submitted }
  | .dropping ids, .clear ok =>
    some { s with disk := if ok then forget ids s.disk else s.disk, flow := .submitted }
  | _, _ => none

def step (s : State) (e : Event) : Option State :=
  match e with
  | .queue d => some (queue s d)
  | .freeze => some { s with server := { s.server with isOpen := false } }
  | .flush t => start s t
  | .read t _ | .land t _ | .lose t | .forget t _ | .refuse t _ | .readBack t _ => stepFlush s t e
  | .press _ | .flushed _ | .left _ | .submit _ | .fail | .reply | .rows _ | .clear _ =>
    stepFlow s e

end IeltsHub.AnswerOutbox
