import IeltsHub.PyTime
import IeltsHub.PyValue

set_option autoImplicit false

/-!
# The console's stream

`connect` of `src/web/src/api/realtime.ts`: one subscription held across drops. Its variables, the
sockets, timers and ticket requests it has set going, and what it has done so far, latest first.
-/
namespace IeltsHub.ConsoleStream
open PyValue PyTime

/-! ## Delays and frames -/

def BASE_BACKOFF_MS : ℚ := 1000
def MAX_BACKOFF_MS : ℚ := 30000
def DEFAULT_HEARTBEAT_SECONDS : ℚ := 25
def MISSED_HEARTBEATS_BEFORE_DROP : ℚ := 2
def REFUSALS : List String := ["forbidden_channel", "unknown_channel"]

/-- `Math.round` rounds halves up. -/
def backoffDelay (attempt : ℕ) (random : ℚ) : ℤ :=
  let step := min MAX_BACKOFF_MS (BASE_BACKOFF_MS * 2 ^ (attempt - 1))
  ⌊toDouble (step * toDouble (1 / 2 + toDouble (random * (1 / 2)))) + 1 / 2⌋

example : backoffDelay 1 0 = 500 ∧ backoffDelay 3 (1 / 2) = 3000 ∧ backoffDelay 9 0 = 15000 := by
  decide +kernel

/-- `frame[name]`; of a name given twice the last one counts, and only an object has names. -/
def member (name : String) : Json → Option Json
  | .obj members => (members.reverse.find? (fun m => m.1 = name)).map Prod.snd
  | _ => none

def stringOf : Option Json → Option String
  | some (.str s) => some s
  | _ => none

def numberOf : Option Json → Option ℚ
  | some (.int n) => some (toDouble n)
  | some (.real q) => some (toDouble q)
  | _ => none

/-- What `JSON.parse` made of the payload, if it is a frame; `none` is a payload that does not
parse. -/
def parseFrame (parsed : Option Json) : Option Json :=
  parsed.filter (fun frame => (stringOf (member "type" frame)).isSome)

/-- `frame.data?.[name]`. -/
def dataOf (name : String) (frame : Json) : Option Json := (member "data" frame).bind (member name)

/-! ## What there is -/

structure StreamOptions where
  url : String
  channels : List String

inductive StreamState where
  | connecting | live | retrying | closed
  deriving DecidableEq

structure StreamStatus where
  state : StreamState
  attempt : ℕ
  refused : List String
  deriving DecidableEq

inductive Outgoing where
  | ping
  | subscribe (channels : List String)

/-- What is done, and what a ticket request was answered. -/
inductive Act where
  | called
  | status (s : StreamStatus)
  | mint (id : ℕ)
  | resolved (id : ℕ) (ticket : String)
  | opened (id : ℕ) (url : String)
  | sent (id : ℕ) (payload : Outgoing)
  | shut (id : ℕ)
  | frame (id : ℕ) (f : Json)
  | wait (delay : ℤ)

/-- A ticket request of one call of `start`, which is what its `id` stands for, and the generation
that call took. -/
structure Mint where
  id : ℕ
  mine : ℕ

/-- The socket of one call of `start`; `ended` when it has reported its own end. -/
structure Conn where
  id : ℕ
  mine : ℕ
  shut : Bool := false
  ended : Bool := false

structure World where
  socket : Option ℕ := none
  attempt : ℕ := 0
  refused : List String := []
  stopped : Bool := false
  retryTimer : Option ℕ := none
  heartbeatTimer : Option ℕ := none
  heartbeatSeconds : ℚ := DEFAULT_HEARTBEAT_SECONDS
  lastHeard : ℤ := 0
  generation : ℕ := 0
  minting : List Mint := []
  sockets : List Conn := []
  retries : List ℕ := []
  beats : List ℕ := []
  fresh : ℕ := 0
  log : List Act := []

/-- How often `close()` is called from inside each callback of the caller's. -/
structure Reaction where
  onStatus : ℕ := 0
  mintTicket : ℕ := 0
  onFrame : ℕ := 0

/-! ## The functions of `connect` -/

def did (a : Act) (w : World) : World := { w with log := a :: w.log }

def tell (state : StreamState) (w : World) : World := did (.status ⟨state, w.attempt, w.refused⟩) w

def stopHeartbeat (w : World) : World :=
  { w with
    heartbeatTimer := none
    beats := w.beats.filter (fun t => some t ≠ w.heartbeatTimer) }

def drop (w : World) : World :=
  let w := stopHeartbeat w
  { w with
    socket := none
    sockets := w.sockets.map (fun c => if w.socket = some c.id then { c with shut := true } else c)
    log := w.socket.toList.map .shut ++ w.log }

def clearRetry (w : World) : World :=
  { w with
    retryTimer := none
    retries := w.retries.filter (fun t => some t ≠ w.retryTimer) }

def closeOnce (w : World) : World :=
  tell .closed (drop (clearRetry
    (did .called { w with stopped := true, generation := w.generation + 1 })))

/-- A call made while `close` tells its status comes last in it, so calls inside calls are calls one
after another. -/
def close : ℕ → World → World
  | 0, w => w
  | times + 1, w => close times (closeOnce w)

def announce (state : StreamState) (times : ℕ) (w : World) : World := close times (tell state w)

/-- `retryTimer = setTimeout(..)`. -/
def setRetryTimer (random : ℚ) (w : World) : World :=
  did (.wait (backoffDelay w.attempt random))
    { w with retryTimer := some w.fresh, retries := w.fresh :: w.retries, fresh := w.fresh + 1 }

def scheduleRetry (random : ℚ) (r : Reaction) (w : World) : World :=
  if w.stopped then w
  else setRetryTimer random (announce .retrying r.onStatus { w with attempt := w.attempt + 1 })

def startHeartbeat (now : ℤ) (w : World) : World :=
  let w := stopHeartbeat w
  { w with
    lastHeard := now
    heartbeatTimer := some w.fresh
    beats := w.fresh :: w.beats
    fresh := w.fresh + 1 }

/-- `socket?.send(..)`. -/
def send (payload : Outgoing) (w : World) : World :=
  { w with log := w.socket.toList.map (fun id => .sent id payload) ++ w.log }

def onBeat (now : ℤ) (random : ℚ) (r : Reaction) (w : World) : World :=
  let silent : ℚ := now - w.lastHeard
  let longest := toDouble (toDouble (w.heartbeatSeconds * 1000) *
    (MISSED_HEARTBEATS_BEFORE_DROP + 1 / 2))
  if longest < silent then
    scheduleRetry random r (drop { w with generation := w.generation + 1 })
  else send .ping w

def hello (options : StreamOptions) (f : Json) (now : ℤ) (r : Reaction) (w : World) : World :=
  let seconds := (numberOf (dataOf "heartbeat_seconds" f)).filter (fun q => 0 < q)
  let w := { w with heartbeatSeconds := seconds.getD w.heartbeatSeconds, attempt := 0 }
  send (.subscribe options.channels) (startHeartbeat now (announce .live r.onStatus w))

def refusal (f : Json) (w : World) : Option String :=
  if stringOf (member "type" f) = some "error" then
    match stringOf (dataOf "code" f), stringOf (member "channel" f) with
    | some code, some channel =>
      if code ∈ REFUSALS ∧ channel ∉ w.refused then some channel else none
    | _, _ => none
  else none

def handle (options : StreamOptions) (f : Json) (c : Conn) (now : ℤ) (r : Reaction) (w : World) :
    World :=
  if c.mine ≠ w.generation then w
  else
    let w := { w with lastHeard := now }
    if stringOf (member "type" f) = some "hello" then hello options f now r w
    else
      let w :=
        match refusal f w with
        | some channel => announce .live r.onStatus { w with refused := w.refused ++ [channel] }
        | none => w
      close r.onFrame (did (.frame c.id f) w)

/-- `start`, up to the ticket. -/
def start (r : Reaction) (w : World) : World :=
  if w.stopped then w
  else
    let mine := w.generation + 1
    let w := announce .connecting r.onStatus { w with generation := mine, refused := [] }
    close r.mintTicket (did (.mint w.fresh)
      { w with minting := ⟨w.fresh, mine⟩ :: w.minting, fresh := w.fresh + 1 })

def unreserved (c : Char) : Bool := c.isAlphanum || "-_.!~*'()".toList.contains c

def hexDigit (n : ℕ) : Char := "0123456789ABCDEF".toList.getD n '0'

def encodeURIComponent (s : String) : String :=
  .ofList (s.toList.flatMap (fun c =>
    if unreserved c then [c]
    else (String.singleton c).toByteArray.data.toList.flatMap
      (fun b => ['%', hexDigit (b.toNat / 16), hexDigit (b.toNat % 16)])))

example : encodeURIComponent "a b/é" = "a%20b%2F%C3%A9" := by decide +kernel

def address (options : StreamOptions) (ticket : String) : String :=
  options.url ++ "?ticket=" ++ encodeURIComponent ticket

/-! ## What happens to it -/

inductive Event where
  | minted (m : Mint) (ticket : String)
  | mintFailed (m : Mint) (random : ℚ)
  | open_ (c : Conn)
  | message (c : Conn) (now : ℤ) (parsed : Option Json)
  | closed (c : Conn) (random : ℚ)
  | retry (timer : ℕ)
  | beat (timer : ℕ) (now : ℤ) (random : ℚ)
  | close

structure Input where
  event : Event
  reaction : Reaction := {}

/-- `start`, from the ticket on. -/
def onTicket (options : StreamOptions) (m : Mint) (ticket : String) (w : World) : World :=
  if w.stopped ∨ m.mine ≠ w.generation then w
  else did (.opened m.id (address options ticket))
    { w with socket := some m.id, sockets := ⟨m.id, m.mine, false, false⟩ :: w.sockets }

def onClosed (c : Conn) (random : ℚ) (r : Reaction) (w : World) : World :=
  if c.mine ≠ w.generation then w
  else scheduleRetry random r { stopHeartbeat w with socket := none }

def without (m : Mint) (w : World) : World :=
  { w with minting := w.minting.filter (fun n => n.id ≠ m.id) }

def react (options : StreamOptions) (i : Input) (w : World) : World :=
  match i.event with
  | .minted m ticket => onTicket options m ticket (did (.resolved m.id ticket) (without m w))
  | .mintFailed m random =>
    let w := without m w
    if m.mine = w.generation then scheduleRetry random i.reaction w else w
  | .open_ _ => w
  | .message c now parsed =>
    match parseFrame parsed with
    | some f => handle options f c now i.reaction w
    | none => w
  | .closed c random =>
    onClosed c random i.reaction { w with
      sockets := w.sockets.map (fun d => if d.id = c.id then { d with ended := true } else d) }
  | .retry timer =>
    start i.reaction { w with retryTimer := none, retries := w.retries.filter (· ≠ timer) }
  | .beat _ now random => onBeat now random i.reaction w
  | .close => close (i.reaction.onStatus + 1) w

/-- A ticket request is answered once; a socket goes on telling until it has told its end, also when
it has been shut; a timer fires once and an interval again and again, unless they are cleared. -/
def Possible (w : World) : Event → Prop
  | .minted m _ | .mintFailed m _ => m ∈ w.minting
  | .open_ c | .message c _ _ | .closed c _ => c ∈ w.sockets ∧ ¬ c.ended
  | .retry timer => timer ∈ w.retries
  | .beat timer _ _ => timer ∈ w.beats
  | .close => True

def Step (options : StreamOptions) (w : World) (i : Input) (w' : World) : Prop :=
  Possible w i.event ∧ w' = react options i w

/-- `connect`: nobody has the stream yet, so nobody closes it. -/
def connect : World := start {} {}

end IeltsHub.ConsoleStream
