import IeltsHub.RealtimeBus
import IeltsHub.RealtimeChannels

set_option autoImplicit false

/-!
# The WebSocket gateway

`app/api/realtime.py`: one connection, its reader, pump and writer tasks. A task runs from one
`await` to the next without the others, so each such stretch is one function here; what a task is
waiting for is its phase. Other processes publish on the bus meanwhile.
-/
namespace IeltsHub.RealtimeGateway
open PyTime PyText PyValue PlatformErrors AuthzPolicy RealtimeBus RealtimeChannels

def maxChannels : ℕ := 20
def sendQueue : ℕ := 64
def inboundFrames : ℕ := 240
def inboundWindowSeconds : ℤ := 10
def maxFrameBytes : ℕ := 64 * 1024
/-- `HEARTBEAT_SECONDS * (MISSED_HEARTBEATS_BEFORE_CLOSE + 0.5)`, in microseconds. -/
def silenceAllowed : ℤ := 62500000

def closeTooSlow : ℕ := 1013
def closePolicy : ℕ := 1008
def closeBusDown : ℕ := 1011

/-- `REFETCH`, before and after the xid. -/
def refetch (family : String) : Option (String × String) :=
  match family with
  | "competition" => some ("/api/v1/competitions/", "/leaderboard")
  | "attempt" => some ("/api/v1/attempts/", "")
  | "assignment" => some ("/api/v1/assignments/", "/progress")
  | "slot" => some ("/api/v1/speaking/slots", "")
  | "queue" => some ("/api/v1/speaking/queue", "")
  | "safety" => some ("/api/v1/admin/reports", "")
  | _ => none

def namesXid (family : String) : Bool := family ∈ ["competition", "attempt", "assignment"]

def resyncTarget (channel : String) : Option String :=
  let (family, subject) := partitionColon channel
  (refetch family).map (fun t => t.1 ++ (if namesXid family then subject else "") ++ t.2)

/-- What the writer sends: a frame of the bus, or one of the protocol's own. -/
inductive OutFrame where
  | event (frame : Frame)
  | hello (implicit : List String)
  | error (id : Json) (channel : Option String) (code message : String)
  | subscribed (id : Json) (channels : List String)
  | unsubscribed (id : Json) (channels : List String)
  | resync (channel : String) (target : Option String)

inductive Command where
  | subscribe (names : List String) (id : Json) (since : ℕ)
  | unsubscribe (names : List String) (id : Json)

structure Connection where
  actor : Principal
  outbound : List OutFrame := []
  commands : List Command := []
  subscribed : Finset String := ∅
  lastSeen : Time := 0
  closeCode : Option ℕ := none
  closeReason : String := ""
  windowStarted : Time := 0
  framesInWindow : ℕ := 0

def Connection.offer (c : Connection) (frame : OutFrame) : Connection × Bool :=
  if c.outbound.length < sendQueue then ({ c with outbound := c.outbound ++ [frame] }, true)
  else (c, false)

def Connection.withinBudget (c : Connection) (now : Time) : Connection × Bool :=
  let c := if seconds inboundWindowSeconds ≤ now - c.windowStarted then
    { c with windowStarted := now, framesInWindow := 0 } else c
  ({ c with framesInWindow := c.framesInWindow + 1 }, c.framesInWindow + 1 ≤ inboundFrames)

def Connection.stop (c : Connection) (code : ℕ) (reason : String) : Connection :=
  match c.closeCode with
  | none => { c with closeCode := some code, closeReason := reason }
  | some _ => c

def refuse (c : Connection) (code message : String) (channel : Option String) (id : Json) :
    Connection :=
  (c.offer (.error id channel code message)).1

/-! ## The tasks and what they share -/

inductive Reader where
  | receiving
  | authorizing (wanted : List String) (held : List String) (id : Json) (since : ℕ)

/-- What an executing subscribe command still has to say. -/
structure Ack where
  names : List String
  id : Json
  since : ℕ

inductive Pump where
  | draining
  | listening
  | adding (todo : List String) (ack : Ack)
  | replaying (todo : List String) (ack : Ack)
  | counting (channel : String) (todo : List String) (ack : Ack)
  /-- The answer is back and the task not yet resumed; `none` where Redis raised. -/
  | replied (channel : String) (reply : Option (List Frame × Bool)) (todo : List String) (ack : Ack)
  | dropping (todo : List String) (names : List String) (id : Json)

/-- `put` is every bus frame enqueued so far, with the channels held at that moment. -/
structure Gateway where
  connection : Connection
  reader : Reader := .receiving
  pump : Pump := .draining
  feed : Finset String := ∅
  inbox : List Frame := []
  bus : Bus := Bus.empty
  cancelled : Bool := false
  put : List (Frame × Finset String) := []

/-- The state `_run` starts the tasks in. -/
def start (actor : Principal) (now : Time) (bus : Bus) : Gateway where
  connection := {
    actor
    outbound := [.hello (implicitChannels actor)]
    commands := [.subscribe (implicitChannels actor) .null 0]
    subscribed := (implicitChannels actor).toFinset
    lastSeen := now
    windowStarted := now }
  bus

/-! ## The reader -/

/-- A text frame: its length, and its value where it is JSON. -/
structure Received where
  size : ℕ
  body : Option Json

def hashable : Json → Except Raised Json
  | .arr _ | .obj _ => .error .typeError
  | v => .ok v

def fieldOf (message : List (String × Json)) (key : String) : Json :=
  ((message.find? (fun e => e.1 == key)).map Prod.snd).getD .null

def textsOf : Json → Option (List String)
  | .arr vs => vs.mapM (fun v => match v with | .str s => some s | _ => none)
  | _ => none

/-- `since if isinstance(since, int) and since >= 0 else 0`. -/
def sinceOf : Json → ℕ
  | .int n => n.toNat
  | .bool b => if b then 1 else 0
  | _ => 0

/-- `str(channels.parse(n) or n)`. -/
def canonical (name : String) : String := ((parse name).map Channel.name).getD name

def heldAmong (subscribed : Finset String) (names : List String) : List String :=
  sorted (((names.filterMap parse).map Channel.name).filter (fun c => c ∈ subscribed)).dedup

/-- `_subscribe` up to its `await`. -/
def beginSubscribe (c : Connection) (message : List (String × Json)) : Connection × Reader :=
  let id := fieldOf message "id"
  match textsOf (fieldOf message "channels") with
  | none => (refuse c "bad_frame" "`channels` must be a list of strings." none id, .receiving)
  | some names =>
    let held := heldAmong c.subscribed names
    let wanted := names.filter (fun n => canonical n ∉ held)
    if maxChannels < c.subscribed.card + wanted.length then
      (refuse c "forbidden_channel" s!"A connection may hold at most {maxChannels} channels."
        none id, .receiving)
    else (c, .authorizing wanted held id (sinceOf (fieldOf message "since_seq")))

def admitChannel (id : Json) (s : Connection × List String) (v : String × Option Channel × Verdict) :
    Connection × List String :=
  let (name, channel, verdict) := v
  if !verdict.allowed then
    (refuse s.1 verdict.code "You may not subscribe to that channel." (some name) id, s.2)
  else
    let canonical := (channel.map Channel.name).getD "None"
    ({ s.1 with subscribed := insert canonical s.1.subscribed }, s.2 ++ [canonical])

/-- The rest of `_subscribe`, once the worker thread has decided. -/
def finishSubscribe (c : Connection) (wanted held : List String) (id : Json) (since : ℕ)
    (verdicts : List (Option Channel × Verdict)) : Connection :=
  let (c, accepted) := (wanted.zip verdicts).foldl (admitChannel id) (c, held)
  { c with commands := c.commands ++ [.subscribe accepted id since] }

/-- One turn of the loop of `_unsubscribe`, with the channels dropped so far. -/
def dropName (s : Connection × List String) (name : Json) :
    Except Raised (Connection × List String) := do
  let name ← hashable name
  match name with
  | .str text =>
    if canonical text ∈ s.1.subscribed then
      return ({ s.1 with subscribed := s.1.subscribed.erase (canonical text) },
        s.2 ++ [canonical text])
    else return s
  | _ => return s

def unsubscribe (c : Connection) (message : List (String × Json)) : Except Raised Connection :=
  let id := fieldOf message "id"
  match fieldOf message "channels" with
  | .arr names => do
    let (c, dropped) ← names.foldlM dropName (c, [])
    return { c with commands := c.commands ++ [.unsubscribe dropped id] }
  | _ => .ok (refuse c "bad_frame" "`channels` must be a list of strings." none id)

/-- The channel, the event and the data `_signal` publishes, or the refusal. -/
def signalOf (c : Connection) (message : List (String × Json)) :
    Except Raised (Connection ⊕ (String × String × Json)) := do
  let id := fieldOf message "id"
  match fieldOf message "channel" with
  | .str channel =>
    let badKind := Sum.inl (refuse c "bad_frame"
      "A signal needs a kind of offer, answer, ice or bye." (some channel) id)
    if channel ∉ c.subscribed then
      return .inl (refuse c "forbidden_channel" "You are not subscribed to that channel."
        (some channel) id)
    match fieldOf message "data" with
    | .obj data =>
      match ← hashable (fieldOf data "kind") with
      | .str kind =>
        if kind ∉ ["offer", "answer", "ice", "bye"] then return badKind
        if !carries (partitionColon channel).1 ("signal." ++ kind) then
          return .inl (refuse c "forbidden_channel" "That channel does not carry signalling."
            (some channel) id)
        return .inr (channel, "signal." ++ kind, .obj [("kind", .str kind),
          ("payload", fieldOf data "payload"), ("from", .str c.actor.userXid)])
      | _ => return badKind
    | _ => return badKind
  | _ => return .inl (refuse c "forbidden_channel" "You are not subscribed to that channel." none id)

variable (g : Gateway)

/-- The pipeline of a `publish` reaches the log and, where it is subscribed, this connection. -/
def fanOut (frame : Frame) (now : Time) : Gateway :=
  { g with
    bus := g.bus.append frame now
    inbox := if frame.channel ∈ g.feed then g.inbox ++ [frame] else g.inbox }

/-- `realtime.publish`, its commands taken together. -/
def publish (channel event : String) (data : Json) (now : Time) : Gateway :=
  let seq := ((g.bus.topic channel).allocate now).2
  let g := { g with bus := (g.bus.allocate channel now).keepCounter channel now }
  fanOut g { type := event, channel, seq, ts := now, data } now

def handleSignal (message : List (String × Json)) (busUp : Bool) (now : Time) :
    Except Raised Gateway := do
  match ← signalOf g.connection message with
  | .inl c => return { g with connection := c }
  | .inr (channel, event, data) =>
    if busUp then return publish g channel event data now
    else return { g with connection := g.connection.stop closeBusDown "bus_unavailable" }

/-- `_handle` on a frame that is an object. -/
def handleObject (message : List (String × Json)) (busUp : Bool) (now : Time) :
    Except Raised Gateway := do
  let id := fieldOf message "id"
  let unknown := { g with
    connection := refuse g.connection "bad_frame" "Unknown frame type." none id }
  match ← hashable (fieldOf message "type") with
  | .str "ping" => return g
  | .str "pong" => return g
  | .str "subscribe" =>
    let (c, reader) := beginSubscribe g.connection message
    return { g with connection := c, reader }
  | .str "unsubscribe" =>
    let c ← unsubscribe g.connection message
    return { g with connection := c }
  | .str "signal" => handleSignal g message busUp now
  | _ => return unknown

def handle (body : Option Json) (busUp : Bool) (now : Time) : Except Raised Gateway :=
  match body with
  | none => .ok { g with
      connection := refuse g.connection "bad_frame" "That frame is not JSON." none .null }
  | some (.obj message) => handleObject g message busUp now
  | some _ => .ok { g with
      connection := refuse g.connection "bad_frame" "A frame must be an object." none .null }

/-- What the reader does with one frame. What `_handle` raises ends the tasks. -/
def receive (r : Received) (busUp : Bool) (now : Time) : Gateway :=
  let seen := { g with connection := { g.connection with lastSeen := now } }
  if maxFrameBytes < r.size then { seen with
    connection := refuse seen.connection "bad_frame" "That frame is too large." none .null }
  else
    let (c, within) := seen.connection.withinBudget now
    if within then
      match handle { seen with connection := c } r.body busUp now with
      | .ok g => g
      | .error _ => { seen with connection := c, cancelled := true }
    else { seen with
      connection := (refuse c "rate_limited" "Too many frames. Slow down." none .null).stop
        closePolicy "inbound_flood"
      cancelled := true }

def authorize (db : Directory) (names : List String) :
    Except Raised (List (Option Channel × Verdict)) :=
  names.mapM (fun name => decideChannel g.connection.actor name db)

def authorized (db : Directory) : Option Gateway :=
  match g.reader with
  | .authorizing wanted held id since =>
    match authorize g db wanted with
    | .ok verdicts => some { g with
        connection := finishSubscribe g.connection wanted held id since verdicts
        reader := .receiving }
    | .error _ => some { g with cancelled := true }
  | .receiving => none

/-! ## The pump -/

def putEvent (frame : Frame) : Gateway × Bool :=
  let (c, fits) := g.connection.offer (.event frame)
  ({ g with
    connection := c
    put := if fits then g.put ++ [(frame, g.connection.subscribed)] else g.put }, fits)

/-- The loop of `_replay_into` over what was missed. -/
def putMissed (g : Gateway) : List Frame → Gateway
  | [] => g
  | frame :: rest =>
    match putEvent g frame with
    | (g, true) => putMissed g rest
    | (g, false) => { g with connection := g.connection.stop closeTooSlow "send_queue_full" }

def offerFrame (frame : OutFrame) : Gateway :=
  { g with connection := (g.connection.offer frame).1 }

/-- `_replay_into` from the point where its answer is back. -/
def deliverReplay (channel : String) : Option (List Frame × Bool) → Gateway
  | some (missed, true) => putMissed g missed
  | some (_, false) | none => offerFrame g (.resync channel (resyncTarget channel))

def forward (frame : Frame) : Gateway :=
  if frame.channel ∉ g.connection.subscribed then { g with pump := .draining }
  else
    match putEvent g frame with
    | (g, true) => { g with pump := .draining }
    | (g, false) => { g with
        connection := g.connection.stop closeTooSlow "send_queue_full"
        cancelled := true }

/-- The pump up to its next `await`, as of what Redis holds now. -/
def pumpOn (now : Time) : Gateway :=
  match g.pump with
  | .draining =>
    match g.connection.commands with
    | [] => { g with pump := .listening }
    | .subscribe names id since :: rest => { g with
        connection := { g.connection with commands := rest }
        pump := .adding names ⟨names, id, since⟩ }
    | .unsubscribe names id :: rest => { g with
        connection := { g.connection with commands := rest }
        pump := .dropping names names id }
  | .listening =>
    match g.inbox with
    | [] => { g with pump := .draining }
    | frame :: rest => forward { g with inbox := rest } frame
  | .adding (name :: todo) ack => { g with feed := insert name g.feed, pump := .adding todo ack }
  | .adding [] ack =>
    if ack.since = 0 then
      { offerFrame g (.subscribed ack.id ack.names) with pump := .draining }
    else { g with pump := .replaying ack.names ack }
  | .replaying (channel :: todo) ack =>
    let raw := (g.bus.topic channel).lrange now
    if raw = [] then { g with pump := .counting channel todo ack }
    else { g with pump := .replied channel (some (replayed raw ack.since)) todo ack }
  | .replaying [] ack => { offerFrame g (.subscribed ack.id ack.names) with pump := .draining }
  | .counting channel todo ack =>
    let reply := replayedNothing ((g.bus.topic channel).current now) ack.since
    { g with pump := .replied channel (some reply) todo ack }
  | .replied channel reply todo ack =>
    { deliverReplay g channel reply with pump := .replaying todo ack }
  | .dropping (name :: todo) names id =>
    { g with feed := g.feed.erase name, pump := .dropping todo names id }
  | .dropping [] names id => { offerFrame g (.unsubscribed id names) with pump := .draining }

def pumpFails : Gateway :=
  match g.pump with
  | .listening => { g with
      connection := g.connection.stop closeBusDown "bus_unavailable"
      cancelled := true }
  | .replaying (channel :: todo) ack | .counting channel todo ack =>
    { g with pump := .replied channel none todo ack }
  | .adding _ _ | .dropping _ _ _ => { g with cancelled := true }
  | _ => g

/-! ## The writer -/

def write (sent : Bool) : Option Gateway :=
  match g.connection.outbound with
  | [] => none
  | _ :: rest =>
    let g := { g with connection := { g.connection with outbound := rest } }
    if sent then some { g with cancelled := g.connection.closeCode.isSome }
    else some { g with
      connection := g.connection.stop closeTooSlow "send_timeout"
      cancelled := true }

def heartbeat (now : Time) : Gateway :=
  if silenceAllowed < now - g.connection.lastSeen then
    { g with connection := g.connection.stop closePolicy "heartbeat_timeout", cancelled := true }
  else { g with cancelled := g.connection.closeCode.isSome }

inductive Action where
  | receive (r : Received) (busUp : Bool) (now : Time)
  | disconnect
  | authorized (db : Directory)
  | pump (now : Time)
  | pumpFails
  | write (sent : Bool)
  | heartbeat (now : Time)
  /-- A command of another process: its `INCR`, its `EXPIRE`, its pipeline. -/
  | allocate (channel : String) (now : Time)
  | keepCounter (channel : String) (now : Time)
  | append (frame : Frame) (now : Time)

def step (g : Gateway) (a : Action) : Option Gateway :=
  if g.cancelled then none
  else
    match a with
    | .receive r busUp now =>
      match g.reader with
      | .receiving => some (receive g r busUp now)
      | .authorizing _ _ _ _ => none
    | .disconnect => some { g with cancelled := true }
    | .authorized db => authorized g db
    | .pump now => some (pumpOn g now)
    | .pumpFails => some (pumpFails g)
    | .write sent => write g sent
    | .heartbeat now => some (heartbeat g now)
    | .allocate channel now => some { g with bus := g.bus.allocate channel now }
    | .keepCounter channel now => some { g with bus := g.bus.keepCounter channel now }
    | .append frame now => some (fanOut g frame now)

end IeltsHub.RealtimeGateway
