import IeltsHub.RaisingState
import IeltsHub.RealtimeChannels

set_option autoImplicit false

/-!
# From an outbox event to the queue

The routing table at the end of `app/workers/actors.py`, the realtime frames an event becomes, and
`dispatch_all`, which the relay calls for every row. The broker and the bus are scripts: the answer
to the `n`-th send and to the `n`-th publish of one dispatch.
-/
namespace IeltsHub.WorkersActors
open PyExc PyValue RaisingState RaisingState.Effect RealtimeChannels

/-- What `actor.send` raises. -/
inductive BrokerError where
  | connectionError
  | timeoutError
  | outOfMemoryError
  | busyLoadingError
  | brokerConnectionError
  | other (name : String)
  deriving DecidableEq, Repr

inductive DispatchError where
  | broker (error : BrokerError)
  | undeclaredEvent
  deriving DecidableEq, Repr

abbrev Failure := Exc DispatchError

inductive Actor where
  | planRegrade
  | applyRegrade
  | republishCompetition
  | notifyAssignment
  | projectAttempt
  | notifyScored
  | ingestAudio
  deriving DecidableEq, Repr

structure Message where
  actor : Actor
  args : List Json
  deriving DecidableEq

structure RealtimeFrame where
  channel : String
  eventType : String
  data : Json
  deriving DecidableEq

/-- The answer to an enqueue. One that is not acknowledged raises over a message that is queued. -/
inductive Reply where
  | accepted
  | refused (error : BrokerError)
  | unacknowledged (error : BrokerError)
  deriving DecidableEq, Repr

structure Broker where
  replies : ℕ → Reply := fun _ => .accepted
  publishes : ℕ → Bool := fun _ => true

/-- What one dispatch has put on the queue and on the bus. -/
structure Wire where
  queue : List Message := []
  frames : List RealtimeFrame := []
  sends : ℕ := 0
  published : ℕ := 0
  deriving DecidableEq

abbrev Dispatching := Effect Failure Wire

/-! ## The routing table -/

abbrev BuildArgs := Json → Except Failure (List Json)

def withField (key : String) : BuildArgs := fun p => do
  return [← subscript p key]

def republishArgs : BuildArgs := fun p => do
  let xid ← subscript p "competition_xid"
  let d ← dictMethod p
  return [xid, getOr d "public_notice" (.str "")]

/-- `ROUTES`: an event with no actor is known all the same. -/
def routes : List (String × Option (Actor × BuildArgs)) := [
  ("regrade.plan_requested", some (.planRegrade, withField "regrade_job_xid")),
  ("regrade.apply_requested", some (.applyRegrade, withField "regrade_job_xid")),
  ("competition.regrade_approved", some (.republishCompetition, republishArgs)),
  ("assignment.created", some (.notifyAssignment, withField "assignment_xid")),
  ("attempt.scored", some (.projectAttempt, withField "attempt_id")),
  ("media.uploaded", some (.ingestAudio, withField "media_asset_id")),
  ("attempt.started", none),
  ("attempt.expired", none),
  ("speaking.matched", none),
  ("identity.session_revoked", none)]

def routeOf (eventType : String) : Option (Option (Actor × BuildArgs)) :=
  (routes.find? (fun r => r.1 == eventType)).map Prod.snd

def noRoute (eventType : String) : Failure :=
  .keyError ("no worker route for event " ++ .ofList (reprText eventType))

/-- `actor.send(*args)`. -/
def send (b : Broker) (m : Message) : Dispatching Unit := fun w =>
  let w' := { w with sends := w.sends + 1 }
  match b.replies w.sends with
  | .accepted => (.ok (), { w' with queue := w.queue ++ [m] })
  | .refused e => (.error (.domain (.broker e)), w')
  | .unacknowledged e => (.error (.domain (.broker e)), { w' with queue := w.queue ++ [m] })

def dispatch (b : Broker) (eventType : String) (payload : Json) : Dispatching Unit :=
  match routeOf eventType with
  | none => raise (noRoute eventType)
  | some none => pure ()
  | some (some (actor, buildArgs)) => do
    let args ← lift (buildArgs payload)
    send b ⟨actor, args⟩

def fanOut (eventType : String) (payload : Json) : Except Failure (List Message) :=
  if eventType = "attempt.scored" then do
    return [⟨.notifyScored, [← subscript payload "attempt_id"]⟩]
  else return []

/-! ## The realtime projection -/

def speakingMatched (payload : Json) (_ : String) : Except Failure (List RealtimeFrame) := do
  let d ← dictMethod payload
  let slotXid := getD d "slot_xid" .null
  let event := if truthy slotXid then "slot.matched" else "queue.matched"
  let initiator := pyStr (getD d "initiator_user_id" .null)
  let users ← dictMethod (getOr d "user_xids" (.obj []))
  users.entries.mapM (fun user => do
    let pairXid ← subscript payload "pair_xid"
    return ⟨"user:" ++ pyStr user.2, event, .obj [
      ("pair", .obj [("xid", pairXid), ("origin", getD d "origin" .null),
        ("age_band", getD d "age_band" .null), ("slot_xid", slotXid)]),
      ("initiator", .bool (user.1 = initiator))]⟩)

def attemptExpired (payload : Json) (aggregateId : String) : Except Failure (List RealtimeFrame) := do
  let d ← dictMethod payload
  return [⟨"attempt:" ++ aggregateId, "attempt.force_submit", .obj [
    ("attempt_xid", .str aggregateId), ("reason", getD d "reason" (.str "expired"))]⟩]

def sessionRevoked (payload : Json) (_ : String) : Except Failure (List RealtimeFrame) := do
  let userXid ← subscript payload "user_xid"
  let d ← dictMethod payload
  return [⟨"user:" ++ pyStr userXid, "session.revoked", .obj [
    ("reason", getD d "reason" (.str "banned")), ("until", getD d "until" .null)]⟩]

/-- `REALTIME`. -/
def realtime : List (String × (Json → String → Except Failure (List RealtimeFrame))) := [
  ("speaking.matched", speakingMatched),
  ("attempt.expired", attemptExpired),
  ("identity.session_revoked", sessionRevoked)]

def framesOf (eventType : String) (payload : Json) (aggregateId : String) :
    Except Failure (List RealtimeFrame) :=
  match realtime.find? (fun r => r.1 == eventType) with
  | none => .ok []
  | some r => r.2 payload aggregateId

/-- `_publish`. A bus that does not answer is swallowed; an undeclared event is not. -/
def publish (b : Broker) (f : RealtimeFrame) : Dispatching ℕ := fun w =>
  if carries (partitionColon f.channel).1 f.eventType then
    let w' := { w with published := w.published + 1 }
    if b.publishes w.published then (.ok 1, { w' with frames := w.frames ++ [f] }) else (.ok 0, w')
  else (.error (.domain .undeclaredEvent), w)

def broadcast (b : Broker) (eventType : String) (payload : Json) (aggregateId : String) :
    Dispatching ℕ := do
  let frames ← lift (framesOf eventType payload aggregateId)
  let counts ← frames.mapM (publish b)
  return counts.sum

def dispatchAll (b : Broker) (eventType : String) (payload : Json) (aggregateId : String) :
    Dispatching Unit := do
  dispatch b eventType payload
  let extra ← lift (fanOut eventType payload)
  let _ ← extra.mapM (send b)
  let _ ← broadcast b eventType payload aggregateId
  return ()

/-! ## What an event routes to -/

def ownMessages (eventType : String) (payload : Json) : Except Failure (List Message) :=
  match routeOf eventType with
  | none => .error (noRoute eventType)
  | some none => .ok []
  | some (some (actor, buildArgs)) => do return [⟨actor, ← buildArgs payload⟩]

def messagesOf (eventType : String) (payload : Json) : Except Failure (List Message) := do
  let own ← ownMessages eventType payload
  let extra ← fanOut eventType payload
  return own ++ extra

section
variable {b : Broker} {eventType aggregateId : String} {payload : Json} {w w' : Wire}

theorem send_eq_ok {m : Message} {u : Unit} (h : send b m w = (.ok u, w')) :
    w'.queue = w.queue ++ [m] := by
  unfold send at h
  split at h
  · cases h
    rfl
  · cases h
  · cases h

theorem sends_eq_ok {ms : List Message} {us : List Unit} (h : ms.mapM (send b) w = (.ok us, w')) :
    w'.queue = w.queue ++ ms := by
  induction ms generalizing w us with
  | nil =>
    cases h
    simp
  | cons m ms ih =>
    rw [List.mapM_cons] at h
    obtain ⟨_, v, hm, h⟩ := Effect.bind_eq_ok.1 h
    obtain ⟨_, v', hms, h⟩ := Effect.bind_eq_ok.1 h
    cases h
    rw [ih hms, send_eq_ok hm]
    simp

theorem dispatch_eq_ok {u : Unit} (h : dispatch b eventType payload w = (.ok u, w')) :
    ∃ ms, ownMessages eventType payload = .ok ms ∧ w'.queue = w.queue ++ ms := by
  unfold dispatch at h
  unfold ownMessages
  rcases hr : routeOf eventType with _ | _ | ⟨actor, buildArgs⟩ <;> rw [hr] at h
  · cases h
  · cases h
    exact ⟨[], rfl, by simp⟩
  · obtain ⟨args, v, hargs, h⟩ := Effect.bind_eq_ok.1 h
    have hargs : buildArgs payload = .ok args ∧ w = v := by simpa using hargs
    refine ⟨[⟨actor, args⟩], ?_, ?_⟩
    · simp only [hargs.1]
      rfl
    · rw [hargs.2]
      exact send_eq_ok h

theorem publish_queue (f : RealtimeFrame) (w : Wire) : (publish b f w).2.queue = w.queue := by
  unfold publish
  split
  · split <;> rfl
  · rfl

theorem broadcast_queue (w : Wire) :
    (broadcast b eventType payload aggregateId w).2.queue = w.queue := by
  have hframe : Frame (fun s t : Wire => t.queue = s.queue) :=
    ⟨fun _ => rfl, fun h h' => h'.trans h⟩
  have hkeeps : Keeps (fun s t : Wire => t.queue = s.queue)
      (broadcast b eventType payload aggregateId) := by
    refine keeps_bind hframe (keeps_lift hframe _) (fun frames => ?_)
    refine keeps_bind hframe (keeps_mapM hframe (fun f _ => publish_queue f)) (fun counts => ?_)
    exact keeps_pure hframe _
  exact hkeeps w

theorem dispatchAll_eq_ok {u : Unit}
    (h : dispatchAll b eventType payload aggregateId w = (.ok u, w')) :
    ∃ ms, messagesOf eventType payload = .ok ms ∧ w'.queue = w.queue ++ ms := by
  unfold dispatchAll at h
  obtain ⟨_, w₁, hown, h⟩ := Effect.bind_eq_ok.1 h
  obtain ⟨extra, w₂, hextra, h⟩ := Effect.bind_eq_ok.1 h
  obtain ⟨_, w₃, hsends, h⟩ := Effect.bind_eq_ok.1 h
  obtain ⟨_, w₄, hcast, h⟩ := Effect.bind_eq_ok.1 h
  obtain ⟨own, hms, hqueue⟩ := dispatch_eq_ok hown
  have hextra : fanOut eventType payload = .ok extra ∧ w₁ = w₂ := by simpa using hextra
  have hsame : (broadcast b eventType payload aggregateId w₃).2.queue = w₃.queue :=
    broadcast_queue w₃
  rw [hcast] at hsame
  have hlast : w' = w₄ := (Prod.mk.inj h).2.symm
  refine ⟨own ++ extra, ?_, ?_⟩
  · rw [messagesOf, hms]
    change (do return own ++ (← fanOut eventType payload)) = Except.ok (own ++ extra)
    rw [hextra.1]
    rfl
  · calc w'.queue = w₃.queue := by rw [hlast, hsame]
      _ = w₂.queue ++ extra := sends_eq_ok hsends
      _ = w.queue ++ (own ++ extra) := by rw [← hextra.2, hqueue, List.append_assoc]

end

end IeltsHub.WorkersActors
