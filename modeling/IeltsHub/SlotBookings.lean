import IeltsHub.ReadCommitted
import IeltsHub.SpeakingService

set_option autoImplicit false

/-!
# Booking a speaking slot, one statement after another

`book_slot`, `cancel_booking`, `check_in` and `match_slot`, each a transaction beside the others.
The seats taken are counted in one statement and the place is written in another. The share lock
that the foreign key of a new booking takes on its slot is left out: it only keeps a booking and a
run of the matcher apart.
-/
namespace IeltsHub.SlotBookings
open PyTime PlatformRefusals RowTable SpeakingMatching SpeakingPools SpeakingService GuardedRuns
  ReadCommitted
open PlatformErrors (Raised)

inductive Action where
  | book | cancel | checkIn
  deriving DecidableEq

/-- `other` is what happens to the tables beside bookings and matches, a transaction at a time. -/
inductive Call where
  | request (userId : ℕ) (action : Action) (xid : String)
  | matchSlot (slotId : ℕ)
  | other (e : Event)

inductive Answer where
  | booking (row : Booking)
  | noContent
  | refused (e : Refusal)
  | failed (e : MatchError)
  | crashed (e : Raised)

/-- How far a request has come. `taken` are the seats it counted, `row` is what its INSERT returned,
`missing` are the bookings still to be marked and `marked` those that are. -/
inductive Phase where
  | waiting
  | entered (a : Actor)
  | found (a : Actor) (slot : Slot)
  | agreed (a : Actor) (slot : Slot)
  | placed (a : Actor) (slot : Slot)
  | levelled (a : Actor) (slot : Slot)
  | counted (a : Actor) (slot : Slot) (taken : ℕ)
  | banded (a : Actor) (slot : Slot) (taken : ℕ) (band : Option ℚ)
  | seated (slot : Slot) (taken : ℕ) (row : Booking)
  | changing (a : Actor) (slot : Slot)
  | unchanged
  | cancelled (key : ℕ × ℕ) (now : Time)
  | checked (row : Booking) (now : Time)
  | holding (slot : Slot) (now : Time)
  | loading (slot : Slot) (now : Time) (rest : List (Booking × Account)) (read : List Candidate)
  | pairing (slot : Slot) (now : Time) (rest : List Pair) (todo : List String)
      (pairs : List Pair) (seats : List (ℕ × ℕ))
  | marking (slot : Slot) (now : Time) (pairs : List Pair) (seats missing marked : List (ℕ × ℕ))
  | closing (slot : Slot) (now : Time) (pairs : List Pair) (seats marked : List (ℕ × ℕ))
  | done (a : Answer)

structure Request where
  call : Call
  phase : Phase := .waiting

inductive Act where
  | enter (now : Time)
  | find (now : Time)
  | consent
  | supervise
  | level
  | count
  | band
  | upsert
  | change (now : Time)
  | hold (now : Time)
  | load
  | candidate
  | pair
  | seat
  | absentees
  | mark
  | live
  | commit
  | fail (e : Raised)

inductive Key where
  | booking (key : ℕ × ℕ)
  | slot (id : ℕ)
  deriving DecidableEq

/-! ## The statements of a request -/

def liveRow (d : Pools) (key : ℕ × ℕ) : Option Booking :=
  (d.bookings.get? key).filter (fun b => b.cancelledAt = none)

def holds (d : Pools) (slot : Slot) (userId : ℕ) : Bool := (liveRow d (slot.id, userId)).isSome

/-- `_slot`, and what the row of the slot decides. -/
def find (d : Pools) (a : Actor) (action : Action) (xid : String) (now : Time) :
    Except Refusal Phase := do
  let slot ← slotByXid d xid
  match action with
  | .book => if slot.ageBand ∉ permittedBands a then throw ageBandMismatch else return .found a slot
  | .cancel => return .changing a slot
  | .checkIn =>
    if now < slot.startsAt - seconds 600 then throw checkinNotOpen else return .changing a slot

def consent (d : Pools) (a : Actor) (slot : Slot) : Except Refusal Phase :=
  if a.isMinor ∧ slot.audience = .public_ ∧ (liveConsents d a.userId).length = 0 then
    .error parentalConsentRequired
  else .ok (.agreed a slot)

def supervise (d : Pools) (a : Actor) (slot : Slot) : Except Refusal Phase :=
  if slot.ageBand = .mixedSupervised ∧ ¬ inClass d slot a.userId ∧ slot.createdBy ≠ a.userId then
    .error notInCohort
  else .ok (.placed a slot)

def level (d : Pools) (a : Actor) (slot : Slot) : Except Refusal Phase :=
  if ¬ bandFits slot (d.around.bands a.userId) then .error (bandRangeMismatch slot)
  else if slot.status ≠ .scheduled ∧ slot.status ≠ .booking then .error slotClosed
  else .ok (.levelled a slot)

def count (d : Pools) (a : Actor) (slot : Slot) : Except Refusal Phase :=
  if slot.capacity ≤ taken d slot then .error slotFull else .ok (.counted a slot (taken d slot))

/-- `INSERT … ON CONFLICT (slot_id, user_id) DO UPDATE SET cancelled_at = NULL`. -/
def upsert (d : Pools) (slot : Slot) (userId : ℕ) (band : Option ℚ) : Booking :=
  match d.bookings.get? (slot.id, userId) with
  | some b => { b with cancelledAt := none }
  | none => { slotId := slot.id, userId, selfBand := band }

def readTo (q : Request) : Except Refusal Phase → Move Pools Key Request
  | .ok p => .goes { q with phase := p } []
  | .error e => .rollsBack { q with phase := .done (.refused e) }

def coalesced (now : Time) (b : Booking) : Booking :=
  { b with checkedInAt := b.checkedInAt <|> some now }

/-- The UPDATE of a cancellation or a check-in: it takes the lock of a row that it finds. -/
def change (d : Pools) (q : Request) (a : Actor) (slot : Slot) (now : Time) :
    Action → Option (Move Pools Key Request)
  | .book => none
  | .cancel =>
    if holds d slot a.userId then
      some (.goes { q with phase := .cancelled (slot.id, a.userId) now }
        [.booking (slot.id, a.userId)])
    else some (.goes { q with phase := .unchanged } [])
  | .checkIn =>
    match liveRow d (slot.id, a.userId) with
    | none => some (.rollsBack { q with phase := .done (.refused noBooking) })
    | some row => some (.goes { q with phase := .checked row now } [.booking row.key])

/-! ## The statements of a match -/

def hold (d : Pools) (q : Request) (slotId : ℕ) (now : Time) : Move Pools Key Request :=
  match d.slots.get? slotId with
  | none => .rollsBack { q with phase := .done .noContent }
  | some slot =>
    if slot.status = .booking then .goes { q with phase := .holding slot now } [.slot slotId]
    else .rollsBack { q with phase := .done .noContent }

def candidate (d : Pools) (q : Request) (slot : Slot) (now : Time) (read : List Candidate) :
    List (Booking × Account) → Move Pools Key Request
  | row :: rest =>
    .goes { q with phase := .loading slot now rest (read ++ [slotCandidate d slot now row]) } []
  | [] =>
    match matched read with
    | .error e => .rollsBack { q with phase := .done (.failed e) }
    | .ok outcome => .goes { q with phase := .pairing slot now outcome.pairs [] [] [] } []

def pairNext (d : Pools) (q : Request) (slot : Slot) (now : Time) (pair : Pair)
    (rest pairs : List Pair) (seats : List (ℕ × ℕ)) : Move Pools Key Request :=
  match createPair d pair .slotBatch (some slot) now with
  | .error e => .rollsBack { q with phase := .done (.failed e) }
  | .ok _ =>
    .goes { q with
      phase := .pairing slot now rest [pair.a.userXid, pair.b.userXid] (pairs ++ [pair]) seats } []

def seatKeys (d : Pools) (slot : Slot) (userXid : String) : List (ℕ × ℕ) :=
  (d.bookings.select (fun b => b.slotId = slot.id ∧ SpeakingService.userXid b.userId = userXid)).map
    Booking.key

def isMissing (slot : Slot) (b : Booking) : Bool :=
  b.slotId = slot.id ∧ b.cancelledAt = none ∧ b.checkedInAt = none

def missingKeys (d : Pools) (slot : Slot) : List (ℕ × ℕ) :=
  (d.bookings.select (isMissing slot)).map Booking.key

/-- The UPDATE comes to a row: it takes its lock if the row is still one of those. -/
def mark (d : Pools) (q : Request) (slot : Slot) (now : Time) (pairs : List Pair)
    (seats : List (ℕ × ℕ)) (key : ℕ × ℕ) (missing marked : List (ℕ × ℕ)) : Move Pools Key Request :=
  if (d.bookings.get? key).any (isMissing slot) then
    .goes { q with phase := .marking slot now pairs seats missing (marked ++ [key]) } [.booking key]
  else .goes { q with phase := .marking slot now pairs seats missing marked } []

/-! ## Commits -/

def landBooked (d : Pools) (row : Booking) : Pools :=
  { d with bookings := d.bookings.put row }

def landCancelled (d : Pools) (key : ℕ × ℕ) (now : Time) : Pools :=
  { d with
    bookings := d.bookings.mapRows
      (fun b => if b.key = key then { b with cancelledAt := some now } else b)
      (fun b => by split <;> rfl) }

def landChecked (d : Pools) (key : ℕ × ℕ) (now : Time) : Pools :=
  { d with
    bookings := d.bookings.mapRows
      (fun b => if b.key = key then coalesced now b else b)
      (fun b => by split <;> rfl) }

theorem live_id (slot s : Slot) :
    (if s.id = slot.id then { s with status := .live } else s).id = s.id := by
  split <;> rfl

def landMarked (d : Pools) (slot : Slot) (marked : List (ℕ × ℕ)) : Pools :=
  { d with
    bookings := d.bookings.mapRows
      (fun b => if b.key ∈ marked then { b with noShow := true } else b)
      (fun b => by split <;> rfl)
    slots := d.slots.mapRows (fun s => if s.id = slot.id then { s with status := .live } else s)
      (live_id slot) }

def landMatch (d : Pools) (slot : Slot) (now : Time) (pairs : List Pair) (marked : List (ℕ × ℕ)) :
    Except MatchError Pools := do
  let d ← pairs.foldlM (fun d pair => do
    let (d, pairId) ← createPair d pair .slotBatch (some slot) now
    return seatBookings d slot pair pairId) d
  return landMarked d slot marked

def commitMatch (d : Pools) (q : Request) (slot : Slot) (now : Time) (pairs : List Pair)
    (marked : List (ℕ × ℕ)) : Move Pools Key Request :=
  match landMatch d slot now pairs marked with
  | .error e => .rollsBack { q with phase := .done (.failed e) }
  | .ok d' => .commits d' { q with phase := .done .noContent }

def aside : Event → Bool
  | .request _ (.bookSlot _) _ | .request _ (.cancelBooking _) _ => false
  | .request _ (.checkIn _) _ => false
  | .matchSlot .. => false
  | _ => true

def next (d : Pools) (q : Request) (act : Act) : Option (Move Pools Key Request) :=
  match q.phase, q.call, act with
  | .waiting, .request u _ _, .enter now => some (readTo q ((principal d u now).map .entered))
  | .entered a, .request _ action xid, .find now => some (readTo q (find d a action xid now))
  | .found a slot, _, .consent => some (readTo q (consent d a slot))
  | .agreed a slot, _, .supervise => some (readTo q (supervise d a slot))
  | .placed a slot, _, .level => some (readTo q (level d a slot))
  | .levelled a slot, _, .count => some (readTo q (count d a slot))
  | .counted a slot taken, _, .band =>
    some (readTo q (.ok (.banded a slot taken (d.around.bands a.userId))))
  | .banded a slot taken band, _, .upsert =>
    some (.goes { q with phase := .seated slot taken (upsert d slot a.userId band) }
      [.booking (slot.id, a.userId)])
  | .seated _ _ row, _, .commit =>
    some (.commits (landBooked d row) { q with phase := .done (.booking row) })
  | .changing a slot, .request _ action _, .change now => change d q a slot now action
  | .unchanged, _, .commit => some (.commits d { q with phase := .done .noContent })
  | .cancelled key now, _, .commit =>
    some (.commits (landCancelled d key now) { q with phase := .done .noContent })
  | .checked row now, _, .commit =>
    some (.commits (landChecked d row.key now)
      { q with phase := .done (.booking (coalesced now row)) })
  | .waiting, .matchSlot slotId, .hold now => some (hold d q slotId now)
  | .holding slot now, _, .load =>
    some (readTo q (.ok (.loading slot now (joined d Booking.userId (checkedIn d slot.id)) [])))
  | .loading slot now rest read, _, .candidate => some (candidate d q slot now read rest)
  | .pairing slot now (pair :: rest) [] pairs seats, _, .pair =>
    some (pairNext d q slot now pair rest pairs seats)
  | .pairing slot now rest (xid :: todo) pairs seats, _, .seat =>
    some (.goes { q with phase := .pairing slot now rest todo pairs (seats ++ seatKeys d slot xid) }
      ((seatKeys d slot xid).map .booking))
  | .pairing slot now [] [] pairs seats, _, .absentees =>
    some (readTo q (.ok (.marking slot now pairs seats (missingKeys d slot) [])))
  | .marking slot now pairs seats (key :: missing) marked, _, .mark =>
    some (mark d q slot now pairs seats key missing marked)
  | .marking slot now pairs seats [] marked, _, .live =>
    some (readTo q (.ok (.closing slot now pairs seats marked)))
  | .closing slot now pairs _ marked, _, .commit => some (commitMatch d q slot now pairs marked)
  | .waiting, .other e, .commit =>
    if aside e then some (.commits (execute d e) { q with phase := .done .noContent }) else none
  | .done _, _, _ => none
  | _, _, .fail e => some (.rollsBack { q with phase := .done (.crashed e) })
  | _, _, _ => none

def owned : Phase → List Key
  | .seated slot _ row => [.booking (slot.id, row.userId)]
  | .cancelled key _ => [.booking key]
  | .checked row _ => [.booking row.key]
  | .holding slot _ | .loading slot _ _ _ => [.slot slot.id]
  | .pairing slot _ _ _ _ seats => .slot slot.id :: seats.map .booking
  | .marking slot _ _ seats _ marked | .closing slot _ _ seats marked =>
    .slot slot.id :: (seats ++ marked).map .booking
  | _ => []

/-! ## What a statement can do -/

/-- The statements that take no lock. -/
inductive Reads (d : Pools) : Phase → Phase → Prop where
  | entered (a : Actor) : Reads d .waiting (.entered a)
  | found (a : Actor) (slot : Slot) (row : slot ∈ d.slots.rows) :
      Reads d (.entered a) (.found a slot)
  | changing (a : Actor) (slot : Slot) : Reads d (.entered a) (.changing a slot)
  | agreed (a : Actor) (slot : Slot) : Reads d (.found a slot) (.agreed a slot)
  | placed (a : Actor) (slot : Slot) : Reads d (.agreed a slot) (.placed a slot)
  | levelled (a : Actor) (slot : Slot) : Reads d (.placed a slot) (.levelled a slot)
  | counted (a : Actor) (slot : Slot) (room : taken d slot < slot.capacity) :
      Reads d (.levelled a slot) (.counted a slot (taken d slot))
  | banded (a : Actor) (slot : Slot) (taken : ℕ) (band : Option ℚ) :
      Reads d (.counted a slot taken) (.banded a slot taken band)
  | unchanged (a : Actor) (slot : Slot) : Reads d (.changing a slot) .unchanged
  | loading (slot : Slot) (now : Time) (rest : List (Booking × Account)) :
      Reads d (.holding slot now) (.loading slot now rest [])
  | candidate (slot : Slot) (now : Time) (rest rest' : List (Booking × Account))
      (read read' : List Candidate) :
      Reads d (.loading slot now rest read) (.loading slot now rest' read')
  | matched (slot : Slot) (now : Time) (read : List Candidate) (pairs : List Pair) :
      Reads d (.loading slot now [] read) (.pairing slot now pairs [] [] [])
  | paired (slot : Slot) (now : Time) (rest rest' : List Pair) (todo : List String)
      (pairs pairs' : List Pair) (seats : List (ℕ × ℕ)) :
      Reads d (.pairing slot now rest [] pairs seats) (.pairing slot now rest' todo pairs' seats)
  | marking (slot : Slot) (now : Time) (pairs : List Pair) (seats missing : List (ℕ × ℕ)) :
      Reads d (.pairing slot now [] [] pairs seats) (.marking slot now pairs seats missing [])
  | skipped (slot : Slot) (now : Time) (pairs : List Pair) (key : ℕ × ℕ)
      (seats missing marked : List (ℕ × ℕ)) :
      Reads d (.marking slot now pairs seats (key :: missing) marked)
        (.marking slot now pairs seats missing marked)
  | closing (slot : Slot) (now : Time) (pairs : List Pair) (seats marked : List (ℕ × ℕ)) :
      Reads d (.marking slot now pairs seats [] marked) (.closing slot now pairs seats marked)

/-- The statements that take locks. -/
inductive Locks (d : Pools) : Phase → Phase → List Key → Prop where
  | seated (a : Actor) (slot : Slot) (taken : ℕ) (band : Option ℚ) :
      Locks d (.banded a slot taken band) (.seated slot taken (upsert d slot a.userId band))
        [.booking (slot.id, a.userId)]
  | cancelled (a : Actor) (slot : Slot) (key : ℕ × ℕ) (now : Time) :
      Locks d (.changing a slot) (.cancelled key now) [.booking key]
  | checked (a : Actor) (slot : Slot) (row : Booking) (now : Time) :
      Locks d (.changing a slot) (.checked row now) [.booking row.key]
  | holding (slot : Slot) (now : Time) : Locks d .waiting (.holding slot now) [.slot slot.id]
  | seat (slot : Slot) (now : Time) (rest : List Pair) (xid : String) (todo : List String)
      (pairs : List Pair) (seats keys : List (ℕ × ℕ)) :
      Locks d (.pairing slot now rest (xid :: todo) pairs seats)
        (.pairing slot now rest todo pairs (seats ++ keys)) (keys.map .booking)
  | marked (slot : Slot) (now : Time) (pairs : List Pair) (key : ℕ × ℕ)
      (seats missing marked : List (ℕ × ℕ)) :
      Locks d (.marking slot now pairs seats (key :: missing) marked)
        (.marking slot now pairs seats missing (marked ++ [key])) [.booking key]

/-- What a request writes. -/
inductive Writes (d : Pools) : Phase → Pools → Answer → Prop where
  | booked (slot : Slot) (taken : ℕ) (row : Booking) :
      Writes d (.seated slot taken row) (landBooked d row) (.booking row)
  | unchanged : Writes d .unchanged d .noContent
  | cancelled (key : ℕ × ℕ) (now : Time) :
      Writes d (.cancelled key now) (landCancelled d key now) .noContent
  | checked (row : Booking) (now : Time) :
      Writes d (.checked row now) (landChecked d row.key now) (.booking (coalesced now row))
  | live (slot : Slot) (now : Time) (pairs : List Pair) (seats marked : List (ℕ × ℕ)) (d' : Pools)
      (landed : landMatch d slot now pairs marked = .ok d') :
      Writes d (.closing slot now pairs seats marked) d' .noContent
  | other (e : Event) (apart : aside e = true) : Writes d .waiting (execute d e) .noContent

inductive Next (d : Pools) (q : Request) : Act → Move Pools Key Request → Prop where
  | refused (act : Act) (a : Answer) : Next d q act (.rollsBack { q with phase := .done a })
  | reads (act : Act) (p : Phase) (h : Reads d q.phase p) :
      Next d q act (.goes { q with phase := p } [])
  | locks (act : Act) (p : Phase) (keys : List Key) (h : Locks d q.phase p keys) :
      Next d q act (.goes { q with phase := p } keys)
  | commits (d' : Pools) (a : Answer) (h : Writes d q.phase d' a) :
      Next d q .commit (.commits d' { q with phase := .done a })

variable {d d' : Pools} {q p : Request} {act : Act} {m : Move Pools Key Request} {a : Actor}
  {slot : Slot}

theorem next_readTo {e : Except Refusal Phase} (h : ∀ p, e = .ok p → Reads d q.phase p) :
    Next d q act (readTo q e) := by
  cases e with
  | error e => exact .refused _ _
  | ok p => exact .reads _ p (h p rfl)

theorem reads_find {action : Action} {xid : String} {now : Time} {p : Phase}
    (h : find d a action xid now = .ok p) : Reads d (.entered a) p := by
  unfold find at h
  obtain ⟨slot, hslot, h⟩ := PyExc.bind_eq_ok.1 h
  cases action with
  | book =>
    dsimp only at h
    split at h
    · cases h
    · cases h
      refine .found a slot ?_
      unfold slotByXid at hslot
      split at hslot
      · cases hslot
      · next row hfind =>
        cases hslot
        exact List.mem_of_find?_eq_some hfind
  | cancel =>
    cases h
    exact .changing a slot
  | checkIn =>
    dsimp only at h
    split at h
    · cases h
    · cases h
      exact .changing a slot

theorem reads_consent {p : Phase} (h : consent d a slot = .ok p) : Reads d (.found a slot) p := by
  unfold consent at h
  split at h
  · cases h
  · cases h
    exact .agreed a slot

theorem reads_supervise {p : Phase} (h : supervise d a slot = .ok p) :
    Reads d (.agreed a slot) p := by
  unfold supervise at h
  split at h
  · cases h
  · cases h
    exact .placed a slot

theorem reads_level {p : Phase} (h : level d a slot = .ok p) : Reads d (.placed a slot) p := by
  unfold level at h
  split at h
  · cases h
  · split at h
    · cases h
    · cases h
      exact .levelled a slot

theorem reads_count {p : Phase} (h : count d a slot = .ok p) : Reads d (.levelled a slot) p := by
  unfold count at h
  split at h
  · cases h
  · next hroom =>
    cases h
    exact .counted a slot (not_le.1 hroom)

theorem next_change {now : Time} {action : Action} (hphase : q.phase = .changing a slot)
    (h : change d q a slot now action = some m) : Next d q act m := by
  unfold change at h
  split at h
  · cases h
  · split at h
    · cases h
      exact .locks _ _ _ (hphase ▸ .cancelled a slot _ now)
    · cases h
      exact .reads _ _ (hphase ▸ .unchanged a slot)
  · split at h
    · cases h
      exact .refused _ _
    · next row _ =>
      cases h
      exact .locks _ _ _ (hphase ▸ .checked a slot row now)

theorem next_hold (slotId : ℕ) (now : Time) (hphase : q.phase = .waiting) :
    Next d q act (hold d q slotId now) := by
  unfold hold
  split
  · exact .refused _ _
  · next slot hslot =>
    split
    · have hid : slot.id = slotId := Table.get?_key hslot
      refine .locks _ _ _ ?_
      rw [hphase, ← hid]
      exact .holding slot now
    · exact .refused _ _

theorem next_candidate {now : Time} {rest : List (Booking × Account)} {read : List Candidate}
    (hphase : q.phase = .loading slot now rest read) :
    Next d q act (candidate d q slot now read rest) := by
  unfold candidate
  split
  · exact .reads _ _ (hphase ▸ .candidate slot now _ _ _ _)
  · split
    · exact .refused _ _
    · exact .reads _ _ (hphase ▸ .matched slot now read _)

theorem next_pairNext {now : Time} {pair : Pair} {rest pairs : List Pair} {seats : List (ℕ × ℕ)}
    (hphase : q.phase = .pairing slot now (pair :: rest) [] pairs seats) :
    Next d q act (pairNext d q slot now pair rest pairs seats) := by
  unfold pairNext
  split
  · exact .refused _ _
  · exact .reads _ _ (hphase ▸ .paired slot now _ _ _ _ _ seats)

theorem next_mark {now : Time} {pairs : List Pair} {key : ℕ × ℕ}
    {seats missing marked : List (ℕ × ℕ)}
    (hphase : q.phase = .marking slot now pairs seats (key :: missing) marked) :
    Next d q act (mark d q slot now pairs seats key missing marked) := by
  unfold mark
  split
  · exact .locks _ _ _ (hphase ▸ .marked slot now pairs key seats missing marked)
  · exact .reads _ _ (hphase ▸ .skipped slot now pairs key seats missing marked)

theorem next_commitMatch {now : Time} {pairs : List Pair} {seats marked : List (ℕ × ℕ)}
    (hphase : q.phase = .closing slot now pairs seats marked) :
    Next d q .commit (commitMatch d q slot now pairs marked) := by
  unfold commitMatch
  split
  · exact .refused _ _
  · next d' hlanded => exact .commits d' _ (hphase ▸ .live slot now pairs seats marked d' hlanded)

theorem next_cases (h : next d q act = some m) : Next d q act m := by
  unfold next at h
  split at h
  · next hphase _ =>
    cases h
    refine next_readTo (fun p hp => ?_)
    obtain ⟨a, _, rfl⟩ := PyExc.map_eq_ok.1 hp
    exact hphase ▸ .entered a
  · next hphase _ =>
    cases h
    exact next_readTo (fun p hp => hphase ▸ reads_find hp)
  · next hphase =>
    cases h
    exact next_readTo (fun p hp => hphase ▸ reads_consent hp)
  · next hphase =>
    cases h
    exact next_readTo (fun p hp => hphase ▸ reads_supervise hp)
  · next hphase =>
    cases h
    exact next_readTo (fun p hp => hphase ▸ reads_level hp)
  · next hphase =>
    cases h
    exact next_readTo (fun p hp => hphase ▸ reads_count hp)
  · next hphase =>
    cases h
    exact .reads _ _ (hphase ▸ .banded _ _ _ _)
  · next hphase =>
    cases h
    exact .locks _ _ _ (hphase ▸ .seated _ _ _ _)
  · next hphase =>
    cases h
    exact .commits _ _ (hphase ▸ .booked _ _ _)
  · next hphase _ => exact next_change hphase h
  · next hphase =>
    cases h
    exact .commits _ _ (hphase ▸ .unchanged)
  · next hphase =>
    cases h
    exact .commits _ _ (hphase ▸ .cancelled _ _)
  · next hphase =>
    cases h
    exact .commits _ _ (hphase ▸ .checked _ _)
  · next hphase _ =>
    cases h
    exact next_hold _ _ hphase
  · next hphase =>
    cases h
    exact .reads _ _ (hphase ▸ .loading _ _ _)
  · next hphase =>
    cases h
    exact next_candidate hphase
  · next hphase =>
    cases h
    exact next_pairNext hphase
  · next hphase =>
    cases h
    exact .locks _ _ _ (hphase ▸ .seat _ _ _ _ _ _ _ _)
  · next hphase =>
    cases h
    exact .reads _ _ (hphase ▸ .marking _ _ _ _ _)
  · next hphase =>
    cases h
    exact next_mark hphase
  · next hphase =>
    cases h
    exact .reads _ _ (hphase ▸ .closing _ _ _ _ _)
  · next hphase =>
    cases h
    exact next_commitMatch hphase
  · next hphase _ =>
    split at h
    · next hapart =>
      cases h
      exact .commits _ _ (hphase ▸ .other _ hapart)
    · cases h
  · cases h
  · cases h
    exact .refused _ _
  · cases h

theorem key_upsert (d : Pools) (slot : Slot) (userId : ℕ) (band : Option ℚ) :
    (upsert d slot userId band).key = (slot.id, userId) := by
  unfold upsert
  split
  · next b hb =>
    have hkey : b.key = (slot.id, userId) := Table.get?_key hb
    exact hkey
  · rfl

theorem owned_reads {p p' : Phase} (h : Reads d p p') : ∀ k ∈ owned p', k ∈ owned p := by
  intro k hk
  cases h with
  | loading | candidate | paired | closing => exact hk
  | matched => exact hk
  | marking => simpa [owned] using hk
  | skipped => exact hk
  | _ => cases hk

theorem owned_locks {p p' : Phase} {keys : List Key} (h : Locks d p p' keys) :
    ∀ k ∈ owned p', k ∈ owned p ∨ k ∈ keys := by
  intro k hk
  cases h with
  | seated a slot taken band =>
    have huser : (upsert d slot a.userId band).userId = a.userId :=
      congrArg Prod.snd (key_upsert d slot a.userId band)
    right
    simpa [owned, huser] using hk
  | cancelled | checked | holding => exact .inr hk
  | seat =>
    simp only [owned, List.map_append, List.mem_cons, List.mem_append] at hk ⊢
    tauto
  | marked =>
    simp only [owned, List.map_append, List.map_cons, List.map_nil, List.mem_cons,
      List.mem_append] at hk ⊢
    tauto

theorem owned_goes {keys : List Key} (h : Next d q act (.goes p keys)) :
    ∀ k ∈ owned p.phase, k ∈ owned q.phase ∨ k ∈ keys := by
  cases h with
  | reads _ p h => exact fun k hk => .inl (owned_reads h k hk)
  | locks _ p keys h => exact owned_locks h

def program : Program Pools Key Request Act where
  next := next
  owned q := owned q.phase
  owned_goes h := owned_goes (next_cases h)
  owned_commits := by
    intro d p i d' p' h
    cases next_cases h
    rfl
  owned_rollsBack := by
    intro d p i p' h
    cases next_cases h
    rfl

abbrev Sys := ReadCommitted.Sys Pools Key Request

def start (d : Pools) (calls : ℕ → Call) : Sys where
  store := { d with bookings := .empty }
  requests r := ⟨calls r, .waiting⟩

/-! ## A booking alone -/

def bookingActs (now : Time) : List Act :=
  [.enter now, .find now, .consent, .supervise, .level, .count, .band, .upsert, .commit]

variable {now : Time}

theorem consent_of_bookable (h : Bookable d a slot) : consent d a slot = .ok (.agreed a slot) := by
  refine if_neg ?_
  rintro ⟨hminor, haudience, hnone⟩
  exact (h.consent hminor haudience).ne' hnone

theorem supervise_of_bookable (h : Bookable d a slot) :
    supervise d a slot = .ok (.placed a slot) := by
  refine if_neg ?_
  rintro ⟨hmixed, hneither⟩
  exact (not_or.2 hneither) (h.supervised hmixed)

theorem level_of_bookable (h : Bookable d a slot) : level d a slot = .ok (.levelled a slot) := by
  unfold level
  rw [if_neg (not_not.2 h.level), if_neg]
  intro hneither
  exact (not_or.2 hneither) h.opened

theorem find_of_bookable {xid : String} (h : Bookable d a slot)
    (hslot : slotByXid d xid = .ok slot) : find d a .book xid now = .ok (.found a slot) := by
  unfold find
  rw [hslot]
  exact if_neg (not_not.2 h.band)

def alone (d : Pools) (call : Call) (phase : Phase) : Sys where
  store := d
  requests := Function.update (fun _ => ⟨.matchSlot 0, .waiting⟩) 0 ⟨call, phase⟩

theorem alone_put {call : Call} {p p' : Phase} :
    (alone d call p).put 0 ⟨call, p'⟩ = (alone d call p').requests :=
  Function.update_idem ..

theorem step_alone {call : Call} {p p' : Phase} {act : Act}
    (h : next d ⟨call, p⟩ act = some (readTo ⟨call, p⟩ (.ok p'))) :
    ReadCommitted.Step program (alone d call p) (0, act) (alone d call p') := by
  have hnext : program.next (alone d call p).store ((alone d call p).requests 0) act =
      some (.goes ⟨call, p'⟩ []) := by
    have hrequest : (alone d call p).requests 0 = ⟨call, p⟩ := rfl
    rw [hrequest]
    exact h
  unfold ReadCommitted.Step step
  rw [hnext, Option.bind_some, Sys.move, if_pos (by rfl), alone_put]
  rfl

/-- Its statements come to what `bookSlot` does at once. -/
theorem alone_books {u : ℕ} {xid : String} (ha : principal d u now = .ok a)
    (h : bookSlot d a xid = .ok d') : ∃ s,
    Any (ReadCommitted.Step program) (alone d (.request u .book xid) .waiting)
      ((bookingActs now).map (fun act => (0, act))) s ∧ s.store = d' := by
  obtain ⟨slot, hslot, hbook, rfl⟩ := bookSlot_eq_ok.1 h
  have hcount : count d a slot = .ok (.counted a slot (taken d slot)) :=
    if_neg (not_le.2 hbook.room)
  have hentered : next d ⟨.request u .book xid, .waiting⟩ (.enter now) =
      some (readTo ⟨.request u .book xid, .waiting⟩ (.ok (.entered a))) := by
    unfold next
    dsimp only
    rw [ha]
    rfl
  have hfound : next d ⟨.request u .book xid, .entered a⟩ (.find now) =
      some (readTo ⟨.request u .book xid, .entered a⟩ (.ok (.found a slot))) :=
    congrArg (fun e => some (readTo _ e)) (find_of_bookable hbook hslot)
  have hagreed : next d ⟨.request u .book xid, .found a slot⟩ .consent =
      some (readTo ⟨.request u .book xid, .found a slot⟩ (.ok (.agreed a slot))) :=
    congrArg (fun e => some (readTo _ e)) (consent_of_bookable hbook)
  have hplaced : next d ⟨.request u .book xid, .agreed a slot⟩ .supervise =
      some (readTo ⟨.request u .book xid, .agreed a slot⟩ (.ok (.placed a slot))) :=
    congrArg (fun e => some (readTo _ e)) (supervise_of_bookable hbook)
  have hlevelled : next d ⟨.request u .book xid, .placed a slot⟩ .level =
      some (readTo ⟨.request u .book xid, .placed a slot⟩ (.ok (.levelled a slot))) :=
    congrArg (fun e => some (readTo _ e)) (level_of_bookable hbook)
  have hcounted : next d ⟨.request u .book xid, .levelled a slot⟩ .count =
      some (readTo ⟨.request u .book xid, .levelled a slot⟩
        (.ok (.counted a slot (taken d slot)))) :=
    congrArg (fun e => some (readTo _ e)) hcount
  have hbanded : next d ⟨.request u .book xid, .counted a slot (taken d slot)⟩ .band =
      some (readTo ⟨.request u .book xid, .counted a slot (taken d slot)⟩
        (.ok (.banded a slot (taken d slot) (d.around.bands a.userId)))) := rfl
  refine ⟨_, .next trivial (step_alone hentered) <| .next trivial (step_alone hfound) <|
    .next trivial (step_alone hagreed) <| .next trivial (step_alone hplaced) <|
    .next trivial (step_alone hlevelled) <| .next trivial (step_alone hcounted) <|
    .next trivial (step_alone hbanded) <| .next trivial rfl <| .next trivial rfl <| .refl _, ?_⟩
  rfl

def onePlace : Pools where
  users := ⟨[{ id := 1, xid := "u1", adultAt := 0 }], by decide⟩
  slots := ⟨[{ id := 1, xid := "s1", orgId := none, startsAt := 0, capacity := 1, status := .booking
               createdBy := 9 }], by decide⟩

theorem alone_books_place : ∃ d', (principal onePlace 1 0 >>= (bookSlot onePlace · "s1")) = .ok d' ∧
    ∃ s, Any (ReadCommitted.Step program) (alone onePlace (.request 1 .book "s1") .waiting)
      ((bookingActs 0).map (fun act => (0, act))) s ∧ s.store = d' := by
  have h : (principal onePlace 1 0 >>= (bookSlot onePlace · "s1")).toOption.isSome = true := by
    decide +kernel
  cases hd : principal onePlace 1 0 >>= (bookSlot onePlace · "s1") with
  | error e =>
    rw [hd] at h
    cases h
  | ok d' =>
    obtain ⟨a, ha, hbook⟩ := PyExc.bind_eq_ok.1 hd
    exact ⟨d', rfl, alone_books ha hbook⟩

end IeltsHub.SlotBookings
