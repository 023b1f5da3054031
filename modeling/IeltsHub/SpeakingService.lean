import IeltsHub.GuardedRuns
import IeltsHub.PyExc
import IeltsHub.SpeakingPools

set_option autoImplicit false

/-!
# Running the matcher against the database

`app/modules/speaking/service.py`: the candidates of a slot and of the live queue as they are
loaded, and the pairs that are written for them. With the requests of the pools this is all that
happens to the tables, one transaction after another.
-/
namespace IeltsHub.SpeakingService
open PyTime PlatformRefusals RowTable SpeakingMatching SpeakingPools

/-- What rolls a run of the matcher back. -/
inductive MatchError where
  | unsafePair (e : UnsafePair)
  | crossAgeBand
  | valueError (xid : String)
  deriving DecidableEq

def antiRepeatWindow : ℤ := seconds 604800

def queueTtl : ℤ := seconds 600

def userXid (userId : ℕ) : String := Nat.repr userId

def recentPartners (d : Pools) (userId : ℕ) (now : Time) : Finset String :=
  (((d.pairs.select (fun p => (p.userA = userId ∨ p.userB = userId) ∧
    now - antiRepeatWindow < p.matchedAt)).map
      (fun p => userXid (if p.userA = userId then p.userB else p.userA)))).toFinset

def blocked (d : Pools) (userId : ℕ) : Finset String :=
  ((d.blocks.filter (fun b => b.1 = userId)).map (fun b => userXid b.2) ++
    (d.blocks.filter (fun b => b.2 = userId)).map (fun b => userXid b.1)).toFinset

def midpoint (low high : Option ℚ) : Option ℚ :=
  match low, high with
  | none, none => none
  | none, some high => some high
  | some low, none => some low
  | some low, some high => some ((low + high) / 2)

def joined {ρ : Type} (d : Pools) (userId : ρ → ℕ) (rows : List ρ) : List (ρ × Account) :=
  rows.filterMap (fun r => (d.users.get? (userId r)).map (fun u => (r, u)))

/-! ## Candidates -/

def checkedIn (d : Pools) (slotId : ℕ) : List Booking :=
  d.bookings.select (fun b => b.slotId = slotId ∧ b.cancelledAt = none ∧ b.checkedInAt ≠ none ∧
    b.pairId = none)

def slotCandidate (d : Pools) (slot : Slot) (now : Time) (row : Booking × Account) : Candidate where
  userXid := userXid row.1.userId
  isMinor := row.2.isMinor now
  language := slot.language
  band := row.1.selfBand
  waitingSince := row.1.checkedInAt
  orgXid := slot.orgId.map userXid
  recentPartners := recentPartners d row.1.userId now
  blocked := blocked d row.1.userId

def expire (d : Pools) (now : Time) : Pools :=
  { d with
    queue := d.queue.mapRows
      (fun q =>
        if q.status = .waiting ∧ q.joinedAt < now - queueTtl then
          { q with status := .expired, leftAt := some now }
        else q)
      (fun q => by split <;> rfl) }

def waiting (d : Pools) : List QueueEntry :=
  (d.queue.select (fun q => q.status = .waiting)).insertionSort (fun q r => q.joinedAt ≤ r.joinedAt)

def queueCandidate (d : Pools) (now : Time) (row : QueueEntry × Account) : Candidate where
  userXid := userXid row.1.userId
  isMinor := row.2.isMinor now
  language := row.1.language
  band := ((midpoint row.1.bandMin row.1.bandMax).filter (fun m => m ≠ 0)) <|>
    d.around.bands row.1.userId
  waitingSince := row.1.joinedAt
  orgXid := row.1.orgId.map userXid
  orgOnly := row.1.orgOnly
  recentPartners := recentPartners d row.1.userId now
  blocked := blocked d row.1.userId

/-! ## Pairs -/

/-- `int(xid)`. -/
def idOf (xid : String) : Except MatchError ℕ :=
  if xid.toList ≠ [] ∧ xid.toList.all Char.isDigit then .ok (Nat.ofDigitChars 10 xid.toList 0)
  else .error (.valueError xid)

def pairBand (ageBand : String) : AgeBand := if ageBand = "minor" then .minor else .adult

/-- The INSERT of `_create_pair`, with the id that it returns. -/
def createPair (d : Pools) (pair : Pair) (origin : Origin) (slot : Option Slot) (now : Time) :
    Except MatchError (Pools × ℕ) := do
  if pair.a.isMinor ≠ pair.b.isMinor then throw .crossAgeBand
  let a ← idOf pair.a.userXid
  let b ← idOf pair.b.userXid
  let id := d.pairs.nextId
  return ({ d with
    pairs := d.pairs.put
      { id, slotId := slot.map Slot.id, origin, userA := a, userB := b
        ageBand := pairBand pair.ageBand, matchedAt := now } }, id)

def seatBookings (d : Pools) (slot : Slot) (pair : Pair) (pairId : ℕ) : Pools :=
  { d with
    bookings := d.bookings.mapRows
      (fun b =>
        if b.slotId = slot.id ∧ (userXid b.userId = pair.a.userXid ∨ userXid b.userId = pair.b.userXid)
        then { b with pairId := some pairId }
        else b)
      (fun b => by split <;> rfl) }

/-- `by_user[xid]["id"]`, the row that came last. -/
def byUser (rows : List QueueEntry) (xid : String) : Option ℕ :=
  (rows.reverse.find? (fun q => userXid q.userId = xid)).map QueueEntry.id

def seatEntries (d : Pools) (rows : List QueueEntry) (pair : Pair) (pairId : ℕ) (now : Time) : Pools :=
  { d with
    queue := d.queue.mapRows
      (fun q =>
        if some q.id = byUser rows pair.a.userXid ∨ some q.id = byUser rows pair.b.userXid then
          { q with status := .matched, matchedPairId := some pairId, leftAt := some now }
        else q)
      (fun q => by split <;> rfl) }

def matched (candidates : List Candidate) : Except MatchError Outcome :=
  match matchCandidates candidates true with
  | .error e => .error (.unsafePair e)
  | .ok outcome => .ok outcome

def goLive (d : Pools) (slot : Slot) : Pools :=
  { d with
    bookings := d.bookings.mapRows
      (fun b =>
        if b.slotId = slot.id ∧ b.cancelledAt = none ∧ b.checkedInAt = none then
          { b with noShow := true }
        else b)
      (fun b => by split <;> rfl)
    slots := d.slots.mapRows (fun s => if s.id = slot.id then { s with status := .live } else s)
      (fun s => by split <;> rfl) }

def matchSlot (d : Pools) (slotId : ℕ) (now : Time) : Except MatchError Pools :=
  match (d.slots.get? slotId).filter (fun s => s.status = .booking) with
  | none => .ok d
  | some slot => do
    let rows := joined d Booking.userId (checkedIn d slotId)
    let outcome ← matched (rows.map (slotCandidate d slot now))
    let d ← outcome.pairs.foldlM (fun d pair => do
      let (d, pairId) ← createPair d pair .slotBatch (some slot) now
      return seatBookings d slot pair pairId) d
    return goLive d slot

def matchQueue (d : Pools) (now : Time) : Except MatchError Pools := do
  let d := expire d now
  let rows := joined d QueueEntry.userId (waiting d)
  if rows.length < 2 then return d
  let outcome ← matched (rows.map (queueCandidate d now))
  outcome.pairs.foldlM (fun d pair => do
    let (d, pairId) ← createPair d pair .liveQueue none now
    return seatEntries d (rows.map Prod.fst) pair pairId now) d

/-! ## Histories -/

inductive Call where
  | createSlot (body : SlotCreate) (xid : String)
  | bookSlot (slotXid : String)
  | cancelBooking (slotXid : String)
  | checkIn (slotXid : String)
  | joinQueue (body : QueueJoin)
  | leaveQueue
  | recordConsent (body : ConsentCreate)
  | revokeConsent (kind : String)
  | createBlock (userXid : String)
  | removeBlock (userXid : String)
  | suspend (userXid : String)
  | closeAccount (userXid : String)

/-- A request of a user, a run of the matcher, somebody who registers, or what others change of the
surroundings; a birthday is a later `now`. -/
inductive Event where
  | request (userId : ℕ) (call : Call) (now : Time)
  | matchSlot (slotId : ℕ) (now : Time)
  | matchQueue (now : Time)
  | register (u : Account)
  | edit (around : Surroundings)

def perform (d : Pools) (a : Actor) (now : Time) : Call → Except Refusal Pools
  | .createSlot body xid => createSlot d a body xid
  | .bookSlot xid => bookSlot d a xid
  | .cancelBooking xid => cancelBooking d a xid now
  | .checkIn xid => checkIn d a xid now
  | .joinQueue body => joinQueue d a body now
  | .leaveQueue => .ok (leave d a.userId now)
  | .recordConsent body => recordConsent d a body now
  | .revokeConsent kind => revokeConsent d a kind now
  | .createBlock xid => createBlock d a xid
  | .removeBlock xid => removeBlock d a xid
  | .suspend xid => suspend d a xid
  | .closeAccount xid => closeAccount d a xid now

def answer (d : Pools) (userId : ℕ) (call : Call) (now : Time) : Except Refusal Pools := do
  let a ← principal d userId now
  perform d a now call

def execute (d : Pools) : Event → Pools
  | .request userId call now =>
    match answer d userId call now with
    | .ok d' => d'
    | .error _ => d
  | .matchSlot slotId now =>
    match matchSlot d slotId now with
    | .ok d' => d'
    | .error _ => d
  | .matchQueue now =>
    match matchQueue d now with
    | .ok d' => d'
    | .error _ => d
  | .register u =>
    { d with users := d.users.put { u with id := d.users.nextId, status := .active, deletedAt := none } }
  | .edit around => { d with around }

def Step (d : Pools) (e : Event) (d' : Pools) : Prop := execute d e = d'

/-! ## What a request changes -/

open PyExc

variable {d d' : Pools} {a : Actor} {now : Time}

theorem ite_throw_eq_ok {ε α β : Type} {c : Prop} [Decidable c] {e : ε} {f : β → Except ε α}
    {x : Except ε α} {y : α} :
    (if c then (throw e : Except ε β) >>= f else x) = .ok y ↔ ¬ c ∧ x = .ok y := by
  by_cases h : c
  · rw [if_pos h]
    constructor
    · intro hthrow
      cases hthrow
    · intro hc
      exact absurd h hc.1
  · rw [if_neg h]
    simp [h]

def Elders (old new : Table Account ℕ Account.id) : Prop :=
  ∀ id u, old.get? id = some u → ∃ u', new.get? id = some u' ∧ u'.adultAt = u.adultAt

theorem elders_mapRows {users : Table Account ℕ Account.id} {f : Account → Account}
    {hf : ∀ u, (f u).id = u.id} (hage : ∀ u, (f u).adultAt = u.adultAt) :
    Elders users (users.mapRows f hf) := by
  intro id u hu
  rw [Table.get?_mapRows, hu]
  exact ⟨f u, rfl, hage u⟩

/-- The one kind of table that an accepted request writes. -/
inductive Touched (d : Pools) : Call → Pools → Prop where
  | slots {call : Call} (slots : Table Slot ℕ Slot.id) : Touched d call { d with slots }
  | bookings {call : Call} (bookings : Table Booking (ℕ × ℕ) Booking.key) :
      Touched d call { d with bookings }
  | queue {call : Call} (queue : Table QueueEntry ℕ QueueEntry.id) : Touched d call { d with queue }
  | blocks {call : Call} (blocks : List (ℕ × ℕ)) : Touched d call { d with blocks }
  | accounts {call : Call} (users : Table Account ℕ Account.id) (around : Surroundings)
      (h : Elders d.users users) : Touched d call { d with users, around }
  | granted {body : ConsentCreate} (consents : Table Consent ℕ Consent.id) :
      Touched d (.recordConsent body) { d with consents }
  | withdrawn {kind : String} (consents : Table Consent ℕ Consent.id) :
      Touched d (.revokeConsent kind) { d with consents }

theorem touched_createSlot {body : SlotCreate} {xid : String} {call : Call}
    (h : createSlot d a body xid = .ok d') : Touched d call d' := by
  unfold createSlot at h
  simp only [ite_throw_eq_ok] at h
  obtain ⟨_, _, h⟩ := h
  split at h
  · rw [ite_throw_eq_ok] at h
    obtain ⟨_, _, h⟩ := bind_eq_ok.1 h.2
    cases h
    exact .slots _
  · obtain ⟨_, _, h⟩ := bind_eq_ok.1 h
    cases h
    exact .slots _

/-- What `book_slot` asks of somebody for a slot. -/
structure Bookable (d : Pools) (a : Actor) (slot : Slot) : Prop where
  band : slot.ageBand ∈ permittedBands a
  consent : a.isMinor → slot.audience = .public_ → 0 < (liveConsents d a.userId).length
  supervised : slot.ageBand = .mixedSupervised → inClass d slot a.userId ∨ slot.createdBy = a.userId
  level : bandFits slot (d.around.bands a.userId)
  opened : slot.status = .scheduled ∨ slot.status = .booking
  room : taken d slot < slot.capacity

theorem bookSlot_eq_ok {xid : String} : bookSlot d a xid = .ok d' ↔
    ∃ slot, slotByXid d xid = .ok slot ∧ Bookable d a slot ∧
      d' = { d with bookings := d.bookings.put (booked d slot a.userId) } := by
  unfold bookSlot
  simp only [bind_eq_ok, ite_throw_eq_ok, not_not, not_le]
  apply exists_congr
  intro slot
  apply and_congr_right
  intro _
  constructor
  · rintro ⟨hband, hconsent, hsupervised, hlevel, hopen, hroom, h⟩
    refine ⟨⟨hband, ?_, ?_, hlevel, ?_, hroom⟩, (Except.ok.inj h).symm⟩
    · intro hminor haudience
      apply Nat.pos_of_ne_zero
      exact fun hnone => hconsent ⟨hminor, haudience, hnone⟩
    · intro hmixed
      by_contra hneither
      exact hsupervised ⟨hmixed, not_or.1 hneither⟩
    · by_contra hneither
      exact hopen (not_or.1 hneither)
  · rintro ⟨hslot, rfl⟩
    refine ⟨hslot.band, ?_, ?_, hslot.level, ?_, hslot.room, rfl⟩
    · rintro ⟨hminor, haudience, hnone⟩
      exact (hslot.consent hminor haudience).ne' hnone
    · rintro ⟨hmixed, hneither⟩
      exact (not_or.2 hneither) (hslot.supervised hmixed)
    · intro hneither
      exact (not_or.2 hneither) hslot.opened

theorem touched_checkIn {xid : String} {call : Call} (h : checkIn d a xid now = .ok d') :
    Touched d call d' := by
  unfold checkIn at h
  obtain ⟨_, _, h⟩ := bind_eq_ok.1 h
  dsimp only at h
  rw [ite_throw_eq_ok] at h
  obtain ⟨_, h⟩ := h
  split at h
  · cases h
  · cases h
    exact .bookings _

theorem joinQueue_eq_ok {body : QueueJoin} : joinQueue d a body now = .ok d' ↔
    ¬ (body.orgOnly ∧ a.orgIds = []) ∧ d' = { d with
      queue := (leave d a.userId now).queue.put
        { id := (leave d a.userId now).queue.nextId, userId := a.userId, joinedAt := now
          bandMin := body.bandMin, bandMax := body.bandMax, language := body.language
          ageBand := ageBand a, orgOnly := body.orgOnly, orgId := a.orgIds.head? } } := by
  unfold joinQueue
  dsimp only
  rw [ite_throw_eq_ok]
  apply and_congr_right
  intro _
  constructor
  · intro h
    exact (Except.ok.inj h).symm
  · intro h
    rw [h]
    rfl

theorem recordConsent_eq_ok {body : ConsentCreate} : recordConsent d a body now = .ok d' ↔
    (body.kind = .strangerMatching → a.isMinor →
      body.grantedByKind = .parent ∧ body.parentPhone.getD "" ≠ "") ∧
    d' = { d with
      consents := d.consents.put
        { id := d.consents.nextId, userId := a.userId, kind := body.kind
          docVersion := body.docVersion, docHash := Sha256.ofText body.docVersion
          grantedByKind := body.grantedByKind, parentName := body.parentName
          parentPhone := body.parentPhone, channel := body.channel, grantedAt := now } } := by
  unfold recordConsent
  split
  · next hminor =>
    rw [ite_throw_eq_ok]
    constructor
    · rintro ⟨hparent, h⟩
      exact ⟨fun _ _ => by simpa using hparent, (Except.ok.inj h).symm⟩
    · rintro ⟨hparent, rfl⟩
      exact ⟨by simpa using hparent hminor.1 hminor.2, rfl⟩
  · next hminor =>
    constructor
    · intro h
      exact ⟨fun hkind hyoung => absurd ⟨hkind, hyoung⟩ hminor, (Except.ok.inj h).symm⟩
    · rintro ⟨_, rfl⟩
      rfl

theorem touched_perform {call : Call} (h : perform d a now call = .ok d') : Touched d call d' := by
  cases call with
  | createSlot body xid => exact touched_createSlot h
  | bookSlot xid =>
    obtain ⟨_, _, _, rfl⟩ := bookSlot_eq_ok.1 h
    exact .bookings _
  | cancelBooking xid =>
    obtain ⟨_, _, h⟩ := bind_eq_ok.1 h
    cases h
    exact .bookings _
  | checkIn xid => exact touched_checkIn h
  | joinQueue body =>
    obtain ⟨_, rfl⟩ := joinQueue_eq_ok.1 h
    exact .queue _
  | leaveQueue =>
    cases h
    exact .queue _
  | recordConsent body =>
    obtain ⟨_, rfl⟩ := recordConsent_eq_ok.1 h
    exact .granted _
  | revokeConsent kind =>
    change revokeConsent d a kind now = .ok d' at h
    unfold revokeConsent at h
    split at h
    · cases h
    · cases h
      exact .withdrawn _
  | createBlock xid =>
    change createBlock d a xid = .ok d' at h
    unfold createBlock at h
    split at h
    · cases h
    · split at h
      · cases h
      · split at h
        · cases h
          exact .blocks _
        · cases h
          exact .blocks _
  | removeBlock xid =>
    cases h
    exact .blocks _
  | suspend xid =>
    change suspend d a xid = .ok d' at h
    unfold suspend at h
    split at h
    · cases h
    · split at h
      · cases h
      · cases h
        exact .accounts _ _ (elders_mapRows (fun u => by split <;> rfl))
  | closeAccount xid =>
    change closeAccount d a xid now = .ok d' at h
    unfold closeAccount at h
    split at h
    · cases h
    · split at h
      · cases h
      · cases h
        exact .accounts _ _ (elders_mapRows (fun u => by split <;> rfl))

theorem execute_of_ok {userId : ℕ} {call : Call} (h : answer d userId call now = .ok d') :
    execute d (.request userId call now) = d' := by
  change (match answer d userId call now with
    | .ok d' => d'
    | .error _ => d) = d'
  rw [h]

theorem execute_of_error {userId : ℕ} {call : Call} {refusal : Refusal}
    (h : answer d userId call now = .error refusal) : execute d (.request userId call now) = d := by
  change (match answer d userId call now with
    | .ok d' => d'
    | .error _ => d) = d
  rw [h]

/-! ## What a run of the matcher leaves -/

/-- The matcher only writes pairs, bookings, entries and the slot. -/
structure Beside (d d' : Pools) : Prop where
  users : d'.users = d.users
  around : d'.around = d.around
  blocks : d'.blocks = d.blocks
  consents : d'.consents = d.consents

theorem Beside.trans {d₁ d₂ d₃ : Pools} (h : Beside d₁ d₂) (h' : Beside d₂ d₃) : Beside d₁ d₃ :=
  ⟨h'.users.trans h.users, h'.around.trans h.around, h'.blocks.trans h.blocks,
    h'.consents.trans h.consents⟩

theorem beside_createPair {pair : Pair} {origin : Origin} {slot : Option Slot} {id : ℕ}
    (h : createPair d pair origin slot now = .ok (d', id)) : Beside d d' := by
  unfold createPair at h
  rw [ite_throw_eq_ok] at h
  obtain ⟨_, _, h⟩ := bind_eq_ok.1 h.2
  obtain ⟨_, _, h⟩ := bind_eq_ok.1 h
  cases h
  exact ⟨rfl, rfl, rfl, rfl⟩

theorem beside_foldlM {origin : Origin} {slot : Option Slot} {seat : Pools → Pair → ℕ → Pools}
    (hseat : ∀ d pair id, Beside d (seat d pair id)) {pairs : List Pair}
    (h : pairs.foldlM (fun d pair => do
      let (d, pairId) ← createPair d pair origin slot now
      return seat d pair pairId) d = .ok d') : Beside d d' := by
  apply foldlM_invariant (Beside d) h ⟨rfl, rfl, rfl, rfl⟩
  intro d₁ hd₁ pair _ d₂ hstep
  obtain ⟨⟨d₃, id⟩, hcreate, hseated⟩ := bind_eq_ok.1 hstep
  cases hseated
  exact hd₁.trans ((beside_createPair hcreate).trans (hseat d₃ pair id))

theorem beside_matchSlot {slotId : ℕ} (h : matchSlot d slotId now = .ok d') : Beside d d' := by
  unfold matchSlot at h
  split at h
  · cases h
    exact ⟨rfl, rfl, rfl, rfl⟩
  · next slot _ =>
    obtain ⟨_, _, h⟩ := bind_eq_ok.1 h
    obtain ⟨d₁, hloop, h⟩ := bind_eq_ok.1 h
    cases h
    have hseat : ∀ d pair id, Beside d (seatBookings d slot pair id) :=
      fun _ _ _ => ⟨rfl, rfl, rfl, rfl⟩
    exact (beside_foldlM hseat hloop).trans ⟨rfl, rfl, rfl, rfl⟩

theorem beside_matchQueue (h : matchQueue d now = .ok d') : Beside d d' := by
  unfold matchQueue at h
  dsimp only at h
  have hexpire : Beside d (expire d now) := ⟨rfl, rfl, rfl, rfl⟩
  split at h
  · cases h
    exact hexpire
  · obtain ⟨_, _, h⟩ := bind_eq_ok.1 h
    have hseat : ∀ rows d pair id, Beside d (seatEntries d rows pair id now) :=
      fun _ _ _ _ => ⟨rfl, rfl, rfl, rfl⟩
    exact hexpire.trans (beside_foldlM (hseat _) h)

end IeltsHub.SpeakingService
