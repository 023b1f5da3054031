import IeltsHub.BillingModels
import IeltsHub.RosterRequests

set_option autoImplicit false

/-!
# Seats of a licence, one statement after another

`assign_seats` and `release_seat`, each a transaction beside the others. The seats taken are counted
in one statement; the rows are written later, a user at a time, each before the SELECT of the next.
Whatever else writes licences keeps the quantity of those that are there.
-/
namespace IeltsHub.SeatRequests
open PyTime PlatformRefusals RowTable ReadCommitted OrgRoster AuthzPolicy BillingModels
open PlatformErrors (Raised)
open RosterRequests (resolvePrincipal requireManageOrg)

structure Organization where
  id : ℕ
  xid : String
  deriving DecidableEq

structure SeatAssignment where
  entitlementId : ℕ
  userId : ℕ
  assignedBy : Option ℤ
  assignedAt : Time
  releasedAt : Option Time := none
  deriving DecidableEq

def SeatAssignment.key (row : SeatAssignment) : ℕ × ℕ := (row.entitlementId, row.userId)

structure Office where
  people : RosterRequests.Store
  organizations : List Organization := []
  licences : Table Entitlement ℕ Entitlement.id := .empty
  seats : Table SeatAssignment (ℕ × ℕ) SeatAssignment.key := .empty

inductive Action where
  | assign (userXids : List String)
  | release (userXid : String)

/-- What happens beside the seats, a transaction at a time. -/
inductive Event where
  | edit (people : RosterRequests.Store) (organizations : List Organization)
  | licence (row : Entitlement)

inductive Call where
  | request (userId : ℕ) (orgXid : String) (action : Action)
  | other (e : Event)

structure Member where
  xid : String
  givenName : String
  phone : String
  locale : String

structure Summary where
  entitlementId : Option ℕ := none
  total : ℤ := 0
  assigned : ℕ := 0
  remaining : ℤ := 0
  expiresAt : Option Time := none
  members : List Member := []

inductive Answer where
  | seats (summary : Summary)
  | refused (e : Refusal)
  | crashed (e : Raised)
  | noContent

/-- A request to assign, once its check is passed. -/
structure Intake where
  actor : Principal
  orgId : ℕ
  licence : Entitlement
  users : List ℕ

/-- How far a request has come. `todo` are the users still to be looked at, `writes` the rows that
are flushed; `fresh` marks a row that is inserted. -/
inductive Phase where
  | waiting
  | entered (a : Principal)
  | authorised (a : Principal) (orgId : ℕ)
  | licensed (a : Principal) (orgId : ℕ) (licence : Entitlement)
  | counted (a : Principal) (orgId : ℕ) (licence : Entitlement) (assigned : ℕ)
  | seating (k : Intake) (todo : List ℕ) (writes : List SeatAssignment)
  | writing (k : Intake) (todo : List ℕ) (writes : List SeatAssignment) (row : SeatAssignment)
      (fresh : Bool)
  | seated (k : Intake) (writes : List SeatAssignment) (summary : Summary)
  | releasing (orgId : ℕ) (row : SeatAssignment)
  | released (orgId : ℕ) (row : SeatAssignment) (now : Time)
  | freed (row : SeatAssignment) (now : Time) (summary : Summary)
  | done (a : Answer)

structure Request where
  call : Call
  phase : Phase := .waiting

inductive Act where
  | enter
  | authorise
  | licence (now : Time)
  | count
  | members
  | look (now : Time)
  | find
  | flush (now : Time)
  | summary (now : Time)
  | commit
  | fail (e : Raised)

/-! ## The statements -/

def organizationNotFound : Refusal := notFound "Organization not found."

/-- `_org_id`. -/
def orgId (d : Office) (a : Principal) (xid : String) : Except Refusal ℕ :=
  match d.organizations.find? (fun o => o.xid = xid) with
  | none => .error organizationNotFound
  | some org =>
    if (org.id : ℤ) ∉ a.orgIds ∧ ¬ a.isPlatformAdmin then .error organizationNotFound
    else (requireManageOrg a org.id).map (fun _ => org.id)

def seatBundle : List String := ["mock.unlimited"]

def isLicence (orgId : ℕ) (e : Entitlement) : Bool :=
  e.subjectKind = .org ∧ e.subjectId = some orgId ∧ e.sourceKind = .seat ∧
    e.feature ∈ seatBundle ∧ e.revokedAt = none

def latest : List Entitlement → Option Entitlement
  | [] => none
  | e :: es =>
    match latest es with
    | some later => if e.id < later.id then some later else some e
    | none => some e

/-- `_seat_licence`: a live one first, then the later one. -/
def seatLicence (d : Office) (orgId : ℕ) (now : Time) : Option Entitlement :=
  let rows := d.licences.select (isLicence orgId)
  (latest (rows.filter (fun e => e.expiresAt.all (now < ·)))).or (latest rows)

def held (d : Office) (licence : ℕ) : List SeatAssignment :=
  d.seats.select (fun row => row.entitlementId = licence ∧ row.releasedAt = none)

def holders (d : Office) (licence : ℕ) : List ℕ := (held d licence).map SeatAssignment.userId

/-- The users of these names who are active members. A membership is unique to its user and its
organization. -/
def members (d : Office) (orgId : ℕ) (userXids : List String) : List ℕ :=
  (d.people.roster.users.select (fun u => u.xid ∈ userXids ∧
    d.people.roster.memberships.rows.any
      (fun m => m.userId = u.id ∧ m.orgId = orgId ∧ m.status = .active))).map User.id

def noSeatLicence : Refusal := notFound "This organization has no seat licence for mock exams."

def notAnOrgMember : Refusal :=
  conflict ("Every student must be an active member of this organization before they can hold " ++
    "one of its seats.") "not_an_org_member"

def notEnoughSeats (remain : ℤ) : Refusal :=
  conflict s!"Only {remain} seat(s) remain." "not_enough_seats"

def noSeat : Refusal := notFound "This student does not hold a seat."

def bounded (licence : Entitlement) (n : ℕ) : Bool := licence.quantity.all (fun q => (n : ℤ) ≤ q)

def check (d : Office) (a : Principal) (orgId : ℕ) (licence : Entitlement) (assigned : ℕ)
    (userXids : List String) : Except Refusal Phase :=
  let users := members d orgId userXids
  if users.length ≠ userXids.dedup.length then .error notAnOrgMember
  else if ¬ bounded licence (assigned + users.length) then
    .error (notEnoughSeats (licence.quantity.getD 0 - assigned))
  else .ok (.seating ⟨a, orgId, licence, users⟩ users [])

def look (d : Office) (k : Intake) (todo : List ℕ) (writes : List SeatAssignment) (now : Time)
    (user : ℕ) : Phase :=
  match d.seats.get? (k.licence.id, user) with
  | none => .writing k todo writes
      { entitlementId := k.licence.id, userId := user, assignedBy := some k.actor.userId
        assignedAt := now } true
  | some row =>
    if row.releasedAt = none then .seating k todo writes
    else .writing k todo writes
      { row with releasedAt := none, assignedAt := now, assignedBy := some k.actor.userId } false

def landSeats (d : Office) (writes : List SeatAssignment) : Office :=
  { d with seats := writes.foldl Table.put d.seats }

def landReleased (d : Office) (key : ℕ × ℕ) (now : Time) : Office :=
  { d with
    seats := d.seats.mapRows
      (fun row => if row.key = key then { row with releasedAt := some now } else row)
      (fun row => by split <;> rfl) }

/-- `_seat_summary`, over what the request has written as well. -/
def summary (d : Office) (orgId : ℕ) (now : Time) : Summary :=
  match seatLicence d orgId now with
  | none => {}
  | some licence =>
    let users := d.people.roster.users.select (fun u => u.id ∈ holders d licence.id)
    let total := licence.quantity.getD 0
    { entitlementId := some licence.id, total, assigned := users.length
      remaining := max 0 (total - users.length), expiresAt := licence.expiresAt
      members := users.map (fun u => ⟨u.xid, u.givenName, u.phone, u.locale⟩) }

def seatOf (d : Office) (licence : ℕ) (userXid : String) : Option SeatAssignment :=
  (held d licence).find? (fun row =>
    d.people.roster.users.rows.any (fun u => u.id = row.userId ∧ u.xid = userXid))

def allowed (d : Office) : Event → Bool
  | .edit .. => true
  | .licence row => (d.licences.get? row.id).all (fun old => old.quantity = row.quantity)

def execute (d : Office) : Event → Office
  | .edit people organizations => { d with people, organizations }
  | .licence row => { d with licences := d.licences.put row }

abbrev Moved := Move Office (ℕ × ℕ) Request

def readTo (q : Request) : Except Refusal Phase → Moved
  | .ok p => .goes { q with phase := p } []
  | .error e => .rollsBack { q with phase := .done (.refused e) }

def flushRow (d : Office) (q : Request) (k : Intake) (todo : List ℕ)
    (writes : List SeatAssignment) (row : SeatAssignment) (fresh : Bool) : Moved :=
  if fresh ∧ (d.seats.get? row.key).isSome then
    .rollsBack { q with
      phase := .done (.refused (integrity "seat_assignments_entitlement_id_user_id_key")) }
  else .goes { q with phase := .seating k todo (writes ++ [row]) } [row.key]

def next (d : Office) (q : Request) (act : Act) : Option Moved :=
  match q.phase, q.call, act with
  | .waiting, .request u _ _, .enter => some (readTo q ((resolvePrincipal d.people u).map .entered))
  | .entered a, .request _ xid _, .authorise =>
    some (readTo q ((orgId d a xid).map (.authorised a)))
  | .authorised a org, _, .licence now =>
    some (readTo q (match seatLicence d org now with
      | none => .error noSeatLicence
      | some licence => .ok (.licensed a org licence)))
  | .licensed a org licence, .request _ _ (.assign _), .count =>
    some (readTo q (.ok (.counted a org licence (held d licence.id).length)))
  | .counted a org licence assigned, .request _ _ (.assign xids), .members =>
    some (readTo q (check d a org licence assigned xids))
  | .seating k (user :: todo) writes, _, .look now =>
    some (readTo q (.ok (look d k todo writes now user)))
  | .writing k todo writes row fresh, _, .flush _ =>
    some (flushRow d q k todo writes row fresh)
  | .seating k [] writes, _, .summary now =>
    some (readTo q (.ok (.seated k writes (summary (landSeats d writes) k.orgId now))))
  | .seated _ writes m, _, .commit =>
    some (.commits (landSeats d writes) { q with phase := .done (.seats m) })
  | .licensed _ org licence, .request _ _ (.release xid), .find =>
    some (readTo q (match seatOf d licence.id xid with
      | none => .error noSeat
      | some row => .ok (.releasing org row)))
  | .releasing org row, _, .flush now =>
    some (.goes { q with phase := .released org row now } [row.key])
  | .released org row now, _, .summary later =>
    some (readTo q (.ok (.freed row now (summary (landReleased d row.key now) org later))))
  | .freed row now m, _, .commit =>
    some (.commits (landReleased d row.key now) { q with phase := .done (.seats m) })
  | .waiting, .other e, .commit =>
    if allowed d e then some (.commits (execute d e) { q with phase := .done .noContent }) else none
  | .done _, _, _ => none
  | _, _, .fail e => some (.rollsBack { q with phase := .done (.crashed e) })
  | _, _, _ => none

def owned : Phase → List (ℕ × ℕ)
  | .seating _ _ writes | .writing _ _ writes _ _ | .seated _ writes _ =>
    writes.map SeatAssignment.key
  | .released _ row _ | .freed row _ _ => [row.key]
  | _ => []

/-! ## What a statement can do -/

/-- The statements that take no lock. -/
inductive Reads (d : Office) : Phase → Phase → Prop where
  | entered (a : Principal) : Reads d .waiting (.entered a)
  | authorised (a : Principal) (org : ℕ) : Reads d (.entered a) (.authorised a org)
  | licensed (a : Principal) (org : ℕ) (licence : Entitlement) (row : licence ∈ d.licences.rows) :
      Reads d (.authorised a org) (.licensed a org licence)
  | counted (a : Principal) (org : ℕ) (licence : Entitlement) (n : ℕ) :
      Reads d (.licensed a org licence) (.counted a org licence n)
  | accepted (a : Principal) (org : ℕ) (licence : Entitlement) (n : ℕ) (users : List ℕ)
      (nodup : users.Nodup) :
      Reads d (.counted a org licence n) (.seating ⟨a, org, licence, users⟩ users [])
  | takes (k : Intake) (user : ℕ) (todo : List ℕ) (writes : List SeatAssignment)
      (row : SeatAssignment) (fresh : Bool) (key : row.key = (k.licence.id, user))
      (live : row.releasedAt = none) :
      Reads d (.seating k (user :: todo) writes) (.writing k todo writes row fresh)
  | leaves (k : Intake) (user : ℕ) (todo : List ℕ) (writes : List SeatAssignment) :
      Reads d (.seating k (user :: todo) writes) (.seating k todo writes)
  | seated (k : Intake) (writes : List SeatAssignment) (m : Summary) :
      Reads d (.seating k [] writes) (.seated k writes m)
  | releasing (a : Principal) (org : ℕ) (licence : Entitlement) (row : SeatAssignment) :
      Reads d (.licensed a org licence) (.releasing org row)
  | freed (org : ℕ) (row : SeatAssignment) (now : Time) (m : Summary) :
      Reads d (.released org row now) (.freed row now m)

/-- The statements that take a lock. -/
inductive Locks : Phase → Phase → List (ℕ × ℕ) → Prop where
  | flushed (k : Intake) (todo : List ℕ) (writes : List SeatAssignment) (row : SeatAssignment)
      (fresh : Bool) :
      Locks (.writing k todo writes row fresh) (.seating k todo (writes ++ [row])) [row.key]
  | released (org : ℕ) (row : SeatAssignment) (now : Time) :
      Locks (.releasing org row) (.released org row now) [row.key]

/-- What a request writes. -/
inductive Writes (d : Office) : Phase → Office → Answer → Prop where
  | seated (k : Intake) (writes : List SeatAssignment) (m : Summary) :
      Writes d (.seated k writes m) (landSeats d writes) (.seats m)
  | freed (row : SeatAssignment) (now : Time) (m : Summary) :
      Writes d (.freed row now m) (landReleased d row.key now) (.seats m)
  | other (e : Event) (allowed : allowed d e = true) : Writes d .waiting (execute d e) .noContent

inductive Next (d : Office) (q : Request) : Moved → Prop where
  | refused (a : Answer) : Next d q (.rollsBack { q with phase := .done a })
  | reads (p : Phase) (h : Reads d q.phase p) : Next d q (.goes { q with phase := p } [])
  | locks (p : Phase) (keys : List (ℕ × ℕ)) (h : Locks q.phase p keys) :
      Next d q (.goes { q with phase := p } keys)
  | commits (d' : Office) (a : Answer) (h : Writes d q.phase d' a) :
      Next d q (.commits d' { q with phase := .done a })

variable {d d' : Office} {q p : Request} {act : Act} {m : Moved} {a : Principal}
  {licence : Entitlement} {k : Intake} {org : ℕ}

theorem next_readTo {e : Except Refusal Phase} (h : ∀ p, e = .ok p → Reads d q.phase p) :
    Next d q (readTo q e) := by
  cases e with
  | error e => exact .refused _
  | ok p => exact .reads p (h p rfl)

theorem mem_latest {es : List Entitlement} {e : Entitlement} (h : latest es = some e) :
    e ∈ es := by
  induction es with
  | nil => cases h
  | cons x es ih =>
    unfold latest at h
    split at h
    · next later hlater =>
      split at h
      · cases h
        exact List.mem_cons_of_mem _ (ih hlater)
      · cases h
        exact List.mem_cons_self
    · cases h
      exact List.mem_cons_self

theorem mem_seatLicence {now : Time} (h : seatLicence d org now = some licence) :
    licence ∈ d.licences.rows := by
  unfold seatLicence at h
  rcases Option.or_eq_some_iff.1 h with hlive | ⟨_, hlast⟩
  · have hmem := mem_latest hlive
    exact (List.mem_filter.1 (List.mem_filter.1 hmem).1).1
  · exact (List.mem_filter.1 (mem_latest hlast)).1

theorem nodup_members (d : Office) (org : ℕ) (xids : List String) : (members d org xids).Nodup :=
  d.people.roster.users.nodup.sublist (List.filter_sublist.map User.id)

theorem reads_check {n : ℕ} {xids : List String} {p : Phase}
    (h : check d a org licence n xids = .ok p) : Reads d (.counted a org licence n) p := by
  unfold check at h
  dsimp only at h
  split at h
  · cases h
  · split at h
    · cases h
    · cases h
      exact .accepted a org licence n _ (nodup_members d org xids)

theorem reads_look (k : Intake) (user : ℕ) (todo : List ℕ) (writes : List SeatAssignment)
    (now : Time) : Reads d (.seating k (user :: todo) writes) (look d k todo writes now user) := by
  unfold look
  split
  · exact .takes k user todo writes _ _ rfl rfl
  · next row hrow =>
    split
    · exact .leaves k user todo writes
    · have hkey : row.key = (k.licence.id, user) := Table.get?_key hrow
      exact .takes k user todo writes _ _ hkey rfl

theorem next_flushRow {todo : List ℕ} {writes : List SeatAssignment} {row : SeatAssignment}
    {fresh : Bool} (hphase : q.phase = .writing k todo writes row fresh) :
    Next d q (flushRow d q k todo writes row fresh) := by
  unfold flushRow
  split
  · exact .refused _
  · exact .locks _ _ (hphase ▸ .flushed k todo writes row fresh)

theorem next_cases (h : next d q act = some m) : Next d q m := by
  unfold next at h
  split at h
  · next hphase _ =>
    cases h
    refine next_readTo (fun p hp => ?_)
    obtain ⟨a, _, rfl⟩ := PyExc.map_eq_ok.1 hp
    exact hphase ▸ .entered a
  · next hphase _ =>
    cases h
    refine next_readTo (fun p hp => ?_)
    obtain ⟨org, _, rfl⟩ := PyExc.map_eq_ok.1 hp
    exact hphase ▸ .authorised _ org
  · next hphase =>
    cases h
    refine next_readTo (fun p hp => ?_)
    split at hp
    · cases hp
    · next licence hlicence =>
      cases hp
      exact hphase ▸ .licensed _ _ licence (mem_seatLicence hlicence)
  · next hphase _ =>
    cases h
    exact .reads _ (hphase ▸ .counted _ _ _ _)
  · next hphase _ =>
    cases h
    exact next_readTo (fun p hp => hphase ▸ reads_check hp)
  · next hphase =>
    cases h
    exact .reads _ (hphase ▸ reads_look _ _ _ _ _)
  · next hphase =>
    cases h
    exact next_flushRow hphase
  · next hphase =>
    cases h
    exact .reads _ (hphase ▸ .seated _ _ _)
  · next hphase =>
    cases h
    exact .commits _ _ (hphase ▸ .seated _ _ _)
  · next hphase _ =>
    cases h
    refine next_readTo (fun p hp => ?_)
    split at hp
    · cases hp
    · next row _ =>
      cases hp
      exact hphase ▸ .releasing _ _ _ row
  · next hphase =>
    cases h
    exact .locks _ _ (hphase ▸ .released _ _ _)
  · next hphase =>
    cases h
    exact .reads _ (hphase ▸ .freed _ _ _ _)
  · next hphase =>
    cases h
    exact .commits _ _ (hphase ▸ .freed _ _ _)
  · next hphase _ =>
    split at h
    · next hallowed =>
      cases h
      exact .commits _ _ (hphase ▸ .other _ hallowed)
    · cases h
  · cases h
  · cases h
    exact .refused _
  · cases h

theorem owned_goes {keys : List (ℕ × ℕ)} (h : Next d q (.goes p keys)) :
    ∀ key ∈ owned p.phase, key ∈ owned q.phase ∨ key ∈ keys := by
  intro key hkey
  cases h with
  | reads p h =>
    left
    revert hkey
    generalize q.phase = old at h
    cases h <;> exact id
  | locks p keys h =>
    revert hkey
    generalize q.phase = old at h
    cases h with
    | flushed k todo writes row fresh =>
      intro hkey
      simpa [owned, or_comm] using hkey
    | released => exact .inr

def program : Program Office (ℕ × ℕ) Request Act where
  next := next
  owned q := owned q.phase
  owned_goes h := owned_goes (next_cases h)
  owned_commits := by
    intro d p i d' p' h
    cases next_cases h
    rfl
  owned_rollsBack := by
    intro d p i p' h
    cases next_cases h
    rfl

abbrev Sys := ReadCommitted.Sys Office (ℕ × ℕ) Request

def start (d : Office) (calls : ℕ → Call) : Sys where
  store := { d with seats := .empty }
  requests r := ⟨calls r, .waiting⟩

end IeltsHub.SeatRequests
