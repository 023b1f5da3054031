import IeltsHub.PlatformRefusals
import IeltsHub.PyTime
import IeltsHub.RowTable
import IeltsHub.Sha256

set_option autoImplicit false

/-!
# Rosters

Accounts, the members of an organization, the members of its classes and the invitations to both.
A membership says twice whether it has ended: in its status and in `left_at`. A transaction's
writes are a list of changes, each of a row it loaded, of the rows an UPDATE matched, or of a new
row; they land at its commit.
-/
namespace IeltsHub.OrgRoster
open PyTime PlatformRefusals RowTable

inductive OrgRole where
  | student | teacher | centreAdmin
  deriving DecidableEq

/-- `_RANK`. -/
def OrgRole.rank : OrgRole → ℕ
  | .student => 1
  | .teacher => 2
  | .centreAdmin => 3

inductive MembershipStatus where
  | invited | active | suspended | left
  deriving DecidableEq

structure OrgMembership where
  id : ℕ
  orgId : ℕ
  userId : ℕ
  role : OrgRole
  status : MembershipStatus := .active
  joinedAt : Option Time
  leftAt : Option Time := none
  deriving DecidableEq

structure Cohort where
  id : ℕ
  xid : String
  orgId : ℕ
  deriving DecidableEq

inductive MemberStatus where
  | active | left
  deriving DecidableEq

structure CohortMember where
  id : ℕ
  cohortId : ℕ
  userId : ℕ
  status : MemberStatus := .active
  joinedAt : Time
  leftAt : Option Time := none
  deriving DecidableEq

structure OrgInvite where
  id : ℕ
  xid : ℕ
  tokenHash : String
  orgId : ℕ
  cohortId : Option ℕ := none
  role : OrgRole
  phone : String
  expiresAt : Time
  acceptedAt : Option Time := none
  acceptedBy : Option ℕ := none
  revokedAt : Option Time := none
  deriving DecidableEq

inductive UserStatus where
  | active | suspended | deleted
  deriving DecidableEq

structure User where
  id : ℕ
  xid : String
  phone : String
  phoneVerifiedAt : Option Time := none
  givenName : String := ""
  /-- The days since the epoch. -/
  dateOfBirth : ℤ
  locale : String := "uz-Latn"
  status : UserStatus := .active
  deletedAt : Option Time := none
  deriving DecidableEq

structure Roster where
  users : Table User ℕ User.id := .empty
  cohorts : Table Cohort ℕ Cohort.id := .empty
  memberships : Table OrgMembership ℕ OrgMembership.id := .empty
  members : Table CohortMember ℕ CohortMember.id := .empty
  invites : Table OrgInvite ℕ OrgInvite.id := .empty

def accountOf (d : Roster) (phone : String) : Option User :=
  d.users.rows.find? (fun u => u.phone = phone ∧ u.deletedAt = none)

def membershipOf (d : Roster) (orgId userId : ℕ) : Option OrgMembership :=
  d.memberships.rows.find? (fun m => m.orgId = orgId ∧ m.userId = userId)

def memberOf (d : Roster) (cohortId userId : ℕ) : Option CohortMember :=
  d.members.rows.find? (fun m => m.cohortId = cohortId ∧ m.userId = userId)

/-! ## Changes -/

/-- `leavesAll` and `dropsAll` are UPDATEs over the rows with these ids. -/
inductive Change where
  | registers (u : User)
  | verifies (loaded : User) (now : Time)
  | closes (loaded : User) (now : Time)
  | joins (m : OrgMembership)
  | promotes (loaded : OrgMembership) (role : OrgRole)
  | leaves (loaded : OrgMembership) (now : Time)
  | leavesAll (ids : List ℕ) (now : Time)
  | enrols (m : CohortMember)
  | revives (loaded : CohortMember) (now : Time)
  | drops (loaded : CohortMember) (now : Time)
  | dropsAll (ids : List ℕ) (now : Time)
  | accepts (invite userId : ℕ) (now : Time)

namespace Change

def user (x : User) : Change → User
  | verifies loaded now =>
    if x.id = loaded.id then
      { x with phoneVerifiedAt := merged loaded.phoneVerifiedAt (some now) x.phoneVerifiedAt }
    else x
  | closes loaded now =>
    if x.id = loaded.id then
      { x with
        status := merged loaded.status .deleted x.status
        deletedAt := merged loaded.deletedAt (some now) x.deletedAt }
    else x
  | _ => x

def membership (x : OrgMembership) : Change → OrgMembership
  | promotes loaded role =>
    if x.id = loaded.id then { x with role := merged loaded.role role x.role } else x
  | leaves loaded now =>
    if x.id = loaded.id then
      { x with
        status := merged loaded.status .left x.status
        leftAt := merged loaded.leftAt (some now) x.leftAt }
    else x
  | leavesAll ids now =>
    if x.id ∈ ids ∧ x.status = .active then { x with status := .left, leftAt := some now } else x
  | _ => x

def member (x : CohortMember) : Change → CohortMember
  | revives loaded now =>
    if x.id = loaded.id then
      { x with
        status := merged loaded.status .active x.status
        leftAt := merged loaded.leftAt none x.leftAt
        joinedAt := merged loaded.joinedAt now x.joinedAt }
    else x
  | drops loaded now =>
    if x.id = loaded.id then
      { x with
        status := merged loaded.status .left x.status
        leftAt := merged loaded.leftAt (some now) x.leftAt }
    else x
  | dropsAll ids now =>
    if x.id ∈ ids ∧ x.status = .active then { x with status := .left, leftAt := some now } else x
  | _ => x

def invite (x : OrgInvite) : Change → OrgInvite
  | accepts id userId now =>
    if x.id = id then { x with acceptedAt := some now, acceptedBy := some userId } else x
  | _ => x

variable (c : Change)

@[simp] theorem user_id (x : User) : (c.user x).id = x.id := by
  cases c <;> simp only [user] <;> split <;> rfl

@[simp] theorem membership_id (x : OrgMembership) : (c.membership x).id = x.id := by
  cases c <;> simp only [membership] <;> split <;> rfl

@[simp] theorem membership_orgId (x : OrgMembership) : (c.membership x).orgId = x.orgId := by
  cases c <;> simp only [membership] <;> split <;> rfl

@[simp] theorem membership_userId (x : OrgMembership) : (c.membership x).userId = x.userId := by
  cases c <;> simp only [membership] <;> split <;> rfl

@[simp] theorem member_id (x : CohortMember) : (c.member x).id = x.id := by
  cases c <;> simp only [member] <;> split <;> rfl

@[simp] theorem member_cohortId (x : CohortMember) : (c.member x).cohortId = x.cohortId := by
  cases c <;> simp only [member] <;> split <;> rfl

@[simp] theorem member_userId (x : CohortMember) : (c.member x).userId = x.userId := by
  cases c <;> simp only [member] <;> split <;> rfl

@[simp] theorem invite_id (x : OrgInvite) : (c.invite x).id = x.id := by
  cases c with
  | accepts id userId now =>
    simp only [invite]
    split <;> rfl
  | _ => rfl

/-- The database after the change. A new account has its id already, from `RETURNING`. -/
def land (d : Roster) : Roster where
  users :=
    match c with
    | registers u => d.users.put u
    | _ => d.users.mapRows (fun x => c.user x) (fun x => c.user_id x)
  cohorts := d.cohorts
  memberships :=
    match c with
    | joins m => d.memberships.put { m with id := d.memberships.nextId }
    | _ => d.memberships.mapRows (fun x => c.membership x) (fun x => c.membership_id x)
  members :=
    match c with
    | enrols m => d.members.put { m with id := d.members.nextId }
    | _ => d.members.mapRows (fun x => c.member x) (fun x => c.member_id x)
  invites := d.invites.mapRows (fun x => c.invite x) (fun x => c.invite_id x)

end Change

def landAll (d : Roster) (cs : List Change) : Roster := cs.foldl (fun d c => c.land d) d

@[simp] theorem landAll_nil (d : Roster) : landAll d [] = d := rfl

@[simp] theorem landAll_cons (d : Roster) (c : Change) (cs : List Change) :
    landAll d (c :: cs) = landAll (c.land d) cs := rfl

/-! ## Redeeming an invitation -/

def inviteNotFound : Refusal := notFound "Invite not found."

def inviteNotYours : Refusal :=
  .forbidden "This invitation was sent to a different phone number." "invite_not_yours"

def inviteRevoked : Refusal := .gone "This invitation was withdrawn." "invite_revoked"

def inviteUnusable : Refusal :=
  .gone "This invite has expired or was already used." "invite_unusable"

def checkInvite (row : Option OrgInvite) (phone : String) (now : Time) :
    Except Refusal OrgInvite :=
  match row with
  | none => .error inviteNotFound
  | some row =>
    if row.phone ≠ phone then .error inviteNotYours
    else if row.revokedAt ≠ none then .error inviteRevoked
    else if row.acceptedAt ≠ none ∨ row.expiresAt < now then .error inviteUnusable
    else .ok row

def inviteByToken (d : Roster) (token : String) : Option OrgInvite :=
  d.invites.rows.find? (fun x => x.tokenHash = Sha256.ofText token)

/-- `_invite_for`: the invitation before there is a phone to compare with its own. -/
def inviteFor (d : Roster) (token : String) (now : Time) : Except Refusal OrgInvite :=
  let row := inviteByToken d token
  checkInvite row ((row.map OrgInvite.phone).getD "") now

def grants (row : OrgInvite) (userId : ℕ) (membership : Option OrgMembership) (now : Time) :
    List Change :=
  match membership with
  | none =>
    [.joins { id := 0, orgId := row.orgId, userId, role := row.role, joinedAt := some now }]
  | some m => if m.role.rank < row.role.rank then [.promotes m row.role] else []

def invitedCohort (d : Roster) (row : OrgInvite) : Option Cohort :=
  row.cohortId.bind (fun id => (d.cohorts.get? id).filter (fun c => c.orgId = row.orgId))

/-- `_join_invited_cohort`, with the member it found. -/
def joinsCohort (cohort : Option Cohort) (userId : ℕ) (member : Option CohortMember) (now : Time) :
    List Change :=
  match cohort, member with
  | some c, none => [.enrols { id := 0, cohortId := c.id, userId, joinedAt := now }]
  | _, _ => []

/-- `redeem_invite`, over what its SELECTs returned. -/
def redeemInvite (row : OrgInvite) (userId : ℕ) (membership : Option OrgMembership)
    (cohort : Option Cohort) (member : Option CohortMember) (now : Time) : List Change :=
  grants row userId membership now ++ joinsCohort cohort userId member now ++
    [.accepts row.id userId now]

end IeltsHub.OrgRoster
