import IeltsHub.AuthzPolicy
import IeltsHub.OrgRoster
import IeltsHub.ReadCommitted

set_option autoImplicit false

/-!
# Requests that write a roster

The redemption of an invitation, `add_cohort_members`, `remove_cohort_member`, `remove_org_member`
and `close_account`, a statement at a time. What a request has flushed it holds the locks of, and
what it has added to its session since is pending; a SELECT flushes first.
-/
namespace IeltsHub.RosterRequests
open PyDict PyTime PlatformRefusals ReadCommitted OrgRoster AuthzPolicy
open PlatformErrors (Raised)

structure Store where
  roster : Roster
  platformRoles : List (ℕ × String) := []

/-- How an invitation is named by the one who accepts it. -/
inductive InviteKey where
  | token (raw : String)
  | xid (xid : ℕ)

/-- An account is named by its public id, and so is a class; an organization by the row its public
id names. `redeem` is the redemption of a phone that a code has proven. -/
inductive Call where
  | accept (actor : ℕ) (key : InviteKey)
  | redeem (token phone : String) (dateOfBirth : Option ℤ) (givenName : Option String)
      (locale : String)
  | addMembers (actor : ℕ) (cohortXid : String) (userXids : List String)
  | removeMember (actor : ℕ) (cohortXid userXid : String)
  | removeOrgMember (actor orgId : ℕ) (userXid : String)
  | closeAccount (actor : ℕ) (userXid : String)

def Call.actor : Call → Option ℕ
  | accept actor _ | addMembers actor _ _ | removeMember actor _ _ | removeOrgMember actor _ _
  | closeAccount actor _ => some actor
  | redeem .. => none

/-- What the next SELECT of a request is for. -/
inductive Phase where
  | waiting
  | admitted (actor : Option Principal)
  | registering (invite : OrgInvite) (givenName : String) (dateOfBirth : ℤ) (locale : String)
  | granting (invite : OrgInvite) (userId : ℕ)
  | joining (invite : OrgInvite) (userId : ℕ) (cohort : Cohort)
  | rostering (cohort : Cohort) (users : List User)
  | adding (cohort : Cohort) (existing : List CohortMember) (users : List User)
  | counting (membership : OrgMembership)
  | dismissing (membership : OrgMembership) (now : Time)
  | closing (user : User) (now : Time)
  | closingClasses (user : User) (now : Time)
  | complete
  | done (refusal : Option Refusal)

structure Request where
  call : Call
  phase : Phase := .waiting
  held : List Change := []
  pending : List Change := []

/-- `id` and `xid` are those of an account that is new. -/
inductive Act where
  | enter
  | read (now : Time)
  | register (id : ℕ) (xid : String) (now : Time)
  | flush
  | commit
  | fail (e : Raised)

inductive Key where
  | user (id : ℕ)
  | phone (phone : String)
  | membership (id : ℕ)
  | membershipOf (orgId userId : ℕ)
  | member (id : ℕ)
  | memberOf (cohortId userId : ℕ)
  | invite (id : ℕ)
  deriving DecidableEq

/-! ## Who asks -/

def accountInactive : Refusal := .forbidden "This account is not active." "account_inactive"

def roleName : OrgRole → String
  | .student => "student"
  | .teacher => "teacher"
  | .centreAdmin => "centre_admin"

/-- `resolve_principal`. Nothing here depends on the actor's age. -/
def resolvePrincipal (d : Store) (userId : ℕ) : Except Refusal Principal :=
  match d.roster.users.get? userId with
  | none => .error accountInactive
  | some u =>
    if u.status ≠ .active then .error accountInactive
    else
      let memberships := d.roster.memberships.select (fun m => m.userId = u.id ∧ m.status = .active)
      .ok
        { userId := u.id, userXid := u.xid, orgIds := memberships.map (fun m => m.orgId)
          roles := Dict.ofList (memberships.map (fun m => ((m.orgId : ℤ), roleName m.role)))
          platformRoles := (d.platformRoles.filter (fun g => g.1 = u.id)).map Prod.snd }

def requireManageOrg (actor : Principal) (orgId : ℕ) : Except Refusal Unit :=
  match check actor .manageOrg { orgId := some orgId } Dict.empty with
  | .error e => .error (.raised e)
  | .ok decision =>
    if decision.allowed then .ok ()
    else .error (.forbidden "You may not manage_org this." "manage_org_not_permitted")

def adminOnly : Refusal := .forbidden "Platform admin only." "admin_only"

def cohortNotFound : Refusal := notFound "Cohort not found."

/-- `_cohort` and the policy after it. -/
def managedCohort (d : Store) (actor : Principal) (cohortXid : String) : Except Refusal Cohort :=
  match d.roster.cohorts.rows.find? (fun c => c.xid = cohortXid) with
  | none => .error cohortNotFound
  | some cohort =>
    if (cohort.orgId : ℤ) ∉ actor.orgIds ∧ ¬ actor.isPlatformAdmin then .error cohortNotFound
    else (requireManageOrg actor cohort.orgId).map (fun _ => cohort)

def userByXid (d : Store) (xid : String) : Option User :=
  d.roster.users.rows.find? (fun u => u.xid = xid)

/-! ## The SELECTs -/

def phoneNotVerified : Refusal :=
  .forbidden "Confirm your phone number by SMS code before joining an organization."
    "phone_not_verified"

def dateOfBirthRequired : Refusal :=
  .forbidden "A date of birth is required to register." "date_of_birth_required"

def notAnOrgMember (givenName : String) : Refusal :=
  conflict s!"{givenName} is not a member of this organization." "not_an_org_member"

def notInClass : Refusal := notFound "This student is not in this class."

def notInOrg : Refusal := notFound "This person is not a member of this organization."

def lastCentreAdmin : Refusal :=
  conflict "This is the organization's last centre admin. Promote somebody else first."
    "last_centre_admin"

def noOpenAccount : Refusal := notFound "No open account with that id."

/-- `_invite_row`. -/
def inviteRow (d : Roster) (phone : String) : InviteKey → Option OrgInvite
  | .token raw => inviteByToken d raw
  | .xid xid => d.invites.rows.find? (fun x => x.xid = xid ∧ x.phone = phone)

abbrev Answered := Except Refusal (Phase × List Change)

def acceptInvite (d : Roster) (actor : Principal) (key : InviteKey) (now : Time) : Answered :=
  match d.users.rows.find? (fun u => (u.id : ℤ) = actor.userId) with
  | none => .error accountInactive
  | some user =>
    if user.phoneVerifiedAt = none then .error phoneNotVerified
    else (checkInvite (inviteRow d user.phone key) user.phone now).map
      (fun row => (.granting row user.id, []))

/-- `invite_redeem`, once its code is spent. -/
def redeemProven (d : Roster) (token phone : String) (dateOfBirth : Option ℤ)
    (givenName : Option String) (locale : String) (now : Time) : Answered :=
  match inviteFor d token now with
  | .error e => .error e
  | .ok invite =>
    match checkInvite (some invite) phone now with
    | .error e => .error e
    | .ok row =>
      match accountOf d phone, dateOfBirth with
      | some user, _ =>
        .ok (.granting row user.id,
          if user.phoneVerifiedAt = none then [.verifies user now] else [])
      | none, some born => .ok (.registering row (givenName.getD "") born locale, [])
      | none, none => .error dateOfBirthRequired

/-- The rest of `redeem_invite` after the class, if there is one to join. -/
def accepting (row : OrgInvite) (userId : ℕ) (changes : List Change) (now : Time) : Answered :=
  .ok (.complete, changes ++ [.accepts row.id userId now])

def isActiveIn (d : Roster) (orgId userId : ℕ) : Bool :=
  d.memberships.rows.any (fun m => m.orgId = orgId ∧ m.userId = userId ∧ m.status = .active)

/-- One turn of the loop of `add_cohort_members`. -/
def addMember (d : Roster) (cohort : Cohort) (existing : List CohortMember) (user : User)
    (now : Time) : Except Refusal (List Change) :=
  match existing.find? (fun m => m.userId = user.id) with
  | some row => .ok (if row.status ≠ .active then [.revives row now] else [])
  | none =>
    if isActiveIn d cohort.orgId user.id then
      .ok [.enrols { id := 0, cohortId := cohort.id, userId := user.id, joinedAt := now }]
    else .error (notAnOrgMember user.givenName)

def activeAdmins (d : Roster) (orgId : ℕ) : List OrgMembership :=
  d.memberships.select (fun m => m.orgId = orgId ∧ m.role = .centreAdmin ∧ m.status = .active)

def classesIn (d : Roster) (orgId userId : ℕ) : List CohortMember :=
  d.members.select (fun m => m.userId = userId ∧ m.status = .active ∧
    (d.cohorts.get? m.cohortId).any (fun c => c.orgId = orgId))

def admitted (d : Store) (call : Call) (actor : Option Principal) (now : Time) : Answered :=
  match call, actor with
  | .accept _ key, some actor => acceptInvite d.roster actor key now
  | .redeem token phone born name locale, _ =>
    redeemProven d.roster token phone born name locale now
  | .addMembers _ cohortXid userXids, some actor =>
    (managedCohort d actor cohortXid).map (fun cohort =>
      (.rostering cohort (d.roster.users.select (fun u => u.xid ∈ userXids)), []))
  | .removeMember _ cohortXid userXid, some actor => do
    let cohort ← managedCohort d actor cohortXid
    match (userByXid d userXid).bind (fun user => d.roster.members.rows.find?
        (fun m => m.cohortId = cohort.id ∧ m.userId = user.id ∧ m.status = .active)) with
    | none => .error notInClass
    | some member => .ok (.complete, [.drops member now])
  | .removeOrgMember _ orgId userXid, some actor => do
    requireManageOrg actor orgId
    match (userByXid d userXid).bind (fun user => d.roster.memberships.rows.find?
        (fun m => m.orgId = orgId ∧ m.userId = user.id ∧ m.status = .active)) with
    | none => .error notInOrg
    | some m =>
      if m.role = .centreAdmin then .ok (.counting m, [])
      else .ok (.dismissing m now, [.leaves m now])
  | .closeAccount _ userXid, some actor =>
    if ¬ actor.isPlatformAdmin then .error adminOnly
    else
      match (userByXid d userXid).filter (fun u => u.deletedAt = none) with
      | none => .error noOpenAccount
      | some user => .ok (.closing user now, [.closes user now])
  | _, none => .error accountInactive

/-- A SELECT of a request that has nothing left to flush. The two UPDATEs of `close_account` take
their snapshots here and their locks when they are flushed. -/
def select (d : Store) (call : Call) (phase : Phase) (now : Time) : Option Answered :=
  match phase with
  | .admitted actor => some (admitted d call actor now)
  | .granting row userId =>
    let changes := grants row userId (membershipOf d.roster row.orgId userId) now
    match invitedCohort d.roster row with
    | none => some (accepting row userId changes now)
    | some cohort => some (.ok (.joining row userId cohort, changes))
  | .joining row userId cohort =>
    some (accepting row userId
      (joinsCohort (some cohort) userId (memberOf d.roster cohort.id userId) now) now)
  | .rostering cohort users =>
    some (.ok (.adding cohort (d.roster.members.select (fun m => m.cohortId = cohort.id)) users, []))
  | .adding _ _ [] => some (.ok (.complete, []))
  | .adding cohort existing (user :: users) =>
    some ((addMember d.roster cohort existing user now).map (fun changes =>
      (.adding cohort existing users, changes)))
  | .counting m =>
    if (activeAdmins d.roster m.orgId).length ≤ 1 then some (.error lastCentreAdmin)
    else some (.ok (.dismissing m now, [.leaves m now]))
  | .dismissing m left =>
    some (.ok (.complete,
      (classesIn d.roster m.orgId m.userId).map (fun row => .drops row left)))
  | .closing user closed =>
    some (.ok (.closingClasses user closed,
      [.leavesAll ((d.roster.memberships.select (fun m =>
        m.userId = user.id ∧ m.status = .active)).map OrgMembership.id) closed]))
  | .closingClasses user closed =>
    some (.ok (.complete,
      [.dropsAll ((d.roster.members.select (fun m =>
        m.userId = user.id ∧ m.status = .active)).map CohortMember.id) closed]))
  | .waiting | .registering .. | .complete | .done _ => none

/-! ## Requests -/

def keysOf : Change → List Key
  | .registers u => [.user u.id, .phone u.phone]
  | .verifies loaded _ | .closes loaded _ => [.user loaded.id]
  | .joins m => [.membershipOf m.orgId m.userId]
  | .promotes loaded _ | .leaves loaded _ => [.membership loaded.id]
  | .leavesAll ids _ => ids.map .membership
  | .enrols m => [.memberOf m.cohortId m.userId]
  | .revives loaded _ | .drops loaded _ => [.member loaded.id]
  | .dropsAll ids _ => ids.map .member
  | .accepts invite _ _ => [.invite invite]

def duplicates (d : Roster) : Change → Option Refusal
  | .registers u => if (accountOf d u.phone).isSome then some (integrity "users_phone_uq") else none
  | .joins m =>
    if (membershipOf d m.orgId m.userId).isSome then some (integrity "org_memberships_uq") else none
  | .enrols m =>
    if (memberOf d m.cohortId m.userId).isSome then some (integrity "cohort_members_uq") else none
  | _ => none

abbrev Moves := Move Store Key Request

def Request.refuse (q : Request) (e : Refusal) : Moves :=
  .rollsBack { q with phase := .done (some e), held := [], pending := [] }

def flush (d : Roster) (q : Request) (changes : List Change) (phase : Phase) : Moves :=
  match changes.findSome? (duplicates d) with
  | some e => q.refuse e
  | none =>
    .goes { q with phase, held := q.held ++ changes, pending := [] } (changes.flatMap keysOf)

def enter (d : Store) (q : Request) : Moves :=
  match q.call.actor with
  | none => .goes { q with phase := .admitted none } []
  | some userId =>
    match resolvePrincipal d userId with
    | .error e => q.refuse e
    | .ok actor => .goes { q with phase := .admitted (some actor) } []

def answer (q : Request) : Answered → Moves
  | .error e => q.refuse e
  | .ok (phase, pending) => .goes { q with phase, pending } []

def next (d : Store) (q : Request) : Act → Option Moves
  | .enter =>
    match q.phase with
    | .waiting => some (enter d q)
    | _ => none
  | .read now => if q.pending = [] then (select d q.call q.phase now).map (answer q) else none
  | .register id xid now =>
    match q.phase with
    | .registering row givenName born locale =>
      if (d.roster.users.get? id).isSome then none
      else
        some (flush d.roster q
          [.registers
            { id, xid, phone := row.phone, givenName, dateOfBirth := born, locale
              phoneVerifiedAt := some now }]
          (.granting row id))
    | _ => none
  | .flush => if q.pending = [] then none else some (flush d.roster q q.pending q.phase)
  | .commit =>
    match q.phase with
    | .complete =>
      if q.pending = [] then
        some (.commits { d with roster := landAll d.roster q.held }
          { q with phase := .done none, held := [] })
      else none
    | _ => none
  | .fail e =>
    match q.phase with
    | .done _ => none
    | _ => some (q.refuse (.raised e))

def owned (q : Request) : List Key := q.held.flatMap keysOf

/-! ## What a statement can do -/

inductive Next (d : Store) (q : Request) : Act → Moves → Prop where
  | refused (act : Act) (e : Refusal) : Next d q act (q.refuse e)
  | admitted (actor : Option Principal) :
      Next d q .enter (.goes { q with phase := .admitted actor } [])
  | selected (now : Time) (phase : Phase) (pending : List Change) (none_ : q.pending = [])
      (select : select d q.call q.phase now = some (.ok (phase, pending))) :
      Next d q (.read now) (.goes { q with phase, pending } [])
  | registered (row : OrgInvite) (u : User) (now : Time) (xid : String)
      (phase : q.phase = .registering row u.givenName u.dateOfBirth u.locale) :
      Next d q (.register u.id xid now)
        (.goes { q with phase := .granting row u.id, held := q.held ++ [.registers u], pending := [] }
          ([.registers u].flatMap keysOf))
  | flushed : Next d q .flush
      (.goes { q with held := q.held ++ q.pending, pending := [] } (q.pending.flatMap keysOf))
  | committed (phase : q.phase = .complete) (none_ : q.pending = []) :
      Next d q .commit
        (.commits { d with roster := landAll d.roster q.held }
          { q with phase := .done none, held := [] })

variable {d : Store} {q : Request} {act : Act} {m : Moves}

theorem flush_eq (d : Roster) (q : Request) (changes : List Change) (phase : Phase) :
    (∃ e, flush d q changes phase = q.refuse e) ∨
      flush d q changes phase =
        .goes { q with phase, held := q.held ++ changes, pending := [] }
          (changes.flatMap keysOf) := by
  unfold flush
  split
  · next e _ => exact .inl ⟨e, rfl⟩
  · exact .inr rfl

theorem next_enter (d : Store) (q : Request) : Next d q .enter (enter d q) := by
  unfold enter
  split
  · exact .admitted none
  · split
    · exact .refused _ _
    · next actor _ => exact .admitted (some actor)

theorem next_answer {now : Time} {answered : Answered} (hnone : q.pending = [])
    (hselect : select d q.call q.phase now = some answered) :
    Next d q (.read now) (answer q answered) := by
  cases answered with
  | error e => exact .refused _ e
  | ok p => exact .selected now p.1 p.2 hnone hselect

theorem next_cases (h : next d q act = some m) : Next d q act m := by
  cases act with
  | enter =>
    simp only [next] at h
    split at h
    · cases h
      exact next_enter d q
    · cases h
  | read now =>
    simp only [next] at h
    split at h
    · next hnone =>
      obtain ⟨answered, hselect, rfl⟩ := Option.map_eq_some_iff.1 h
      exact next_answer hnone hselect
    · cases h
  | register id xid now =>
    simp only [next] at h
    split at h
    · next row givenName born locale hphase =>
      let u : User :=
        { id, xid, phone := row.phone, givenName, dateOfBirth := born, locale
          phoneVerifiedAt := some now }
      split at h
      · cases h
      · cases h
        rcases flush_eq d.roster q _ _ with ⟨e, heq⟩ | heq
        · rw [heq]
          exact .refused _ e
        · rw [heq]
          exact .registered row u now xid hphase
    · cases h
  | flush =>
    simp only [next] at h
    split at h
    · cases h
    · cases h
      rcases flush_eq d.roster q q.pending q.phase with ⟨e, heq⟩ | heq
      · rw [heq]
        exact .refused _ e
      · rw [heq]
        exact .flushed
  | commit =>
    simp only [next] at h
    split at h
    · next hphase =>
      split at h
      · next hnone =>
        cases h
        exact .committed hphase hnone
      · cases h
    · cases h
  | fail e =>
    simp only [next] at h
    split at h
    · cases h
    · cases h
      exact .refused _ _

def program : Program Store Key Request Act where
  next := next
  owned := owned
  owned_goes := by
    intro d p i p' keys h k hk
    cases next_cases h with
    | admitted => exact .inl hk
    | selected => exact .inl hk
    | registered =>
      rw [owned, List.flatMap_append, List.mem_append] at hk
      exact hk
    | flushed =>
      rw [owned, List.flatMap_append, List.mem_append] at hk
      exact hk
  owned_commits := by
    intro d p i d' p' h
    cases next_cases h
    rfl
  owned_rollsBack := by
    intro d p i p' h
    cases next_cases h
    rfl

abbrev Sys := ReadCommitted.Sys Store Key Request

def start (d : Store) (calls : ℕ → Call) : Sys :=
  { store := d, requests := fun r => { call := calls r } }

end IeltsHub.RosterRequests
