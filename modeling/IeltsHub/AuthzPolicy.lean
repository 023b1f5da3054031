import Mathlib
import IeltsHub.PyDict
import IeltsHub.PyValue
import IeltsHub.PlatformErrors

set_option autoImplicit false

/-!
# The policy engine

`app/modules/authz/policy.py`, `check` and what it reads, and the principal of `app/api/deps.py`.
-/
namespace IeltsHub.AuthzPolicy
open PyDict PyValue PlatformErrors

inductive Action where
  | read | create | edit | publish | archive | delete | share | import_ | export_ | regrade
  | viewExposure | viewAnswerKey | takedown | manageRegistry | manageOrg | manageBandMap
  deriving DecidableEq

inductive Role where
  | student | teacher | centreAdmin | platformAdmin
  deriving DecidableEq

def Role.value : Role → String
  | .student => "student"
  | .teacher => "teacher"
  | .centreAdmin => "centre_admin"
  | .platformAdmin => "platform_admin"

structure Principal where
  userId : ℤ
  userXid : String
  orgIds : List ℤ := []
  roles : Dict ℤ String := Dict.empty
  platformRoles : List String := []
  isMinor : Bool := false
  deriving DecidableEq

def Principal.isPlatformAdmin (p : Principal) : Bool := p.platformRoles.contains "platform_admin"

structure Resource where
  orgId : Option ℤ := none
  ownerUserId : Option ℤ := none
  visibility : String := "org_private"
  status : Option String := none

structure Decision where
  allowed : Bool
  reason : String := ""
  deriving DecidableEq

def Action.value : Action → String
  | .read => "read"
  | .create => "create"
  | .edit => "edit"
  | .publish => "publish"
  | .archive => "archive"
  | .delete => "delete"
  | .share => "share"
  | .import_ => "import"
  | .export_ => "export"
  | .regrade => "regrade"
  | .viewExposure => "view_exposure"
  | .viewAnswerKey => "view_answer_key"
  | .takedown => "takedown"
  | .manageRegistry => "manage_registry"
  | .manageOrg => "manage_org"
  | .manageBandMap => "manage_band_map"

/-- `_MATRIX`. -/
def matrix : Action → List Role
  | .read => [.student, .teacher, .centreAdmin, .platformAdmin]
  | .create | .edit | .delete | .import_ | .export_ | .regrade | .viewExposure | .viewAnswerKey =>
    [.teacher, .centreAdmin, .platformAdmin]
  | .publish | .archive | .share | .manageOrg | .manageBandMap => [.centreAdmin, .platformAdmin]
  | .takedown | .manageRegistry => [.platformAdmin]

/-- `Role(raw)`. -/
def roleNamed (raw : String) : Except Raised Role :=
  match raw with
  | "student" => .ok .student
  | "teacher" => .ok .teacher
  | "centre_admin" => .ok .centreAdmin
  | "platform_admin" => .ok .platformAdmin
  | _ => .error .valueError

def roleOf (actor : Principal) (orgId : Option ℤ) : Except Raised (Option Role) :=
  if actor.isPlatformAdmin then .ok (some .platformAdmin)
  else
    match orgId with
    | none => .ok none
    | some org =>
      match actor.roles.get? org with
      | none => .ok none
      | some raw => if raw = "" then .ok none else some <$> roleNamed raw

def checkRead (actor : Principal) (resource : Resource) : Decision :=
  if resource.visibility = "platform_global" then ⟨true, "platform_global"⟩
  else if resource.visibility = "author_private" then
    if resource.ownerUserId = some actor.userId then ⟨true, "owner"⟩ else ⟨false, "author_private"⟩
  else if resource.orgId.any (fun org => actor.orgIds.contains org) then ⟨true, "org_member"⟩
  else ⟨false, "not_a_member"⟩

def checkRole (actor : Principal) (action : Action) (resource : Resource) (settings : Obj)
    (role : Role) : Decision :=
  let granted := fun key => (settings.get? key).any truthy
  if role ∉ matrix action then
    if action = .publish ∧ role = .teacher ∧ granted "teacher_can_publish" then
      ⟨true, "org_setting"⟩
    else ⟨false, s!"role_{role.value}_cannot_{action.value}"⟩
  else if (action = .edit ∨ action = .delete) ∧ role = .teacher ∧
      resource.ownerUserId ≠ some actor.userId ∧ ¬ granted "content_edit_others" then
    ⟨false, "not_the_author"⟩
  else if action = .delete ∧ resource.status = some "published" then
    ⟨false, "published_content_is_archived_not_deleted"⟩
  else ⟨true, s!"role_{role.value}"⟩

def check (actor : Principal) (action : Action) (resource : Resource) (settings : Obj) :
    Except Raised Decision :=
  if actor.isPlatformAdmin then .ok ⟨true, "platform_admin"⟩
  else do
    let role ← roleOf actor resource.orgId
    if action = .read then return checkRead actor resource
    match role with
    | none => return ⟨false, "not_a_member"⟩
    | some role => return checkRole actor action resource settings role

end IeltsHub.AuthzPolicy
