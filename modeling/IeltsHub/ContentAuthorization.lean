import IeltsHub.AuthzPolicy

set_option autoImplicit false

/-!
# The list scope and the detail check

`filter_content` scopes a listing by a disjunction of clauses, `check` answers for one resource by
a chain of early returns. They are two encodings of one matrix.
-/
namespace IeltsHub.ContentAuthorization
open PyDict PyExc PyValue PlatformErrors AuthzPolicy

/-- A row of a content table, by the columns the policy reads. -/
structure ContentRow where
  id : ℤ
  orgId : Option ℤ := none
  ownerUserId : Option ℤ := none
  visibility : String := "org_private"
  status : Option String := none

def ContentRow.resource (r : ContentRow) : Resource where
  orgId := r.orgId
  ownerUserId := r.ownerUserId
  visibility := r.visibility
  status := r.status

/-- The clauses of the WHERE, ORed. A comparison with NULL selects nothing. -/
def selects (actor : Principal) (grantIds : List ℤ) (r : ContentRow) : Bool :=
  decide (r.visibility = "platform_global") ||
    (!actor.orgIds.isEmpty && r.orgId.any (fun org => actor.orgIds.contains org) &&
      decide (r.visibility ≠ "author_private")) ||
    (decide (r.ownerUserId = some actor.userId) && decide (r.visibility = "author_private")) ||
    (!grantIds.isEmpty && grantIds.contains r.id)

def filterContent (actor : Principal) (grantIds : List ℤ) (rows : List ContentRow) :
    List ContentRow :=
  if actor.isPlatformAdmin then rows else rows.filter (selects actor grantIds)

def Allowed (decision : Except Raised Decision) : Prop :=
  ∃ d, decision = .ok d ∧ d.allowed = true

instance (decision : Except Raised Decision) : Decidable (Allowed decision) :=
  match decision with
  | .ok d => decidable_of_iff (d.allowed = true) (by simp [Allowed])
  | .error e => .isFalse (by simp [Allowed])

def KnownRoles (actor : Principal) : Prop :=
  ∀ org raw, actor.roles.get? org = some raw → raw ∈ ["student", "teacher", "centre_admin"]

theorem roleOf_of_knownRoles {actor : Principal} (h : KnownRoles actor) (orgId : Option ℤ) :
    ∃ role, roleOf actor orgId = .ok role := by
  unfold roleOf
  split
  · exact ⟨_, rfl⟩
  · cases orgId with
    | none => exact ⟨_, rfl⟩
    | some org =>
      cases hraw : actor.roles.get? org with
      | none => exact ⟨none, by simp only [hraw]⟩
      | some raw =>
        have hmem := h org raw hraw
        simp only [List.mem_cons, List.not_mem_nil, or_false] at hmem
        simp only [hraw]
        rcases hmem with rfl | rfl | rfl
        · exact ⟨some .student, rfl⟩
        · exact ⟨some .teacher, rfl⟩
        · exact ⟨some .centreAdmin, rfl⟩

theorem allowed_admin {actor : Principal} (h : actor.isPlatformAdmin = true) (action : Action)
    (resource : Resource) (settings : Obj) : Allowed (check actor action resource settings) := by
  unfold check
  rw [if_pos h]
  exact ⟨_, rfl, rfl⟩

theorem check_read {actor : Principal} (hroles : KnownRoles actor)
    (h : actor.isPlatformAdmin = false) (resource : Resource) (settings : Obj) :
    check actor .read resource settings = .ok (checkRead actor resource) := by
  obtain ⟨role, hrole⟩ := roleOf_of_knownRoles hroles resource.orgId
  unfold check
  rw [h, hrole]
  rfl

theorem selects_eq_checkRead {actor : Principal} {grantIds : List ℤ} {r : ContentRow}
    (h : r.id ∉ grantIds) : selects actor grantIds r = (checkRead actor r.resource).allowed := by
  have hgrant : (!grantIds.isEmpty && grantIds.contains r.id) = false := by simp [h]
  unfold selects checkRead
  rw [hgrant, Bool.or_false]
  change _ = (if r.visibility = "platform_global" then (⟨true, "platform_global"⟩ : Decision)
    else if r.visibility = "author_private" then
      if r.ownerUserId = some actor.userId then ⟨true, "owner"⟩ else ⟨false, "author_private"⟩
    else if r.orgId.any (fun org => actor.orgIds.contains org) then ⟨true, "org_member"⟩
    else ⟨false, "not_a_member"⟩).allowed
  by_cases hglobal : r.visibility = "platform_global"
  · simp [hglobal]
  by_cases hprivate : r.visibility = "author_private"
  · by_cases howner : r.ownerUserId = some actor.userId <;> simp [hprivate, howner]
  · cases horg : r.orgId.any (fun org => actor.orgIds.contains org) with
    | false => simp [hglobal, hprivate]
    | true =>
      have hne : actor.orgIds ≠ [] := by
        intro hnil
        simp [hnil] at horg
      simp [hglobal, hprivate, hne]

theorem published_not_deletable {actor : Principal} (h : actor.isPlatformAdmin = false)
    {resource : Resource} (hstatus : resource.status = some "published") (settings : Obj) :
    ¬ Allowed (check actor .delete resource settings) := by
  unfold check
  rw [h]
  rintro ⟨d, hd, hallowed⟩
  obtain ⟨role, _, hd⟩ := bind_eq_ok.1 hd
  cases role with
  | none =>
    cases hd
    cases hallowed
  | some role =>
    cases hd
    simp only [checkRole, hstatus] at hallowed
    split at hallowed
    · split at hallowed
      · next hgrant => cases hgrant.1
      · cases hallowed
    · split at hallowed
      · cases hallowed
      · simp at hallowed

/-- What a row's policy promises: the listing shows it to whoever may read it, and once published
nobody may delete it. -/
structure Governed (actor : Principal) (grantIds : List ℤ) (settings : Obj) (r : ContentRow) :
    Prop where
  listed : r.id ∉ grantIds → ∀ rows, r ∈ rows →
    (r ∈ filterContent actor grantIds rows ↔ Allowed (check actor .read r.resource settings))
  kept : r.status = some "published" → ¬ Allowed (check actor .delete r.resource settings)

theorem listed_iff_readable {actor : Principal} (hroles : KnownRoles actor) {grantIds : List ℤ}
    {r : ContentRow} (h : r.id ∉ grantIds) {rows : List ContentRow} (hmem : r ∈ rows)
    (settings : Obj) : r ∈ filterContent actor grantIds rows ↔
      Allowed (check actor .read r.resource settings) := by
  unfold filterContent
  cases hadmin : actor.isPlatformAdmin with
  | true => exact iff_of_true hmem (allowed_admin hadmin _ _ _)
  | false =>
    rw [check_read hroles hadmin, if_neg (by simp), List.mem_filter, selects_eq_checkRead h]
    constructor
    · intro hr
      exact ⟨_, rfl, hr.2⟩
    · rintro ⟨d, hd, hallowed⟩
      cases hd
      exact ⟨hmem, hallowed⟩

/-- The policy keeps its promise but where a platform admin meets a published row. -/
theorem governed_iff {actor : Principal} (hroles : KnownRoles actor) (grantIds : List ℤ)
    (settings : Obj) (r : ContentRow) : Governed actor grantIds settings r ↔
      ¬ (actor.isPlatformAdmin = true ∧ r.status = some "published") := by
  constructor
  · rintro hgoverned ⟨hadmin, hstatus⟩
    exact hgoverned.kept hstatus (allowed_admin hadmin _ _ _)
  · intro h
    refine ⟨fun hunshared rows hmem => listed_iff_readable hroles hunshared hmem settings, ?_⟩
    intro hstatus
    cases hadmin : actor.isPlatformAdmin with
    | true => exact absurd ⟨hadmin, hstatus⟩ h
    | false => exact published_not_deletable hadmin hstatus settings

def centreTeacher : Principal where
  userId := 7
  userXid := "u7"
  orgIds := [1]
  roles := Dict.empty.put 1 "teacher"

def centrePassage : ContentRow where
  id := 3
  orgId := some 1
  ownerUserId := some 7
  status := some "published"

theorem governed_for_teacher : Governed centreTeacher [] Dict.empty centrePassage := by
  refine (governed_iff ?_ [] Dict.empty centrePassage).2 (by decide)
  intro org raw h
  rw [centreTeacher, Dict.get?_put] at h
  split at h
  · cases h
    decide
  · cases h

theorem admin_deletes_published : ¬ Governed
    { userId := 1, userXid := "u1", platformRoles := ["platform_admin"] } [] Dict.empty
    centrePassage := by
  intro h
  exact h.kept rfl ⟨⟨true, "platform_admin"⟩, rfl, rfl⟩

end IeltsHub.ContentAuthorization
