import IeltsHub.RosterRequests

set_option autoImplicit false

/-!
# What holds of rosters

A class membership is active exactly while `left_at` is null, whatever the requests and however they
overlap. That an active member of a class is one of its organization, and that an organization
keeps an administrator, is up to what a commit finds.
-/
namespace IeltsHub.RosterInvariants
open PyExc PyTime PlatformRefusals RowTable ReadCommitted GuardedRuns OrgRoster RosterRequests

variable {d : Roster} {c : Change} {cs : List Change} {x : OrgMembership} {m : CohortMember}

/-! ## Changes, one row at a time -/

def foldMembership (cs : List Change) (x : OrgMembership) : OrgMembership :=
  cs.foldl (fun x c => c.membership x) x

def foldMember (cs : List Change) (m : CohortMember) : CohortMember :=
  cs.foldl (fun m c => c.member m) m

@[simp] theorem foldMembership_nil : foldMembership [] x = x := rfl

@[simp] theorem foldMembership_cons :
    foldMembership (c :: cs) x = foldMembership cs (c.membership x) := rfl

@[simp] theorem foldMember_nil : foldMember [] m = m := rfl

@[simp] theorem foldMember_cons : foldMember (c :: cs) m = foldMember cs (c.member m) := rfl

@[simp] theorem foldMembership_orgId (cs : List Change) (x : OrgMembership) :
    (foldMembership cs x).orgId = x.orgId := by
  induction cs generalizing x with
  | nil => rfl
  | cons c cs ih =>
    rw [foldMembership_cons, ih]
    simp

@[simp] theorem foldMembership_userId (cs : List Change) (x : OrgMembership) :
    (foldMembership cs x).userId = x.userId := by
  induction cs generalizing x with
  | nil => rfl
  | cons c cs ih =>
    rw [foldMembership_cons, ih]
    simp

@[simp] theorem foldMember_cohortId (cs : List Change) (m : CohortMember) :
    (foldMember cs m).cohortId = m.cohortId := by
  induction cs generalizing m with
  | nil => rfl
  | cons c cs ih =>
    rw [foldMember_cons, ih]
    simp

@[simp] theorem foldMember_userId (cs : List Change) (m : CohortMember) :
    (foldMember cs m).userId = m.userId := by
  induction cs generalizing m with
  | nil => rfl
  | cons c cs ih =>
    rw [foldMember_cons, ih]
    simp

theorem rows_joins (d : Roster) (y : OrgMembership) : ((Change.joins y).land d).memberships.rows =
    d.memberships.rows ++ [{ y with id := d.memberships.nextId }] := by
  apply Table.rows_put_of_get?_eq_none
  exact Table.get?_nextId _

theorem rows_enrols (d : Roster) (e : CohortMember) : ((Change.enrols e).land d).members.rows =
    d.members.rows ++ [{ e with id := d.members.nextId }] := by
  apply Table.rows_put_of_get?_eq_none
  exact Table.get?_nextId _

theorem mem_memberships_land (hx : x ∈ d.memberships.rows) :
    c.membership x ∈ (c.land d).memberships.rows := by
  cases c with
  | joins y =>
    rw [rows_joins]
    exact List.mem_append_left _ hx
  | _ => exact List.mem_map_of_mem hx

theorem mem_memberships_landAll (hx : x ∈ d.memberships.rows) :
    foldMembership cs x ∈ (landAll d cs).memberships.rows := by
  induction cs generalizing d x with
  | nil => exact hx
  | cons c cs ih => exact ih (mem_memberships_land hx)

theorem mem_memberships_joins {y : OrgMembership} (hy : .joins y ∈ cs) :
    ∃ x as, x.orgId = y.orgId ∧ x.userId = y.userId ∧ x.status = y.status ∧
      (∀ c ∈ as, c ∈ cs) ∧ foldMembership as x ∈ (landAll d cs).memberships.rows := by
  induction cs generalizing d with
  | nil => cases hy
  | cons c cs ih =>
    rcases List.mem_cons.1 hy with rfl | hy
    · refine ⟨{ y with id := d.memberships.nextId }, cs, rfl, rfl, rfl,
        fun c hc => List.mem_cons_of_mem _ hc, ?_⟩
      apply mem_memberships_landAll (d := (Change.joins y).land d)
      rw [rows_joins]
      exact List.mem_append_right _ (List.mem_singleton_self _)
    · obtain ⟨x, as, horg, huser, hstatus, has, hmem⟩ := ih (d := c.land d) hy
      exact ⟨x, as, horg, huser, hstatus, fun c hc => List.mem_cons_of_mem _ (has c hc), hmem⟩

theorem mem_members_land {y : CohortMember} (hy : y ∈ (c.land d).members.rows) :
    (∃ m ∈ d.members.rows, y = c.member m) ∨
      ∃ e, c = .enrols e ∧ y = { e with id := d.members.nextId } := by
  cases c with
  | enrols e =>
    rw [rows_enrols, List.mem_append, List.mem_singleton] at hy
    rcases hy with hy | hy
    · exact .inl ⟨y, hy, rfl⟩
    · exact .inr ⟨e, rfl, hy⟩
  | _ =>
    obtain ⟨m, hm, hy⟩ := List.mem_map.1 hy
    exact .inl ⟨m, hm, hy.symm⟩

theorem mem_members_landAll {y : CohortMember} (hy : y ∈ (landAll d cs).members.rows) :
    (∃ m ∈ d.members.rows, y = foldMember cs m) ∨
      ∃ e, .enrols e ∈ cs ∧ y.cohortId = e.cohortId ∧ y.userId = e.userId := by
  induction cs generalizing d with
  | nil => exact .inl ⟨y, hy, rfl⟩
  | cons c cs ih =>
    rcases ih hy with ⟨m', hm', hy⟩ | ⟨e, he, hsame⟩
    · rcases mem_members_land hm' with ⟨m, hm, rfl⟩ | ⟨e, rfl, rfl⟩
      · exact .inl ⟨m, hm, hy⟩
      · refine .inr ⟨e, List.mem_cons_self, ?_⟩
        rw [hy]
        simp
    · exact .inr ⟨e, List.mem_cons_of_mem _ he, hsame⟩

@[simp] theorem cohorts_landAll (d : Roster) (cs : List Change) :
    (landAll d cs).cohorts = d.cohorts := by
  induction cs generalizing d with
  | nil => rfl
  | cons c cs ih =>
    rw [landAll_cons, ih]
    rfl

/-! ## Status and `left_at` -/

def Agrees (m : CohortMember) : Prop := m.status = .active ↔ m.leftAt = none

def Sound : Change → Prop
  | .joins y => y.status = .active
  | .enrols e => Agrees e
  | .revives loaded _ => loaded.status ≠ .active ∧ loaded.leftAt ≠ none
  | .drops loaded _ => loaded.status = .active ∧ loaded.leftAt = none
  | _ => True

theorem agrees_member (hc : Sound c) (h : Agrees m) : Agrees (c.member m) := by
  cases c with
  | revives loaded now =>
    simp only [Change.member]
    split
    · obtain ⟨hstatus, hleft⟩ := hc
      simp [Agrees, merged, Ne.symm hstatus, Ne.symm hleft]
    · exact h
  | drops loaded now =>
    simp only [Change.member]
    split
    · obtain ⟨hstatus, hleft⟩ := hc
      simp [Agrees, merged, hstatus, hleft]
    · exact h
  | dropsAll ids now =>
    simp only [Change.member]
    split
    · simp [Agrees]
    · exact h
  | _ => exact h

theorem agrees_land (hc : Sound c) (h : ∀ m ∈ d.members.rows, Agrees m) :
    ∀ m ∈ (c.land d).members.rows, Agrees m := by
  intro y hy
  rcases mem_members_land hy with ⟨m, hm, rfl⟩ | ⟨e, rfl, rfl⟩
  · exact agrees_member hc (h m hm)
  · exact hc

theorem agrees_landAll (hcs : ∀ c ∈ cs, Sound c) (h : ∀ m ∈ d.members.rows, Agrees m) :
    ∀ m ∈ (landAll d cs).members.rows, Agrees m := by
  induction cs generalizing d with
  | nil => exact h
  | cons c cs ih =>
    exact ih (fun c hc => hcs c (List.mem_cons_of_mem _ hc))
      (agrees_land (hcs c List.mem_cons_self) h)

/-! ## Ending a membership and letting somebody into a class -/

def Ends (x : OrgMembership) : Change → Prop
  | .leaves loaded _ => x.id = loaded.id
  | .leavesAll ids _ => x.id ∈ ids
  | _ => False

def Drops (m : CohortMember) : Change → Prop
  | .drops loaded _ => m.id = loaded.id
  | .dropsAll ids _ => m.id ∈ ids
  | _ => False

def Revives (m : CohortMember) : Change → Prop
  | .revives loaded _ => m.id = loaded.id
  | _ => False

theorem ends_membership (c' : Change) : Ends (c.membership x) c' ↔ Ends x c' := by
  cases c' <;> simp [Ends]

theorem drops_member (c' : Change) : Drops (c.member m) c' ↔ Drops m c' := by
  cases c' <;> simp [Drops]

theorem revives_member (c' : Change) : Revives (c.member m) c' ↔ Revives m c' := by
  cases c' <;> simp [Revives]

theorem status_membership (h : ¬ Ends x c) : (c.membership x).status = x.status := by
  cases c with
  | promotes loaded role =>
    simp only [Change.membership]
    split <;> rfl
  | leaves loaded now =>
    simp only [Ends] at h
    simp [Change.membership, h]
  | leavesAll ids now =>
    simp only [Ends] at h
    simp [Change.membership, h]
  | _ => rfl

theorem status_foldMembership (h : ∀ c ∈ cs, ¬ Ends x c) :
    (foldMembership cs x).status = x.status := by
  induction cs generalizing x with
  | nil => rfl
  | cons c cs ih =>
    rw [foldMembership_cons, ih, status_membership (h c List.mem_cons_self)]
    intro c' hc'
    rw [ends_membership]
    exact h c' (List.mem_cons_of_mem _ hc')

theorem active_member (hr : ¬ Revives m c) (h : (c.member m).status = .active) :
    m.status = .active ∧ ¬ (Sound c ∧ Drops m c) := by
  cases c with
  | revives loaded now =>
    simp only [Revives] at hr
    simp only [Change.member, hr, if_false] at h
    exact ⟨h, fun hd => hd.2⟩
  | drops loaded now =>
    simp only [Change.member] at h
    split at h
    · next hid =>
      refine ⟨?_, ?_⟩
      · by_contra hm
        simp only [merged] at h
        split at h
        · exact hm h
        · cases h
      · rintro ⟨⟨hstatus, -⟩, -⟩
        simp [merged, hstatus] at h
    · next hid => exact ⟨h, fun hd => hid hd.2⟩
  | dropsAll ids now =>
    simp only [Change.member] at h
    split at h
    · cases h
    · next hid => exact ⟨h, fun hd => hid ⟨hd.2, h⟩⟩
  | _ => exact ⟨h, fun hd => hd.2⟩

theorem active_foldMember (hcs : ∀ c ∈ cs, Sound c) (hr : ∀ c ∈ cs, ¬ Revives m c)
    (h : (foldMember cs m).status = .active) : m.status = .active ∧ ∀ c ∈ cs, ¬ Drops m c := by
  induction cs generalizing m with
  | nil => exact ⟨h, by simp⟩
  | cons c cs ih =>
    obtain ⟨hactive, hdrops⟩ := ih (fun c hc => hcs c (List.mem_cons_of_mem _ hc))
      (fun c' hc' => by
        rw [revives_member]
        exact hr c' (List.mem_cons_of_mem _ hc')) h
    obtain ⟨hactive, hdrop⟩ := active_member (hr c List.mem_cons_self) hactive
    refine ⟨hactive, ?_⟩
    intro c' hc' hd
    rcases List.mem_cons.1 hc' with rfl | hc'
    · exact hdrop ⟨hcs _ List.mem_cons_self, hd⟩
    · exact hdrops c' hc' ((drops_member c').2 hd)

/-! ## What a commit finds -/

def Belongs (d : Roster) (cohortId userId : ℕ) : Prop :=
  ∀ cohort, d.cohorts.get? cohortId = some cohort →
    ∃ x ∈ d.memberships.rows, x.orgId = cohort.orgId ∧ x.userId = userId ∧ x.status = .active

def Administers (d : Roster) (orgId : ℕ) : Prop :=
  ∃ x ∈ d.memberships.rows, x.orgId = orgId ∧ x.role = .centreAdmin ∧ x.status = .active

/-- Somebody who is let into a class belongs to its organization, or joins it with the commit. -/
def Admissible (d : Roster) (cs : List Change) (cohortId userId : ℕ) : Prop :=
  Belongs d cohortId userId ∨
    ∀ cohort, d.cohorts.get? cohortId = some cohort →
      ∃ y, .joins y ∈ cs ∧ y.orgId = cohort.orgId ∧ y.userId = userId

/-- What the changes of a commit find in the rosters. -/
structure Meets (d : Roster) (cs : List Change) : Prop where
  enrols : ∀ e, .enrols e ∈ cs → Admissible d cs e.cohortId e.userId
  revives : ∀ m ∈ d.members.rows, (∃ c ∈ cs, Revives m c) → Admissible d cs m.cohortId m.userId
  /-- A membership that ends takes every class of the organization with it. -/
  ends : ∀ x ∈ d.memberships.rows, (∃ c ∈ cs, Ends x c) →
    ∀ m ∈ d.members.rows, m.userId = x.userId → m.status = .active →
      ∀ cohort, d.cohorts.get? m.cohortId = some cohort → cohort.orgId = x.orgId →
        ∃ c ∈ cs, Drops m c
  /-- Where an administrator's membership ends, another administrator's does not. -/
  administered : ∀ x ∈ d.memberships.rows, x.role = .centreAdmin → x.status = .active →
    (∃ c ∈ cs, Ends x c) →
      ∃ y ∈ d.memberships.rows, y.orgId = x.orgId ∧ y.role = .centreAdmin ∧ y.status = .active ∧
        ∀ c ∈ cs, ¬ Ends y c
  /-- A role is not written over an administrator's. -/
  promotes : ∀ loaded role, .promotes loaded role ∈ cs → ∀ x ∈ d.memberships.rows,
    x.id = loaded.id → x.role = .centreAdmin → role = .centreAdmin

/-- What a request may change: somebody's membership, or who is in a class. -/
def OneWay (cs : List Change) : Prop :=
  (∀ c ∈ cs, ∀ x, ¬ Ends x c) ∨ ((∀ e, .enrols e ∉ cs) ∧ ∀ c ∈ cs, ∀ m, ¬ Revives m c)

theorem role_membership (h : ∀ loaded role, c = .promotes loaded role → x.id = loaded.id →
    role = .centreAdmin) (hx : x.role = .centreAdmin) : (c.membership x).role = .centreAdmin := by
  cases c with
  | promotes loaded role =>
    simp only [Change.membership]
    split
    · next hid =>
      simp only [merged]
      split
      · exact hx
      · exact h loaded role rfl hid
    · exact hx
  | leaves loaded now =>
    simp only [Change.membership]
    split <;> exact hx
  | leavesAll ids now =>
    simp only [Change.membership]
    split <;> exact hx
  | _ => exact hx

theorem role_foldMembership (h : ∀ loaded role, .promotes loaded role ∈ cs → x.id = loaded.id →
    role = .centreAdmin) (hx : x.role = .centreAdmin) :
    (foldMembership cs x).role = .centreAdmin := by
  induction cs generalizing x with
  | nil => exact hx
  | cons c cs ih =>
    apply ih
    · intro loaded role hmem hid
      rw [Change.membership_id] at hid
      exact h loaded role (List.mem_cons_of_mem _ hmem) hid
    · apply role_membership _ hx
      intro loaded role hc hid
      exact h loaded role (hc ▸ List.mem_cons_self) hid

theorem administers_landAll (hg : Meets d cs) {orgId : ℕ} (h : Administers d orgId) :
    Administers (landAll d cs) orgId := by
  have hkept : ∀ y ∈ d.memberships.rows, y.orgId = orgId → y.role = .centreAdmin →
      y.status = .active → (∀ c ∈ cs, ¬ Ends y c) → Administers (landAll d cs) orgId := by
    intro y hy horg hrole hstatus hends
    refine ⟨foldMembership cs y, mem_memberships_landAll hy, by simpa using horg, ?_, ?_⟩
    · exact role_foldMembership (fun loaded role hmem hid =>
        hg.promotes loaded role hmem y hy hid hrole) hrole
    · rw [status_foldMembership hends, hstatus]
  obtain ⟨x, hx, horg, hrole, hstatus⟩ := h
  by_cases hends : ∃ c ∈ cs, Ends x c
  · obtain ⟨y, hy, hyorg, hyrole, hystatus, hyends⟩ := hg.administered x hx hrole hstatus hends
    exact hkept y hy (hyorg.trans horg) hyrole hystatus hyends
  · exact hkept x hx horg hrole hstatus (fun c hc he => hends ⟨c, hc, he⟩)

/-- Every active member of a class is one of its organization. -/
def Enrolled (d : Roster) : Prop :=
  ∀ m ∈ d.members.rows, m.status = .active → Belongs d m.cohortId m.userId

theorem belongs_landAll {cohortId userId : ℕ} (hends : ∀ c ∈ cs, ∀ x, ¬ Ends x c)
    (hcs : ∀ c ∈ cs, Sound c) (h : Admissible d cs cohortId userId) :
    Belongs (landAll d cs) cohortId userId := by
  intro cohort hcohort
  rw [cohorts_landAll] at hcohort
  rcases h with h | h
  · obtain ⟨x, hx, horg, huser, hstatus⟩ := h cohort hcohort
    refine ⟨foldMembership cs x, mem_memberships_landAll hx, by simpa using horg,
      by simpa using huser, ?_⟩
    rw [status_foldMembership (fun c hc => hends c hc x), hstatus]
  · obtain ⟨y, hy, horg, huser⟩ := h cohort hcohort
    obtain ⟨x, as, hxorg, hxuser, hxstatus, has, hmem⟩ := mem_memberships_joins (d := d) hy
    refine ⟨_, hmem, by simp [hxorg, horg], by simp [hxuser, huser], ?_⟩
    rw [status_foldMembership (fun c hc => hends c (has c hc) x), hxstatus]
    exact hcs _ hy

theorem enrolled_landAll (hg : Meets d cs) (hone : OneWay cs) (hcs : ∀ c ∈ cs, Sound c)
    (h : Enrolled d) : Enrolled (landAll d cs) := by
  intro y hy hactive
  rcases mem_members_landAll hy with ⟨m, hm, rfl⟩ | ⟨e, he, hcohort, huser⟩
  · rw [foldMember_cohortId, foldMember_userId]
    by_cases hrevived : ∃ c ∈ cs, Revives m c
    · rcases hone with hends | ⟨-, hnone⟩
      · exact belongs_landAll hends hcs (hg.revives m hm hrevived)
      · obtain ⟨c, hc, hr⟩ := hrevived
        exact absurd hr (hnone c hc m)
    · obtain ⟨hstatus, hdrops⟩ := active_foldMember hcs (fun c hc hr => hrevived ⟨c, hc, hr⟩) hactive
      intro cohort hcohort
      rw [cohorts_landAll] at hcohort
      obtain ⟨x, hx, horg, huser, hxstatus⟩ := h m hm hstatus cohort hcohort
      refine ⟨foldMembership cs x, mem_memberships_landAll hx, by simpa using horg,
        by simpa using huser, ?_⟩
      rw [status_foldMembership, hxstatus]
      intro c hc he
      obtain ⟨c', hc', hd⟩ := hg.ends x hx ⟨c, hc, he⟩ m hm huser.symm hstatus cohort hcohort
        horg.symm
      exact hdrops c' hc' hd
  · rw [hcohort, huser]
    rcases hone with hends | ⟨hnone, -⟩
    · exact belongs_landAll hends hcs (hg.enrols e he)
    · exact absurd he (hnone e)

/-! ## What a request has read -/

def endsMemberships : Call → Bool
  | .removeOrgMember .. | .closeAccount .. => true
  | _ => false

def Suited : Bool → Change → Prop
  | true, .enrols _ | true, .revives _ _ => False
  | false, .leaves _ _ | false, .leavesAll _ _ => False
  | _, _ => True

def Suits (ends : Bool) : Phase → Prop
  | .counting _ | .dismissing _ _ | .closing _ _ | .closingClasses _ _ => ends = true
  | .registering .. | .granting _ _ | .joining _ _ _ | .rostering _ _ => ends = false
  | .adding _ existing _ => ends = false ∧ ∀ m ∈ existing, Agrees m
  | _ => True

structure Known (q : Request) : Prop where
  phase : Suits (endsMemberships q.call) q.phase
  changes : ∀ c ∈ q.held ++ q.pending, Sound c ∧ Suited (endsMemberships q.call) c

def Fit (ends : Bool) (p : Phase × List Change) : Prop :=
  Suits ends p.1 ∧ ∀ c ∈ p.2, Sound c ∧ Suited ends c

theorem fit_nil {ends : Bool} {phase : Phase} (h : Suits ends phase) : Fit ends (phase, []) :=
  ⟨h, by simp⟩

theorem fit_accepting {row : OrgInvite} {userId : ℕ} {changes : List Change} {now : Time}
    {p : Phase × List Change} (hc : ∀ c ∈ changes, Sound c ∧ Suited false c)
    (h : accepting row userId changes now = .ok p) : Fit false p := by
  cases h
  refine ⟨trivial, ?_⟩
  intro c hmem
  rcases List.mem_append.1 hmem with hmem | hmem
  · exact hc c hmem
  · rw [List.mem_singleton.1 hmem]
    exact ⟨trivial, trivial⟩

theorem fit_grants (row : OrgInvite) (userId : ℕ) (membership : Option OrgMembership) (now : Time) :
    ∀ c ∈ grants row userId membership now, Sound c ∧ Suited false c := by
  intro c hc
  unfold grants at hc
  split at hc
  · rw [List.mem_singleton.1 hc]
    exact ⟨rfl, trivial⟩
  · split at hc
    · rw [List.mem_singleton.1 hc]
      exact ⟨trivial, trivial⟩
    · cases hc

theorem fit_joinsCohort (cohort : Option Cohort) (userId : ℕ) (member : Option CohortMember)
    (now : Time) : ∀ c ∈ joinsCohort cohort userId member now, Sound c ∧ Suited false c := by
  intro c hc
  unfold joinsCohort at hc
  split at hc
  · rw [List.mem_singleton.1 hc]
    exact ⟨by simp [Sound, Agrees], trivial⟩
  · cases hc

theorem fit_addMember {d : Roster} {cohort : Cohort} {existing : List CohortMember} {user : User}
    {now : Time} {changes : List Change} (he : ∀ m ∈ existing, Agrees m)
    (h : addMember d cohort existing user now = .ok changes) :
    ∀ c ∈ changes, Sound c ∧ Suited false c := by
  unfold addMember at h
  split at h
  · next row hrow =>
    cases h
    have hagrees := he row (List.mem_of_find?_eq_some hrow)
    intro c hc
    split at hc
    · next hstatus =>
      rw [List.mem_singleton.1 hc]
      exact ⟨⟨hstatus, fun hleft => hstatus (hagrees.2 hleft)⟩, trivial⟩
    · cases hc
  · split at h
    · cases h
      intro c hc
      rw [List.mem_singleton.1 hc]
      exact ⟨by simp [Sound, Agrees], trivial⟩
    · cases h

variable {s t : Sys} {i : ℕ × Act} {D : Store}

theorem sound_drops (hd : ∀ m ∈ d.members.rows, Agrees m) (hm : m ∈ d.members.rows)
    (hstatus : m.status = .active) (now : Time) (ends : Bool) :
    Sound (.drops m now) ∧ Suited ends (.drops m now) := by
  refine ⟨⟨hstatus, (hd m hm).1 hstatus⟩, ?_⟩
  cases ends <;> trivial

theorem fit_admitted (hd : ∀ m ∈ D.roster.members.rows, Agrees m) {call : Call}
    {actor : Option AuthzPolicy.Principal} {now : Time} {p : Phase × List Change}
    (h : admitted D call actor now = .ok p) : Fit (endsMemberships call) p := by
  unfold admitted at h
  split at h
  · unfold acceptInvite at h
    split at h
    · cases h
    · split at h
      · cases h
      · obtain ⟨row, -, rfl⟩ := map_eq_ok.1 h
        exact fit_nil rfl
  · unfold redeemProven at h
    split at h
    · cases h
    · split at h
      · cases h
      · split at h
        · cases h
          refine ⟨rfl, ?_⟩
          intro c hc
          split at hc
          · rw [List.mem_singleton.1 hc]
            exact ⟨trivial, trivial⟩
          · cases hc
        · cases h
          exact fit_nil rfl
        · cases h
  · obtain ⟨cohort, -, rfl⟩ := map_eq_ok.1 h
    exact fit_nil rfl
  · obtain ⟨cohort, -, h⟩ := bind_eq_ok.1 h
    split at h
    · cases h
    · next member hmember =>
      cases h
      obtain ⟨user, -, hfind⟩ := Option.bind_eq_some_iff.1 hmember
      have hstatus := List.find?_some hfind
      simp only [decide_eq_true_eq] at hstatus
      refine ⟨trivial, ?_⟩
      intro c hc
      rw [List.mem_singleton.1 hc]
      exact sound_drops hd (List.mem_of_find?_eq_some hfind) hstatus.2.2 now _
  · obtain ⟨_, -, h⟩ := bind_eq_ok.1 h
    split at h
    · cases h
    · split at h
      · cases h
        exact fit_nil rfl
      · cases h
        refine ⟨rfl, ?_⟩
        intro c hc
        rw [List.mem_singleton.1 hc]
        exact ⟨trivial, trivial⟩
  · split at h
    · cases h
    · split at h
      · cases h
      · cases h
        refine ⟨rfl, ?_⟩
        intro c hc
        rw [List.mem_singleton.1 hc]
        exact ⟨trivial, trivial⟩
  · cases h

theorem fit_select (hd : ∀ m ∈ D.roster.members.rows, Agrees m) {call : Call} {phase : Phase}
    (hp : Suits (endsMemberships call) phase) {now : Time} {p : Phase × List Change}
    (h : select D call phase now = some (.ok p)) : Fit (endsMemberships call) p := by
  cases phase with
  | admitted actor => exact fit_admitted hd (Option.some.inj h)
  | granting row userId =>
    rw [show endsMemberships call = false from hp]
    simp only [select] at h
    split at h
    · exact fit_accepting (fit_grants _ _ _ _) (Option.some.inj h)
    · cases h
      exact ⟨rfl, fit_grants _ _ _ _⟩
  | joining row userId cohort =>
    rw [show endsMemberships call = false from hp]
    exact fit_accepting (fit_joinsCohort _ _ _ _) (Option.some.inj h)
  | rostering cohort users =>
    cases h
    refine fit_nil ⟨hp, ?_⟩
    intro m hm
    exact hd m (List.mem_of_mem_filter hm)
  | adding cohort existing users =>
    rw [show endsMemberships call = false from hp.1]
    cases users with
    | nil =>
      cases h
      exact fit_nil trivial
    | cons user users =>
      simp only [select] at h
      obtain ⟨changes, hadd, rfl⟩ := map_eq_ok.1 (Option.some.inj h)
      exact ⟨⟨rfl, hp.2⟩, fit_addMember hp.2 hadd⟩
  | counting x =>
    rw [show endsMemberships call = true from hp]
    simp only [select] at h
    split at h
    · cases h
    · cases h
      refine ⟨rfl, ?_⟩
      intro c hc
      rw [List.mem_singleton.1 hc]
      exact ⟨trivial, trivial⟩
  | dismissing x left =>
    cases h
    refine ⟨trivial, ?_⟩
    intro c hc
    obtain ⟨m, hm, rfl⟩ := List.mem_map.1 hc
    have hstatus := (List.mem_filter.1 hm).2
    simp only [Bool.decide_and, Bool.and_eq_true, decide_eq_true_eq] at hstatus
    exact sound_drops hd (List.mem_of_mem_filter hm) hstatus.2.1 left _
  | closing user closed =>
    rw [show endsMemberships call = true from hp]
    cases h
    refine ⟨rfl, ?_⟩
    intro c hc
    rw [List.mem_singleton.1 hc]
    exact ⟨trivial, trivial⟩
  | closingClasses user closed =>
    rw [show endsMemberships call = true from hp]
    cases h
    refine ⟨trivial, ?_⟩
    intro c hc
    rw [List.mem_singleton.1 hc]
    exact ⟨trivial, trivial⟩
  | waiting => cases h
  | registering => cases h
  | complete => cases h
  | done => cases h

/-! ## Runs -/

/-- What is kept whatever the commits find. -/
structure Inv (s : Sys) : Prop where
  agrees : ∀ m ∈ s.store.roster.members.rows, Agrees m
  known : ∀ r, Known (s.requests r)

variable {q : Request} {act : Act} {mv : Moves}

theorem known_refuse (q : Request) (e : Refusal) :
    Known { q with phase := .done (some e), held := [], pending := [] } where
  phase := trivial
  changes := by simp

theorem known_next (hd : ∀ m ∈ D.roster.members.rows, Agrees m) (hq : Known q)
    (h : Next D q act mv) : Known mv.phase := by
  cases h with
  | refused _ e => exact known_refuse q e
  | admitted actor => exact ⟨trivial, hq.changes⟩
  | selected now phase pending hnone hselect =>
    obtain ⟨hphase, hpending⟩ := fit_select hd hq.phase hselect
    refine ⟨hphase, ?_⟩
    intro c hc
    rcases List.mem_append.1 hc with hc | hc
    · exact hq.changes c (List.mem_append_left _ hc)
    · exact hpending c hc
  | registered row u now xid hphase =>
    have hside : endsMemberships q.call = false := by
      have hp := hq.phase
      rw [hphase] at hp
      exact hp
    refine ⟨hside, ?_⟩
    intro c hc
    change c ∈ (q.held ++ [.registers u]) ++ [] at hc
    simp only [List.append_nil, List.mem_append, List.mem_singleton] at hc
    rcases hc with hc | rfl
    · exact hq.changes c (List.mem_append_left _ hc)
    · refine ⟨trivial, ?_⟩
      change Suited (endsMemberships q.call) _
      rw [hside]
      trivial
  | flushed =>
    refine ⟨hq.phase, ?_⟩
    intro c hc
    change c ∈ (q.held ++ q.pending) ++ [] at hc
    rw [List.append_nil] at hc
    exact hq.changes c hc
  | committed hphase hnone =>
    refine ⟨trivial, ?_⟩
    intro c hc
    change c ∈ [] ++ q.pending at hc
    simp [hnone] at hc

theorem sound_held (hq : Known q) : ∀ c ∈ q.held, Sound c :=
  fun c hc => (hq.changes c (List.mem_append_left _ hc)).1

theorem oneWay_held (hq : Known q) : OneWay q.held := by
  have hsuited : ∀ c ∈ q.held, Suited (endsMemberships q.call) c :=
    fun c hc => (hq.changes c (List.mem_append_left _ hc)).2
  cases hends : endsMemberships q.call with
  | false =>
    rw [hends] at hsuited
    refine .inl (fun c hc x he => ?_)
    have hc := hsuited c hc
    cases c <;> first | exact hc | exact he
  | true =>
    rw [hends] at hsuited
    refine .inr ⟨fun e he => hsuited _ he, fun c hc m hr => ?_⟩
    have hc := hsuited c hc
    cases c <;> first | exact hc | exact hr

theorem store_step (h : Step program s i t) : t.store = s.store ∨
    i.2 = .commit ∧
      t.store = { s.store with roster := landAll s.store.roster (s.requests i.1).held } := by
  refine database_step h (.inl rfl) (fun d p hnext => ?_)
  have hn := next_cases hnext
  generalize s.requests i.1 = q at hn ⊢
  generalize i.2 = act at hn ⊢
  cases hn
  exact .inr ⟨rfl, rfl⟩

theorem inv_step (hs : Inv s) (h : Step program s i t) : Inv t where
  agrees := by
    rcases store_step h with hstore | ⟨-, hstore⟩
    · rw [hstore]
      exact hs.agrees
    · rw [hstore]
      exact agrees_landAll (sound_held (hs.known i.1)) hs.agrees
  known r := by
    apply phase_step (C := Known) h (hs.known r)
    intro hr m hm
    exact known_next hs.agrees (hs.known r) (next_cases hm)

theorem inv_start (d : Store) (calls : ℕ → Call) (hd : ∀ m ∈ d.roster.members.rows, Agrees m) :
    Inv (start d calls) where
  agrees := hd
  known _ := ⟨trivial, by simp [start]⟩

/-- The commits of a run find the rosters as `Meets` says. -/
def Guard (s : Sys) (i : ℕ × Act) : Prop :=
  i.2 = .commit → Meets s.store.roster (s.requests i.1).held

theorem enrolled_step (hs : Inv s) (hg : Guard s i) (h : Step program s i t)
    (he : Enrolled s.store.roster) : Enrolled t.store.roster := by
  rcases store_step h with hstore | ⟨hcommit, hstore⟩
  · rwa [hstore]
  · rw [hstore]
    exact enrolled_landAll (hg hcommit) (oneWay_held (hs.known i.1)) (sound_held (hs.known i.1)) he

theorem administers_step (hg : Guard s i) (h : Step program s i t) {orgId : ℕ}
    (ha : Administers s.store.roster orgId) : Administers t.store.roster orgId := by
  rcases store_step h with hstore | ⟨hcommit, hstore⟩
  · rwa [hstore]
  · rw [hstore]
    exact administers_landAll (hg hcommit) ha

/-- The three promises, over the runs within a guard. -/
structure Kept (g : Sys → ℕ × Act → Prop) (s : Sys) : Prop where
  agrees : ∀ acts t, Runs (Step program) g s acts t → ∀ m ∈ t.store.roster.members.rows, Agrees m
  enrolled : ∀ acts t, Runs (Step program) g s acts t → Enrolled t.store.roster
  administered : ∀ acts t more u, Runs (Step program) g s acts t → Runs (Step program) g t more u →
    ∀ orgId, Administers t.store.roster orgId → Administers u.store.roster orgId

theorem roster_kept (d : Store) (calls : ℕ → Call) (hd : ∀ m ∈ d.roster.members.rows, Agrees m)
    (he : Enrolled d.roster) : Kept Guard (start d calls) ∧
      ∀ acts t, Any (Step program) (start d calls) acts t →
        ∀ m ∈ t.store.roster.members.rows, Agrees m := by
  have hs := inv_start d calls hd
  have hagrees : ∀ g acts t, Runs (Step program) g (start d calls) acts t →
      ∀ m ∈ t.store.roster.members.rows, Agrees m := by
    intro g acts t hrun
    exact (hrun.invariant (I := Inv) (fun _ _ _ hs _ h => inv_step hs h) hs).agrees
  refine ⟨⟨hagrees Guard, ?_, ?_⟩, hagrees _⟩
  · intro acts t hrun
    exact (hrun.invariant (I := fun s => Inv s ∧ Enrolled s.store.roster)
      (fun s i t hs hg h => ⟨inv_step hs.1 h, enrolled_step (i := i) hs.1 hg h hs.2⟩) ⟨hs, he⟩).2
  · intro acts t more u _ hmore orgId ha
    exact hmore.invariant (I := fun s => Administers s.store.roster orgId)
      (fun s i t ha hg h => administers_step (i := i) hg h ha) ha

/-! ## Where the commits find something else -/

def centre : Store where
  roster :=
    { users := ((Table.empty.put
          { id := 1, xid := "a", phone := "+998901111111", dateOfBirth := 0 }).put
          { id := 2, xid := "b", phone := "+998902222222", dateOfBirth := 0 }).put
          { id := 3, xid := "c", phone := "+998903333333", phoneVerifiedAt := some 0
            dateOfBirth := 0 }
      cohorts := Table.empty.put { id := 1, xid := "evening", orgId := 1 }
      memberships := ((Table.empty.put
          { id := 1, orgId := 1, userId := 1, role := .centreAdmin, joinedAt := some 0 }).put
          { id := 2, orgId := 1, userId := 2, role := .centreAdmin, joinedAt := some 0 }).put
          { id := 3, orgId := 1, userId := 3, role := .student, joinedAt := some 0 }
      invites := Table.empty.put
          { id := 1, xid := 1, tokenHash := "", orgId := 1, cohortId := some 1, role := .student
            phone := "+998903333333", expiresAt := 100 } }

/-- The administrators take each other off the roster; one takes the student off it, who then
accepts the invitation. -/
def callers : ℕ → Call
  | 0 => .removeOrgMember 1 1 "b"
  | 1 => .removeOrgMember 2 1 "a"
  | 2 => .removeOrgMember 1 1 "c"
  | _ => .accept 3 (.xid 1)

def eachOther : List (ℕ × Act) :=
  [(0, .enter), (1, .enter), (0, .read 1), (1, .read 1), (0, .read 2), (1, .read 2), (0, .flush),
    (0, .read 3), (0, .commit), (1, .flush), (1, .read 3), (1, .commit)]

def returning : List (ℕ × Act) :=
  [(2, .enter), (2, .read 1), (2, .flush), (2, .read 2), (2, .commit), (3, .enter), (3, .read 3),
    (3, .read 4), (3, .read 5), (3, .flush), (3, .commit)]

def outsider (d : Roster) : Bool :=
  d.members.rows.any (fun m => m.status = .active ∧
    (d.cohorts.get? m.cohortId).any (fun c => ¬ isActiveIn d c.orgId m.userId))

theorem not_enrolled_of_outsider (h : outsider d = true) : ¬ Enrolled d := by
  intro he
  unfold outsider at h
  rw [List.any_eq_true] at h
  obtain ⟨m, hm, h⟩ := h
  simp only [decide_eq_true_eq, Option.any_eq_true] at h
  obtain ⟨hstatus, cohort, hcohort, hnot⟩ := h
  obtain ⟨x, hx, horg, huser, hactive⟩ := he m hm hstatus cohort hcohort
  apply hnot
  exact List.any_eq_true.2 ⟨x, hx, by simp [horg, huser, hactive]⟩

theorem administers_iff {orgId : ℕ} : Administers d orgId ↔ activeAdmins d orgId ≠ [] := by
  rw [← List.isEmpty_eq_false_iff, List.isEmpty_eq_false_iff_exists_mem]
  simp [Administers, activeAdmins, Table.select]

theorem agrees_centre : ∀ m ∈ centre.roster.members.rows, Agrees m := by
  intro m hm
  cases hm

theorem enrolled_centre : Enrolled centre.roster := by
  intro m hm
  cases hm

theorem roster_broken : ¬ Kept (fun _ _ => True) (start centre callers) ∧
    (∃ t, Any (Step program) (start centre callers) returning t ∧ ¬ Enrolled t.store.roster) ∧
    ∃ t, Any (Step program) (start centre callers) eachOther t ∧
      Administers centre.roster 1 ∧ ¬ Administers t.store.roster 1 := by
  have hreturn : ((follow (step program) (fun _ _ => True) returning (start centre callers)).map
      (fun t => outsider t.store.roster)) = some true := by
    decide +kernel
  have hremove : ((follow (step program) (fun _ _ => True) eachOther (start centre callers)).map
      (fun t => (activeAdmins t.store.roster 1).isEmpty)) = some true := by
    decide +kernel
  obtain ⟨t, ht, houtsider⟩ := Option.map_eq_some_iff.1 hreturn
  obtain ⟨u, hu, hnone⟩ := Option.map_eq_some_iff.1 hremove
  have hbroken := not_enrolled_of_outsider houtsider
  refine ⟨fun hkept => hbroken (hkept.enrolled _ _ (runs_of_follow ht)), ⟨t, runs_of_follow ht,
    hbroken⟩, u, runs_of_follow hu, ?_, ?_⟩
  · rw [administers_iff]
    decide
  · rw [administers_iff, not_not]
    exact List.isEmpty_iff.1 hnone

theorem roster_kept_centre : Kept Guard (start centre callers) ∧
    ∀ acts t, Any (Step program) (start centre callers) acts t →
      ∀ m ∈ t.store.roster.members.rows, Agrees m :=
  roster_kept centre callers agrees_centre enrolled_centre

end IeltsHub.RosterInvariants
