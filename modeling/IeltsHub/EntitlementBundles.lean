import IeltsHub.Entitlements

set_option autoImplicit false

/-!
# A bundle of features

`check_any` of `billing/entitlements.py`. The loops stop at the first grant and carry the best
denial so far; what they answer is the join of what the rows say, in whatever order they come.
-/
namespace IeltsHub.EntitlementBundles
open PyTime BillingModels Entitlements

/-! ## The source -/

/-- The port: the rows of a user and of organizations for a feature, and the user's seats. -/
structure EntitlementStore where
  forUser : ℕ → String → List Entitlement
  forOrgs : List ℕ → String → List Entitlement
  seatsFor : ℕ → List Seat

/-- `check` of one feature; without organizations their rows are not asked for. -/
def checkFeature (store : EntitlementStore) (now : Time) (user : ℕ) (orgs : List ℕ)
    (feature : String) : Decision :=
  check now (store.forUser user feature)
    (if orgs = [] then none else some (store.forOrgs orgs feature)) (store.seatsFor user)

def checkAnyFrom (store : EntitlementStore) (now : Time) (user : ℕ) (orgs : List ℕ) :
    Decision → List String → Decision
  | best, [] => best
  | best, feature :: rest =>
    let decision := checkFeature store now user orgs feature
    if decision.allowed then decision
    else if moreInformative best.reason decision.reason ≠ best.reason then
      checkAnyFrom store now user orgs decision rest
    else checkAnyFrom store now user orgs best rest

def checkAny (store : EntitlementStore) (now : Time) (user : ℕ) (features : List String)
    (orgs : List ℕ) : Decision :=
  checkAnyFrom store now user orgs { allowed := false, reason := .no_entitlement } features

/-- `max(reasons, default=NO_ENTITLEMENT, key=_INFORMATIVENESS.index)`. -/
def mostInformative : List Reason → Reason
  | [] => .no_entitlement
  | r :: rs => rs.foldl moreInformative r

/-! ## What a row says -/

def reasonOf (now : Time) (covers : Entitlement → Bool) (e : Entitlement) : Reason :=
  if statusAt e now = .granted ∧ covers e = false then .no_seat else statusAt e now

/-- A live row of the feature that the user holds, or an organization of theirs, with a seat where
it is a licence of seats. -/
def Covers (store : EntitlementStore) (now : Time) (user : ℕ) (orgs : List ℕ) (feature : String)
    (e : Entitlement) : Prop :=
  statusAt e now = .granted ∧ (e ∈ store.forUser user feature ∨
    orgs ≠ [] ∧ e ∈ store.forOrgs orgs feature ∧ (e.sourceKind = .seat →
      ∃ s ∈ store.seatsFor user, s.releasedAt = none ∧ s.entitlementId = e.id))

def reasonsFor (store : EntitlementStore) (now : Time) (user : ℕ) (orgs : List ℕ)
    (feature : String) : List Reason :=
  (store.forUser user feature).map (reasonOf now (fun _ => true)) ++
    (if orgs = [] then [] else store.forOrgs orgs feature).map
      (reasonOf now (coveredBySeat (heldSeats (store.seatsFor user))))

def reasons (store : EntitlementStore) (now : Time) (user : ℕ) (orgs : List ℕ)
    (features : List String) : List Reason :=
  features.flatMap (reasonsFor store now user orgs)

/-- The same rows in another order. -/
structure Reordered (store store' : EntitlementStore) (user : ℕ) (orgs : List ℕ) : Prop where
  forUser : ∀ feature, (store'.forUser user feature).Perm (store.forUser user feature)
  forOrgs : ∀ feature, (store'.forOrgs orgs feature).Perm (store.forOrgs orgs feature)
  seatsFor : (store'.seatsFor user).Perm (store.seatsFor user)

/-! ## Reasons in their order -/

theorem informativeness_injective : Function.Injective informativeness := by
  intro a b h
  cases a <;> cases b <;> first | rfl | cases h

instance reasonOrder : LinearOrder Reason :=
  LinearOrder.lift' informativeness informativeness_injective

theorem le_iff {a b : Reason} : a ≤ b ↔ informativeness a ≤ informativeness b := Iff.rfl

theorem moreInformative_eq_max (a b : Reason) : moreInformative a b = max a b := by
  unfold moreInformative
  split
  · rename_i h
    exact (max_eq_right (le_iff.2 h.le)).symm
  · rename_i h
    exact (max_eq_left (le_iff.2 (not_lt.1 h))).symm

theorem no_entitlement_le {r : Reason} (h : r ≠ .granted) : Reason.no_entitlement ≤ r := by
  rw [le_iff]
  cases r with
  | granted => exact absurd rfl h
  | _ => decide

theorem foldl_max (a b : Reason) (rs : List Reason) :
    rs.foldl max (max a b) = max a (rs.foldl max b) := by
  induction rs generalizing b with
  | nil => rfl
  | cons r rs ih => rw [List.foldl_cons, List.foldl_cons, max_assoc, ih]

theorem le_foldl_max (a : Reason) (rs : List Reason) : a ≤ rs.foldl max a := by
  induction rs generalizing a with
  | nil => exact le_rfl
  | cons r rs ih => exact (le_max_left a r).trans (ih (max a r))

theorem foldl_max_eq_mostInformative {rs : List Reason} (h : ∀ r ∈ rs, r ≠ .granted) :
    rs.foldl max .no_entitlement = mostInformative rs := by
  have hmore : moreInformative = max := by
    funext a b
    exact moreInformative_eq_max a b
  cases rs with
  | nil => rfl
  | cons r rs =>
    unfold mostInformative
    rw [hmore, List.foldl_cons, max_eq_right (no_entitlement_le (h r List.mem_cons_self))]

theorem foldl_max_perm {rs rs' : List Reason} (h : rs'.Perm rs) (a : Reason) :
    rs'.foldl max a = rs.foldl max a := by
  refine h.foldl_eq' (fun x _ y _ z => ?_) a
  rw [max_assoc, max_assoc, max_comm x y]

/-! ## The loops -/

section
variable {now : Time} {covers : Entitlement → Bool} {best : Reason} {rows : List Entitlement}
  {e : Entitlement}

theorem reasonOf_eq_granted :
    reasonOf now covers e = .granted ↔ statusAt e now = .granted ∧ covers e = true := by
  unfold reasonOf
  cases hcovers : covers e with
  | true => simp
  | false =>
    by_cases h : statusAt e now = .granted
    · simp [h]
    · simp [h]

theorem firstGranted_of_mem (h : Reason.granted ∈ rows.map (reasonOf now covers)) :
    (firstGranted now covers best rows).allowed = true ∧
      (firstGranted now covers best rows).reason = .granted := by
  induction rows generalizing best with
  | nil => cases h
  | cons x rest ih =>
    rw [List.map_cons, List.mem_cons] at h
    unfold firstGranted
    by_cases hstatus : statusAt x now = .granted
    · rw [if_neg (not_not.2 hstatus)]
      by_cases hcovers : covers x = true
      · rw [if_pos hcovers]
        exact ⟨rfl, rfl⟩
      · rw [if_neg hcovers]
        refine ih (h.resolve_left (fun heq => hcovers ?_))
        exact (reasonOf_eq_granted.1 heq.symm).2
    · rw [if_pos hstatus]
      refine ih (h.resolve_left (fun heq => hstatus ?_))
      exact (reasonOf_eq_granted.1 heq.symm).1

theorem firstGranted_of_not_mem (h : Reason.granted ∉ rows.map (reasonOf now covers)) :
    firstGranted now covers best rows =
      { allowed := false, reason := (rows.map (reasonOf now covers)).foldl max best } := by
  induction rows generalizing best with
  | nil => rfl
  | cons x rest ih =>
    rw [List.map_cons, List.mem_cons, not_or] at h
    have hdenied : ¬ (statusAt x now = .granted ∧ covers x = true) :=
      fun hx => h.1 (reasonOf_eq_granted.2 hx).symm
    unfold firstGranted
    rw [List.map_cons, List.foldl_cons]
    by_cases hstatus : statusAt x now = .granted
    · have hcovers : covers x = false := by
        rw [← Bool.not_eq_true]
        exact fun hx => hdenied ⟨hstatus, hx⟩
      have hreason : reasonOf now covers x = .no_seat := if_pos ⟨hstatus, hcovers⟩
      rw [if_neg (not_not.2 hstatus), hcovers, if_neg Bool.false_ne_true, ih h.2, hreason,
        moreInformative_eq_max]
    · have hreason : reasonOf now covers x = statusAt x now := if_neg (fun hx => hstatus hx.1)
      rw [if_pos hstatus, ih h.2, hreason, moreInformative_eq_max]

end

section
variable {store store' : EntitlementStore} {now : Time} {user : ℕ} {orgs : List ℕ}
  {feature : String} {features features' : List String} {best : Decision}

theorem checkFeature_of_mem (h : Reason.granted ∈ reasonsFor store now user orgs feature) :
    (checkFeature store now user orgs feature).allowed = true ∧
      (checkFeature store now user orgs feature).reason = .granted := by
  unfold reasonsFor at h
  unfold checkFeature check checkUser
  by_cases hdirect : Reason.granted ∈
      (store.forUser user feature).map (reasonOf now (fun _ => true))
  · have hgranted := @firstGranted_of_mem now (fun _ => true) .no_entitlement _ hdirect
    dsimp only
    rw [if_pos hgranted.1]
    exact hgranted
  · have horgs := (List.mem_append.1 h).resolve_left hdirect
    rw [firstGranted_of_not_mem hdirect]
    dsimp only
    by_cases hnone : orgs = []
    · rw [if_pos hnone] at horgs
      cases horgs
    · rw [if_neg hnone] at horgs ⊢
      exact firstGranted_of_mem horgs

theorem checkFeature_of_not_mem (h : Reason.granted ∉ reasonsFor store now user orgs feature) :
    checkFeature store now user orgs feature = { allowed := false, reason :=
      (reasonsFor store now user orgs feature).foldl max .no_entitlement } := by
  unfold reasonsFor at h ⊢
  rw [List.mem_append, not_or] at h
  unfold checkFeature check checkUser
  rw [firstGranted_of_not_mem h.1, List.foldl_append]
  dsimp only
  by_cases hnone : orgs = []
  · rw [if_pos hnone, if_pos hnone]
    rfl
  · have horgs := h.2
    rw [if_neg hnone] at horgs ⊢
    rw [if_neg hnone]
    exact firstGranted_of_not_mem horgs

theorem checkAnyFrom_of_mem (h : Reason.granted ∈ reasons store now user orgs features) :
    (checkAnyFrom store now user orgs best features).allowed = true ∧
      (checkAnyFrom store now user orgs best features).reason = .granted := by
  induction features generalizing best with
  | nil => cases h
  | cons feature rest ih =>
    unfold reasons at h
    rw [List.flatMap_cons, List.mem_append] at h
    unfold checkAnyFrom
    by_cases hfeature : Reason.granted ∈ reasonsFor store now user orgs feature
    · have hgranted := checkFeature_of_mem hfeature
      dsimp only
      rw [if_pos hgranted.1]
      exact hgranted
    · have hrest := h.resolve_left hfeature
      rw [checkFeature_of_not_mem hfeature]
      dsimp only
      rw [if_neg Bool.false_ne_true]
      split
      · exact ih hrest
      · exact ih hrest

theorem checkAnyFrom_of_not_mem (h : Reason.granted ∉ reasons store now user orgs features)
    (hbest : best.allowed = false) (hfloor : Reason.no_entitlement ≤ best.reason) :
    (checkAnyFrom store now user orgs best features).allowed = false ∧
      (checkAnyFrom store now user orgs best features).reason =
        (reasons store now user orgs features).foldl max best.reason := by
  induction features generalizing best with
  | nil => exact ⟨hbest, rfl⟩
  | cons feature rest ih =>
    unfold reasons at h ih ⊢
    rw [List.flatMap_cons, List.mem_append, not_or] at h
    rw [List.flatMap_cons, List.foldl_append]
    unfold checkAnyFrom
    rw [checkFeature_of_not_mem h.1]
    dsimp only
    rw [if_neg Bool.false_ne_true, moreInformative_eq_max]
    have hjoin : max best.reason ((reasonsFor store now user orgs feature).foldl max
        .no_entitlement) = (reasonsFor store now user orgs feature).foldl max best.reason := by
      rw [← foldl_max, max_eq_left hfloor]
    rw [hjoin]
    split
    · rename_i hmore
      have hdenied := @ih { allowed := false, reason :=
        (reasonsFor store now user orgs feature).foldl max .no_entitlement } h.2 rfl
        (le_foldl_max _ _)
      have hsame : (reasonsFor store now user orgs feature).foldl max best.reason =
          (reasonsFor store now user orgs feature).foldl max .no_entitlement := by
        rcases max_choice best.reason ((reasonsFor store now user orgs feature).foldl max
          .no_entitlement) with hmax | hmax
        · exact absurd (hjoin.symm.trans hmax) hmore
        · exact hjoin.symm.trans hmax
      rw [hsame]
      exact hdenied
    · rename_i hmore
      rw [not_not.1 hmore]
      exact ih h.2 hbest hfloor

theorem checkAny_of_mem (h : Reason.granted ∈ reasons store now user orgs features) :
    (checkAny store now user features orgs).allowed = true ∧
      (checkAny store now user features orgs).reason = .granted := checkAnyFrom_of_mem h

theorem checkAny_of_not_mem (h : Reason.granted ∉ reasons store now user orgs features) :
    (checkAny store now user features orgs).allowed = false ∧
      (checkAny store now user features orgs).reason =
        mostInformative (reasons store now user orgs features) := by
  obtain ⟨hallowed, hreason⟩ := @checkAnyFrom_of_not_mem store now user orgs features
    { allowed := false, reason := .no_entitlement } h rfl le_rfl
  refine ⟨hallowed, hreason.trans (foldl_max_eq_mostInformative (fun r hr heq => ?_))⟩
  exact h (heq ▸ hr)

/-! ## In any order -/

theorem mem_reasons_iff : Reason.granted ∈ reasons store now user orgs features ↔
    ∃ feature ∈ features, ∃ e, Covers store now user orgs feature e := by
  unfold reasons reasonsFor Covers
  rw [List.mem_flatMap]
  refine exists_congr (fun feature => and_congr_right (fun _ => ?_))
  rw [List.mem_append, List.mem_map, List.mem_map]
  have hseat : ∀ e : Entitlement, coveredBySeat (heldSeats (store.seatsFor user)) e = true ↔
      (e.sourceKind = .seat →
        ∃ s ∈ store.seatsFor user, s.releasedAt = none ∧ s.entitlementId = e.id) := by
    intro e
    unfold coveredBySeat heldSeats
    rw [decide_eq_true_iff, List.mem_map, ← imp_iff_not_or]
    refine imp_congr_right (fun _ => exists_congr (fun s => ?_))
    rw [List.mem_filter, decide_eq_true_iff, and_assoc]
  constructor
  · rintro (⟨e, he, hgranted⟩ | ⟨e, he, hgranted⟩)
    · exact ⟨e, (reasonOf_eq_granted.1 hgranted).1, .inl he⟩
    · obtain ⟨hlive, hcovers⟩ := reasonOf_eq_granted.1 hgranted
      split at he
      · cases he
      · rename_i hnone
        exact ⟨e, hlive, .inr ⟨hnone, he, (hseat e).1 hcovers⟩⟩
  · rintro ⟨e, hlive, he | ⟨hnone, he, hcovers⟩⟩
    · exact .inl ⟨e, he, reasonOf_eq_granted.2 ⟨hlive, rfl⟩⟩
    · rw [if_neg hnone]
      exact .inr ⟨e, he, reasonOf_eq_granted.2 ⟨hlive, (hseat e).2 hcovers⟩⟩

theorem reasonsFor_perm (h : Reordered store store' user orgs) (feature : String) :
    (reasonsFor store' now user orgs feature).Perm (reasonsFor store now user orgs feature) := by
  have hheld : (heldSeats (store'.seatsFor user)).Perm (heldSeats (store.seatsFor user)) :=
    (h.seatsFor.filter _).map _
  have hcovers : coveredBySeat (heldSeats (store'.seatsFor user)) =
      coveredBySeat (heldSeats (store.seatsFor user)) := by
    funext e
    exact decide_eq_decide.2 (or_congr Iff.rfl hheld.mem_iff)
  unfold reasonsFor
  rw [hcovers]
  refine ((h.forUser feature).map _).append (List.Perm.map _ ?_)
  split
  · exact List.Perm.refl _
  · exact h.forOrgs feature

theorem reasons_perm (now : Time) (h : Reordered store store' user orgs)
    (hfeatures : features'.Perm features) :
    (reasons store' now user orgs features').Perm (reasons store now user orgs features) := by
  unfold reasons
  refine (hfeatures.flatMap_right _).trans ?_
  exact List.Perm.flatMap_left _ (fun feature _ => reasonsFor_perm h feature)

theorem mostInformative_perm {rs rs' : List Reason} (h : rs'.Perm rs)
    (hdenied : ∀ r ∈ rs, r ≠ .granted) : mostInformative rs' = mostInformative rs := by
  rw [← foldl_max_eq_mostInformative hdenied,
    ← foldl_max_eq_mostInformative (fun r hr => hdenied r (h.mem_iff.1 hr)), foldl_max_perm h]

end

/-- A bundle is allowed by any row that covers the user and else denied for the most informative
reason of its rows, in whatever order the rows and the features come. -/
theorem check_any_free_of_order (store : EntitlementStore) (now : Time) (user : ℕ)
    (orgs : List ℕ) (features : List String) :
    ((checkAny store now user features orgs).allowed = true ↔
      ∃ feature ∈ features, ∃ e, Covers store now user orgs feature e) ∧
    ((checkAny store now user features orgs).allowed = false →
      (checkAny store now user features orgs).reason =
        mostInformative (reasons store now user orgs features)) ∧
    ∀ store' features', Reordered store store' user orgs → features'.Perm features →
      (checkAny store' now user features' orgs).allowed =
        (checkAny store now user features orgs).allowed ∧
      (checkAny store' now user features' orgs).reason =
        (checkAny store now user features orgs).reason := by
  rw [← mem_reasons_iff]
  by_cases h : Reason.granted ∈ reasons store now user orgs features
  · obtain ⟨hallowed, hreason⟩ := checkAny_of_mem h
    refine ⟨iff_of_true hallowed h, fun hnot => ?_, fun store' features' hstore hfeatures => ?_⟩
    · rw [hallowed] at hnot
      cases hnot
    · have h' := (reasons_perm now hstore hfeatures).mem_iff.2 h
      obtain ⟨hallowed', hreason'⟩ := checkAny_of_mem h'
      exact ⟨hallowed'.trans hallowed.symm, hreason'.trans hreason.symm⟩
  · obtain ⟨hdenied, hreason⟩ := checkAny_of_not_mem h
    have hnot : ¬ (checkAny store now user features orgs).allowed = true := by
      rw [hdenied]
      exact Bool.false_ne_true
    refine ⟨iff_of_false hnot h, fun _ => hreason, fun store' features' hstore hfeatures => ?_⟩
    have hperm := reasons_perm now hstore hfeatures
    obtain ⟨hdenied', hreason'⟩ := checkAny_of_not_mem (fun h' => h (hperm.mem_iff.1 h'))
    refine ⟨hdenied'.trans hdenied.symm, ?_⟩
    rw [hreason, hreason']
    exact mostInformative_perm hperm (fun r hr heq => h (heq ▸ hr))

end IeltsHub.EntitlementBundles
