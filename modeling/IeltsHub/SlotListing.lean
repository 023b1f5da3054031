import IeltsHub.ConsentGates
import IeltsHub.PairSafety

set_option autoImplicit false

/-!
# The session list and the booking

`list_slots` picks by age, level, status and audience. A booking asks for age, level and status
again; for the audience it asks of a supervised session only, and there lets its creator in.
-/
namespace IeltsHub.SlotListing
open PyTime RowTable SpeakingPools SpeakingService ConsentGates

def audienceValue : Audience → String
  | .public_ => "public"
  | .org => "org"
  | .cohort => "cohort"

/-- `list(actor.org_ids) or [0]`. -/
def orgsOf (a : Actor) : List ℕ := if a.orgIds = [] then [0] else a.orgIds

def audienceClause (d : Pools) (a : Actor) (slot : Slot) : Bool :=
  slot.audience = .public_ ∨
    (slot.audience = .org ∧ slot.orgId.any (fun org => org ∈ orgsOf a)) ∨
    (slot.audience = .cohort ∧ inClass d slot a.userId)

def levelClause (slot : Slot) (band : Option ℚ) : Bool :=
  match band with
  | none => true
  | some band =>
    (slot.bandMin = none ∨ slot.bandMin.any (fun low => low ≤ band)) ∧
      (slot.bandMax = none ∨ slot.bandMax.any (fun high => high ≥ band))

def slotsFound (d : Pools) (a : Actor) (since : Time) (audience : Option String) : List Slot :=
  (d.slots.select (fun s => s.ageBand ∈ permittedBands a ∧ s.startsAt ≥ since ∧
    (s.status = .scheduled ∨ s.status = .booking) ∧
    levelClause s (d.around.bands a.userId) ∧ audienceClause d a s ∧
    (audience.filter (fun text => text ≠ "")).all (fun text => audienceValue s.audience = text)
    )).mergeSort (fun s t => s.startsAt ≤ t.startsAt)

def listSlots (d : Pools) (a : Actor) (now : Time) (from_ : Option Time)
    (audience : Option String) : List Slot :=
  (slotsFound d a (from_.getD now) audience).take 50

variable {d : Pools} {a : Actor} {slot : Slot} {now : Time} {xid : String}

theorem levelClause_eq (slot : Slot) (band : Option ℚ) :
    levelClause slot band = bandFits slot band := by
  cases band with
  | none => rfl
  | some band =>
    unfold levelClause bandFits
    cases slot.bandMin <;> cases slot.bandMax <;> simp

/-! ## What each of the two asks for -/

/-- What a booking asks for, capacity and a parent's consent left aside. -/
structure Welcome (d : Pools) (a : Actor) (slot : Slot) : Prop where
  band : slot.ageBand ∈ permittedBands a
  supervised : slot.ageBand = .mixedSupervised →
    inClass d slot a.userId = true ∨ slot.createdBy = a.userId
  level : bandFits slot (d.around.bands a.userId) = true
  opened : slot.status = .scheduled ∨ slot.status = .booking

def Consented (d : Pools) (a : Actor) (slot : Slot) : Prop :=
  a.isMinor → slot.audience = .public_ → 0 < (liveConsents d a.userId).length

theorem bookAdmits_iff_welcome (hslot : slotByXid d xid = .ok slot) : BookAdmits d a xid ↔
    Welcome d a slot ∧ Consented d a slot ∧ taken d slot < slot.capacity := by
  unfold BookAdmits
  simp only [bookSlot_eq_ok]
  constructor
  · rintro ⟨_, slot', hslot', hbook, _⟩
    rw [hslot] at hslot'
    cases hslot'
    exact ⟨⟨hbook.band, hbook.supervised, hbook.level, hbook.opened⟩, hbook.consent, hbook.room⟩
  · rintro ⟨hwelcome, hconsent, hroom⟩
    exact ⟨_, slot, hslot, ⟨hwelcome.band, hconsent, hwelcome.supervised, hwelcome.level,
      hwelcome.opened, hroom⟩, rfl⟩

/-- What both ask for. -/
structure Suits (d : Pools) (a : Actor) (slot : Slot) : Prop where
  band : slot.ageBand ∈ permittedBands a
  level : bandFits slot (d.around.bands a.userId) = true
  opened : slot.status = .scheduled ∨ slot.status = .booking

theorem welcome_iff : Welcome d a slot ↔ Suits d a slot ∧ (slot.ageBand = .mixedSupervised →
    inClass d slot a.userId = true ∨ slot.createdBy = a.userId) := by
  constructor
  · intro h
    exact ⟨⟨h.band, h.level, h.opened⟩, h.supervised⟩
  · rintro ⟨h, hsupervised⟩
    exact ⟨h.band, hsupervised, h.level, h.opened⟩

theorem mem_slotsFound (hslot : slot ∈ d.slots.rows) (hnow : now ≤ slot.startsAt) :
    slot ∈ slotsFound d a now none ↔ Suits d a slot ∧ audienceClause d a slot = true := by
  unfold slotsFound Table.select
  rw [List.mem_mergeSort, List.mem_filter, decide_eq_true_eq, levelClause_eq]
  constructor
  · rintro ⟨_, hband, _, hopen, hlevel, haudience, _⟩
    exact ⟨⟨hband, hlevel, hopen⟩, haudience⟩
  · rintro ⟨h, haudience⟩
    exact ⟨hslot, h.band, hnow, h.opened, h.level, haudience, rfl⟩

/-- An ordinary session is offered to the user; a supervised one is offered exactly where the user
is in its class or has created it. -/
def Offered (d : Pools) (a : Actor) (slot : Slot) : Prop :=
  if slot.ageBand = .mixedSupervised then
    audienceClause d a slot = true ↔ inClass d slot a.userId = true ∨ slot.createdBy = a.userId
  else audienceClause d a slot = true

/-- Before a slot starts: a booking is taken where the user is welcome, consented and there is
room; and being welcome is being on the list exactly where the slot is shut to the user anyway or
its audience is what the booking asks for. -/
theorem bookable_when_listed (d : Pools) (a : Actor) (xid : String) (slot : Slot)
    (hslot : slotByXid d xid = .ok slot) (now : Time) (hbefore : now < slot.startsAt) :
    (BookAdmits d a xid ↔ Welcome d a slot ∧ Consented d a slot ∧ taken d slot < slot.capacity) ∧
    ((Welcome d a slot ↔ slot ∈ slotsFound d a now none) ↔
      (Suits d a slot → Offered d a slot)) := by
  refine ⟨bookAdmits_iff_welcome hslot, ?_⟩
  have hrow : slot ∈ d.slots.rows := by
    unfold slotByXid at hslot
    split at hslot
    · cases hslot
    · next found hfound =>
      cases hslot
      exact List.mem_of_find?_eq_some hfound
  rw [welcome_iff, mem_slotsFound hrow hbefore.le]
  unfold Offered
  by_cases hsuits : Suits d a slot
  · simp only [hsuits, true_and, forall_const]
    split
    · next hmixed =>
      simp only [hmixed, forall_const]
      exact iff_comm
    · next hplain =>
      simp only [hplain, false_implies, true_iff]
  · simp [hsuits]

/-! ## A centre's session -/

def guest : Actor where
  userId := 2
  isMinor := false
  orgIds := []
  roles := []
  isPlatformAdmin := false

def publicSession : Slot where
  id := 1
  xid := "evening"
  orgId := none
  startsAt := 1000000000
  status := .booking
  createdBy := 1

theorem bookable_when_listed_public :
    Welcome PairSafety.evening guest publicSession ↔
      publicSession ∈ slotsFound PairSafety.evening guest 5 none :=
  (bookable_when_listed PairSafety.evening guest "evening" publicSession rfl 5 (by decide)).2.2
    (fun _ => (if_neg (by decide)).mpr (by decide))

def centreSession : Slot := { publicSession with orgId := some 7, audience := .org }

def centreEvening : Pools := { PairSafety.evening with slots := Table.empty.put centreSession }

/-- Somebody of no centre books a centre's session by its xid. -/
theorem stranger_books : ∃ d a xid slot now, slotByXid d xid = .ok slot ∧ now < slot.startsAt ∧
    BookAdmits d a xid ∧ slot ∉ slotsFound d a now none := by
  refine ⟨centreEvening, guest, "evening", centreSession, 5, rfl, by decide, ⟨_, rfl⟩, ?_⟩
  rw [mem_slotsFound (by exact List.mem_cons_self) (by decide)]
  rintro ⟨_, haudience⟩
  exact absurd haudience (by decide)

end IeltsHub.SlotListing
