import IeltsHub.SlotBookings

set_option autoImplicit false

/-!
# The capacity of a slot

Over any run of bookings, cancellations, check-ins and matches: the seats of a slot are not
outnumbered, whoever has one may ask for it again, and one that is taken anew is taken afresh.
-/
namespace IeltsHub.SlotCapacity
open PyExc PyTime RowTable SpeakingMatching SpeakingPools SpeakingService GuardedRuns ReadCommitted
  SlotBookings

/-- As a booking counts, its user has no seat yet, or there is one free. As it commits, its user
has a seat, or those it counted as free have not all been taken, and the row it takes up again was
never checked in and never paired. -/
def Meets (s : Sys) (i : ℕ × Act) : Prop :=
  match (s.requests i.1).phase, i.2 with
  | .levelled a slot, .count =>
    holds s.store slot a.userId = true → taken s.store slot < slot.capacity
  | .seated slot _ row, .commit => holds s.store slot row.userId = true ∨
    taken s.store slot < slot.capacity ∧ row.checkedInAt = none ∧ row.pairId = none
  | _, _ => True

instance (s : Sys) (i : ℕ × Act) : Decidable (Meets s i) := by
  unfold Meets
  split <;> infer_instance

/-- Past the count a booking is made, unless the database fails. -/
inductive Served : Phase → Prop where
  | counted (a : Actor) (slot : Slot) (taken : ℕ) : Served (.counted a slot taken)
  | banded (a : Actor) (slot : Slot) (taken : ℕ) (band : Option ℚ) :
      Served (.banded a slot taken band)
  | seated (slot : Slot) (taken : ℕ) (row : Booking) : Served (.seated slot taken row)
  | booked (row : Booking) : Served (.done (.booking row))
  | crashed (e : PlatformErrors.Raised) : Served (.done (.crashed e))

/-- What is promised of a step of any of the requests, in a run that goes on to `v`. -/
structure Holds (s : Sys) (i : ℕ × Act) (t v : Sys) : Prop where
  within : ∀ slot ∈ t.store.slots.rows, taken t.store slot ≤ slot.capacity
  /-- Who has a seat as the seats are counted is not refused it. -/
  again : ∀ {a slot}, (s.requests i.1).phase = .levelled a slot → i.2 = .count →
    holds s.store slot a.userId = true → Served (v.requests i.1).phase
  /-- Where there was no live booking, the one that is made is neither checked in nor paired. -/
  anew : ∀ {slot n row}, (s.requests i.1).phase = .seated slot n row → i.2 = .commit →
    holds s.store slot row.userId = false → ∀ b, t.store.bookings.get? row.key = some b →
    b.checkedInAt = none ∧ b.pairId = none

/-! ## The invariant -/

def Placed (d : Pools) (slot : Slot) : Prop :=
  ∃ row ∈ d.slots.rows, row.id = slot.id ∧ row.capacity = slot.capacity

structure Within (d : Pools) : Prop where
  bound : ∀ slot ∈ d.slots.rows, taken d slot ≤ slot.capacity
  rooted : ∀ b ∈ d.bookings.rows, ∃ slot ∈ d.slots.rows, slot.id = b.slotId

def Fits (d : Pools) : Phase → Prop
  | .found _ slot | .agreed _ slot | .placed _ slot | .levelled _ slot => Placed d slot
  | .counted _ slot taken | .banded _ slot taken _ => Placed d slot ∧ taken < slot.capacity
  | .seated slot taken row => Placed d slot ∧ taken < slot.capacity ∧ row.slotId = slot.id ∧
    row.cancelledAt = none
  | _ => True

structure Inv (s : Sys) : Prop where
  within : Within s.store
  fits : ∀ r, Fits s.store (s.requests r).phase

variable {d d' : Pools} {s t v : Sys} {i : ℕ × Act} {slot : Slot} {p p' : Phase} {now : Time}

theorem fits_reads (h : Reads d p p') (hp : Fits d p) : Fits d p' := by
  cases h with
  | found a slot hrow => exact ⟨slot, hrow, rfl, rfl⟩
  | agreed | placed | levelled | banded => exact hp
  | counted a slot hroom => exact ⟨hp, hroom⟩
  | _ => exact trivial

theorem cancelledAt_upsert (d : Pools) (slot : Slot) (userId : ℕ) (band : Option ℚ) :
    (upsert d slot userId band).cancelledAt = none := by
  unfold upsert
  split <;> rfl

theorem fits_locks {keys : List Key} (h : Locks d p p' keys) (hp : Fits d p) : Fits d p' := by
  cases h with
  | seated a slot taken band =>
    have hkey := key_upsert d slot a.userId band
    exact ⟨hp.1, hp.2, congrArg Prod.fst hkey, cancelledAt_upsert d slot a.userId band⟩
  | _ => exact trivial

theorem Fits.mono (hplaced : ∀ slot, Placed d slot → Placed d' slot) (h : Fits d p) :
    Fits d' p := by
  cases p with
  | found | agreed | placed | levelled => exact hplaced _ h
  | counted | banded | seated => exact ⟨hplaced _ h.1, h.2⟩
  | _ => exact trivial

/-! ## Commits that take no seat -/

/-- Slots keep their capacity, a new one has nothing booked, and no seat is taken. -/
structure Calm (d d' : Pools) : Prop where
  placed : ∀ slot, Placed d slot → Placed d' slot
  opened : ∀ slot ∈ d'.slots.rows, Placed d slot ∨ ∀ row ∈ d.slots.rows, row.id ≠ slot.id
  rows : ∀ b ∈ d'.bookings.rows, ∃ x ∈ d.bookings.rows, x.slotId = b.slotId
  taken : ∀ slot, taken d' slot ≤ taken d slot

theorem placed_of_mem (h : slot ∈ d.slots.rows) : Placed d slot := ⟨slot, h, rfl, rfl⟩

theorem calm_same (hslots : d'.slots = d.slots) (hbookings : d'.bookings = d.bookings) :
    Calm d d' where
  placed slot h := by
    unfold Placed
    rw [hslots]
    exact h
  opened slot h := .inl (placed_of_mem (hslots ▸ h))
  rows b hb := ⟨b, hbookings ▸ hb, rfl⟩
  taken slot := by
    unfold taken
    rw [hbookings]

theorem Calm.trans {d'' : Pools} (h : Calm d d') (h' : Calm d' d'') : Calm d d'' where
  placed slot hslot := h'.placed slot (h.placed slot hslot)
  opened slot hslot := by
    rcases h'.opened slot hslot with ⟨row, hrow, hid, hcap⟩ | hnew
    · rcases h.opened row hrow with ⟨x, hx, hxid, hxcap⟩ | hnew
      · exact .inl ⟨x, hx, hxid.trans hid, hxcap.trans hcap⟩
      · exact .inr (fun x hx heq => hnew x hx (heq.trans hid.symm))
    · refine .inr (fun x hx heq => ?_)
      obtain ⟨row, hrow, hid, _⟩ := h.placed x (placed_of_mem hx)
      exact hnew row hrow (hid.trans heq)
  rows b hb := by
    obtain ⟨x, hx, hslot⟩ := h'.rows b hb
    obtain ⟨y, hy, hslot'⟩ := h.rows x hx
    exact ⟨y, hy, hslot'.trans hslot⟩
  taken slot := (h'.taken slot).trans (h.taken slot)

theorem calm_mapRows {f : Booking → Booking} {hf : ∀ b, (f b).key = b.key}
    (hlive : ∀ b, (f b).cancelledAt = none → b.cancelledAt = none) :
    Calm d { d with bookings := d.bookings.mapRows f hf } where
  placed _ h := h
  opened _ h := .inl (placed_of_mem h)
  rows b hb := by
    obtain ⟨x, hx, rfl⟩ := List.mem_map.1 hb
    exact ⟨x, hx, (congrArg Prod.fst (hf x)).symm⟩
  taken slot := by
    unfold SpeakingPools.taken Table.select Table.mapRows
    dsimp only
    rw [← List.countP_eq_length_filter, ← List.countP_eq_length_filter, List.countP_map]
    refine List.countP_mono_left (fun b _ hb => ?_)
    simp only [Function.comp_apply, decide_eq_true_eq] at hb ⊢
    exact ⟨(congrArg Prod.fst (hf b)).symm.trans hb.1, hlive b hb.2⟩

theorem calm_slots {f : Slot → Slot} {hf : ∀ s, (f s).id = s.id}
    (hcap : ∀ s, (f s).capacity = s.capacity) :
    Calm d { d with slots := d.slots.mapRows f hf } where
  placed slot := by
    rintro ⟨row, hrow, hid, hrowcap⟩
    exact ⟨f row, List.mem_map_of_mem hrow, (hf row).trans hid, (hcap row).trans hrowcap⟩
  opened slot h := by
    obtain ⟨row, hrow, rfl⟩ := List.mem_map.1 h
    exact .inl ⟨row, hrow, (hf row).symm, (hcap row).symm⟩
  rows b hb := ⟨b, hb, rfl⟩
  taken slot := le_rfl

theorem calm_put (hnew : d.slots.get? slot.id = none) :
    Calm d { d with slots := d.slots.put slot } where
  placed x := by
    rintro ⟨row, hrow, hid, hcap⟩
    exact ⟨row, Table.mem_put.2 (.inr ⟨hrow, Table.get?_eq_none.1 hnew row hrow⟩), hid, hcap⟩
  opened x hx := by
    rcases Table.mem_put.1 hx with rfl | ⟨hx, _⟩
    · exact .inr (fun row hrow => Table.get?_eq_none.1 hnew row hrow)
    · exact .inl (placed_of_mem hx)
  rows b hb := ⟨b, hb, rfl⟩
  taken x := le_rfl

theorem calm_landCancelled (d : Pools) (key : ℕ × ℕ) (now : Time) :
    Calm d (landCancelled d key now) := by
  refine calm_mapRows (fun b h => ?_)
  split at h
  · cases h
  · exact h

theorem calm_landChecked (d : Pools) (key : ℕ × ℕ) (now : Time) :
    Calm d (landChecked d key now) := by
  refine calm_mapRows (fun b h => ?_)
  split at h
  · exact h
  · exact h

theorem calm_createPair {pair : Pair} {origin : Origin} {slot : Option Slot} {id : ℕ}
    (h : createPair d pair origin slot now = .ok (d', id)) : Calm d d' := by
  unfold createPair at h
  rw [ite_throw_eq_ok] at h
  obtain ⟨_, _, h⟩ := bind_eq_ok.1 h.2
  obtain ⟨_, _, h⟩ := bind_eq_ok.1 h
  cases h
  exact calm_same rfl rfl

theorem calm_foldlM {origin : Origin} {slot : Option Slot} {seat : Pools → Pair → ℕ → Pools}
    (hseat : ∀ d pair id, Calm d (seat d pair id)) {pairs : List Pair}
    (h : pairs.foldlM (fun d pair => do
      let (d, pairId) ← createPair d pair origin slot now
      return seat d pair pairId) d = .ok d') : Calm d d' := by
  apply foldlM_invariant (Calm d) h (calm_same rfl rfl)
  intro d₁ hd₁ pair _ d₂ hstep
  obtain ⟨⟨d₃, id⟩, hcreate, hseated⟩ := bind_eq_ok.1 hstep
  cases hseated
  exact hd₁.trans ((calm_createPair hcreate).trans (hseat d₃ pair id))

theorem calm_seatBookings (d : Pools) (slot : Slot) (pair : Pair) (id : ℕ) :
    Calm d (seatBookings d slot pair id) := by
  refine calm_mapRows (fun b h => ?_)
  split at h
  · exact h
  · exact h

theorem calm_landMarked (d : Pools) (slot : Slot) (marked : List (ℕ × ℕ)) :
    Calm d (landMarked d slot marked) := by
  have hrows : Calm d { d with
      bookings := d.bookings.mapRows
        (fun b => if b.key ∈ marked then { b with noShow := true } else b)
        (fun b => by split <;> rfl) } := by
    refine calm_mapRows (fun b h => ?_)
    split at h
    · exact h
    · exact h
  refine hrows.trans (calm_slots (fun s => ?_))
  split <;> rfl

theorem calm_landMatch {pairs : List Pair} {marked : List (ℕ × ℕ)}
    (h : landMatch d slot now pairs marked = .ok d') : Calm d d' := by
  obtain ⟨d₁, hpairs, h⟩ := bind_eq_ok.1 h
  cases h
  exact (calm_foldlM (fun d pair id => calm_seatBookings d slot pair id) hpairs).trans
    (calm_landMarked d₁ slot marked)

/-! ## What happens beside bookings and matches -/

theorem calm_createSlot {a : Actor} {body : SlotCreate} {xid : String}
    (h : createSlot d a body xid = .ok d') : Calm d d' := by
  unfold createSlot at h
  simp only [ite_throw_eq_ok] at h
  obtain ⟨_, _, h⟩ := h
  split at h
  · rw [ite_throw_eq_ok] at h
    obtain ⟨_, _, h⟩ := bind_eq_ok.1 h.2
    cases h
    exact calm_put (Table.get?_nextId d.slots)
  · obtain ⟨_, _, h⟩ := bind_eq_ok.1 h
    cases h
    exact calm_put (Table.get?_nextId d.slots)

theorem calm_perform {a : Actor} {call : SpeakingService.Call} {userId : ℕ}
    (hapart : aside (.request userId call now) = true) (h : perform d a now call = .ok d') :
    Calm d d' := by
  cases call with
  | createSlot body xid => exact calm_createSlot h
  | bookSlot xid => cases hapart
  | cancelBooking xid => cases hapart
  | checkIn xid => cases hapart
  | joinQueue body =>
    obtain ⟨_, rfl⟩ := joinQueue_eq_ok.1 h
    exact calm_same rfl rfl
  | leaveQueue =>
    cases h
    exact calm_same rfl rfl
  | recordConsent body =>
    obtain ⟨_, rfl⟩ := recordConsent_eq_ok.1 h
    exact calm_same rfl rfl
  | revokeConsent kind =>
    change revokeConsent d a kind now = .ok d' at h
    unfold revokeConsent at h
    split at h
    · cases h
    · cases h
      exact calm_same rfl rfl
  | createBlock xid =>
    change createBlock d a xid = .ok d' at h
    unfold createBlock at h
    split at h
    · cases h
    · split at h
      · cases h
      · split at h
        · cases h
          exact calm_same rfl rfl
        · cases h
          exact calm_same rfl rfl
  | removeBlock xid =>
    cases h
    exact calm_same rfl rfl
  | suspend xid =>
    change suspend d a xid = .ok d' at h
    unfold suspend at h
    split at h
    · cases h
    · split at h
      · cases h
      · cases h
        exact calm_same rfl rfl
  | closeAccount xid =>
    change closeAccount d a xid now = .ok d' at h
    unfold closeAccount at h
    split at h
    · cases h
    · split at h
      · cases h
      · cases h
        exact calm_same rfl rfl

theorem calm_matchQueue (h : matchQueue d now = .ok d') : Calm d d' := by
  unfold matchQueue at h
  dsimp only at h
  have hexpire : Calm d (expire d now) := calm_same rfl rfl
  split at h
  · cases h
    exact hexpire
  · obtain ⟨_, _, h⟩ := bind_eq_ok.1 h
    have hseat : ∀ rows d pair id, Calm d (seatEntries d rows pair id now) :=
      fun _ _ _ _ => calm_same rfl rfl
    exact hexpire.trans (calm_foldlM (hseat _) h)

theorem calm_execute {e : Event} (h : aside e = true) : Calm d (execute d e) := by
  cases e with
  | request userId call now =>
    cases hanswer : answer d userId call now with
    | ok d' =>
      rw [execute_of_ok hanswer]
      obtain ⟨a, _, hperform⟩ := bind_eq_ok.1 hanswer
      exact calm_perform h hperform
    | error refusal =>
      rw [execute_of_error hanswer]
      exact calm_same rfl rfl
  | matchSlot slotId now => cases h
  | matchQueue now =>
    unfold execute
    dsimp only
    split
    · next d' hrun => exact calm_matchQueue hrun
    · exact calm_same rfl rfl
  | register u => exact calm_same rfl rfl
  | edit around => exact calm_same rfl rfl

theorem writes_cases {a : Answer} (h : Writes d p d' a) :
    (∃ slot taken row, p = .seated slot taken row ∧
      d' = landBooked d row) ∨ Calm d d' := by
  cases h with
  | booked slot taken row => exact .inl ⟨slot, taken, row, rfl, rfl⟩
  | unchanged => exact .inr (calm_same rfl rfl)
  | cancelled key now => exact .inr (calm_landCancelled d key now)
  | checked row now => exact .inr (calm_landChecked d row.key now)
  | live slot now pairs seats marked d' hlanded => exact .inr (calm_landMatch hlanded)
  | other e hapart => exact .inr (calm_execute hapart)

/-! ## The booking that commits -/

section
variable {ρ κ : Type} {key : ρ → κ} [DecidableEq κ]

theorem countP_putRow (q : ρ → Bool) (r : ρ) (xs : List ρ) :
    (putRow key r xs).countP q + (if (xs.find? (fun x => key x = key r)).any q then 1 else 0) =
      xs.countP q + if q r then 1 else 0 := by
  induction xs with
  | nil => simp [putRow, List.countP_cons]
  | cons x xs ih =>
    by_cases h : key x = key r
    · simp only [putRow, h, if_true, List.countP_cons, decide_true, List.find?_cons_of_pos,
        Option.any_some]
      omega
    · simp only [putRow, h, if_false, List.countP_cons, decide_false, Bool.false_eq_true,
        not_false_eq_true, List.find?_cons_of_neg]
      omega

end

theorem taken_congr {slot' : Slot} (h : slot.id = slot'.id) : taken d slot = taken d slot' := by
  unfold taken
  rw [h]

theorem holds_eq {row : Booking} (hslot : row.slotId = slot.id) : holds d slot row.userId =
    (d.bookings.get? row.key).any (fun b => b.slotId = slot.id ∧ b.cancelledAt = none) := by
  have hkey : row.key = (slot.id, row.userId) := by
    rw [← hslot]
    rfl
  unfold holds liveRow
  rw [hkey]
  cases hx : d.bookings.get? (slot.id, row.userId) with
  | none => rfl
  | some x =>
    have hx : x.key = (slot.id, row.userId) := Table.get?_key hx
    have hid : x.slotId = slot.id := congrArg Prod.fst hx
    by_cases h : x.cancelledAt = none <;> simp [hid, h, Option.filter]

theorem taken_put {row : Booking} (hlive : row.cancelledAt = none) (hslot : row.slotId = slot.id) :
    taken (landBooked d row) slot +
      (if holds d slot row.userId then 1 else 0) = taken d slot + 1 := by
  have hcount := @countP_putRow _ _ Booking.key _
    (fun b => b.slotId = slot.id ∧ b.cancelledAt = none) row d.bookings.rows
  have hseat : decide (row.slotId = slot.id ∧ row.cancelledAt = none) = true :=
    decide_eq_true ⟨hslot, hlive⟩
  rw [hseat, if_pos rfl] at hcount
  unfold taken
  rw [holds_eq hslot, Table.select, Table.select, ← List.countP_eq_length_filter,
    ← List.countP_eq_length_filter]
  exact hcount

theorem taken_put_of_ne {row : Booking} (hslot : row.slotId ≠ slot.id) :
    taken (landBooked d row) slot = taken d slot := by
  unfold taken
  refine congrArg List.length (Table.select_put ?_ (fun x hx => ?_))
  · simp [hslot]
  · have hkey : x.key = row.key := Table.get?_key hx
    have hx : x.slotId = row.slotId := congrArg Prod.fst hkey
    simp [hx, hslot]

/-! ## What a step keeps -/

theorem Within.calm (hd : Within d) (h : Calm d d') : Within d' where
  bound slot hslot := by
    rcases h.opened slot hslot with ⟨row, hrow, hid, hcap⟩ | hnew
    · have hbound := hd.bound row hrow
      have hle := h.taken slot
      rw [taken_congr hid] at hbound
      omega
    · have hnone : taken d slot = 0 := by
        unfold taken
        rw [List.length_eq_zero_iff]
        refine List.filter_eq_nil_iff.2 (fun b hb hin => ?_)
        obtain ⟨row, hrow, hid⟩ := hd.rooted b hb
        simp only [decide_eq_true_eq] at hin
        exact hnew row hrow (hid.trans hin.1)
      have hle := h.taken slot
      omega
  rooted b hb := by
    obtain ⟨x, hx, hslot⟩ := h.rows b hb
    obtain ⟨row, hrow, hid⟩ := hd.rooted x hx
    obtain ⟨row', hrow', hid', _⟩ := h.placed row (placed_of_mem hrow)
    exact ⟨row', hrow', (hid'.trans hid).trans hslot⟩

theorem Within.put (hd : Within d) {row : Booking} (hplaced : Placed d slot)
    (hslot : row.slotId = slot.id) (hlive : row.cancelledAt = none)
    (hroom : holds d slot row.userId = true ∨ taken d slot < slot.capacity) :
    Within (landBooked d row) where
  bound x hx := by
    have hbound := hd.bound x hx
    by_cases hid : row.slotId = x.id
    · have hput := taken_put (d := d) hlive hid
      obtain ⟨y, hy, hyid, hycap⟩ := hplaced
      have hsame : x = y := by
        have hids : x.id = y.id := by rw [hyid, ← hslot, hid]
        exact List.inj_on_of_nodup_map d.slots.nodup hx hy hids
      rw [← hsame] at hyid hycap
      have hholds : holds d x row.userId = holds d slot row.userId := by
        unfold holds
        rw [hyid]
      rw [← taken_congr hyid, ← hycap, ← hholds] at hroom
      rcases hroom with hroom | hroom
      · rw [if_pos hroom] at hput
        omega
      · split at hput <;> omega
    · rw [taken_put_of_ne hid]
      exact hbound
  rooted b hb := by
    rcases Table.mem_put.1 hb with rfl | ⟨hb, _⟩
    · obtain ⟨y, hy, hyid, _⟩ := hplaced
      exact ⟨y, hy, hyid.trans hslot.symm⟩
    · exact hd.rooted b hb

theorem fits_next {q : Request} {act : Act} {m : Move Pools Key Request}
    (h : next d q act = some m) (hq : Fits d q.phase) : Fits d m.phase.phase := by
  cases next_cases h with
  | refused act a => exact trivial
  | reads act p hp => exact fits_reads hp hq
  | locks act p keys hp => exact fits_locks hp hq
  | commits d' a hp => exact trivial

theorem within_commit {q q' : Request} {act : Act} (hd : Within d) (hq : Fits d q.phase)
    (hroom : ∀ slot n row, q.phase = .seated slot n row → act = .commit →
      holds d slot row.userId = true ∨ taken d slot < slot.capacity)
    (h : next d q act = some (.commits d' q')) :
    Within d' ∧ ∀ slot, Placed d slot → Placed d' slot := by
  cases next_cases h with
  | commits d' a hp =>
    rcases writes_cases hp with ⟨slot, n, row, hphase, rfl⟩ | hcalm
    · rw [hphase] at hq
      have hroom := hroom slot n row hphase rfl
      exact ⟨hd.put hq.1 hq.2.2.1 hq.2.2.2 hroom, fun _ hplaced => hplaced⟩
    · exact ⟨hd.calm hcalm, hcalm.placed⟩

theorem room_of_meets (hg : Meets s i) {slot : Slot} {n : ℕ} {row : Booking}
    (hphase : (s.requests i.1).phase = .seated slot n row) (hact : i.2 = .commit) :
    holds s.store slot row.userId = true ∨ taken s.store slot < slot.capacity := by
  unfold Meets at hg
  rw [hphase, hact] at hg
  exact hg.imp_right And.left

theorem within_step (hs : Inv s) (hg : Meets s i) (h : Step program s i t) :
    Within t.store ∧ ∀ slot, Placed s.store slot → Placed t.store slot := by
  refine database_step h ⟨hs.within, fun _ hplaced => hplaced⟩ (fun d p hnext => ?_)
  exact within_commit hs.within (hs.fits i.1) (fun _ _ _ => room_of_meets hg) hnext

theorem inv_step (hs : Inv s) (hg : Meets s i) (h : Step program s i t) : Inv t := by
  obtain ⟨hwithin, hplaced⟩ := within_step hs hg h
  have hfits : ∀ r, Fits s.store (t.requests r).phase := fun r =>
    phase_step (C := fun q => Fits s.store q.phase) h (hs.fits r)
      (fun _ _ hnext => fits_next hnext (hs.fits r))
  exact ⟨hwithin, fun r => (hfits r).mono hplaced⟩

theorem inv_start (d : Pools) (calls : ℕ → SlotBookings.Call) : Inv (start d calls) where
  within := ⟨fun _ _ => Nat.zero_le _, fun _ hb => by cases hb⟩
  fits _ := trivial

theorem inv_runs {is : List (ℕ × Act)} (hs : Inv s) (hrun : Runs (Step program) Meets s is t) :
    Inv t := hrun.invariant (fun _ _ _ hs hg hi => inv_step hs hg hi) hs

theorem served_next {q : Request} {act : Act} {m : Move Pools Key Request} (h : Served q.phase)
    (hnext : next d q act = some m) : Served m.phase.phase := by
  obtain ⟨call, phase⟩ := q
  cases h with
  | counted a slot taken => cases act <;> cases hnext <;> constructor
  | banded a slot taken band => cases act <;> cases hnext <;> constructor
  | seated slot taken row => cases act <;> cases hnext <;> constructor
  | booked row => cases hnext
  | crashed e => cases hnext

/-! ## What a step promises -/

theorem next_count {a : Actor} (hphase : (s.requests i.1).phase = .levelled a slot)
    (hact : i.2 = .count) : next s.store (s.requests i.1) i.2 =
      some (readTo (s.requests i.1) (count s.store a slot)) := by
  unfold next
  rw [hphase, hact]

theorem next_seated {n : ℕ} {row : Booking} (hphase : (s.requests i.1).phase = .seated slot n row)
    (hact : i.2 = .commit) : next s.store (s.requests i.1) i.2 =
      some (.commits (landBooked s.store row)
        { s.requests i.1 with phase := .done (.booking row) }) := by
  unfold next
  rw [hphase, hact]

theorem served_runs {r : ℕ} {js : List (ℕ × Act)} (hrun : Any (Step program) t js v)
    (h : Served (t.requests r).phase) : Served (v.requests r).phase :=
  hrun.invariant (I := fun u => Served (u.requests r).phase)
    (fun _ _ _ hs _ hi => phase_step (C := fun q => Served q.phase) hi hs
      (fun _ _ hnext => served_next hs hnext)) h

theorem holds_of_meets {js : List (ℕ × Act)} (hs : Inv s) (hg : Meets s i)
    (h : Step program s i t) (hrun : Any (Step program) t js v) : Holds s i t v where
  within := (inv_step hs hg h).within.bound
  again := by
    intro a slot hphase hact hholds
    have hroom : taken s.store slot < slot.capacity := by
      unfold Meets at hg
      rw [hphase, hact] at hg
      exact hg hholds
    refine served_runs hrun ?_
    have hcount : count s.store a slot = .ok (.counted a slot (taken s.store slot)) :=
      if_neg (not_le.2 hroom)
    rw [(moved_of_next h (next_count hphase hact)).1, hcount]
    exact .counted _ _ _
  anew := by
    intro slot n row hphase hact hholds b hb
    have hrow : (landBooked s.store row).bookings.get? row.key = some row := Table.get?_put_self _ _
    rw [store_of_next h (next_seated hphase hact), hrow] at hb
    cases hb
    unfold Meets at hg
    rw [hphase, hact] at hg
    rcases hg with hg | hg
    · rw [hholds] at hg
      cases hg
    · exact hg.2

theorem meets_of_holds (hs : Inv s) (h : Step program s i t) (hh : Holds s i t t) : Meets s i := by
  unfold Meets
  split
  · next a slot hphase hact =>
    intro hholds
    by_contra hfull
    have hserved := hh.again hphase hact hholds
    have hcount : count s.store a slot = .error slotFull := if_pos (not_lt.1 hfull)
    rw [(moved_of_next h (next_count hphase hact)).1, hcount] at hserved
    cases hserved
  · next slot n row hphase hact =>
    by_cases hholds : holds s.store slot row.userId = true
    · exact .inl hholds
    · have hstore := store_of_next h (next_seated hphase hact)
      have hget : t.store.bookings.get? row.key = some row := by
        rw [hstore]
        exact Table.get?_put_self _ _
      refine .inr ⟨?_, hh.anew hphase hact (by simpa using hholds) row hget⟩
      by_contra hfull
      have hfits := hs.fits i.1
      rw [hphase] at hfits
      obtain ⟨⟨y, hy, hyid, hycap⟩, _, hslot, hlive⟩ := hfits
      have hput := taken_put (d := s.store) hlive hslot
      rw [if_neg hholds] at hput
      have hbound := hh.within y (by rw [hstore]; exact hy)
      rw [taken_congr hyid, hstore, hycap] at hbound
      omega
  · trivial

/-- In a run within the guard a further step is within it exactly where it and all that follows
does what is promised of it. -/
theorem seats_promised (d : Pools) (calls : ℕ → SlotBookings.Call) {is : List (ℕ × Act)}
    (hrun : Runs (Step program) Meets (start d calls) is s) (h : Step program s i t) :
    Meets s i ↔ ∀ js v, Any (Step program) t js v → Holds s i t v := by
  have hs := inv_runs (inv_start d calls) hrun
  constructor
  · exact fun hg js v hlater => holds_of_meets hs hg h hlater
  · exact fun hall => meets_of_holds hs h (hall [] t (.refl t))

/-! ## Three ways out of the guard -/

def samplePools : Pools where
  users := ⟨[{ id := 1, xid := "u1", adultAt := 0 }, { id := 2, xid := "u2", adultAt := 0 }],
    by decide⟩
  slots := SlotBookings.onePlace.slots

def sampleCalls : ℕ → SlotBookings.Call
  | 0 => .request 1 .book "s1"
  | 1 => .request 2 .book "s1"
  | 2 => .request 1 .book "s1"
  | 3 => .request 1 .checkIn "s1"
  | _ => .request 1 .cancel "s1"

def sample : Sys := start samplePools sampleCalls

def steps (r : ℕ) (acts : List Act) : List (ℕ × Act) := acts.map (fun act => (r, act))

def untilCount : List Act := [.enter 0, .find 0, .consent, .supervise, .level]

def fromCount : List Act := [.count, .band, .upsert]

def booking (r : ℕ) : List (ℕ × Act) := steps r (untilCount ++ fromCount) ++ [(r, .commit)]

def changing (r : ℕ) : List (ℕ × Act) := steps r [.enter 0, .find 0, .change 0, .commit]

/-- The step is taken, and what is promised of it does not hold. -/
def Breaks (is : List (ℕ × Act)) (i : ℕ × Act) : Prop :=
  ∃ s t, Any (Step program) sample is s ∧ Step program s i t ∧ ¬ Holds s i t t

theorem breaks_of_follow {is : List (ℕ × Act)} (h : ((follow (step program) Meets is sample).bind
    (fun s => if Meets s i then none else step program s i)).isSome = true) : Breaks is i := by
  obtain ⟨t, ht⟩ := Option.isSome_iff_exists.1 h
  obtain ⟨s, hs, hstep⟩ := Option.bind_eq_some_iff.1 ht
  split at hstep
  · cases hstep
  · next hg =>
    have hrun := runs_of_follow hs
    have hs := inv_runs (inv_start samplePools sampleCalls) hrun
    refine ⟨s, t, ?_, hstep, fun hh => hg (meets_of_holds hs hstep hh)⟩
    exact hrun.guarded (I := fun _ => True) (fun _ _ _ _ _ _ => ⟨trivial, trivial⟩) trivial

theorem seats_promised_once : ∃ s t, Runs (Step program) Meets sample
      (steps 0 (untilCount ++ fromCount)) s ∧ Step program s (0, .commit) t ∧
    (Meets s (0, .commit) ↔ ∀ js v, Any (Step program) t js v → Holds s (0, .commit) t v) := by
  have h : ((follow (step program) Meets (steps 0 (untilCount ++ fromCount)) sample).bind
      (fun s => step program s (0, .commit))).isSome = true := by decide +kernel
  obtain ⟨t, ht⟩ := Option.isSome_iff_exists.1 h
  obtain ⟨s, hs, hstep⟩ := Option.bind_eq_some_iff.1 ht
  have hrun := runs_of_follow hs
  exact ⟨s, t, hrun, hstep, seats_promised samplePools sampleCalls hrun hstep⟩

/-- Two students count the one free seat; a student with a seat asks again; a student who checked
in and cancelled books again. -/
theorem seats_not_kept :
    Breaks (steps 0 (untilCount ++ fromCount) ++ booking 1) (0, .commit) ∧
    Breaks (booking 0 ++ steps 2 untilCount) (2, .count) ∧
    Breaks (booking 0 ++ changing 3 ++ changing 4 ++ steps 2 (untilCount ++ fromCount))
      (2, .commit) :=
  ⟨breaks_of_follow (by decide +kernel), breaks_of_follow (by decide +kernel),
    breaks_of_follow (by decide +kernel)⟩

end IeltsHub.SlotCapacity
