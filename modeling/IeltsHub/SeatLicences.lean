import IeltsHub.SeatRequests

set_option autoImplicit false

/-!
# The seats of a licence

Over any run of assignments and releases: no licence has more holders than seats, a request is taken
exactly where its users fit beside the holders, and those are the holders after it.
-/
namespace IeltsHub.SeatLicences
open PyTime PlatformRefusals RowTable GuardedRuns ReadCommitted BillingModels SeatRequests
open AuthzPolicy (Principal)

def union (d : Office) (licence : ℕ) (users : List ℕ) : List ℕ :=
  holders d licence ++ users.filter (fun u => u ∉ holders d licence)

def fit (licence : Entitlement) (n : ℕ) : Bool := n = 0 ∨ bounded licence n

def provided (d : Office) (licence : ℕ) (writes : List SeatAssignment) (user : ℕ) : Bool :=
  user ∈ holders d licence ∨ user ∈ writes.map SeatAssignment.userId

/-- At the check: where the users fit beside the holders, they also fit counted apart from them. At
an INSERT nobody else has written the row. At the commit the users fit, and nobody who was passed
over has lost the seat. -/
def meets (s : Sys) (i : ℕ × Act) : Bool :=
  match (s.requests i.1).phase, (s.requests i.1).call, i.2 with
  | .counted _ org licence n, .request _ _ (.assign xids), .members =>
    let users := members s.store org xids
    (users.length = xids.dedup.length ∧ bounded licence (union s.store licence.id users).length) →
      bounded licence (n + users.length)
  | .writing _ _ _ row true, _, .flush _ => s.store.seats.get? row.key = none
  | .seated k writes _, _, .commit =>
    fit k.licence (union s.store k.licence.id k.users).length ∧
      k.users.all (provided s.store k.licence.id writes)
  | _, _, _ => true

abbrev Meets (s : Sys) (i : ℕ × Act) : Prop := meets s i = true

/-- Past the check a request is on its way, unless the database fails. -/
inductive Accepted : Phase → Prop where
  | seating (k : Intake) (todo : List ℕ) (writes : List SeatAssignment) :
      Accepted (.seating k todo writes)
  | writing (k : Intake) (todo : List ℕ) (writes : List SeatAssignment) (row : SeatAssignment)
      (fresh : Bool) : Accepted (.writing k todo writes row fresh)
  | seated (k : Intake) (writes : List SeatAssignment) (m : Summary) :
      Accepted (.seated k writes m)
  | seats (m : Summary) : Accepted (.done (.seats m))

/-- What is promised of a step of any of the requests. -/
structure Holds (s : Sys) (i : ℕ × Act) (t : Sys) : Prop where
  within : ∀ licence ∈ t.store.licences.rows, fit licence (holders t.store licence.id).length = true
  /-- The check passes where the members asked for fit beside the holders. -/
  taken : ∀ {a org licence n u xid xids}, (s.requests i.1).phase = .counted a org licence n →
    (s.requests i.1).call = .request u xid (.assign xids) → i.2 = .members →
    (members s.store org xids).length = xids.dedup.length →
    bounded licence (union s.store licence.id (members s.store org xids)).length = true →
    Accepted (t.requests i.1).phase
  /-- What is accepted comes to its end. -/
  kept : Accepted (s.requests i.1).phase → (∀ e, i.2 ≠ .fail e) → Accepted (t.requests i.1).phase
  seated : ∀ {k writes m}, (s.requests i.1).phase = .seated k writes m → i.2 = .commit →
    ∀ u, u ∈ holders t.store k.licence.id ↔ u ∈ holders s.store k.licence.id ∨ u ∈ k.users
  refused : ∀ {e}, (t.requests i.1).phase = .done (.refused e) → t.store = s.store

/-! ## Holders -/

variable {d d' : Office} {s t : Sys} {i : ℕ × Act} {licence : Entitlement} {k : Intake} {p : Phase}
  {row : SeatAssignment} {id u : ℕ}

theorem mem_holders : u ∈ holders d id ↔
    ∃ row, d.seats.get? (id, u) = some row ∧ row.releasedAt = none := by
  unfold holders held Table.select
  rw [List.mem_map]
  constructor
  · rintro ⟨row, hrow, rfl⟩
    obtain ⟨hrow, hlive⟩ := List.mem_filter.1 hrow
    rw [decide_eq_true_eq] at hlive
    refine ⟨row, Table.get?_eq_some.2 ⟨hrow, ?_⟩, hlive.2⟩
    rw [← hlive.1]
    rfl
  · rintro ⟨row, hget, hlive⟩
    obtain ⟨hrow, hkey⟩ := Table.get?_eq_some.1 hget
    refine ⟨row, List.mem_filter.2 ⟨hrow, decide_eq_true ⟨congrArg Prod.fst hkey, hlive⟩⟩, ?_⟩
    exact congrArg Prod.snd hkey

theorem nodup_holders (d : Office) (id : ℕ) : (holders d id).Nodup := by
  unfold holders held Table.select
  refine List.Nodup.map_on ?_ (d.seats.nodup.of_map.filter _)
  intro x hx y hy huser
  obtain ⟨hx, hxid⟩ := List.mem_filter.1 hx
  obtain ⟨hy, hyid⟩ := List.mem_filter.1 hy
  rw [decide_eq_true_eq] at hxid hyid
  refine List.inj_on_of_nodup_map d.seats.nodup hx hy ?_
  unfold SeatAssignment.key
  rw [hxid.1, hyid.1, huser]

theorem mem_union {users : List ℕ} : u ∈ union d id users ↔ u ∈ holders d id ∨ u ∈ users := by
  unfold union
  rw [List.mem_append, List.mem_filter, decide_eq_true_eq]
  tauto

theorem nodup_union {users : List ℕ} (h : users.Nodup) : (union d id users).Nodup := by
  refine List.nodup_append.2 ⟨nodup_holders d id, h.filter _, ?_⟩
  rintro x hx y hy rfl
  exact of_decide_eq_true (List.mem_filter.1 hy).2 hx

theorem mem_holders_landSeats {writes : List SeatAssignment}
    (hlive : ∀ row ∈ writes, row.releasedAt = none) :
    u ∈ holders (landSeats d writes) id ↔
      (id, u) ∈ writes.map SeatAssignment.key ∨ u ∈ holders d id := by
  induction writes generalizing d with
  | nil => simp [landSeats]
  | cons row writes ih =>
    have hput : u ∈ holders { d with seats := d.seats.put row } id ↔
        row.key = (id, u) ∨ u ∈ holders d id := by
      rw [mem_holders, mem_holders, Table.get?_put]
      by_cases hkey : row.key = (id, u)
      · rw [if_pos hkey]
        exact ⟨fun _ => .inl hkey, fun _ => ⟨row, rfl, hlive row List.mem_cons_self⟩⟩
      · rw [if_neg hkey]
        exact ⟨.inr, fun h => h.resolve_left hkey⟩
    have hrest := @ih { d with seats := d.seats.put row }
      (fun x hx => hlive x (List.mem_cons_of_mem row hx))
    refine hrest.trans ?_
    rw [hput, List.map_cons, List.mem_cons, eq_comm]
    tauto

theorem mem_holders_landReleased {key : ℕ × ℕ} {now : Time}
    (h : u ∈ holders (landReleased d key now) id) : u ∈ holders d id := by
  obtain ⟨row, hget, hlive⟩ := mem_holders.1 h
  unfold landReleased at hget
  dsimp only at hget
  rw [Table.get?_mapRows, Option.map_eq_some_iff] at hget
  obtain ⟨old, hold, rfl⟩ := hget
  split at hlive
  · cases hlive
  · exact mem_holders.2 ⟨old, hold, hlive⟩

/-! ## The invariant -/

def Placed (d : Office) (licence : Entitlement) : Prop :=
  ∃ row ∈ d.licences.rows, row.id = licence.id ∧ row.quantity = licence.quantity

structure Within (d : Office) : Prop where
  bound : ∀ licence ∈ d.licences.rows, fit licence (holders d licence.id).length = true
  rooted : ∀ row ∈ d.seats.rows, ∃ licence ∈ d.licences.rows, licence.id = row.entitlementId

def Written (k : Intake) (writes : List SeatAssignment) : Prop := ∀ row ∈ writes,
  row.entitlementId = k.licence.id ∧ row.releasedAt = none ∧ row.userId ∈ k.users

def Fits (d : Office) : Phase → Prop
  | .licensed _ _ licence | .counted _ _ licence _ => Placed d licence
  | .seating k todo writes =>
    Placed d k.licence ∧ k.users.Nodup ∧ todo ⊆ k.users ∧ Written k writes
  | .writing k todo writes row _ =>
    Placed d k.licence ∧ k.users.Nodup ∧ todo ⊆ k.users ∧ Written k (writes ++ [row])
  | .seated k writes _ => Placed d k.licence ∧ k.users.Nodup ∧ Written k writes
  | _ => True

structure Inv (s : Sys) : Prop where
  within : Within s.store
  fits : ∀ r, Fits s.store (s.requests r).phase

theorem fits_reads {p' : Phase} (h : Reads d p p') (hp : Fits d p) : Fits d p' := by
  cases h with
  | licensed a org licence hrow => exact ⟨licence, hrow, rfl, rfl⟩
  | counted => exact hp
  | accepted a org licence n users hnodup =>
    exact ⟨hp, hnodup, List.Subset.refl _, fun row hrow => by cases hrow⟩
  | takes k user todo writes row fresh hkey hlive =>
    obtain ⟨hplaced, hnodup, htodo, hwritten⟩ := hp
    refine ⟨hplaced, hnodup, fun x hx => htodo (List.mem_cons_of_mem user hx), ?_⟩
    intro x hx
    rcases List.mem_append.1 hx with hx | hx
    · exact hwritten x hx
    · rw [List.mem_singleton.1 hx]
      have huser : row.userId = user := congrArg Prod.snd hkey
      exact ⟨congrArg Prod.fst hkey, hlive, huser ▸ htodo List.mem_cons_self⟩
  | leaves k user todo writes =>
    obtain ⟨hplaced, hnodup, htodo, hwritten⟩ := hp
    exact ⟨hplaced, hnodup, fun x hx => htodo (List.mem_cons_of_mem user hx), hwritten⟩
  | seated => exact ⟨hp.1, hp.2.1, hp.2.2.2⟩
  | _ => exact trivial

theorem fits_locks {p' : Phase} {keys : List (ℕ × ℕ)} (h : Locks p p' keys) (hp : Fits d p) :
    Fits d p' := by
  cases h with
  | flushed => exact hp
  | released => exact trivial

theorem Fits.mono (hplaced : ∀ licence, Placed d licence → Placed d' licence) (h : Fits d p) :
    Fits d' p := by
  cases p with
  | licensed | counted => exact hplaced _ h
  | seating | writing | seated => exact ⟨hplaced _ h.1, h.2⟩
  | _ => exact trivial

theorem fits_next {q : Request} {act : Act} {m : Moved} (h : next d q act = some m)
    (hq : Fits d q.phase) : Fits d m.phase.phase := by
  cases next_cases h with
  | refused a => exact trivial
  | reads p hp => exact fits_reads hp hq
  | locks p keys hp => exact fits_locks hp hq
  | commits d' a hp => exact trivial

/-! ## Commits -/

theorem fit_mono {m n : ℕ} (h : m ≤ n) (hn : fit licence n = true) : fit licence m = true := by
  unfold fit bounded at hn ⊢
  cases hq : licence.quantity with
  | none => simp
  | some q =>
    simp only [hq, Option.all_some, decide_eq_true_eq] at hn ⊢
    omega

theorem fit_congr {licence' : Entitlement} (h : licence.quantity = licence'.quantity) (n : ℕ) :
    fit licence n = fit licence' n := by
  unfold fit bounded
  rw [h]

theorem length_le_union {users : List ℕ} (h : ∀ u ∈ holders d' id, u ∈ union d id users) :
    (holders d' id).length ≤ (union d id users).length :=
  ((nodup_holders d' id).subperm h).length_le

theorem key_of_written {writes : List SeatAssignment} (h : Written k writes) :
    (id, u) ∈ writes.map SeatAssignment.key ↔
      id = k.licence.id ∧ u ∈ writes.map SeatAssignment.userId := by
  rw [List.mem_map, List.mem_map]
  constructor
  · rintro ⟨row, hrow, hkey⟩
    have hid : row.entitlementId = id := congrArg Prod.fst hkey
    exact ⟨hid.symm.trans (h row hrow).1, row, hrow, congrArg Prod.snd hkey⟩
  · rintro ⟨rfl, row, hrow, rfl⟩
    refine ⟨row, hrow, ?_⟩
    rw [← (h row hrow).1]
    rfl

theorem mem_seated {writes : List SeatAssignment} (h : Written k writes) :
    u ∈ holders (landSeats d writes) id ↔
      (id = k.licence.id ∧ u ∈ writes.map SeatAssignment.userId) ∨ u ∈ holders d id := by
  rw [mem_holders_landSeats (fun row hrow => (h row hrow).2.1), key_of_written h]

theorem rows_landSeats {writes : List SeatAssignment} {x : SeatAssignment}
    (h : x ∈ (landSeats d writes).seats.rows) : x ∈ writes ∨ x ∈ d.seats.rows := by
  induction writes generalizing d with
  | nil => exact .inr h
  | cons row writes ih =>
    have hput : x ∈ (landSeats { d with seats := d.seats.put row } writes).seats.rows := h
    rcases ih hput with hx | hx
    · exact .inl (List.mem_cons_of_mem row hx)
    · rcases Table.mem_put.1 hx with rfl | ⟨hx, _⟩
      · exact .inl List.mem_cons_self
      · exact .inr hx

theorem Within.seats {writes : List SeatAssignment} (hd : Within d) (hplaced : Placed d k.licence)
    (hwritten : Written k writes)
    (hroom : fit k.licence (union d k.licence.id k.users).length = true) :
    Within (landSeats d writes) where
  bound licence hrow := by
    have hrow : licence ∈ d.licences.rows := hrow
    by_cases hid : licence.id = k.licence.id
    · obtain ⟨row, hmem, hrowid, hquantity⟩ := hplaced
      have hsame : licence = row :=
        List.inj_on_of_nodup_map d.licences.nodup hrow hmem (hid.trans hrowid.symm)
      rw [fit_congr (hsame ▸ hquantity), hid]
      refine fit_mono (length_le_union (fun u hu => ?_)) hroom
      rw [mem_union]
      rcases (mem_seated hwritten).1 hu with ⟨_, hu⟩ | hu
      · obtain ⟨x, hx, rfl⟩ := List.mem_map.1 hu
        exact .inr (hwritten x hx).2.2
      · exact .inl hu
    · have hsubset : ∀ u ∈ holders (landSeats d writes) licence.id, u ∈ holders d licence.id := by
        intro u hu
        rcases (mem_seated hwritten).1 hu with ⟨heq, _⟩ | hu
        · exact absurd heq hid
        · exact hu
      exact fit_mono ((nodup_holders _ _).subperm hsubset).length_le (hd.bound licence hrow)
  rooted row hrow := by
    rcases rows_landSeats hrow with hrow | hrow
    · obtain ⟨x, hx, hid, _⟩ := hplaced
      exact ⟨x, hx, hid.trans (hwritten row hrow).1.symm⟩
    · exact hd.rooted row hrow

theorem Within.released {key : ℕ × ℕ} {now : Time} (hd : Within d) :
    Within (landReleased d key now) where
  bound licence hrow := fit_mono
    ((nodup_holders _ _).subperm (fun _ hu => mem_holders_landReleased hu)).length_le
    (hd.bound licence hrow)
  rooted row hrow := by
    obtain ⟨old, hold, rfl⟩ := List.mem_map.1 hrow
    obtain ⟨licence, hlicence, hid⟩ := hd.rooted old hold
    refine ⟨licence, hlicence, hid.trans ?_⟩
    split <;> rfl

theorem Within.execute {e : Event} (hd : Within d) (h : allowed d e = true) :
    Within (execute d e) := by
  cases e with
  | edit people organizations => exact ⟨hd.bound, hd.rooted⟩
  | licence row =>
    unfold allowed at h
    dsimp only at h
    refine ⟨?_, ?_⟩
    · intro licence hrow
      rcases Table.mem_put.1 hrow with rfl | ⟨hrow, _⟩
      · cases hold : d.licences.get? licence.id with
        | some old =>
          obtain ⟨hmem, hid⟩ := Table.get?_eq_some.1 hold
          have hbound := hd.bound old hmem
          rw [hold, Option.all_some, decide_eq_true_eq] at h
          rw [fit_congr h, hid] at hbound
          exact hbound
        | none =>
          have hnone : holders d licence.id = [] := by
            rw [List.eq_nil_iff_forall_not_mem]
            intro u hu
            obtain ⟨x, hget, _⟩ := mem_holders.1 hu
            obtain ⟨hx, hkey⟩ := Table.get?_eq_some.1 hget
            obtain ⟨y, hy, hid⟩ := hd.rooted x hx
            exact Table.get?_eq_none.1 hold y hy (hid.trans (congrArg Prod.fst hkey))
          have hempty :
              (holders (SeatRequests.execute d (.licence licence)) licence.id).length = 0 :=
            congrArg List.length hnone
          rw [hempty]
          rfl
      · exact hd.bound licence hrow
    · intro x hx
      obtain ⟨licence, hlicence, hid⟩ := hd.rooted x hx
      by_cases heq : licence.id = row.id
      · exact ⟨row, Table.mem_put.2 (.inl rfl), heq.symm.trans hid⟩
      · exact ⟨licence, Table.mem_put.2 (.inr ⟨hlicence, heq⟩), hid⟩

theorem placed_execute {e : Event} (h : allowed d e = true) (hplaced : Placed d licence) :
    Placed (execute d e) licence := by
  cases e with
  | edit people organizations => exact hplaced
  | licence row =>
    unfold allowed at h
    dsimp only at h
    obtain ⟨x, hx, hid, hquantity⟩ := hplaced
    by_cases heq : x.id = row.id
    · have hget : d.licences.get? row.id = some x := Table.get?_eq_some.2 ⟨hx, heq⟩
      rw [hget, Option.all_some, decide_eq_true_eq] at h
      exact ⟨row, Table.mem_put.2 (.inl rfl), heq.symm.trans hid, h.symm.trans hquantity⟩
    · exact ⟨x, Table.mem_put.2 (.inr ⟨hx, heq⟩), hid, hquantity⟩

/-! ## What a step keeps -/

theorem within_commit {q q' : Request} {act : Act} (hd : Within d) (hq : Fits d q.phase)
    (hroom : ∀ k writes m, q.phase = .seated k writes m → act = .commit →
      fit k.licence (union d k.licence.id k.users).length = true)
    (h : next d q act = some (.commits d' q')) :
    Within d' ∧ ∀ licence, Placed d licence → Placed d' licence := by
  have hact : ∀ k writes m, q.phase = .seated k writes m → act = .commit := by
    intro k writes m hphase
    unfold next at h
    rw [hphase] at h
    cases act with
    | commit => rfl
    | _ => cases h
  cases next_cases h with
  | commits d' a hw =>
    generalize hp : q.phase = p at hw
    cases hw with
    | seated k writes m =>
      rw [hp] at hq
      exact ⟨hd.seats hq.1 hq.2.2 (hroom k writes m hp (hact k writes m hp)), fun _ hx => hx⟩
    | freed row now m => exact ⟨hd.released, fun _ hx => hx⟩
    | other e hallowed => exact ⟨hd.execute hallowed, fun _ hx => placed_execute hallowed hx⟩

theorem room_of_meets (hg : Meets s i) {writes : List SeatAssignment} {m : Summary}
    (hphase : (s.requests i.1).phase = .seated k writes m) (hact : i.2 = .commit) :
    fit k.licence (union s.store k.licence.id k.users).length = true ∧
      ∀ u ∈ k.users, provided s.store k.licence.id writes u = true := by
  unfold Meets meets at hg
  rw [hphase, hact, decide_eq_true_eq, List.all_eq_true] at hg
  exact hg

theorem within_step (hs : Inv s) (hg : Meets s i) (h : Step program s i t) :
    Within t.store ∧ ∀ licence, Placed s.store licence → Placed t.store licence := by
  refine database_step h ⟨hs.within, fun _ hplaced => hplaced⟩ (fun d p hnext => ?_)
  exact within_commit hs.within (hs.fits i.1)
    (fun _ _ _ hphase hact => (room_of_meets hg hphase hact).1) hnext

theorem inv_step (hs : Inv s) (hg : Meets s i) (h : Step program s i t) : Inv t := by
  obtain ⟨hwithin, hplaced⟩ := within_step hs hg h
  have hfits : ∀ r, Fits s.store (t.requests r).phase := fun r =>
    phase_step (C := fun q => Fits s.store q.phase) h (hs.fits r)
      (fun _ _ hnext => fits_next hnext (hs.fits r))
  exact ⟨hwithin, fun r => (hfits r).mono hplaced⟩

theorem inv_start (d : Office) (calls : ℕ → Call) : Inv (start d calls) where
  within := ⟨fun _ _ => rfl, fun _ hrow => by cases hrow⟩
  fits _ := trivial

theorem inv_runs {is : List (ℕ × Act)} (hs : Inv s) (hrun : Runs (Step program) Meets s is t) :
    Inv t := hrun.invariant (fun _ _ _ hs hg hi => inv_step hs hg hi) hs

/-! ## What a step promises -/

theorem next_members {a : Principal} {org n u : ℕ} {xid : String} {xids : List String}
    (hphase : (s.requests i.1).phase = .counted a org licence n)
    (hcall : (s.requests i.1).call = .request u xid (.assign xids)) (hact : i.2 = .members) :
    next s.store (s.requests i.1) i.2 =
      some (readTo (s.requests i.1) (check s.store a org licence n xids)) := by
  unfold next
  rw [hphase, hcall, hact]

theorem next_flush {todo : List ℕ} {writes : List SeatAssignment} {fresh : Bool} {now : Time}
    (hphase : (s.requests i.1).phase = .writing k todo writes row fresh)
    (hact : i.2 = .flush now) : next s.store (s.requests i.1) i.2 =
      some (flushRow s.store (s.requests i.1) k todo writes row fresh) := by
  unfold next
  rw [hphase, hact]

theorem next_seated {writes : List SeatAssignment} {m : Summary}
    (hphase : (s.requests i.1).phase = .seated k writes m) (hact : i.2 = .commit) :
    next s.store (s.requests i.1) i.2 = some (.commits (landSeats s.store writes)
      { s.requests i.1 with phase := .done (.seats m) }) := by
  unfold next
  rw [hphase, hact]

theorem check_eq {a : Principal} {org n : ℕ} {xids : List String}
    (hmembers : (members d org xids).length = xids.dedup.length) :
    check d a org licence n xids =
      if bounded licence (n + (members d org xids).length) then
        .ok (.seating ⟨a, org, licence, members d org xids⟩ (members d org xids) [])
      else .error (notEnoughSeats (licence.quantity.getD 0 - n)) := by
  unfold check
  dsimp only
  rw [if_neg (not_not.2 hmembers)]
  cases bounded licence (n + (members d org xids).length) <;> rfl

theorem accepted_step (hg : Meets s i) (h : Step program s i t)
    (ha : Accepted (s.requests i.1).phase) (hact : ∀ e, i.2 ≠ .fail e) :
    Accepted (t.requests i.1).phase := by
  obtain ⟨m, hnext, hmoved, -⟩ := step_moved h
  change next s.store (s.requests i.1) i.2 = some m at hnext
  rw [hmoved]
  unfold Meets meets at hg
  generalize s.requests i.1 = q at *
  generalize i.2 = act at *
  obtain ⟨call, phase⟩ := q
  cases ha with
  | seating k todo writes =>
    cases act with
    | look now =>
      cases todo with
      | nil => cases hnext
      | cons user todo =>
        cases hnext
        change Accepted (look s.store k todo writes now user)
        unfold look
        split
        · constructor
        · split <;> constructor
    | summary now =>
      cases todo with
      | nil =>
        cases hnext
        constructor
      | cons user todo => cases hnext
    | fail e => exact absurd rfl (hact e)
    | _ => cases todo <;> cases hnext
  | writing k todo writes row fresh =>
    cases act with
    | flush now =>
      have hflush : flushRow s.store ⟨call, .writing k todo writes row fresh⟩ k todo writes row
          fresh = m := Option.some.inj hnext
      unfold flushRow at hflush
      rw [if_neg] at hflush
      · cases hflush
        constructor
      · rintro ⟨rfl, hthere⟩
        have hnone : s.store.seats.get? row.key = none := by simpa using hg
        rw [hnone] at hthere
        cases hthere
    | fail e => exact absurd rfl (hact e)
    | _ => cases hnext
  | seated k writes m =>
    cases act with
    | commit =>
      cases hnext
      constructor
    | fail e => exact absurd rfl (hact e)
    | _ => cases hnext
  | seats m => cases hnext

theorem writes_not_refused {e : Refusal} : ¬ Writes d p d' (.refused e) := by
  intro h
  cases h

theorem refused_step {e : Refusal} (h : Step program s i t)
    (he : (t.requests i.1).phase = .done (.refused e)) : t.store = s.store := by
  cases step_cases h with
  | went p keys _ _ hstore => exact hstore
  | rolledBack p _ hstore => exact hstore
  | committed p hnext _ hrequests =>
    rw [hrequests, put_self] at he
    cases next_cases hnext with
    | commits d' a hw =>
      cases he
      exact absurd hw writes_not_refused

theorem holds_of_meets (hs : Inv s) (hg : Meets s i) (h : Step program s i t) : Holds s i t where
  within := (inv_step hs hg h).within.bound
  taken := by
    intro a org licence n u xid xids hphase hcall hact hmembers hunion
    have hroom : bounded licence (n + (members s.store org xids).length) = true := by
      unfold Meets meets at hg
      rw [hphase, hcall, hact, decide_eq_true_eq] at hg
      exact hg ⟨hmembers, hunion⟩
    rw [(moved_of_next h (next_members hphase hcall hact)).1, check_eq hmembers, if_pos hroom]
    constructor
  kept := accepted_step hg h
  seated := by
    intro k writes m hphase hact u
    have hfits := hs.fits i.1
    rw [hphase] at hfits
    have hall := (room_of_meets hg hphase hact).2
    rw [store_of_next h (next_seated hphase hact), mem_seated hfits.2.2]
    constructor
    · rintro (⟨_, hu⟩ | hu)
      · obtain ⟨row, hrow, rfl⟩ := List.mem_map.1 hu
        exact .inr (hfits.2.2 row hrow).2.2
      · exact .inl hu
    · rintro (hu | hu)
      · exact .inr hu
      · exact (of_decide_eq_true (hall u hu)).symm.imp_left (fun hu => ⟨rfl, hu⟩)
  refused := refused_step h

theorem meets_of_holds (hs : Inv s) (h : Step program s i t) (hh : Holds s i t) : Meets s i := by
  unfold Meets meets
  split
  · next a org licence n u xid xids hphase hcall hact =>
    refine decide_eq_true ?_
    rintro ⟨hmembers, hunion⟩
    have haccepted := hh.taken hphase hcall hact hmembers hunion
    rw [(moved_of_next h (next_members hphase hcall hact)).1, check_eq hmembers] at haccepted
    by_contra hfull
    rw [if_neg hfull] at haccepted
    cases haccepted
  · next k todo writes row now hphase hact =>
    refine decide_eq_true ?_
    by_contra hthere
    have haccepted := hh.kept (hphase ▸ .writing k todo writes row true) (by simp [hact])
    rw [(moved_of_next h (next_flush hphase hact)).1] at haccepted
    unfold flushRow at haccepted
    rw [if_pos ⟨rfl, Option.isSome_iff_ne_none.2 hthere⟩] at haccepted
    cases haccepted
  · next k writes m hphase hact =>
    have hfits := hs.fits i.1
    rw [hphase] at hfits
    obtain ⟨⟨row, hrow, hid, hquantity⟩, hnodup, hwritten⟩ := hfits
    have hseated := hh.seated hphase hact
    have hstore := store_of_next h (next_seated hphase hact)
    refine decide_eq_true ⟨?_, List.all_eq_true.2 (fun u hu => ?_)⟩
    · have hbound := hh.within row (by rw [hstore]; exact hrow)
      rw [fit_congr hquantity, hid] at hbound
      refine fit_mono (List.Nodup.subperm (nodup_union hnodup) (fun u hu => ?_)).length_le hbound
      exact (hseated u).2 (mem_union.1 hu)
    · have hheld := (hseated u).2 (.inr hu)
      rw [hstore, mem_seated hwritten] at hheld
      exact decide_eq_true (hheld.symm.imp_right And.right)
  · rfl

/-- In a run within the guard a further step is within it exactly where it does what is promised
of it. -/
theorem seats_kept_iff (d : Office) (calls : ℕ → Call) {is : List (ℕ × Act)}
    (hrun : Runs (Step program) Meets (start d calls) is s) (h : Step program s i t) :
    Meets s i ↔ Holds s i t := by
  have hs := inv_runs (inv_start d calls) hrun
  exact ⟨fun hg => holds_of_meets hs hg h, fun hh => meets_of_holds hs h hh⟩

/-! ## Ways out of the guard -/

def sampleUser (id : ℕ) (xid : String) : OrgRoster.User :=
  { id, xid, phone := xid, dateOfBirth := 0 }

def sampleMember (id : ℕ) (role : OrgRoster.OrgRole) : OrgRoster.OrgMembership :=
  { id, orgId := 1, userId := id, role, joinedAt := some 0 }

def sampleOffice (quantity : ℤ) : Office where
  people :=
    { roster :=
        { users := ⟨[sampleUser 1 "u1", sampleUser 2 "u2", sampleUser 9 "admin"], by decide⟩
          memberships := ⟨[sampleMember 1 .student, sampleMember 2 .student,
            sampleMember 9 .centreAdmin], by decide⟩ } }
  organizations := [⟨1, "o1"⟩]
  licences := ⟨[
    { id := 1, subjectKind := .org, subjectId := some 1, feature := "mock.unlimited"
      sourceKind := .seat, sourceId := none, quantity := some quantity, consumed := 0
      startsAt := 0, expiresAt := none, revokedAt := none, revokedReason := none }],
    List.nodup_singleton _⟩

def sampleCalls : ℕ → Call
  | 0 => .request 9 "o1" (.assign ["u1"])
  | 1 => .request 9 "o1" (.assign ["u2"])
  | 2 => .request 9 "o1" (.release "u1")
  | _ => .request 9 "o1" (.assign ["u1"])

def sample (quantity : ℤ) : Sys := start (sampleOffice quantity) sampleCalls

def steps (r : ℕ) (acts : List Act) : List (ℕ × Act) := acts.map (fun act => (r, act))

def untilCount : List Act := [.enter, .authorise, .licence 0, .count]

def untilLook : List Act := untilCount ++ [.members, .look 0]

def assigning (r : ℕ) : List (ℕ × Act) :=
  steps r (untilLook ++ [.flush 0, .summary 0, .commit])

def releasing (r : ℕ) : List (ℕ × Act) :=
  steps r [.enter, .authorise, .licence 0, .find, .flush 0, .summary 0, .commit]

/-- The step is taken, and what is promised of it does not hold. -/
def Breaks (quantity : ℤ) (is : List (ℕ × Act)) (i : ℕ × Act) : Prop :=
  ∃ s t, Any (Step program) (sample quantity) is s ∧ Step program s i t ∧ ¬ Holds s i t

theorem breaks_of_follow {quantity : ℤ} {is : List (ℕ × Act)}
    (h : ((follow (step program) Meets is (sample quantity)).bind
      (fun s => if Meets s i then none else step program s i)).isSome = true) :
    Breaks quantity is i := by
  obtain ⟨t, ht⟩ := Option.isSome_iff_exists.1 h
  obtain ⟨s, hs, hstep⟩ := Option.bind_eq_some_iff.1 ht
  split at hstep
  · cases hstep
  · next hg =>
    have hrun := runs_of_follow hs
    have hs := inv_runs (inv_start (sampleOffice quantity) sampleCalls) hrun
    refine ⟨s, t, ?_, hstep, fun hh => hg (meets_of_holds hs hstep hh)⟩
    exact hrun.guarded (I := fun _ => True) (fun _ _ _ _ _ _ => ⟨trivial, trivial⟩) trivial

theorem seats_kept_once : ∃ s t, Runs (Step program) Meets (sample 1)
      (steps 0 (untilLook ++ [.flush 0, .summary 0])) s ∧ Step program s (0, .commit) t ∧
    (Meets s (0, .commit) ↔ Holds s (0, .commit) t) := by
  have h : ((follow (step program) Meets (steps 0 (untilLook ++ [.flush 0, .summary 0]))
      (sample 1)).bind (fun s => step program s (0, .commit))).isSome = true := by decide +kernel
  obtain ⟨t, ht⟩ := Option.isSome_iff_exists.1 h
  obtain ⟨s, hs, hstep⟩ := Option.bind_eq_some_iff.1 ht
  have hrun := runs_of_follow hs
  exact ⟨s, t, hrun, hstep, seats_kept_iff (sampleOffice 1) sampleCalls hrun hstep⟩

/-- Two requests count the one free seat; a holder is listed again; a holder who was passed over is
released; two requests insert one row. -/
theorem seats_overrun :
    Breaks 1 (steps 0 (untilLook ++ [.flush 0, .summary 0]) ++ assigning 1) (0, .commit) ∧
    Breaks 1 (assigning 0 ++ steps 3 untilCount) (3, .members) ∧
    Breaks 2 (assigning 0 ++ steps 3 (untilLook ++ [.summary 0]) ++ releasing 2) (3, .commit) ∧
    Breaks 2 (steps 0 untilLook ++ assigning 3) (0, .flush 0) :=
  ⟨breaks_of_follow (by decide +kernel), breaks_of_follow (by decide +kernel),
    breaks_of_follow (by decide +kernel), breaks_of_follow (by decide +kernel)⟩

end IeltsHub.SeatLicences
