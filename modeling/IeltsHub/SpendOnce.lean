import IeltsHub.SpendTransactions

set_option autoImplicit false

/-!
# Units spent and given back

Nothing but a row's `consumed` ever changes, so a row as a call read it differs from the stored
one in that column at most. Where it does not, at the commit, the write adds or takes exactly
what the call says.
-/
namespace IeltsHub.SpendOnce
open PyTime RowTable GuardedRuns BillingModels Entitlements SpendTransactions

/-! ## The accounts -/

def spentOf (s : Sys) (id : ℕ) : ℕ := (s.spends.filter (fun x => x.row.id = id)).length

def returnedTo (s : Sys) (id : ℕ) : ℕ := ((s.returns.filter (fun x => x.1 = id)).map Prod.snd).sum

/-- The row was live when it was read, and the user's: held directly, or by one of the
organizations, with a seat where it is a seat licence. -/
structure Live (seats : List Seat) (x : Spent) : Prop where
  granted : statusAt x.row x.now = .granted
  feature : x.row.feature = x.feature
  covers : (x.row.subjectKind = .user ∧ x.row.subjectId = some x.userId) ∨
    (x.row.subjectKind = .org ∧ (∃ i ∈ x.orgIds, x.row.subjectId = some i) ∧
      (x.row.sourceKind = .seat → ∃ seat ∈ seats, seat.userId = x.userId ∧
        seat.entitlementId = x.row.id ∧ seat.releasedAt = none))

structure Accounted (start s : Sys) : Prop where
  bounded : ∀ e ∈ s.rows.rows, 0 ≤ e.consumed ∧ ∀ q, e.quantity = some q → e.consumed ≤ q
  balanced : ∀ e ∈ start.rows.rows, e.quantity ≠ none → s.rows.get? e.id =
    some (withConsumed e (e.consumed + spentOf s e.id - returnedTo s e.id))
  live : ∀ x ∈ s.spends, x.row.quantity ≠ none ∧ Live s.seats x ∧
    ∃ e ∈ start.rows.rows, withConsumed e x.row.consumed = x.row

/-- A commit on a limited row finds the balance its call read, and a refund no less than it
returns. -/
def current (s : Sys) (i : ℕ × Act) : Bool :=
  match s.phases i.1, i.2 with
  | .flushed h, .commit => (s.rows.get? h.loaded.id).all (fun e =>
      e.quantity = none ∨ (e.consumed = h.loaded.consumed ∧ (h.returned : ℤ) ≤ e.consumed))
  | _, _ => true

def Current (s : Sys) (i : ℕ × Act) : Prop := current s i = true

/-- Nobody has asked yet, and no row has spent more than it holds. -/
structure Opening (s : Sys) : Prop where
  waiting : ∀ r, s.phases r = .waiting
  bounded : ∀ e ∈ s.rows.rows, 0 ≤ e.consumed ∧ ∀ q, e.quantity = some q → e.consumed ≤ q
  spends : s.spends = []
  returns : s.returns = []

/-! ## What the calls in flight hold -/

variable {s t start : Sys} {r : ℕ} {i : ℕ × Act} {h : Held} {row e : Entitlement}
  {table : Table Entitlement ℕ Entitlement.id}

def Fits (table : Table Entitlement ℕ Entitlement.id) (row : Entitlement) : Prop :=
  ∃ e, table.get? row.id = some e ∧ withConsumed e row.consumed = row

def Good (s : Sys) (r : ℕ) : Phase → Prop
  | .askedSeats _ _ held => ∀ userId feature orgIds,
      s.requests r = .consume userId feature orgIds →
        held = heldSeats (s.seats.filter (fun x => x.userId = userId))
  | .chosen now row => Fits s.rows row ∧ ∀ userId feature orgIds,
      s.requests r = .consume userId feature orgIds →
        Live s.seats { row, userId, feature, orgIds, now }
  | .loaded row => Fits s.rows row
  | .flushed h => Fits s.rows h.loaded ∧
      ((∃ x, h.spent = some x ∧ x.row = h.loaded ∧ x.row.quantity ≠ none ∧ Live s.seats x ∧
        h.consumed = consumeRow h.loaded 1 ∧ h.returned = 0) ∨
      (h.spent = none ∧ h.consumed = refundRow h.loaded h.returned))
  | _ => True

theorem fits_of_mem (hrow : row ∈ table.rows) : Fits table row :=
  ⟨row, Table.get?_eq_some.2 ⟨hrow, rfl⟩, rfl⟩

theorem get?_land (h : Held) (id : ℕ) : (h.land table).get? id = (table.get? id).map h.landRow :=
  Table.get?_mapRows ..

theorem landRow_eq (h : Held) (e : Entitlement) : ∃ consumed, h.landRow e = withConsumed e consumed := by
  unfold Held.landRow
  split
  · exact ⟨_, rfl⟩
  · exact ⟨e.consumed, rfl⟩

theorem Fits.land (hf : Fits table row) : Fits (h.land table) row := by
  obtain ⟨e, he, hrow⟩ := hf
  obtain ⟨consumed, hland⟩ := landRow_eq h e
  refine ⟨h.landRow e, by rw [get?_land, he, Option.map_some], ?_⟩
  rw [hland, withConsumed_withConsumed, hrow]

theorem Good.frame {p : Phase} (hg : Good s r p)
    (hfits : ∀ row, Fits s.rows row → Fits t.rows row) (hseats : t.seats = s.seats)
    (hrequests : t.requests = s.requests) : Good t r p := by
  cases p with
  | askedSeats now best held =>
    intro userId feature orgIds hr
    rw [hseats]
    rw [hrequests] at hr
    exact hg userId feature orgIds hr
  | chosen now row =>
    refine ⟨hfits _ hg.1, ?_⟩
    intro userId feature orgIds hr
    rw [hseats]
    rw [hrequests] at hr
    exact hg.2 userId feature orgIds hr
  | loaded row => exact hfits row hg
  | flushed held =>
    refine ⟨hfits _ hg.1, ?_⟩
    rw [hseats]
    exact hg.2
  | _ => trivial

/-! ## One step -/

/-- A step that commits nothing changes the phase of one call, and what it holds is good. -/
structure Moved (s : Sys) (r : ℕ) (t : Sys) : Prop where
  rows : t.rows = s.rows
  seats : t.seats = s.seats
  requests : t.requests = s.requests
  spends : t.spends = s.spends
  returns : t.returns = s.returns
  phase : ∃ p, t.phases = Function.update s.phases r p ∧ Good s r p

theorem moved_put {p : Phase} (hg : Good s r p) : Moved s r (s.put r p) :=
  ⟨rfl, rfl, rfl, rfl, rfl, p, rfl, hg⟩

theorem moved_finish (s : Sys) (r : ℕ) (allowed : Bool) : Moved s r (s.finish r allowed) :=
  ⟨rfl, rfl, rfl, rfl, rfl, .done allowed, rfl, trivial⟩

theorem moved_flush (hg : Good s r (.flushed h)) (hf : s.flush r h = some t) : Moved s r t := by
  unfold Sys.flush at hf
  split at hf
  · cases hf
    exact moved_put hg
  · split at hf
    · cases hf
      exact ⟨rfl, rfl, rfl, rfl, rfl, .flushed h, rfl, hg⟩
    · cases hf

theorem mem_of_isPerm {p : Entitlement → Bool} {order : List Entitlement}
    (ho : order.isPerm (table.select p) = true) (he : e ∈ order) : e ∈ table.rows ∧ p e = true := by
  have hmem := (List.isPerm_iff.1 ho).mem_iff.1 he
  exact ⟨(List.mem_filter.1 hmem).1, (List.mem_filter.1 hmem).2⟩

theorem moved_readUser {userId : ℕ} {feature : String} {orgIds : List ℕ} {now : Time}
    {order : List Entitlement} (hr : s.requests r = .consume userId feature orgIds)
    (ho : order.isPerm (s.rows.select (selects .user [userId] feature)) = true) :
    Moved s r (found s r now (checkUser now order) (fun best =>
      if orgIds = [] then s.finish r false else s.put r (.askedUser now best))) := by
  unfold found
  cases hd : (checkUser now order).entitlement with
  | none =>
    dsimp only
    split
    · exact moved_finish s r false
    · exact moved_put trivial
  | some row =>
    obtain ⟨hmem, hgranted, _⟩ := firstGranted_entitlement hd
    obtain ⟨hrow, hselected⟩ := mem_of_isPerm ho hmem
    obtain ⟨hkind, hid, hfeature⟩ := of_decide_eq_true hselected
    refine moved_put ⟨fits_of_mem hrow, ?_⟩
    intro u f o hr'
    rw [hr] at hr'
    cases hr'
    obtain ⟨i, hi, huser⟩ := (Option.any_eq_true ..).1 hid
    have hsame : i = userId := by simpa using huser
    exact ⟨hgranted, hfeature, .inl ⟨hkind, by rw [hi, hsame]⟩⟩

theorem moved_readOrgs {userId : ℕ} {feature : String} {orgIds held : List ℕ} {now : Time}
    {best : Reason} {order : List Entitlement} (hr : s.requests r = .consume userId feature orgIds)
    (hheld : held = heldSeats (s.seats.filter (fun x => x.userId = userId)))
    (ho : order.isPerm (s.rows.select (selects .org orgIds feature)) = true) :
    Moved s r (found s r now (checkOrgs now held best order) (fun _ => s.finish r false)) := by
  unfold found
  cases hd : (checkOrgs now held best order).entitlement with
  | none => exact moved_finish s r false
  | some row =>
    obtain ⟨hmem, hgranted, hcovers⟩ := firstGranted_entitlement hd
    obtain ⟨hrow, hselected⟩ := mem_of_isPerm ho hmem
    obtain ⟨hkind, hid, hfeature⟩ := of_decide_eq_true hselected
    refine moved_put ⟨fits_of_mem hrow, ?_⟩
    intro u f o hr'
    rw [hr] at hr'
    cases hr'
    obtain ⟨i, hi, horg⟩ := (Option.any_eq_true ..).1 hid
    refine ⟨hgranted, hfeature, .inr ⟨hkind, ⟨i, of_decide_eq_true horg, hi⟩, ?_⟩⟩
    intro hseat
    have hin : row.id ∈ held := (of_decide_eq_true hcovers).resolve_left (fun q => q hseat)
    rw [hheld, heldSeats] at hin
    obtain ⟨seat, hmemSeat, hseatId⟩ := List.mem_map.1 hin
    obtain ⟨hmine, hunreleased⟩ := List.mem_filter.1 hmemSeat
    obtain ⟨hseats, huser⟩ := List.mem_filter.1 hmine
    exact ⟨seat, hseats, of_decide_eq_true huser, hseatId, of_decide_eq_true hunreleased⟩

theorem quantity_of_spend (hs : spending row 1 = .spend) : row.quantity ≠ none := by
  intro hnone
  rw [spending, remaining, hnone] at hs
  cases hs

theorem step_cases (hs : Step s i t) (hg : Good s i.1 (s.phases i.1)) :
    (∃ h, s.phases i.1 = .flushed h ∧ i.2 = .commit ∧ t.rows = h.land s.rows ∧
      t.seats = s.seats ∧ t.requests = s.requests ∧ t.spends = h.spent.toList ++ s.spends ∧
      t.returns = (h.loaded.id, h.returned) :: s.returns ∧
      t.phases = Function.update s.phases i.1 (.done true)) ∨ Moved s i.1 t := by
  obtain ⟨r, act⟩ := i
  change step s (r, act) = some t at hs
  change Good s r (s.phases r) at hg
  simp only [step] at hs
  split at hs
  · next hr hp =>
    split at hs
    · next ho =>
      cases hs
      exact .inr (moved_readUser hr ho)
    · cases hs
  · next hr hp =>
    cases hs
    refine .inr (moved_put ?_)
    intro u f o hr'
    rw [hr] at hr'
    cases hr'
    rfl
  · next hr hp =>
    split at hs
    · next ho =>
      cases hs
      rw [hp] at hg
      exact .inr (moved_readOrgs hr (hg _ _ _ hr) ho)
    · cases hs
  · next hr hp =>
    rw [hp] at hg
    split at hs
    · cases hs
      exact .inr (moved_finish s r true)
    · cases hs
      exact .inr (moved_finish s r false)
    · next hspend =>
      refine .inr (moved_flush ⟨hg.1, .inl ⟨_, rfl, rfl, quantity_of_spend hspend, hg.2 _ _ _ hr, rfl, rfl⟩⟩ hs)
  · next hr hp =>
    split at hs
    · cases hs
      exact .inr (moved_finish s r false)
    · next row hrow =>
      cases hs
      exact .inr (moved_put (fits_of_mem (Table.get?_eq_some.1 hrow).1))
  · next hr hp =>
    rw [hp] at hg
    have hfits : ∀ row, Good s r (.loaded row) → Fits s.rows row := fun _ h => h
    exact .inr (moved_flush ⟨hfits _ hg, .inr ⟨rfl, rfl⟩⟩ hs)
  · next h hp =>
    cases hs
    exact .inl ⟨h, hp, rfl, rfl, rfl, rfl, rfl, rfl, rfl⟩
  · cases hs
  · cases hs
  · cases hs
    exact .inr (moved_finish s r false)
  · cases hs

/-! ## A commit within the guard -/

theorem merged_le (loaded mine stored : ℤ) (hl : 0 ≤ mine) (hs : 0 ≤ stored) :
    0 ≤ merged loaded mine stored := by
  unfold merged
  split
  · exact hs
  · exact hl

theorem landRow_limited (hg : Good s r (.flushed h)) (hc : Current s (r, .commit))
    (hp : s.phases r = .flushed h) (he : s.rows.get? h.loaded.id = some e) (hq : e.quantity ≠ none) :
    e = h.loaded ∧ h.landRow e =
      withConsumed e (e.consumed + h.spent.toList.length - h.returned) := by
  unfold Current current at hc
  rw [hp] at hc
  change (s.rows.get? h.loaded.id).all _ = true at hc
  rw [he] at hc
  obtain ⟨hsame, hle⟩ := (of_decide_eq_true hc).resolve_left hq
  obtain ⟨⟨x, hx, hloaded⟩, hcase⟩ := hg
  rw [he] at hx
  cases hx
  rw [← hsame, withConsumed_self] at hloaded
  refine ⟨hloaded, ?_⟩
  subst hloaded
  rw [Held.landRow, if_pos rfl, merged_loaded]
  rcases hcase with ⟨x, hspent, _, _, _, hconsumed, hreturned⟩ | ⟨hspent, hconsumed⟩
  · rw [hspent, hreturned, hconsumed, consumeRow]
    simp
  · have hfloor : max 0 (h.loaded.consumed - (h.returned : ℤ)) = h.loaded.consumed - h.returned := by
      omega
    rw [hspent, hconsumed, refundRow, hfloor]
    simp

theorem landRow_bounded (hg : Good s r (.flushed h)) (hc : Current s (r, .commit))
    (hp : s.phases r = .flushed h) (hmem : e ∈ s.rows.rows)
    (hb : 0 ≤ e.consumed ∧ ∀ q, e.quantity = some q → e.consumed ≤ q) :
    0 ≤ (h.landRow e).consumed ∧
      ∀ q, (h.landRow e).quantity = some q → (h.landRow e).consumed ≤ q := by
  by_cases hid : e.id = h.loaded.id
  · have he : s.rows.get? h.loaded.id = some e := Table.get?_eq_some.2 ⟨hmem, hid⟩
    by_cases hq : e.quantity = none
    · rw [Held.landRow, if_pos hid]
      refine ⟨merged_le _ _ _ ?_ hb.1, fun q hq' => absurd (hq'.symm.trans hq) (by simp)⟩
      obtain ⟨⟨x, hx, hloaded⟩, hcase⟩ := hg
      rw [he] at hx
      cases hx
      rcases hcase with ⟨x, _, hrow, hlimited, _⟩ | ⟨_, hconsumed⟩
      · rw [hrow, ← hloaded] at hlimited
        exact absurd hq hlimited
      · rw [hconsumed, refundRow]
        omega
    · obtain ⟨hsame, hland⟩ := landRow_limited hg hc hp he hq
      rw [hland]
      unfold Current current at hc
      rw [hp] at hc
      change (s.rows.get? h.loaded.id).all _ = true at hc
      rw [he] at hc
      obtain ⟨_, hle⟩ := (of_decide_eq_true hc).resolve_left hq
      obtain ⟨_, hcase⟩ := hg
      rcases hcase with ⟨x, hspent, hrow, _, hlive, _, hreturned⟩ | ⟨hspent, _⟩
      · rw [hspent, hreturned]
        refine ⟨?_, fun q hq' => ?_⟩
        · change 0 ≤ e.consumed + 1 - 0
          omega
        · have hlt := consumed_lt_of_granted hlive.granted
            (show x.row.quantity = some q by rw [hrow, ← hsame]; exact hq')
          rw [hrow, ← hsame] at hlt
          change e.consumed + 1 - 0 ≤ q
          omega
      · rw [hspent]
        refine ⟨?_, fun q hq' => ?_⟩
        · change 0 ≤ e.consumed + 0 - (h.returned : ℤ)
          omega
        · have hle' := hb.2 q hq'
          change e.consumed + 0 - (h.returned : ℤ) ≤ q
          omega
  · rw [Held.landRow, if_neg hid]
    exact hb

/-! ## Every run -/

structure Inv (start s : Sys) : Prop where
  good : ∀ r, Good s r (s.phases r)
  accounted : Accounted start s
  known : ∀ e ∈ s.rows.rows, ∃ e₀ ∈ start.rows.rows, withConsumed e₀ e.consumed = e

theorem Opening.inv (h : Opening start) : Inv start start where
  good := fun r => by rw [h.waiting r]; trivial
  accounted := by
    refine ⟨h.bounded, fun e he _ => ?_, fun x hx => ?_⟩
    · have hget : start.rows.get? e.id = some e := Table.get?_eq_some.2 ⟨he, rfl⟩
      rw [hget, spentOf, returnedTo, h.spends, h.returns]
      simp
    · rw [h.spends] at hx
      cases hx
  known := fun e he => ⟨e, he, rfl⟩

theorem Moved.inv (h : Inv start s) (hm : Moved s r t) : Inv start t where
  good := by
    intro r'
    obtain ⟨p, hphases, hgood⟩ := hm.phase
    have hfits : ∀ row, Fits s.rows row → Fits t.rows row := fun row hf => by rw [hm.rows]; exact hf
    rw [hphases]
    by_cases hr : r' = r
    · subst hr
      rw [Function.update_self]
      exact hgood.frame hfits hm.seats hm.requests
    · rw [Function.update_of_ne hr]
      exact (h.good r').frame hfits hm.seats hm.requests
  accounted := by
    obtain ⟨hbounded, hbalanced, hlive⟩ := h.accounted
    refine ⟨?_, ?_, ?_⟩
    · rw [hm.rows]
      exact hbounded
    · unfold spentOf returnedTo at hbalanced ⊢
      rw [hm.rows, hm.spends, hm.returns]
      exact hbalanced
    · rw [hm.spends, hm.seats]
      exact hlive
  known := by
    rw [hm.rows]
    exact h.known

theorem spentOf_commit (hg : Good s r (.flushed h)) (ht : t.spends = h.spent.toList ++ s.spends)
    (id : ℕ) : spentOf t id =
      spentOf s id + if h.loaded.id = id then h.spent.toList.length else 0 := by
  unfold spentOf
  rw [ht, List.filter_append, List.length_append]
  rcases hg.2 with ⟨x, hspent, hrow, _⟩ | ⟨hspent, _⟩
  · rw [hspent, ← hrow]
    simp only [Option.toList, List.filter_singleton]
    by_cases hid : x.row.id = id
    · simp [hid]
      omega
    · simp [hid]
  · rw [hspent]
    simp

theorem returnedTo_commit (ht : t.returns = (h.loaded.id, h.returned) :: s.returns) (id : ℕ) :
    returnedTo t id = returnedTo s id + if h.loaded.id = id then h.returned else 0 := by
  unfold returnedTo
  rw [ht, List.filter_cons]
  by_cases hid : h.loaded.id = id
  · simp [hid]
    omega
  · simp [hid]

theorem Accounted.commit (h' : Inv start s) (hg : Good s r (.flushed h))
    (hc : Current s (r, .commit)) (hp : s.phases r = .flushed h) (hrows : t.rows = h.land s.rows)
    (hseats : t.seats = s.seats) (hspends : t.spends = h.spent.toList ++ s.spends)
    (hreturns : t.returns = (h.loaded.id, h.returned) :: s.returns) : Accounted start t := by
  obtain ⟨hbounded, hbalanced, hlive⟩ := h'.accounted
  refine ⟨?_, ?_, ?_⟩
  · intro e he
    rw [hrows] at he
    obtain ⟨x, hx, rfl⟩ := List.mem_map.1 he
    exact landRow_bounded hg hc hp hx (hbounded x hx)
  · intro e he hq
    rw [hrows, get?_land, hbalanced e he hq, Option.map_some, spentOf_commit hg hspends,
      returnedTo_commit hreturns]
    by_cases hid : h.loaded.id = e.id
    · have hget : s.rows.get? h.loaded.id =
          some (withConsumed e (e.consumed + spentOf s e.id - returnedTo s e.id)) := by
        rw [hid]
        exact hbalanced e he hq
      rw [(landRow_limited hg hc hp hget hq).2, if_pos hid, if_pos hid, withConsumed_withConsumed]
      congr 2
      change e.consumed + (spentOf s e.id : ℤ) - returnedTo s e.id + _ - _ = _
      push_cast
      omega
    · rw [if_neg hid, if_neg hid, Held.landRow, if_neg (fun q => hid q.symm)]
      rfl
  · intro x hx
    rw [hseats]
    rw [hspends] at hx
    rcases List.mem_append.1 hx with hx | hx
    · obtain ⟨⟨e, he, hloaded⟩, hcase⟩ := hg
      rcases hcase with ⟨y, hspent, hrow, hlimited, hlive', _⟩ | ⟨hspent, _⟩
      · rw [hspent] at hx
        obtain rfl : x = y := by simpa using hx
        obtain ⟨e₀, he₀, heq⟩ := h'.known e (Table.get?_eq_some.1 he).1
        refine ⟨hlimited, hlive', e₀, he₀, ?_⟩
        rw [hrow, ← hloaded, ← heq]
        rfl
      · rw [hspent] at hx
        cases hx
    · exact hlive x hx

theorem Inv.step (h' : Inv start s) (hc : Current s i) (hs : Step s i t) : Inv start t := by
  rcases step_cases hs (h'.good i.1) with
    ⟨h, hp, hcommit, hrows, hseats, hrequests, hspends, hreturns, hphases⟩ | hm
  · obtain ⟨r, act⟩ := i
    cases hcommit
    have hg : Good s r (.flushed h) := hp ▸ h'.good r
    refine ⟨?_, Accounted.commit h' hg hc hp hrows hseats hspends hreturns, ?_⟩
    · intro r'
      have hfits : ∀ row, Fits s.rows row → Fits t.rows row := fun row hf => by
        rw [hrows]
        exact hf.land
      rw [hphases]
      by_cases hr : r' = r
      · subst hr
        rw [Function.update_self]
        trivial
      · rw [Function.update_of_ne hr]
        exact (h'.good r').frame hfits hseats hrequests
    · intro e he
      rw [hrows] at he
      obtain ⟨x, hx, rfl⟩ := List.mem_map.1 he
      obtain ⟨e₀, he₀, heq⟩ := h'.known x hx
      obtain ⟨consumed, hland⟩ := landRow_eq h x
      refine ⟨e₀, he₀, ?_⟩
      rw [hland, ← heq]
      rfl
  · exact hm.inv h'

/-- Along every run within the guard the balances are the units spent less those returned, within
bounds, and every unit was spent from a live row of the user's. -/
theorem spent_once {acts : List (ℕ × Act)} (hstart : Opening start)
    (hrun : Runs Step Current start acts s) : Accounted start s :=
  (hrun.invariant (I := Inv start) (fun _ _ _ h hc hs => h.step hc hs) hstart.inv).accounted

def sampleRow : Entitlement where
  id := 1
  subjectKind := .user
  subjectId := some 7
  feature := "competition.entry"
  sourceKind := .order
  sourceId := some 1
  quantity := some 1
  consumed := 0
  startsAt := 0
  expiresAt := none
  revokedAt := none
  revokedReason := none

def sampleSys : Sys where
  rows := Table.empty.put sampleRow
  seats := []
  requests r := if r = 2 then .refund 1 1 else .consume 7 "competition.entry" []
  phases _ := .waiting

theorem sampleSys_opening : Opening sampleSys where
  waiting := fun _ => rfl
  bounded := by decide +kernel
  spends := rfl
  returns := rfl

instance (s : Sys) (i : ℕ × Act) : Decidable (Current s i) :=
  inferInstanceAs (Decidable (current s i = true))

/-- Spent by one call and given back by another. -/
theorem spent_once_on_sample : ∃ s, s.rows.rows = [sampleRow] ∧ s.spends.length = 1 ∧
    Accounted sampleSys s := by
  have hrun : (follow step Current [(0, .readUser 5 [sampleRow]), (0, .flush), (0, .commit),
      (2, .load), (2, .flush), (2, .commit)] sampleSys).map
        (fun s => (s.rows.rows, s.spends.length)) = some ([sampleRow], 1) := by
    decide +kernel
  obtain ⟨s, hs, heq⟩ := Option.map_eq_some_iff.1 hrun
  obtain ⟨hrows, hspends⟩ := Prod.mk.inj heq
  exact ⟨s, hrows, hspends, spent_once sampleSys_opening (runs_of_follow hs)⟩

/-- Two calls read the last entry before either writes: both spend it, and it counts once. -/
theorem last_entry_spent_twice : ∃ s acts, Runs Step (fun _ _ => True) sampleSys acts s ∧
    ¬ Accounted sampleSys s := by
  have hrun : (follow step (fun _ _ => True) [(0, .readUser 5 [sampleRow]),
      (1, .readUser 5 [sampleRow]), (0, .flush), (0, .commit), (1, .flush), (1, .commit)]
        sampleSys).map (fun s => (s.rows.rows, spentOf s 1, returnedTo s 1)) =
      some ([withConsumed sampleRow 1], 2, 0) := by
    decide +kernel
  obtain ⟨s, hs, heq⟩ := Option.map_eq_some_iff.1 hrun
  obtain ⟨hrows, hrest⟩ := Prod.mk.inj heq
  obtain ⟨hspent, hreturned⟩ := Prod.mk.inj hrest
  refine ⟨s, _, runs_of_follow hs, fun h => ?_⟩
  have hbalanced := h.balanced sampleRow (by decide +kernel) (by decide)
  rw [Table.get?, hrows, show sampleRow.id = 1 from rfl, hspent, hreturned] at hbalanced
  revert hbalanced
  decide

end IeltsHub.SpendOnce
