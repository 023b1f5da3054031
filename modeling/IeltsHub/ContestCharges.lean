import IeltsHub.ContestSteps

set_option autoImplicit false

/-!
# One registration, one charge

The units a user was charged for a contest, less those that were refunded, are one while they hold
an entry that a limited pack pays for, over any run of requests. A holder registers again for
nothing, and a withdrawal leaves no entry.
-/
namespace IeltsHub.ContestCharges
open PyTime RowTable ContentModels BillingModels Entitlements CompetitionSchedule ReadCommitted
open GuardedRuns PlatformRefusals ContestRequests

/-! ## Accounts -/

def limited (d : Store) (id : ℕ) : Bool := (d.entitlements.get? id).any (fun e => e.quantity ≠ none)

def unitsOf (log : List (ℕ × Entitlement)) (userId : ℕ) : ℤ :=
  (log.filter (fun x => x.1 = userId ∧ x.2.quantity ≠ none)).length

def balance (d : Store) (userId : ℕ) : ℤ := unitsOf d.charged userId - unitsOf d.refunded userId

def worth (d : Store) (x : Entry) : ℤ :=
  if x.status ≠ .withdrawn ∧ x.entitlementId.any (limited d) then 1 else 0

def holding (d : Store) (userId : ℕ) : ℤ := ((d.entries.get? userId).map (worth d)).getD 0

def holds (d : Store) (userId : ℕ) : Bool := active (statusOf d userId)

def denied : Answer → Bool
  | .refused (.paymentRequired _ _) => true
  | .refused e => e = competitionFull
  | _ => false

/-- What is promised of a step of any of the requests. -/
structure Fair (s : Sys) (i : ℕ × Act) (t : Sys) : Prop where
  balanced : ∀ userId, balance t.store userId = holding t.store userId
  /-- Somebody who holds an entry is not turned away for the cap or the pack, nor charged. -/
  holder : ∀ actor, (s.requests i.1).call = .register actor → holds s.store actor.userId = true →
    ((∀ e, i.2 ≠ .fail e) → ∀ a, (t.requests i.1).phase = .done a → denied a = false) ∧
      t.store.charged = s.store.charged
  /-- A withdrawal that is answered leaves no entry. -/
  withdrawn : ∀ actor, (s.requests i.1).call = .withdraw actor →
    (t.requests i.1).phase = .done .noContent → holds t.store actor.userId = false

/-- Along every run within the guard, from a contest that nobody has entered. -/
def OneCharge (jitter : ℕ → ℤ) (g : Sys → ℕ × Act → Prop) : Prop :=
  ∀ contest content entitlements seats calls is s i t,
    Runs (Step (program jitter)) g (start contest content entitlements seats calls) is s →
    g s i → Step (program jitter) s i t → Fair s i t

/-! ## The guard -/

/-- An entry is as active when its row is locked as when it was looked at; the checks before it let
a holder pass; no withdrawal of the user is on its way to its answer when the entry comes to be;
a withdrawal finds the entry registered, or none; a release writes an entry that is still held. -/
def Meets (s : Sys) (i : ℕ × Act) : Prop :=
  match (s.requests i.1).call, (s.requests i.1).phase, i.2 with
  | .register actor, .gate c, act => holds s.store actor.userId = true →
      ∀ decision, checkStep s.store actor c act = some (.inr decision) → decision.allowed = true
  | .register actor, .counting, .run _ => holds s.store actor.userId = true →
      s.store.contest.cap.any (fun cap => (taken s.store : ℤ) ≥ cap) = false
  | .register actor, .upserting prior, .run _ => active prior = holds s.store actor.userId
  | .register actor, .written _ _, .commit => holds s.store actor.userId = false →
      ∀ r actor', (s.requests r).call = .withdraw actor' → actor'.userId = actor.userId →
        ∀ w a, (s.requests r).phase ≠ .written w a
  | .withdraw actor, .withdrawing, .run _ => holds s.store actor.userId = true →
      statusOf s.store actor.userId = some .registered
  | .withdraw actor, .matched, .run _ => holds s.store actor.userId = true →
      statusOf s.store actor.userId = some .registered
  | .releaseKey actor, .attempting _ _ _, .run _ => holds s.store actor.userId = true
  | _, _, _ => True

/-! ## The invariant -/

def Known (d : Store) (x : Entry) : Prop :=
  ∀ id, x.entitlementId = some id → (d.entitlements.get? id).isSome = true

/-- A row of an entry that comes to be. -/
structure Entering (d : Store) (row : Entry) : Prop where
  absent : holds d row.userId = false
  status : row.status = .registered

/-- A row that leaves the stored entry as active as it is, and its entitlement. -/
structure Same (d : Store) (row : Entry) : Prop where
  stored : ∃ x, d.entries.get? row.userId = some x ∧
    (row.status = .withdrawn ↔ x.status = .withdrawn) ∧ row.entitlementId = x.entitlementId

/-- A row that takes the stored entry back. -/
structure Leaving (d : Store) (row : Entry) : Prop where
  stored : ∃ x, d.entries.get? row.userId = some x ∧ x.status = .registered ∧
    row.entitlementId = x.entitlementId
  status : row.status = .withdrawn

def units (o : Option Entitlement) : ℤ := if o.any (fun e => e.quantity ≠ none) then 1 else 0

/-- What a transaction is about to commit balances. -/
structure Balanced (d : Store) (call : Call) (w : Write) : Prop where
  known : ∀ x ∈ w.entries, Known d x
  rows : ∀ x ∈ w.entries, worth d x = holding d x.userId +
    if x.userId = call.userId then units w.charged - units w.refunded else 0
  entry : units w.charged ≠ units w.refunded → call.userId ∈ w.entries.map Entry.userId
  paying : w.charged ≠ none → call.userId ∈ w.entries.map Entry.userId ∧ holds d call.userId = false
  steady : (∀ actor, call ≠ .register actor) → ∀ x ∈ w.entries, x.status ≠ .withdrawn →
    holds d x.userId = true
  own : ∀ actor, call = .register actor → ∀ x ∈ w.entries, x.userId = actor.userId
  /-- After a withdrawal the user holds no entry. -/
  leaves : ∀ actor, call = .withdraw actor → (∀ x ∈ w.entries, x.status = .withdrawn) ∧
    (actor.userId ∉ w.entries.map Entry.userId → holds d actor.userId = false)

def Fits (d : Store) (q : Request) : Prop :=
  match q.phase with
  | .upserted prior row => row.userId = q.call.userId ∧ Known d row ∧
      if active prior then Same d row else Entering d row
  | .charging row _ => row.userId = q.call.userId ∧ Entering d row
  | .chosen row id => row.userId = q.call.userId ∧ Entering d row ∧ limited d id = true
  | .spending row e => row.userId = q.call.userId ∧ Entering d row ∧ limited d e.id = true ∧
      e.quantity ≠ none
  | .released row => row.userId = q.call.userId ∧ Known d row ∧ Leaving d row
  | .refunding row e => row.userId = q.call.userId ∧ Known d row ∧ Leaving d row ∧
      row.entitlementId = some e.id ∧ (limited d e.id = true ↔ e.quantity ≠ none)
  | .started _ _ _ row => Known d row ∧ row.status ≠ .withdrawn ∧ Same d row
  | .marking _ _ status => status ≠ .withdrawn
  | .written w _ => Balanced d q.call w
  | _ => True

def Answers : Phase → Prop
  | .written _ a => denied a = false
  | _ => True

structure Inv (jitter : ℕ → ℤ) (s : Sys) : Prop where
  locked : Locked (program jitter) s
  owning : ∀ r, Owning (s.requests r)
  fits : ∀ r, Fits s.store (s.requests r)
  answers : ∀ r, Answers (s.requests r).phase
  known : ∀ userId x, s.store.entries.get? userId = some x → Known s.store x
  balanced : ∀ userId, balance s.store userId = holding s.store userId

variable {jitter : ℕ → ℤ} {d d' : Store} {s t : Sys} {i : ℕ × Act} {call : Call} {p p' : Phase}
  {act : Act} {keys : List Key} {actor : Actor} {row x : Entry} {userId : ℕ}

/-! ## What stays of the entitlements -/

/-- The entitlements of `d` are there, as limited as they were. -/
def Funds (d d' : Store) : Prop :=
  ∀ id e, d.entitlements.get? id = some e → ∃ e', d'.entitlements.get? id = some e' ∧
    e'.quantity = e.quantity

theorem Funds.limited (h : Funds d d') {id : ℕ} (hid : (d.entitlements.get? id).isSome = true) :
    limited d' id = limited d id := by
  obtain ⟨e, he⟩ := Option.isSome_iff_exists.1 hid
  obtain ⟨e', he', hquantity⟩ := h id e he
  simp [ContestCharges.limited, he, he', hquantity]

theorem isSome_of_limited {id : ℕ} (h : limited d id = true) :
    (d.entitlements.get? id).isSome = true := by
  unfold limited at h
  cases hget : d.entitlements.get? id with
  | none => rw [hget] at h; cases h
  | some e => rfl

theorem Known.funds (h : Known d x) (hfunds : Funds d d') : Known d' x := by
  intro id hid
  obtain ⟨e, he⟩ := Option.isSome_iff_exists.1 (h id hid)
  obtain ⟨e', he', _⟩ := hfunds id e he
  rw [he']
  rfl

theorem worth_funds (h : Known d x) (hfunds : Funds d d') : worth d' x = worth d x := by
  unfold worth
  cases hid : x.entitlementId with
  | none => rfl
  | some id => simp only [Option.any_some, hfunds.limited (h id hid)]

theorem funds_others {call : Call} (h : others d call = some d') : Funds d d' := by
  intro id e he
  cases call with
  | bill id' consumed revokedAt =>
    cases h
    refine ⟨billed id' consumed revokedAt e, ?_, ?_⟩
    · rw [Table.get?_mapRows, he]
      rfl
    · unfold billed
      split <;> rfl
  | grant row =>
    cases h
    refine ⟨e, ?_, rfl⟩
    rw [Table.get?_put_of_ne, he]
    intro hkey
    have hnew := Table.get?_nextId d.entitlements
    rw [show d.entitlements.nextId = id from hkey, he] at hnew
    cases hnew
  | _ =>
    cases h
    try exact ⟨e, he, rfl⟩

theorem funds_land (w : Write) (u : ℕ) (d : Store) : Funds d (w.land u d) := by
  intro id e he
  unfold Write.land landBalance
  dsimp only
  split
  · exact ⟨e, he, rfl⟩
  · next loaded consumed _ =>
    rw [Table.get?_mapRows, he]
    refine ⟨_, rfl, ?_⟩
    dsimp only
    split <;> rfl

theorem funds_step (h : Step (program jitter) s i t) : Funds s.store t.store := by
  cases stepped h with
  | went _ _ _ hstore => rw [hstore]; exact fun _ e he => ⟨e, he, rfl⟩
  | refused _ hstore => rw [hstore]; exact fun _ e he => ⟨e, he, rfl⟩
  | committed w _ _ _ hstore => rw [hstore]; exact funds_land w _ _
  | other hother => exact funds_others hother

/-! ## What a check finds -/

theorem stored_of_perm {order : List Entitlement} {e : Entitlement}
    {t : Table Entitlement ℕ Entitlement.id} {p : Entitlement → Bool}
    (hperm : order.isPerm (t.select p) = true) (h : e ∈ order) : t.get? e.id = some e := by
  have hmem : e ∈ t.select p := (List.isPerm_iff.1 hperm).mem_iff.1 h
  exact Table.get?_eq_some.2 ⟨List.mem_of_mem_filter hmem, rfl⟩

theorem stored_of_check {c : Checking} {decision : Decision} {e : Entitlement}
    (h : checkStep d actor c act = some (.inr decision)) (he : decision.entitlement = some e) :
    d.entitlements.get? e.id = some e := by
  unfold checkStep at h
  split at h
  · split at h
    · next hperm =>
      dsimp only at h
      split at h
      · cases h
        exact stored_of_perm hperm (firstGranted_entitlement he).1
      · cases h
    · cases h
  · cases h
  · split at h
    · next hperm =>
      cases h
      exact stored_of_perm hperm (firstGranted_entitlement he).1
    · cases h
  · cases h

theorem spending_unlimited {e : Entitlement} (h : Entitlements.spending e 1 = .unlimited) :
    e.quantity = none := by
  unfold Entitlements.spending at h
  split at h
  · next hnone => simpa [remaining] using hnone
  · split at h <;> cases h

theorem spending_spend {e : Entitlement} (h : Entitlements.spending e 1 = .spend) :
    e.quantity ≠ none := by
  intro hnone
  simp [Entitlements.spending, remaining, hnone] at h

theorem limited_eq {e : Entitlement} {id : ℕ} (h : d.entitlements.get? id = some e) :
    limited d id = true ↔ e.quantity ≠ none := by
  simp [limited, h]

/-! ## What a statement leaves -/

theorem holds_of_get? (h : d.entries.get? userId = some x) :
    holds d userId = true ↔ x.status ≠ .withdrawn := by
  simp [holds, statusOf, active, h]

theorem holding_of_get? (h : d.entries.get? userId = some x) : holding d userId = worth d x := by
  simp [holding, h]

theorem holding_eq_zero (h : holds d userId = false) : holding d userId = 0 := by
  unfold holding
  cases hget : d.entries.get? userId with
  | none => rfl
  | some x =>
    have hwithdrawn : x.status = .withdrawn := by
      by_contra hne
      rw [(holds_of_get? hget).2 hne] at h
      cases h
    simp [worth, hwithdrawn]

theorem Same.worth (h : Same d row) : worth d row = holding d row.userId := by
  obtain ⟨x, hx, hstatus, hid⟩ := h.stored
  rw [holding_of_get? hx]
  unfold ContestCharges.worth
  simp only [hid, ne_eq, hstatus]

theorem Same.holds (h : Same d row) (hstatus : row.status ≠ .withdrawn) :
    holds d row.userId = true := by
  obtain ⟨x, hx, hsame, _⟩ := h.stored
  exact (holds_of_get? hx).2 (fun hx' => hstatus (hsame.2 hx'))

theorem balanced_of_same {w : Write} (hcharged : w.charged = none) (hrefunded : w.refunded = none)
    (hknown : ∀ x ∈ w.entries, Known d x) (hsame : ∀ x ∈ w.entries, Same d x)
    (hown : ∀ actor, call = .register actor → ∀ x ∈ w.entries, x.userId = actor.userId)
    (hcall : ∀ actor, call ≠ .withdraw actor) : Balanced d call w where
  known := hknown
  rows x hx := by
    rw [hcharged, hrefunded, (hsame x hx).worth]
    simp
  entry h := by simp [hcharged, hrefunded] at h
  paying h := absurd hcharged h
  steady _ x hx := (hsame x hx).holds
  own := hown
  leaves actor h := absurd h (hcall actor)

theorem balanced_of_entering {w : Write} {id : ℕ} (hrow : Entering d row)
    (huser : row.userId = actor.userId) (hentries : w.entries = [{ row with entitlementId := some id }])
    (hid : (d.entitlements.get? id).isSome = true) (hrefunded : w.refunded = none)
    (hcharged : units w.charged = if limited d id then 1 else 0) :
    Balanced d (.register actor) w where
  known := by
    rw [hentries]
    refine List.forall_mem_singleton.2 (fun k hk => ?_)
    cases hk
    exact hid
  rows := by
    rw [hentries]
    refine List.forall_mem_singleton.2 ?_
    rw [hcharged, hrefunded, if_pos (by exact huser)]
    rw [show holding d _ = 0 from holding_eq_zero hrow.absent]
    simp [worth, hrow.status, units]
  entry _ := by
    rw [hentries]
    exact List.mem_singleton.2 huser.symm
  paying _ := by
    have habsent := hrow.absent
    rw [huser] at habsent
    rw [hentries]
    exact ⟨List.mem_singleton.2 huser.symm, habsent⟩
  steady h := absurd rfl (h actor)
  own a ha := by
    cases ha
    rw [hentries]
    exact List.forall_mem_singleton.2 huser
  leaves _ h := by cases h

theorem balanced_of_leaving {w : Write} (hrow : Leaving d row) (hknown : Known d row)
    (huser : row.userId = actor.userId) (hentries : w.entries = [row]) (hcharged : w.charged = none)
    (hrefunded : units w.refunded = if row.entitlementId.any (limited d) then 1 else 0) :
    Balanced d (.withdraw actor) w where
  known := by
    rw [hentries]
    exact List.forall_mem_singleton.2 hknown
  rows := by
    rw [hentries]
    refine List.forall_mem_singleton.2 ?_
    obtain ⟨x, hx, hstatus, hid⟩ := hrow.stored
    rw [hcharged, hrefunded, if_pos (by exact huser), holding_of_get? hx, hid]
    simp [worth, hstatus, hrow.status, units]
  entry _ := by
    rw [hentries]
    exact List.mem_singleton.2 huser.symm
  paying h := absurd hcharged h
  steady _ := by
    rw [hentries]
    exact List.forall_mem_singleton.2 (fun h => absurd hrow.status h)
  own _ h := by cases h
  leaves a ha := by
    cases ha
    rw [hentries]
    refine ⟨List.forall_mem_singleton.2 hrow.status, fun hn => ?_⟩
    exact absurd (List.mem_singleton.2 huser.symm) hn

theorem balanced_of_absent (h : holds d actor.userId = false) :
    Balanced d (.withdraw actor) {} where
  known _ hx := by cases hx
  rows _ hx := by cases hx
  entry h := absurd rfl h
  paying h := absurd rfl h
  steady _ _ hx := by cases hx
  own _ h := by cases h
  leaves a ha := by
    cases ha
    exact ⟨fun _ hx => absurd hx List.not_mem_nil, fun _ => h⟩

theorem same_of_get? (h : d.entries.get? userId = some x) {y : Entry} (huser : y.userId = x.userId)
    (hstatus : y.status = .withdrawn ↔ x.status = .withdrawn)
    (hid : y.entitlementId = x.entitlementId) : Same d y where
  stored := by
    have hkey : x.userId = userId := Table.get?_key h
    exact ⟨x, by rw [huser, hkey]; exact h, hstatus, hid⟩

theorem known_upsert (hknown : ∀ userId x, d.entries.get? userId = some x → Known d x)
    (userId : ℕ) (now : Time) : Known d (upsert d userId now) := by
  unfold upsert
  split
  · exact fun _ h => by cases h
  · next row hrow =>
    split
    · exact hknown userId row hrow
    · exact hknown userId row hrow

theorem same_upsert (h : holds d userId = true) (now : Time) : Same d (upsert d userId now) := by
  cases hget : d.entries.get? userId with
  | none => simp [holds, statusOf, active, hget] at h
  | some row =>
    have hne := (holds_of_get? hget).1 h
    have hrow : upsert d userId now = row := by simp [upsert, hget, hne]
    rw [hrow]
    exact same_of_get? hget rfl Iff.rfl rfl

theorem entering_upsert (h : holds d userId = false) (now : Time) :
    Entering d (upsert d userId now) where
  absent := by rwa [upsert_userId]
  status := by
    unfold upsert
    split
    · rfl
    · next row hrow =>
      split
      · rfl
      · next hne =>
        rw [(holds_of_get? hrow).2 hne] at h
        cases h

theorem marked_held {target : Status} {userIds : List ℕ} {status : EntryStatus} {y : Entry}
    (h : y ∈ marked d target userIds status) (hstatus : status ≠ .withdrawn) :
    ∃ x, d.entries.get? x.userId = some x ∧ Same d y := by
  unfold marked onEnter at h
  split at h
  · cases h
  · next rows _ hrows =>
    obtain ⟨x, hx, rfl⟩ := List.mem_map.1 h
    have hmem := (List.mem_filter.1 hx).1
    have hstored : d.entries.get? x.userId = some x ∧ x.status ≠ .withdrawn := by
      split at hrows <;> cases hrows
      · obtain ⟨hrow, hregistered⟩ := List.mem_filter.1 hmem
        refine ⟨Table.get?_eq_some.2 ⟨hrow, rfl⟩, fun hw => ?_⟩
        simp [hw] at hregistered
      · obtain ⟨hrow, hstarted⟩ := List.mem_filter.1 hmem
        refine ⟨Table.get?_eq_some.2 ⟨hrow, rfl⟩, fun hw => ?_⟩
        simp [hw] at hstarted
    refine ⟨x, hstored.1, same_of_get? hstored.1 rfl ?_ rfl⟩
    exact iff_of_false hstatus hstored.2

theorem fetched_same (row : Entry) (now : Time) :
    (fetched row now).status = .withdrawn ↔ row.status = .withdrawn := by
  unfold fetched
  dsimp only
  split
  · next hregistered => simp [hregistered]
  · exact Iff.rfl

theorem fits_registering (h : Registering d actor p act p' keys) {q q' : List Key}
    (hp : Fits d { call := .register actor, phase := p, held := q })
    (hknown : ∀ userId x, d.entries.get? userId = some x → Known d x)
    (hguard : ∀ prior now, p = .upserting prior → act = .run now →
      active prior = holds d actor.userId) :
    Fits d { call := .register actor, phase := p', held := q' } := by
  cases h with
  | @upserted prior now =>
    refine ⟨upsert_userId d _ now, known_upsert hknown _ now, ?_⟩
    have hprior := hguard _ _ rfl rfl
    split
    · next hactive => exact same_upsert (hprior ▸ hactive) now
    · next hactive => exact entering_upsert (by rw [← hprior]; simpa using hactive) now
  | again active' =>
    obtain ⟨huser, hrow, hsame⟩ := hp
    rw [if_pos active'] at hsame
    exact balanced_of_same rfl rfl (List.forall_mem_singleton.2 hrow)
      (List.forall_mem_singleton.2 hsame)
      (fun a ha => by cases ha; exact List.forall_mem_singleton.2 huser) (fun _ h => by cases h)
  | owing active' =>
    obtain ⟨huser, _, hentering⟩ := hp
    rw [active', if_neg (by decide)] at hentering
    exact ⟨huser, hentering⟩
  | charging => exact hp
  | @unlimited _ _ _ _ e check entitlement free =>
    have hstored := stored_of_check check entitlement
    have hlimited : limited d e.id = false := by
      simpa [spending_unlimited free] using limited_eq hstored
    exact balanced_of_entering hp.2 hp.1 rfl (by rw [hstored]; rfl) rfl (by simp [units, hlimited])
  | chosen check entitlement owed =>
    have hstored := stored_of_check check entitlement
    exact ⟨hp.1, hp.2, (limited_eq hstored).2 (spending_spend owed)⟩
  | loaded stored =>
    obtain ⟨huser, hentering, hlimited⟩ := hp
    have hkey := Table.get?_key stored
    subst hkey
    exact ⟨huser, hentering, hlimited, (limited_eq stored).1 hlimited⟩
  | spent =>
    obtain ⟨huser, hentering, hlimited, hquantity⟩ := hp
    exact balanced_of_entering hentering huser rfl (isSome_of_limited hlimited) rfl
      (by simp [units, hlimited, hquantity])
  | _ => trivial

theorem fits_withdrawing (h : Withdrawing d actor p act p' keys) {q q' : List Key}
    (hp : Fits d { call := .withdraw actor, phase := p, held := q })
    (hknown : ∀ userId x, d.entries.get? userId = some x → Known d x)
    (hguard : ∀ now, p = .withdrawing ∨ p = .matched → act = .run now →
      holds d actor.userId = true → statusOf d actor.userId = some .registered) :
    Fits d { call := .withdraw actor, phase := p', held := q' } := by
  cases h with
  | unmatched other =>
    refine balanced_of_absent ?_
    by_contra hholds
    exact other (hguard _ (.inl rfl) rfl (by simpa using hholds))
  | lost gone =>
    refine balanced_of_absent ?_
    by_contra hholds
    have hregistered := hguard _ (.inr rfl) rfl (by simpa using hholds)
    obtain ⟨x, hx, hstatus⟩ := Option.map_eq_some_iff.1 hregistered
    simp [release, hx, hstatus] at gone
  | @unspent row _ found free =>
    obtain ⟨hstored, hstatus⟩ := release_eq_some found
    have hkey : row.userId = actor.userId := Table.get?_key hstored
    have hleaving : Leaving d { row with status := .withdrawn } :=
      ⟨⟨row, by rw [hkey]; exact hstored, hstatus, rfl⟩, rfl⟩
    have hrow : Known d { row with status := .withdrawn } :=
      fun id hid => hknown _ _ hstored id hid
    exact balanced_of_leaving hleaving hrow hkey rfl rfl (by simp [units, free])
  | released found paid =>
    obtain ⟨hstored, hstatus⟩ := release_eq_some found
    have hkey := Table.get?_key hstored
    exact ⟨hkey, fun id hid => hknown _ _ hstored id hid,
      ⟨⟨_, by rw [hkey]; exact hstored, hstatus, rfl⟩, rfl⟩⟩
  | loaded stored =>
    obtain ⟨huser, hrow, hleaving⟩ := hp
    obtain ⟨id, hid, hget⟩ := Option.bind_eq_some_iff.1 stored
    have hkey := Table.get?_key hget
    subst hkey
    exact ⟨huser, hrow, hleaving, hid, limited_eq hget⟩
  | refunded written =>
    obtain ⟨huser, hrow, hleaving, hid, hlimited⟩ := hp
    subst written
    refine balanced_of_leaving hleaving hrow huser rfl rfl ?_
    simp only [units, hid, Option.any_some, hlimited]
    simp
  | _ => trivial

theorem fits_went (h : Went jitter d call p act p' keys) {q q' : List Key}
    (hp : Fits d { call, phase := p, held := q })
    (hknown : ∀ userId x, d.entries.get? userId = some x → Known d x)
    (hprior : ∀ actor prior now, call = .register actor → p = .upserting prior → act = .run now →
      active prior = holds d actor.userId)
    (hwithdraw : ∀ actor now, call = .withdraw actor → p = .withdrawing ∨ p = .matched →
      act = .run now → holds d actor.userId = true →
        statusOf d actor.userId = some .registered)
    (hrelease : ∀ actor now isFrozen a at', call = .releaseKey actor →
      p = .attempting now isFrozen a → act = .run at' → holds d actor.userId = true) :
    Fits d { call, phase := p', held := q' } := by
  cases h with
  | register h => exact fits_registering h hp hknown (fun _ _ => hprior _ _ _ rfl)
  | withdraw h => exact fits_withdrawing h hp hknown (fun _ => hwithdraw _ _ rfl)
  | lobby h =>
    cases h with
    | fetched stored =>
      refine balanced_of_same rfl rfl ?_ ?_ (fun _ h => by cases h) (fun _ h => by cases h)
      · exact List.forall_mem_singleton.2 (fun id hid => hknown _ _ stored id hid)
      · exact List.forall_mem_singleton.2 (same_of_get? stored rfl (fetched_same _ _) rfl)
    | _ => trivial
  | releaseKey h =>
    cases h with
    | started stored =>
      have hholds := hrelease _ _ _ _ _ rfl rfl rfl
      have hne := (holds_of_get? stored).1 hholds
      refine ⟨fun id hid => hknown _ _ stored id hid, (fun h => by cases h), ?_⟩
      exact same_of_get? stored rfl (iff_of_false (fun h => by cases h) hne) rfl
    | froze written =>
      subst written
      obtain ⟨hrow, _, hsame⟩ := hp
      exact balanced_of_same rfl rfl (List.forall_mem_singleton.2 hrow)
        (List.forall_mem_singleton.2 hsame) (fun _ h => by cases h) (fun _ h => by cases h)
    | resumed =>
      exact balanced_of_same rfl rfl (fun _ hx => by cases hx) (fun _ hx => by cases hx)
        (fun _ h => by cases h) (fun _ h => by cases h)
    | _ => trivial
  | tick h =>
    cases h with
    | entered rows' =>
      unfold onEnter at rows'
      split at rows' <;> cases rows' <;> exact fun h => by cases h
    | marked written =>
      subst written
      refine balanced_of_same rfl rfl ?_ ?_ (fun _ h => by cases h) (fun _ h => by cases h)
      · intro y hy
        obtain ⟨x, hx, hsame⟩ := marked_held hy hp
        obtain ⟨z, hz, _, hid⟩ := hsame.stored
        exact fun id h => hknown _ _ hz id (hid ▸ h)
      · exact fun y hy => (marked_held hy hp).choose_spec.2
    | passed =>
      exact balanced_of_same rfl rfl (fun _ hx => by cases hx) (fun _ hx => by cases hx)
        (fun _ h => by cases h) (fun _ h => by cases h)
    | idle =>
      exact balanced_of_same rfl rfl (fun _ hx => by cases hx) (fun _ hx => by cases hx)
        (fun _ h => by cases h) (fun _ h => by cases h)
    | plain =>
      exact balanced_of_same rfl rfl (fun _ hx => by cases hx) (fun _ hx => by cases hx)
        (fun _ h => by cases h) (fun _ h => by cases h)
    | _ => trivial

theorem answers_went (h : Went jitter d call p act p' keys) : Answers p' := by
  cases h with
  | register h => cases h <;> first | rfl | trivial
  | withdraw h => cases h <;> first | rfl | trivial
  | lobby h => cases h <;> first | rfl | trivial
  | releaseKey h => cases h <;> first | rfl | trivial
  | tick h => cases h <;> first | rfl | trivial

/-! ## What a commit does to the accounts -/

theorem unitsOf_append (e : Option Entitlement) (u : ℕ) (log : List (ℕ × Entitlement)) (userId : ℕ) :
    unitsOf (e.toList.map (fun x => (u, x)) ++ log) userId =
      unitsOf log userId + if userId = u then units e else 0 := by
  cases e with
  | none => simp [unitsOf, units]
  | some x =>
    by_cases huser : userId = u
    · subst huser
      by_cases hquantity : x.quantity = none <;> simp [unitsOf, units, hquantity]
    · have hne : ¬ u = userId := fun heq => huser heq.symm
      simp [unitsOf, huser, hne]

theorem balance_land (w : Write) (u : ℕ) (d : Store) (userId : ℕ) :
    balance (w.land u d) userId = balance d userId +
      if userId = u then units w.charged - units w.refunded else 0 := by
  unfold balance Write.land
  dsimp only
  rw [unitsOf_append, unitsOf_append]
  split <;> ring

theorem holding_land {w : Write} (hw : Balanced d call w)
    (hknown : ∀ userId x, d.entries.get? userId = some x → Known d x) (userId : ℕ) :
    holding (w.land call.userId d) userId = holding d userId +
      if userId = call.userId then units w.charged - units w.refunded else 0 := by
  have hfunds := funds_land w call.userId d
  rcases get?_land w call.userId d userId with ⟨x, hx, hkey, id, hget⟩ | ⟨hn, hget⟩
  · rw [holding_of_get? hget, ← hkey]
    have hworth : worth (w.land call.userId d) x = worth d x := worth_funds (hw.known x hx) hfunds
    exact hworth.trans (hw.rows x hx)
  · have hsame : holding (w.land call.userId d) userId = holding d userId := by
      unfold holding
      rw [hget]
      cases hstored : d.entries.get? userId with
      | none => rfl
      | some x => exact worth_funds (hknown _ _ hstored) hfunds
    split
    · next huser =>
      have hdelta : units w.charged = units w.refunded := by
        by_contra hne
        exact hn (huser ▸ hw.entry hne)
      rw [hsame, hdelta]
      simp
    · rw [hsame]
      simp

theorem balance_others (h : others d call = some d') :
    d'.charged = d.charged ∧ d'.refunded = d.refunded := by
  cases call <;> cases h <;> exact ⟨rfl, rfl⟩

theorem holding_funds (hentries : d'.entries = d.entries) (hfunds : Funds d d')
    (hknown : ∀ userId x, d.entries.get? userId = some x → Known d x) (userId : ℕ) :
    holding d' userId = holding d userId := by
  unfold holding
  rw [hentries]
  cases hstored : d.entries.get? userId with
  | none => rfl
  | some x => exact worth_funds (hknown _ _ hstored) hfunds

theorem balanced_step (hs : Inv jitter s) (h : Step (program jitter) s i t) (userId : ℕ) :
    balance t.store userId = holding t.store userId := by
  cases stepped h with
  | went _ _ _ hstore => rw [hstore]; exact hs.balanced userId
  | refused _ hstore => rw [hstore]; exact hs.balanced userId
  | committed w a _ hphase hstore =>
    have hw := hs.fits i.1
    rw [Fits, hphase] at hw
    rw [hstore, balance_land, holding_land hw hs.known, hs.balanced]
  | other hother =>
    rw [holding_funds (others_entries hother).1 (funds_others hother) hs.known, ← hs.balanced,
      balance, (balance_others hother).1, (balance_others hother).2]
    rfl

theorem known_step (hs : Inv jitter s) (h : Step (program jitter) s i t) (userId : ℕ) (x : Entry)
    (hx : t.store.entries.get? userId = some x) : Known t.store x := by
  have hfunds := funds_step h
  cases stepped h with
  | went _ _ _ hstore => rw [hstore] at hx ⊢; exact hs.known userId x hx
  | refused _ hstore => rw [hstore] at hx ⊢; exact hs.known userId x hx
  | committed w a _ hphase hstore =>
    have hw := hs.fits i.1
    rw [Fits, hphase] at hw
    refine Known.funds ?_ hfunds
    rw [hstore] at hx
    rcases get?_land w (s.requests i.1).call.userId s.store userId with
      ⟨y, hy, _, id, hget⟩ | ⟨_, hget⟩
    · cases hget.symm.trans hx
      exact hw.known y hy
    · exact hs.known userId x (hget ▸ hx)
  | other hother =>
    rw [(others_entries hother).1] at hx
    exact (hs.known userId x hx).funds hfunds

theorem holds_step (hs : Inv jitter s) (h : Step (program jitter) s i t) (userId : ℕ)
    (hholds : holds t.store userId = true) : holds s.store userId = true ∨
      ∃ actor w a, (s.requests i.1).call = .register actor ∧ actor.userId = userId ∧
        (s.requests i.1).phase = .written w a ∧ i.2 = .commit := by
  cases stepped h with
  | went _ _ _ hstore => rw [hstore] at hholds; exact .inl hholds
  | refused _ hstore => rw [hstore] at hholds; exact .inl hholds
  | other hother =>
    rw [holds, statusOf, (others_entries hother).1] at hholds
    exact .inl hholds
  | committed w a hact hphase hstore =>
    have hw := hs.fits i.1
    rw [Fits, hphase] at hw
    rw [hstore] at hholds
    rcases get?_land w (s.requests i.1).call.userId s.store userId with
      ⟨y, hy, hkey, id, hget⟩ | ⟨_, hget⟩
    · have hstatus := (holds_of_get? hget).1 hholds
      by_cases hcall : ∃ actor, (s.requests i.1).call = .register actor
      · obtain ⟨actor, hcall⟩ := hcall
        exact .inr ⟨actor, w, a, hcall, (hw.own actor hcall y hy).symm.trans hkey, hphase, hact⟩
      · rw [not_exists] at hcall
        exact .inl (hkey ▸ hw.steady hcall y hy hstatus)
    · rw [holds, statusOf, hget] at hholds
      exact .inl hholds

/-! ## What a step of another leaves -/

theorem Same.stable (h : Same d row)
    (hrow : d'.entries.get? row.userId = d.entries.get? row.userId) : Same d' row := by
  obtain ⟨x, hx, hstatus, hid⟩ := h.stored
  exact ⟨x, hrow.trans hx, hstatus, hid⟩

theorem holds_stable (hrow : d'.entries.get? userId = d.entries.get? userId) :
    holds d' userId = holds d userId := by
  rw [holds, statusOf, hrow]
  rfl

theorem Entering.stable (h : Entering d row)
    (hrow : d'.entries.get? row.userId = d.entries.get? row.userId) : Entering d' row where
  absent := (holds_stable hrow).trans h.absent
  status := h.status

theorem Leaving.stable (h : Leaving d row)
    (hrow : d'.entries.get? row.userId = d.entries.get? row.userId) : Leaving d' row where
  stored := by
    obtain ⟨x, hx, hrest⟩ := h.stored
    exact ⟨x, hrow.trans hx, hrest⟩
  status := h.status

theorem limited_stable {id : ℕ} (h : limited d id = true) (hfunds : Funds d d') :
    limited d' id = true := (hfunds.limited (isSome_of_limited h)).trans h

theorem Balanced.stable {w : Write} (h : Balanced d call w) (hfunds : Funds d d')
    (hknown : ∀ userId x, d.entries.get? userId = some x → Known d x)
    (hrows : ∀ x ∈ w.entries, d'.entries.get? x.userId = d.entries.get? x.userId)
    (hleaves : ∀ actor, call = .withdraw actor → holds d actor.userId = false →
      holds d' actor.userId = false) : Balanced d' call w where
  known x hx := (h.known x hx).funds hfunds
  rows x hx := by
    have hholding : holding d' x.userId = holding d x.userId := by
      unfold holding
      rw [hrows x hx]
      cases hstored : d.entries.get? x.userId with
      | none => rfl
      | some y => exact worth_funds (hknown _ _ hstored) hfunds
    rw [worth_funds (h.known x hx) hfunds, hholding]
    exact h.rows x hx
  entry := h.entry
  paying hcharged := by
    obtain ⟨hmem, habsent⟩ := h.paying hcharged
    obtain ⟨x, hx, hkey⟩ := List.mem_map.1 hmem
    refine ⟨hmem, ?_⟩
    rw [← hkey, holds_stable (hrows x hx), hkey]
    exact habsent
  steady hcall x hx hstatus := (holds_stable (hrows x hx)).trans (h.steady hcall x hx hstatus)
  own := h.own
  leaves actor hcall :=
    ⟨(h.leaves actor hcall).1, fun hn => hleaves actor hcall ((h.leaves actor hcall).2 hn)⟩

theorem Fits.stable {q : Request} (h : Fits d q) (hfunds : Funds d d')
    (hknown : ∀ userId x, d.entries.get? userId = some x → Known d x)
    (hrows : ∀ x ∈ q.phase.rows, d'.entries.get? x.userId = d.entries.get? x.userId)
    (hleaves : ∀ actor w a, q.call = .withdraw actor → q.phase = .written w a →
      holds d actor.userId = false → holds d' actor.userId = false) : Fits d' q := by
  obtain ⟨call, phase, held⟩ := q
  cases phase with
  | upserted prior row =>
    have hrow := hrows row List.mem_cons_self
    obtain ⟨huser, hid, hstored⟩ := h
    refine ⟨huser, hid.funds hfunds, ?_⟩
    split
    · next hactive =>
      rw [if_pos hactive] at hstored
      exact hstored.stable hrow
    · next hactive =>
      rw [if_neg hactive] at hstored
      exact hstored.stable hrow
  | charging row c => exact ⟨h.1, h.2.stable (hrows row List.mem_cons_self)⟩
  | chosen row id =>
    exact ⟨h.1, h.2.1.stable (hrows row List.mem_cons_self), limited_stable h.2.2 hfunds⟩
  | spending row e =>
    exact ⟨h.1, h.2.1.stable (hrows row List.mem_cons_self), limited_stable h.2.2.1 hfunds, h.2.2.2⟩
  | released row =>
    exact ⟨h.1, h.2.1.funds hfunds, h.2.2.stable (hrows row List.mem_cons_self)⟩
  | refunding row e =>
    obtain ⟨huser, hid, hleaving, heq, hlimited⟩ := h
    refine ⟨huser, hid.funds hfunds, hleaving.stable (hrows row List.mem_cons_self), heq, ?_⟩
    rw [hfunds.limited (hid _ heq)]
    exact hlimited
  | started now isFrozen a row =>
    exact ⟨h.1.funds hfunds, h.2.1, h.2.2.stable (hrows row List.mem_cons_self)⟩
  | marking target userIds status => exact h
  | written w a =>
    exact Balanced.stable h hfunds hknown hrows (fun actor hcall => hleaves actor w a hcall rfl)
  | _ => trivial

theorem inv_step (hs : Inv jitter s) (hg : Meets s i) (h : Step (program jitter) s i t) :
    Inv jitter t where
  locked := locked_step hs.locked h
  owning := owning_step hs.owning h
  known := known_step hs h
  balanced := balanced_step hs h
  answers r := request_step h r (C := fun q => Answers q.phase)
    (fun _ _ _ _ hwent => answers_went hwent) (fun _ _ => trivial) (fun _ => hs.answers r)
  fits r := by
    refine request_step h r (fun hr hstore phase keys hwent => ?_) (fun _ _ => trivial) (fun hr => ?_)
    · rw [hstore]
      unfold Meets at hg
      rw [← hr] at hg
      refine fits_went hwent (hs.fits r) hs.known ?_ ?_ ?_
      · intro actor prior now hcall hphase hact
        rwa [hcall, hphase, hact] at hg
      · intro actor now hcall hphase hact
        rcases hphase with hphase | hphase <;> rwa [hcall, hphase, hact] at hg
      · intro actor now isFrozen a at' hcall hphase hact
        rwa [hcall, hphase, hact] at hg
    · refine (hs.fits r).stable (funds_step h) hs.known
        (fun x hx => entry_stable hs.locked h hr (hs.owning r x hx)) ?_
      -- Only a registration that commits meanwhile could undo a withdrawal.
      intro actor w a hcall hphase habsent
      by_contra hholds
      rw [Bool.not_eq_false] at hholds
      rcases holds_step hs h _ hholds with hheld | ⟨actor', w', a', hcall', huser, hphase', hact⟩
      · rw [habsent] at hheld
        cases hheld
      · unfold Meets at hg
        rw [hcall', hphase', hact] at hg
        exact hg (huser ▸ habsent) r actor hcall huser.symm w a hphase

theorem inv_start (contest : Contest) (content : ContentStore)
    (entitlements : Table Entitlement ℕ Entitlement.id) (seats : List Seat) (calls : ℕ → Call) :
    Inv jitter (start contest content entitlements seats calls) where
  locked := locked_start (fun _ => rfl)
  owning _ _ hx := by cases hx
  fits _ := trivial
  answers _ := trivial
  known _ _ hx := by cases hx
  balanced _ := rfl

/-! ## What is promised -/

theorem denied_of_refusing {e : Refusal} (h : denied (.refused e) = true)
    (hr : Refusing d actor p act e) :
    (∃ c decision, p = .gate c ∧ checkStep d actor c act = some (.inr decision) ∧
      decision.allowed = false) ∨
    (∃ now, p = .counting ∧ act = .run now ∧
      d.contest.cap.any (fun cap => (taken d : ℤ) ≥ cap) = true) ∨
    ∃ row c, p = .charging row c := by
  cases hr with
  | unseen => cases h
  | closed => cases h
  | denied check denied => exact .inl ⟨_, _, rfl, check, denied⟩
  | full full => exact .inr (.inl ⟨_, rfl, rfl, full⟩)
  | unpaid => exact .inr (.inr ⟨_, _, rfl⟩)
  | lost => cases h

theorem not_denied (hs : Inv jitter s) (hg : Meets s i) (hcall : (s.requests i.1).call = .register actor)
    (hholds : holds s.store actor.userId = true) {e : Refusal}
    (hturn : turn jitter s.store (s.requests i.1) i.2 = refuse (s.requests i.1) e) :
    denied (.refused e) = false := by
  by_contra hdenied
  rw [Bool.not_eq_false] at hdenied
  unfold turn at hturn
  simp only [hcall] at hturn
  unfold Meets at hg
  rcases denied_of_refusing hdenied (register_refused hturn) with
    ⟨c, decision, hphase, hcheck, hno⟩ | ⟨now, hphase, hact, hfull⟩ | ⟨row, c, hphase⟩
  · rw [hcall, hphase] at hg
    rw [hg hholds decision hcheck] at hno
    cases hno
  · rw [hcall, hphase, hact] at hg
    rw [hg hholds] at hfull
    cases hfull
  · have hfits := hs.fits i.1
    rw [Fits, hphase] at hfits
    have habsent := hfits.2.absent
    rw [hfits.1, hcall] at habsent
    exact absurd (hholds.symm.trans habsent) (by decide)

theorem went_not_done {a : Answer} (h : Went jitter d call p act (.done a) keys) : False := by
  cases h with
  | register h => cases h
  | withdraw h => cases h
  | lobby h => cases h
  | releaseKey h => cases h
  | tick h => cases h

theorem holder_step (hs : Inv jitter s) (hg : Meets s i) (h : Step (program jitter) s i t)
    (hcall : (s.requests i.1).call = .register actor)
    (hholds : holds s.store actor.userId = true) :
    ((∀ e, i.2 ≠ .fail e) → ∀ a, (t.requests i.1).phase = .done a → denied a = false) ∧
      t.store.charged = s.store.charged := by
  cases stepped h with
  | went phase keys hwent hstore hrequest =>
    refine ⟨fun _ a ha => ?_, by rw [hstore]⟩
    rw [hrequest] at ha
    cases ha
    exact (went_not_done hwent).elim
  | refused e hstore hrequest hturn =>
    refine ⟨fun hfail a ha => ?_, by rw [hstore]⟩
    rw [hrequest] at ha
    cases ha
    rcases hturn with ⟨x, hx⟩ | hturn
    · exact absurd hx (hfail x)
    · exact not_denied hs hg hcall hholds hturn
  | committed w a _ hphase hstore hrequest =>
    refine ⟨fun _ b hb => ?_, ?_⟩
    · rw [hrequest] at hb
      cases hb
      have hanswers := hs.answers i.1
      rw [hphase] at hanswers
      exact hanswers
    · have hw := hs.fits i.1
      rw [Fits, hphase] at hw
      have hfree : w.charged = none := by
        by_contra hcharged
        have habsent := (hw.paying hcharged).2
        rw [hcall] at habsent
        exact absurd (hholds.symm.trans habsent) (by decide)
      rw [hstore, Write.land, hfree]
      rfl
  | other hother =>
    rw [hcall] at hother
    cases hother

theorem withdrawn_step (hs : Inv jitter s) (h : Step (program jitter) s i t)
    (hcall : (s.requests i.1).call = .withdraw actor)
    (hdone : (t.requests i.1).phase = .done .noContent) : holds t.store actor.userId = false := by
  cases stepped h with
  | went phase keys hwent _ hrequest =>
    rw [hrequest] at hdone
    cases hdone
    exact (went_not_done hwent).elim
  | refused e _ hrequest =>
    rw [hrequest] at hdone
    cases hdone
  | committed w a _ hphase hstore =>
    have hw := hs.fits i.1
    rw [Fits, hphase] at hw
    obtain ⟨hrows, habsent⟩ := hw.leaves actor hcall
    by_contra hholds
    rw [Bool.not_eq_false, hstore] at hholds
    rcases get?_land w (s.requests i.1).call.userId s.store actor.userId with
      ⟨y, hy, _, id, hget⟩ | ⟨hn, hget⟩
    · exact (holds_of_get? hget).1 hholds (hrows y hy)
    · rw [holds_stable hget, habsent hn] at hholds
      cases hholds
  | other hother =>
    rw [hcall] at hother
    cases hother

theorem one_charge (jitter : ℕ → ℤ) : OneCharge jitter Meets := by
  intro contest content entitlements seats calls is s i t hrun hg hi
  have hs := hrun.invariant (fun _ _ _ hs hg hi => inv_step hs hg hi)
    (inv_start contest content entitlements seats calls)
  exact
    { balanced := (inv_step hs hg hi).balanced
      holder := fun actor => holder_step hs hg hi
      withdrawn := fun actor => withdrawn_step hs hi }

/-! ## A pack of one -/

def openContest : Contest where
  testVersionId := 1
  lobbyOpensAt := seconds 600
  startsAt := seconds 720
  endsAt := seconds 4320
  durationSeconds := 3600

def packOfOne : Entitlement where
  id := 1
  subjectKind := .user
  subjectId := some 1
  feature := "competition.entry"
  sourceKind := .order
  sourceId := none
  quantity := some 1
  consumed := 0
  startsAt := 0
  expiresAt := none
  revokedAt := none
  revokedReason := none

def eager : Sys :=
  start openContest noContent ⟨[packOfOne], by decide⟩ [] (fun _ => .register { userId := 1 })

def registering (r : ℕ) (pack : Entitlement) : List (ℕ × Act) :=
  [(r, .read 1), (r, .readUser 1 [pack]), (r, .run 1), (r, .run 1), (r, .run 1), (r, .run 1),
    (r, .readUser 1 [pack]), (r, .run 1), (r, .run 1), (r, .commit)]

def registrant : Call → Option Actor
  | .register actor => some actor
  | _ => none

def answered : Phase → Option Answer
  | .done a => some a
  | _ => none

theorem not_oneCharge_of_repeat : ¬ OneCharge (fun _ => 0) (fun _ _ => True) := by
  intro h
  have hrun : ((follow (step (program (fun _ => 0))) (fun _ _ => True)
      (registering 0 packOfOne ++ [(1, .read 2)]) eager).bind
      (fun s => (step (program (fun _ => 0)) s
        (1, .readUser 2 [{ packOfOne with consumed := 1 }])).map (fun t =>
          (registrant (s.requests 1).call, holds s.store 1, answered (t.requests 1).phase)))) =
      some (some { userId := 1 }, true, some (.refused (paymentRequired .exhausted))) := by
    decide +kernel
  obtain ⟨s, hs, hlast⟩ := Option.bind_eq_some_iff.1 hrun
  obtain ⟨t, ht, hboth⟩ := Option.map_eq_some_iff.1 hlast
  rw [Prod.mk.injEq, Prod.mk.injEq] at hboth
  obtain ⟨hregistrant, hholds, hanswered⟩ := hboth
  have hcall : (s.requests 1).call = .register { userId := 1 } := by
    generalize (s.requests 1).call = call at hregistrant
    cases call <;> cases hregistrant
    rfl
  have hdone : (t.requests 1).phase = .done (.refused (paymentRequired .exhausted)) := by
    generalize (t.requests 1).phase = phase at hanswered
    cases phase <;> cases hanswered
    rfl
  have hfair := (h _ _ _ _ _ _ _ _ _ (runs_of_follow hs) trivial ht).holder _ hcall hholds
  exact absurd (hfair.1 (fun _ hact => by cases hact) _ hdone) (by decide)

end IeltsHub.ContestCharges
