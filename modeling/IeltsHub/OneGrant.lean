import IeltsHub.ProviderCalls

set_option autoImplicit false

/-!
# One order, one grant

Captures of an order, by either provider and repeated, among the revocations of what it granted.
The grant asks for no live entitlement of the feature, so it finds every feature granted, and
grants nothing, as long as none of them has been revoked.
-/
namespace IeltsHub.OneGrant
open PyTime PyDict RowTable GuardedRuns BillingModels ClickCallbacks ProviderCalls

/-! ## What an order has been granted -/

abbrev Entitlements := Table Entitlement ℕ Entitlement.id

def isFrom (source : SourceKind) (orderId : ℕ) (e : Entitlement) : Bool :=
  e.sourceKind = source ∧ e.sourceId = some orderId

def grants (source : SourceKind) (orderId : ℕ) (t : Entitlements) : List (String × Option ℤ) :=
  (t.select (isFrom source orderId)).map (fun e => (e.feature, e.quantity))

/-- Nothing before the order is paid; after that one entitlement for every entry of its product,
with the quantity `_feature_grants` gives it. -/
def GrantedOnce (orderId : ℕ) (l : Ledger) : Prop :=
  ∃ o p pr, joined l orderId = some (o, p, pr) ∧
    grants (sourceKind p.kind) orderId l.entitlements =
      if o.status = .paid then featureGrants p.features o.quantity p.kind else []

def Distinct (orderId : ℕ) (l : Ledger) : Prop :=
  ∀ o p pr, joined l orderId = some (o, p, pr) →
    ((featureGrants p.features o.quantity p.kind).map Prod.fst).Nodup

inductive Act where
  | call (c : Call)
  | revoke (now : Time) (id : ℕ) (reason : String)

def act (cal : Calendar) (cfg : Settings) (db : Db) : Act → Db
  | .call c => (serve cal cfg db c).2
  | .revoke now id reason =>
    match revokeEntitlement now db.ledger id reason with
    | some ledger => { db with ledger := ledger }
    | none => db

def Unrevoked (cfg : Settings) (orderId : ℕ) (db : Db) : Act → Prop
  | .call c => (effectOf cfg db c).captures = some orderId →
      ∀ o p pr, joined db.ledger orderId = some (o, p, pr) →
        ∀ e ∈ db.ledger.entitlements.select (isFrom (sourceKind p.kind) orderId), e.revokedAt = none
  | .revoke _ _ _ => True

/-! ## One insert and the loop -/

variable {cal : Calendar} {cfg : Settings} {now : Time} {o : Order} {p : Product} {pr : Price}
  {t : Entitlements} {source : SourceKind} {orderId : ℕ}

theorem isFrom_entitlementOf (id : ℕ) (grant : String × Option ℤ) :
    isFrom source orderId (entitlementOf cal now o p pr id grant) =
      decide (sourceKind p.kind = source ∧ some o.id = some orderId) := rfl

theorem rows_insertGrant (cal : Calendar) (now : Time) (pr : Price) {grant : String × Option ℤ}
    (h : t.rows.any (grantedBy (sourceKind p.kind) o.id grant.1) = false) :
    (insertGrant cal now o p pr t grant).rows =
      t.rows ++ [entitlementOf cal now o p pr t.nextId grant] := by
  unfold insertGrant
  rw [h, if_neg (by decide)]
  exact Table.rows_put_of_get?_eq_none (Table.get?_nextId t)

theorem grants_append {u : Entitlements} {e : Entitlement} (h : u.rows = t.rows ++ [e]) :
    grants source orderId u = grants source orderId t ++
      if isFrom source orderId e then [(e.feature, e.quantity)] else [] := by
  unfold grants Table.select
  rw [h, List.filter_append, List.map_append, List.filter_singleton]
  cases isFrom source orderId e <;> rfl

theorem grants_foldl_other (h : ¬ (sourceKind p.kind = source ∧ o.id = orderId))
    (gs : List (String × Option ℤ)) :
    grants source orderId (gs.foldl (insertGrant cal now o p pr) t) = grants source orderId t := by
  induction gs generalizing t with
  | nil => rfl
  | cons g gs ih =>
    rw [List.foldl_cons, ih]
    cases hany : t.rows.any (grantedBy (sourceKind p.kind) o.id g.1) with
    | true => rw [insertGrant, if_pos hany]
    | false =>
      rw [grants_append (rows_insertGrant cal now pr hany), isFrom_entitlementOf]
      have hnot : ¬ (sourceKind p.kind = source ∧ some o.id = some orderId) :=
        fun q => h ⟨q.1, Option.some.inj q.2⟩
      rw [if_neg (by simpa using hnot), List.append_nil]

theorem foldl_insertGrant_present {gs : List (String × Option ℤ)}
    (h : ∀ g ∈ gs, t.rows.any (grantedBy (sourceKind p.kind) o.id g.1) = true) :
    gs.foldl (insertGrant cal now o p pr) t = t := by
  induction gs with
  | nil => rfl
  | cons g gs ih =>
    rw [List.foldl_cons, insertGrant, if_pos (h g List.mem_cons_self)]
    exact ih (fun x hx => h x (List.mem_cons_of_mem _ hx))

theorem grants_foldl_fresh {gs : List (String × Option ℤ)} (hn : (gs.map Prod.fst).Nodup)
    (h : ∀ e ∈ t.rows, isFrom (sourceKind p.kind) o.id e → e.feature ∉ gs.map Prod.fst) :
    grants (sourceKind p.kind) o.id (gs.foldl (insertGrant cal now o p pr) t) =
      grants (sourceKind p.kind) o.id t ++ gs := by
  induction gs generalizing t with
  | nil => rw [List.append_nil]; rfl
  | cons g gs ih =>
    rw [List.map_cons, List.nodup_cons] at hn
    have hany : t.rows.any (grantedBy (sourceKind p.kind) o.id g.1) = false := by
      rw [List.any_eq_false]
      intro e he hlive
      obtain ⟨hsource, hid, hfeature, _⟩ := of_decide_eq_true hlive
      exact h e he (decide_eq_true ⟨hsource, hid⟩) (hfeature ▸ List.mem_cons_self)
    have hrows := rows_insertGrant cal now pr hany
    rw [List.foldl_cons, ih hn.2, grants_append hrows, isFrom_entitlementOf,
      if_pos (decide_eq_true ⟨rfl, rfl⟩), List.append_assoc]
    · rfl
    · intro e he hfrom
      rw [hrows, List.mem_append, List.mem_singleton] at he
      rcases he with he | rfl
      · exact fun q => h e he hfrom (List.mem_cons_of_mem _ q)
      · exact hn.1

/-! ## Captures -/

theorem grants_foldl_again {o' : Order} {status : OrderStatus} (hid : o'.id = orderId)
    (hquantity : o'.quantity = o.quantity)
    (hn : ((featureGrants p.features o.quantity p.kind).map Prod.fst).Nodup)
    (hgranted : grants (sourceKind p.kind) orderId t =
      if status = .paid then featureGrants p.features o.quantity p.kind else [])
    (hlive : ∀ e ∈ t.select (isFrom (sourceKind p.kind) orderId), e.revokedAt = none) :
    grants (sourceKind p.kind) orderId
      ((featureGrants p.features o'.quantity p.kind).foldl (insertGrant cal now o' p pr) t) =
      featureGrants p.features o.quantity p.kind := by
  subst hid
  rw [hquantity]
  by_cases hpaid : status = .paid
  · rw [if_pos hpaid] at hgranted
    rw [foldl_insertGrant_present, hgranted]
    intro g hg
    rw [← hgranted] at hg
    obtain ⟨e, he, rfl⟩ := List.mem_map.1 hg
    obtain ⟨hmem, hfrom⟩ := List.mem_filter.1 he
    obtain ⟨hsource, hid⟩ := of_decide_eq_true hfrom
    exact List.any_eq_true.2 ⟨e, hmem, decide_eq_true ⟨hsource, hid, rfl, hlive e he⟩⟩
  · rw [if_neg hpaid] at hgranted
    rw [grants_foldl_fresh hn, hgranted, List.nil_append]
    intro e he hfrom
    have hnone : (t.select (isFrom (sourceKind p.kind) o'.id)) = [] := List.map_eq_nil_iff.1 hgranted
    have hmem : e ∈ t.select (isFrom (sourceKind p.kind) o'.id) := List.mem_filter.2 ⟨he, hfrom⟩
    rw [hnone] at hmem
    cases hmem

/-! ## Revocations -/

theorem grants_put {e e' : Entitlement} (he : t.get? e'.id = some e)
    (hsource : e'.sourceKind = e.sourceKind) (hid : e'.sourceId = e.sourceId)
    (hfeature : e'.feature = e.feature) (hquantity : e'.quantity = e.quantity) :
    grants source orderId (t.put e') = grants source orderId t := by
  have hsame : ∀ x ∈ t.rows, isFrom source orderId (if x.id = e'.id then e' else x) =
      isFrom source orderId x ∧ ((if x.id = e'.id then e' else x).feature,
        (if x.id = e'.id then e' else x).quantity) = (x.feature, x.quantity) := by
    intro x hx
    split
    · next hkey =>
      have hget : t.get? e'.id = some x := Table.get?_eq_some.2 ⟨hx, hkey⟩
      rw [he] at hget
      cases hget
      rw [hfeature, hquantity, isFrom, hsource, hid]
      exact ⟨rfl, rfl⟩
    · exact ⟨rfl, rfl⟩
  unfold grants Table.select
  rw [Table.put_eq_mapRows he]
  change (List.filter _ (t.rows.map _)).map _ = _
  have hfilter : t.rows.filter (isFrom source orderId ∘ fun y => if y.id = e'.id then e' else y) =
      t.rows.filter (isFrom source orderId) := List.filter_congr (fun x hx => (hsame x hx).1)
  rw [List.filter_map, List.map_map, hfilter]
  exact List.map_congr_left (fun x hx => (hsame x (List.mem_filter.1 hx).1).2)

theorem grants_revoke {l l' : Ledger} {id : ℕ} {reason : String}
    (h : revokeEntitlement now l id reason = some l') :
    grants source orderId l'.entitlements = grants source orderId l.entitlements := by
  unfold revokeEntitlement at h
  split at h
  · cases h
  · next e he =>
    split at h
    · cases h
      have hkey : e.id = id := Table.get?_key he
      subst hkey
      exact grants_put he rfl rfl rfl rfl
    · cases h

theorem joined_revoke {l l' : Ledger} {id : ℕ} {reason : String}
    (h : revokeEntitlement now l id reason = some l') : joined l' orderId = joined l orderId := by
  unfold revokeEntitlement at h
  split at h
  · cases h
  · split at h
    · cases h
      rfl
    · cases h

/-! ## Every run -/

/-- What a run keeps of the order: granted once, and every feature named once. -/
structure Settled (orderId : ℕ) (l : Ledger) : Prop where
  granted : GrantedOnce orderId l
  distinct : Distinct orderId l

theorem Settled.call {db : Db} {c : Call} (h : Settled orderId db.ledger)
    (hg : Unrevoked cfg orderId db (.call c)) :
    Settled orderId (serve cal cfg db c).2.ledger := by
  rw [serve_ledger]
  obtain ⟨o, p, pr, hjoined, hgranted⟩ := h.granted
  have hn := h.distinct o p pr hjoined
  obtain ⟨o', hjoined', hsame, hstatus⟩ :=
    joined_apply cal c.now (effectOf cfg db c) hjoined
  have hid : o'.id = orderId := Table.get?_key (joined_eq_some.1 hjoined').1
  refine ⟨⟨o', p, pr, hjoined', ?_⟩, ?_⟩
  · cases hcap : (effectOf cfg db c).captures with
    | none =>
      rw [hcap, if_neg (by simp)] at hstatus
      rw [entitlements_uncaptured hcap, hsame.quantity, hstatus]
      exact hgranted
    | some id =>
      rw [entitlements_captured hcap, hsame.quantity]
      by_cases hthis : id = orderId
      · subst hthis
        rw [hcap, if_pos rfl] at hstatus
        rw [hjoined', hstatus, if_pos rfl]
        exact grants_foldl_again hid hsame.quantity hn hgranted (hg hcap o p pr hjoined)
      · rw [hcap, if_neg (fun q => hthis (Option.some.inj q))] at hstatus
        rw [hstatus]
        cases hother : joined ((effectOf cfg db c).apply cal c.now db.ledger) id with
        | none => exact hgranted
        | some found =>
          obtain ⟨x, px, prx⟩ := found
          have hx : x.id = id := Table.get?_key (joined_eq_some.1 hother).1
          rw [grants_foldl_other (fun q => hthis (hx.symm.trans q.2))]
          exact hgranted
  · intro x px prx hx
    rw [hjoined'] at hx
    cases hx
    rw [hsame.quantity]
    exact hn

theorem Settled.act {db : Db} {a : Act} (h : Settled orderId db.ledger)
    (hg : Unrevoked cfg orderId db a) : Settled orderId (act cal cfg db a).ledger := by
  cases a with
  | call c => exact h.call hg
  | revoke now id reason =>
    rw [OneGrant.act]
    cases hrevoke : revokeEntitlement now db.ledger id reason with
    | none => exact h
    | some l' =>
      obtain ⟨o, p, pr, hjoined, hgranted⟩ := h.granted
      refine ⟨⟨o, p, pr, (joined_revoke hrevoke).trans hjoined,
        (grants_revoke hrevoke).trans hgranted⟩, ?_⟩
      intro x px prx hx
      exact h.distinct x px prx ((joined_revoke hrevoke).symm.trans hx)

def Placed (orderId : ℕ) (l : Ledger) : Prop :=
  ∃ o p pr, joined l orderId = some (o, p, pr) ∧ o.status ≠ .paid ∧
    grants (sourceKind p.kind) orderId l.entitlements = []

/-- Along every run of captures and revocations within the guard, the order is granted once. -/
theorem granted_once {db next : Db} {acts : List Act} (hplaced : Placed orderId db.ledger)
    (hdistinct : Distinct orderId db.ledger)
    (hrun : Runs (fun s a t => act cal cfg s a = t) (Unrevoked cfg orderId) db acts next) :
    GrantedOnce orderId next.ledger := by
  have hstart : Settled orderId db.ledger := by
    obtain ⟨o, p, pr, hjoined, hunpaid, hnone⟩ := hplaced
    exact ⟨⟨o, p, pr, hjoined, by rw [if_neg hunpaid, hnone]⟩, hdistinct⟩
  refine (hrun.invariant (I := fun s => Settled orderId s.ledger) ?_ hstart).granted
  intro s a t hs hg hstep
  subst hstep
  exact hs.act hg

theorem unrevoked_of_all {db : Db}
    (h : db.ledger.entitlements.rows.all (fun e => e.revokedAt = none) = true) (a : Act) :
    Unrevoked cfg orderId db a := by
  cases a with
  | call c =>
    intro _ o p pr _ e he
    exact of_decide_eq_true (List.all_eq_true.1 h e (List.mem_filter.1 he).1)
  | revoke now id reason => trivial

def samplePayme (now : Time) (method : String) : Act :=
  .call (.payme now (some "Paycom:payme-key") (Dict.ofList [("id", .int 42),
    ("method", .str method), ("params", .obj [("id", .str "p-1"), ("amount", .int 5000000),
      ("account", .obj [("order", .str "ORD-TEST-1")])])]))

def sampleAct : Db → Act → Db := act sampleCalendar sampleSettings

def sampleActs : List Act := [samplePayme 1 "CreateTransaction", samplePayme 2 "PerformTransaction",
  samplePayme 3 "PerformTransaction", .revoke 4 1 "chargeback"]

def sampleProduct : Product :=
  ⟨1, .one_off, .arr [.obj [("feature", .str "competition.entry"), ("quantity", .int 4)]]⟩

/-- Performed twice and then revoked: one entitlement of four. -/
theorem granted_once_on_sample :
    grants .order 1 (sampleActs.foldl sampleAct sampleDb).ledger.entitlements =
      [("competition.entry", some 4)] ∧
      GrantedOnce 1 (sampleActs.foldl sampleAct sampleDb).ledger := by
  have hjoined : joined sampleDb.ledger 1 = some (sampleOrder, sampleProduct, ⟨1, none⟩) := by
    decide +kernel
  have hplaced : Placed 1 sampleDb.ledger := ⟨_, _, _, hjoined, by decide, by decide +kernel⟩
  have hdistinct : Distinct 1 sampleDb.ledger := by
    intro o p pr h
    rw [hjoined] at h
    cases h
    decide +kernel
  have hrun : Runs (fun s a t => act sampleCalendar sampleSettings s a = t)
      (Unrevoked sampleSettings 1) sampleDb sampleActs (sampleActs.foldl sampleAct sampleDb) :=
    .next (unrevoked_of_all (by decide +kernel) _) rfl
      (.next (unrevoked_of_all (by decide +kernel) _) rfl
        (.next (unrevoked_of_all (by decide +kernel) _) rfl
          (.next (unrevoked_of_all (by decide +kernel) _) rfl (.refl _))))
  exact ⟨by decide +kernel, granted_once hplaced hdistinct hrun⟩

def sampleRegrant : List Act := [samplePayme 1 "CreateTransaction",
  samplePayme 2 "PerformTransaction", .revoke 3 1 "chargeback", samplePayme 4 "PerformTransaction"]

/-- Performed, revoked and performed again: granted again. -/
theorem revoked_then_performed_again :
    ∃ next, Runs (fun s a t => act sampleCalendar sampleSettings s a = t) (fun _ _ => True) sampleDb
      sampleRegrant next ∧ ¬ GrantedOnce 1 next.ledger := by
  refine ⟨sampleRegrant.foldl sampleAct sampleDb,
    .next trivial rfl (.next trivial rfl (.next trivial rfl (.next trivial rfl (.refl _)))), ?_⟩
  rintro ⟨o, p, pr, hjoined, hgranted⟩
  have hfound : joined (sampleRegrant.foldl sampleAct sampleDb).ledger 1 =
      some ({ sampleOrder with status := .paid, paidAt := some 2 }, sampleProduct, ⟨1, none⟩) := by
    decide +kernel
  rw [hfound] at hjoined
  cases hjoined
  revert hgranted
  decide +kernel

end IeltsHub.OneGrant
