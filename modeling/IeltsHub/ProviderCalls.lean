import IeltsHub.GuardedRuns
import IeltsHub.PaymeRpc

set_option autoImplicit false

/-!
# Calls of either provider

A call does one of five things to the ledger, or nothing: Click's prepare and complete, Payme's
create, perform and cancel. `effectOf` names which, from the call and the state it meets, and
`serve_ledger` says that this is all the call does to the ledger.
-/
namespace IeltsHub.ProviderCalls
open PyExc PyText PyTime PyValue RowTable PlatformErrors BillingModels ClickCallbacks PaymeRpc

inductive Call where
  | click (now : Time) (phase : Phase) (body : ClickCallback)
  | payme (now : Time) (credential : Option String) (body : Obj)

inductive Answer where
  | click (response : ClickResponse)
  | payme (response : Json)
  | failed

def serve (cal : Calendar) (cfg : Settings) (db : Db) : Call → Answer × Db
  | .click now phase body =>
    match clickPhase cal cfg now db phase body with
    | .ok (response, next) => (.click response, next)
    | .error _ => (.failed, db)
  | .payme now credential body =>
    match paymeRpc cal cfg now db.ledger credential body with
    | .ok (response, ledger) => (.payme response, { db with ledger := ledger })
    | .error _ => (.failed, db)

def Call.now : Call → Time
  | .click now _ _ => now
  | .payme now _ _ => now

/-! ## What a call does -/

inductive Effect where
  | nothing
  | prepare (o : Order) (body : ClickCallback)
  | complete (o : Order) (body : ClickCallback)
  | create (o : Order) (txn : String)
  | perform (p : Payment)
  | cancel (p : Payment) (reason : String)

def Effect.apply (cal : Calendar) (now : Time) (l : Ledger) : Effect → Ledger
  | .nothing => l
  | .prepare o body => upsertPayment l now o body.clickTransId .authorized
  | .complete o body =>
    grantForOrder cal now
      (markPaid (upsertPayment l now o body.clickTransId .captured) o.id (fun _ => some now)) o.id
  | .create o txn => insertCreated now l o txn
  | .perform p => capture cal now l p
  | .cancel p reason => PaymeRpc.cancel now l p reason

def clickEffect (cfg : Settings) (db : Db) (phase : Phase) (body : ClickCallback) : Effect :=
  match stored db (idempotencyKey phase body), signatureOk cfg body phase,
    orderByReference db.ledger body.merchantTransId, phase with
  | none, .ok true, some o, .prepare => .prepare o body
  | none, .ok true, some o, .complete => .complete o body
  | _, _, _, _ => .nothing

def createEffect (l : Ledger) (params : Obj) : Effect :=
  match paymeOrder l params, storeText (paymeTxn params) with
  | .ok (some o), .ok txn => if paymeAmount params = o.amountMinor then .create o txn else .nothing
  | _, _ => .nothing

def namedPayment (l : Ledger) (params : Obj) : Option Payment :=
  match bindText (paymeTxn params) with
  | .ok txn => paymePayment l txn
  | .error _ => none

def performEffect (l : Ledger) (params : Obj) : Effect :=
  match (namedPayment l params).filter capturable with
  | some p => .perform p
  | none => .nothing

def cancelEffect (l : Ledger) (params : Obj) : Effect :=
  match namedPayment l params with
  | some p => .cancel p (pyStr (getD params "reason" (.str "")))
  | none => .nothing

def invoked (cfg : Settings) (credential : Option String) (body : Obj) :
    Option (PaymeMethod × Obj) :=
  match paymeAuthorized cfg credential, handlerOf (getD body "method" (.str "")),
    asDict (getOr body "params" (.obj [])) with
  | .ok true, some method, some params => some (method, params)
  | _, _, _ => none

def paymeEffect (cfg : Settings) (l : Ledger) (credential : Option String) (body : Obj) : Effect :=
  match invoked cfg credential body with
  | some (.create, params) => createEffect l params
  | some (.perform, params) => performEffect l params
  | some (.cancel, params) => cancelEffect l params
  | _ => .nothing

def effectOf (cfg : Settings) (db : Db) : Call → Effect
  | .click _ phase body => clickEffect cfg db phase body
  | .payme _ credential body => paymeEffect cfg db.ledger credential body

/-! ## The effect is all a call does -/

variable {cal : Calendar} {cfg : Settings} {now : Time} {db : Db} {l : Ledger} {params : Obj}
  {rpcId : Json}

def committed (l : Ledger) : Except Raised (Json × Ledger) → Ledger
  | .ok (_, next) => next
  | .error _ => l

theorem committed_paymeCheckPerform : committed l (paymeCheckPerform l params rpcId) = l := by
  unfold paymeCheckPerform
  cases paymeOrder l params with
  | error e => rfl
  | ok found =>
    cases found with
    | none => rfl
    | some o =>
      change committed l (ite _ _ _) = l
      split <;> rfl

theorem committed_paymeCreate :
    committed l (paymeCreate now l params rpcId) = (createEffect l params).apply cal now l := by
  unfold paymeCreate createEffect
  cases paymeOrder l params with
  | error e => rfl
  | ok found =>
    cases found with
    | none => rfl
    | some o =>
      cases storeText (paymeTxn params) with
      | error e =>
        change committed l (ite _ _ _) = l
        split <;> rfl
      | ok txn =>
        change committed l (ite _ _ _) = (ite _ _ _ : Effect).apply cal now l
        by_cases hamount : paymeAmount params = o.amountMinor
        · rw [if_neg (fun q => q hamount), if_pos hamount]
          rfl
        · rw [if_pos hamount, if_neg hamount]
          rfl

theorem committed_paymePerform : committed l (paymePerform cal now l params rpcId) =
    (performEffect l params).apply cal now l := by
  unfold paymePerform performEffect namedPayment
  cases bindText (paymeTxn params) with
  | error e => rfl
  | ok txn =>
    dsimp only [bind, Except.bind]
    cases (paymePayment l txn).filter capturable <;> rfl

theorem committed_paymeCancel : committed l (paymeCancel now l params rpcId) =
    (cancelEffect l params).apply cal now l := by
  unfold paymeCancel cancelEffect namedPayment
  cases bindText (paymeTxn params) with
  | error e => rfl
  | ok txn =>
    dsimp only [bind, Except.bind]
    cases paymePayment l txn <;> rfl

theorem committed_paymeCheckTransaction :
    committed l (paymeCheckTransaction l params rpcId) = l := by
  unfold paymeCheckTransaction
  cases bindText (paymeTxn params) with
  | error e => rfl
  | ok txn =>
    dsimp only [bind, Except.bind]
    cases paymePayment l txn <;> rfl

theorem committed_paymeRpc (credential : Option String) (body : Obj) :
    committed l (paymeRpc cal cfg now l credential body) =
      (paymeEffect cfg l credential body).apply cal now l := by
  unfold paymeRpc paymeEffect invoked
  cases paymeAuthorized cfg credential with
  | error e => rfl
  | ok allowed =>
    cases allowed with
    | false => rfl
    | true =>
      unfold dictMethod
      dsimp only
      cases handlerOf (getD body "method" (.str "")) with
      | none => rfl
      | some method =>
        cases asDict (getOr body "params" (.obj [])) with
        | none => cases method <;> rfl
        | some params =>
          cases method with
          | checkPerform => exact committed_paymeCheckPerform
          | create => exact committed_paymeCreate
          | perform => exact committed_paymePerform
          | cancel => exact committed_paymeCancel
          | checkTransaction => exact committed_paymeCheckTransaction
          | statement => rfl

theorem ledger_clickPhase (phase : Phase) (body : ClickCallback) :
    (serve cal cfg db (.click now phase body)).2.ledger =
      (clickEffect cfg db phase body).apply cal now db.ledger := by
  unfold clickEffect
  rw [serve]
  cases hstored : stored db (idempotencyKey phase body) with
  | some response =>
    rw [clickPhase, hstored]
    rfl
  | none =>
    cases hsig : signatureOk cfg body phase with
    | error e =>
      rw [clickPhase, hstored, hsig]
      rfl
    | ok ok =>
      cases ok with
      | false =>
        rw [clickPhase_refused hstored hsig]
        exact ledger_recordClick _ _ _
      | true =>
        rw [clickPhase_executed hstored hsig]
        refine (ledger_recordClick _ _ _).trans ?_
        unfold execute
        cases orderByReference db.ledger body.merchantTransId with
        | none => rfl
        | some o => cases phase <;> rfl

theorem serve_ledger (cal : Calendar) (cfg : Settings) (db : Db) (call : Call) :
    (serve cal cfg db call).2.ledger = (effectOf cfg db call).apply cal call.now db.ledger := by
  cases call with
  | click now phase body => exact ledger_clickPhase phase body
  | payme now credential body =>
    change _ = (paymeEffect cfg db.ledger credential body).apply cal now db.ledger
    rw [← committed_paymeRpc, serve]
    cases paymeRpc cal cfg now db.ledger credential body <;> rfl

/-! ## Which call has which effect -/

theorem orderByReference_eq_some {reference : String} {o : Order}
    (h : orderByReference l reference = some o) :
    l.orders.get? o.id = some o ∧ o.reference = reference :=
  ⟨Table.get?_eq_some.2 ⟨List.mem_of_find?_eq_some h, rfl⟩, by simpa using List.find?_some h⟩

theorem paymeOrder_eq_some {o : Order} (h : paymeOrder l params = .ok (some o)) :
    l.orders.get? o.id = some o ∧ paymeReference params = .ok (some o.reference) := by
  unfold paymeOrder at h
  obtain ⟨reference, href, h⟩ := bind_eq_ok.1 h
  obtain ⟨r, rfl, hr⟩ := Option.bind_eq_some_iff.1 (Except.ok.inj h)
  obtain ⟨hget, rfl⟩ := orderByReference_eq_some hr
  exact ⟨hget, href⟩

theorem namedPayment_eq_some {p : Payment} (h : namedPayment l params = some p) :
    ∃ txn, bindText (paymeTxn params) = .ok (some txn) ∧ l.payments.get? (.payme, txn) = some p := by
  unfold namedPayment at h
  split at h
  · next txn htxn =>
    obtain ⟨t, rfl, hp⟩ := Option.bind_eq_some_iff.1 h
    exact ⟨t, htxn, hp⟩
  · cases h

def Effect.Arises (cfg : Settings) (db : Db) (call : Call) : Effect → Prop
  | .nothing => True
  | .prepare o body => ∃ now, call = .click now .prepare body ∧
      signatureOk cfg body .prepare = .ok true ∧
      orderByReference db.ledger body.merchantTransId = some o
  | .complete o body => ∃ now, call = .click now .complete body ∧
      signatureOk cfg body .complete = .ok true ∧
      orderByReference db.ledger body.merchantTransId = some o
  | .create o txn => ∃ now credential body params, call = .payme now credential body ∧
      invoked cfg credential body = some (.create, params) ∧
      paymeOrder db.ledger params = .ok (some o) ∧ paymeAmount params = o.amountMinor ∧
      storeText (paymeTxn params) = .ok txn
  | .perform p => ∃ now credential body params, call = .payme now credential body ∧
      invoked cfg credential body = some (.perform, params) ∧
      namedPayment db.ledger params = some p ∧ capturable p
  | .cancel p _ => ∃ now credential body params, call = .payme now credential body ∧
      invoked cfg credential body = some (.cancel, params) ∧
      namedPayment db.ledger params = some p

theorem arises_clickEffect (now : Time) (phase : Phase) (body : ClickCallback) :
    (clickEffect cfg db phase body).Arises cfg db (.click now phase body) := by
  unfold clickEffect
  split
  · next ho _ hsig => exact ⟨now, rfl, hsig, ho⟩
  · next ho _ hsig => exact ⟨now, rfl, hsig, ho⟩
  · trivial

theorem arises_paymeEffect (now : Time) (credential : Option String) (body : Obj) :
    (paymeEffect cfg db.ledger credential body).Arises cfg db (.payme now credential body) := by
  unfold paymeEffect
  split
  · next params hinvoked =>
    unfold createEffect
    split
    · next o txn ho htxn =>
      split
      · next hamount => exact ⟨now, credential, body, params, rfl, hinvoked, ho, hamount, htxn⟩
      · trivial
    · trivial
  · next params hinvoked =>
    unfold performEffect
    split
    · next p hp =>
      obtain ⟨hnamed, hcapturable⟩ := Option.filter_eq_some_iff.1 hp
      exact ⟨now, credential, body, params, rfl, hinvoked, hnamed, hcapturable⟩
    · trivial
  · next params hinvoked =>
    unfold cancelEffect
    split
    · next p hp => exact ⟨now, credential, body, params, rfl, hinvoked, hp⟩
    · trivial
  · trivial

theorem arises_effectOf (cfg : Settings) (db : Db) (call : Call) :
    (effectOf cfg db call).Arises cfg db call := by
  cases call with
  | click now phase body => exact arises_clickEffect now phase body
  | payme now credential body => exact arises_paymeEffect now credential body

/-! ## Orders and payments under an effect -/

def Effect.captures : Effect → Option ℕ
  | .complete o _ => some o.id
  | .perform p => some p.orderId
  | _ => none

theorem orders_grantForOrder (orderId : ℕ) :
    (grantForOrder cal now l orderId).orders = l.orders := (grantForOrder_frame cal now l orderId).1

theorem payments_grantForOrder (orderId : ℕ) :
    (grantForOrder cal now l orderId).payments = l.payments :=
  (grantForOrder_frame cal now l orderId).2.2.2

/-- Nothing of an order changes but that a capture marks it paid. -/
structure SameOrder (o o' : Order) : Prop where
  id : o'.id = o.id
  amountMinor : o'.amountMinor = o.amountMinor
  reference : o'.reference = o.reference
  productId : o'.productId = o.productId
  priceId : o'.priceId = o.priceId
  quantity : o'.quantity = o.quantity

theorem SameOrder.refl (o : Order) : SameOrder o o := ⟨rfl, rfl, rfl, rfl, rfl, rfl⟩

def paidOrder (orderId : ℕ) (paidAt : Option Time → Option Time) (o : Order) : Order :=
  if o.id = orderId then { o with status := .paid, paidAt := paidAt o.paidAt } else o

theorem get?_markPaid {m : Ledger} (hm : m.orders = l.orders) (orderId : ℕ)
    (paidAt : Option Time → Option Time) (id : ℕ) :
    (markPaid m orderId paidAt).orders.get? id =
      (l.orders.get? id).map (paidOrder orderId paidAt) := by
  rw [← hm]
  exact Table.get?_mapRows _ _ (fun o => by split <;> rfl) _

theorem paidOrder_same (orderId : ℕ) (paidAt : Option Time → Option Time) (o : Order) :
    SameOrder o (paidOrder orderId paidAt o) := by
  unfold paidOrder
  split
  · exact ⟨rfl, rfl, rfl, rfl, rfl, rfl⟩
  · exact SameOrder.refl o

theorem paidOrder_status (orderId : ℕ) (paidAt : Option Time → Option Time) (o : Order) :
    (paidOrder orderId paidAt o).status = if some orderId = some o.id then .paid else o.status := by
  unfold paidOrder
  by_cases h : o.id = orderId
  · rw [if_pos h, if_pos (by rw [h])]
  · rw [if_neg h, if_neg (fun q => h (Option.some.inj q).symm)]

theorem apply_orders (cal : Calendar) (now : Time) (l : Ledger) (e : Effect) : ∃ f : Order → Order,
    (∀ id, (e.apply cal now l).orders.get? id = (l.orders.get? id).map f) ∧
      ∀ o, SameOrder o (f o) ∧ (f o).status = if e.captures = some o.id then .paid else o.status := by
  cases e with
  | complete o body =>
    refine ⟨paidOrder o.id (fun _ => some now), ?_, fun x => ⟨paidOrder_same .., paidOrder_status ..⟩⟩
    intro id
    rw [Effect.apply, orders_grantForOrder]
    exact get?_markPaid (by rfl) ..
  | perform p =>
    refine ⟨paidOrder p.orderId (fun paidAt => paidAt.or (some now)), ?_, fun x => ⟨paidOrder_same .., paidOrder_status ..⟩⟩
    intro id
    rw [Effect.apply, capture, orders_grantForOrder]
    exact get?_markPaid (by rfl) ..
  | create o txn =>
    refine ⟨id, ?_, fun x => ⟨SameOrder.refl x, rfl⟩⟩
    intro id
    rw [Effect.apply, insertCreated, Option.map_id]
    split <;> rfl
  | _ => exact ⟨id, fun _ => (Option.map_id_apply ..).symm, fun x => ⟨SameOrder.refl x, rfl⟩⟩

theorem apply_order {e : Effect} {id : ℕ} {o' : Order}
    (h : (e.apply cal now l).orders.get? id = some o') :
    ∃ o, l.orders.get? id = some o ∧ SameOrder o o' ∧
      o'.status = if e.captures = some id then .paid else o.status := by
  obtain ⟨f, hf, hsame⟩ := apply_orders cal now l e
  rw [hf] at h
  obtain ⟨o, ho, rfl⟩ := Option.map_eq_some_iff.1 h
  have hid : o.id = id := Table.get?_key ho
  obtain ⟨hfields, hstatus⟩ := hsame o
  rw [hid] at hstatus
  exact ⟨o, ho, hfields, hstatus⟩

theorem order_apply (cal : Calendar) (now : Time) {id : ℕ} {o : Order} (h : l.orders.get? id = some o) (e : Effect) :
    ∃ o', (e.apply cal now l).orders.get? id = some o' ∧ SameOrder o o' ∧
      o'.status = if e.captures = some id then .paid else o.status := by
  obtain ⟨f, hf, hsame⟩ := apply_orders cal now l e
  have hid : o.id = id := Table.get?_key h
  obtain ⟨hfields, hstatus⟩ := hsame o
  rw [hid] at hstatus
  exact ⟨f o, by rw [hf, h]; rfl, hfields, hstatus⟩

/-! ## Entitlements under an effect -/

theorem products_apply (cal : Calendar) (now : Time) (l : Ledger) (e : Effect) :
    (e.apply cal now l).products = l.products ∧ (e.apply cal now l).prices = l.prices := by
  cases e with
  | complete o body =>
    rw [Effect.apply, (grantForOrder_frame ..).2.1, (grantForOrder_frame ..).2.2.1]
    exact ⟨rfl, rfl⟩
  | perform p =>
    rw [Effect.apply, capture, (grantForOrder_frame ..).2.1, (grantForOrder_frame ..).2.2.1]
    exact ⟨rfl, rfl⟩
  | create o txn =>
    rw [Effect.apply, insertCreated]
    split <;> exact ⟨rfl, rfl⟩
  | _ => exact ⟨rfl, rfl⟩

theorem joined_apply (cal : Calendar) (now : Time) (e : Effect) {id : ℕ} {o : Order} {p : Product} {pr : Price}
    (h : joined l id = some (o, p, pr)) : ∃ o', joined (e.apply cal now l) id = some (o', p, pr) ∧
      SameOrder o o' ∧ o'.status = if e.captures = some id then .paid else o.status := by
  obtain ⟨ho, hp, hpr⟩ := joined_eq_some.1 h
  obtain ⟨o', ho', hsame, hstatus⟩ := order_apply cal now ho e
  obtain ⟨hproducts, hprices⟩ := products_apply cal now l e
  refine ⟨o', joined_eq_some.2 ⟨ho', ?_, ?_⟩, hsame, hstatus⟩
  · rw [hproducts, hsame.productId]
    exact hp
  · rw [hprices, hsame.priceId]
    exact hpr

theorem entitlements_captured {e : Effect} {id : ℕ} (hcap : e.captures = some id) :
    (e.apply cal now l).entitlements =
      match joined (e.apply cal now l) id with
      | none => l.entitlements
      | some (o, p, pr) => (featureGrants p.features o.quantity p.kind).foldl
          (insertGrant cal now o p pr) l.entitlements := by
  have hgrant : ∀ m : Ledger, m.entitlements = l.entitlements →
      (grantForOrder cal now m id).entitlements =
        match joined (grantForOrder cal now m id) id with
        | none => l.entitlements
        | some (o, p, pr) => (featureGrants p.features o.quantity p.kind).foldl
            (insertGrant cal now o p pr) l.entitlements := by
    intro m hm
    have hjoined : joined (grantForOrder cal now m id) id = joined m id := by
      obtain ⟨horders, hproducts, hprices, _⟩ := grantForOrder_frame cal now m id
      unfold joined
      rw [horders, hproducts, hprices]
    rw [hjoined, ← hm]
    unfold grantForOrder
    cases joined m id <;> rfl
  cases e with
  | complete o body =>
    cases hcap
    exact hgrant _ rfl
  | perform p =>
    cases hcap
    exact hgrant _ rfl
  | _ => cases hcap

theorem entitlements_uncaptured {e : Effect} (hcap : e.captures = none) :
    (e.apply cal now l).entitlements = l.entitlements := by
  cases e with
  | complete o body => cases hcap
  | perform p => cases hcap
  | create o txn =>
    rw [Effect.apply, insertCreated]
    split <;> rfl
  | _ => rfl

theorem payments_upsertPayment (l : Ledger) (now : Time) (o : Order) (txn : String) (state : PaymentState) :
    ∃ row : Payment, (upsertPayment l now o txn state).payments = l.payments.put row ∧
      row.key = (.click, txn) ∧ row.state = state ∧
      match l.payments.get? (.click, txn) with
      | some p => row.orderId = p.orderId ∧ row.amountMinor = p.amountMinor
      | none => row.orderId = o.id ∧ row.amountMinor = o.amountMinor := by
  refine ⟨_, rfl, ?_⟩
  cases h : l.payments.get? (.click, txn) with
  | none => exact ⟨rfl, rfl, rfl, rfl⟩
  | some p =>
    have hkey : p.key = (.click, txn) := Table.get?_key h
    exact ⟨hkey, rfl, rfl, rfl⟩

end IeltsHub.ProviderCalls
