import IeltsHub.PyTime
import IeltsHub.PyValue
import IeltsHub.RowTable

set_option autoImplicit false

/-!
# Orders, payments and entitlements

The tables of billing, and what a captured order grants: `_feature_grants` reads the product's
features, `_grant_for_order` writes an entitlement for each that the order has no live one of.
Rows are named by their id, also where a route names them by their xid.
-/
namespace IeltsHub.BillingModels
open PyText PyTime PyValue RowTable

inductive OrderStatus where
  | pending | awaiting_payment | paid | cancelled | refunded | failed | expired
  deriving DecidableEq, Repr

structure Order where
  id : ℕ
  userId : Option ℕ
  orgId : Option ℕ
  productId : ℕ
  priceId : ℕ
  quantity : ℤ
  amountMinor : ℤ
  status : OrderStatus
  reference : String
  paidAt : Option Time
  deriving DecidableEq

inductive ProductKind where
  | subscription | one_off | seat_licence
  deriving DecidableEq, Repr

structure Product where
  id : ℕ
  kind : ProductKind
  features : Json
  deriving DecidableEq

structure Price where
  id : ℕ
  interval : Option String
  deriving DecidableEq

inductive Provider where
  | click | payme | manual_bank
  deriving DecidableEq, Repr

inductive PaymentState where
  | initiated | authorized | captured | cancelled | failed | refunded
  deriving DecidableEq, Repr

structure Payment where
  orderId : ℕ
  provider : Provider
  providerTxnId : String
  state : PaymentState
  amountMinor : ℤ
  currency : String
  authorizedAt : Option Time
  capturedAt : Option Time
  cancelledAt : Option Time
  cancelReason : Option String
  deriving DecidableEq

def Payment.key (p : Payment) : Provider × String := (p.provider, p.providerTxnId)

inductive SubjectKind where
  | user | org
  deriving DecidableEq, Repr

inductive SourceKind where
  | order | manual_grant | trial | seat | promo
  deriving DecidableEq, Repr

structure Entitlement where
  id : ℕ
  subjectKind : SubjectKind
  subjectId : Option ℕ
  feature : String
  sourceKind : SourceKind
  sourceId : Option ℕ
  quantity : Option ℤ
  consumed : ℤ
  startsAt : Time
  expiresAt : Option Time
  revokedAt : Option Time
  revokedReason : Option String
  deriving DecidableEq

/-- What the provider calls and the revocations read and write, the log of the calls apart. -/
structure Ledger where
  orders : Table Order ℕ Order.id
  products : Table Product ℕ Product.id
  prices : Table Price ℕ Price.id
  payments : Table Payment (Provider × String) Payment.key
  entitlements : Table Entitlement ℕ Entitlement.id

/-- `interval '1 month'` and `interval '1 year'` added to a timestamp. -/
structure Calendar where
  month : Time → Time
  year : Time → Time

/-! ## What a product grants -/

def listedFeatures : Json → List Json
  | .obj members =>
    (dictOf members).entries.map (fun e =>
      .obj [("feature", .str e.1),
        ("quantity", match asDict e.2 with | some d => getD d "quantity" .null | none => e.2)])
  | .arr entries => entries
  | _ => []

def entryName : Json → Json
  | .str s => .str s
  | .obj members => getD (dictOf members) "feature" .null
  | _ => .null

def entryDeclared : Json → Json
  | .obj members => getD (dictOf members) "quantity" .null
  | _ => .null

/-- A declared quantity counts when it is an `int` of at least one; `True` is none. -/
def declaredQuantity : Json → Option ℤ
  | .int n => if 1 ≤ n then some n else none
  | _ => none

def entryGrant (bought : ℤ) (kind : ProductKind) (entry : Json) : Option (String × Option ℤ) :=
  match entryName entry with
  | .str name =>
    if strip name = "" then none
    else
      match declaredQuantity (entryDeclared entry) with
      | some declared => some (strip name, some (declared * max 1 bought))
      | none =>
        if kind = .subscription then some (strip name, none) else some (strip name, some bought)
  | _ => none

def featureGrants (features : Json) (bought : ℤ) (kind : ProductKind) :
    List (String × Option ℤ) :=
  (listedFeatures features).filterMap (entryGrant bought kind)

-- The two shapes the table's own comment shows, and the object keyed by name.
example : featureGrants (.arr [.obj [("feature", .str "mock.unlimited")],
      .obj [("feature", .str "competition.entry"), ("quantity", .int 4)]]) 2 .one_off =
    [("mock.unlimited", some 2), ("competition.entry", some 8)] := by decide +kernel

example : featureGrants (.obj [("competition.entry", .obj [("quantity", .int 4)])]) 1 .subscription =
    [("competition.entry", some 4)] := by decide +kernel

/-! ## Granting -/

def sourceKind (kind : ProductKind) : SourceKind := if kind = .seat_licence then .seat else .order

def expiry (cal : Calendar) (interval : Option String) (now : Time) : Option Time :=
  if interval = some "month" then some (cal.month now)
  else if interval = some "year" then some (cal.year now)
  else none

def joined (l : Ledger) (orderId : ℕ) : Option (Order × Product × Price) := do
  let o ← l.orders.get? orderId
  let p ← l.products.get? o.productId
  let pr ← l.prices.get? o.priceId
  return (o, p, pr)

theorem joined_eq_some {l : Ledger} {orderId : ℕ} {o : Order} {p : Product} {pr : Price} :
    joined l orderId = some (o, p, pr) ↔ l.orders.get? orderId = some o ∧
      l.products.get? o.productId = some p ∧ l.prices.get? o.priceId = some pr := by
  unfold joined
  constructor
  · intro h
    obtain ⟨x, hx, h⟩ := Option.bind_eq_some_iff.1 h
    obtain ⟨y, hy, h⟩ := Option.bind_eq_some_iff.1 h
    obtain ⟨z, hz, h⟩ := Option.bind_eq_some_iff.1 h
    cases h
    exact ⟨hx, hy, hz⟩
  · rintro ⟨ho, hp, hpr⟩
    simp [ho, hp, hpr]

def grantedBy (source : SourceKind) (orderId : ℕ) (feature : String) (e : Entitlement) : Bool :=
  e.sourceKind = source ∧ e.sourceId = some orderId ∧ e.feature = feature ∧ e.revokedAt = none

def entitlementOf (cal : Calendar) (now : Time) (o : Order) (p : Product) (pr : Price)
    (id : ℕ) (grant : String × Option ℤ) : Entitlement where
  id := id
  subjectKind := if o.orgId.isSome then .org else .user
  subjectId := if o.orgId.isSome then o.orgId else o.userId
  feature := grant.1
  sourceKind := sourceKind p.kind
  sourceId := some o.id
  quantity := grant.2
  consumed := 0
  startsAt := now
  expiresAt := expiry cal pr.interval now
  revokedAt := none
  revokedReason := none

def insertGrant (cal : Calendar) (now : Time) (o : Order) (p : Product) (pr : Price)
    (t : Table Entitlement ℕ Entitlement.id) (grant : String × Option ℤ) :
    Table Entitlement ℕ Entitlement.id :=
  if t.rows.any (grantedBy (sourceKind p.kind) o.id grant.1) then t
  else t.put (entitlementOf cal now o p pr t.nextId grant)

def grantForOrder (cal : Calendar) (now : Time) (l : Ledger) (orderId : ℕ) : Ledger :=
  match joined l orderId with
  | none => l
  | some (o, p, pr) =>
    { l with
      entitlements := (featureGrants p.features o.quantity p.kind).foldl
        (insertGrant cal now o p pr) l.entitlements }

/-! ## Writing orders and payments -/

/-- `SELECT id, amount_minor, status FROM orders WHERE reference = :r`. -/
def orderByReference (l : Ledger) (reference : String) : Option Order :=
  l.orders.rows.find? (fun o => o.reference = reference)

def markPaid (l : Ledger) (orderId : ℕ) (paidAt : Option Time → Option Time) : Ledger :=
  { l with
    orders := l.orders.mapRows
      (fun o => if o.id = orderId then { o with status := .paid, paidAt := paidAt o.paidAt } else o)
      (fun o => by split <;> rfl) }

theorem grantForOrder_frame (cal : Calendar) (now : Time) (l : Ledger) (orderId : ℕ) :
    (grantForOrder cal now l orderId).orders = l.orders ∧
      (grantForOrder cal now l orderId).products = l.products ∧
      (grantForOrder cal now l orderId).prices = l.prices ∧
      (grantForOrder cal now l orderId).payments = l.payments := by
  unfold grantForOrder
  split <;> exact ⟨rfl, rfl, rfl, rfl⟩

/-! ## Withdrawing -/

def revokeEntitlement (now : Time) (l : Ledger) (id : ℕ) (reason : String) : Option Ledger :=
  match l.entitlements.get? id with
  | none => none
  | some e =>
    if e.revokedAt = none then
      some { l with
        entitlements :=
          l.entitlements.put { e with revokedAt := some now, revokedReason := some reason } }
    else none

end IeltsHub.BillingModels
