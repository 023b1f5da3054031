import IeltsHub.BillingModels
import IeltsHub.Md5
import IeltsHub.PlatformErrors

set_option autoImplicit false

/-!
# Click's two phases

A callback is answered from the stored response of its key where there is one. Otherwise its
signature is checked, the payment and the order are written, and the response is stored under
the key, that of a bad signature too. A request that raises is rolled back.
-/
namespace IeltsHub.ClickCallbacks
open PyTime RowTable PlatformErrors BillingModels

/-- The keys of the merchant's two accounts. -/
structure Settings where
  clickSecretKey : String
  paymeMerchantKey : String

structure ClickCallback where
  clickTransId : String
  serviceId : String
  merchantTransId : String
  merchantPrepareId : Option String
  amount : String
  action : String
  signTime : String
  signString : String
  error : String
  deriving DecidableEq

inductive Phase where
  | prepare | complete
  deriving DecidableEq, Repr

def Phase.text : Phase → String
  | .prepare => "prepare"
  | .complete => "complete"

def Phase.method : Phase → String
  | .prepare => "Prepare"
  | .complete => "Complete"

structure ClickResponse where
  error : ℤ
  errorNote : String
  clickTransId : Option String
  merchantTransId : Option String
  deriving DecidableEq

structure PaymentEvent where
  providerTxnId : String
  method : String
  payload : ClickCallback
  response : ClickResponse
  signatureOk : Bool
  idempotencyKey : String
  processedAt : Time
  result : String

/-- The ledger, and the log of Click's callbacks under their idempotency keys. -/
structure Db where
  ledger : Ledger
  events : Table PaymentEvent String PaymentEvent.idempotencyKey

/-! ## Signatures -/

/-- `str.lower()` as far as ASCII is concerned: of the characters beyond it only the Kelvin sign
becomes one within. -/
def lowerChar (c : Char) : Char :=
  if 'A' ≤ c ∧ c ≤ 'Z' then Char.ofNat (c.toNat + 32)
  else if c = '\u212a' then 'k'
  else c

def lower (s : String) : String := .ofList (s.toList.map lowerChar)

def isAscii (s : String) : Bool := s.toList.all (fun c => c.toNat < 128)

/-- `hmac.compare_digest`: texts beyond ASCII are refused. -/
def compareDigest (a b : String) : Except Raised Bool :=
  if isAscii a ∧ isAscii b then .ok (a = b) else .error .typeError

def clickSignature (secret : String) (body : ClickCallback) (phase : Phase) : String :=
  let prepareId := body.merchantPrepareId.getD ""
  let action := match phase with | .prepare => "0" | .complete => "1"
  Md5.ofText (body.clickTransId ++ body.serviceId ++ secret ++ body.merchantTransId ++ prepareId ++
    body.amount ++ action ++ body.signTime)

def signatureOk (cfg : Settings) (body : ClickCallback) (phase : Phase) : Except Raised Bool :=
  if cfg.clickSecretKey = "" then .ok false
  else compareDigest (clickSignature cfg.clickSecretKey body phase) (lower body.signString)

/-! ## The two phases -/

def idempotencyKey (phase : Phase) (body : ClickCallback) : String :=
  phase.text ++ ":" ++ body.clickTransId ++ ":" ++ body.merchantTransId

def stored (db : Db) (key : String) : Option ClickResponse :=
  (db.events.get? key).map PaymentEvent.response

def recordClick (db : Db) (now : Time) (phase : Phase) (body : ClickCallback)
    (response : ClickResponse) (signatureOk : Bool) (result : String) : Db :=
  match db.events.get? (idempotencyKey phase body) with
  | some _ => db
  | none =>
    { db with
      events := db.events.put
        { providerTxnId := body.clickTransId, method := phase.method, payload := body,
          response := response, signatureOk := signatureOk,
          idempotencyKey := idempotencyKey phase body, processedAt := now, result := result } }

def signCheckFailed : ClickResponse := ⟨-1, "SIGN CHECK FAILED", none, none⟩

def orderNotFound : ClickResponse := ⟨-5, "Order not found", none, none⟩

def success (body : ClickCallback) : ClickResponse :=
  ⟨0, "Success", some body.clickTransId, some body.merchantTransId⟩

def upsertPayment (l : Ledger) (now : Time) (o : Order) (txn : String) (state : PaymentState) :
    Ledger :=
  let authorizedAt := if state = .authorized then some now else none
  let capturedAt := if state = .captured then some now else none
  { l with
    payments := l.payments.put
      (match l.payments.get? (.click, txn) with
      | some p => { p with state := state, capturedAt := p.capturedAt.or capturedAt }
      | none =>
        { orderId := o.id, provider := .click, providerTxnId := txn, state := state,
          amountMinor := o.amountMinor, currency := "UZS", authorizedAt := authorizedAt,
          capturedAt := capturedAt, cancelledAt := none, cancelReason := none }) }

def execute (cal : Calendar) (now : Time) (l : Ledger) (phase : Phase) (body : ClickCallback) :
    ClickResponse × Ledger :=
  match orderByReference l body.merchantTransId with
  | none => (orderNotFound, l)
  | some o =>
    match phase with
    | .prepare => (success body, upsertPayment l now o body.clickTransId .authorized)
    | .complete =>
      (success body,
        grantForOrder cal now
          (markPaid (upsertPayment l now o body.clickTransId .captured) o.id (fun _ => some now))
          o.id)

def clickPhase (cal : Calendar) (cfg : Settings) (now : Time) (db : Db) (phase : Phase)
    (body : ClickCallback) : Except Raised (ClickResponse × Db) :=
  match stored db (idempotencyKey phase body) with
  | some response => .ok (response, db)
  | none => do
    let ok ← signatureOk cfg body phase
    if ok then
      let (response, ledger) := execute cal now db.ledger phase body
      return (response, recordClick { db with ledger := ledger } now phase body response true "ok")
    else
      return (signCheckFailed,
        recordClick db now phase body signCheckFailed false "signature_failed")

/-! ## What a callback leaves -/

variable {cal : Calendar} {cfg : Settings} {now : Time} {db : Db} {phase : Phase}
  {body : ClickCallback}

theorem clickPhase_executed (h : stored db (idempotencyKey phase body) = none)
    (hsig : signatureOk cfg body phase = .ok true) :
    clickPhase cal cfg now db phase body =
      .ok ((execute cal now db.ledger phase body).1,
        recordClick { db with ledger := (execute cal now db.ledger phase body).2 } now phase body
          (execute cal now db.ledger phase body).1 true "ok") := by
  unfold clickPhase
  rw [h, hsig]
  rfl

theorem clickPhase_refused (h : stored db (idempotencyKey phase body) = none)
    (hsig : signatureOk cfg body phase = .ok false) :
    clickPhase cal cfg now db phase body =
      .ok (signCheckFailed,
        recordClick db now phase body signCheckFailed false "signature_failed") := by
  unfold clickPhase
  rw [h, hsig]
  rfl

theorem stored_eq_none {key : String} : stored db key = none ↔ db.events.get? key = none :=
  Option.map_eq_none_iff

theorem ledger_recordClick (response : ClickResponse) (ok : Bool) (result : String) :
    (recordClick db now phase body response ok result).ledger = db.ledger := by
  unfold recordClick
  split <;> rfl

theorem stored_recordClick (h : stored db (idempotencyKey phase body) = none)
    (response : ClickResponse) (ok : Bool) (result : String) (key : String) :
    stored (recordClick db now phase body response ok result) key =
      if idempotencyKey phase body = key then some response else stored db key := by
  unfold stored recordClick
  rw [stored_eq_none.1 h]
  simp only [Table.get?_put]
  split <;> rfl

/-! ## One order, awaiting its payment -/

def sampleSettings : Settings := ⟨"click-secret", "payme-key"⟩

def sampleCalendar : Calendar := ⟨(· + seconds 2592000), (· + seconds 31536000)⟩

def sampleOrder : Order where
  id := 1
  userId := some 7
  orgId := none
  productId := 1
  priceId := 1
  quantity := 1
  amountMinor := 5000000
  status := .awaiting_payment
  reference := "ORD-TEST-1"
  paidAt := none

def sampleLedger : Ledger where
  orders := Table.empty.put sampleOrder
  products := Table.empty.put
    ⟨1, .one_off, .arr [.obj [("feature", .str "competition.entry"), ("quantity", .int 4)]]⟩
  prices := Table.empty.put ⟨1, none⟩
  payments := Table.empty
  entitlements := Table.empty

def sampleDb : Db := ⟨sampleLedger, Table.empty⟩

def signed (phase : Phase) (body : ClickCallback) : ClickCallback :=
  { body with signString := clickSignature sampleSettings.clickSecretKey body phase }

def sampleForm (txn amount : String) : ClickCallback :=
  ⟨txn, "12345", "ORD-TEST-1", none, amount, "0", "1700000000", "", "0"⟩

end IeltsHub.ClickCallbacks
