import IeltsHub.ClickCallbacks

set_option autoImplicit false

/-!
# Payme's six methods

One endpoint, read loosely: the body is a dictionary of JSON values, and a handler raises where
Python does on a value of another class. Answers are in Payme's protocol, whose errors are
codes in the body.
-/
namespace IeltsHub.PaymeRpc
open PyTime PyValue PlatformErrors BillingModels ClickCallbacks

/-! ## Authorization -/

/-- HTTP Basic: `credential` is the decoded text of the header, where it has one. -/
def paymeAuthorized (cfg : Settings) (credential : Option String) : Except Raised Bool :=
  if cfg.paymeMerchantKey = "" then .ok false
  else
    match credential with
    | none => .ok false
    | some decoded => compareDigest decoded ("Paycom:" ++ cfg.paymeMerchantKey)

/-! ## Answers -/

def PAYME_UNAUTHORIZED : ℤ := -32504

def unauthorized (rpcId : Json) : Json :=
  .obj [("id", rpcId), ("error", .obj [("code", .int PAYME_UNAUTHORIZED),
    ("message", .obj [("en", .str "Insufficient privileges"), ("ru", .str "Недостаточно привилегий")]),
    ("data", .str "auth")])]

def paymeError (rpcId : Json) (code : ℤ) (message : String) : Json :=
  .obj [("id", rpcId), ("error", .obj [("code", .int code),
    ("message", .obj [("en", .str message), ("ru", .str message)]), ("data", .str "order")])]

def paymeResult (rpcId : Json) (result : List (String × Json)) : Json :=
  .obj [("id", rpcId), ("result", .obj result)]

/-- `int(now.timestamp() * 1000)`. -/
def paymeMsNow (now : Time) : ℤ := milliseconds now

/-! ## What a call names -/

/-- A JSON value as the parameter compared with a text column; `null` equals no row. -/
def bindText : Json → Except Raised (Option String)
  | .str s => .ok (some s)
  | .null => .ok none
  | _ => .error .typeError

/-- A JSON value as the text column of an insert, which takes numbers and truth values too. -/
def storeText : Json → Except Raised String
  | .str s => .ok s
  | .int n => .ok (toString n)
  | .bool b => .ok (if b then "true" else "false")
  | .null => .error (.domain (.integrity "provider_txn_id"))
  | _ => .error .typeError

def paymeTxn (params : Obj) : Json := getD params "id" (.str "")

def paymeReference (params : Obj) : Except Raised (Option String) := do
  let account ← dictMethod (getOr params "account" (.obj []))
  bindText (getOr account "order" (getD account "reference" (.str "")))

def paymeOrder (l : Ledger) (params : Obj) : Except Raised (Option Order) := do
  let reference ← paymeReference params
  return reference.bind (orderByReference l)

def paymeAmount (params : Obj) : ℤ :=
  match (pyInt (getD params "amount" (.int 0)) : Except Raised ℤ) with
  | .ok amount => amount
  | .error _ => -1

def paymePayment (l : Ledger) (txn : Option String) : Option Payment :=
  txn.bind (fun t => l.payments.get? (.payme, t))

/-! ## The methods -/

def paymeCheckPerform (l : Ledger) (params : Obj) (rpcId : Json) :
    Except Raised (Json × Ledger) := do
  match ← paymeOrder l params with
  | none => return (paymeError rpcId (-31050) "Order not found", l)
  | some o =>
    if paymeAmount params ≠ o.amountMinor then
      return (paymeError rpcId (-31001) "Wrong amount", l)
    else return (paymeResult rpcId [("allow", .bool true)], l)

def createdPayment (now : Time) (o : Order) (txn : String) : Payment where
  orderId := o.id
  provider := .payme
  providerTxnId := txn
  state := .authorized
  amountMinor := o.amountMinor
  currency := "UZS"
  authorizedAt := some now
  capturedAt := none
  cancelledAt := none
  cancelReason := none

def insertCreated (now : Time) (l : Ledger) (o : Order) (txn : String) : Ledger :=
  match l.payments.get? (.payme, txn) with
  | some _ => l
  | none => { l with payments := l.payments.put (createdPayment now o txn) }

def paymeCreate (now : Time) (l : Ledger) (params : Obj) (rpcId : Json) :
    Except Raised (Json × Ledger) := do
  match ← paymeOrder l params with
  | none => return (paymeError rpcId (-31050) "Order not found", l)
  | some o =>
    if paymeAmount params ≠ o.amountMinor then
      return (paymeError rpcId (-31001) "Wrong amount", l)
    else
      let txn ← storeText (paymeTxn params)
      return (paymeResult rpcId [("create_time", .int (paymeMsNow now)),
        ("transaction", paymeTxn params), ("state", .int 1)], insertCreated now l o txn)

def capturable (p : Payment) : Bool := p.state = .authorized ∨ p.state = .captured

def capture (cal : Calendar) (now : Time) (l : Ledger) (p : Payment) : Ledger :=
  grantForOrder cal now
    (markPaid
      { l with
        payments :=
          l.payments.put { p with state := .captured, capturedAt := p.capturedAt.or (some now) } }
      p.orderId (fun paidAt => paidAt.or (some now)))
    p.orderId

def paymePerform (cal : Calendar) (now : Time) (l : Ledger) (params : Obj) (rpcId : Json) :
    Except Raised (Json × Ledger) := do
  let txn ← bindText (paymeTxn params)
  match (paymePayment l txn).filter capturable with
  | none => return (paymeError rpcId (-31003) "Transaction not found", l)
  | some p =>
    return (paymeResult rpcId [("perform_time", .int (paymeMsNow now)),
      ("transaction", paymeTxn params), ("state", .int 2)], capture cal now l p)

def cancel (now : Time) (l : Ledger) (p : Payment) (reason : String) : Ledger :=
  { l with
    payments := l.payments.put
      { p with state := .cancelled, cancelledAt := some now, cancelReason := some reason } }

/-- Whatever state the payment is in, it is cancelled; the order is not looked at. -/
def paymeCancel (now : Time) (l : Ledger) (params : Obj) (rpcId : Json) :
    Except Raised (Json × Ledger) := do
  let txn ← bindText (paymeTxn params)
  let l' := match paymePayment l txn with
    | none => l
    | some p => cancel now l p (pyStr (getD params "reason" (.str "")))
  return (paymeResult rpcId [("cancel_time", .int (paymeMsNow now)),
    ("transaction", paymeTxn params), ("state", .int (-1))], l')

def paymeCheckTransaction (l : Ledger) (params : Obj) (rpcId : Json) :
    Except Raised (Json × Ledger) := do
  let txn ← bindText (paymeTxn params)
  match paymePayment l txn with
  | none => return (paymeError rpcId (-31003) "Transaction not found", l)
  | some p =>
    return (paymeResult rpcId [("transaction", paymeTxn params),
      ("state", .int (if p.state = .captured then 2 else 1))], l)

def paymeStatement (l : Ledger) (rpcId : Json) : Json × Ledger :=
  let captured := l.payments.select (fun p => p.provider = .payme ∧ p.state = .captured)
  let transactions := captured.filterMap (fun p => (l.orders.get? p.orderId).map (fun o =>
    Json.obj [("id", .str p.providerTxnId), ("amount", .int p.amountMinor),
      ("account", .obj [("order", .str o.reference)])]))
  (paymeResult rpcId [("transactions", .arr transactions)], l)

inductive PaymeMethod where
  | checkPerform | create | perform | cancel | checkTransaction | statement
  deriving DecidableEq

def PAYME_METHODS : List (String × PaymeMethod) := [
  ("CheckPerformTransaction", .checkPerform),
  ("CreateTransaction", .create),
  ("PerformTransaction", .perform),
  ("CancelTransaction", .cancel),
  ("CheckTransaction", .checkTransaction),
  ("GetStatement", .statement)]

def handlerOf : Json → Option PaymeMethod
  | .str method => (PAYME_METHODS.find? (fun m => m.1 = method)).map Prod.snd
  | _ => none

/-- Every handler but the statement's asks the parameters for a field first. -/
def paymeRpc (cal : Calendar) (cfg : Settings) (now : Time) (l : Ledger)
    (credential : Option String) (body : Obj) : Except Raised (Json × Ledger) := do
  let rpcId := getD body "id" .null
  if ← paymeAuthorized cfg credential then
    let params := getOr body "params" (.obj [])
    match handlerOf (getD body "method" (.str "")) with
    | some .checkPerform => paymeCheckPerform l (← dictMethod params) rpcId
    | some .create => paymeCreate now l (← dictMethod params) rpcId
    | some .perform => paymePerform cal now l (← dictMethod params) rpcId
    | some .cancel => paymeCancel now l (← dictMethod params) rpcId
    | some .checkTransaction => paymeCheckTransaction l (← dictMethod params) rpcId
    | some .statement => return paymeStatement l rpcId
    | none => return (paymeError rpcId (-32601) "Method not found", l)
  else return (unauthorized rpcId, l)

end IeltsHub.PaymeRpc
