import IeltsHub.ProviderCalls

set_option autoImplicit false

/-!
# Paid means paid

A run takes calls of either provider one after another. Along a careful run a paid order has a
payment that is not cancelled, and every payment of an order not yet paid was prepared or created
for it, for its amount, by a call of the run.
-/
namespace IeltsHub.PaidMeansPaid
open PyText PyTime PyValue RowTable PlatformErrors GuardedRuns BillingModels
open ClickCallbacks PaymeRpc ProviderCalls

/-! ## What the calls say -/

def reportsSuccess (o : Order) (body : ClickCallback) : Bool :=
  (intOfText body.error : Except Raised ℤ) = .ok 0 ∧
    (decimalLiteral body.amount).map (· * 100) = some (o.amountMinor : ℚ)

def Opens (cfg : Settings) (o : Order) (key : Provider × String) : Call → Prop
  | .click _ phase body =>
    phase = .prepare ∧ signatureOk cfg body .prepare = .ok true ∧
      body.merchantTransId = o.reference ∧ key = (.click, body.clickTransId)
  | .payme _ credential body =>
    ∃ params txn, invoked cfg credential body = some (.create, params) ∧
      paymeReference params = .ok (some o.reference) ∧ paymeAmount params = o.amountMinor ∧
      storeText (paymeTxn params) = .ok txn ∧ key = (.payme, txn)

/-- A verified call that captures a transaction of the order; Click's reports success for exactly
the order's amount, Payme's says nothing of an amount. -/
def Captures (cfg : Settings) (o : Order) (key : Provider × String) : Call → Prop
  | .click _ phase body =>
    phase = .complete ∧ signatureOk cfg body .complete = .ok true ∧
      body.merchantTransId = o.reference ∧ reportsSuccess o body ∧
      key = (.click, body.clickTransId)
  | .payme _ credential body =>
    ∃ params txn, invoked cfg credential body = some (.perform, params) ∧
      bindText (paymeTxn params) = .ok (some txn) ∧ key = (.payme, txn)

/-! ## The property and its guard -/

abbrev Served (cal : Calendar) (cfg : Settings) (db : Db) (call : Call) (next : Db) : Prop :=
  (serve cal cfg db call).2 = next

/-- The order was paid by a call that captures a payment of it: one for its amount, that an
earlier call opened for it and that is not cancelled. -/
def Earned (cfg : Settings) (calls : List Call) (l : Ledger) (o : Order) (call : Call) : Prop :=
  ∃ key p, Captures cfg o key call ∧ l.payments.get? key = some p ∧ p.orderId = o.id ∧
    capturable p ∧ p.amountMinor = o.amountMinor ∧ ∃ opening ∈ calls, Opens cfg o key opening

/-- Of a state reached by `calls`: what is paid, and what the next call may do. -/
structure Rightly (g : Db → Call → Prop) (cal : Calendar) (cfg : Settings) (calls : List Call)
    (db : Db) : Prop where
  covered : ∀ o ∈ db.ledger.orders.rows,
    (∀ p ∈ db.ledger.payments.rows, p.orderId = o.id → p.state = .cancelled) → o.status ≠ .paid
  earned : ∀ call next, g db call → Served cal cfg db call next →
    ∀ o ∈ db.ledger.orders.rows, o.status ≠ .paid →
      ∀ o' ∈ next.ledger.orders.rows, o'.id = o.id → o'.status = .paid →
        Earned cfg calls db.ledger o call
  kept : ∀ call next, g db call → Served cal cfg db call next →
    ∀ p ∈ db.ledger.payments.rows, p.state = .captured →
      ∀ q ∈ next.ledger.payments.rows, q.key = p.key → q.state ≠ .authorized

/-- A prepare meets no captured payment; a complete of an order not yet paid reports success for
its amount and meets a payment prepared for it; a cancel leaves a paid order another payment. -/
def careful (cfg : Settings) (db : Db) (call : Call) : Bool :=
  match effectOf cfg db call with
  | .prepare _ body =>
    (db.ledger.payments.get? (.click, body.clickTransId)).all (fun p => p.state ≠ .captured)
  | .complete o body =>
    o.status = .paid ∨ (reportsSuccess o body ∧
      (db.ledger.payments.get? (.click, body.clickTransId)).any
        (fun p => p.orderId = o.id ∧ capturable p))
  | .cancel p _ =>
    (db.ledger.orders.get? p.orderId).all (fun o => o.status ≠ .paid) ∨
      db.ledger.payments.rows.any
        (fun q => q.key ≠ p.key ∧ q.orderId = p.orderId ∧ q.state ≠ .cancelled)
  | _ => true

def Careful (cfg : Settings) (db : Db) (call : Call) : Prop := careful cfg db call = true

/-- Orders not paid, and no payment yet. -/
structure Fresh (l : Ledger) : Prop where
  unpaid : ∀ o ∈ l.orders.rows, o.status ≠ .paid
  payments : l.payments.rows = []

/-! ## What careful calls keep -/

variable {cal : Calendar} {cfg : Settings} {db : Db} {l : Ledger} {calls : List Call}
  {call : Call} {now : Time} {o o' : Order}

theorem Opens.same {key : Provider × String} (h : Opens cfg o key call) (hs : SameOrder o o') :
    Opens cfg o' key call := by
  cases call with
  | click now phase body =>
    rw [Opens, hs.reference]
    exact h
  | payme now credential body =>
    rw [Opens, hs.reference, hs.amountMinor]
    exact h

def Backed (t : Table Payment (Provider × String) Payment.key) (orderId : ℕ) : Prop :=
  ∃ key p, t.get? key = some p ∧ p.orderId = orderId ∧ p.state ≠ .cancelled

theorem Backed.put {t : Table Payment (Provider × String) Payment.key} {orderId : ℕ}
    {row : Payment} (h : Backed t orderId)
    (hold : ∀ p, t.get? row.key = some p → row.orderId = p.orderId)
    (hstate : row.state ≠ .cancelled) : Backed (t.put row) orderId := by
  obtain ⟨key, p, hp, horder, hlive⟩ := h
  by_cases hkey : row.key = key
  · subst hkey
    exact ⟨row.key, row, Table.get?_put_self t row, (hold p hp).trans horder, hstate⟩
  · exact ⟨key, p, (Table.get?_put_of_ne t hkey).trans hp, horder, hlive⟩

structure Sound (cfg : Settings) (calls : List Call) (l : Ledger) : Prop where
  backed : ∀ id o, l.orders.get? id = some o → o.status = .paid → Backed l.payments id
  opened : ∀ key p, l.payments.get? key = some p → ∃ o, l.orders.get? p.orderId = some o ∧
    (o.status = .paid ∨
      (p.amountMinor = o.amountMinor ∧ ∃ opening ∈ calls, Opens cfg o key opening))

theorem Fresh.sound (h : Fresh l) : Sound cfg [] l where
  backed := fun id o ho hpaid => absurd hpaid (h.unpaid o (Table.get?_eq_some.1 ho).1)
  opened := by
    intro key p hp
    have hmem := (Table.get?_eq_some.1 hp).1
    rw [h.payments] at hmem
    cases hmem

theorem opened_apply (cal : Calendar) (now : Time) (e : Effect) {key : Provider × String}
    {p q : Payment}
    (h : Sound cfg calls l) (hp : l.payments.get? key = some p) (horder : q.orderId = p.orderId)
    (hamount : q.amountMinor = p.amountMinor) :
    ∃ o, (e.apply cal now l).orders.get? q.orderId = some o ∧ (o.status = .paid ∨
      (q.amountMinor = o.amountMinor ∧ ∃ opening ∈ calls ++ [call], Opens cfg o key opening)) := by
  obtain ⟨o, ho, hsound⟩ := h.opened key p hp
  obtain ⟨o', ho', hsame, hstatus⟩ := order_apply cal now ho e
  rw [horder, hamount]
  refine ⟨o', ho', ?_⟩
  rcases hsound with hpaid | ⟨hof, opening, hmem, hopens⟩
  · left
    rw [hstatus, hpaid]
    exact ite_self _
  · exact .inr ⟨hof.trans hsame.amountMinor.symm, opening, List.mem_append_left _ hmem,
      hopens.same hsame⟩

theorem opened_new {key : Provider × String} {q : Payment} {e : Effect}
    (ho : l.orders.get? o.id = some o) (horder : q.orderId = o.id)
    (hamount : q.amountMinor = o.amountMinor)
    (h : e.captures = some o.id ∨ Opens cfg o key call) :
    ∃ o, (e.apply cal now l).orders.get? q.orderId = some o ∧ (o.status = .paid ∨
      (q.amountMinor = o.amountMinor ∧ ∃ opening ∈ calls ++ [call], Opens cfg o key opening)) := by
  obtain ⟨o', ho', hsame, hstatus⟩ := order_apply cal now ho e
  rw [horder]
  refine ⟨o', ho', ?_⟩
  rcases h with hcaptures | hopens
  · left
    rw [hstatus, if_pos hcaptures]
  · exact .inr ⟨hamount.trans hsame.amountMinor.symm, call,
      List.mem_append_right _ List.mem_cons_self, hopens.same hsame⟩

/-- An effect that writes one payment keeps a ledger sound when the payment is backed by its
order, the paid orders stay backed and an order newly paid is the payment's. -/
theorem Sound.put {e : Effect} {row : Payment} (h : Sound cfg calls l)
    (hput : (e.apply cal now l).payments = l.payments.put row)
    (hrow : ∃ o, (e.apply cal now l).orders.get? row.orderId = some o ∧ (o.status = .paid ∨
      (row.amountMinor = o.amountMinor ∧ ∃ opening ∈ calls ++ [call], Opens cfg o row.key opening)))
    (hpaid : ∀ id o, l.orders.get? id = some o → o.status = .paid → Backed (l.payments.put row) id)
    (hcaptures : ∀ id o, e.captures = some id → l.orders.get? id = some o → o.status ≠ .paid →
      row.orderId = id ∧ row.state ≠ .cancelled) :
    Sound cfg (calls ++ [call]) (e.apply cal now l) := by
  refine ⟨?_, ?_⟩
  · intro id o' ho' hstatus
    rw [hput]
    obtain ⟨o, ho, _, heq⟩ := apply_order ho'
    by_cases hbefore : o.status = .paid
    · exact hpaid id o ho hbefore
    · have hcap : e.captures = some id := by
        by_contra hnot
        rw [if_neg hnot] at heq
        exact hbefore (heq.symm.trans hstatus)
      obtain ⟨horder, hlive⟩ := hcaptures id o hcap ho hbefore
      exact ⟨row.key, row, Table.get?_put_self _ row, horder, hlive⟩
  · intro key p hp
    rw [hput, Table.get?_put] at hp
    split at hp
    · next hkey =>
      cases hp
      exact hkey ▸ hrow
    · exact opened_apply _ _ _ h hp rfl rfl

theorem Sound.nothing (h : Sound cfg calls l) : Sound cfg (calls ++ [call]) l where
  backed := h.backed
  opened := fun _ _ hp => opened_apply ⟨id, id⟩ 0 .nothing h hp rfl rfl

theorem Sound.upsert {e : Effect} (body : ClickCallback) (state : PaymentState)
    (h : Sound cfg calls l) (ho : l.orders.get? o.id = some o)
    (hput : (e.apply cal now l).payments =
      (upsertPayment l now o body.clickTransId state).payments)
    (hstate : state ≠ .cancelled)
    (hopens : e.captures = some o.id ∨ Opens cfg o (.click, body.clickTransId) call)
    (hcaptures : ∀ id, e.captures = some id → id = o.id ∧ (o.status ≠ .paid →
      ∃ p, l.payments.get? (.click, body.clickTransId) = some p ∧ p.orderId = o.id)) :
    Sound cfg (calls ++ [call]) (e.apply cal now l) := by
  obtain ⟨row, hrow, hkey, hrowState, hfields⟩ :=
    payments_upsertPayment l now o body.clickTransId state
  have hlive : row.state ≠ .cancelled := by rw [hrowState]; exact hstate
  have hold : ∀ p, l.payments.get? row.key = some p → row.orderId = p.orderId := by
    intro p hp
    rw [hkey] at hp
    rw [hp] at hfields
    exact hfields.1
  refine h.put (hput.trans hrow) ?_ (fun id x hx hpaid => (h.backed id x hx hpaid).put hold hlive) ?_
  · cases hp : l.payments.get? (.click, body.clickTransId) with
    | some p =>
      rw [hp] at hfields
      rw [hkey]
      exact opened_apply _ _ _ h hp hfields.1 hfields.2
    | none =>
      rw [hp] at hfields
      rw [hkey]
      exact opened_new ho hfields.1 hfields.2 hopens
  · intro id x hcap hx hunpaid
    obtain ⟨rfl, hprepared⟩ := hcaptures id hcap
    rw [ho] at hx
    cases hx
    obtain ⟨p, hp, horder⟩ := hprepared hunpaid
    rw [hp] at hfields
    exact ⟨hfields.1.trans horder, hlive⟩

theorem Sound.perform {p : Payment} (h : Sound cfg calls l)
    (hp : l.payments.get? p.key = some p) :
    Sound cfg (calls ++ [call]) ((Effect.perform p).apply cal now l) := by
  have hput : ((Effect.perform p).apply cal now l).payments = l.payments.put
      { p with state := .captured, capturedAt := p.capturedAt.or (some now) } :=
    payments_grantForOrder _
  refine h.put hput (opened_apply _ _ _ h hp rfl rfl) ?_ ?_
  · intro id o ho hpaid
    refine (h.backed id o ho hpaid).put ?_ (by intro e; cases e)
    intro q hq
    change l.payments.get? p.key = some q at hq
    rw [hp] at hq
    cases hq
    rfl
  · intro id o hcap _ _
    exact ⟨Option.some.inj hcap, by intro e; cases e⟩

theorem Sound.create {txn : String} (h : Sound cfg calls l) (ho : l.orders.get? o.id = some o)
    (hopens : Opens cfg o (.payme, txn) call) :
    Sound cfg (calls ++ [call]) ((Effect.create o txn).apply cal now l) := by
  cases hp : l.payments.get? (.payme, txn) with
  | some p =>
    have hsame : (Effect.create o txn).apply cal now l = l := by
      rw [Effect.apply, insertCreated, hp]
    rw [hsame]
    exact h.nothing
  | none =>
    have hput : ((Effect.create o txn).apply cal now l).payments =
        l.payments.put (createdPayment now o txn) := by
      rw [Effect.apply, insertCreated, hp]
    refine h.put hput (opened_new ho rfl rfl (.inr hopens)) ?_ (by intro _ _ hcap; cases hcap)
    intro id x hx hpaid
    refine (h.backed id x hx hpaid).put ?_ (by intro e; cases e)
    intro q hq
    change l.payments.get? (.payme, txn) = some q at hq
    rw [hp] at hq
    cases hq

theorem Sound.cancel {p : Payment} {reason : String} (h : Sound cfg calls l)
    (hp : l.payments.get? p.key = some p)
    (hother : ∀ o, l.orders.get? p.orderId = some o → o.status = .paid →
      ∃ q ∈ l.payments.rows, q.key ≠ p.key ∧ q.orderId = p.orderId ∧ q.state ≠ .cancelled) :
    Sound cfg (calls ++ [call]) ((Effect.cancel p reason).apply cal now l) := by
  refine h.put rfl (opened_apply _ _ _ h hp rfl rfl) ?_ (by intro _ _ hcap; cases hcap)
  intro id o ho hpaid
  have hsurvives : ∃ key q, l.payments.get? key = some q ∧ key ≠ p.key ∧ q.orderId = id ∧
      q.state ≠ .cancelled := by
    by_cases hid : p.orderId = id
    · subst hid
      obtain ⟨q, hq, hkey, horder, hlive⟩ := hother o ho hpaid
      exact ⟨q.key, q, Table.get?_eq_some.2 ⟨hq, rfl⟩, hkey, horder, hlive⟩
    · obtain ⟨key, q, hq, horder, hlive⟩ := h.backed id o ho hpaid
      refine ⟨key, q, hq, ?_, horder, hlive⟩
      rintro rfl
      rw [hp] at hq
      cases hq
      exact hid horder
  obtain ⟨key, q, hq, hkey, horder, hlive⟩ := hsurvives
  have hne : Payment.key
      { p with state := .cancelled, cancelledAt := some now, cancelReason := some reason } ≠ key :=
    fun e => hkey e.symm
  exact ⟨key, q, (Table.get?_put_of_ne _ hne).trans hq, horder, hlive⟩

theorem key_named {params : Obj} {p : Payment} (h : namedPayment l params = some p) :
    l.payments.get? p.key = some p := by
  obtain ⟨txn, _, hp⟩ := namedPayment_eq_some h
  exact Table.get?_eq_some.2 ⟨(Table.get?_eq_some.1 hp).1, rfl⟩

theorem careful_complete {body : ClickCallback} (hc : Careful cfg db call)
    (he : effectOf cfg db call = .complete o body) (hunpaid : o.status ≠ .paid) :
    reportsSuccess o body = true ∧ ∃ p, db.ledger.payments.get? (.click, body.clickTransId) = some p ∧
      p.orderId = o.id ∧ capturable p = true := by
  unfold Careful careful at hc
  rw [he] at hc
  rcases of_decide_eq_true hc with hpaid | ⟨hsuccess, hprepared⟩
  · exact absurd hpaid hunpaid
  · obtain ⟨p, hp, hfits⟩ := (Option.any_eq_true ..).1 hprepared
    exact ⟨hsuccess, p, hp, of_decide_eq_true hfits⟩

theorem careful_cancel {p : Payment} {reason : String} (hc : Careful cfg db call)
    (he : effectOf cfg db call = .cancel p reason)
    (ho : db.ledger.orders.get? p.orderId = some o) (hpaid : o.status = .paid) :
    ∃ q ∈ db.ledger.payments.rows, q.key ≠ p.key ∧ q.orderId = p.orderId ∧ q.state ≠ .cancelled := by
  unfold Careful careful at hc
  rw [he] at hc
  rcases of_decide_eq_true hc with hnone | hother
  · rw [ho] at hnone
    exact absurd hpaid (of_decide_eq_true hnone)
  · obtain ⟨q, hq, hfits⟩ := List.any_eq_true.1 hother
    exact ⟨q, hq, of_decide_eq_true hfits⟩

theorem Sound.step (h : Sound cfg calls db.ledger) (hc : Careful cfg db call) :
    Sound cfg (calls ++ [call]) (serve cal cfg db call).2.ledger := by
  rw [serve_ledger]
  have harises := arises_effectOf cfg db call
  cases he : effectOf cfg db call with
  | nothing => exact h.nothing
  | prepare o body =>
    rw [he] at harises
    obtain ⟨now, rfl, hsig, hfound⟩ := harises
    obtain ⟨ho, href⟩ := orderByReference_eq_some hfound
    refine h.upsert body .authorized ho rfl (by decide) (.inr ⟨rfl, hsig, href.symm, rfl⟩) ?_
    intro _ hcap
    cases hcap
  | complete o body =>
    rw [he] at harises
    obtain ⟨now, rfl, hsig, hfound⟩ := harises
    obtain ⟨ho, href⟩ := orderByReference_eq_some hfound
    refine h.upsert body .captured ho (payments_grantForOrder _) (by decide)
      (.inl rfl) ?_
    intro id hcap
    refine ⟨(Option.some.inj hcap).symm, fun hunpaid => ?_⟩
    obtain ⟨_, p, hp, horder, _⟩ := careful_complete hc he hunpaid
    exact ⟨p, hp, horder⟩
  | create o txn =>
    rw [he] at harises
    obtain ⟨now, credential, body, params, rfl, hinvoked, hfound, hamount, htxn⟩ := harises
    obtain ⟨ho, href⟩ := paymeOrder_eq_some hfound
    exact h.create ho ⟨params, txn, hinvoked, href, hamount, htxn, rfl⟩
  | perform p =>
    rw [he] at harises
    obtain ⟨now, credential, body, params, rfl, _, hnamed, _⟩ := harises
    exact h.perform (key_named hnamed)
  | cancel p reason =>
    rw [he] at harises
    obtain ⟨now, credential, body, params, rfl, _, hnamed⟩ := harises
    exact h.cancel (key_named hnamed) (fun o ho hpaid => careful_cancel hc he ho hpaid)

theorem Sound.run {db next : Db} {before after : List Call}
    (hrun : Runs (Served cal cfg) (Careful cfg) db after next) (h : Sound cfg before db.ledger) :
    Sound cfg (before ++ after) next.ledger := by
  induction hrun generalizing before with
  | refl db => simpa using h
  | next hc hstep _ ih =>
    subst hstep
    rw [List.append_cons]
    exact ih (h.step hc)

/-! ## What a careful call does to one order and one payment -/

theorem Sound.earned (h : Sound cfg calls db.ledger) (hc : Careful cfg db call)
    (ho : db.ledger.orders.get? o.id = some o) (hunpaid : o.status ≠ .paid)
    (hcap : (effectOf cfg db call).captures = some o.id) :
    Earned cfg calls db.ledger o call := by
  have harises := arises_effectOf cfg db call
  have hopened : ∀ key p, db.ledger.payments.get? key = some p → p.orderId = o.id →
      p.amountMinor = o.amountMinor ∧ ∃ opening ∈ calls, Opens cfg o key opening := by
    intro key p hp horder
    obtain ⟨x, hx, hsound⟩ := h.opened key p hp
    rw [horder, ho] at hx
    cases hx
    exact hsound.resolve_left hunpaid
  cases he : effectOf cfg db call with
  | complete x body =>
    rw [he] at harises hcap
    have hid : x.id = o.id := Option.some.inj hcap
    obtain ⟨now, rfl, hsig, hfound⟩ := harises
    obtain ⟨hx, href⟩ := orderByReference_eq_some hfound
    rw [hid, ho] at hx
    cases hx
    obtain ⟨hsuccess, p, hp, horder, hcapturable⟩ := careful_complete hc he hunpaid
    exact ⟨_, p, ⟨rfl, hsig, href.symm, hsuccess, rfl⟩, hp, horder, hcapturable, hopened _ p hp horder⟩
  | perform p =>
    rw [he] at harises hcap
    have horder : p.orderId = o.id := Option.some.inj hcap
    obtain ⟨now, credential, body, params, rfl, hinvoked, hnamed, hcapturable⟩ := harises
    obtain ⟨txn, htxn, hp⟩ := namedPayment_eq_some hnamed
    exact ⟨_, p, ⟨params, txn, hinvoked, htxn, rfl⟩, hp, horder, hcapturable, hopened _ p hp horder⟩
  | nothing | prepare | create | cancel =>
    rw [he] at hcap
    cases hcap

theorem kept_put {t : Table Payment (Provider × String) Payment.key} {row p q : Payment}
    (hrow : row.state = .authorized → ∀ x, t.get? row.key = some x → x.state ≠ .captured)
    (hp : p ∈ t.rows) (hstate : p.state = .captured) (hq : q ∈ (t.put row).rows)
    (hkey : q.key = p.key) : q.state ≠ .authorized := by
  have hgetp : t.get? p.key = some p := Table.get?_eq_some.2 ⟨hp, rfl⟩
  have hgetq : (t.put row).get? p.key = some q := Table.get?_eq_some.2 ⟨hq, hkey⟩
  rw [Table.get?_put] at hgetq
  split at hgetq
  · next hsame =>
    cases hgetq
    rw [← hsame] at hgetp
    exact fun e => hrow e p hgetp hstate
  · rw [hgetp] at hgetq
    cases hgetq
    rw [hstate]
    intro e
    cases e

theorem kept_same {t : Table Payment (Provider × String) Payment.key} {p q : Payment}
    (hp : p ∈ t.rows) (hstate : p.state = .captured) (hq : q ∈ t.rows) (hkey : q.key = p.key) :
    q.state ≠ .authorized := by
  have hgetp : t.get? p.key = some p := Table.get?_eq_some.2 ⟨hp, rfl⟩
  have hgetq : t.get? p.key = some q := Table.get?_eq_some.2 ⟨hq, hkey⟩
  rw [hgetp] at hgetq
  cases hgetq
  rw [hstate]
  intro e
  cases e

theorem careful_prepare {body : ClickCallback} {p : Payment} (hc : Careful cfg db call)
    (he : effectOf cfg db call = .prepare o body)
    (hp : db.ledger.payments.get? (.click, body.clickTransId) = some p) : p.state ≠ .captured := by
  unfold Careful careful at hc
  rw [he] at hc
  change (db.ledger.payments.get? (.click, body.clickTransId)).all _ = true at hc
  rw [hp] at hc
  exact of_decide_eq_true hc

theorem kept_of_careful (hc : Careful cfg db call) {p q : Payment}
    (hp : p ∈ db.ledger.payments.rows) (hstate : p.state = .captured)
    (hq : q ∈ (serve cal cfg db call).2.ledger.payments.rows) (hkey : q.key = p.key) :
    q.state ≠ .authorized := by
  rw [serve_ledger] at hq
  cases he : effectOf cfg db call with
  | nothing =>
    rw [he] at hq
    exact kept_same hp hstate hq hkey
  | prepare o body =>
    rw [he] at hq
    obtain ⟨row, hrow, hrowKey, _, _⟩ :=
      payments_upsertPayment db.ledger call.now o body.clickTransId .authorized
    rw [Effect.apply, hrow] at hq
    refine kept_put (fun _ x hx => ?_) hp hstate hq hkey
    rw [hrowKey] at hx
    exact careful_prepare hc he hx
  | complete o body =>
    rw [he] at hq
    obtain ⟨row, hrow, _, hrowState, _⟩ :=
      payments_upsertPayment db.ledger call.now o body.clickTransId .captured
    have hput : ((Effect.complete o body).apply cal call.now db.ledger).payments =
        db.ledger.payments.put row := (payments_grantForOrder _).trans hrow
    rw [hput] at hq
    refine kept_put (fun e => ?_) hp hstate hq hkey
    rw [hrowState] at e
    cases e
  | create o txn =>
    rw [he, Effect.apply, insertCreated] at hq
    split at hq
    · exact kept_same hp hstate hq hkey
    · next hnone =>
      refine kept_put (fun _ x hx => ?_) hp hstate hq hkey
      change db.ledger.payments.get? (.payme, txn) = some x at hx
      rw [hnone] at hx
      cases hx
  | perform x =>
    rw [he, Effect.apply, capture, payments_grantForOrder] at hq
    refine kept_put (fun e => ?_) hp hstate hq hkey
    cases e
  | cancel x reason =>
    rw [he] at hq
    refine kept_put (fun e => ?_) hp hstate hq hkey
    cases e

/-- Paid means paid, along every careful run from unpaid orders. -/
theorem paid_means_paid {db next : Db} {after : List Call} (hfresh : Fresh db.ledger)
    (hrun : Runs (Served cal cfg) (Careful cfg) db after next) :
    Rightly (Careful cfg) cal cfg after next := by
  have hsound : Sound cfg after next.ledger := by
    have h := Sound.run hrun hfresh.sound
    rwa [List.nil_append] at h
  refine ⟨?_, ?_, ?_⟩
  · intro o ho hcancelled hpaid
    have hget : next.ledger.orders.get? o.id = some o := Table.get?_eq_some.2 ⟨ho, rfl⟩
    obtain ⟨key, p, hp, horder, hlive⟩ := hsound.backed o.id o hget hpaid
    exact hlive (hcancelled p (Table.get?_eq_some.1 hp).1 horder)
  · intro call u hc hstep o ho hunpaid o' ho' hid hpaid
    subst hstep
    have hget : next.ledger.orders.get? o.id = some o := Table.get?_eq_some.2 ⟨ho, rfl⟩
    have hget' : (serve cal cfg next call).2.ledger.orders.get? o.id = some o' :=
      Table.get?_eq_some.2 ⟨ho', hid⟩
    rw [serve_ledger] at hget'
    obtain ⟨x, hx, _, hstatus⟩ := apply_order hget'
    rw [hget] at hx
    cases hx
    refine hsound.earned hc hget hunpaid ?_
    by_contra hnot
    rw [if_neg hnot] at hstatus
    exact hunpaid (hstatus.symm.trans hpaid)
  · intro call u hc hstep p hp hstate q hq hkey
    subst hstep
    exact kept_of_careful hc hp hstate hq hkey

def samplePrepare : Call := .click 1 .prepare (signed .prepare (sampleForm "click-1" "50000.00"))

def sampleComplete : Call := .click 2 .complete (signed .complete (sampleForm "click-1" "50000.00"))

def samplePrepared : Db := (serve sampleCalendar sampleSettings sampleDb samplePrepare).2

def samplePaid : Db := (serve sampleCalendar sampleSettings samplePrepared sampleComplete).2

theorem paid_means_paid_on_sample :
    samplePaid.ledger.orders.rows.map Order.status = [.paid] ∧
      Rightly (Careful sampleSettings) sampleCalendar sampleSettings [samplePrepare, sampleComplete]
        samplePaid := by
  have hfresh : Fresh sampleDb.ledger := ⟨by decide +kernel, rfl⟩
  have hprepare : Careful sampleSettings sampleDb samplePrepare := by
    unfold Careful
    decide +kernel
  have hcomplete : Careful sampleSettings samplePrepared sampleComplete := by
    unfold Careful
    decide +kernel
  exact ⟨by decide +kernel,
    paid_means_paid hfresh (.next hprepare rfl (.next hcomplete rfl (.refl _)))⟩

def sampleUnearned : Call :=
  .click 1 .complete (signed .complete { sampleForm "click-9" "1.00" with error := "-5017" })

theorem unprepared_complete_pays : ¬ Rightly (fun _ _ => True) sampleCalendar sampleSettings []
    sampleDb := by
  intro h
  have hpaid : { sampleOrder with status := .paid, paidAt := some 1 } ∈
      (serve sampleCalendar sampleSettings sampleDb sampleUnearned).2.ledger.orders.rows := by
    decide +kernel
  obtain ⟨key, p, _, hp, _⟩ := h.earned sampleUnearned _ trivial rfl sampleOrder (by decide +kernel)
    (by decide) _ hpaid rfl rfl
  cases hp

end IeltsHub.PaidMeansPaid
