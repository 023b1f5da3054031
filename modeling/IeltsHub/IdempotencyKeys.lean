import IeltsHub.PlatformRefusals
import IeltsHub.PyJson
import IeltsHub.PyTime
import IeltsHub.ReadCommitted
import IeltsHub.RowTable
import IeltsHub.Sha256

set_option autoImplicit false

/-!
# Store and replay

`Idempotency` of `app/api/deps.py` around whatever a route does. The stored response is looked for,
the route does its work, the response is stored, and the transaction commits; each is a statement of
its own, and of the work only what lands at the commit is said.
-/
namespace IeltsHub.IdempotencyKeys
open PyJson PyTime PyValue PlatformRefusals ReadCommitted RowTable

/-- The routes that take an `Idempotency-Key`. -/
inductive Route where
  | createOrder
  | fixAnswerKey (xid : String)
  | commitImport (xid : String)
  | register (xid : String)
  | startAttempt
  | saveAnswers (xid : String)
  | submit (xid : String)
  | createAssignment
  | stageRegrade
  | applyRegrade (xid : String)
  deriving DecidableEq

def Route.scope : Route → String
  | .createOrder => "orders.create"
  | .fixAnswerKey xid => "keys.create:" ++ xid
  | .commitImport xid => "imports.commit:" ++ xid
  | .register xid => "competitions.register:" ++ xid
  | .startAttempt => "attempts.start"
  | .saveAnswers xid => "attempts.answers:" ++ xid
  | .submit xid => "attempts.submit:" ++ xid
  | .createAssignment => "assignments.create"
  | .stageRegrade => "regrades.create"
  | .applyRegrade xid => "regrades.apply:" ++ xid

def Route.status : Route → ℕ
  | .createOrder | .fixAnswerKey _ | .register _ | .startAttempt | .createAssignment
  | .stageRegrade => 201
  | .applyRegrade _ => 202
  | .commitImport _ | .saveAnswers _ | .submit _ => 200

/-- What a route gives `replay` and `store` of the body, which is `model_dump(mode="json")`. -/
def Route.fingerprinted (route : Route) (body : Json) : Json :=
  match route with
  | .commitImport _ | .register _ | .applyRegrade _ => .obj []
  | .submit _ =>
    if ((asDict body).bind (fun fields => fields.get? "final_answers")).any truthy then body
    else .obj []
  | _ => body

/-- `_hash`. -/
def hash (body : Json) : String := Sha256.ofText (dumps compactSorted body)

structure IdempotencyKey where
  scope : String
  key : String
  userId : ℕ
  requestHash : String
  responseStatus : ℕ
  responseBody : Json
  expiresAt : Time
  deriving DecidableEq

abbrev Unique : Type := String × String × ℕ

def IdempotencyKey.unique (row : IdempotencyKey) : Unique := (row.scope, row.key, row.userId)

/-- The stored responses, and everything else there is. -/
structure Store (δ : Type) where
  keys : Table IdempotencyKey Unique IdempotencyKey.unique := .empty
  rest : δ

/-- A request to a guarded route, a sweep, or anything that leaves the stored responses alone. -/
inductive Call where
  | guarded (route : Route) (key : Option String) (userId : ℕ) (body : Json)
  | sweep
  | other

def Call.fingerprint : Call → String
  | .guarded route _ _ body => hash (route.fingerprinted body)
  | _ => ""

def Call.unique : Call → Option Unique
  | .guarded route key userId _ =>
    (key.filter (fun k => k ≠ "")).map (fun k => (route.scope, k, userId))
  | _ => none

inductive Answer where
  | executed (response : Json)
  | replayed (response : Json)
  | refused (e : Refusal)
  | noContent

/-- `land` is what the work of the route does to the tables when it commits. -/
inductive Phase (δ : Type) where
  | waiting
  | absent
  | worked (land : δ → δ) (response : Json)
  | stored (land : δ → δ) (response : Json) (row : Option IdempotencyKey)
  | done (a : Answer)

structure Request (δ : Type) where
  call : Call
  phase : Phase δ := .waiting

inductive Act (δ : Type) where
  | replay
  | work (land : δ → δ) (response : Json)
  | store (now : Time)
  | commit
  | fail (e : Refusal)
  | sweep (now : Time)
  | write (land : δ → δ)

def keyReused : Refusal :=
  conflict "This idempotency key was used with a different request body." "idempotency_key_reused"

variable {δ : Type}

/-! ## The statements -/

/-- `replay` and the `if` it stands in: a stored response that is falsy is not given back. -/
def replay (d : Store δ) (q : Request δ) : Move (Store δ) Unique (Request δ) :=
  match q.call.unique.bind (fun k => d.keys.get? k) with
  | none => .goes { q with phase := .absent } []
  | some row =>
    if row.requestHash ≠ q.call.fingerprint then
      .rollsBack { q with phase := .done (.refused keyReused) }
    else if truthy row.responseBody then
      .commits d { q with phase := .done (.replayed row.responseBody) }
    else .goes { q with phase := .absent } []

def oneDay : ℤ := seconds 86400

def rowOf (route : Route) (k : Unique) (fingerprint : String) (response : Json) (now : Time) :
    IdempotencyKey where
  scope := k.1
  key := k.2.1
  userId := k.2.2
  requestHash := fingerprint
  responseStatus := route.status
  responseBody := response
  expiresAt := now + oneDay

/-- `store` with its flush: `idempotency_keys_uq` refuses a row that is there, and makes it wait for
one that is on its way. -/
def remember (d : Store δ) (q : Request δ) (land : δ → δ) (response : Json) (now : Time) :
    Move (Store δ) Unique (Request δ) :=
  match q.call with
  | .guarded route _ _ _ =>
    match q.call.unique with
    | none => .goes { q with phase := .stored land response none } []
    | some k =>
      if (d.keys.get? k).isSome then
        .rollsBack { q with phase := .done (.refused (integrity "idempotency_keys_uq")) }
      else
        .goes { q with
          phase := .stored land response (some (rowOf route k q.call.fingerprint response now)) } [k]
  | _ => .goes q []

def withRow (d : Store δ) : Option IdempotencyKey → Store δ
  | none => d
  | some row => { d with keys := d.keys.put row }

/-- `expire_idempotency`. -/
def expireIdempotency (d : Store δ) (now : Time) : Store δ :=
  { d with keys := d.keys.remove (fun row => row.expiresAt < now) }

def Phase.isDone : Phase δ → Bool
  | .done _ => true
  | _ => false

def next (d : Store δ) (q : Request δ) (act : Act δ) :
    Option (Move (Store δ) Unique (Request δ)) :=
  match q.phase, q.call, act with
  | .waiting, .guarded .., .replay => some (replay d q)
  | .absent, .guarded .., .work land response =>
    some (.goes { q with phase := .worked land response } [])
  | .worked land response, .guarded .., .store now => some (remember d q land response now)
  | .stored land response row, .guarded .., .commit =>
    some (.commits { withRow d row with rest := land d.rest }
      { q with phase := .done (.executed response) })
  | .waiting, .sweep, .sweep now =>
    some (.commits (expireIdempotency d now) { q with phase := .done .noContent })
  | .waiting, .other, .write land =>
    some (.commits { d with rest := land d.rest } { q with phase := .done .noContent })
  | phase, .guarded .., .fail e =>
    if phase.isDone then none else some (.rollsBack { q with phase := .done (.refused e) })
  | _, _, _ => none

/-! ## What a statement does -/

inductive Next (d : Store δ) (q : Request δ) :
    Act δ → Move (Store δ) Unique (Request δ) → Prop where
  | absent (hnone : ∀ k row, q.call.unique = some k → d.keys.get? k = some row →
        row.requestHash = q.call.fingerprint ∧ truthy row.responseBody = false) :
      Next d q .replay (.goes { q with phase := .absent } [])
  | reused : Next d q .replay (.rollsBack { q with phase := .done (.refused keyReused) })
  | replayed (k : Unique) (row : IdempotencyKey) (hkey : q.call.unique = some k)
      (hrow : d.keys.get? k = some row) (hhash : row.requestHash = q.call.fingerprint) :
      Next d q .replay (.commits d { q with phase := .done (.replayed row.responseBody) })
  | work (land : δ → δ) (response : Json) : Next d q (.work land response)
      (.goes { q with phase := .worked land response } [])
  | bare (land : δ → δ) (response : Json) (now : Time) (hkey : q.call.unique = none) :
      Next d q (.store now) (.goes { q with phase := .stored land response none } [])
  | taken (now : Time) : Next d q (.store now)
      (.rollsBack { q with phase := .done (.refused (integrity "idempotency_keys_uq")) })
  | stored (land : δ → δ) (response : Json) (now : Time) (row : IdempotencyKey)
      (hkey : q.call.unique = some row.unique) (hhash : row.requestHash = q.call.fingerprint)
      (hresponse : row.responseBody = response) (hfree : d.keys.get? row.unique = none)
      (hexpires : row.expiresAt = now + oneDay) : Next d q (.store now)
      (.goes { q with phase := .stored land response (some row) } [row.unique])
  | commit (land : δ → δ) (response : Json) (row : Option IdempotencyKey)
      (hphase : q.phase = .stored land response row) : Next d q .commit
      (.commits { withRow d row with rest := land d.rest }
        { q with phase := .done (.executed response) })
  | sweep (now : Time) (hcall : q.call = .sweep) : Next d q (.sweep now)
      (.commits (expireIdempotency d now) { q with phase := .done .noContent })
  | write (land : δ → δ) (hcall : q.call = .other) : Next d q (.write land)
      (.commits { d with rest := land d.rest } { q with phase := .done .noContent })
  | fail (e : Refusal) : Next d q (.fail e) (.rollsBack { q with phase := .done (.refused e) })

variable {d : Store δ} {q : Request δ} {act : Act δ} {m : Move (Store δ) Unique (Request δ)}

theorem next_replay (d : Store δ) (q : Request δ) : Next d q .replay (replay d q) := by
  unfold replay
  split
  · next hnone =>
    refine .absent ?_
    intro k row hk hrow
    rw [hk, Option.bind_some, hrow] at hnone
    cases hnone
  · next row hrow =>
    obtain ⟨k, hk, hrow⟩ := Option.bind_eq_some_iff.1 hrow
    split
    · exact .reused
    · next hhash =>
      have hhash := not_not.1 hhash
      split
      · exact .replayed k row hk hrow hhash
      · next hfalsy =>
        refine .absent ?_
        intro k' row' hk' hrow'
        rw [hk] at hk'
        cases hk'
        rw [hrow] at hrow'
        cases hrow'
        exact ⟨hhash, Bool.not_eq_true _ ▸ hfalsy⟩

theorem next_remember {land : δ → δ} {response : Json} {now : Time} {route : Route}
    {key : Option String} {userId : ℕ} {body : Json}
    (hcall : q.call = .guarded route key userId body) :
    Next d q (.store now) (remember d q land response now) := by
  unfold remember
  rw [hcall]
  dsimp only
  rw [← hcall]
  split
  · next hkey => exact .bare land response now hkey
  · next k hkey =>
    split
    · exact .taken now
    · next hfree =>
      have hnone : d.keys.get? k = none := by simpa using hfree
      exact .stored land response now (rowOf route k q.call.fingerprint response now) hkey rfl rfl
        hnone rfl

theorem next_cases (h : next d q act = some m) : Next d q act m := by
  unfold next at h
  split at h
  · cases h
    exact next_replay d q
  · cases h
    exact .work _ _
  · next hcall =>
    cases h
    exact next_remember hcall
  · next hphase _ =>
    cases h
    exact .commit _ _ _ hphase
  · next hcall =>
    cases h
    exact .sweep _ hcall
  · next hcall =>
    cases h
    exact .write _ hcall
  · split at h
    · cases h
    · cases h
      exact .fail _
  · cases h

/-! ## The program -/

/-- The row a request has inserted and not committed is locked in the index. -/
def owned (q : Request δ) : List Unique :=
  match q.phase with
  | .stored _ _ (some row) => [row.unique]
  | _ => []

def program (δ : Type) : Program (Store δ) Unique (Request δ) (Act δ) where
  next := next
  owned := owned
  owned_goes h := by
    intro k hk
    cases next_cases h with
    | stored land response now row => exact .inr hk
    | _ => cases hk
  owned_commits h := by
    cases next_cases h with
    | _ => rfl
  owned_rollsBack h := by
    cases next_cases h with
    | _ => rfl

abbrev Sys (δ : Type) := ReadCommitted.Sys (Store δ) Unique (Request δ)

def start (d : Store δ) (calls : ℕ → Call) : Sys δ where
  store := d
  requests r := ⟨calls r, .waiting⟩

end IeltsHub.IdempotencyKeys
