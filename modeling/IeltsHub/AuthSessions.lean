import IeltsHub.PlatformRefusals
import IeltsHub.PyText
import IeltsHub.PyTime
import IeltsHub.ReadCommitted
import IeltsHub.RowTable
import IeltsHub.Sha256

set_option autoImplicit false

/-!
# Sign-in sessions

The rows of `auth_sessions` and the requests that write them: sign-in and refresh open sessions,
refresh, logout, a forgotten device and the closing of an account end them. Every request is a
transaction of its own; `refresh` selects its row without a lock.
-/
namespace IeltsHub.AuthSessions
open PyTime PlatformRefusals RowTable ReadCommitted
open PlatformErrors (Raised)

structure AuthSession where
  id : ℕ
  userId : ℕ
  tokenHash : String
  deviceLabel : Option String
  userAgentHash : String
  expiresAt : Time
  revokedAt : Option Time := none
  revokedReason : Option String := none

abbrev Sessions := Table AuthSession ℕ AuthSession.id

/-- `device` is what a sign-in body says of itself: its label, where it has one. -/
inductive Call where
  | signIn (userId : ℕ) (device : Option String) (userAgent : String)
  | refresh (cookie : Option String) (userAgent : String)
  | endSessions (userId : ℕ) (reason : String)
  | forgetDevice (userId sessionId : ℕ)

def logout (userId : ℕ) : Call := .endSessions userId "logout"

/-- A session as `_open_session` adds it, before it has its id, and the token of its cookie. -/
structure Opening where
  raw : String
  row : AuthSession

/-- An UPDATE of a user's live sessions: those its snapshot holds, and for a reused token the
session it names. -/
structure Sweep where
  userId : ℕ
  reason : String
  now : Time
  ids : List ℕ
  reused : Option ℕ

inductive Ending where
  | nothing
  | row (loaded : AuthSession) (now : Time) (reason : String)
  | live (sweep : Sweep)

structure Write where
  ending : Ending
  opening : Option Opening := none

inductive Answer where
  | opened (old : Option ℕ) (new : ℕ) (raw : String)
  | noContent
  | refused (e : Refusal)
  deriving DecidableEq

inductive Phase where
  | waiting
  | live (row : AuthSession)
  | reused (row : AuthSession)
  | device (row : AuthSession)
  | sweeping (sweep : Sweep)
  | written (w : Write)
  | done (a : Answer)

structure Request where
  call : Call
  phase : Phase := .waiting

/-- `raw` is the token that `secrets.token_urlsafe` gives a write that opens a session. -/
inductive Act where
  | read (now : Time)
  | sweep (now : Time)
  | write (now : Time) (raw : String)
  | commit
  | fail (e : Raised)

inductive Key where
  | row (id : ℕ)
  | token (hash : String)
  deriving DecidableEq

def noSession : Refusal := .unauthenticated "No refresh cookie was presented." "no_session"

def invalidToken : Refusal := .unauthenticated "Unknown refresh token." "invalid_token"

def tokenReuseDetected : Refusal :=
  .unauthenticated "This token was already used. All sessions were revoked." "token_reuse_detected"

def sessionExpired : Refusal := .unauthenticated "This session has expired." "session_expired"

def byToken (d : Sessions) (token : String) : Option AuthSession :=
  d.rows.find? (fun x => x.tokenHash = Sha256.ofText token)

def openSession (ttlDays : ℤ) (userId : ℕ) (device : Option String) (userAgent raw : String)
    (now : Time) : Opening where
  raw := raw
  row :=
    { id := 0, userId, tokenHash := Sha256.ofText raw
      deviceLabel := (device.map PyText.strip).filter (fun label => label ≠ "")
      userAgentHash := .ofList ((Sha256.ofText userAgent).toList.take 32)
      expiresAt := now + seconds (ttlDays * 86400) }

/-! ## What a transaction writes -/

def isLive (d : Sessions) (id : ℕ) : Bool := (d.get? id).any (fun x => x.revokedAt = none)

/-- A row as the commit leaves it. The UPDATE of the live sessions looks at `revoked_at` again. -/
def Ending.landRow (x : AuthSession) : Ending → AuthSession
  | .nothing => x
  | .row loaded now reason =>
    if x.id = loaded.id then
      { x with
        revokedAt := merged loaded.revokedAt (some now) x.revokedAt
        revokedReason := merged loaded.revokedReason (some reason) x.revokedReason }
    else x
  | .live w =>
    if x.id ∈ w.ids ∧ x.revokedAt = none then
      { x with revokedAt := some w.now, revokedReason := some w.reason }
    else x

@[simp] theorem Ending.landRow_id (e : Ending) (x : AuthSession) : (e.landRow x).id = x.id := by
  cases e with
  | nothing => rfl
  | row loaded now reason =>
    simp only [landRow]
    split <;> rfl
  | live w =>
    simp only [landRow]
    split <;> rfl

def Ending.land (e : Ending) (d : Sessions) : Sessions :=
  d.mapRows (fun x => e.landRow x) (fun x => e.landRow_id x)

def Write.land (w : Write) (d : Sessions) : Sessions :=
  match w.opening with
  | none => w.ending.land d
  | some o => (w.ending.land d).put { o.row with id := d.nextId }

def Write.answer (w : Write) (d : Sessions) : Answer :=
  match w.ending, w.opening with
  | .row loaded _ _, some o => .opened (some loaded.id) d.nextId o.raw
  | _, some o => .opened none d.nextId o.raw
  | .live sweep, none =>
    match sweep.reused with
    | some _ => .refused tokenReuseDetected
    | none => .noContent
  | _, none => .noContent

def Ending.keys : Ending → List Key
  | .nothing => []
  | .row loaded _ _ => [.row loaded.id]
  | .live w => w.ids.map .row

def Write.keys (w : Write) : List Key :=
  w.ending.keys ++ w.opening.toList.map (fun o => .token o.row.tokenHash)

/-! ## Requests -/

/-- A flush takes the locks of what it writes. A token that is there already is refused by the
index. -/
def flush (d : Sessions) (call : Call) (w : Write) : Move Sessions Key Request :=
  if d.rows.any (fun x => w.opening.any (fun o => o.row.tokenHash = x.tokenHash)) then
    .rollsBack ⟨call, .done (.refused (integrity "auth_sessions_token_uq"))⟩
  else .goes ⟨call, .written w⟩ w.keys

/-- The first statement of `refresh`, and the refusals that write nothing. -/
def refresh (d : Sessions) (cookie : Option String) (now : Time) : Phase :=
  match cookie.filter (fun token => token ≠ "") with
  | none => .done (.refused noSession)
  | some token =>
    match byToken d token with
    | none => .done (.refused invalidToken)
    | some row =>
      if row.revokedAt ≠ none then .reused row
      else if row.expiresAt < now then .done (.refused sessionExpired)
      else .live row

def forgetDevice (d : Sessions) (userId sessionId : ℕ) : Phase :=
  match (d.get? sessionId).filter (fun x => x.userId = userId) with
  | none => .done (.refused (notFound "Device not found."))
  | some row => .device row

def sweep (d : Sessions) (userId : ℕ) (reason : String) (now : Time) (reused : Option ℕ) : Sweep where
  userId := userId
  reason := reason
  now := now
  ids := (d.select (fun x => x.userId = userId ∧ x.revokedAt = none)).map AuthSession.id
  reused := reused

def next (ttlDays : ℤ) (d : Sessions) (q : Request) (act : Act) :
    Option (Move Sessions Key Request) :=
  match q.phase, q.call, act with
  | .waiting, .refresh cookie _, .read now => some (.goes ⟨q.call, refresh d cookie now⟩ [])
  | .waiting, .forgetDevice u id, .read _ => some (.goes ⟨q.call, forgetDevice d u id⟩ [])
  | .waiting, .endSessions u reason, .sweep now =>
    some (.goes ⟨q.call, .sweeping (sweep d u reason now none)⟩ [])
  | .waiting, .signIn u device agent, .write now raw =>
    some (flush d q.call ⟨.nothing, some (openSession ttlDays u device agent raw now)⟩)
  | .live row, .refresh _ agent, .write now raw =>
    some (flush d q.call ⟨.row row now "rotated",
      some (openSession ttlDays row.userId none agent raw now)⟩)
  | .reused row, .refresh _ _, .sweep now =>
    some (.goes ⟨q.call, .sweeping (sweep d row.userId "reuse_detected" now (some row.id))⟩ [])
  | .device row, .forgetDevice _ _, .write now _ =>
    some (flush d q.call ⟨.row row now "user_forgot_device", none⟩)
  | .sweeping w, _, .write _ _ =>
    some (flush d q.call ⟨.live { w with ids := w.ids.filter (isLive d) }, none⟩)
  | .written w, _, .commit => some (.commits (w.land d) ⟨q.call, .done (w.answer d)⟩)
  | .done _, _, _ => none
  | _, _, .fail e => some (.rollsBack ⟨q.call, .done (.refused (.raised e))⟩)
  | _, _, _ => none

def owned (q : Request) : List Key :=
  match q.phase with
  | .written w => w.keys
  | _ => []

theorem flush_cases {C : Move Sessions Key Request → Prop} {d : Sessions} {call : Call} {w : Write}
    (goes : C (.goes ⟨call, .written w⟩ w.keys))
    (refused : ∀ e, C (.rollsBack ⟨call, .done (.refused (.raised e))⟩)) :
    C (flush d call w) := by
  unfold flush
  split
  · exact refused _
  · exact goes

/-- What a statement can do, a flush that the index refuses being one of the refusals. -/
inductive Next (ttlDays : ℤ) (d : Sessions) (q : Request) : Act → Move Sessions Key Request → Prop
  where
  | refused (act : Act) (e : Raised) :
      Next ttlDays d q act (.rollsBack ⟨q.call, .done (.refused (.raised e))⟩)
  | presented (cookie : Option String) (agent : String) (now : Time) (phase : q.phase = .waiting)
      (call : q.call = .refresh cookie agent) :
      Next ttlDays d q (.read now) (.goes ⟨q.call, refresh d cookie now⟩ [])
  | device (u id : ℕ) (now : Time) (phase : q.phase = .waiting) (call : q.call = .forgetDevice u id) :
      Next ttlDays d q (.read now) (.goes ⟨q.call, forgetDevice d u id⟩ [])
  | ending (u : ℕ) (reason : String) (now : Time) (phase : q.phase = .waiting)
      (call : q.call = .endSessions u reason) :
      Next ttlDays d q (.sweep now) (.goes ⟨q.call, .sweeping (sweep d u reason now none)⟩ [])
  | reusing (row : AuthSession) (cookie : Option String) (agent : String) (now : Time)
      (phase : q.phase = .reused row) (call : q.call = .refresh cookie agent) :
      Next ttlDays d q (.sweep now)
        (.goes ⟨q.call, .sweeping (sweep d row.userId "reuse_detected" now (some row.id))⟩ [])
  | signing (u : ℕ) (label : Option String) (agent : String) (now : Time) (raw : String)
      (phase : q.phase = .waiting) (call : q.call = .signIn u label agent) (w : Write)
      (write : w = ⟨.nothing, some (openSession ttlDays u label agent raw now)⟩) :
      Next ttlDays d q (.write now raw) (.goes ⟨q.call, .written w⟩ w.keys)
  | exchanging (row : AuthSession) (cookie : Option String) (agent : String) (now : Time)
      (raw : String) (phase : q.phase = .live row) (call : q.call = .refresh cookie agent) (w : Write)
      (write : w = ⟨.row row now "rotated",
        some (openSession ttlDays row.userId none agent raw now)⟩) :
      Next ttlDays d q (.write now raw) (.goes ⟨q.call, .written w⟩ w.keys)
  | forgetting (row : AuthSession) (u id : ℕ) (now : Time) (raw : String)
      (phase : q.phase = .device row) (call : q.call = .forgetDevice u id) (w : Write)
      (write : w = ⟨.row row now "user_forgot_device", none⟩) :
      Next ttlDays d q (.write now raw) (.goes ⟨q.call, .written w⟩ w.keys)
  | swept (sweep : Sweep) (now : Time) (raw : String) (phase : q.phase = .sweeping sweep) (w : Write)
      (write : w = ⟨.live { sweep with ids := sweep.ids.filter (isLive d) }, none⟩) :
      Next ttlDays d q (.write now raw) (.goes ⟨q.call, .written w⟩ w.keys)
  | committed (w : Write) (phase : q.phase = .written w) :
      Next ttlDays d q .commit (.commits (w.land d) ⟨q.call, .done (w.answer d)⟩)

variable {ttlDays : ℤ} {d : Sessions} {q : Request} {act : Act} {m : Move Sessions Key Request}

theorem next_cases (h : next ttlDays d q act = some m) : Next ttlDays d q act m := by
  unfold next at h
  split at h
  · next hphase hcall =>
    cases h
    exact .presented _ _ _ hphase hcall
  · next hphase hcall =>
    cases h
    exact .device _ _ _ hphase hcall
  · next hphase hcall =>
    cases h
    exact .ending _ _ _ hphase hcall
  · next hphase hcall =>
    cases h
    exact flush_cases (.signing _ _ _ _ _ hphase hcall _ rfl) (.refused _)
  · next hphase hcall =>
    cases h
    exact flush_cases (.exchanging _ _ _ _ _ hphase hcall _ rfl) (.refused _)
  · next hphase hcall =>
    cases h
    exact .reusing _ _ _ _ hphase hcall
  · next hphase hcall =>
    cases h
    exact flush_cases (.forgetting _ _ _ _ _ hphase hcall _ rfl) (.refused _)
  · next hphase =>
    cases h
    exact flush_cases (.swept _ _ _ hphase _ rfl) (.refused _)
  · next hphase =>
    cases h
    exact .committed _ hphase
  · cases h
  · cases h
    exact .refused _ _
  · cases h

theorem owned_of_read (call : Call) (cookie : Option String) (now : Time) :
    owned ⟨call, refresh d cookie now⟩ = [] := by
  unfold owned refresh
  cases cookie.filter (fun token => token ≠ "") with
  | none => rfl
  | some token =>
    cases hrow : byToken d token with
    | none => simp [hrow]
    | some row =>
      by_cases hrevoked : row.revokedAt = none
      · by_cases hexpired : row.expiresAt < now <;> simp [hrow, hrevoked, hexpired]
      · simp [hrow, hrevoked]

theorem owned_of_device (call : Call) (u id : ℕ) : owned ⟨call, forgetDevice d u id⟩ = [] := by
  unfold owned forgetDevice
  cases (d.get? id).filter (fun x => x.userId = u) <;> rfl

def program (ttlDays : ℤ) : Program Sessions Key Request Act where
  next := next ttlDays
  owned := owned
  owned_goes := by
    intro d p i p' keys h k hk
    cases next_cases h with
    | presented => simp [owned_of_read] at hk
    | device => simp [owned_of_device] at hk
    | ending => simp [owned] at hk
    | reusing => simp [owned] at hk
    | signing => exact .inr hk
    | exchanging => exact .inr hk
    | forgetting => exact .inr hk
    | swept => exact .inr hk
  owned_commits := by
    intro d p i d' p' h
    cases next_cases h
    rfl
  owned_rollsBack := by
    intro d p i p' h
    cases next_cases h
    rfl

/-! ## The table after a commit -/

def Live (d : Sessions) (id : ℕ) : Prop := ∃ x ∈ d.rows, x.id = id ∧ x.revokedAt = none

def Ended (d : Sessions) (id : ℕ) : Prop := ∃ x ∈ d.rows, x.id = id ∧ x.revokedAt ≠ none

theorem isLive_iff {id : ℕ} : isLive d id = true ↔ Live d id := by
  unfold isLive Live
  rw [Option.any_eq_true]
  constructor
  · rintro ⟨x, hx, hlive⟩
    obtain ⟨hx, hid⟩ := Table.get?_eq_some.1 hx
    exact ⟨x, hx, hid, by simpa using hlive⟩
  · rintro ⟨x, hx, hid, hlive⟩
    exact ⟨x, Table.get?_eq_some.2 ⟨hx, hid⟩, by simpa using hlive⟩

theorem eq_of_id {x y : AuthSession} (hx : x ∈ d.rows) (hy : y ∈ d.rows) (h : x.id = y.id) :
    x = y :=
  List.inj_on_of_nodup_map d.nodup hx hy h

theorem Ended.not_live {id : ℕ} (h : Ended d id) : ¬ Live d id := by
  rintro ⟨y, hy, hyid, hlive⟩
  obtain ⟨x, hx, hxid, hended⟩ := h
  rw [eq_of_id hx hy (hxid.trans hyid.symm)] at hended
  exact hended hlive

theorem landRow_eq (e : Ending) (x : AuthSession) : ∃ revokedAt revokedReason,
    e.landRow x = { x with revokedAt, revokedReason } ∧
      (x.revokedAt ≠ none → revokedAt ≠ none) ∧
      (x.revokedAt = none → revokedAt ≠ none → .row x.id ∈ e.keys) := by
  cases e with
  | nothing => exact ⟨_, _, rfl, id, fun h h' => absurd h h'⟩
  | row loaded now reason =>
    simp only [Ending.landRow]
    split
    · next hid =>
      refine ⟨_, _, rfl, ?_, fun _ _ => by simp [Ending.keys, hid]⟩
      intro h
      unfold merged
      split
      · exact h
      · simp
    · exact ⟨_, _, rfl, id, fun h h' => absurd h h'⟩
  | live w =>
    simp only [Ending.landRow]
    split
    · next hid => exact ⟨_, _, rfl, by simp, fun _ _ => by simpa [Ending.keys] using hid.1⟩
    · exact ⟨_, _, rfl, id, fun h h' => absurd h h'⟩

@[simp] theorem landRow_tokenHash (e : Ending) (x : AuthSession) :
    (e.landRow x).tokenHash = x.tokenHash := by
  obtain ⟨_, _, h, _⟩ := landRow_eq e x
  rw [h]

@[simp] theorem landRow_userId (e : Ending) (x : AuthSession) :
    (e.landRow x).userId = x.userId := by
  obtain ⟨_, _, h, _⟩ := landRow_eq e x
  rw [h]

theorem rows_land (w : Write) (d : Sessions) :
    (w.land d).rows = d.rows.map w.ending.landRow ++
      w.opening.toList.map (fun o => { o.row with id := d.nextId }) := by
  unfold Write.land
  cases w.opening with
  | none => simp [Ending.land, Table.mapRows]
  | some o =>
    dsimp only
    rw [Table.rows_put_of_get?_eq_none]
    · rfl
    · unfold Ending.land
      rw [Table.get?_mapRows, Table.get?_nextId]
      rfl

theorem mem_land {w : Write} {y : AuthSession} : y ∈ (w.land d).rows ↔
    (∃ x ∈ d.rows, w.ending.landRow x = y) ∨
      ∃ o, w.opening = some o ∧ { o.row with id := d.nextId } = y := by
  rw [rows_land, List.mem_append, List.mem_map, List.mem_map]
  simp only [Option.mem_toList]

theorem answer_of_opening {w : Write} {o : Opening} (h : w.opening = some o) :
    ∃ old, w.answer d = .opened old d.nextId o.raw := by
  unfold Write.answer
  rw [h]
  cases w.ending with
  | nothing => exact ⟨none, rfl⟩
  | row loaded _ _ => exact ⟨some loaded.id, rfl⟩
  | live _ => exact ⟨none, rfl⟩

theorem live_land {w : Write} {id : ℕ} (hid : .row id ∉ w.keys) (h : Live d id) :
    Live (w.land d) id := by
  obtain ⟨x, hx, rfl, hlive⟩ := h
  obtain ⟨revokedAt, _, heq, _, hkeys⟩ := landRow_eq w.ending x
  refine ⟨w.ending.landRow x, mem_land.2 (.inl ⟨x, hx, rfl⟩), by simp, ?_⟩
  rw [heq]
  by_contra hended
  exact hid (List.mem_append_left _ (hkeys hlive hended))

theorem ended_land {w : Write} {id : ℕ} (h : Ended d id) : Ended (w.land d) id := by
  obtain ⟨x, hx, rfl, hended⟩ := h
  obtain ⟨_, _, heq, hkeep, _⟩ := landRow_eq w.ending x
  exact ⟨w.ending.landRow x, mem_land.2 (.inl ⟨x, hx, rfl⟩), by simp, by rw [heq]; exact hkeep hended⟩

theorem byToken_land {w : Write} {token : String} {x : AuthSession} (h : byToken d token = some x) :
    byToken (w.land d) token = some (w.ending.landRow x) := by
  unfold byToken at h ⊢
  rw [rows_land, List.find?_append, List.find?_map]
  simp only [Function.comp_def, landRow_tokenHash, h]
  rfl

theorem kept_live (ttlDays : ℤ) : Kept (program ttlDays)
    (fun d k => ∀ id, k = .row id → Live d id) := by
  intro d p i d' p' k hnext hk hd id hid
  cases next_cases hnext with
  | committed w hphase =>
    refine live_land ?_ (hd id hid)
    simpa [program, owned, hphase, hid] using hk

abbrev Sys := ReadCommitted.Sys Sessions Key Request

def start (calls : ℕ → Call) : Sys where
  store := Table.empty
  requests r := ⟨calls r, .waiting⟩

end IeltsHub.AuthSessions
