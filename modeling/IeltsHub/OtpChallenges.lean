import IeltsHub.AuthSessions
import IeltsHub.OrgRoster

set_option autoImplicit false

/-!
# One-time codes

`otp_verify` and `invite_redeem` of `app/api/routers/auth.py`, a statement at a time. Both prove a
phone by `_consume_challenge`: an attempt is charged and committed, the code is compared, and the
challenge is claimed by an UPDATE that is committed with the rest of the request.
-/
namespace IeltsHub.OtpChallenges
open PyTime PlatformRefusals RowTable ReadCommitted AuthSessions OrgRoster
open PlatformErrors (Raised)

structure Challenge where
  id : ℕ
  xid : ℕ
  phone : String
  codeHash : String
  expiresAt : Time
  attempts : ℕ := 0
  maxAttempts : ℕ := 5
  consumedAt : Option Time := none
  deriving DecidableEq

structure Database where
  challenges : Table Challenge ℕ Challenge.id := .empty
  roster : Roster := {}
  sessions : Sessions := .empty

/-! ## `CAST(text AS uuid)` -/

def hexValue (c : Char) : Option ℕ :=
  if '0' ≤ c ∧ c ≤ '9' then some (c.toNat - 48)
  else if 'a' ≤ c ∧ c ≤ 'f' then some (c.toNat - 87)
  else if 'A' ≤ c ∧ c ≤ 'F' then some (c.toNat - 55)
  else none

def uuidGroups : ℕ → ℕ → List Char → Option (ℕ × List Char)
  | 0, n, cs => some (n, cs)
  | groups + 1, n, a :: b :: c :: d :: cs => do
    let a ← hexValue a
    let b ← hexValue b
    let c ← hexValue c
    let d ← hexValue d
    let rest := if groups ≠ 0 ∧ cs.head? = some '-' then cs.drop 1 else cs
    uuidGroups groups (n * 65536 + a * 4096 + b * 256 + c * 16 + d) rest
  | _ + 1, _, _ => none

def castUuid (text : String) : Option ℕ :=
  match text.toList with
  | '{' :: cs => (uuidGroups 8 0 cs).bind (fun p => if p.2 = ['}'] then some p.1 else none)
  | cs => (uuidGroups 8 0 cs).bind (fun p => if p.2 = [] then some p.1 else none)

/-! ## Requests -/

inductive Call where
  | otpVerify (challengeXid code : String) (device : Option String) (userAgent : String)
  | inviteRedeem (token challengeXid code : String) (dateOfBirth : Option ℤ)
      (givenName : Option String) (locale userAgent : String)

def Call.challengeXid : Call → String
  | otpVerify xid _ _ _ | inviteRedeem _ xid _ _ _ _ _ => xid

def Call.code : Call → String
  | otpVerify _ code _ _ | inviteRedeem _ _ code _ _ _ _ => code

inductive Answer where
  | opened (sessionId : ℕ) (raw : String)
  | refused (e : Refusal)
  deriving DecidableEq

/-- What the comparison of a code found, and when. -/
structure Verdict where
  now : Time
  correct : Bool

/-- How far a request has come. From `claiming` on it holds the row of its challenge. -/
inductive Phase where
  | waiting
  | invited
  | charging (row : Challenge)
  | charged
  | correct
  | claimed (now : Time)
  | proven (now : Time) (account : Option User)
  | done (a : Answer)

/-- `charged` is the row as the committed charge returned it. -/
structure Request where
  call : Call
  phase : Phase := .waiting
  invite : Option OrgInvite := none
  charged : Option Challenge := none
  verdict : Option Verdict := none

/-- `xid` is the public id of an account that is new, and `raw` the token of the cookie. -/
inductive Act where
  | read (now : Time)
  | charge
  | settle
  | check (now : Time)
  | claim (now : Time)
  | identify (now : Time)
  | finish (now : Time) (raw xid : String)
  | fail (e : Raised)

def invalidCode : Refusal := .unauthenticated "That code is not valid." "invalid_code"

def codeExpired : Refusal := .gone "That code has expired. Request a new one." "expired"

def tooManyAttempts : Refusal := .gone "Too many incorrect attempts. Request a new code." "expired"

def noAccount : Refusal := notFound "No account exists for this number."

def dateOfBirthRequired : Refusal :=
  .forbidden "A date of birth is required to register." "date_of_birth_required"

def codeHash (challengeXid code : String) : String := Sha256.ofText (challengeXid ++ ":" ++ code)

abbrev Moves := Move Database ℕ Request

def Request.refuse (q : Request) (e : Refusal) : Moves :=
  .rollsBack { q with phase := .done (.refused e) }

/-- The UPDATE of the attempts. It waits for the row and looks at `consumed_at` again. -/
def charge (d : Database) (q : Request) : Moves :=
  match castUuid q.call.challengeXid with
  | none => q.refuse (integrity "invalid input syntax for type uuid")
  | some xid =>
    match d.challenges.rows.find? (fun c => c.xid = xid ∧ c.consumedAt = none) with
    | none => .goes { q with phase := .charged } []
    | some c => .goes { q with phase := .charging { c with attempts := c.attempts + 1 } } [c.id]

def charges (row : Challenge) (d : Database) : Database :=
  { d with
    challenges := d.challenges.mapRows
      (fun c => if c.id = row.id then { c with attempts := row.attempts } else c)
      (fun c => by split <;> rfl) }

def check (q : Request) (now : Time) : Moves :=
  match q.charged with
  | none => q.refuse invalidCode
  | some row =>
    if row.expiresAt < now then q.refuse codeExpired
    else if row.maxAttempts < row.attempts then q.refuse tooManyAttempts
    else if row.codeHash ≠ codeHash q.call.challengeXid q.call.code then
      { q with verdict := some ⟨now, false⟩ }.refuse invalidCode
    else .goes { q with verdict := some ⟨now, true⟩, phase := .correct } []

/-- The UPDATE of `consumed_at`, over the row where it is still null. -/
def claim (d : Database) (q : Request) (now : Time) : Moves :=
  match q.charged with
  | none => q.refuse invalidCode
  | some row =>
    match (d.challenges.get? row.id).filter (fun c => c.consumedAt = none) with
    | none => q.refuse invalidCode
    | some c => .goes { q with phase := .claimed now } [c.id]

def consumes (id : ℕ) (now : Time) (d : Database) : Database :=
  { d with
    challenges := d.challenges.mapRows
      (fun c => if c.id = id then { c with consumedAt := some now } else c)
      (fun c => by split <;> rfl) }

def identify (d : Database) (q : Request) (row : Challenge) (now : Time) :
    Except Refusal (Option User) :=
  match q.call with
  | .otpVerify .. =>
    match accountOf d.roster row.phone with
    | none => .error noAccount
    | some user => .ok (some user)
  | .inviteRedeem _ _ _ dateOfBirth _ _ _ =>
    match checkInvite q.invite row.phone now with
    | .error e => .error e
    | .ok _ =>
      match accountOf d.roster row.phone, dateOfBirth with
      | none, none => .error dateOfBirthRequired
      | account, _ => .ok account

def account (d : Database) (q : Request) (row : Challenge) (loaded : Option User) (now : Time)
    (xid : String) : User × List Change :=
  match loaded with
  | some user => (user, if user.phoneVerifiedAt = none then [.verifies user now] else [])
  | none =>
    let registered : User :=
      match q.call with
      | .otpVerify .. => { id := d.roster.users.nextId, xid, phone := row.phone, dateOfBirth := 0 }
      | .inviteRedeem _ _ _ dateOfBirth givenName locale _ =>
        { id := d.roster.users.nextId, xid, phone := row.phone, givenName := givenName.getD ""
          dateOfBirth := dateOfBirth.getD 0, locale, phoneVerifiedAt := some now }
    (registered, [.registers registered])

def redeems (d : Roster) (invite : Option OrgInvite) (userId : ℕ) (now : Time) : List Change :=
  match invite with
  | none => []
  | some row =>
    let cohort := invitedCohort d row
    redeemInvite row userId (membershipOf d row.orgId userId) cohort
      (cohort.bind (fun c => memberOf d c.id userId)) now

def Call.opening (ttlDays : ℤ) (userId : ℕ) (raw : String) (now : Time) : Call → Opening
  | otpVerify _ _ device agent => openSession ttlDays userId device agent raw now
  | inviteRedeem _ _ _ _ _ _ agent => openSession ttlDays userId none agent raw now

/-- The rest of the request with its commit. The indexes refuse an open account with a phone that
another one has, and a session with a token that another one has. -/
def finish (ttlDays : ℤ) (d : Database) (q : Request) (row : Challenge) (claimedAt : Time)
    (loaded : Option User) (now : Time) (raw xid : String) : Moves :=
  let (user, changes) := account d q row loaded now xid
  let opening := q.call.opening ttlDays user.id raw now
  if loaded = none ∧ accountOf d.roster row.phone ≠ none then q.refuse (integrity "users_phone_uq")
  else if d.sessions.rows.any (fun x => x.tokenHash = opening.row.tokenHash) then
    q.refuse (integrity "auth_sessions_token_uq")
  else
    .commits
      { consumes row.id claimedAt d with
        roster := landAll d.roster (changes ++ redeems d.roster q.invite user.id now)
        sessions := d.sessions.put { opening.row with id := d.sessions.nextId } }
      { q with phase := .done (.opened d.sessions.nextId raw) }

def next (ttlDays : ℤ) (d : Database) (q : Request) (act : Act) : Option Moves :=
  match q.phase, q.call, act with
  | .waiting, .otpVerify .., .charge => some (charge d q)
  | .waiting, .inviteRedeem token .., .read now =>
    match inviteFor d.roster token now with
    | .error e => some (q.refuse e)
    | .ok row => some (.goes { q with phase := .invited, invite := some row } [])
  | .invited, _, .charge => some (charge d q)
  | .charging row, _, .settle =>
    some (.commits (charges row d) { q with phase := .charged, charged := some row })
  | .charged, _, .check now => some (check q now)
  | .correct, _, .claim now => some (claim d q now)
  | .claimed claimedAt, _, .identify now =>
    q.charged.map (fun row =>
      match identify d q row now with
      | .error e => q.refuse e
      | .ok account => .goes { q with phase := .proven claimedAt account } [])
  | .proven claimedAt account, _, .finish now raw xid =>
    q.charged.map (fun row => finish ttlDays d q row claimedAt account now raw xid)
  | .done _, _, _ => none
  | _, _, .fail e => some (q.refuse (.raised e))
  | _, _, _ => none

def owned (q : Request) : List ℕ :=
  match q.phase with
  | .charging row => [row.id]
  | .claimed _ | .proven _ _ => (q.charged.map Challenge.id).toList
  | _ => []

/-! ## What a statement can do -/

inductive Next (ttlDays : ℤ) (d : Database) (q : Request) : Act → Moves → Prop where
  | refused (act : Act) (e : Refusal) : Next ttlDays d q act (q.refuse e)
  | invited (token xid code : String) (born : Option ℤ) (name : Option String)
      (locale agent : String) (now : Time) (row : OrgInvite) (phase : q.phase = .waiting)
      (call : q.call = .inviteRedeem token xid code born name locale agent)
      (invite : inviteFor d.roster token now = .ok row) :
      Next ttlDays d q (.read now) (.goes { q with phase := .invited, invite := some row } [])
  | unmatched (phase : q.phase = .waiting ∨ q.phase = .invited) :
      Next ttlDays d q .charge (.goes { q with phase := .charged } [])
  | charging (c : Challenge) (phase : q.phase = .waiting ∨ q.phase = .invited)
      (mem : c ∈ d.challenges.rows) (open_ : c.consumedAt = none)
      (xid : castUuid q.call.challengeXid = some c.xid) :
      Next ttlDays d q .charge
        (.goes { q with phase := .charging { c with attempts := c.attempts + 1 } } [c.id])
  | settled (row : Challenge) (phase : q.phase = .charging row) :
      Next ttlDays d q .settle
        (.commits (charges row d) { q with phase := .charged, charged := some row })
  | wrong (row : Challenge) (now : Time) (phase : q.phase = .charged) (charged : q.charged = some row)
      (early : ¬ row.expiresAt < now) (few : row.attempts ≤ row.maxAttempts)
      (differs : row.codeHash ≠ codeHash q.call.challengeXid q.call.code) :
      Next ttlDays d q (.check now) ({ q with verdict := some ⟨now, false⟩ }.refuse invalidCode)
  | right (row : Challenge) (now : Time) (phase : q.phase = .charged) (charged : q.charged = some row)
      (early : ¬ row.expiresAt < now) (few : row.attempts ≤ row.maxAttempts)
      (same : row.codeHash = codeHash q.call.challengeXid q.call.code) :
      Next ttlDays d q (.check now)
        (.goes { q with verdict := some ⟨now, true⟩, phase := .correct } [])
  | claimed (row c : Challenge) (now : Time) (phase : q.phase = .correct)
      (charged : q.charged = some row) (stored : d.challenges.get? row.id = some c)
      (open_ : c.consumedAt = none) :
      Next ttlDays d q (.claim now) (.goes { q with phase := .claimed now } [row.id])
  | identified (row : Challenge) (claimedAt now : Time) (account : Option User)
      (phase : q.phase = .claimed claimedAt) (charged : q.charged = some row)
      (found : identify d q row now = .ok account) :
      Next ttlDays d q (.identify now) (.goes { q with phase := .proven claimedAt account } [])
  | opened (row : Challenge) (claimedAt now : Time) (account : Option User) (raw xid : String)
      (roster : Roster) (sessions : Sessions) (id : ℕ) (phase : q.phase = .proven claimedAt account)
      (charged : q.charged = some row) :
      Next ttlDays d q (.finish now raw xid)
        (.commits { consumes row.id claimedAt d with roster, sessions }
          { q with phase := .done (.opened id raw) })

variable {ttlDays : ℤ} {d : Database} {q : Request} {act : Act} {m : Moves}

theorem next_charge (hphase : q.phase = .waiting ∨ q.phase = .invited) :
    Next ttlDays d q .charge (charge d q) := by
  unfold charge
  split
  · exact .refused _ _
  · next xid hxid =>
    split
    · exact .unmatched hphase
    · next c hc =>
      have hmem := List.mem_of_find?_eq_some hc
      have hp := List.find?_some hc
      simp only [decide_eq_true_eq] at hp
      exact .charging c hphase hmem hp.2 (by rw [hxid, hp.1])

theorem next_check (now : Time) (hphase : q.phase = .charged) :
    Next ttlDays d q (.check now) (check q now) := by
  unfold check
  split
  · exact .refused _ _
  · next row hrow =>
    split
    · exact .refused _ _
    · next hearly =>
      split
      · exact .refused _ _
      · next hfew =>
        split
        · next hdiffers => exact .wrong row now hphase hrow hearly (Nat.le_of_not_lt hfew) hdiffers
        · next hsame =>
          exact .right row now hphase hrow hearly (Nat.le_of_not_lt hfew) (not_not.1 hsame)

theorem next_claim (now : Time) (hphase : q.phase = .correct) :
    Next ttlDays d q (.claim now) (claim d q now) := by
  unfold claim
  split
  · exact .refused _ _
  · next row hrow =>
    split
    · exact .refused _ _
    · next c hc =>
      obtain ⟨hstored, hopen⟩ := Option.filter_eq_some_iff.1 hc
      rw [Table.get?_key hstored]
      exact .claimed row c now hphase hrow hstored (by simpa using hopen)

theorem next_finish (row : Challenge) (claimedAt now : Time) (loaded : Option User)
    (raw xid : String) (hphase : q.phase = .proven claimedAt loaded) (hrow : q.charged = some row) :
    Next ttlDays d q (.finish now raw xid)
      (finish ttlDays d q row claimedAt loaded now raw xid) := by
  unfold finish
  dsimp only
  split
  · exact .refused _ _
  · split
    · exact .refused _ _
    · exact .opened row claimedAt now loaded raw xid _ _ _ hphase hrow

theorem next_cases (h : next ttlDays d q act = some m) : Next ttlDays d q act m := by
  unfold next at h
  split at h
  · next hphase _ =>
    cases h
    exact next_charge (.inl hphase)
  · next hphase hcall =>
    split at h
    · cases h
      exact .refused _ _
    · next row hrow =>
      cases h
      exact .invited _ _ _ _ _ _ _ _ row hphase hcall hrow
  · next hphase =>
    cases h
    exact next_charge (.inr hphase)
  · next hphase =>
    cases h
    exact .settled _ hphase
  · next hphase =>
    cases h
    exact next_check _ hphase
  · next hphase =>
    cases h
    exact next_claim _ hphase
  · next hphase =>
    obtain ⟨row, hrow, h⟩ := Option.map_eq_some_iff.1 h
    subst h
    split
    · exact .refused _ _
    · next account hfound => exact .identified row _ _ account hphase hrow hfound
  · next hphase =>
    obtain ⟨row, hrow, h⟩ := Option.map_eq_some_iff.1 h
    subst h
    exact next_finish row _ _ _ _ _ hphase hrow
  · cases h
  · cases h
    exact .refused _ _
  · cases h

def program (ttlDays : ℤ) : Program Database ℕ Request Act where
  next := next ttlDays
  owned := owned
  owned_goes := by
    intro d p i p' keys h k hk
    cases next_cases h with
    | invited => simp [owned] at hk
    | unmatched => simp [owned] at hk
    | charging => exact .inr hk
    | right => simp [owned] at hk
    | claimed row c now hphase hcharged => exact .inr (by simpa [owned, hcharged] using hk)
    | identified row claimedAt now account hphase hcharged =>
      exact .inl (by simpa [owned, hphase, hcharged] using hk)
  owned_commits := by
    intro d p i d' p' h
    cases next_cases h <;> rfl
  owned_rollsBack := by
    intro d p i p' h
    cases next_cases h <;> rfl

abbrev Sys := ReadCommitted.Sys Database ℕ Request

def start (d : Database) (calls : ℕ → Call) : Sys :=
  { store := d, requests := fun r => { call := calls r } }

end IeltsHub.OtpChallenges
