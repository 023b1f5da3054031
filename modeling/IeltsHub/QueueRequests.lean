import IeltsHub.ReadCommitted
import IeltsHub.SpeakingService

set_option autoImplicit false

/-!
# The live queue, one statement after another

`join_queue`, `leave_queue` and `match_queue`, each a transaction beside the others. An UPDATE finds
its rows first, then comes to one after another, takes its lock and looks again whether it is still
one of them. `SKIP LOCKED` takes some of the rows that nobody holds. The locks on accounts, which
only keep transactions apart, are left out, and an entry is given its id at the commit.
-/
namespace IeltsHub.QueueRequests
open PyTime PlatformRefusals SpeakingMatching SpeakingPools SpeakingService ReadCommitted
open PlatformErrors (Raised)

/-- `other` is whatever else happens, a transaction at a time: it leaves the tables as they are
given, and the queue as it is. -/
inductive Call where
  | join (userId : ℕ) (body : QueueJoin)
  | leave (userId : ℕ)
  | matchQueue
  | other (tables : Pools)

structure Joined where
  entry : QueueEntry
  estimatedWaitSeconds : ℕ
  poolSize : ℕ
  suggestedSlot : Option Slot

inductive Answer where
  | joined (j : Joined)
  | noContent
  | matched (pairs : List Pair)
  | refused (e : Refusal)
  | failed (e : MatchError)
  | crashed (e : Raised)

def entryKey (q : QueueEntry) : ℕ × ℕ := (q.id, q.userId)

/-- How far a request has come. `todo` are the entries its UPDATE has not come to yet; the lists
beside it are those that it holds. -/
inductive Phase where
  | waiting
  | entered (a : Actor) (now : Time)
  | cancelling (a : Actor) (now : Time) (todo cancelled : List (ℕ × ℕ))
  | left (userId : ℕ) (now : Time) (cancelled : List (ℕ × ℕ))
  | inserted (a : Actor) (now : Time) (cancelled : List (ℕ × ℕ)) (entry : QueueEntry)
  | counted (a : Actor) (now : Time) (cancelled : List (ℕ × ℕ)) (entry : QueueEntry) (pool : ℕ)
  | queued (now : Time) (cancelled : List (ℕ × ℕ)) (j : Joined)
  | expiring (now : Time) (todo expired : List (ℕ × ℕ))
  | loading (now : Time) (expired : List (ℕ × ℕ)) (rows : List QueueEntry)
      (rest : List (QueueEntry × Account)) (read : List Candidate)
  | closing (now : Time) (expired : List (ℕ × ℕ)) (rows : List QueueEntry) (pairs : List Pair)
  | done (a : Answer)

structure Request where
  call : Call
  phase : Phase := .waiting

inductive Act where
  | enter (now : Time)
  | find
  | row
  | finish
  | insert
  | pool
  | suggest
  | select (ids : List ℕ)
  | candidate
  | pair
  | commit
  | fail (e : Raised)

/-! ## The statements -/

def waitingOf (d : Pools) (userId : ℕ) : List QueueEntry :=
  d.queue.select (fun q => q.userId = userId ∧ q.status = .waiting)

def waits (d : Pools) (key : ℕ × ℕ) : Bool :=
  (d.queue.get? key.1).any (fun q => q.userId = key.2 ∧ q.status = .waiting)

def isOverdue (now : Time) (q : QueueEntry) : Bool :=
  q.status = .waiting ∧ q.joinedAt < now - queueTtl

def overdue (d : Pools) (now : Time) (key : ℕ × ℕ) : Bool :=
  (d.queue.get? key.1).any (fun q => q.userId = key.2 ∧ isOverdue now q)

def enter (d : Pools) (userId : ℕ) (orgOnly : Bool) (now : Time) : Except Refusal Phase :=
  match principal d userId now with
  | .error e => .error e
  | .ok a => if orgOnly ∧ a.orgIds = [] then .error noOrganization else .ok (.entered a now)

def entryOf (a : Actor) (body : QueueJoin) (now : Time) : QueueEntry where
  id := 0
  userId := a.userId
  joinedAt := now
  bandMin := body.bandMin
  bandMax := body.bandMax
  language := body.language
  ageBand := ageBand a
  orgOnly := body.orgOnly
  orgId := a.orgIds.head?

def poolSize (d : Pools) (a : Actor) (entry : QueueEntry) : ℕ :=
  (d.queue.select (fun q => q.status = .waiting ∧ q.ageBand = ageBand a ∧
    q.language = entry.language ∧ q.userId ≠ a.userId)).length

def suggestedSlot (d : Pools) (a : Actor) (now : Time) : Option Slot :=
  ((d.slots.select (fun s => s.ageBand ∈ permittedBands a ∧ now < s.startsAt ∧
    (s.status = .scheduled ∨ s.status = .booking) ∧ s.audience = .public_)).insertionSort
      (fun s s' => s.startsAt ≤ s'.startsAt)).head?

def joinedAnswer (d : Pools) (a : Actor) (now : Time) (entry : QueueEntry) (pool : ℕ) : Joined where
  entry
  estimatedWaitSeconds := if pool = 0 then 900 else 60
  poolSize := pool
  suggestedSlot := suggestedSlot d a now

/-- What `FOR UPDATE SKIP LOCKED` takes: of the entries with an account, those of `ids`. -/
def taken (d : Pools) (expired : List (ℕ × ℕ)) (ids : List ℕ) : List (QueueEntry × Account) :=
  joined d QueueEntry.userId
    ((waiting d).filter (fun q => entryKey q ∉ expired ∧ q.id ∈ ids))

def landCancelled (d : Pools) (keys : List (ℕ × ℕ)) (now : Time) : Pools :=
  { d with
    queue := d.queue.mapRows
      (fun q =>
        if entryKey q ∈ keys then { q with status := .cancelled, leftAt := some now } else q)
      (fun q => by split <;> rfl) }

def landJoined (d : Pools) (keys : List (ℕ × ℕ)) (now : Time) (entry : QueueEntry) : Pools :=
  { landCancelled d keys now with
    queue := (landCancelled d keys now).queue.put { entry with id := d.queue.nextId } }

def landExpired (d : Pools) (keys : List (ℕ × ℕ)) (now : Time) : Pools :=
  { d with
    queue := d.queue.mapRows
      (fun q => if entryKey q ∈ keys then { q with status := .expired, leftAt := some now } else q)
      (fun q => by split <;> rfl) }

def landMatched (d : Pools) (now : Time) (expired : List (ℕ × ℕ)) (rows : List QueueEntry)
    (pairs : List Pair) : Except MatchError Pools :=
  pairs.foldlM (fun d pair => do
    let (d, pairId) ← createPair d pair .liveQueue none now
    return seatEntries d rows pair pairId now) (landExpired d expired now)

def landOther (d tables : Pools) : Pools := { tables with queue := d.queue }

abbrev Moved := Move Pools (ℕ × ℕ) Request

def readTo (q : Request) (p : Phase) : Moved := .goes { q with phase := p } []

def enterTo (q : Request) : Except Refusal Phase → Moved
  | .ok p => readTo q p
  | .error e => .rollsBack { q with phase := .done (.refused e) }

def rowTo (q : Request) (still : Bool) (key : ℕ × ℕ) (mine other : Phase) : Moved :=
  if still then .goes { q with phase := mine } [key] else readTo q other

def selectTo (d : Pools) (q : Request) (now : Time) (expired : List (ℕ × ℕ)) (ids : List ℕ) :
    Moved :=
  let rows := taken d expired ids
  .goes { q with phase :=
    if rows.length < 2 then .closing now expired (rows.map Prod.fst) []
    else .loading now expired (rows.map Prod.fst) rows [] } (rows.map (fun r => entryKey r.1))

def pairTo (q : Request) (now : Time) (expired : List (ℕ × ℕ)) (rows : List QueueEntry)
    (read : List Candidate) : Moved :=
  match matched read with
  | .error e => .rollsBack { q with phase := .done (.failed e) }
  | .ok outcome => readTo q (.closing now expired rows outcome.pairs)

def commitMatched (d : Pools) (q : Request) (now : Time) (expired : List (ℕ × ℕ))
    (rows : List QueueEntry) (pairs : List Pair) : Moved :=
  match landMatched d now expired rows pairs with
  | .error e => .rollsBack { q with phase := .done (.failed e) }
  | .ok d' => .commits d' { q with phase := .done (.matched pairs) }

def next (d : Pools) (q : Request) (act : Act) : Option Moved :=
  match q.phase, q.call, act with
  | .waiting, .join u body, .enter now => some (enterTo q (enter d u body.orgOnly now))
  | .waiting, .leave u, .enter now => some (enterTo q (enter d u false now))
  | .entered a now, _, .find =>
    some (readTo q (.cancelling a now ((waitingOf d a.userId).map entryKey) []))
  | .cancelling a now (key :: todo) cancelled, _, .row =>
    some (rowTo q (key.2 = a.userId ∧ waits d key) key (.cancelling a now todo (cancelled ++ [key]))
      (.cancelling a now todo cancelled))
  | .cancelling a now [] cancelled, .leave _, .finish =>
    some (readTo q (.left a.userId now cancelled))
  | .left _ now cancelled, _, .commit =>
    some (.commits (landCancelled d cancelled now) { q with phase := .done .noContent })
  | .cancelling a now [] cancelled, .join _ body, .insert =>
    some (readTo q (.inserted a now cancelled (entryOf a body now)))
  | .inserted a now cancelled entry, _, .pool =>
    some (readTo q (.counted a now cancelled entry (poolSize d a entry)))
  | .counted a now cancelled entry pool, _, .suggest =>
    some (readTo q (.queued now cancelled (joinedAnswer d a now entry pool)))
  | .queued now cancelled j, _, .commit =>
    some (.commits (landJoined d cancelled now j.entry) { q with phase := .done (.joined j) })
  | .waiting, .matchQueue, .enter now =>
    some (readTo q (.expiring now ((d.queue.select (isOverdue now)).map entryKey) []))
  | .expiring now (key :: todo) expired, _, .row =>
    some (rowTo q (overdue d now key) key (.expiring now todo (expired ++ [key]))
      (.expiring now todo expired))
  | .expiring now [] expired, _, .select ids => some (selectTo d q now expired ids)
  | .loading now expired rows (row :: rest) read, _, .candidate =>
    some (readTo q (.loading now expired rows rest (read ++ [queueCandidate d now row])))
  | .loading now expired rows [] read, _, .pair => some (pairTo q now expired rows read)
  | .closing now expired rows pairs, _, .commit =>
    some (commitMatched d q now expired rows pairs)
  | .waiting, .other tables, .commit =>
    some (.commits (landOther d tables) { q with phase := .done .noContent })
  | .done _, _, _ => none
  | _, _, .fail e => some (.rollsBack { q with phase := .done (.crashed e) })
  | _, _, _ => none

def owned : Phase → List (ℕ × ℕ)
  | .cancelling _ _ _ cancelled | .left _ _ cancelled | .inserted _ _ cancelled _
  | .counted _ _ cancelled _ _ | .queued _ cancelled _ => cancelled
  | .expiring _ _ expired => expired
  | .loading _ expired rows _ _ | .closing _ expired rows _ => expired ++ rows.map entryKey
  | _ => []

/-! ## What a statement can do -/

/-- The statements that take no lock. -/
inductive Reads (d : Pools) : Phase → Phase → Prop where
  | entered (a : Actor) (now : Time) : Reads d .waiting (.entered a now)
  | found (a : Actor) (now : Time) (todo : List (ℕ × ℕ)) :
      Reads d (.entered a now) (.cancelling a now todo [])
  | passed (a : Actor) (now : Time) (key : ℕ × ℕ) (todo cancelled : List (ℕ × ℕ)) :
      Reads d (.cancelling a now (key :: todo) cancelled) (.cancelling a now todo cancelled)
  | left (a : Actor) (now : Time) (cancelled : List (ℕ × ℕ)) :
      Reads d (.cancelling a now [] cancelled) (.left a.userId now cancelled)
  | inserted (a : Actor) (now : Time) (cancelled : List (ℕ × ℕ)) (entry : QueueEntry)
      (status : entry.status = .waiting) :
      Reads d (.cancelling a now [] cancelled) (.inserted a now cancelled entry)
  | counted (a : Actor) (now : Time) (cancelled : List (ℕ × ℕ)) (entry : QueueEntry) (pool : ℕ) :
      Reads d (.inserted a now cancelled entry) (.counted a now cancelled entry pool)
  | queued (a : Actor) (now : Time) (cancelled : List (ℕ × ℕ)) (entry : QueueEntry) (pool : ℕ)
      (j : Joined) (same : j.entry = entry) :
      Reads d (.counted a now cancelled entry pool) (.queued now cancelled j)
  | expiring (now : Time) (todo : List (ℕ × ℕ)) : Reads d .waiting (.expiring now todo [])
  | stayed (now : Time) (key : ℕ × ℕ) (todo expired : List (ℕ × ℕ)) :
      Reads d (.expiring now (key :: todo) expired) (.expiring now todo expired)
  | candidate (now : Time) (expired : List (ℕ × ℕ)) (rows : List QueueEntry)
      (row : QueueEntry × Account) (rest : List (QueueEntry × Account)) (read : List Candidate) :
      Reads d (.loading now expired rows (row :: rest) read)
        (.loading now expired rows rest (read ++ [queueCandidate d now row]))
  | paired (now : Time) (expired : List (ℕ × ℕ)) (rows : List QueueEntry) (read : List Candidate)
      (outcome : Outcome) (made : matched read = .ok outcome) :
      Reads d (.loading now expired rows [] read) (.closing now expired rows outcome.pairs)

/-- The statements that take locks. -/
inductive Locks (d : Pools) : Phase → Phase → List (ℕ × ℕ) → Prop where
  | cancels (a : Actor) (now : Time) (key : ℕ × ℕ) (todo cancelled : List (ℕ × ℕ))
      (user : key.2 = a.userId) (still : waits d key = true) :
      Locks d (.cancelling a now (key :: todo) cancelled)
        (.cancelling a now todo (cancelled ++ [key])) [key]
  | expires (now : Time) (key : ℕ × ℕ) (todo expired : List (ℕ × ℕ))
      (still : overdue d now key = true) :
      Locks d (.expiring now (key :: todo) expired) (.expiring now todo (expired ++ [key])) [key]
  | selects (now : Time) (expired : List (ℕ × ℕ)) (ids : List ℕ) :
      Locks d (.expiring now [] expired)
        (.loading now expired ((taken d expired ids).map Prod.fst) (taken d expired ids) [])
        ((taken d expired ids).map (fun r => entryKey r.1))
  | alone (now : Time) (expired : List (ℕ × ℕ)) (ids : List ℕ) :
      Locks d (.expiring now [] expired)
        (.closing now expired ((taken d expired ids).map Prod.fst) [])
        ((taken d expired ids).map (fun r => entryKey r.1))

/-- What a request writes. -/
inductive Writes (d : Pools) : Phase → Pools → Answer → Prop where
  | left (userId : ℕ) (now : Time) (cancelled : List (ℕ × ℕ)) :
      Writes d (.left userId now cancelled) (landCancelled d cancelled now) .noContent
  | queued (now : Time) (cancelled : List (ℕ × ℕ)) (j : Joined) :
      Writes d (.queued now cancelled j) (landJoined d cancelled now j.entry) (.joined j)
  | matched (now : Time) (expired : List (ℕ × ℕ)) (rows : List QueueEntry) (pairs : List Pair)
      (d' : Pools) (landed : landMatched d now expired rows pairs = .ok d') :
      Writes d (.closing now expired rows pairs) d' (.matched pairs)
  | other (tables : Pools) : Writes d .waiting (landOther d tables) .noContent

inductive Next (d : Pools) (q : Request) (act : Act) : Moved → Prop where
  | refused (a : Answer) : Next d q act (.rollsBack { q with phase := .done a })
  | reads (p : Phase) (h : Reads d q.phase p) : Next d q act (.goes { q with phase := p } [])
  | locks (p : Phase) (keys : List (ℕ × ℕ)) (h : Locks d q.phase p keys) :
      Next d q act (.goes { q with phase := p } keys)
  | commits (d' : Pools) (a : Answer) (commit : act = .commit) (h : Writes d q.phase d' a) :
      Next d q act (.commits d' { q with phase := .done a })

variable {d d' : Pools} {q p : Request} {act : Act} {m : Moved} {a : Actor} {now : Time}

theorem next_enterTo {u : ℕ} {orgOnly : Bool} (hphase : q.phase = .waiting) :
    Next d q act (enterTo q (enter d u orgOnly now)) := by
  unfold enter
  split
  · exact .refused _
  · next a _ =>
    split
    · exact .refused _
    · exact .reads _ (hphase ▸ .entered a now)

theorem next_rowTo {still : Bool} {key : ℕ × ℕ} {mine other : Phase}
    (hmine : still = true → Locks d q.phase mine [key]) (hother : Reads d q.phase other) :
    Next d q act (rowTo q still key mine other) := by
  unfold rowTo
  split
  · next hstill => exact .locks _ _ (hmine hstill)
  · exact .reads _ hother

theorem next_selectTo {expired : List (ℕ × ℕ)} {ids : List ℕ}
    (hphase : q.phase = .expiring now [] expired) :
    Next d q act (selectTo d q now expired ids) := by
  unfold selectTo
  dsimp only
  split
  · exact .locks _ _ (hphase ▸ .alone now expired ids)
  · exact .locks _ _ (hphase ▸ .selects now expired ids)

theorem next_pairTo {expired : List (ℕ × ℕ)} {rows : List QueueEntry} {read : List Candidate}
    (hphase : q.phase = .loading now expired rows [] read) :
    Next d q act (pairTo q now expired rows read) := by
  unfold pairTo
  split
  · exact .refused _
  · next outcome hmade => exact .reads _ (hphase ▸ .paired now expired rows read outcome hmade)

theorem next_commitMatched {expired : List (ℕ × ℕ)} {rows : List QueueEntry} {pairs : List Pair}
    (hphase : q.phase = .closing now expired rows pairs) :
    Next d q .commit (commitMatched d q now expired rows pairs) := by
  unfold commitMatched
  split
  · exact .refused _
  · next d' hlanded => exact .commits _ _ rfl (hphase ▸ .matched now expired rows pairs d' hlanded)

theorem next_cases (h : next d q act = some m) : Next d q act m := by
  unfold next at h
  split at h
  · next hphase _ =>
    cases h
    exact next_enterTo hphase
  · next hphase _ =>
    cases h
    exact next_enterTo hphase
  · next hphase =>
    cases h
    exact .reads _ (hphase ▸ .found _ _ _)
  · next hphase =>
    cases h
    refine next_rowTo (fun hstill => ?_) (hphase ▸ .passed _ _ _ _ _)
    have hstill := of_decide_eq_true hstill
    exact hphase ▸ .cancels _ _ _ _ _ hstill.1 hstill.2
  · next hphase _ =>
    cases h
    exact .reads _ (hphase ▸ .left _ _ _)
  · next hphase =>
    cases h
    exact .commits _ _ rfl (hphase ▸ .left _ _ _)
  · next hphase _ =>
    cases h
    exact .reads _ (hphase ▸ .inserted _ _ _ _ rfl)
  · next hphase =>
    cases h
    exact .reads _ (hphase ▸ .counted _ _ _ _ _)
  · next hphase =>
    cases h
    exact .reads _ (hphase ▸ .queued _ _ _ _ _ _ rfl)
  · next hphase =>
    cases h
    exact .commits _ _ rfl (hphase ▸ .queued _ _ _)
  · next hphase _ =>
    cases h
    exact .reads _ (hphase ▸ .expiring _ _)
  · next hphase =>
    cases h
    exact next_rowTo (fun hstill => hphase ▸ .expires _ _ _ _ hstill) (hphase ▸ .stayed _ _ _ _)
  · next hphase =>
    cases h
    exact next_selectTo hphase
  · next hphase =>
    cases h
    exact .reads _ (hphase ▸ .candidate _ _ _ _ _ _)
  · next hphase =>
    cases h
    exact next_pairTo hphase
  · next hphase =>
    cases h
    exact next_commitMatched hphase
  · next hphase _ =>
    cases h
    exact .commits _ _ rfl (hphase ▸ .other _)
  · cases h
  · cases h
    exact .refused _
  · cases h

theorem owned_reads {p p' : Phase} (h : Reads d p p') : ∀ k ∈ owned p', k ∈ owned p := by
  intro k hk
  cases h with
  | entered | found | expiring => cases hk
  | _ => exact hk

theorem owned_locks {p p' : Phase} {keys : List (ℕ × ℕ)} (h : Locks d p p' keys) :
    ∀ k ∈ owned p', k ∈ owned p ∨ k ∈ keys := by
  intro k hk
  cases h with
  | cancels => exact List.mem_append.1 hk
  | expires => exact List.mem_append.1 hk
  | selects now expired ids =>
    rw [owned, List.map_map] at hk
    exact List.mem_append.1 hk
  | alone now expired ids =>
    rw [owned, List.map_map] at hk
    exact List.mem_append.1 hk

theorem owned_goes {keys : List (ℕ × ℕ)} (h : Next d q act (.goes p keys)) :
    ∀ k ∈ owned p.phase, k ∈ owned q.phase ∨ k ∈ keys := by
  cases h with
  | reads p h => exact fun k hk => .inl (owned_reads h k hk)
  | locks p keys h => exact owned_locks h

def program : Program Pools (ℕ × ℕ) Request Act where
  next := next
  owned q := owned q.phase
  owned_goes h := owned_goes (next_cases h)
  owned_commits := by
    intro d p i d' p' h
    cases next_cases h
    rfl
  owned_rollsBack := by
    intro d p i p' h
    cases next_cases h
    rfl

abbrev Sys := ReadCommitted.Sys Pools (ℕ × ℕ) Request

def start (d : Pools) (calls : ℕ → Call) : Sys where
  store := { d with queue := .empty }
  requests r := ⟨calls r, .waiting⟩

end IeltsHub.QueueRequests
