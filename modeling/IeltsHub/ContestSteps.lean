import IeltsHub.ContestRequests

set_option autoImplicit false

/-!
# The statements of a contest's requests

What each statement of a request can do, one constructor for each way it goes on.
-/
namespace IeltsHub.ContestRequests
open PyTime RowTable BillingModels Entitlements CompetitionSchedule ReadCommitted
open PlatformRefusals
open PlatformErrors (Raised)

variable {jitter : ℕ → ℤ} {d d' : Store} {q q' : Request} {act : Act} {actor : Actor}
  {phase : Phase} {keys : List Key}

theorem mem_keys {w : Write} {k : Key} : k ∈ w.keys ↔
    (∃ x ∈ w.entries, k = .entry x.userId) ∨ (∃ b ∈ w.balance, k = .entitlement b.1.id) ∨
      (w.contest ≠ none ∧ k = .contest) := by
  unfold Write.keys
  split
  · next hcontest =>
    have hsome : w.contest ≠ none := by
      intro hnone
      simp [hnone] at hcontest
    simp [hsome, eq_comm]
  · next hcontest =>
    have hnone : w.contest = none := by simpa using hcontest
    simp [hnone, eq_comm]

inductive Registering (d : Store) (actor : Actor) : Phase → Act → Phase → List Key → Prop where
  | asked {now : Time} (seen : visible d actor = true)
      (open' : registrationOpen d.contest.timing now = true) :
      Registering d actor .waiting (.read now) (.gate .asking) []
  | gated {c c' : Checking} {act : Act} (check : checkStep d actor c act = some (.inl c')) :
      Registering d actor (.gate c) act (.gate c') []
  | admitted {c : Checking} {act : Act} {decision : Decision}
      (check : checkStep d actor c act = some (.inr decision)) (allowed : decision.allowed = true) :
      Registering d actor (.gate c) act .admitted []
  | uncapped {now : Time} (cap : d.contest.cap = none) :
      Registering d actor .admitted (.run now) .placed []
  | capped {now : Time} {cap : ℤ} (cap' : d.contest.cap = some cap) :
      Registering d actor .admitted (.run now) .counting [.contest]
  | counted {now : Time} (room : d.contest.cap.any (fun cap => (taken d : ℤ) ≥ cap) = false) :
      Registering d actor .counting (.run now) .placed []
  | placed {now : Time} :
      Registering d actor .placed (.run now) (.upserting (statusOf d actor.userId)) []
  | upserted {prior : Option EntryStatus} {now : Time} :
      Registering d actor (.upserting prior) (.run now)
        (.upserted prior (upsert d actor.userId now)) [.entry actor.userId]
  | again {prior : Option EntryStatus} {row : Entry} {now : Time} (active' : active prior = true) :
      Registering d actor (.upserted prior row) (.run now)
        (.written { entries := [row] } (registeredAnswer row)) [.entry row.userId]
  | owing {prior : Option EntryStatus} {row : Entry} {now : Time} (active' : active prior = false) :
      Registering d actor (.upserted prior row) (.run now) (.charging row .asking) []
  | charging {row : Entry} {c c' : Checking} {act : Act}
      (check : checkStep d actor c act = some (.inl c')) :
      Registering d actor (.charging row c) act (.charging row c') []
  | unlimited {row : Entry} {c : Checking} {act : Act} {decision : Decision} {e : Entitlement}
      (check : checkStep d actor c act = some (.inr decision))
      (entitlement : decision.entitlement = some e) (free : Entitlements.spending e 1 = .unlimited) :
      Registering d actor (.charging row c) act
        (.written { entries := [{ row with entitlementId := some e.id }] }
          (registeredAnswer { row with entitlementId := some e.id })) [.entry row.userId]
  | chosen {row : Entry} {c : Checking} {act : Act} {decision : Decision} {e : Entitlement}
      (check : checkStep d actor c act = some (.inr decision))
      (entitlement : decision.entitlement = some e) (owed : Entitlements.spending e 1 = .spend) :
      Registering d actor (.charging row c) act (.chosen row e.id) []
  | loaded {row : Entry} {id : ℕ} {e : Entitlement} {now : Time}
      (stored : d.entitlements.get? id = some e) :
      Registering d actor (.chosen row id) (.run now) (.spending row e) []
  | spent {row : Entry} {e : Entitlement} {now : Time} :
      Registering d actor (.spending row e) (.run now)
        (.written { entries := [{ row with entitlementId := some e.id }]
                    balance := some (e, consumeRow e 1), charged := some e }
          (registeredAnswer { row with entitlementId := some e.id }))
        [.entry row.userId, .entitlement e.id]

theorem register_cases (h : register d q actor act = some (.goes q' keys)) :
    ∃ phase, q' = { q with phase, held := q.held ++ keys } ∧
      Registering d actor q.phase act phase keys := by
  obtain ⟨call, phase, held⟩ := q
  unfold register at h
  dsimp only at h
  split at h
  · split at h
    · cases h
    · next hseen =>
      split at h
      · cases h
      · next hopen =>
        cases h
        exact ⟨_, rfl, .asked (by simpa using hseen) (by simpa using hopen)⟩
  · split at h
    · cases h
    · next hcheck =>
      cases h
      exact ⟨_, rfl, .gated hcheck⟩
    · next hcheck =>
      split at h
      · next hallowed =>
        cases h
        exact ⟨_, rfl, .admitted hcheck hallowed⟩
      · cases h
  · split at h
    · next hcap =>
      cases h
      exact ⟨_, rfl, .uncapped hcap⟩
    · next hcap =>
      cases h
      exact ⟨_, rfl, .capped hcap⟩
  · split at h
    · cases h
    · next hroom =>
      cases h
      exact ⟨_, rfl, .counted (by simpa using hroom)⟩
  · cases h
    exact ⟨_, rfl, .placed⟩
  · cases h
    exact ⟨_, rfl, .upserted⟩
  · split at h
    · next hactive =>
      cases h
      exact ⟨_, rfl, .again hactive⟩
    · next hactive =>
      cases h
      exact ⟨_, rfl, .owing (by simpa using hactive)⟩
  · split at h
    · cases h
    · next hcheck =>
      cases h
      exact ⟨_, rfl, .charging hcheck⟩
    · next hcheck =>
      split at h
      · cases h
      · next hentitlement =>
        split at h
        · next hfree =>
          cases h
          exact ⟨_, rfl, .unlimited hcheck hentitlement hfree⟩
        · cases h
        · next howed =>
          cases h
          exact ⟨_, rfl, .chosen hcheck hentitlement howed⟩
  · split at h
    · cases h
    · next hstored =>
      cases h
      exact ⟨_, rfl, .loaded hstored⟩
  · cases h
    exact ⟨_, rfl, .spent⟩
  · cases h

/-- How a registration is refused. -/
inductive Refusing (d : Store) (actor : Actor) : Phase → Act → Refusal → Prop where
  | unseen {now : Time} : Refusing d actor .waiting (.read now) competitionNotFound
  | closed {now : Time} : Refusing d actor .waiting (.read now) registrationClosed
  | denied {c : Checking} {act : Act} {decision : Decision}
      (check : checkStep d actor c act = some (.inr decision)) (denied : decision.allowed = false) :
      Refusing d actor (.gate c) act (paymentRequired decision.reason)
  | full {now : Time} (full : d.contest.cap.any (fun cap => (taken d : ℤ) ≥ cap) = true) :
      Refusing d actor .counting (.run now) competitionFull
  | unpaid {row : Entry} {c : Checking} {act : Act} (reason : Reason) :
      Refusing d actor (.charging row c) act (paymentRequired reason)
  | lost {row : Entry} {id : ℕ} {now : Time} :
      Refusing d actor (.chosen row id) (.run now) (.raised .attributeError)

theorem refuse_inj {e e' : Refusal} (h : refuse q e = refuse q e') : e = e' := by
  unfold refuse at h
  cases h
  rfl

theorem register_refused {e : Refusal} (h : register d q actor act = refuse q e) :
    Refusing d actor q.phase act e := by
  obtain ⟨call, phase, held⟩ := q
  unfold register at h
  dsimp only at h
  split at h
  · split at h
    · cases refuse_inj h
      exact .unseen
    · split at h
      · cases refuse_inj h
        exact .closed
      · cases h
  · split at h
    · cases h
    · cases h
    · next hcheck =>
      split at h
      · cases h
      · next hdenied =>
        cases refuse_inj h
        exact .denied hcheck (by simpa using hdenied)
  · split at h <;> cases h
  · split at h
    · next hfull =>
      cases refuse_inj h
      exact .full hfull
    · cases h
  · cases h
  · cases h
  · split at h <;> cases h
  · split at h
    · cases h
    · cases h
    · split at h
      · cases refuse_inj h
        exact .unpaid _
      · split at h
        · cases h
        · cases refuse_inj h
          exact .unpaid _
        · cases h
  · split at h
    · cases refuse_inj h
      exact .lost
    · cases h
  · cases h
  · cases h

inductive Withdrawing (d : Store) (actor : Actor) : Phase → Act → Phase → List Key → Prop where
  | asked {now : Time} (early : d.contest.status.begun = false) :
      Withdrawing d actor .waiting (.read now) .withdrawing []
  | matched {now : Time} (registered : statusOf d actor.userId = some .registered) :
      Withdrawing d actor .withdrawing (.run now) .matched []
  | unmatched {now : Time} (other : statusOf d actor.userId ≠ some .registered) :
      Withdrawing d actor .withdrawing (.run now) (.written {} .noContent) []
  | lost {now : Time} (gone : release d actor.userId = none) :
      Withdrawing d actor .matched (.run now) (.written {} .noContent) []
  | unspent {row : Entry} {now : Time} (found : release d actor.userId = some row)
      (free : row.entitlementId = none) :
      Withdrawing d actor .matched (.run now)
        (.written { entries := [{ row with status := .withdrawn }] } .noContent)
        [.entry row.userId]
  | released {row : Entry} {id : ℕ} {now : Time} (found : release d actor.userId = some row)
      (paid : row.entitlementId = some id) :
      Withdrawing d actor .matched (.run now) (.released { row with status := .withdrawn })
        [.entry actor.userId]
  | loaded {row : Entry} {e : Entitlement} {now : Time}
      (stored : row.entitlementId.bind d.entitlements.get? = some e) :
      Withdrawing d actor (.released row) (.run now) (.refunding row e) []
  | refunded {row : Entry} {e : Entitlement} {now : Time} {w : Write}
      (written : w = { entries := [row], refunded := some e
                       balance := if refundRow e 1 = e.consumed then none
                         else some (e, refundRow e 1) }) :
      Withdrawing d actor (.refunding row e) (.run now) (.written w .noContent) w.keys

theorem withdraw_cases (h : withdraw d q actor act = some (.goes q' keys)) :
    ∃ phase, q' = { q with phase, held := q.held ++ keys } ∧
      Withdrawing d actor q.phase act phase keys := by
  obtain ⟨call, phase, held⟩ := q
  unfold withdraw at h
  dsimp only at h
  split at h
  · split at h
    · cases h
    · split at h
      · cases h
      · next hearly =>
        cases h
        exact ⟨_, rfl, .asked (by simpa using hearly)⟩
  · split at h
    · next hregistered =>
      cases h
      exact ⟨_, rfl, .matched hregistered⟩
    · next hother =>
      cases h
      exact ⟨_, rfl, .unmatched hother⟩
  · split at h
    · next hgone =>
      cases h
      exact ⟨_, rfl, .lost hgone⟩
    · next row hfound =>
      split at h
      · next hfree =>
        cases h
        exact ⟨_, rfl, .unspent hfound hfree⟩
      · next hpaid =>
        cases h
        exact ⟨_, rfl, .released hfound hpaid⟩
  · split at h
    · cases h
    · next hstored =>
      cases h
      exact ⟨_, rfl, .loaded hstored⟩
  · cases h
    exact ⟨_, rfl, .refunded rfl⟩
  · cases h

inductive Lobbying (jitter : ℕ → ℤ) (d : Store) (actor : Actor) :
    Phase → Act → Phase → List Key → Prop where
  | asked {now : Time} (opened : d.contest.lobbyOpensAt ≤ now) :
      Lobbying jitter d actor .waiting (.read now) (.lobbying now) []
  | entered {now at' : Time} {row : Entry} (found : entryOf d actor.userId = some row) :
      Lobbying jitter d actor (.lobbying now) (.run at') (.fetching now) []
  | fetched {now at' fetchAfter : Time} {row : Entry}
      (stored : d.entries.get? actor.userId = some row) :
      Lobbying jitter d actor (.fetching now) (.run at')
        (.written { entries := [fetched row at'] }
          (.payload d.contest.payloadKeyId d.contest.startsAt now fetchAfter)) [.entry row.userId]

theorem lobby_cases (h : lobby jitter d q actor act = some (.goes q' keys)) :
    ∃ phase, q' = { q with phase, held := q.held ++ keys } ∧
      Lobbying jitter d actor q.phase act phase keys := by
  obtain ⟨call, phase, held⟩ := q
  unfold lobby at h
  dsimp only at h
  split at h
  · split at h
    · cases h
    · split at h
      · cases h
      · next hopened =>
        cases h
        exact ⟨_, rfl, .asked (not_lt.1 hopened)⟩
  · split at h
    · cases h
    · next hfound =>
      split at h
      · cases h
      · cases h
        exact ⟨_, rfl, .entered hfound⟩
  · split at h
    · cases h
    · next hstored =>
      cases h
      exact ⟨_, rfl, .fetched hstored⟩
  · cases h

inductive Releasing (d : Store) (actor : Actor) : Phase → Act → Phase → List Key → Prop where
  | asked {now : Time} (started : d.contest.startsAt ≤ now) (ended : now ≤ d.contest.endsAt) :
      Releasing d actor .waiting (.read now) (.begun now d.contest.keyFreeze.isSome) []
  | entered {now at' : Time} {isFrozen : Bool} {row : Entry}
      (found : entryOf d actor.userId = some row) (unset : row.attemptId = none) :
      Releasing d actor (.begun now isFrozen) (.run at') (.entrant now isFrozen) []
  | resumed {now at' : Time} {isFrozen : Bool} {row : Entry} {x : ContestAttempt}
      (found : entryOf d actor.userId = some row)
      (stored : row.attemptId.bind d.attempts.get? = some x) :
      Releasing d actor (.begun now isFrozen) (.run at')
        (.written {} (keyAnswer d x.id (some x.expiresAt) now)) []
  | starting {now at' : Time} {isFrozen : Bool} :
      Releasing d actor (.entrant now isFrozen) (.run at')
        (.attempting now isFrozen (contestAttempt d.contest actor.userId)) []
  | started {now at' : Time} {isFrozen : Bool} {attempt : ContestAttempt} {row : Entry}
      (stored : d.entries.get? actor.userId = some row) :
      Releasing d actor (.attempting now isFrozen attempt) (.run at')
        (.started now isFrozen attempt
          { row with status := .started, keyReleasedAt := some (row.keyReleasedAt.getD at') })
        [.entry actor.userId]
  | froze {now at' : Time} {isFrozen : Bool} {attempt : ContestAttempt} {row : Entry} {w : Write}
      (written : w = { entries := [row], attempt := some attempt
                       contest := if isFrozen then none else freezeKeys d at' }) :
      Releasing d actor (.started now isFrozen attempt row) (.run at')
        (.written w (keyAnswer d d.attempts.nextId (some attempt.expiresAt) now)) w.keys

theorem releaseKey_cases (h : releaseKey d q actor act = some (.goes q' keys)) :
    ∃ phase, q' = { q with phase, held := q.held ++ keys } ∧
      Releasing d actor q.phase act phase keys := by
  obtain ⟨call, phase, held⟩ := q
  unfold releaseKey at h
  dsimp only at h
  split at h
  · split at h
    · cases h
    · split at h
      · cases h
      · next hstarted =>
        split at h
        · cases h
        · next hended =>
          cases h
          exact ⟨_, rfl, .asked (not_lt.1 hstarted) (not_lt.1 hended)⟩
  · split at h
    · cases h
    · next hfound =>
      split at h
      · cases h
      · split at h
        · next hunset =>
          cases h
          exact ⟨_, rfl, .entered hfound hunset⟩
        · next id hset =>
          split at h
          · cases h
          · next x hstored =>
            cases h
            exact ⟨_, rfl, .resumed hfound (by rw [hset]; exact hstored)⟩
  · split at h
    · cases h
    · split at h
      · cases h
      · cases h
        exact ⟨_, rfl, .starting⟩
  · split at h
    · cases h
    · next hstored =>
      cases h
      exact ⟨_, rfl, .started hstored⟩
  · cases h
    exact ⟨_, rfl, .froze rfl⟩
  · cases h

inductive Ticking (d : Store) : Phase → Act → Phase → List Key → Prop where
  | passed {now : Time} : Ticking d .waiting (.read now) (.written {} (.moved none)) []
  | locked {now : Time} : Ticking d .waiting (.read now) (.ticking now) [.contest]
  | idle {now at' : Time} : Ticking d (.ticking now) (.run at') (.written {} (.moved none)) []
  | due {now at' : Time} {pending' : ℕ} {target : Status}
      (target' : nextStatus d.contest.timing now pending' = some target) :
      Ticking d (.ticking now) (.run at') (.entering target) []
  | plain {target : Status} {at' : Time} (none' : onEnter d target = none) :
      Ticking d (.entering target) (.run at')
        (.written { contest := movedTo d target } (.moved (some target))) [.contest]
  | entered {target : Status} {at' : Time} {rows : List Entry} {status : EntryStatus}
      (rows' : onEnter d target = some (rows, status)) :
      Ticking d (.entering target) (.run at')
        (.marking target (rows.map Entry.userId) status) []
  | marked {target : Status} {userIds : List ℕ} {status : EntryStatus} {at' : Time} {w : Write}
      (written : w = { entries := marked d target userIds status, contest := movedTo d target }) :
      Ticking d (.marking target userIds status) (.run at')
        (.written w (.moved (some target))) w.keys

theorem tick_cases (h : tick d q act = some (.goes q' keys)) :
    ∃ phase, q' = { q with phase, held := q.held ++ keys } ∧ Ticking d q.phase act phase keys := by
  obtain ⟨call, phase, held⟩ := q
  unfold tick at h
  dsimp only at h
  split at h
  · split at h
    · cases h
      exact ⟨_, rfl, .passed⟩
    · cases h
      exact ⟨_, rfl, .locked⟩
  · split at h
    · cases h
      exact ⟨_, rfl, .idle⟩
    · next htarget =>
      cases h
      exact ⟨_, rfl, .due htarget⟩
  · split at h
    · next hnone =>
      cases h
      exact ⟨_, rfl, .plain hnone⟩
    · next hrows =>
      cases h
      exact ⟨_, rfl, .entered hrows⟩
  · cases h
    exact ⟨_, rfl, .marked rfl⟩
  · cases h

/-- A statement of a call that is neither refused nor a commit. -/
inductive Went (jitter : ℕ → ℤ) (d : Store) : Call → Phase → Act → Phase → List Key → Prop where
  | register {actor : Actor} {p p' : Phase} {act : Act} {keys : List Key}
      (h : Registering d actor p act p' keys) : Went jitter d (.register actor) p act p' keys
  | withdraw {actor : Actor} {p p' : Phase} {act : Act} {keys : List Key}
      (h : Withdrawing d actor p act p' keys) : Went jitter d (.withdraw actor) p act p' keys
  | lobby {actor : Actor} {p p' : Phase} {act : Act} {keys : List Key}
      (h : Lobbying jitter d actor p act p' keys) : Went jitter d (.lobby actor) p act p' keys
  | releaseKey {actor : Actor} {p p' : Phase} {act : Act} {keys : List Key}
      (h : Releasing d actor p act p' keys) : Went jitter d (.releaseKey actor) p act p' keys
  | tick {p p' : Phase} {act : Act} {keys : List Key} (h : Ticking d p act p' keys) :
      Went jitter d .tick p act p' keys

theorem turn_cases (h : turn jitter d q act = some (.goes q' keys)) :
    ∃ phase, q' = { q with phase, held := q.held ++ keys } ∧
      Went jitter d q.call q.phase act phase keys := by
  unfold turn at h
  split at h
  · next hcall =>
    obtain ⟨phase, hq, hwent⟩ := register_cases h
    exact ⟨phase, hq, hcall ▸ .register hwent⟩
  · next hcall =>
    obtain ⟨phase, hq, hwent⟩ := withdraw_cases h
    exact ⟨phase, hq, hcall ▸ .withdraw hwent⟩
  · next hcall =>
    obtain ⟨phase, hq, hwent⟩ := lobby_cases h
    exact ⟨phase, hq, hcall ▸ .lobby hwent⟩
  · next hcall =>
    obtain ⟨phase, hq, hwent⟩ := releaseKey_cases h
    exact ⟨phase, hq, hcall ▸ .releaseKey hwent⟩
  · next hcall =>
    obtain ⟨phase, hq, hwent⟩ := tick_cases h
    exact ⟨phase, hq, hcall ▸ .tick hwent⟩
  · cases h

theorem turn_refused (h : turn jitter d q act = some (.rollsBack q')) :
    ∃ e, q' = { call := q.call, phase := .done (.refused e) } ∧
      turn jitter d q act = refuse q e := by
  have hturns : Turns q (turn jitter d q act) := turns_turn
  rw [h] at hturns
  generalize hm : (some (.rollsBack q') : Turn) = m at hturns
  cases hturns with
  | refused e =>
    cases hm
    exact ⟨e, rfl, h⟩
  | _ => cases hm

/-- What a step of the requests is. -/
inductive Stepped (jitter : ℕ → ℤ) (s : Sys) (i : ℕ × Act) (t : Sys) : Prop where
  | went (phase : Phase) (keys : List Key)
      (went : Went jitter s.store (s.requests i.1).call (s.requests i.1).phase i.2 phase keys)
      (store : t.store = s.store)
      (request : t.requests i.1 =
        { call := (s.requests i.1).call, phase, held := (s.requests i.1).held ++ keys })
  | refused (e : Refusal) (store : t.store = s.store)
      (request : t.requests i.1 = { call := (s.requests i.1).call, phase := .done (.refused e) })
      (turn : (∃ x, i.2 = .fail x) ∨
        turn jitter s.store (s.requests i.1) i.2 = refuse (s.requests i.1) e)
  | committed (w : Write) (a : Answer) (act : i.2 = .commit)
      (phase : (s.requests i.1).phase = .written w a)
      (store : t.store = w.land (s.requests i.1).call.userId s.store)
      (request : t.requests i.1 = { call := (s.requests i.1).call, phase := .done a })
  | other (other : others s.store (s.requests i.1).call = some t.store)
      (request : t.requests i.1 = { call := (s.requests i.1).call, phase := .done .noContent })

theorem stepped {s t : Sys} {i : ℕ × Act} (h : Step (program jitter) s i t) :
    Stepped jitter s i t := by
  obtain ⟨r, act⟩ := i
  cases step_cases h with
  | went p keys hnext _ hstore _ hrequests =>
    cases next_cases hnext with
    | turned _ _ hturn =>
      obtain ⟨phase, hp, hwent⟩ := turn_cases hturn
      exact .went phase keys hwent hstore (by rw [hrequests, put_self, hp])
  | rolledBack p hnext hstore _ hrequests =>
    cases next_cases hnext with
    | failed e => exact .refused (.raised e) hstore (by rw [hrequests, put_self]) (.inl ⟨e, rfl⟩)
    | turned _ _ hturn =>
      obtain ⟨e, hp, hrefuse⟩ := turn_refused hturn
      exact .refused e hstore (by rw [hrequests, put_self, hp]) (.inr hrefuse)
  | committed p hnext _ hrequests =>
    generalize hstore : t.store = d' at hnext
    cases next_cases hnext with
    | turned _ _ hturn => exact (not_commit_of_turn (hturn ▸ turns_turn)).elim
    | committed w a hphase =>
      exact .committed w a rfl hphase hstore (by rw [hrequests, put_self])
    | other d' hother =>
      exact .other (by rw [hstore]; exact hother) (by rw [hrequests, put_self])

/-- What holds of a request after a step is up to its own statement, when it is the one that
moved. -/
theorem request_step {C : Request → Prop} {s t : Sys} {i : ℕ × Act}
    (h : Step (program jitter) s i t) (r : ℕ)
    (hwent : r = i.1 → t.store = s.store → ∀ phase keys,
      Went jitter s.store (s.requests r).call (s.requests r).phase i.2 phase keys →
        C { call := (s.requests r).call, phase, held := (s.requests r).held ++ keys })
    (hdone : ∀ call a, C { call, phase := .done a }) (hother : r ≠ i.1 → C (s.requests r)) :
    C (t.requests r) := by
  by_cases hr : r = i.1
  · have hwent := hwent hr
    subst hr
    cases stepped h with
    | went phase keys went hstore hrequest =>
      rw [hrequest]
      exact hwent hstore phase keys went
    | refused e _ hrequest => rw [hrequest]; exact hdone _ _
    | committed w a _ _ _ hrequest => rw [hrequest]; exact hdone _ _
    | other _ hrequest => rw [hrequest]; exact hdone _ _
  · rw [requests_of_ne h hr]
    exact hother hr

/-! ## What requests own -/

def Phase.rows : Phase → List Entry
  | .upserted _ row | .charging row _ | .chosen row _ | .spending row _ => [row]
  | .released row | .refunding row _ => [row]
  | .started _ _ _ row => [row]
  | .written w _ => w.entries
  | _ => []

def Owning (q : Request) : Prop := ∀ x ∈ q.phase.rows, .entry x.userId ∈ owned q

theorem upsert_userId (d : Store) (userId : ℕ) (now : Time) : (upsert d userId now).userId = userId := by
  unfold upsert
  split
  · rfl
  · next row hrow =>
    have hkey : row.userId = userId := Table.get?_key hrow
    split
    · exact hkey
    · exact hkey

theorem release_eq_some {userId : ℕ} {row : Entry} (h : release d userId = some row) :
    d.entries.get? userId = some row ∧ row.status = .registered := by
  simpa [release, Option.filter_eq_some_iff] using h

theorem rows_of_went {call : Call} {p p' : Phase} (h : Went jitter d call p act p' keys) :
    ∀ x ∈ p'.rows, .entry x.userId ∈ p'.pending ∨ .entry x.userId ∈ keys ∨
      ∃ y ∈ p.rows, y.userId = x.userId := by
  cases h with
  | register h =>
    cases h <;> simp [Phase.rows, Phase.pending, Write.keys, upsert_userId]
  | withdraw h =>
    cases h with
    | released found =>
      have hkey := Table.get?_key (release_eq_some found).1
      simp [Phase.rows, hkey]
    | refunded written => simp [Phase.rows, Phase.pending, mem_keys, written]
    | _ => simp [Phase.rows, Phase.pending, Write.keys]
  | lobby h => cases h <;> simp [Phase.rows, Phase.pending, Write.keys]
  | releaseKey h =>
    cases h with
    | started stored =>
      have hkey := Table.get?_key stored
      simp [Phase.rows, hkey]
    | froze written => simp [Phase.rows, Phase.pending, mem_keys, written]
    | _ => simp [Phase.rows, Phase.pending, Write.keys]
  | tick h =>
    cases h with
    | marked written =>
      intro x hx
      exact .inl (mem_keys.2 (.inl ⟨x, hx, rfl⟩))
    | _ => simp [Phase.rows]

theorem pending_of_went {call : Call} {p p' : Phase} (h : Went jitter d call p act p' keys) :
    p.pending = [] := by
  cases h with
  | register h => cases h <;> rfl
  | withdraw h => cases h <;> rfl
  | lobby h => cases h <;> rfl
  | releaseKey h => cases h <;> rfl
  | tick h => cases h <;> rfl

theorem owning_step {s t : Sys} {i : ℕ × Act} (hs : ∀ r, Owning (s.requests r))
    (h : Step (program jitter) s i t) (r : ℕ) : Owning (t.requests r) := by
  refine request_step h r (fun _ _ phase keys hwent => ?_) (fun _ _ _ hx => by cases hx)
    (fun _ => hs r)
  intro x hx
  simp only [owned, List.mem_append]
  rcases rows_of_went hwent x hx with hkey | hkey | ⟨y, hy, hkey⟩
  · exact .inr hkey
  · exact .inl (.inr hkey)
  · have hold := hs r y hy
    rw [hkey, owned, pending_of_went hwent, List.append_nil] at hold
    exact .inl (.inl hold)

theorem landed_userIds (w : Write) (d : Store) :
    (w.landed d).map Entry.userId = w.entries.map Entry.userId := by
  unfold Write.landed
  split
  · rfl
  · rw [List.map_map]
    rfl

theorem get?_foldl_put {xs : List Entry} (t : Table Entry ℕ Entry.userId) (userId : ℕ) :
    (∃ x ∈ xs, x.userId = userId ∧ (xs.foldl Table.put t).get? userId = some x) ∨
      (userId ∉ xs.map Entry.userId ∧ (xs.foldl Table.put t).get? userId = t.get? userId) := by
  by_cases hmem : userId ∈ xs.map Entry.userId
  · left
    induction xs generalizing t with
    | nil => cases hmem
    | cons y ys ih =>
      by_cases hys : userId ∈ ys.map Entry.userId
      · obtain ⟨x, hx, hkey, hget⟩ := ih (t.put y) hys
        exact ⟨x, List.mem_cons_of_mem _ hx, hkey, hget⟩
      · have hy : y.userId = userId := by
          rw [List.map_cons, List.mem_cons] at hmem
          exact (hmem.resolve_right hys).symm
        refine ⟨y, List.mem_cons_self, hy, ?_⟩
        rw [List.foldl_cons, Table.get?_foldl_put_of_not_mem hys, ← hy, Table.get?_put_self]
  · exact .inr ⟨hmem, Table.get?_foldl_put_of_not_mem hmem⟩

theorem get?_land (w : Write) (u : ℕ) (d : Store) (userId : ℕ) :
    (∃ x ∈ w.entries, x.userId = userId ∧ ∃ id,
      (w.land u d).entries.get? userId = some { x with attemptId := id }) ∨
      (userId ∉ w.entries.map Entry.userId ∧
        (w.land u d).entries.get? userId = d.entries.get? userId) := by
  rcases @get?_foldl_put (w.landed d) d.entries userId with ⟨x, hx, hkey, hget⟩ | ⟨hn, hget⟩
  · left
    unfold Write.landed at hx
    split at hx
    · exact ⟨x, hx, hkey, x.attemptId, hget⟩
    · obtain ⟨y, hy, rfl⟩ := List.mem_map.1 hx
      exact ⟨y, hy, hkey, _, hget⟩
  · rw [landed_userIds] at hn
    exact .inr ⟨hn, hget⟩

theorem others_entries {call : Call} (h : others d call = some d') :
    d'.entries = d.entries ∧ d'.contest = d.contest := by
  cases call <;> cases h <;> exact ⟨rfl, rfl⟩

theorem entry_kept {userId : ℕ} (e : Option Entry) :
    Kept (program jitter) (fun d k => k = .entry userId → d.entries.get? userId = e) := by
  intro d q act d' q' k hnext hfree hkept hk
  subst hk
  rcases commit_cases hnext with ⟨w, a, hphase, rfl, _⟩ | ⟨hother, _⟩
  · refine (Table.get?_foldl_put_of_not_mem ?_).trans (hkept rfl)
    rw [landed_userIds]
    intro hmem
    obtain ⟨x, hx, hkey⟩ := List.mem_map.1 hmem
    apply hfree
    refine List.mem_append_right _ ?_
    rw [hphase]
    exact mem_keys.2 (.inl ⟨x, hx, by rw [hkey]⟩)
  · rw [(others_entries hother).1]
    exact hkept rfl

theorem contest_kept (c : Contest) :
    Kept (program jitter) (fun d k => k = .contest → d.contest = c) := by
  intro d q act d' q' k hnext hfree hkept hk
  subst hk
  rcases commit_cases hnext with ⟨w, a, hphase, rfl, _⟩ | ⟨hother, _⟩
  · cases hcontest : w.contest with
    | none =>
      simp only [Write.land, hcontest, Option.getD_none]
      exact hkept rfl
    | some c' =>
      refine absurd (List.mem_append_right _ ?_) hfree
      rw [hphase]
      exact mem_keys.2 (.inr (.inr ⟨by simp [hcontest], rfl⟩))
  · rw [(others_entries hother).2]
    exact hkept rfl

theorem entry_stable {s t : Sys} {i : ℕ × Act} {r userId : ℕ} (hs : Locked (program jitter) s)
    (h : Step (program jitter) s i t) (hr : r ≠ i.1)
    (hown : .entry userId ∈ owned (s.requests r)) :
    t.store.entries.get? userId = s.store.entries.get? userId :=
  (entry_kept _).step hs h hown hr (fun _ => rfl) rfl

theorem contest_stable {s t : Sys} {i : ℕ × Act} {r : ℕ} (hs : Locked (program jitter) s)
    (h : Step (program jitter) s i t) (hr : r ≠ i.1) (hown : .contest ∈ owned (s.requests r)) :
    t.store.contest = s.store.contest :=
  (contest_kept _).step hs h hown hr (fun _ => rfl) rfl

end IeltsHub.ContestRequests
