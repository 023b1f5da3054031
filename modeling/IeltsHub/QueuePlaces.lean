import IeltsHub.PairSafety
import IeltsHub.QueueRequests

set_option autoImplicit false

/-!
# One place in the queue

Over any run of joins, leaves and matches: a user has one waiting entry at most, and whoever was
matched, has left or has expired is not matched before they join again.
-/
namespace IeltsHub.QueuePlaces
open PyExc PyTime RowTable SpeakingMatching SpeakingPools SpeakingService GuardedRuns ReadCommitted
  QueueRequests

def meets (s : Sys) (i : ℕ × Act) : Bool :=
  match (s.requests i.1).phase, i.2 with
  | .left u _ cancelled, .commit => (waitingOf s.store u).all (fun q => entryKey q ∈ cancelled)
  | .queued _ cancelled j, .commit =>
    (waitingOf s.store j.entry.userId).all (fun q => entryKey q ∈ cancelled)
  | _, _ => true

abbrev Meets (s : Sys) (i : ℕ × Act) : Prop := meets s i = true

def Paired (pairs : List Pair) (u : ℕ) : Prop :=
  ∃ pair ∈ pairs, pair.a.userXid = userXid u ∨ pair.b.userXid = userXid u

/-- Whose place a commit ends. -/
inductive Ends : Phase → ℕ → Prop where
  | left (u : ℕ) (now : Time) (cancelled : List (ℕ × ℕ)) : Ends (.left u now cancelled) u
  | expired (now : Time) (expired : List (ℕ × ℕ)) (rows : List QueueEntry) (pairs : List Pair)
      (key : ℕ × ℕ) (h : key ∈ expired) : Ends (.closing now expired rows pairs) key.2
  | matched (now : Time) (expired : List (ℕ × ℕ)) (rows : List QueueEntry) (pairs : List Pair)
      (u : ℕ) (h : Paired pairs u) : Ends (.closing now expired rows pairs) u

inductive Joins : Phase → ℕ → Prop where
  | queued (now : Time) (cancelled : List (ℕ × ℕ)) (j : Joined) :
      Joins (.queued now cancelled j) j.entry.userId

inductive Matches : Phase → ℕ → Prop where
  | closing (now : Time) (expired : List (ℕ × ℕ)) (rows : List QueueEntry) (pairs : List Pair)
      (u : ℕ) (h : Paired pairs u) : Matches (.closing now expired rows pairs) u

def Commits (s : Sys) (i : ℕ × Act) : Prop :=
  ∃ d q, next s.store (s.requests i.1) i.2 = some (.commits d q)

/-- What is promised of a step. -/
structure Keeps (s : Sys) (i : ℕ × Act) (t : Sys) : Prop where
  single : ∀ u, (waitingOf t.store u).length ≤ 1
  ended : ∀ u, Commits s i → Ends (s.requests i.1).phase u → waitingOf t.store u = []

/-! ## Entries that wait -/

variable {d d' : Pools} {s t v : Sys} {i : ℕ × Act} {p : Phase} {u : ℕ} {key : ℕ × ℕ} {now : Time}
  {rows : List QueueEntry} {pairs : List Pair}

theorem waits_iff : waits d key = true ↔ ∃ q ∈ waitingOf d key.2, q.id = key.1 := by
  unfold waits waitingOf Table.select
  rw [Option.any_eq_true]
  constructor
  · rintro ⟨q, hget, hwaits⟩
    obtain ⟨hq, hid⟩ := Table.get?_eq_some.1 hget
    exact ⟨q, List.mem_filter.2 ⟨hq, hwaits⟩, hid⟩
  · rintro ⟨q, hq, hid⟩
    obtain ⟨hq, hwaits⟩ := List.mem_filter.1 hq
    exact ⟨q, Table.get?_eq_some.2 ⟨hq, hid⟩, hwaits⟩

theorem mem_waitingOf {q : QueueEntry} :
    q ∈ waitingOf d u ↔ q ∈ d.queue.rows ∧ q.userId = u ∧ q.status = .waiting := by
  unfold waitingOf Table.select
  rw [List.mem_filter, decide_eq_true_eq]

theorem waitingOf_eq (hsingle : (waitingOf d u).length ≤ 1) {id : ℕ}
    (h : waits d (id, u) = true) : ∃ q, waitingOf d u = [q] ∧ q.id = id := by
  obtain ⟨q, hq, hid⟩ := waits_iff.1 h
  generalize waitingOf d u = entries at hsingle hq
  cases entries with
  | nil => cases hq
  | cons x entries =>
    cases entries with
    | nil => exact ⟨x, rfl, List.mem_singleton.1 hq ▸ hid⟩
    | cons y entries =>
      rw [List.length_cons, List.length_cons] at hsingle
      omega

theorem filter_map_ended {c p : QueueEntry → Bool} {g : QueueEntry → QueueEntry}
    (hdead : ∀ q, p (g q) = false) (qs : List QueueEntry) :
    (qs.map (fun q => if c q then g q else q)).filter p =
      (qs.filter p).filter (fun q => ¬ c q) := by
  induction qs with
  | nil => rfl
  | cons q qs ih =>
    rw [List.map_cons, List.filter_cons, List.filter_cons, ih]
    cases hc : c q with
    | true =>
      rw [if_pos rfl, hdead, if_neg (by decide)]
      split
      · rw [List.filter_cons_of_neg (by simp [hc])]
      · rfl
    | false =>
      rw [if_neg Bool.false_ne_true]
      split
      · rw [List.filter_cons_of_pos (by simp [hc])]
      · rfl

theorem waitingOf_landCancelled (d : Pools) (keys : List (ℕ × ℕ)) (now : Time) (u : ℕ) :
    waitingOf (landCancelled d keys now) u =
      (waitingOf d u).filter (fun q => ¬ entryKey q ∈ keys) := by
  have hrows := @filter_map_ended (fun q => entryKey q ∈ keys)
    (fun q => q.userId = u ∧ q.status = .waiting)
    (fun q => { q with status := .cancelled, leftAt := some now }) (fun q => by simp) d.queue.rows
  simpa [waitingOf, landCancelled, Table.select, Table.mapRows] using hrows

theorem waitingOf_landExpired (d : Pools) (keys : List (ℕ × ℕ)) (now : Time) (u : ℕ) :
    waitingOf (landExpired d keys now) u =
      (waitingOf d u).filter (fun q => ¬ entryKey q ∈ keys) := by
  have hrows := @filter_map_ended (fun q => entryKey q ∈ keys)
    (fun q => q.userId = u ∧ q.status = .waiting)
    (fun q => { q with status := .expired, leftAt := some now }) (fun q => by simp) d.queue.rows
  simpa [waitingOf, landExpired, Table.select, Table.mapRows] using hrows

theorem waitingOf_seatEntries (d : Pools) (rows : List QueueEntry) (pair : Pair) (id : ℕ)
    (now : Time) (u : ℕ) : waitingOf (seatEntries d rows pair id now) u =
      (waitingOf d u).filter (fun q => ¬ (some q.id = byUser rows pair.a.userXid ∨
        some q.id = byUser rows pair.b.userXid)) := by
  have hrows := @filter_map_ended
    (fun q => some q.id = byUser rows pair.a.userXid ∨ some q.id = byUser rows pair.b.userXid)
    (fun q => q.userId = u ∧ q.status = .waiting)
    (fun q => { q with status := .matched, matchedPairId := some id, leftAt := some now })
    (fun q => by simp) d.queue.rows
  simpa [waitingOf, seatEntries, Table.select, Table.mapRows] using hrows

/-! ## Commits -/

def Shrinks (d d' : Pools) : Prop := ∀ u, (waitingOf d' u).Sublist (waitingOf d u)

theorem Shrinks.trans {d₁ d₂ d₃ : Pools} (h : Shrinks d₁ d₂) (h' : Shrinks d₂ d₃) :
    Shrinks d₁ d₃ := fun u => (h' u).trans (h u)

theorem shrinks_of_queue (h : d'.queue = d.queue) : Shrinks d d' := by
  intro u
  unfold waitingOf
  rw [h]

theorem queue_createPair {pair : Pair} {origin : Origin} {slot : Option Slot} {id : ℕ}
    (h : createPair d pair origin slot now = .ok (d', id)) : d'.queue = d.queue := by
  unfold createPair at h
  rw [ite_throw_eq_ok] at h
  obtain ⟨_, _, h⟩ := bind_eq_ok.1 h.2
  obtain ⟨_, _, h⟩ := bind_eq_ok.1 h
  cases h
  rfl

def Unseated (rows : List QueueEntry) (pair : Pair) (id : ℕ) : Prop :=
  some id ≠ byUser rows pair.a.userXid ∧ some id ≠ byUser rows pair.b.userXid

theorem seated_pairs (h : pairs.foldlM (fun d pair => do
      let (d, pairId) ← createPair d pair .liveQueue none now
      return seatEntries d rows pair pairId now) d = .ok d') :
    Shrinks d d' ∧ ∀ pair ∈ pairs, ∀ u, ∀ q ∈ waitingOf d' u, Unseated rows pair q.id := by
  induction pairs generalizing d with
  | nil =>
    cases h
    exact ⟨fun _ => List.Sublist.refl _, fun _ hpair => by cases hpair⟩
  | cons pair pairs ih =>
    rw [List.foldlM_cons] at h
    obtain ⟨d₁, hfirst, h⟩ := bind_eq_ok.1 h
    obtain ⟨⟨d₂, id⟩, hcreate, hseated⟩ := bind_eq_ok.1 hfirst
    cases hseated
    obtain ⟨hrest, hunseated⟩ := ih h
    have hfirst : Shrinks d (seatEntries d₂ rows pair id now) := by
      refine (shrinks_of_queue (queue_createPair hcreate)).trans (fun u => ?_)
      rw [waitingOf_seatEntries]
      exact List.filter_sublist
    refine ⟨hfirst.trans hrest, fun other hother u q hq => ?_⟩
    rcases List.mem_cons.1 hother with rfl | hother
    · have hq := (hrest u).subset hq
      rw [waitingOf_seatEntries, List.mem_filter, decide_eq_true_eq, not_or] at hq
      exact hq.2
    · exact hunseated other hother u q hq

theorem ended_matched {expired : List (ℕ × ℕ)}
    (h : landMatched d now expired rows pairs = .ok d') :
    Shrinks d d' ∧ (∀ u, ∀ q ∈ waitingOf d' u, entryKey q ∉ expired) ∧
      ∀ pair ∈ pairs, ∀ u, ∀ q ∈ waitingOf d' u, Unseated rows pair q.id := by
  obtain ⟨hshrinks, hunseated⟩ := seated_pairs h
  have hexpired : Shrinks d (landExpired d expired now) := by
    intro u
    rw [waitingOf_landExpired]
    exact List.filter_sublist
  refine ⟨hexpired.trans hshrinks, fun u q hq => ?_, hunseated⟩
  have hq := (hshrinks u).subset hq
  rw [waitingOf_landExpired, List.mem_filter, decide_eq_true_eq] at hq
  exact hq.2

theorem waitingOf_landJoined {keys : List (ℕ × ℕ)} {entry : QueueEntry}
    (hstatus : entry.status = .waiting) (u : ℕ) :
    waitingOf (landJoined d keys now entry) u =
      (waitingOf d u).filter (fun q => ¬ entryKey q ∈ keys) ++
        if entry.userId = u then [{ entry with id := d.queue.nextId }] else [] := by
  have hfresh : (landCancelled d keys now).queue.get? d.queue.nextId = none := by
    unfold landCancelled
    dsimp only
    rw [Table.get?_mapRows, Table.get?_nextId]
    rfl
  rw [← waitingOf_landCancelled]
  unfold waitingOf landJoined
  dsimp only
  rw [Table.select_put_of_get?_eq_none hfresh]
  congr 1
  by_cases hu : entry.userId = u
  · simp [hu, hstatus]
  · simp [hu]

/-! ## Rows that a commit does not touch -/

theorem waits_mapRows {f : QueueEntry → QueueEntry} {hf : ∀ q, (f q).id = q.id}
    (hkept : ∀ q, entryKey q = key → f q = q) (h : waits d key = true) :
    waits { d with queue := d.queue.mapRows f hf } key = true := by
  unfold waits at h ⊢
  dsimp only
  rw [Option.any_eq_true] at h
  obtain ⟨q, hget, hwaits⟩ := h
  have hq : q.userId = key.2 ∧ q.status = .waiting := of_decide_eq_true hwaits
  have hkey : entryKey q = key := by
    unfold entryKey
    rw [Table.get?_key hget, hq.1]
  rw [Table.get?_mapRows, hget, Option.map_some, hkept q hkey, Option.any_some]
  exact hwaits

theorem waits_put {entry : QueueEntry} (hnew : entry.id ≠ key.1) (h : waits d key = true) :
    waits { d with queue := d.queue.put entry } key = true := by
  unfold waits at h ⊢
  dsimp only
  rwa [Table.get?_put_of_ne _ hnew]

theorem waits_of_queue (hqueue : d'.queue = d.queue) (h : waits d key = true) :
    waits d' key = true := by
  unfold waits at h ⊢
  rwa [hqueue]

theorem waits_landCancelled {keys : List (ℕ × ℕ)} (hkeys : key ∉ keys) (h : waits d key = true) :
    waits (landCancelled d keys now) key = true := by
  refine waits_mapRows (fun q hq => if_neg ?_) h
  rwa [hq]

theorem waits_landExpired {keys : List (ℕ × ℕ)} (hkeys : key ∉ keys) (h : waits d key = true) :
    waits (landExpired d keys now) key = true := by
  refine waits_mapRows (fun q hq => if_neg ?_) h
  rwa [hq]

theorem waits_landJoined {keys : List (ℕ × ℕ)} {entry : QueueEntry} (hkeys : key ∉ keys)
    (h : waits d key = true) : waits (landJoined d keys now entry) key = true := by
  refine waits_put ?_ (waits_landCancelled hkeys h)
  dsimp only
  intro heq
  have hnone := Table.get?_nextId d.queue
  unfold waits at h
  rw [heq] at hnone
  rw [hnone] at h
  cases h

theorem mem_of_byUser {xid : String} {id : ℕ} (h : byUser rows xid = some id) :
    ∃ r ∈ rows, r.id = id ∧ userXid r.userId = xid := by
  unfold byUser at h
  obtain ⟨r, hr, rfl⟩ := Option.map_eq_some_iff.1 h
  have hmem := List.mem_of_find?_eq_some hr
  have hxid := List.find?_some hr
  exact ⟨r, List.mem_reverse.1 hmem, rfl, by simpa using hxid⟩

theorem waits_foldlM (hrows : ∀ r ∈ rows, r.id ≠ key.1) (h : waits d key = true)
    (hfold : pairs.foldlM (fun d pair => do
      let (d, pairId) ← createPair d pair .liveQueue none now
      return seatEntries d rows pair pairId now) d = .ok d') : waits d' key = true := by
  apply foldlM_invariant (fun d => waits d key = true) hfold h
  intro d₁ hd₁ pair _ d₂ hstep
  obtain ⟨⟨d₃, id⟩, hcreate, hseated⟩ := bind_eq_ok.1 hstep
  cases hseated
  refine waits_mapRows (fun q hq => if_neg ?_) (waits_of_queue (queue_createPair hcreate) hd₁)
  have hid : q.id = key.1 := congrArg Prod.fst hq
  have hother : ∀ xid, some q.id ≠ byUser rows xid := by
    intro xid heq
    obtain ⟨r, hr, hrid, _⟩ := mem_of_byUser heq.symm
    exact hrows r hr (hrid.trans hid)
  exact not_or.2 ⟨hother _, hother _⟩

theorem waits_writes {a : Answer} (h : Writes d p d' a)
    (howned : ∀ k ∈ owned p, waits d k = true) (hkey : key ∉ owned p) (hw : waits d key = true) :
    waits d' key = true := by
  cases h with
  | left => exact waits_landCancelled hkey hw
  | queued => exact waits_landJoined hkey hw
  | other tables => exact waits_of_queue rfl hw
  | matched now expired rows pairs d' hlanded =>
    have hexpired : key ∉ expired := fun h => hkey (List.mem_append_left _ h)
    refine waits_foldlM (fun r hr heq => ?_) (waits_landExpired hexpired hw) hlanded
    have hmem : entryKey r ∈ owned (.closing now expired rows pairs) :=
      List.mem_append_right _ (List.mem_map_of_mem hr)
    -- the row of that id has one user, so the two keys are one
    have hsame : entryKey r = key := by
      have hr := howned _ hmem
      unfold waits at hr hw
      rw [Option.any_eq_true] at hr hw
      obtain ⟨q, hq, hquser⟩ := hr
      obtain ⟨q', hq', hquser'⟩ := hw
      rw [← heq] at hq'
      cases hq.symm.trans hq'
      rw [decide_eq_true_eq] at hquser hquser'
      exact Prod.ext heq (hquser.1.symm.trans hquser'.1)
    exact hkey (hsame ▸ hmem)

/-! ## The invariant -/

def xids (rows : List QueueEntry) : List String := rows.map (fun q => userXid q.userId)

def Fits : Phase → Prop
  | .inserted _ _ _ entry | .counted _ _ _ entry _ => entry.status = .waiting
  | .queued _ _ j => j.entry.status = .waiting
  | .loading _ _ rows rest read => (rows.map QueueEntry.userId).Nodup ∧
    read.map Candidate.userXid ++ rest.map (fun r => userXid r.1.userId) = xids rows
  | .closing _ _ rows pairs => ((pairs.flatMap Pair.members).map Candidate.userXid).Nodup ∧
    ∀ c ∈ pairs.flatMap Pair.members, c.userXid ∈ xids rows
  | _ => True

structure Inv (s : Sys) : Prop where
  single : ∀ u, (waitingOf s.store u).length ≤ 1
  locked : Locked program s
  holds : ∀ r, ∀ k ∈ owned (s.requests r).phase, waits s.store k = true
  fits : ∀ r, Fits (s.requests r).phase

theorem userXid_injective : Function.Injective userXid := by
  intro u v h
  have hu := PairSafety.idOf_userXid u
  rw [h, PairSafety.idOf_userXid v] at hu
  exact (Except.ok.inj hu).symm

theorem nodup_waiting (h : ∀ u, (waitingOf d u).length ≤ 1) :
    ((waiting d).map QueueEntry.userId).Nodup := by
  unfold waiting
  rw [((List.perm_insertionSort _ _).map QueueEntry.userId).nodup_iff, List.nodup_iff_count_le_one]
  intro u
  have hu := h u
  unfold waitingOf at hu
  unfold Table.select at hu ⊢
  rw [List.count_eq_countP, List.countP_map, List.countP_eq_length_filter, List.filter_filter]
  refine le_trans (le_of_eq (congrArg List.length (List.filter_congr (fun q _ => ?_)))) hu
  simp [Bool.beq_eq_decide_eq]

theorem taken_sublist (d : Pools) (expired : List (ℕ × ℕ)) (ids : List ℕ) :
    ((taken d expired ids).map Prod.fst).Sublist (waiting d) := by
  have hjoined : ∀ qs : List QueueEntry,
      ((joined d QueueEntry.userId qs).map Prod.fst).Sublist qs := by
    intro qs
    unfold joined
    induction qs with
    | nil => exact List.Sublist.refl _
    | cons q qs ih =>
      cases hu : d.users.get? q.userId with
      | none =>
        rw [List.filterMap_cons_none (by rw [hu]; rfl)]
        exact ih.cons q
      | some account =>
        rw [List.filterMap_cons_some (by rw [hu]; rfl)]
        exact ih.cons_cons q
  exact (hjoined _).trans List.filter_sublist

theorem waits_taken {expired : List (ℕ × ℕ)} {ids : List ℕ} {q : QueueEntry}
    (h : q ∈ (taken d expired ids).map Prod.fst) : waits d (entryKey q) = true := by
  have hq := (taken_sublist d expired ids).subset h
  unfold waiting at hq
  rw [List.mem_insertionSort] at hq
  obtain ⟨hq, hstatus⟩ := List.mem_filter.1 hq
  exact waits_iff.2 ⟨q, mem_waitingOf.2 ⟨hq, rfl, of_decide_eq_true hstatus⟩, rfl⟩

theorem waits_locks {p' : Phase} {keys : List (ℕ × ℕ)} (h : Locks d p p' keys) :
    ∀ k ∈ keys, waits d k = true := by
  intro k hk
  cases h with
  | cancels a now key todo cancelled huser hstill => exact List.mem_singleton.1 hk ▸ hstill
  | expires now key todo expired hstill =>
    rw [List.mem_singleton.1 hk]
    unfold overdue at hstill
    unfold waits
    rw [Option.any_eq_true] at hstill ⊢
    obtain ⟨q, hq, hdue⟩ := hstill
    have hdue := of_decide_eq_true hdue
    have hwaiting : q.status = .waiting := (of_decide_eq_true hdue.2).1
    exact ⟨q, hq, decide_eq_true ⟨hdue.1, hwaiting⟩⟩
  | selects now expired ids =>
    obtain ⟨r, hr, rfl⟩ := List.mem_map.1 hk
    exact waits_taken (List.mem_map_of_mem hr)
  | alone now expired ids =>
    obtain ⟨r, hr, rfl⟩ := List.mem_map.1 hk
    exact waits_taken (List.mem_map_of_mem hr)

theorem fits_reads {p' : Phase} (h : Reads d p p') (hp : Fits p) : Fits p' := by
  cases h with
  | inserted a now cancelled entry hstatus => exact hstatus
  | counted => exact hp
  | queued a now cancelled entry pool j hsame =>
    change j.entry.status = .waiting
    rw [hsame]
    exact hp
  | candidate now expired rows row rest read =>
    refine ⟨hp.1, ?_⟩
    rw [← hp.2, List.map_append, List.append_assoc]
    rfl
  | paired now expired rows read outcome hmade =>
    obtain ⟨hnodup, hread⟩ := hp
    rw [List.map_nil, List.append_nil] at hread
    have hdistinct : (read.map Candidate.userXid).Nodup := by
      have hxids : xids rows = (rows.map QueueEntry.userId).map userXid :=
        (List.map_map ..).symm
      rw [hread, hxids]
      exact hnodup.map userXid_injective
    have hmade : outcome = outcomeOf read true := by
      unfold matched at hmade
      rw [matchCandidates_eq hdistinct] at hmade
      exact (Except.ok.inj hmade).symm
    have hplaces : (outcome.pairs.flatMap Pair.members ++ outcome.unmatched).Perm read := by
      rw [hmade]
      exact (wellMatched_outcomeOf hdistinct).places
    refine ⟨?_, fun c hc => ?_⟩
    · have hall := ((hplaces.map Candidate.userXid).nodup_iff).2 hdistinct
      rw [List.map_append] at hall
      exact hall.of_append_left
    · rw [← hread]
      exact List.mem_map_of_mem (hplaces.subset (List.mem_append_left _ hc))
  | _ => exact trivial

theorem fits_locks {p' : Phase} {keys : List (ℕ × ℕ)} (hsingle : ∀ u, (waitingOf d u).length ≤ 1)
    (h : Locks d p p' keys) : Fits p' := by
  cases h with
  | selects now expired ids =>
    refine ⟨((taken_sublist d expired ids).map _).nodup (nodup_waiting hsingle), ?_⟩
    unfold xids
    rw [List.map_map]
    rfl
  | alone => exact ⟨List.nodup_nil, fun c hc => by cases hc⟩
  | _ => exact trivial

theorem fits_next {q : Request} {act : Act} {m : Moved} (hsingle : ∀ u, (waitingOf d u).length ≤ 1)
    (h : next d q act = some m) (hq : Fits q.phase) : Fits m.phase.phase := by
  cases next_cases h with
  | refused a => exact trivial
  | reads p hp => exact fits_reads hp hq
  | locks p keys hp => exact fits_locks hsingle hp
  | commits d' a hact hp => exact trivial

/-! ## What a step keeps -/

theorem holds_step (hs : Inv s) (h : Step program s i t) (r : ℕ) :
    ∀ k ∈ owned (t.requests r).phase, waits t.store k = true := by
  intro k hk
  by_cases hr : r = i.1
  · subst hr
    obtain ⟨m, hnext, hmoved, hstore⟩ := step_moved h
    rw [hmoved] at hk
    rw [hstore]
    cases next_cases hnext with
    | reads p hp => exact hs.holds _ k (owned_reads hp k hk)
    | locks p keys hp =>
      rcases owned_locks hp k hk with hk | hk
      · exact hs.holds _ k hk
      · exact waits_locks hp k hk
    | _ => cases hk
  · rw [requests_of_ne h hr] at hk
    have hw := hs.holds r k hk
    have hother : k ∉ owned (s.requests i.1).phase := fun hk' => hr (hs.locked.unique hk hk')
    refine database_step h hw (fun d p hnext => ?_)
    cases next_cases hnext with
    | commits d' a hact hwrites => exact waits_writes hwrites (hs.holds i.1) hother hw

theorem single_writes {a : Answer} (hsingle : ∀ u, (waitingOf d u).length ≤ 1)
    (hfits : Fits p) (h : Writes d p d' a)
    (hjoin : ∀ now cancelled j, p = .queued now cancelled j →
      ∀ q ∈ waitingOf d j.entry.userId, entryKey q ∈ cancelled) :
    ∀ u, (waitingOf d' u).length ≤ 1 := by
  intro u
  cases h with
  | left v now cancelled =>
    rw [waitingOf_landCancelled]
    exact (List.length_filter_le _ _).trans (hsingle u)
  | queued now cancelled j =>
    have hfits : j.entry.status = .waiting := hfits
    rw [waitingOf_landJoined hfits, List.length_append]
    by_cases hu : j.entry.userId = u
    · have hnone : (waitingOf d u).filter (fun q => ¬ entryKey q ∈ cancelled) = [] := by
        rw [← hu]
        refine List.filter_eq_nil_iff.2 (fun q hq => ?_)
        simpa using hjoin now cancelled j rfl q hq
      rw [hnone, if_pos hu]
      exact le_rfl
    · rw [if_neg hu]
      exact (List.length_filter_le _ _).trans (hsingle u)
  | matched now expired rows pairs d' hlanded =>
    exact ((ended_matched hlanded).1 u).length_le.trans (hsingle u)
  | other tables => exact hsingle u

theorem meets_queued (hg : Meets s i) {cancelled : List (ℕ × ℕ)} {j : Joined}
    (hphase : (s.requests i.1).phase = .queued now cancelled j) (hact : i.2 = .commit) :
    ∀ q ∈ waitingOf s.store j.entry.userId, entryKey q ∈ cancelled := by
  unfold Meets meets at hg
  rw [hphase, hact] at hg
  exact fun q hq => of_decide_eq_true (List.all_eq_true.1 hg q hq)

theorem meets_left (hg : Meets s i) {cancelled : List (ℕ × ℕ)}
    (hphase : (s.requests i.1).phase = .left u now cancelled) (hact : i.2 = .commit) :
    ∀ q ∈ waitingOf s.store u, entryKey q ∈ cancelled := by
  unfold Meets meets at hg
  rw [hphase, hact] at hg
  exact fun q hq => of_decide_eq_true (List.all_eq_true.1 hg q hq)

theorem single_step (hs : Inv s) (hg : Meets s i) (h : Step program s i t) :
    ∀ u, (waitingOf t.store u).length ≤ 1 := by
  refine database_step h hs.single (fun d p hnext => ?_)
  cases next_cases hnext with
  | commits d' a hact hwrites =>
    exact single_writes hs.single (hs.fits i.1) hwrites
      (fun _ _ _ hphase => meets_queued hg hphase hact)

theorem inv_step (hs : Inv s) (hg : Meets s i) (h : Step program s i t) : Inv t where
  single := single_step hs hg h
  locked := locked_step hs.locked h
  holds := holds_step hs h
  fits r := phase_step (C := fun q => Fits q.phase) h (hs.fits r)
    (fun _ _ hnext => fits_next hs.single hnext (hs.fits r))

theorem inv_start (d : Pools) (calls : ℕ → QueueRequests.Call) : Inv (start d calls) where
  single _ := Nat.zero_le _
  locked := locked_start (fun _ => rfl)
  holds _ k hk := by cases hk
  fits _ := trivial

theorem inv_runs {is : List (ℕ × Act)} (hs : Inv s) (hrun : Runs (Step program) Meets s is t) :
    Inv t := hrun.invariant (fun _ _ _ hs hg hi => inv_step hs hg hi) hs

/-! ## What a step promises -/

theorem mem_xids : userXid u ∈ xids rows ↔ u ∈ rows.map QueueEntry.userId := by
  unfold xids
  rw [List.mem_map, List.mem_map]
  exact exists_congr (fun q => and_congr_right (fun _ => userXid_injective.eq_iff))

theorem exists_byUser (h : userXid u ∈ xids rows) :
    ∃ r ∈ rows, r.userId = u ∧ byUser rows (userXid u) = some r.id := by
  obtain ⟨q, hq, rfl⟩ := List.mem_map.1 (mem_xids.1 h)
  have hsome : (rows.reverse.find? (fun r => userXid r.userId = userXid q.userId)).isSome := by
    rw [List.find?_isSome]
    exact ⟨q, List.mem_reverse.2 hq, by simp⟩
  obtain ⟨r, hr⟩ := Option.isSome_iff_exists.1 hsome
  have hbyUser : byUser rows (userXid q.userId) = some r.id := by
    unfold byUser
    rw [hr]
    rfl
  obtain ⟨r', hr', hid, hxid⟩ := mem_of_byUser hbyUser
  exact ⟨r', hr', userXid_injective hxid, by rw [hbyUser, hid]⟩

theorem waits_of_paired {expired : List (ℕ × ℕ)} (hfits : Fits (.closing now expired rows pairs))
    (howned : ∀ k ∈ owned (.closing now expired rows pairs), waits d k = true)
    (h : Paired pairs u) : ∃ id, waits d (id, u) = true ∧
      ∃ pair ∈ pairs,
        some id = byUser rows pair.a.userXid ∨ some id = byUser rows pair.b.userXid := by
  obtain ⟨pair, hpair, hside⟩ := h
  have hmem : userXid u ∈ xids rows := by
    rcases hside with hside | hside
    · rw [← hside]
      exact hfits.2 pair.a (List.mem_flatMap.2 ⟨pair, hpair, List.mem_cons_self⟩)
    · rw [← hside]
      exact hfits.2 pair.b
        (List.mem_flatMap.2 ⟨pair, hpair, List.mem_cons_of_mem _ List.mem_cons_self⟩)
  obtain ⟨r, hr, huser, hbyUser⟩ := exists_byUser hmem
  have hkey := howned (entryKey r) (List.mem_append_right _ (List.mem_map_of_mem hr))
  unfold entryKey at hkey
  rw [huser] at hkey
  refine ⟨r.id, hkey, pair, hpair, ?_⟩
  rcases hside with hside | hside
  · exact .inl (by rw [hside, hbyUser])
  · exact .inr (by rw [hside, hbyUser])

theorem waitingOf_eq_nil {id : ℕ} (hsingle : (waitingOf d u).length ≤ 1)
    (hw : waits d (id, u) = true) (hshrinks : (waitingOf d' u).Sublist (waitingOf d u))
    (hgone : ∀ q ∈ waitingOf d' u, q.id ≠ id) : waitingOf d' u = [] := by
  obtain ⟨q, hq, hid⟩ := waitingOf_eq hsingle hw
  rw [List.eq_nil_iff_forall_not_mem]
  intro x hx
  have hmem := hshrinks.subset hx
  rw [hq] at hmem
  rw [List.mem_singleton.1 hmem] at hx
  exact hgone q hx hid

theorem ended_closing {expired : List (ℕ × ℕ)} (hs : ∀ u, (waitingOf d u).length ≤ 1)
    (hfits : Fits (.closing now expired rows pairs))
    (howned : ∀ k ∈ owned (.closing now expired rows pairs), waits d k = true)
    (hlanded : landMatched d now expired rows pairs = .ok d')
    (h : Ends (.closing now expired rows pairs) u) : waitingOf d' u = [] := by
  obtain ⟨hshrinks, hexpired, hseated⟩ := ended_matched hlanded
  cases h with
  | expired _ _ _ _ key hkey =>
    have hw := howned key (List.mem_append_left _ hkey)
    refine waitingOf_eq_nil (hs key.2) hw (hshrinks key.2) (fun q hq hid => ?_)
    have huser := (mem_waitingOf.1 hq).2.1
    exact hexpired key.2 q hq ((Prod.ext hid huser : entryKey q = key) ▸ hkey)
  | matched _ _ _ _ _ hpaired =>
    obtain ⟨id, hw, pair, hpair, hside⟩ := waits_of_paired hfits howned hpaired
    refine waitingOf_eq_nil (hs u) hw (hshrinks u) (fun q hq hid => ?_)
    have hfree := hseated pair hpair u q hq
    rw [hid] at hfree
    rcases hside with hside | hside
    · exact hfree.1 hside
    · exact hfree.2 hside

theorem store_of_commits (h : Step program s i t) (hc : Commits s i) :
    i.2 = .commit ∧ ∃ a, Writes s.store (s.requests i.1).phase t.store a := by
  obtain ⟨d, q, hnext⟩ := hc
  rw [store_of_next h hnext]
  cases next_cases hnext with
  | commits d' a hact hwrites => exact ⟨hact, a, hwrites⟩

theorem ended_writes {a : Answer} (hsingle : ∀ u, (waitingOf d u).length ≤ 1) (hfits : Fits p)
    (howned : ∀ k ∈ owned p, waits d k = true)
    (hleft : ∀ now cancelled, p = .left u now cancelled →
      ∀ q ∈ waitingOf d u, entryKey q ∈ cancelled)
    (h : Writes d p d' a) (hends : Ends p u) : waitingOf d' u = [] := by
  cases h with
  | left v now cancelled =>
    cases hends
    rw [waitingOf_landCancelled]
    exact List.filter_eq_nil_iff.2 (fun q hq => by simpa using hleft now cancelled rfl q hq)
  | matched now expired rows pairs d' hlanded =>
    exact ended_closing hsingle hfits howned hlanded hends
  | queued => cases hends
  | other => cases hends

theorem ended_step (hs : Inv s) (hg : Meets s i) (h : Step program s i t) (hc : Commits s i)
    (hends : Ends (s.requests i.1).phase u) : waitingOf t.store u = [] := by
  obtain ⟨hact, a, hwrites⟩ := store_of_commits h hc
  exact ended_writes hs.single (hs.fits i.1) (hs.holds i.1)
    (fun _ _ hphase => meets_left hg hphase hact) hwrites hends

theorem keeps_of_meets (hs : Inv s) (hg : Meets s i) (h : Step program s i t) : Keeps s i t where
  single := single_step hs hg h
  ended _ hc hends := ended_step hs hg h hc hends

theorem meets_of_keeps (hs : Inv s) (h : Step program s i t) (hk : Keeps s i t) : Meets s i := by
  have hstore : ∀ d q, next s.store (s.requests i.1) i.2 = some (.commits d q) → t.store = d :=
    fun _ _ => store_of_next h
  unfold Meets meets
  split
  · next u now cancelled hphase hact =>
    have hnext : next s.store (s.requests i.1) i.2 = some (.commits
        (landCancelled s.store cancelled now)
        { s.requests i.1 with phase := .done .noContent }) := by
      unfold next
      rw [hphase, hact]
    have hended := hk.ended u ⟨_, _, hnext⟩ (hphase ▸ .left u now cancelled)
    rw [hstore _ _ hnext, waitingOf_landCancelled, List.filter_eq_nil_iff] at hended
    exact List.all_eq_true.2 (fun q hq => by simpa using hended q hq)
  · next now cancelled j hphase hact =>
    have hnext : next s.store (s.requests i.1) i.2 = some (.commits
        (landJoined s.store cancelled now j.entry)
        { s.requests i.1 with phase := .done (.joined j) }) := by
      unfold next
      rw [hphase, hact]
    have hfits := hs.fits i.1
    rw [hphase] at hfits
    have hsingle := hk.single j.entry.userId
    rw [hstore _ _ hnext, waitingOf_landJoined hfits, if_pos rfl, List.length_append,
      List.length_singleton] at hsingle
    have hnone : (waitingOf s.store j.entry.userId).filter
        (fun q => ¬ entryKey q ∈ cancelled) = [] :=
      List.eq_nil_of_length_eq_zero (by omega)
    rw [List.filter_eq_nil_iff] at hnone
    exact List.all_eq_true.2 (fun q hq => by simpa using hnone q hq)
  · rfl

theorem idle_writes {a : Answer} (hfits : Fits p) (h : Writes d p d' a) (hjoin : ¬ Joins p u)
    (hu : waitingOf d u = []) : waitingOf d' u = [] := by
  cases h with
  | left v now cancelled =>
    rw [waitingOf_landCancelled, hu]
    rfl
  | queued now cancelled j =>
    have hfits : j.entry.status = .waiting := hfits
    have hother : j.entry.userId ≠ u := by
      rintro rfl
      exact hjoin (.queued now cancelled j)
    rw [waitingOf_landJoined hfits, hu, if_neg hother]
    rfl
  | matched now expired rows pairs d' hlanded =>
    have hsublist := (ended_matched hlanded).1 u
    rw [hu] at hsublist
    exact List.sublist_nil.1 hsublist
  | other tables => exact hu

theorem idle_step (hs : Inv s) (h : Step program s i t)
    (hjoin : ¬ (Commits s i ∧ Joins (s.requests i.1).phase u)) (hu : waitingOf s.store u = []) :
    waitingOf t.store u = [] := by
  refine database_step h hu (fun d p hnext => ?_)
  cases next_cases hnext with
  | commits d' a hact hwrites =>
    exact idle_writes (hs.fits i.1) hwrites (fun hj => hjoin ⟨⟨_, _, hnext⟩, hj⟩) hu

theorem idle_runs {js : List (ℕ × Act)} (hs : Inv s) (hu : waitingOf s.store u = [])
    (hrun : Runs (Step program) (fun x k => Meets x k ∧
      ¬ (Commits x k ∧ Joins (x.requests k.1).phase u)) s js v) :
    Inv v ∧ waitingOf v.store u = [] :=
  hrun.invariant (I := fun x => Inv x ∧ waitingOf x.store u = [])
    (fun _ _ _ hx hg hk => ⟨inv_step hx.1 hg.1 hk, idle_step hx.1 hk hg.2 hx.2⟩) ⟨hs, hu⟩

theorem not_matches_of_idle (hs : Inv s) (hu : waitingOf s.store u = []) (r : ℕ) :
    ¬ Matches (s.requests r).phase u := by
  have hfits := hs.fits r
  have howned := hs.holds r
  generalize (s.requests r).phase = p at hfits howned
  rintro ⟨now, expired, rows, pairs, _, hpaired⟩
  obtain ⟨id, hw, _⟩ := waits_of_paired hfits howned hpaired
  obtain ⟨q, hq, _⟩ := waits_iff.1 hw
  rw [hu] at hq
  cases hq

/-- In a run within the guard a user waits in one entry at most. A further step is within the guard
exactly where that stays so and a place that it ends is gone. A match has nobody twice, and whose
place has ended is not matched in a later state of the run, unless by then they have joined. -/
theorem one_place (d : Pools) (calls : ℕ → QueueRequests.Call) {is : List (ℕ × Act)}
    (hrun : Runs (Step program) Meets (start d calls) is s) :
    (∀ u, (waitingOf s.store u).length ≤ 1) ∧ ∀ i t, Step program s i t →
      (Meets s i ↔ Keeps s i t) ∧
      (∀ now expired rows pairs, (s.requests i.1).phase = .closing now expired rows pairs →
        ((pairs.flatMap Pair.members).map Candidate.userXid).Nodup) ∧
      (Meets s i → Commits s i → ∀ u, Ends (s.requests i.1).phase u → ∀ js v,
        Runs (Step program) (fun x k => Meets x k ∧
          ¬ (Commits x k ∧ Joins (x.requests k.1).phase u)) t js v →
        ∀ r, ¬ Matches (v.requests r).phase u) := by
  have hs := inv_runs (inv_start d calls) hrun
  refine ⟨hs.single, fun i t h => ⟨⟨fun hg => keeps_of_meets hs hg h, meets_of_keeps hs h⟩, ?_, ?_⟩⟩
  · intro now expired rows pairs hphase
    have hfits := hs.fits i.1
    rw [hphase] at hfits
    exact hfits.1
  · intro hg hc u hends js v hlater r
    obtain ⟨hv, hu⟩ := idle_runs (inv_step hs hg h) (ended_step hs hg h hc hends) hlater
    exact not_matches_of_idle hv hu r

/-! ## A double click -/

def samplePools : Pools where
  users := ⟨[{ id := 1, xid := "u1", adultAt := 0 }, { id := 2, xid := "u2", adultAt := 0 },
    { id := 3, xid := "u3", adultAt := 0 }], by decide⟩

def sampleCalls : ℕ → QueueRequests.Call
  | 0 => .join 1 {}
  | 1 => .join 1 {}
  | 2 => .join 2 {}
  | 3 => .matchQueue
  | 4 => .join 3 {}
  | 5 => .matchQueue
  | _ => .leave 1

def sample : Sys := start samplePools sampleCalls

def steps (r : ℕ) (acts : List Act) : List (ℕ × Act) := acts.map (fun act => (r, act))

def untilQueued : List Act := [.enter 1, .find, .insert, .pool, .suggest]

def joining (r : ℕ) : List (ℕ × Act) := steps r (untilQueued ++ [.commit])

def matching (r : ℕ) (ids : List ℕ) (n : ℕ) : List (ℕ × Act) :=
  steps r ([.enter 1, .select ids] ++ List.replicate n .candidate ++ [.pair, .commit])

theorem one_place_once : ∃ s, Runs (Step program) Meets sample (joining 0) s ∧
    ((∀ u, (waitingOf s.store u).length ≤ 1) ∧ ∀ i t, Step program s i t →
      (Meets s i ↔ Keeps s i t) ∧
      (∀ now expired rows pairs, (s.requests i.1).phase = .closing now expired rows pairs →
        ((pairs.flatMap Pair.members).map Candidate.userXid).Nodup) ∧
      (Meets s i → Commits s i → ∀ u, Ends (s.requests i.1).phase u → ∀ js v,
        Runs (Step program) (fun x k => Meets x k ∧
          ¬ (Commits x k ∧ Joins (x.requests k.1).phase u)) t js v →
        ∀ r, ¬ Matches (v.requests r).phase u)) := by
  have h : (follow (step program) Meets (joining 0) sample).isSome = true := by decide +kernel
  obtain ⟨s, hs⟩ := Option.isSome_iff_exists.1 h
  have hrun := runs_of_follow hs
  exact ⟨s, hrun, one_place samplePools sampleCalls hrun⟩

def twice : List (ℕ × Act) :=
  steps 0 untilQueued ++ steps 1 untilQueued ++ [(0, .commit), (1, .commit)]

def seated : List (ℕ × Act) := twice ++ joining 2 ++ matching 3 [1, 2, 3] 3

def Reaches (is : List (ℕ × Act)) (test : Sys → Bool) : Prop :=
  ∃ s, Any (Step program) sample is s ∧ test s = true

theorem reaches_of_follow {is : List (ℕ × Act)} {test : Sys → Bool}
    (h : (follow (step program) (fun _ _ => True) is sample).any test = true) :
    Reaches is test := by
  obtain ⟨s, hs, htest⟩ := (Option.any_eq_true _ _).1 h
  exact ⟨s, runs_of_follow hs, htest⟩

/-- A user clicks twice and waits in two entries. Matched in one of them, they are matched again in
the other, with somebody else. -/
theorem ghost_matched :
    Reaches twice (fun s => (waitingOf s.store 1).length = 2) ∧
    Reaches (seated ++ joining 4 ++ matching 5 [1, 2, 3, 4] 2) (fun s =>
      s.store.pairs.rows.map (fun p => (p.userA, p.userB)) = [(1, 2), (1, 3)]) :=
  ⟨reaches_of_follow (by decide +kernel), reaches_of_follow (by decide +kernel)⟩

end IeltsHub.QueuePlaces
