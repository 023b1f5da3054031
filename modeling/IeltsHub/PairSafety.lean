import IeltsHub.MatcherSafety
import IeltsHub.SpeakingService

set_option autoImplicit false

/-!
# Who is put in one call

What the matcher guarantees of candidates is a guarantee about people only as far as the loaders
are honest. They are about ages, blocks, bookings and the queue; they do not look at the status of
an account.
-/
namespace IeltsHub.PairSafety
open PyExc PyTime RowTable SpeakingMatching SpeakingPools SpeakingService GuardedRuns

variable {d d' : Pools} {now : Time} {pair : Pair} {p : SpeakingPair}

def CheckedIn (d : Pools) (slotId userId : ℕ) : Prop :=
  ∃ b ∈ d.bookings.rows, b.slotId = slotId ∧ b.userId = userId ∧ b.cancelledAt = none ∧
    b.checkedInAt ≠ none

def Waits (d : Pools) (now : Time) (x : QueueEntry) (userId : ℕ) : Prop :=
  x ∈ d.queue.rows ∧ x.userId = userId ∧ x.status = .waiting ∧ now - queueTtl ≤ x.joinedAt

/-- Who asks for their own centre is with somebody of that centre. -/
def WishMet (x y : QueueEntry) : Prop :=
  x.orgOnly = true ∨ y.orgOnly = true → ∃ o, x.orgId = some o ∧ y.orgId = some o

def Entitled (d : Pools) (now : Time) (p : SpeakingPair) : Prop :=
  match p.origin with
  | .slotBatch => ∃ slotId, p.slotId = some slotId ∧ CheckedIn d slotId p.userA ∧
      CheckedIn d slotId p.userB
  | .liveQueue => ∃ x y, Waits d now x p.userA ∧ Waits d now y p.userB ∧ x.language = y.language ∧
      WishMet x y

/-- What holds of every pair when it is written. -/
structure Safe (d : Pools) (now : Time) (p : SpeakingPair) : Prop where
  differ : p.userA ≠ p.userB
  age : ∃ a b, d.users.get? p.userA = some a ∧ d.users.get? p.userB = some b ∧
    a.isMinor now = b.isMinor now
  unblocked : (p.userA, p.userB) ∉ d.blocks ∧ (p.userB, p.userA) ∉ d.blocks
  entitled : Entitled d now p

def Active (d : Pools) (userId : ℕ) : Prop :=
  ∀ u, d.users.get? userId = some u → u.status = .active ∧ u.deletedAt = none

def WrittenBy (P : Pools → Time → SpeakingPair → Prop) (d : Pools) (p : SpeakingPair) : Event → Prop
  | .matchSlot _ now => P d now p
  | .matchQueue now => P d now p
  | _ => False

def Guard (d : Pools) : Event → Prop
  | .matchSlot slotId _ => ∀ userId, CheckedIn d slotId userId → Active d userId
  | .matchQueue now => ∀ x userId, Waits d now x userId → Active d userId
  | _ => True

/-! ## What a run of the matcher writes -/

theorem idOf_userXid (id : ℕ) : idOf (userXid id) = .ok id := by
  have hlist : (userXid id).toList = Nat.toDigits 10 id := Nat.toList_repr
  have hdigits : (Nat.toDigits 10 id).all Char.isDigit = true := by
    rw [List.all_eq_true]
    exact fun c hc => Nat.isDigit_of_mem_toDigits (by decide) (by decide) hc
  unfold idOf
  rw [hlist, if_pos ⟨Nat.toDigits_ne_nil, hdigits⟩, Nat.ofDigitChars_ten_toDigits]

/-- The row that is written for a pair of the outcome. -/
structure WrittenFor (origin : Origin) (slot : Option Slot) (pair : Pair) (p : SpeakingPair) :
    Prop where
  origin : p.origin = origin
  slot : p.slotId = slot.map Slot.id
  a : idOf pair.a.userXid = .ok p.userA
  b : idOf pair.b.userXid = .ok p.userB

theorem createPair_eq_ok {origin : Origin} {slot : Option Slot} {id : ℕ}
    (h : createPair d pair origin slot now = .ok (d', id)) :
    ∃ row, WrittenFor origin slot pair row ∧ d'.pairs.rows = d.pairs.rows ++ [row] := by
  unfold createPair at h
  split at h
  · cases h
  · obtain ⟨a, ha, h⟩ := bind_eq_ok.1 h
    obtain ⟨b, hb, h⟩ := bind_eq_ok.1 h
    cases h
    refine ⟨{
        id := d.pairs.nextId
        slotId := slot.map Slot.id
        origin
        userA := a
        userB := b
        ageBand := pairBand pair.ageBand
        matchedAt := now }, ⟨rfl, rfl, ha, hb⟩, ?_⟩
    apply Table.rows_put_of_get?_eq_none
    exact Table.get?_nextId _

theorem mem_of_foldlM {origin : Origin} {slot : Option Slot} {seat : Pools → Pair → ℕ → Pools}
    (hseat : ∀ d pair id, (seat d pair id).pairs = d.pairs) {pairs : List Pair}
    (h : pairs.foldlM (fun d pair => do
      let (d, pairId) ← createPair d pair origin slot now
      return seat d pair pairId) d = .ok d') (hp : p ∈ d'.pairs.rows) :
    p ∈ d.pairs.rows ∨ ∃ pair ∈ pairs, WrittenFor origin slot pair p := by
  induction pairs generalizing d with
  | nil =>
    cases h
    exact .inl hp
  | cons pair pairs ih =>
    rw [List.foldlM_cons] at h
    obtain ⟨d₁, hfirst, h⟩ := bind_eq_ok.1 h
    obtain ⟨⟨d₂, id⟩, hcreate, hseated⟩ := bind_eq_ok.1 hfirst
    cases hseated
    rcases ih h with hp | ⟨other, hother, hwritten⟩
    · rw [hseat] at hp
      obtain ⟨row, hrow, hrows⟩ := createPair_eq_ok hcreate
      rw [hrows, List.mem_append, List.mem_singleton] at hp
      rcases hp with hp | rfl
      · exact .inl hp
      · exact .inr ⟨pair, List.mem_cons_self, hrow⟩
    · exact .inr ⟨other, List.mem_cons_of_mem _ hother, hwritten⟩

/-! ## Candidates -/

theorem mem_joined {ρ : Type} {userId : ρ → ℕ} {rows : List ρ} {x : ρ × Account} :
    x ∈ joined d userId rows ↔ x.1 ∈ rows ∧ d.users.get? (userId x.1) = some x.2 := by
  unfold joined
  simp only [List.mem_filterMap, Option.map_eq_some_iff]
  constructor
  · rintro ⟨r, hr, u, hu, rfl⟩
    exact ⟨hr, hu⟩
  · rintro ⟨hr, hu⟩
    exact ⟨x.1, hr, x.2, hu, rfl⟩

theorem mem_blocked {userId other : ℕ} (h : (userId, other) ∈ d.blocks ∨ (other, userId) ∈ d.blocks) :
    userXid other ∈ blocked d userId := by
  unfold blocked
  rw [List.mem_toFinset, List.mem_append, List.mem_map, List.mem_map]
  rcases h with h | h
  · exact .inl ⟨(userId, other), List.mem_filter.2 ⟨h, by simp⟩, rfl⟩
  · exact .inr ⟨(other, userId), List.mem_filter.2 ⟨h, by simp⟩, rfl⟩

/-! ## The pairs of an outcome -/

/-- Whoever is in the pool, the two of a pair are of it, and they are two. -/
structure Paired (pool : List Candidate) (allowRepeats : Bool) (pair : Pair) : Prop where
  a : pair.a ∈ pool
  b : pair.b ∈ pool
  differ : pair.b.userXid ≠ pair.a.userXid
  acceptable : Acceptable allowRepeats pair.a pair.b

theorem paired_of_pairTurn {pool : List Candidate} {allowRepeats : Bool} {s : Loop} {c : Candidate}
    (hc : c ∈ pool) (hs : ∀ pair ∈ s.pairs, Paired pool allowRepeats pair) :
    ∀ pair ∈ (pairTurn pool allowRepeats s c).pairs, Paired pool allowRepeats pair := by
  unfold pairTurn
  split
  · exact hs
  · split
    · exact hs
    · next partner again hpartner =>
      obtain ⟨hmem, heligible⟩ := partnerOf_eq_some hpartner
      intro pair hpair
      rcases List.mem_append.1 hpair with hold | hnew
      · exact hs pair hold
      · rw [List.mem_singleton.1 hnew]
        exact ⟨hc, hmem, heligible.other, heligible.acceptable⟩

theorem paired_of_foldl {pool : List Candidate} {allowRepeats : Bool} {cs : List Candidate}
    (hcs : ∀ c ∈ cs, c ∈ pool) {s : Loop} (hs : ∀ pair ∈ s.pairs, Paired pool allowRepeats pair) :
    ∀ pair ∈ (cs.foldl (pairTurn pool allowRepeats) s).pairs, Paired pool allowRepeats pair := by
  induction cs generalizing s with
  | nil => exact hs
  | cons c cs ih =>
    apply ih (fun x hx => hcs x (List.mem_cons_of_mem _ hx))
    exact paired_of_pairTurn (hcs c List.mem_cons_self) hs

theorem paired_of_pairWithin {pool : List Candidate} {allowRepeats : Bool}
    (h : pair ∈ (pairWithin pool allowRepeats).1) : Paired pool allowRepeats pair := by
  have hmem : ∀ c, c ∈ sortedByOrder pool ↔ c ∈ pool := fun c => (perm_sortedByOrder pool).mem_iff
  have hsorted : Paired (sortedByOrder pool) allowRepeats pair :=
    paired_of_foldl (fun _ hc => hc) (fun _ hp => absurd hp List.not_mem_nil) pair h
  exact ⟨(hmem _).1 hsorted.a, (hmem _).1 hsorted.b, hsorted.differ, hsorted.acceptable⟩

theorem legal_of_matched {candidates : List Candidate} {o : Outcome}
    (ho : matched candidates = .ok o) (hpair : pair ∈ o.pairs) :
    Paired candidates true pair ∧ Legal true pair.a pair.b := by
  unfold matched matchCandidates at ho
  split at ho
  · cases ho
  · next outcome hmatched =>
    cases ho
    obtain ⟨_, _, hmade⟩ := bind_eq_ok.1 hmatched
    cases hmade
    obtain ⟨made, hkeys, hpair⟩ := List.mem_flatMap.1 hpair
    obtain ⟨key, _, rfl⟩ := List.mem_map.1 hkeys
    rw [get?_partitions] at hpair
    have hpaired := paired_of_pairWithin hpair
    have ha := mem_cohort.1 hpaired.a
    have hb := mem_cohort.1 hpaired.b
    exact ⟨⟨ha.1, hb.1, hpaired.differ, hpaired.acceptable⟩,
      (acceptable_iff (ha.2.trans hb.2.symm)).1 hpaired.acceptable⟩

/-- The two rows that the candidates of a pair were made of. -/
structure Rows {ρ : Type} (d : Pools) (now : Time) (userId : ρ → ℕ) (rows : List ρ)
    (candidate : ρ × Account → Candidate) (p : SpeakingPair) (x y : ρ × Account) : Prop where
  a : x.1 ∈ rows ∧ userId x.1 = p.userA ∧ d.users.get? p.userA = some x.2
  b : y.1 ∈ rows ∧ userId y.1 = p.userB ∧ d.users.get? p.userB = some y.2
  differ : p.userA ≠ p.userB
  age : x.2.isMinor now = y.2.isMinor now
  unblocked : (p.userA, p.userB) ∉ d.blocks ∧ (p.userB, p.userA) ∉ d.blocks
  legal : Legal true (candidate x) (candidate y)

theorem rows_of_written {ρ : Type} {userId : ρ → ℕ} {rows : List ρ} {origin : Origin}
    {slot : Option Slot} {candidate : ρ × Account → Candidate} {o : Outcome}
    (hxid : ∀ x, (candidate x).userXid = userXid (userId x.1))
    (hminor : ∀ x, (candidate x).isMinor = x.2.isMinor now)
    (hblocked : ∀ x, (candidate x).blocked = blocked d (userId x.1))
    (ho : matched ((joined d userId rows).map candidate) = .ok o) (hpair : pair ∈ o.pairs)
    (hp : WrittenFor origin slot pair p) :
    ∃ x y, Rows d now userId rows candidate p x y := by
  obtain ⟨hpaired, hlegal⟩ := legal_of_matched ho hpair
  obtain ⟨x, hx, hxa⟩ := List.mem_map.1 hpaired.a
  obtain ⟨y, hy, hyb⟩ := List.mem_map.1 hpaired.b
  have hdiffer := hpaired.differ
  have hidA := hp.a
  have hidB := hp.b
  rw [← hxa, hxid, idOf_userXid] at hidA
  rw [← hyb, hxid, idOf_userXid] at hidB
  rw [← hxa, ← hyb] at hlegal hdiffer
  have hA : userId x.1 = p.userA := Except.ok.inj hidA
  have hB : userId y.1 = p.userB := Except.ok.inj hidB
  have hage := hlegal.age
  have hunblocked := hlegal.unblocked
  rw [hminor, hminor] at hage
  rw [hxid, hxid, hblocked, hblocked, hA, hB] at hunblocked
  rw [hxid, hxid, hA, hB] at hdiffer
  obtain ⟨hxrows, hxuser⟩ := mem_joined.1 hx
  obtain ⟨hyrows, hyuser⟩ := mem_joined.1 hy
  rw [hA] at hxuser
  rw [hB] at hyuser
  refine ⟨x, y, ⟨hxrows, hA, hxuser⟩, ⟨hyrows, hB, hyuser⟩, ?_, hage, ⟨?_, ?_⟩, hlegal⟩
  · intro h
    exact hdiffer (by rw [h])
  · intro h
    exact hunblocked.1 (mem_blocked (.inl h))
  · intro h
    exact hunblocked.1 (mem_blocked (.inr h))

/-! ## The two loaders -/

theorem mem_checkedIn {slotId : ℕ} {b : Booking} (h : b ∈ checkedIn d slotId) :
    CheckedIn d slotId b.userId := by
  unfold checkedIn Table.select at h
  obtain ⟨hmem, hb⟩ := List.mem_filter.1 h
  simp only [decide_eq_true_eq] at hb
  exact ⟨b, hmem, hb.1, rfl, hb.2.1, hb.2.2.1⟩

theorem mem_waiting_expire {x : QueueEntry} (h : x ∈ waiting (expire d now)) :
    Waits d now x x.userId := by
  unfold waiting at h
  rw [List.mem_insertionSort] at h
  obtain ⟨hmem, hwaiting⟩ := List.mem_filter.1 h
  rw [decide_eq_true_eq] at hwaiting
  obtain ⟨y, hy, hyx⟩ := List.mem_map.1 hmem
  split at hyx
  · rw [← hyx] at hwaiting
    cases hwaiting
  · next hfresh =>
    rw [hyx] at hy hfresh
    exact ⟨hy, rfl, hwaiting, not_lt.1 (fun hold => hfresh ⟨hwaiting, hold⟩)⟩

theorem wishMet_of_legal {x y : QueueEntry × Account}
    (h : Legal true (queueCandidate d now x) (queueCandidate d now y)) : WishMet x.1 y.1 := by
  intro hwish
  obtain ⟨o, hx, hy⟩ := h.org hwish
  obtain ⟨i, hi, hio⟩ := Option.map_eq_some_iff.1 hx
  obtain ⟨j, hj, hjo⟩ := Option.map_eq_some_iff.1 hy
  have hij : i = j := Nat.repr_injective (hio.trans hjo.symm)
  exact ⟨i, hi, by rw [hj, hij]⟩

theorem written_matchSlot {slotId : ℕ} (h : matchSlot d slotId now = .ok d')
    (hp : p ∈ d'.pairs.rows) (hnew : p ∉ d.pairs.rows) : Safe d now p ∧
      (Guard d (.matchSlot slotId now) → Active d p.userA ∧ Active d p.userB) := by
  unfold matchSlot at h
  split at h
  · cases h
    exact absurd hp hnew
  · next slot hslot =>
    obtain ⟨outcome, hmatched, h⟩ := bind_eq_ok.1 h
    obtain ⟨d₁, hloop, h⟩ := bind_eq_ok.1 h
    cases h
    have hid : slot.id = slotId := Table.get?_key (Option.filter_eq_some_iff.1 hslot).1
    have hseat : ∀ d pair id, (seatBookings d slot pair id).pairs = d.pairs := fun _ _ _ => rfl
    have hp : p ∈ d₁.pairs.rows := hp
    rcases mem_of_foldlM hseat hloop hp with hold | ⟨pair, hpair, hwritten⟩
    · exact absurd hold hnew
    · obtain ⟨x, y, hrows⟩ := rows_of_written (fun _ => rfl) (fun _ => rfl) (fun _ => rfl) hmatched
        hpair hwritten
      have ha : CheckedIn d slotId p.userA := by
        rw [← hrows.a.2.1]
        exact mem_checkedIn hrows.a.1
      have hb : CheckedIn d slotId p.userB := by
        rw [← hrows.b.2.1]
        exact mem_checkedIn hrows.b.1
      refine ⟨⟨hrows.differ, ⟨x.2, y.2, hrows.a.2.2, hrows.b.2.2, hrows.age⟩, hrows.unblocked, ?_⟩,
        fun hguard => ⟨hguard _ ha, hguard _ hb⟩⟩
      unfold Entitled
      rw [hwritten.origin]
      exact ⟨slotId, by rw [hwritten.slot, Option.map_some, hid], ha, hb⟩

theorem written_matchQueue (h : matchQueue d now = .ok d') (hp : p ∈ d'.pairs.rows)
    (hnew : p ∉ d.pairs.rows) : Safe d now p ∧
      (Guard d (.matchQueue now) → Active d p.userA ∧ Active d p.userB) := by
  unfold matchQueue at h
  dsimp only at h
  split at h
  · cases h
    exact absurd hp hnew
  · obtain ⟨outcome, hmatched, h⟩ := bind_eq_ok.1 h
    have hseat : ∀ rows d pair id, (seatEntries d rows pair id now).pairs = d.pairs :=
      fun _ _ _ _ => rfl
    rcases mem_of_foldlM (hseat _) h hp with hold | ⟨pair, hpair, hwritten⟩
    · exact absurd hold hnew
    · obtain ⟨x, y, hrows⟩ := rows_of_written (fun _ => rfl) (fun _ => rfl) (fun _ => rfl) hmatched
        hpair hwritten
      have ha : Waits d now x.1 p.userA := by
        rw [← hrows.a.2.1]
        exact mem_waiting_expire hrows.a.1
      have hb : Waits d now y.1 p.userB := by
        rw [← hrows.b.2.1]
        exact mem_waiting_expire hrows.b.1
      refine ⟨⟨hrows.differ, ⟨x.2, y.2, hrows.a.2.2, hrows.b.2.2, hrows.age⟩, hrows.unblocked, ?_⟩,
        fun hguard => ⟨hguard _ _ ha, hguard _ _ hb⟩⟩
      unfold Entitled
      rw [hwritten.origin]
      exact ⟨x.1, y.1, ha, hb, hrows.legal.language, wishMet_of_legal hrows.legal⟩

/-! ## Histories -/

theorem pairs_answer {userId : ℕ} {call : Call} (h : answer d userId call now = .ok d') :
    d'.pairs = d.pairs := by
  obtain ⟨a, _, h⟩ := bind_eq_ok.1 h
  cases touched_perform h with
  | _ => rfl

theorem written_of_execute {e : Event} (hp : p ∈ (execute d e).pairs.rows)
    (hnew : p ∉ d.pairs.rows) : WrittenBy Safe d p e ∧
      (Guard d e → WrittenBy (fun d _ p => Active d p.userA ∧ Active d p.userB) d p e) := by
  cases e with
  | request userId call now =>
    unfold execute at hp
    dsimp only at hp
    split at hp
    · next d' h =>
      rw [pairs_answer h] at hp
      exact absurd hp hnew
    · exact absurd hp hnew
  | matchSlot slotId now =>
    unfold execute at hp
    dsimp only at hp
    split at hp
    · next d' h => exact written_matchSlot h hp hnew
    · exact absurd hp hnew
  | matchQueue now =>
    unfold execute at hp
    dsimp only at hp
    split at hp
    · next d' h => exact written_matchQueue h hp hnew
    · exact absurd hp hnew
  | register u => exact absurd hp hnew
  | edit around => exact absurd hp hnew

/-- Every pair there is at the end was there at the start or was inserted on the way, in tables
where `P` held of it. -/
def EveryPair (g : Pools → Event → Prop) (P : Pools → Time → SpeakingPair → Prop) (d : Pools)
    (es : List Event) (d' : Pools) : Prop :=
  ∀ p ∈ d'.pairs.rows, p ∈ d.pairs.rows ∨ ∃ before e after d₁,
    es = before ++ e :: after ∧ Runs Step g d before d₁ ∧ g d₁ e ∧
      Runs Step g (execute d₁ e) after d' ∧ p ∉ d₁.pairs.rows ∧ WrittenBy P d₁ p e

theorem everyPair_of_written {g : Pools → Event → Prop} {P : Pools → Time → SpeakingPair → Prop}
    (hwritten : ∀ d e p, g d e → p ∈ (execute d e).pairs.rows → p ∉ d.pairs.rows →
      WrittenBy P d p e) {es : List Event} (h : Runs Step g d es d') : EveryPair g P d es d' := by
  induction h with
  | refl d => exact fun p hp => .inl hp
  | @next d t d' e es guard h tail ih =>
    cases h
    intro p hp
    rcases ih p hp with hmid | ⟨before, i, after, d₁, rfl, hbefore, hi, hafter, hnew, hlate⟩
    · by_cases hold : p ∈ d.pairs.rows
      · exact .inl hold
      · exact .inr ⟨[], e, es, d, rfl, .refl d, guard, tail, hold, hwritten d e p guard hmid hold⟩
    · exact .inr ⟨e :: before, i, after, d₁, rfl, .next guard rfl hbefore, hi, hafter, hnew, hlate⟩

/-- Safe, and between two people who may still use the platform. -/
def SafeAndActive (d : Pools) (now : Time) (p : SpeakingPair) : Prop :=
  Safe d now p ∧ Active d p.userA ∧ Active d p.userB

theorem every_pair_safe (d d' : Pools) (es : List Event) :
    (Any Step d es d' → EveryPair (fun _ _ => True) Safe d es d') ∧
      (Runs Step Guard d es d' → EveryPair Guard SafeAndActive d es d') := by
  constructor
  · apply everyPair_of_written
    intro d e p _ hp hnew
    exact (written_of_execute hp hnew).1
  · apply everyPair_of_written
    intro d e p hguard hp hnew
    obtain ⟨hsafe, hactive⟩ := written_of_execute hp hnew
    have hactive := hactive hguard
    cases e with
    | matchSlot slotId now => exact ⟨hsafe, hactive⟩
    | matchQueue now => exact ⟨hsafe, hactive⟩
    | _ => exact hsafe

/-! ## A partner who has been suspended -/

theorem runs_of_execute {g : Pools → Event → Prop} [∀ d e, Decidable (g d e)] {es : List Event}
    (h : follow (fun d e => some (execute d e)) g es d = some d') : Runs Step g d es d' := by
  have hruns := runs_of_follow h
  clear h
  induction hruns with
  | refl d => exact .refl d
  | next guard h _ ih => exact .next guard (Option.some.inj h) ih

def AllActive (d : Pools) : Prop := ∀ u ∈ d.users.rows, u.status = .active ∧ u.deletedAt = none

instance (d : Pools) : Decidable (AllActive d) := inferInstanceAs (Decidable (∀ u ∈ _, _))

theorem guard_of_allActive (h : AllActive d) (e : Event) : Guard d e := by
  have hactive : ∀ userId, Active d userId := fun userId u hu => h u (Table.get?_eq_some.1 hu).1
  cases e with
  | matchSlot slotId now => exact fun userId _ => hactive userId
  | matchQueue now => exact fun _ userId _ => hactive userId
  | _ => trivial

def evening : Pools where
  users := ((Table.empty.put { id := 1, xid := "admin", adultAt := 0 }).put
    { id := 2, xid := "nodir", adultAt := 0 }).put { id := 3, xid := "lola", adultAt := 0 }
  around := { platformAdmins := [1] }
  slots := Table.empty.put
    { id := 1, xid := "evening", orgId := none, startsAt := 1000000000, status := .booking
      createdBy := 1 }

def bothCome : List Event := [
  .request 2 (.bookSlot "evening") 1, .request 3 (.bookSlot "evening") 2,
  .request 2 (.checkIn "evening") 900000000, .request 3 (.checkIn "evening") 900000001]

def suspended : List Event := bothCome ++ [.request 1 (.suspend "nodir") 950000000]

theorem eq_foldl_of_runs {es : List Event} (h : Any Step d es d') : d' = es.foldl execute d := by
  induction h with
  | refl d => rfl
  | next _ h _ ih =>
    cases h
    exact ih

/-- Somebody who checked in and was then suspended is put in a call. -/
theorem suspended_is_paired : ¬ ∀ (d d' : Pools) (es : List Event), Any Step d es d' →
    EveryPair (fun _ _ => True) SafeAndActive d es d' := by
  intro h
  have hrun : (follow (fun d e => some (execute d e)) (fun _ _ => True)
      (suspended ++ [.matchSlot 1 1000000000]) evening).map
        (fun d => d.pairs.rows.map SpeakingPair.userA) = some [2] := by
    decide +kernel
  obtain ⟨d', hd', hpairs⟩ := Option.map_eq_some_iff.1 hrun
  obtain ⟨p, hp, hA⟩ := List.mem_map.1 (hpairs ▸ List.mem_singleton_self 2)
  have hevery := h evening d' _ (runs_of_execute hd') p hp
  rcases hevery with hold | ⟨before, e, after, d₁, hes, hbefore, _, _, _, hwritten⟩
  · cases hold
  · rcases List.eq_nil_or_concat after with rfl | ⟨after, last, rfl⟩
    · -- The pair is of the matcher's run, and that finds the account suspended.
      obtain ⟨hsame, he⟩ := List.append_inj' hes rfl
      cases he
      have hstatus : ((suspended.foldl execute evening).users.get? 2).map Account.status =
          some .suspended := by
        decide +kernel
      rw [hsame, ← eq_foldl_of_runs hbefore] at hstatus
      obtain ⟨u, hu, hsuspended⟩ := Option.map_eq_some_iff.1 hstatus
      rw [← hA] at hu
      rw [(hwritten.2.1 u hu).1] at hsuspended
      cases hsuspended
    · have hrequests : ∀ i ∈ suspended, ∃ userId call now, i = .request userId call now := by
        simp [suspended, bothCome]
      rw [List.concat_eq_append, ← List.cons_append, ← List.append_assoc] at hes
      obtain ⟨hsame, _⟩ := List.append_inj' hes rfl
      obtain ⟨userId, call, now, rfl⟩ := hrequests e (by rw [hsame]; simp)
      exact hwritten

theorem every_pair_safe_evening : ∃ d', d'.pairs.rows.length = 1 ∧
    EveryPair Guard SafeAndActive evening (bothCome ++ [.matchSlot 1 1000000000]) d' := by
  have hrun : (follow (fun d e => some (execute d e)) (fun d _ => AllActive d)
      (bothCome ++ [.matchSlot 1 1000000000]) evening).map (fun d => d.pairs.rows.length) =
      some 1 := by
    decide +kernel
  obtain ⟨d', hd', hlength⟩ := Option.map_eq_some_iff.1 hrun
  have hguarded : Runs Step Guard evening (bothCome ++ [.matchSlot 1 1000000000]) d' :=
    (runs_of_execute hd').guarded (fun _ e _ (_ : True) hactive _ =>
      ⟨guard_of_allActive hactive e, trivial⟩) trivial
  exact ⟨d', hlength, (every_pair_safe evening d' _).2 hguarded⟩

end IeltsHub.PairSafety
