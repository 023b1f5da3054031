import IeltsHub.ContestSteps

set_option autoImplicit false

/-!
# The life of a contest

Over any run of ticks, registrations, withdrawals, lobbies and key releases: the status goes
forward, the key is released between the start and the end of a contest that stands, an entrant
gets one attempt, and once the contest has begun nobody is left registered.
-/
namespace IeltsHub.ContestLifecycle
open PyTime RowTable ContentModels BillingModels Entitlements CompetitionSchedule ReadCommitted
open GuardedRuns ContestRequests

def attemptsOf (d : Store) (userId : ℕ) : List ContestAttempt :=
  d.attempts.select (fun x => x.userId = userId)

def attemptIdOf (d : Store) (userId : ℕ) : Option ℕ :=
  (d.entries.get? userId).bind Entry.attemptId

def found (contest : Contest) (content : ContentStore)
    (entries : Table Entry ℕ Entry.userId) (entitlements : Table Entitlement ℕ Entitlement.id)
    (seats : List Seat) (calls : ℕ → Call) : Sys where
  store := { contest, content, entries, entitlements, seats }
  requests r := { call := calls r }

/-- A key that the contest's times and status allow to be released. -/
structure Due (d : Store) (now : Time) : Prop where
  started : d.contest.startsAt ≤ now
  ended : now ≤ d.contest.endsAt
  standing : d.contest.status ≠ .cancelled

/-- What the life of a contest promises of a step of any of the requests. -/
structure Holds (s t : Sys) : Prop where
  forward : Forward s.store.contest.status t.store.contest.status
  released : ∀ r keyId id expiresAt now,
    (t.requests r).phase = .done (.key keyId id expiresAt now) → Due t.store now
  single : ∀ userId, (attemptsOf t.store userId).length ≤ 1
  begun : t.store.contest.status.begun = true → ∀ userId,
    statusOf t.store userId ≠ some .registered

def time? : Act → Option Time
  | .read now | .readUser now _ | .run now => some now
  | _ => none

def times (is : List (ℕ × Act)) : List Time := is.filterMap (fun i => time? i.2)

/-- Along every run within the guard whose clock does not go back, from a contest that nobody is
left registered of if it has begun. -/
def Lifecycle (jitter : ℕ → ℤ) (g : Sys → ℕ × Act → Prop) : Prop :=
  ∀ contest content entries entitlements seats calls is s i t,
    (contest.status.begun = true → ∀ userId,
      (entries.get? userId).map Entry.status ≠ some .registered) →
    Runs (Step (program jitter)) g (found contest content entries entitlements seats calls) is s →
    g s i → Step (program jitter) s i t → (times (is ++ [i])).Pairwise (· ≤ ·) → Holds s t

/-! ## The guard -/

def goesLive : Phase → Bool
  | .marking .live _ _ => true
  | .written w _ => w.contest.any (fun c => c.status = .live)
  | _ => false

/-- A release asks for a contest that is not cancelled, starts an attempt for an entry that has
none, and freezes the keys once the contest is live or when nobody else is left registered. Nobody
is newly registered for a contest that has begun, or is about to. -/
def Meets (s : Sys) (i : ℕ × Act) : Prop :=
  match (s.requests i.1).call, (s.requests i.1).phase, i.2 with
  | .releaseKey _, .waiting, .read _ => s.store.contest.status ≠ .cancelled
  | .releaseKey actor, .attempting _ _ _, .run _ => attemptIdOf s.store actor.userId = none
  | .releaseKey _, .started _ false _ row, .run _ =>
    s.store.contest.keyFreeze = none → s.store.contest.status = .live ∨
      (s.store.contest.status.rank < Status.live.rank ∧
        ∀ userId, userId ≠ row.userId → statusOf s.store userId ≠ some .registered)
  | .register _, .written w _, .commit => ∀ x ∈ w.entries, x.status = .registered →
      statusOf s.store x.userId = some .registered ∨
        (s.store.contest.status.begun = false ∧
          ∀ r, goesLive (s.requests r).phase = false)
  | _, _, _ => True

/-! ## The invariant -/

def Derived (d : Store) (x : Entry) : Prop := x.attemptId = attemptIdOf d x.userId

def Fresh (call : Call) : Phase → Prop
  | .attempting _ _ a => a.userId = call.userId
  | .started _ _ a row => a.userId = row.userId ∧ row.attemptId = none ∧ row.status = .started
  | .written w _ => ∀ a, w.attempt = some a →
      ∃ row, w.entries = [row] ∧ a.userId = row.userId ∧ row.attemptId = none
  | _ => True

def Timed (d : Store) : Phase → Prop
  | .begun now _ | .entrant now _ | .attempting now _ _ | .started now _ _ _ => Due d now
  | .written _ (.key _ _ _ now) | .done (.key _ _ _ now) => Due d now
  | _ => True

/-- A status the tick may move the contest to. -/
structure Way (d : Store) (target : Status) : Prop where
  forward : Forward d.contest.status target
  live : target.begun = true → target = .live ∨ d.contest.status.begun = true

/-- A contest as a request has written it, with the entries of the same transaction. -/
structure Moved (d : Store) (entries : List Entry) (c : Contest) : Prop where
  startsAt : c.startsAt = d.contest.startsAt
  endsAt : c.endsAt = d.contest.endsAt
  forward : Forward d.contest.status c.status
  marked : ∀ x ∈ entries, x.status ≠ .registered
  covered : c.status.begun = true → d.contest.status.begun = true ∨
    (c.status = .live ∧ ∀ userId, statusOf d userId = some .registered →
      userId ∈ entries.map Entry.userId)

def Moving (d : Store) : Phase → Prop
  | .entering target => Way d target
  | .marking target userIds status => Way d target ∧ status ≠ .registered ∧
      (target = .live → ∀ userId, statusOf d userId = some .registered → userId ∈ userIds)
  | .written w _ => ∀ c, w.contest = some c → Moved d w.entries c
  | _ => True

def Marks (call : Call) (p : Phase) : Prop :=
  (∀ actor, call ≠ .register actor) → ∀ x ∈ p.rows, x.status ≠ .registered

def Held (q : Request) : Prop :=
  match q.phase with
  | .ticking _ | .entering _ | .marking _ _ _ => .contest ∈ q.held
  | _ => True

structure Inv (jitter : ℕ → ℤ) (s : Sys) : Prop where
  locked : Locked (program jitter) s
  owning : ∀ r, Owning (s.requests r)
  held : ∀ r, Held (s.requests r)
  derived : ∀ r, ∀ x ∈ (s.requests r).phase.rows, Derived s.store x
  marks : ∀ r, Marks (s.requests r).call (s.requests r).phase
  fresh : ∀ r, Fresh (s.requests r).call (s.requests r).phase
  timed : ∀ r, Timed s.store (s.requests r).phase
  moving : ∀ r, Moving s.store (s.requests r).phase
  single : ∀ userId, (attemptsOf s.store userId).length ≤
    if (attemptIdOf s.store userId).isSome then 1 else 0
  begun : s.store.contest.status.begun = true → ∀ userId,
    statusOf s.store userId ≠ some .registered

variable {jitter : ℕ → ℤ} {d d' : Store} {s t : Sys} {i : ℕ × Act} {call : Call} {p p' : Phase}
  {act : Act} {keys : List Key}

/-! ## What a commit does -/

theorem statusOf_land (w : Write) (u : ℕ) (d : Store) (userId : ℕ) :
    (∃ x ∈ w.entries, x.userId = userId ∧ statusOf (w.land u d) userId = some x.status) ∨
      (userId ∉ w.entries.map Entry.userId ∧ statusOf (w.land u d) userId = statusOf d userId) := by
  unfold statusOf
  rcases get?_land w u d userId with ⟨x, hx, hkey, id, hget⟩ | ⟨hn, hget⟩
  · exact .inl ⟨x, hx, hkey, by rw [hget]; rfl⟩
  · exact .inr ⟨hn, by rw [hget]⟩

theorem attemptIdOf_land {w : Write} {u userId : ℕ} (h : w.attempt = none)
    (hd : ∀ x ∈ w.entries, Derived d x) : attemptIdOf (w.land u d) userId = attemptIdOf d userId := by
  unfold attemptIdOf
  have hlanded : w.landed d = w.entries := by rw [Write.landed, h]
  rcases @get?_foldl_put w.entries d.entries userId with ⟨x, hx, hkey, hget⟩ | ⟨_, hget⟩
  · rw [Write.land, hlanded, hget, Option.bind_some, hd x hx, hkey]
    rfl
  · rw [Write.land, hlanded, hget]

theorem attemptsOf_land {w : Write} {u userId : ℕ} {a : ContestAttempt} (h : w.attempt = some a) :
    attemptsOf (w.land u d) userId = attemptsOf d userId ++
      if a.userId = userId then [{ a with id := d.attempts.nextId }] else [] := by
  unfold attemptsOf Write.land
  dsimp only
  rw [h, landAttempt, Table.select_put_of_get?_eq_none (by exact Table.get?_nextId d.attempts)]
  congr 1
  simp only [List.filter_cons, List.filter_nil, decide_eq_true_eq]

theorem single_land {w : Write} {u : ℕ} (hd : ∀ x ∈ w.entries, Derived d x)
    (hfresh : ∀ a, w.attempt = some a →
      ∃ row, w.entries = [row] ∧ a.userId = row.userId ∧ row.attemptId = none)
    (hs : ∀ userId, (attemptsOf d userId).length ≤ if (attemptIdOf d userId).isSome then 1 else 0)
    (userId : ℕ) : (attemptsOf (w.land u d) userId).length ≤
      if (attemptIdOf (w.land u d) userId).isSome then 1 else 0 := by
  cases hattempt : w.attempt with
  | none =>
    have hsame : attemptsOf (w.land u d) userId = attemptsOf d userId := by
      rw [attemptsOf, Write.land, hattempt]
      rfl
    rw [hsame, attemptIdOf_land hattempt hd]
    exact hs userId
  | some a =>
    obtain ⟨row, hentries, huser, hnone⟩ := hfresh a hattempt
    rw [attemptsOf_land hattempt, huser]
    have hlanded : w.landed d = [{ row with attemptId := some d.attempts.nextId }] := by
      rw [Write.landed, hattempt, hentries]
      rfl
    by_cases hkey : row.userId = userId
    · subst hkey
      have hone := hs row.userId
      have hderived : attemptIdOf d row.userId = none := by
        rw [← hd row (by simp [hentries]), hnone]
      have hsome : attemptIdOf (w.land u d) row.userId = some d.attempts.nextId := by
        rw [attemptIdOf, Write.land, hlanded]
        exact congrArg (Option.bind · Entry.attemptId) (Table.get?_put_self d.entries
          { row with attemptId := some d.attempts.nextId })
      rw [hderived] at hone
      rw [hsome]
      simp only [Option.isSome_none, Bool.false_eq_true, if_false, Nat.le_zero] at hone
      simp [hone]
    · have hother : attemptIdOf (w.land u d) userId = attemptIdOf d userId := by
        rw [attemptIdOf, Write.land, hlanded, List.foldl_cons, List.foldl_nil,
          Table.get?_put_of_ne _ (by exact hkey)]
        rfl
      rw [if_neg hkey, List.append_nil, hother]
      exact hs userId

/-! ## What a statement does -/

theorem derived_of_get? {x : Entry} {userId : ℕ} (h : d.entries.get? userId = some x) {y : Entry}
    (huser : y.userId = x.userId) (hattempt : y.attemptId = x.attemptId) : Derived d y := by
  have hkey : x.userId = userId := Table.get?_key h
  rw [Derived, attemptIdOf, hattempt, huser, hkey, h]
  rfl

theorem derived_upsert (d : Store) (userId : ℕ) (now : Time) : Derived d (upsert d userId now) := by
  cases h : d.entries.get? userId with
  | none => simp [Derived, attemptIdOf, upsert, h]
  | some row =>
    refine derived_of_get? h ?_ ?_ <;> simp only [upsert, h] <;> split <;> rfl

theorem mem_onEnter {target : Status} {rows : List Entry} {status : EntryStatus} {x : Entry}
    (h : onEnter d target = some (rows, status)) (hx : x ∈ rows) :
    d.entries.get? x.userId = some x := by
  unfold onEnter at h
  split at h <;> cases h <;>
    exact Table.get?_eq_some.2 ⟨List.mem_of_mem_filter hx, rfl⟩

theorem mem_marked {target : Status} {userIds : List ℕ} {status : EntryStatus} {y : Entry}
    (h : y ∈ marked d target userIds status) :
    ∃ x, d.entries.get? x.userId = some x ∧ y = { x with status } := by
  unfold marked at h
  split at h
  · cases h
  · next rows _ hrows =>
    obtain ⟨x, hx, rfl⟩ := List.mem_map.1 h
    exact ⟨x, mem_onEnter hrows (List.mem_filter.1 hx).1, rfl⟩

theorem derived_went (h : Went jitter d call p act p' keys) (hp : ∀ x ∈ p.rows, Derived d x) :
    ∀ x ∈ p'.rows, Derived d x := by
  cases h with
  | register h =>
    cases h with
    | upserted => exact List.forall_mem_singleton.2 (derived_upsert d _ _)
    | @unlimited row =>
      have hrow : Derived d row := hp row List.mem_cons_self
      exact List.forall_mem_singleton.2 hrow
    | @spent row =>
      have hrow : Derived d row := hp row List.mem_cons_self
      exact List.forall_mem_singleton.2 hrow
    | _ => exact hp
  | withdraw h =>
    cases h with
    | unspent found =>
      exact List.forall_mem_singleton.2 (derived_of_get? (release_eq_some found).1 rfl rfl)
    | released found =>
      exact List.forall_mem_singleton.2 (derived_of_get? (release_eq_some found).1 rfl rfl)
    | refunded written =>
      subst written
      exact hp
    | _ => exact hp
  | lobby h =>
    cases h with
    | fetched stored => exact List.forall_mem_singleton.2 (derived_of_get? stored rfl rfl)
    | _ => exact hp
  | releaseKey h =>
    cases h with
    | started stored => exact List.forall_mem_singleton.2 (derived_of_get? stored rfl rfl)
    | froze written =>
      subst written
      exact hp
    | _ => exact hp
  | tick h =>
    cases h with
    | marked written =>
      subst written
      intro y hy
      obtain ⟨x, hx, rfl⟩ := mem_marked hy
      exact derived_of_get? hx rfl rfl
    | _ => exact hp

theorem held_went {r : List Key} (h : Went jitter d call p act p' keys)
    (hp : Held { call, phase := p, held := r }) : Held { call, phase := p', held := r ++ keys } := by
  cases h with
  | register h => cases h <;> trivial
  | withdraw h => cases h <;> trivial
  | lobby h => cases h <;> trivial
  | releaseKey h => cases h <;> trivial
  | tick h =>
    cases h with
    | locked => simp [Held]
    | due => simpa [Held] using hp
    | entered => simpa [Held] using hp
    | _ => trivial

theorem fetched_status (row : Entry) (now : Time) : (fetched row now).status ≠ .registered := by
  unfold fetched
  dsimp only
  split
  · decide
  · assumption

theorem marks_went (h : Went jitter d call p act p' keys) (hp : Marks call p)
    (hmoving : Moving d p) : Marks call p' := by
  intro hcall
  have hrows := hp hcall
  cases h with
  | register h => exact absurd rfl (hcall _)
  | withdraw h =>
    cases h with
    | unspent => simp [Phase.rows]
    | released => simp [Phase.rows]
    | refunded written =>
      subst written
      exact hrows
    | _ => exact hrows
  | lobby h =>
    cases h with
    | fetched stored => exact List.forall_mem_singleton.2 (fetched_status _ _)
    | _ => exact hrows
  | releaseKey h =>
    cases h with
    | started stored => simp [Phase.rows]
    | froze written =>
      subst written
      exact hrows
    | _ => exact hrows
  | tick h =>
    cases h with
    | marked written =>
      subst written
      intro y hy
      obtain ⟨x, _, rfl⟩ := mem_marked hy
      exact hmoving.2.1
    | _ => simp [Phase.rows]

theorem fresh_went (h : Went jitter d call p act p' keys) (hp : Fresh call p)
    (hguard : ∀ actor now isFrozen a at', call = .releaseKey actor →
      p = .attempting now isFrozen a → act = .run at' → attemptIdOf d actor.userId = none) :
    Fresh call p' := by
  cases h with
  | register h => cases h <;> first | trivial | exact fun _ h => by cases h
  | withdraw h =>
    cases h with
    | refunded written => exact fun _ h => by rw [written] at h; cases h
    | _ => first | trivial | exact fun _ h => by cases h
  | lobby h => cases h <;> first | trivial | exact fun _ h => by cases h
  | releaseKey h =>
    cases h with
    | starting => rfl
    | started stored =>
      have hkey := Table.get?_key stored
      have hnone := hguard _ _ _ _ _ rfl rfl rfl
      simp only [attemptIdOf, stored, Option.bind_some] at hnone
      exact ⟨hp.trans hkey.symm, hnone, rfl⟩
    | froze written =>
      intro a ha
      rw [written] at ha ⊢
      cases ha
      exact ⟨_, rfl, hp.1, hp.2.1⟩
    | resumed => exact fun _ h => by cases h
    | _ => trivial
  | tick h =>
    cases h with
    | marked written => exact fun _ h => by rw [written] at h; cases h
    | _ => first | trivial | exact fun _ h => by cases h

theorem timed_went (h : Went jitter d call p act p' keys) (hp : Timed d p)
    (hguard : ∀ actor now, call = .releaseKey actor → p = .waiting → act = .read now →
      d.contest.status ≠ .cancelled) : Timed d p' := by
  cases h with
  | register h => cases h <;> trivial
  | withdraw h => cases h <;> trivial
  | lobby h => cases h <;> trivial
  | releaseKey h =>
    cases h with
    | asked started ended => exact ⟨started, ended, hguard _ _ rfl rfl rfl⟩
    | _ => exact hp
  | tick h => cases h <;> trivial

theorem way_of_nextStatus {timing : Timing} {now : Time} {pending : ℕ} {target : Status}
    (h : nextStatus timing now pending = some target) (hd : timing.status = d.contest.status) :
    Way d target where
  forward := hd ▸ forward_nextStatus h
  live hbegun := by
    have hrank := (nextStatus_rank h).1
    rw [hd] at hrank
    cases target <;> try cases hbegun
    · exact .inl rfl
    · right
      generalize d.contest.status = status at hrank
      cases status <;> first | rfl | cases hrank
    · right
      generalize d.contest.status = status at hrank
      cases status <;> first | rfl | cases hrank

theorem mem_registered {userId : ℕ} (h : statusOf d userId = some .registered) :
    ∃ x ∈ d.entries.select (fun x => x.status = .registered), x.userId = userId := by
  obtain ⟨x, hx, hstatus⟩ := Option.map_eq_some_iff.1 h
  refine ⟨x, List.mem_filter.2 ⟨(Table.get?_eq_some.1 hx).1, ?_⟩, Table.get?_key hx⟩
  simpa using hstatus

theorem forward_live {status : Status} (h : status.rank < Status.live.rank) :
    Forward status .live := by
  cases status <;> first | decide | exact absurd h (by decide)

theorem moved_freeze {row : Entry} {at' : Time} {c : Contest} (h : freezeKeys d at' = some c)
    (hrow : row.status = .started)
    (hguard : d.contest.keyFreeze = none → d.contest.status = .live ∨
      (d.contest.status.rank < Status.live.rank ∧
        ∀ userId, userId ≠ row.userId → statusOf d userId ≠ some .registered)) :
    Moved d [row] c := by
  unfold freezeKeys at h
  split at h
  · next hnone =>
    cases h
    refine ⟨rfl, rfl, ?_, by simp [hrow], fun _ => ?_⟩
    · rcases hguard hnone with hlive | ⟨hrank, _⟩
      · exact .inl hlive
      · exact forward_live hrank
    · rcases hguard hnone with hlive | ⟨_, hothers⟩
      · exact .inl (by rw [hlive]; rfl)
      · refine .inr ⟨rfl, fun userId hregistered => ?_⟩
        by_contra hne
        exact hothers userId (by simpa using hne) hregistered
  · cases h

theorem moving_went (h : Went jitter d call p act p' keys) (hp : Moving d p) (hfresh : Fresh call p)
    (hguard : ∀ actor now a row at', call = .releaseKey actor → p = .started now false a row →
      act = .run at' → d.contest.keyFreeze = none → d.contest.status = .live ∨
        (d.contest.status.rank < Status.live.rank ∧
          ∀ userId, userId ≠ row.userId → statusOf d userId ≠ some .registered)) :
    Moving d p' := by
  cases h with
  | register h => cases h <;> first | trivial | exact fun _ h => by cases h
  | withdraw h =>
    cases h with
    | refunded written =>
      subst written
      exact fun _ h => by cases h
    | _ => first | trivial | exact fun _ h => by cases h
  | lobby h => cases h <;> first | trivial | exact fun _ h => by cases h
  | releaseKey h =>
    cases h with
    | @froze _ _ isFrozen _ _ _ written =>
      subst written
      intro c hc
      cases isFrozen with
      | true => cases hc
      | false => exact moved_freeze hc hfresh.2.2 (hguard _ _ _ _ _ rfl rfl rfl)
    | resumed => exact fun _ h => by cases h
    | _ => trivial
  | tick h =>
    cases h with
    | passed => exact fun _ h => by cases h
    | idle => exact fun _ h => by cases h
    | locked => trivial
    | due target' => exact way_of_nextStatus target' rfl
    | @plain target _ none' =>
      intro c hc
      cases hc
      refine ⟨rfl, rfl, hp.forward, by simp, fun hbegun => .inl ?_⟩
      refine (hp.live hbegun).resolve_left (fun hlive => ?_)
      subst hlive
      cases none'
    | entered rows' =>
      refine ⟨hp, ?_, fun hlive userId hregistered => ?_⟩
      · unfold onEnter at rows'
        split at rows' <;> cases rows' <;> decide
      · subst hlive
        cases rows'
        obtain ⟨x, hx, rfl⟩ := mem_registered hregistered
        exact List.mem_map_of_mem hx
    | marked written =>
      subst written
      intro c hc
      cases hc
      refine ⟨rfl, rfl, hp.1.forward, ?_, fun hbegun => ?_⟩
      · intro y hy
        obtain ⟨x, _, rfl⟩ := mem_marked hy
        exact hp.2.1
      · rcases hp.1.live hbegun with hlive | hlive
        · subst hlive
          refine .inr ⟨rfl, fun userId hregistered => ?_⟩
          have hlisted := hp.2.2 rfl userId hregistered
          obtain ⟨x, hx, rfl⟩ := mem_registered hregistered
          unfold marked
          simp only [onEnter, List.map_map]
          refine List.mem_map.2 ⟨x, List.mem_filter.2 ⟨hx, by simpa using hlisted⟩, rfl⟩
        · exact .inl hlive

/-! ## What a step keeps -/

theorem moved_of_written {w : Write} {a : Answer}
    (hphase : (s.requests i.1).phase = .written w a) (hs : Inv jitter s) :
    ∀ c, w.contest = some c → Moved s.store w.entries c := by
  have hmoving := hs.moving i.1
  rw [hphase] at hmoving
  exact hmoving

theorem contest_step (hs : Inv jitter s) (h : Step (program jitter) s i t) :
    t.store.contest.startsAt = s.store.contest.startsAt ∧
      t.store.contest.endsAt = s.store.contest.endsAt ∧
      Forward s.store.contest.status t.store.contest.status := by
  cases stepped h with
  | went _ _ _ hstore => rw [hstore]; exact ⟨rfl, rfl, .inl rfl⟩
  | refused _ hstore => rw [hstore]; exact ⟨rfl, rfl, .inl rfl⟩
  | other hother => rw [(others_entries hother).2]; exact ⟨rfl, rfl, .inl rfl⟩
  | committed w a _ hphase hstore =>
    rw [hstore, Write.land]
    cases hcontest : w.contest with
    | none => exact ⟨rfl, rfl, .inl rfl⟩
    | some c =>
      have hmoved := moved_of_written hphase hs c hcontest
      exact ⟨hmoved.startsAt, hmoved.endsAt, hmoved.forward⟩

theorem Due.step {now : Time} (hdue : Due s.store now) (hs : Inv jitter s)
    (h : Step (program jitter) s i t) : Due t.store now := by
  obtain ⟨hstarts, hends, hforward⟩ := contest_step hs h
  refine ⟨hstarts ▸ hdue.started, hends ▸ hdue.ended, fun hcancelled => ?_⟩
  rcases hforward with heq | ⟨_, _, hother, _⟩
  · exact hdue.standing (heq.trans hcancelled)
  · exact hother hcancelled

theorem registered_step (hs : Inv jitter s) (hg : Meets s i) (h : Step (program jitter) s i t)
    {userId : ℕ} (hregistered : statusOf t.store userId = some .registered) :
    statusOf s.store userId = some .registered ∨ (s.store.contest.status.begun = false ∧
      ∀ r, goesLive (s.requests r).phase = false) := by
  cases stepped h with
  | went _ _ _ hstore => rw [hstore] at hregistered; exact .inl hregistered
  | refused _ hstore => rw [hstore] at hregistered; exact .inl hregistered
  | other hother =>
    rw [statusOf, (others_entries hother).1] at hregistered
    exact .inl hregistered
  | committed w a hact hphase hstore =>
    rw [hstore] at hregistered
    rcases statusOf_land w _ s.store userId with ⟨x, hx, rfl, hstatus⟩ | ⟨_, hsame⟩
    · rw [hstatus, Option.some.injEq] at hregistered
      have hmarks := hs.marks i.1
      unfold Meets at hg
      rw [hphase] at hmarks hg
      rw [hact] at hg
      generalize (s.requests i.1).call = call at hmarks hg
      cases call with
      | register actor => exact hg x hx hregistered
      | _ => exact absurd hregistered (hmarks (fun _ hcall => by cases hcall) x hx)
    · exact .inl (hsame ▸ hregistered)

theorem begun_step (hs : Inv jitter s) (hg : Meets s i) (h : Step (program jitter) s i t)
    (hbegun : t.store.contest.status.begun = true) (userId : ℕ) :
    statusOf t.store userId ≠ some .registered := by
  intro hregistered
  have hstill := registered_step hs hg h hregistered
  have hold (hb : s.store.contest.status.begun = true) : False := by
    rcases hstill with hstill | ⟨hfalse, _⟩
    · exact hs.begun hb userId hstill
    · rw [hb] at hfalse
      cases hfalse
  cases stepped h with
  | went _ _ _ hstore => exact hold (hstore ▸ hbegun)
  | refused _ hstore => exact hold (hstore ▸ hbegun)
  | other hother => exact hold ((others_entries hother).2 ▸ hbegun)
  | committed w a _ hphase hstore =>
    rw [hstore, Write.land] at hbegun
    cases hcontest : w.contest with
    | none =>
      rw [hcontest] at hbegun
      exact hold hbegun
    | some c =>
      rw [hcontest] at hbegun
      have hmoved := moved_of_written hphase hs c hcontest
      rcases hmoved.covered hbegun with hb | ⟨_, hcovered⟩
      · exact hold hb
      · rw [hstore] at hregistered
        rcases statusOf_land w _ s.store userId with ⟨x, hx, _, hstatus⟩ | ⟨hn, hsame⟩
        · rw [hstatus, Option.some.injEq] at hregistered
          exact hmoved.marked x hx hregistered
        · exact hn (hcovered userId (hsame ▸ hregistered))

theorem Moving.mono {p : Phase} (h : Moving d p)
    (hcontest : (∃ target, p = .entering target) ∨ (∃ target ids status, p = .marking target ids status) ∨
      (∃ w a c, p = .written w a ∧ w.contest = some c) → d'.contest = d.contest)
    (hregistered : goesLive p = true → ∀ userId, statusOf d' userId = some .registered →
      statusOf d userId = some .registered) : Moving d' p := by
  cases p with
  | entering target =>
    have hsame := hcontest (.inl ⟨_, rfl⟩)
    exact ⟨hsame ▸ h.forward, hsame ▸ h.live⟩
  | marking target userIds status =>
    have hsame := hcontest (.inr (.inl ⟨_, _, _, rfl⟩))
    refine ⟨⟨hsame ▸ h.1.forward, hsame ▸ h.1.live⟩, h.2.1, fun hlive userId hnow => ?_⟩
    subst hlive
    exact h.2.2 rfl userId (hregistered rfl userId hnow)
  | written w a =>
    intro c hc
    have hsame := hcontest (.inr (.inr ⟨_, _, _, rfl, hc⟩))
    have hmoved := h c hc
    refine ⟨hsame ▸ hmoved.startsAt, hsame ▸ hmoved.endsAt, hsame ▸ hmoved.forward, hmoved.marked,
      fun hbegun => ?_⟩
    rw [hsame]
    refine (hmoved.covered hbegun).imp id (fun hlive => ⟨hlive.1, fun userId hnow => ?_⟩)
    exact hlive.2 userId (hregistered (by simp [goesLive, hc, hlive.1]) userId hnow)
  | _ => trivial

theorem moving_stable {r : ℕ} (hs : Inv jitter s) (hg : Meets s i) (h : Step (program jitter) s i t)
    (hr : r ≠ i.1) : Moving t.store (s.requests r).phase := by
  refine (hs.moving r).mono (fun hphase => ?_) (fun hlive userId hnow => ?_)
  · refine contest_stable hs.locked h hr ?_
    have hheld := hs.held r
    unfold Held at hheld
    rcases hphase with ⟨target, hphase⟩ | ⟨target, ids, status, hphase⟩ | ⟨w, a, c, hphase, hc⟩
    · rw [hphase] at hheld
      exact List.mem_append_left _ hheld
    · rw [hphase] at hheld
      exact List.mem_append_left _ hheld
    · refine List.mem_append_right _ ?_
      rw [hphase]
      exact mem_keys.2 (.inr (.inr ⟨by simp [hc], rfl⟩))
  · refine (registered_step hs hg h hnow).resolve_right (fun hnone => ?_)
    rw [hnone.2 r] at hlive
    cases hlive

theorem select_withStatus (xs : Table ContestAttempt ℕ ContestAttempt.id) (id userId : ℕ)
    (status : ExamModels.AttemptStatus) :
    ((xs.mapRows (withStatus id status) (withStatus_id id status)).select
      (fun x => x.userId = userId)).length = (xs.select (fun x => x.userId = userId)).length := by
  rw [@Table.select_mapRows _ _ _ xs _ (withStatus_id id status) _ (fun x => ?_)]
  · exact List.length_map _
  · unfold withStatus
    split <;> rfl

theorem single_step (hs : Inv jitter s) (h : Step (program jitter) s i t) (userId : ℕ) :
    (attemptsOf t.store userId).length ≤ if (attemptIdOf t.store userId).isSome then 1 else 0 := by
  cases stepped h with
  | went _ _ _ hstore => rw [hstore]; exact hs.single userId
  | refused _ hstore => rw [hstore]; exact hs.single userId
  | committed w a _ hphase hstore =>
    have hderived := hs.derived i.1
    have hfresh := hs.fresh i.1
    rw [hphase] at hderived hfresh
    rw [hstore]
    exact single_land hderived hfresh hs.single userId
  | other hother =>
    have hids : attemptIdOf t.store userId = attemptIdOf s.store userId := by
      rw [attemptIdOf, (others_entries hother).1]
      rfl
    rw [hids]
    refine le_of_eq_of_le ?_ (hs.single userId)
    generalize t.store = d' at hother
    generalize (s.requests i.1).call = call at hother
    cases call with
    | finishAttempt id status =>
      cases hother
      exact select_withStatus s.store.attempts id userId status
    | _ =>
      cases hother
      try rfl

theorem timed_step (hs : Inv jitter s) (hg : Meets s i) (h : Step (program jitter) s i t) (r : ℕ) :
    Timed t.store (t.requests r).phase := by
  have hkept (p : Phase) (hp : Timed s.store p) : Timed t.store p := by
    unfold Timed at hp ⊢
    split at hp <;> first | exact hp.step hs h | trivial
  by_cases hr : r = i.1
  · subst hr
    cases stepped h with
    | went phase keys hwent _ hrequest =>
      rw [hrequest]
      refine hkept _ (timed_went hwent (hs.timed i.1) ?_)
      intro actor now hcall hphase hact
      unfold Meets at hg
      rwa [hcall, hphase, hact] at hg
    | refused e _ hrequest => rw [hrequest]; trivial
    | committed w a _ hphase _ hrequest =>
      have htimed := hs.timed i.1
      rw [hphase] at htimed
      rw [hrequest]
      refine hkept (.done a) ?_
      cases a <;> exact htimed
    | other _ hrequest => rw [hrequest]; trivial
  · rw [requests_of_ne h hr]
    exact hkept _ (hs.timed r)

theorem inv_step (hs : Inv jitter s) (hg : Meets s i) (h : Step (program jitter) s i t) :
    Inv jitter t where
  locked := locked_step hs.locked h
  owning := owning_step hs.owning h
  single := single_step hs h
  begun := begun_step hs hg h
  timed := timed_step hs hg h
  held r := request_step h r (fun _ _ _ _ hwent => held_went hwent (hs.held r))
    (fun _ _ => trivial) (fun _ => hs.held r)
  derived r := by
    refine request_step h r (C := fun q => ∀ x ∈ q.phase.rows, Derived t.store x)
      (fun _ hstore _ _ hwent => ?_) (fun _ _ _ hx => by cases hx) (fun hr x hx => ?_)
    · rw [hstore]
      exact derived_went hwent (hs.derived r)
    · have hstable := entry_stable hs.locked h hr (hs.owning r x hx)
      have hold := hs.derived r x hx
      rwa [Derived, attemptIdOf, hstable]
  marks r := request_step h r (C := fun q => Marks q.call q.phase)
    (fun _ _ _ _ hwent => marks_went hwent (hs.marks r) (hs.moving r))
    (fun _ _ _ _ hx => by cases hx) (fun _ => hs.marks r)
  fresh r := by
    refine request_step h r (C := fun q => Fresh q.call q.phase) (fun hr _ _ _ hwent => ?_)
      (fun _ _ => trivial) (fun _ => hs.fresh r)
    refine fresh_went hwent (hs.fresh r) ?_
    intro actor now isFrozen a at' hcall hphase hact
    unfold Meets at hg
    rwa [← hr, hcall, hphase, hact] at hg
  moving r := by
    refine request_step h r (C := fun q => Moving t.store q.phase) (fun hr hstore _ _ hwent => ?_)
      (fun _ _ => trivial) (moving_stable hs hg h)
    rw [hstore]
    refine moving_went hwent (hs.moving r) (hs.fresh r) ?_
    intro actor now a row at' hcall hphase hact
    unfold Meets at hg
    rwa [← hr, hcall, hphase, hact] at hg

theorem inv_found {contest : Contest} {content : ContentStore}
    {entries : Table Entry ℕ Entry.userId} {entitlements : Table Entitlement ℕ Entitlement.id}
    {seats : List Seat} {calls : ℕ → Call}
    (hbegun : contest.status.begun = true → ∀ userId,
      (entries.get? userId).map Entry.status ≠ some .registered) :
    Inv jitter (found contest content entries entitlements seats calls) where
  locked := locked_start (fun _ => rfl)
  owning _ _ hx := by cases hx
  held _ := trivial
  derived _ _ hx := by cases hx
  marks _ _ _ hx := by cases hx
  fresh _ := trivial
  timed _ := trivial
  moving _ := trivial
  single _ := Nat.zero_le _
  begun := hbegun

theorem lifecycle (jitter : ℕ → ℤ) : Lifecycle jitter Meets := by
  intro contest content entries entitlements seats calls is s i t hbegun hrun hg hi _
  have hs := hrun.invariant (fun _ _ _ hs hg hi => inv_step hs hg hi) (inv_found hbegun)
  have ht := inv_step hs hg hi
  exact
    { forward := (contest_step hs hi).2.2
      begun := ht.begun
      single := fun userId => (ht.single userId).trans (by split <;> decide)
      released := fun r keyId id expiresAt now hdone => by
        have htimed := ht.timed r
        rw [hdone] at htimed
        exact htimed }

/-! ## A key that is released before the tick -/

def sampleContest : Contest where
  testVersionId := 1
  lobbyOpensAt := 0
  startsAt := seconds 120
  endsAt := seconds 3720
  durationSeconds := 3600
  status := .lobby

def sampleContent : ContentStore :=
  { noContent with
    testVersions := ⟨[{ id := 1, xid := "paper", status := .published }], by decide⟩ }

def punctual : Sys :=
  found sampleContest sampleContent
    ⟨[{ userId := 1, registeredAt := 0 }, { userId := 2, registeredAt := 0 }], by decide⟩
    .empty [] (fun _ => .releaseKey { userId := 1 })

def firstSecond : List (ℕ × Act) :=
  [(0, .read (seconds 120)), (0, .run (seconds 120)), (0, .run (seconds 120)),
    (0, .run (seconds 120)), (0, .run (seconds 120))]

theorem not_lifecycle_of_release : ¬ Lifecycle (fun _ => 0) (fun _ _ => True) := by
  intro h
  have hrun : ((follow (step (program (fun _ => 0))) (fun _ _ => True) firstSecond punctual).bind
      (fun s => (step (program (fun _ => 0)) s (0, .commit)).map (fun t =>
        (t.store.contest.status, statusOf t.store 2)))) =
      some (.live, some .registered) := by
    decide +kernel
  obtain ⟨s, hs, hlast⟩ := Option.bind_eq_some_iff.1 hrun
  obtain ⟨t, ht, hboth⟩ := Option.map_eq_some_iff.1 hlast
  rw [Prod.mk.injEq] at hboth
  have hholds := h _ _ _ _ _ _ _ _ _ _ (fun hbegun => by cases hbegun) (runs_of_follow hs) trivial
    ht (by decide)
  exact hholds.begun (by rw [hboth.1]; rfl) 2 hboth.2

end IeltsHub.ContestLifecycle
