import IeltsHub.AttemptStarts

set_option autoImplicit false

/-!
# The attempt limit

The attempts of a student against an assignment, over any run of starts and of requests that finish
attempts: no more of them than the assignment allows, one of them live at the most, numbered from
one on as they were created.
-/
namespace IeltsHub.AttemptLimit
open PyTime RowTable PlatformRefusals GuardedRuns ReadCommitted AttemptStarts
open ExamModels (AttemptStatus)

structure Limited (d : Store) (userId : ℕ) (a : Assignment) : Prop where
  numbers : (attemptsOf d userId a.id).map Attempt.attemptNo =
    List.range' 1 (attemptsOf d userId a.id).length
  single : ((attemptsOf d userId a.id).filter Attempt.live).length ≤ 1
  bound : ((attemptsOf d userId a.id).length : ℤ) ≤ max a.maxAttempts 0

/-- When a start takes its number, the finished attempts are still those it counted, and no attempt
is live. -/
def Meets (s : Sys) (i : ℕ × Act) : Prop :=
  match (s.requests i.1).phase, i.2 with
  | .timed c used _ _ _, .number =>
    (ofSitting s.store c).length = used ∧ ∀ x ∈ ofSitting s.store c, x.live = false
  | _, _ => True

instance (s : Sys) (i : ℕ × Act) : Decidable (Meets s i) := by
  unfold Meets
  split <;> infer_instance

/-! ## The invariant -/

def finished (d : Store) (c : Sitting) : ℕ := ((ofSitting d c).filter (fun x => !x.live)).length

/-- What a start has made sure of before it takes a number. -/
structure Counted (d : Store) (c : Sitting) (used : ℕ) (live : Option Attempt) : Prop where
  placed : d.assignments.get? c.assignment.id = some c.assignment
  counted : used ≤ finished d c
  limit : live = none → (used : ℤ) < c.assignment.maxAttempts
  seen : live ≠ none → used < (ofSitting d c).length

/-- The number a start took is the next one, or the index refuses it. -/
structure Numbered (d : Store) (c : Sitting) (no : ℕ) : Prop where
  placed : d.assignments.get? c.assignment.id = some c.assignment
  limit : (no : ℤ) ≤ c.assignment.maxAttempts
  pos : 1 ≤ no
  le : no ≤ (ofSitting d c).length + 1
  ready : no = (ofSitting d c).length + 1 → ∀ x ∈ ofSitting d c, x.live = false

/-- What a start that was inserted relies on: nobody else has its number. -/
structure Inserted (d : Store) (c : Sitting) (row : Attempt) : Prop where
  numbered : Numbered d c row.attemptNo
  next : row.attemptNo = (ofSitting d c).length + 1
  userId : row.userId = c.userId
  assignmentId : row.assignmentId = some c.assignment.id

inductive Fits (d : Store) : Phase → Prop where
  | waiting : Fits d .waiting
  | keyed : Fits d .keyed
  | assigned {c : Sitting} (placed : d.assignments.get? c.assignment.id = some c.assignment) :
      Fits d (.assigned c)
  | counted {c : Sitting} {used : ℕ}
      (placed : d.assignments.get? c.assignment.id = some c.assignment)
      (used' : used ≤ finished d c) : Fits d (.counted c used)
  | looked {c : Sitting} {used : ℕ} {live : Option Attempt} (h : Counted d c used live) :
      Fits d (.looked c used live)
  | absent {c : Sitting} {used : ℕ} {live : Option Attempt} (h : Counted d c used live) :
      Fits d (.absent c used live)
  | timed {c : Sitting} {used : ℕ} {live : Option Attempt} {now : Time} {limit : ℤ}
      (h : Counted d c used live) : Fits d (.timed c used live now limit)
  | numbered {c : Sitting} {now : Time} {limit : ℤ} {no : ℕ} (h : Numbered d c no) :
      Fits d (.numbered c now limit no)
  | inserted {c : Sitting} {row : Attempt} (h : Inserted d c row) : Fits d (.answering c row true)
  | storing {c : Sitting} {row : Attempt} {key : Option IdempotencyKey} (h : Inserted d c row) :
      Fits d (.stored c row true key)
  | resumed (c : Sitting) (row : Attempt) : Fits d (.answering c row false)
  | answered (c : Sitting) (row : Attempt) (key : Option IdempotencyKey) :
      Fits d (.stored c row false key)
  | finishing : Fits d .finishing
  | done (a : Answer) : Fits d (.done a)

structure Inv (digest : Body → String) (s : Sys) : Prop where
  locked : Locked (program digest) s
  limited : ∀ userId a, s.store.assignments.get? a.id = some a → Limited s.store userId a
  fits : ∀ r, Fits s.store (s.requests r).phase

variable {digest : Body → String} {d d' : Store} {s t v : Sys} {i : ℕ × Act} {c : Sitting}
  {phase : Phase} {q q' : Request} {act : Act} {userId a no : ℕ}

/-! ## The attempts of one student on one assignment -/

theorem attemptsOf_landAttempt (d : Store) (row : Attempt) (userId a : ℕ) :
    attemptsOf (landAttempt d row) userId a = attemptsOf d userId a ++
      if row.userId = userId ∧ row.assignmentId = some a
      then [{ row with id := d.attempts.nextId }] else [] := by
  unfold attemptsOf landAttempt
  dsimp only
  rw [Table.select_put_of_get?_eq_none (by exact Table.get?_nextId d.attempts)]
  congr 1
  simp only [List.filter_cons, List.filter_nil, decide_eq_true_eq]

theorem statused_keeps (id : ℕ) (status : AttemptStatus) (x : Attempt) :
    (statused id status x).userId = x.userId ∧ (statused id status x).assignmentId = x.assignmentId ∧
      (statused id status x).attemptNo = x.attemptNo := by
  unfold statused
  split <;> exact ⟨rfl, rfl, rfl⟩

theorem attemptsOf_finish (d : Store) (id : ℕ) (status : AttemptStatus) (userId a : ℕ) :
    attemptsOf (finish d id status) userId a =
      (attemptsOf d userId a).map (statused id status) := by
  refine @Table.select_mapRows _ _ _ d.attempts _ (statused_id id status) _ (fun x => ?_)
  obtain ⟨huser, hassignment, _⟩ := statused_keeps id status x
  rw [huser, hassignment]

/-- What a commit can do to them: it finishes some, or it adds the one that was inserted. -/
inductive Grew (q : Request) (userId a : ℕ) (xs ys : List Attempt) : Prop where
  | kept (f : Attempt → Attempt) (numbers : ∀ x, (f x).attemptNo = x.attemptNo)
      (live : ∀ x, (f x).live = true → x.live = true) (rows : ys = xs.map f)
  | added (c : Sitting) (row : Attempt) (key : Option IdempotencyKey) (id : ℕ)
      (phase : q.phase = .stored c row true key) (user : row.userId = userId)
      (assignment : row.assignmentId = some a) (rows : ys = xs ++ [{ row with id }])

theorem Grew.same {xs ys : List Attempt} (h : ys = xs) : Grew q userId a xs ys :=
  .kept id (fun _ => rfl) (fun _ h => h) (by simp [h])

theorem live_statused {id : ℕ} {status : AttemptStatus} (h : AttemptStatus.live status = false)
    (x : Attempt) (hx : (statused id status x).live = true) : x.live = true := by
  unfold statused at hx
  split at hx
  · simp [Attempt.live, h] at hx
  · exact hx

theorem attemptsOf_withKey (d : Store) (key : Option IdempotencyKey) :
    attemptsOf (withKey d key) userId a = attemptsOf d userId a := by
  cases key <;> rfl

theorem grew_of_commit (h : Next digest d q act (.commits d' q')) (userId a : ℕ) :
    Grew q userId a (attemptsOf d userId a) (attemptsOf d' userId a) := by
  cases h with
  | edit => exact .same rfl
  | purge => exact .same rfl
  | finish id status _ _ hended =>
    exact .kept _ (fun x => (statused_keeps id status x).2.2) (live_statused hended)
      (attemptsOf_finish d id status userId a)
  | commit c row new key hphase =>
    cases new with
    | false => exact .same (attemptsOf_withKey d key)
    | true =>
      have hrows : attemptsOf (landStart d row true key) userId a = _ :=
        (attemptsOf_withKey _ key).trans (attemptsOf_landAttempt d row userId a)
      split at hrows
      · next howner => exact .added c row key _ hphase howner.1 howner.2 hrows
      · exact .same (by rw [hrows, List.append_nil])

theorem assignments_of_commit (h : Next digest d q act (.commits d' q')) :
    d'.assignments = d.assignments := by
  cases h with
  | edit => rfl
  | purge => rfl
  | finish => rfl
  | commit c row new key =>
    cases new <;> cases key <;> rfl

namespace Grew

variable {xs ys : List Attempt}

theorem length_le (h : Grew q userId a xs ys) : xs.length ≤ ys.length := by
  cases h with
  | kept f _ _ hrows => simp [hrows]
  | added _ _ _ _ _ _ _ hrows => simp [hrows]

theorem finished_le (h : Grew q userId a xs ys) :
    (xs.filter (fun x => !x.live)).length ≤ (ys.filter (fun x => !x.live)).length := by
  cases h with
  | kept f _ hlive hrows =>
    subst hrows
    rw [← List.countP_eq_length_filter, ← List.countP_eq_length_filter, List.countP_map]
    refine List.countP_mono_left (fun x _ hx => ?_)
    by_contra hfx
    simp only [Function.comp_apply, Bool.not_eq_true, Bool.not_eq_false'] at hfx
    simp [hlive x hfx] at hx
  | added _ _ _ _ _ _ _ hrows =>
    subst hrows
    rw [List.filter_append, List.length_append]
    omega

theorem none_live (h : Grew q userId a xs ys) (hlen : ys.length = xs.length)
    (hnone : ∀ x ∈ xs, x.live = false) : ∀ y ∈ ys, y.live = false := by
  cases h with
  | kept f _ hlive hrows =>
    subst hrows
    intro y hy
    obtain ⟨x, hx, rfl⟩ := List.mem_map.1 hy
    have hx := hnone x hx
    cases hfx : (f x).live with
    | false => rfl
    | true => exact absurd (hlive x hfx) (by simp [hx])
  | added _ _ _ _ _ _ _ hrows => simp [hrows] at hlen

end Grew

theorem Counted.mono {used : ℕ} {live : Option Attempt} (h : Counted d c used live)
    (hassign : d'.assignments = d.assignments)
    (hgrew : Grew q c.userId c.assignment.id (ofSitting d c) (ofSitting d' c)) :
    Counted d' c used live where
  placed := by rw [hassign]; exact h.placed
  counted := h.counted.trans hgrew.finished_le
  limit := h.limit
  seen hlive := (h.seen hlive).trans_le hgrew.length_le

theorem Numbered.mono {no : ℕ} (h : Numbered d c no) (hassign : d'.assignments = d.assignments)
    (hgrew : Grew q c.userId c.assignment.id (ofSitting d c) (ofSitting d' c)) :
    Numbered d' c no where
  placed := by rw [hassign]; exact h.placed
  limit := h.limit
  pos := h.pos
  le := h.le.trans (Nat.add_le_add_right hgrew.length_le 1)
  ready hno := by
    have hle := h.le
    have hlen := hgrew.length_le
    exact hgrew.none_live (by omega) (h.ready (by omega))

theorem Inserted.mono {row : Attempt} (h : Inserted d c row)
    (hassign : d'.assignments = d.assignments)
    (hgrew : Grew q c.userId c.assignment.id (ofSitting d c) (ofSitting d' c))
    (hother : ∀ c' row' key, q.phase = .stored c' row' true key → Inserted d c' row' →
      row'.userId = c.userId → row'.assignmentId = some c.assignment.id → False)
    (hfits : Fits d q.phase) : Inserted d' c row where
  numbered := h.numbered.mono hassign hgrew
  userId := h.userId
  assignmentId := h.assignmentId
  next := by
    cases hgrew with
    | kept f _ _ hrows => rw [hrows, List.length_map, h.next]
    | added c' row' key id hphase huser hassignment hrows =>
      rw [hphase] at hfits
      cases hfits with
      | storing hinserted => exact (hother c' row' key hphase hinserted huser hassignment).elim

theorem Fits.mono (h : Fits d phase) (hassign : d'.assignments = d.assignments)
    (hgrew : ∀ c, Grew q c.userId c.assignment.id (ofSitting d c) (ofSitting d' c))
    (hother : ∀ c row, Inserted d c row →
      phase = .answering c row true ∨ (∃ key, phase = .stored c row true key) →
      ∀ c' row' key, q.phase = .stored c' row' true key → Inserted d c' row' →
      row'.userId = c.userId → row'.assignmentId = some c.assignment.id → False)
    (hfits : Fits d q.phase) : Fits d' phase := by
  cases h with
  | waiting => exact .waiting
  | keyed => exact .keyed
  | assigned h => exact .assigned (by rw [hassign]; exact h)
  | counted h hused =>
    exact .counted (by rw [hassign]; exact h) (hused.trans (hgrew _).finished_le)
  | looked h => exact .looked (h.mono hassign (hgrew _))
  | absent h => exact .absent (h.mono hassign (hgrew _))
  | timed h => exact .timed (h.mono hassign (hgrew _))
  | numbered h => exact .numbered (h.mono hassign (hgrew _))
  | inserted h =>
    exact .inserted (h.mono hassign (hgrew _) (hother _ _ h (.inl rfl)) hfits)
  | storing h =>
    exact .storing (h.mono hassign (hgrew _) (hother _ _ h (.inr ⟨_, rfl⟩)) hfits)
  | resumed => exact .resumed _ _
  | answered => exact .answered _ _ _
  | finishing => exact .finishing
  | done => exact .done _

/-! ## One step -/

theorem placed_of_filter {o : Option Assignment} {p : Assignment → Bool} {a : Assignment}
    (h : o.filter p = some a) : o = some a := (Option.filter_eq_some_iff.1 h).1

theorem fits_replay (u : ℕ) (key : Option String) (body : Body) :
    Fits d (replay digest d u key body) := by
  unfold replay
  split
  · exact .keyed
  · split
    · exact .done _
    · exact .done _

theorem fits_ask (u : ℕ) (key : Option String) (body : Body) (now : Time) :
    Fits d (ask d u key body now) := by
  unfold ask
  split
  · exact .done _
  · next a ha =>
    have hget := placed_of_filter ha
    have hid : a.id = body.assignment := Table.get?_key hget
    split
    · exact .done _
    · split
      · exact .done _
      · refine .assigned ?_
        dsimp only
        rw [hid]
        exact hget

theorem finished_lt (h : ∃ x ∈ ofSitting d c, x.live = true) :
    finished d c < (ofSitting d c).length := by
  obtain ⟨x, hx, hlive⟩ := h
  refine lt_of_le_of_ne (List.length_filter_le _ _) (fun heq => ?_)
  have hall := List.length_filter_eq_length_iff.1 heq x hx
  simp [hlive] at hall

theorem fits_look {used : ℕ} (hplaced : d.assignments.get? c.assignment.id = some c.assignment)
    (hused : used ≤ finished d c) : Fits d (look d c used) := by
  unfold look
  dsimp only
  split
  · exact .done _
  · next hlimit =>
    refine .looked ⟨hplaced, hused, fun hnone => ?_, fun hsome => ?_⟩
    · by_contra hge
      exact hlimit ⟨hnone, by omega⟩
    · obtain ⟨x, hx⟩ := Option.ne_none_iff_exists'.1 hsome
      exact hused.trans_lt
        (finished_lt ⟨x, List.mem_of_find?_eq_some hx, List.find?_some hx⟩)

theorem fits_resume {used : ℕ} {live : Option Attempt} (h : Counted d c used live) :
    Fits d (resume d c used live) := by
  unfold resume
  split
  · exact .resumed _ _
  · exact .absent h

theorem fits_time {used : ℕ} {live : Option Attempt} (now : Time) (h : Counted d c used live) :
    Fits d (time d c used live now) := by
  unfold time
  split
  · exact .done _
  · split
    · exact .done _
    · split
      · exact .done _
      · exact .timed h

theorem foldr_max_range' (n : ℕ) : (List.range' 1 n).foldr max 0 = n := by
  induction n with
  | zero => rfl
  | succ n ih =>
    rw [List.range'_concat, List.foldr_append]
    have hmono : ∀ (l : List ℕ) (k : ℕ), l.foldr max k = max (l.foldr max 0) k := by
      intro l k
      induction l with
      | nil => simp
      | cons x l ih => rw [List.foldr_cons, List.foldr_cons, ih, max_assoc]
    rw [hmono, ih, List.foldr_cons, List.foldr_nil]
    omega

theorem nextAttemptNo_eq (h : Limited d c.userId c.assignment) :
    nextAttemptNo d c = (ofSitting d c).length + 1 := by
  unfold nextAttemptNo ofSitting
  rw [h.numbers, foldr_max_range']

theorem numbered_of_guard {used : ℕ} {live : Option Attempt} (h : Counted d c used live)
    (hlimited : Limited d c.userId c.assignment)
    (hguard : (ofSitting d c).length = used ∧ ∀ x ∈ ofSitting d c, x.live = false) :
    live = none ∧ Numbered d c (nextAttemptNo d c) := by
  have hno := nextAttemptNo_eq hlimited
  have hnone : live = none := by
    by_contra hsome
    have hseen := h.seen hsome
    omega
  have hlimit := h.limit hnone
  exact ⟨hnone, h.placed, by omega, by omega, by omega, fun _ => hguard.2⟩

theorem inserted_of_new (h : Numbered d c no) (hlimited : Limited d c.userId c.assignment)
    (hnew : ∀ x ∈ ofSitting d c, x.attemptNo ≠ no) (now : Time) (limit : ℤ) (xid : String) :
    Inserted d c (newAttempt c now limit no xid) where
  numbered := h
  userId := rfl
  assignmentId := rfl
  next := by
    by_contra hne
    have hle := h.le
    have hpos := h.pos
    have hmem : no ∈ (ofSitting d c).map Attempt.attemptNo := by
      unfold ofSitting at hne hle ⊢
      rw [hlimited.numbers, List.mem_range'_1]
      simp only [newAttempt] at hne
      omega
    obtain ⟨x, hx, hxno⟩ := List.mem_map.1 hmem
    exact hnew x hx hxno

theorem fits_moved (hs : Inv digest s) (hg : Meets s i) (hi : Step (program digest) s i t) :
    Fits t.store (t.requests i.1).phase := by
  obtain ⟨r, act⟩ := i
  have hfits := hs.fits r
  unfold Meets at hg
  dsimp only at hg ⊢
  cases step_cases hi with
  | rolledBack p hnext hstore _ hrequests =>
    rw [hrequests, put_self]
    cases next_cases hnext with
    | refused act e => exact .done _
  | committed p hnext _ hrequests =>
    rw [hrequests, put_self]
    generalize t.store = d' at hnext
    cases next_cases hnext <;> exact .done _
  | went p keys hnext _ hstore _ hrequests =>
    rw [hrequests, put_self, hstore]
    cases next_cases hnext with
    | replay u key body => exact fits_replay u key body
    | ask u key body now => exact fits_ask u key body now
    | count c hphase =>
      rw [hphase] at hfits
      cases hfits with
      | assigned hplaced => exact .counted hplaced le_rfl
    | look c used hphase =>
      rw [hphase] at hfits
      cases hfits with
      | counted hplaced hused => exact fits_look hplaced hused
    | resume c used live hphase =>
      rw [hphase] at hfits
      cases hfits with
      | looked h => exact fits_resume h
    | time c used live now hphase =>
      rw [hphase] at hfits
      cases hfits with
      | absent h => exact fits_time now h
    | number c used live now limit hphase =>
      rw [hphase] at hfits hg
      cases hfits with
      | timed h =>
        exact .numbered (numbered_of_guard h (hs.limited _ _ h.placed) hg).2
    | insert c now limit no xid hphase hnew =>
      rw [hphase] at hfits
      cases hfits with
      | numbered h =>
        exact .inserted (inserted_of_new h (hs.limited _ _ h.placed) hnew now limit xid)
    | store c row new now key hphase =>
      rw [hphase] at hfits
      cases hfits with
      | inserted h => exact .storing h
      | resumed => exact .answered _ _ _
    | write => exact .finishing

theorem inserted_apart (hs : Inv digest s) {r r' : ℕ} {c c' : Sitting} {row row' : Attempt}
    {key' : Option IdempotencyKey} (hr : r' ≠ r)
    (hphase : (s.requests r).phase = .answering c row true ∨
      ∃ key, (s.requests r).phase = .stored c row true key)
    (hphase' : (s.requests r').phase = .stored c' row' true key')
    (h : Inserted s.store c row) (h' : Inserted s.store c' row')
    (huser : row'.userId = c.userId) (hassignment : row'.assignmentId = some c.assignment.id) :
    False := by
  have hc : c'.userId = c.userId := h'.userId.symm.trans huser
  have ha : c'.assignment.id = c.assignment.id := by
    have := h'.assignmentId.symm.trans hassignment
    simpa using this
  have hno : row'.attemptNo = row.attemptNo := by
    rw [h.next, h'.next]
    unfold ofSitting
    rw [hc, ha]
  have hkey : Key.number c.assignment.id c.userId row.attemptNo ∈ owned (s.requests r) := by
    rcases hphase with hphase | ⟨key, hphase⟩ <;> simp [owned, hphase]
  have hkey' : Key.number c.assignment.id c.userId row.attemptNo ∈ owned (s.requests r') := by
    simp [owned, hphase', hc, ha, hno]
  exact hr (hs.locked.unique hkey' hkey)

theorem limited_of_kept {xs : List Attempt} {f : Attempt → Attempt}
    (hrows : attemptsOf d' userId a = xs.map f)
    (hold : attemptsOf d userId a = xs) (numbers : ∀ x, (f x).attemptNo = x.attemptNo)
    (live : ∀ x, (f x).live = true → x.live = true) {asg : Assignment} (ha : asg.id = a)
    (h : Limited d userId asg) : Limited d' userId asg := by
  subst ha
  subst hold
  have hlen : (attemptsOf d' userId asg.id).length = (attemptsOf d userId asg.id).length := by
    rw [hrows, List.length_map]
  refine ⟨?_, ?_, ?_⟩
  · have hmap : (attemptsOf d' userId asg.id).map Attempt.attemptNo =
        (attemptsOf d userId asg.id).map Attempt.attemptNo := by
      rw [hrows, List.map_map]
      exact List.map_congr_left (fun x _ => numbers x)
    rw [hlen, hmap]
    exact h.numbers
  · refine le_trans ?_ h.single
    rw [hrows, ← List.countP_eq_length_filter, ← List.countP_eq_length_filter, List.countP_map]
    exact List.countP_mono_left (fun x _ hx => live x hx)
  · rw [hlen]
    exact h.bound

theorem limited_of_added {row : Attempt} {id : ℕ} {asg : Assignment}
    (hrows : attemptsOf d' userId asg.id = attemptsOf d userId asg.id ++ [{ row with id }])
    (hno : row.attemptNo = (attemptsOf d userId asg.id).length + 1)
    (hnone : ∀ x ∈ attemptsOf d userId asg.id, x.live = false)
    (hlimit : (row.attemptNo : ℤ) ≤ asg.maxAttempts) (h : Limited d userId asg) :
    Limited d' userId asg where
  numbers := by
    rw [hrows, List.map_append, h.numbers, List.length_append, List.length_singleton,
      List.range'_concat]
    simp [hno, Nat.add_comm]
  single := by
    rw [hrows, List.filter_append, List.filter_eq_nil_iff.2 (fun x hx => by simp [hnone x hx])]
    exact List.length_filter_le _ _
  bound := by
    rw [hrows, List.length_append, List.length_singleton, ← hno]
    exact hlimit.trans (le_max_left _ _)

theorem limited_step (hs : Inv digest s) (hi : Step (program digest) s i t)
    (userId : ℕ) (a : Assignment) (ha : t.store.assignments.get? a.id = some a) :
    Limited t.store userId a := by
  revert ha
  refine database_step (J := fun d => d.assignments.get? a.id = some a → Limited d userId a) hi
    (hs.limited userId a) (fun d p hnext ha => ?_)
  have hnext := next_cases hnext
  rw [assignments_of_commit hnext] at ha
  have hold := hs.limited userId a ha
  cases grew_of_commit hnext userId a.id with
  | kept f hnumbers hlive hrows => exact limited_of_kept hrows rfl hnumbers hlive rfl hold
  | added c row key id hphase huser hassignment hrows =>
    have hfits := hs.fits i.1
    rw [hphase] at hfits
    cases hfits with
    | storing h =>
      have hc : c.userId = userId := h.userId.symm.trans huser
      have hid : c.assignment.id = a.id := by
        have := h.assignmentId.symm.trans hassignment
        simpa using this
      have hasg : c.assignment = a := by
        have hplaced := h.numbered.placed
        rw [hid, ha] at hplaced
        cases hplaced
        rfl
      have hno := h.next
      have hready := h.numbered.ready hno
      unfold ofSitting at hno hready
      rw [hc, hasg] at hno hready
      exact limited_of_added hrows hno hready (hasg ▸ h.numbered.limit) hold

theorem inv_step (hs : Inv digest s) (hg : Meets s i) (hi : Step (program digest) s i t) :
    Inv digest t where
  locked := locked_step hs.locked hi
  limited := limited_step hs hi
  fits r := by
    by_cases hr : r = i.1
    · subst hr
      exact fits_moved hs hg hi
    · rw [requests_of_ne hi hr]
      refine database_step (J := (Fits · _)) hi (hs.fits r) (fun d p hnext => ?_)
      have hnext := next_cases hnext
      refine (hs.fits r).mono (assignments_of_commit hnext)
        (fun c => grew_of_commit hnext c.userId c.assignment.id) ?_ (hs.fits i.1)
      intro c row h hphase c' row' key' hphase' h' huser hassignment
      exact inserted_apart hs (fun heq => hr heq.symm) hphase hphase' h h' huser hassignment

theorem inv_start (digest : Body → String) (assignments : Table Assignment ℕ Assignment.id)
    (around : Surroundings) (calls : ℕ → Call) : Inv digest (start assignments around calls) where
  locked := locked_start (fun _ => rfl)
  fits _ := .waiting
  limited _ _ _ :=
    { numbers := rfl, single := Nat.zero_le _, bound := le_max_right _ _ }

/-! ## A start that sees a live attempt -/

/-- The phases of a start that does not go on to a new attempt. -/
inductive Resuming : Phase → Prop where
  | looked (c : Sitting) (used : ℕ) (x : Attempt) : Resuming (.looked c used (some x))
  | absent (c : Sitting) (used : ℕ) (x : Attempt) : Resuming (.absent c used (some x))
  | timed (c : Sitting) (used : ℕ) (x : Attempt) (now : Time) (limit : ℤ) :
      Resuming (.timed c used (some x) now limit)
  | answering (c : Sitting) (x : Attempt) : Resuming (.answering c x false)
  | stored (c : Sitting) (x : Attempt) (key : Option IdempotencyKey) :
      Resuming (.stored c x false key)
  | resumed (x : Attempt) : Resuming (.done (.attempt x false))
  | refused (e : Refusal) : Resuming (.done (.refused e))

/-- The answer of the start is to be this attempt, or it fails. -/
inductive Returning (x : Attempt) : Phase → Prop where
  | answering (c : Sitting) : Returning x (.answering c x false)
  | stored (c : Sitting) (key : Option IdempotencyKey) : Returning x (.stored c x false key)
  | resumed : Returning x (.done (.attempt x false))
  | refused (e : Refusal) : Returning x (.done (.refused e))

theorem returning_next {x : Attempt} {m : Move Store Key Request} (h : Returning x q.phase)
    (hnext : next digest d q act = some m) : Returning x m.phase.phase := by
  obtain ⟨call, phase⟩ := q
  dsimp only at h
  have hnext := next_cases hnext
  cases h with
  | answering c =>
    cases hnext with
    | refused act e => exact .refused e
    | store c row new now key hphase =>
      cases hphase
      exact .stored _ _
    | _ => contradiction
  | stored c key =>
    cases hnext with
    | refused act e => exact .refused e
    | commit c row new key hphase =>
      cases hphase
      exact .resumed
    | _ => contradiction
  | resumed =>
    cases hnext with
    | refused act e => exact .refused e
    | _ => contradiction
  | refused e =>
    cases hnext with
    | refused act e => exact .refused e
    | _ => contradiction

theorem resuming_next {m : Move Store Key Request} (h : Resuming q.phase)
    (hnumber : ∀ c used x now limit, q.phase = .timed c used (some x) now limit → act ≠ .number)
    (hnext : next digest d q act = some m) : Resuming m.phase.phase := by
  obtain ⟨call, phase⟩ := q
  dsimp only at h hnumber
  have hnext := next_cases hnext
  cases h with
  | looked c used x =>
    cases hnext with
    | refused act e => exact .refused e
    | resume c used live hphase =>
      cases hphase
      dsimp only [Move.phase, resume]
      split
      · exact .answering _ _
      · exact .absent _ _ _
    | _ => contradiction
  | absent c used x =>
    cases hnext with
    | refused act e => exact .refused e
    | time c used live now hphase =>
      cases hphase
      dsimp only [Move.phase, time]
      split
      · exact .refused _
      · split
        · exact .refused _
        · split
          · exact .refused _
          · exact .timed _ _ _ _ _
    | _ => contradiction
  | timed c used x now limit =>
    cases hnext with
    | refused act e => exact .refused e
    | number => exact absurd rfl (hnumber _ _ _ _ _ rfl)
    | _ => contradiction
  | answering c x =>
    cases hnext with
    | refused act e => exact .refused e
    | store c row new now key hphase =>
      cases hphase
      exact .stored _ _ _
    | _ => contradiction
  | stored c x key =>
    cases hnext with
    | refused act e => exact .refused e
    | commit c row new key hphase =>
      cases hphase
      exact .resumed _
    | _ => contradiction
  | resumed x =>
    cases hnext with
    | refused act e => exact .refused e
    | _ => contradiction
  | refused e =>
    cases hnext with
    | refused act e => exact .refused e
    | _ => contradiction

theorem resuming_step {r : ℕ} (hs : Inv digest s) (hg : Meets s i)
    (hi : Step (program digest) s i t) (h : Resuming (s.requests r).phase) :
    Resuming (t.requests r).phase := by
  refine phase_step (C := fun q => Resuming q.phase) hi h (fun hr m hnext => ?_)
  refine resuming_next h (fun c used x now limit hphase hact => ?_) hnext
  subst hr
  have hfits := hs.fits i.1
  simp only [Meets, hphase, hact] at hg
  rw [hphase] at hfits
  cases hfits with
  | timed hcounted =>
    have hnone := (numbered_of_guard hcounted (hs.limited _ _ hcounted.placed) hg).1
    cases hnone

/-- What the limit promises of a step of any of the requests, in a run that goes on to `v`. -/
structure Holds (s : Sys) (i : ℕ × Act) (t v : Sys) : Prop where
  limited : ∀ userId a, t.store.assignments.get? a.id = some a → Limited t.store userId a
  /-- A start that looks while an attempt is live creates none. -/
  seen : ∀ {c used x}, (s.requests i.1).phase = .counted c used → i.2 = .look →
    x ∈ ofSitting s.store c → x.live = true →
    ∀ row, (v.requests i.1).phase ≠ .done (.attempt row true)
  /-- A start that asks for the live attempt while there is one is answered with it. -/
  returned : ∀ {c used live x}, (s.requests i.1).phase = .looked c used live → i.2 = .resume →
    x ∈ ofSitting s.store c → x.live = true →
    ∀ row new, (v.requests i.1).phase = .done (.attempt row new) → row = x ∧ new = false

theorem find_live {d : Store} {c : Sitting} {x : Attempt} (h : x ∈ ofSitting d c)
    (hlive : x.live = true) : ∃ y, (ofSitting d c).find? Attempt.live = some y := by
  rw [← Option.isSome_iff_exists, List.find?_isSome]
  exact ⟨x, h, hlive⟩

theorem find_single (hlimited : Limited d c.userId c.assignment) {x : Attempt}
    (h : x ∈ ofSitting d c) (hlive : x.live = true) :
    (ofSitting d c).find? Attempt.live = some x := by
  obtain ⟨y, hy⟩ := find_live h hlive
  have hx : x ∈ (ofSitting d c).filter Attempt.live := List.mem_filter.2 ⟨h, hlive⟩
  have hy' : y ∈ (ofSitting d c).filter Attempt.live :=
    List.mem_filter.2 ⟨List.mem_of_find?_eq_some hy, List.find?_some hy⟩
  have hsingle : ((ofSitting d c).filter Attempt.live).length ≤ 1 := hlimited.single
  obtain ⟨z, hz⟩ := List.length_eq_one_iff.1 (le_antisymm hsingle (List.length_pos_of_mem hx))
  rw [hz, List.mem_singleton] at hx hy'
  rw [hy, hx, hy']

theorem inv_runs {u : Sys} {is : List (ℕ × Act)} (hs : Inv digest s)
    (hrun : Runs (Step (program digest)) Meets s is u) : Inv digest u :=
  hrun.invariant (fun _ _ _ hs hg hi => inv_step hs hg hi) hs

theorem phase_runs {C : Phase → Prop} {r : ℕ} {is : List (ℕ × Act)} (ht : Inv digest t)
    (hrun : Runs (Step (program digest)) Meets t is v)
    (hstep : ∀ s i u, Inv digest s → Meets s i → Step (program digest) s i u →
      C (s.requests r).phase → C (u.requests r).phase)
    (h : C (t.requests r).phase) : C (v.requests r).phase :=
  (hrun.invariant (I := fun u => Inv digest u ∧ C (u.requests r).phase)
    (fun s i u hs hg hi => ⟨inv_step hs.1 hg hi, hstep s i u hs.1 hg hi hs.2⟩) ⟨ht, h⟩).2

theorem seen_of_look {used : ℕ} {x : Attempt} {is : List (ℕ × Act)} (ht : Inv digest t)
    (hi : Step (program digest) s i t) (hrun : Runs (Step (program digest)) Meets t is v)
    (hphase : (s.requests i.1).phase = .counted c used) (hact : i.2 = .look)
    (h : x ∈ ofSitting s.store c) (hlive : x.live = true) (row : Attempt) :
    (v.requests i.1).phase ≠ .done (.attempt row true) := by
  obtain ⟨y, hy⟩ := find_live h hlive
  have hresuming : Resuming (t.requests i.1).phase := by
    have hlook : next digest s.store (s.requests i.1) i.2 = some (.goes
        { s.requests i.1 with phase := .looked c used (some y) } []) := by
      simp [next, hphase, hact, look, hy]
    rw [(moved_of_next hi hlook).1]
    exact .looked _ _ _
  have hlast := phase_runs ht hrun (fun _ _ _ hs hg hi => resuming_step hs hg hi) hresuming
  intro hdone
  rw [hdone] at hlast
  cases hlast

theorem returned_of_resume {used : ℕ} {live : Option Attempt} {x : Attempt} {is : List (ℕ × Act)}
    (hs : Inv digest s) (ht : Inv digest t) (hi : Step (program digest) s i t)
    (hrun : Runs (Step (program digest)) Meets t is v)
    (hphase : (s.requests i.1).phase = .looked c used live) (hact : i.2 = .resume)
    (h : x ∈ ofSitting s.store c) (hlive : x.live = true) (row : Attempt) (new : Bool)
    (hdone : (v.requests i.1).phase = .done (.attempt row new)) : row = x ∧ new = false := by
  have hfits := hs.fits i.1
  rw [hphase] at hfits
  have hfind : (ofSitting s.store c).find? Attempt.live = some x := by
    cases hfits with
    | looked hcounted => exact find_single (hs.limited _ _ hcounted.placed) h hlive
  have hreturning : Returning x (t.requests i.1).phase := by
    have hresume : next digest s.store (s.requests i.1) i.2 = some (.goes
        { s.requests i.1 with phase := .answering c x false } []) := by
      simp [next, hphase, hact, resume, hfind]
    rw [(moved_of_next hi hresume).1]
    exact .answering _
  have hlast := phase_runs ht hrun (C := Returning x) (fun _ i _ _ _ hi h =>
    phase_step (C := fun q => Returning x q.phase) hi h
      (fun _ _ hnext => returning_next h hnext)) hreturning
  rw [hdone] at hlast
  cases hlast
  exact ⟨rfl, rfl⟩

def Limit (digest : Body → String) (g : Sys → ℕ × Act → Prop) : Prop :=
  ∀ assignments around calls is s i t js v,
    Runs (Step (program digest)) g (start assignments around calls) is s → g s i →
    Step (program digest) s i t → Runs (Step (program digest)) g t js v → Holds s i t v

theorem attempts_limited (digest : Body → String) : Limit digest Meets := by
  intro assignments around calls is s i t js v hrun hg hi hlater
  have hs := inv_runs (inv_start digest assignments around calls) hrun
  have ht := inv_step hs hg hi
  exact
    { limited := ht.limited
      seen := fun hphase hact h hlive => seen_of_look ht hi hlater hphase hact h hlive
      returned := fun hphase hact h hlive =>
        returned_of_resume hs ht hi hlater hphase hact h hlive }

/-! ## Two starts at once -/

def sampleAssignment : Assignment where
  id := 1
  testVersionId := 1
  opensAt := 0
  closesAt := seconds 86400

def sampleVersions : Table ContentModels.TestVersion ℕ ContentModels.TestVersion.id :=
  ⟨[{ id := 1, xid := "v1" }], by decide⟩

def impatient : Sys :=
  start ⟨[sampleAssignment], by decide⟩ { testVersions := sampleVersions, targets := [(1, 1)] }
    (fun _ => .start 1 none { assignment := 1 })

def beforeNumber : List Act := [.replay, .ask 1, .count, .look, .resume]

def fromNumber (xid : String) : List Act := [.time 1, .number, .insert xid, .store 1]

def overlap : List (ℕ × Act) :=
  beforeNumber.map (fun a => (0, a)) ++ beforeNumber.map (fun a => (1, a)) ++
    (fromNumber "a1").map (fun a => (1, a)) ++ [(1, .commit)] ++
    (fromNumber "a2").map (fun a => (0, a))

theorem not_limit_of_overlap : ¬ Limit (fun _ => "") (fun _ _ => True) := by
  intro h
  have hrun : ((follow (step (program (fun _ => ""))) (fun _ _ => True) overlap impatient).bind
      (fun s => (step (program (fun _ => "")) s (0, .commit)).map (fun t =>
        (t.store.assignments.get? 1, (attemptsOf t.store 1 1).length)))) =
      some (some sampleAssignment, 2) := by
    decide +kernel
  obtain ⟨s, hs, hlast⟩ := Option.bind_eq_some_iff.1 hrun
  obtain ⟨t, ht, hboth⟩ := Option.map_eq_some_iff.1 hlast
  rw [Prod.mk.injEq] at hboth
  have hlimited := (h _ _ _ _ _ _ _ _ _ (runs_of_follow hs) trivial ht (.refl t)).limited
    1 sampleAssignment hboth.1
  have hbound := hlimited.bound
  rw [show (attemptsOf t.store 1 sampleAssignment.id).length = 2 from hboth.2] at hbound
  simp [sampleAssignment] at hbound

end IeltsHub.AttemptLimit
