import IeltsHub.IdempotencyKeys

set_option autoImplicit false

/-!
# A key is spent once

The unique index lets one row of a key in, and a transaction that has inserted it holds the key
until it commits. So while the row is not swept the work of a key lands once, and whoever succeeds
with the key answers what that row holds.
-/
namespace IeltsHub.IdempotentReplay
open PyTime PyValue RowTable IdempotencyKeys ReadCommitted GuardedRuns

variable {δ : Type} {d₀ : Store δ} {s t : Sys δ} {i : ℕ × Act δ} {k : Unique} {r r' : ℕ}
  {x : Json} {row : IdempotencyKey}

/-! ## What a request came to -/

def Executes (q : Request δ) (x : Json) : Prop := q.phase = .done (.executed x)

def Replays (q : Request δ) (x : Json) : Prop := q.phase = .done (.replayed x)

def Succeeds (q : Request δ) (x : Json) : Prop := Executes q x ∨ Replays q x

def presented : Call → Option Unique
  | .guarded route key userId _ => key.map (fun k => (route.scope, k, userId))
  | _ => none

theorem unique_of_presented {call : Call} (h : presented call = some k) (hk : k.2.1 ≠ "") :
    call.unique = some k := by
  cases call with
  | guarded route key userId body =>
    obtain ⟨key, rfl, rfl⟩ := Option.map_eq_some_iff.1 h
    have hkey : key ≠ "" := hk
    simp [Call.unique, Option.filter_some, hkey]
  | sweep => cases h
  | other => cases h

/-! ## Steps of a request -/

theorem not_done_of_next {d : Store δ} {q : Request δ} {act : Act δ}
    {m : Move (Store δ) Unique (Request δ)} (h : next d q act = some m) (a : Answer) :
    q.phase ≠ .done a := by
  intro hdone
  unfold next at h
  rw [hdone] at h
  split at h <;> simp_all [Phase.isDone]

theorem call_step (h : Step (program δ) s i t) (r : ℕ) :
    (t.requests r).call = (s.requests r).call := by
  apply phase_step (C := fun q => q.call = (s.requests r).call) h rfl
  intro _ m hnext
  have hn := next_cases hnext
  generalize i.2 = act at hn
  cases hn with
  | _ => rfl

theorem done_step {a : Answer} (h : Step (program δ) s i t) (hr : (s.requests r).phase = .done a) :
    (t.requests r).phase = .done a := by
  apply phase_step (C := fun q => q.phase = .done a) h hr
  intro _ m hnext
  exact absurd hr (not_done_of_next hnext a)

/-! ## The row of a key -/

/-- The row answers for the request. -/
structure Answers (row : IdempotencyKey) (q : Request δ) (x : Json) : Prop where
  unique : q.call.unique = some row.unique
  hash : row.requestHash = q.call.fingerprint
  response : row.responseBody = x

def Pending (d : Store δ) (q : Request δ) : Prop :=
  ∀ land x row?, q.phase = .stored land x row? →
    match row? with
    | none => q.call.unique = none
    | some row => Answers row q x ∧ d.keys.get? row.unique = none

theorem kept_absent : Kept (program δ) (fun d k => d.keys.get? k = none) := by
  intro d q act d' q' k h hk hnone
  cases next_cases h with
  | replayed => exact hnone
  | commit land response row hphase =>
    cases row with
    | none => exact hnone
    | some row =>
      refine (Table.get?_put_of_ne _ ?_).trans hnone
      intro hrow
      apply hk
      change k ∈ owned q
      unfold owned
      rw [hphase, ← hrow]
      exact List.mem_singleton_self _
  | sweep now =>
    apply Table.get?_eq_none.2
    intro row hrow
    exact Table.get?_eq_none.1 hnone row (List.mem_filter.1 hrow).1
  | write land => exact hnone

/-! ## The invariant -/

/-- The row of the key that is stored is not old enough to be swept. -/
def Unswept (k : Unique) (s : Sys δ) (i : ℕ × Act δ) : Prop :=
  ∀ now row, i.2 = .sweep now → s.store.keys.get? k = some row → now ≤ row.expiresAt

structure Inv (d₀ : Store δ) (k : Unique) (s : Sys δ) : Prop where
  locked : Locked (program δ) s
  pending : ∀ r, Pending s.store (s.requests r)
  answered : ∀ r x, (s.requests r).call.unique = some k → Succeeds (s.requests r) x →
    ∃ row, s.store.keys.get? k = some row ∧ Answers row (s.requests r) x
  once : ∀ r r' x x', (s.requests r).call.unique = some k → (s.requests r').call.unique = some k →
    Executes (s.requests r) x → Executes (s.requests r') x' → r = r'
  spent : ∀ row, d₀.keys.get? k = some row → s.store.keys.get? k = some row ∧
    ∀ r x, (s.requests r).call.unique = some k → ¬ Executes (s.requests r) x

theorem pending_step (h : Step (program δ) s i t) (hs : Locked (program δ) s)
    (hpending : ∀ r, Pending s.store (s.requests r)) (r : ℕ) : Pending t.store (t.requests r) := by
  intro land x row? hphase
  by_cases hr : r = i.1
  · subst hr
    obtain ⟨m, hnext, hmoved, hstore⟩ := step_moved h
    rw [hmoved] at hphase ⊢
    rw [hstore]
    have hn := next_cases hnext
    generalize s.requests i.1 = q at hn
    generalize i.2 = act at hn
    cases hn with
    | bare land response now hkey =>
      cases hphase
      exact hkey
    | stored land response now row hkey hhash hresponse hfree =>
      cases hphase
      exact ⟨⟨hkey, hhash, hresponse⟩, hfree⟩
    | _ => cases hphase
  · rw [requests_of_ne h hr] at hphase ⊢
    have hold := hpending r land x row? hphase
    cases row? with
    | none => exact hold
    | some row =>
      refine ⟨hold.1, ?_⟩
      have hown : row.unique ∈ (program δ).owned (s.requests r) := by
        change row.unique ∈ owned (s.requests r)
        unfold owned
        rw [hphase]
        exact List.mem_singleton_self _
      exact kept_absent.step hs h hown hr hold.2

theorem row_step (h : Step (program δ) s i t) (hpending : ∀ r, Pending s.store (s.requests r))
    (hg : Unswept k s i) (hrow : s.store.keys.get? k = some row) :
    t.store.keys.get? k = some row := by
  refine database_step (J := fun d => d.keys.get? k = some row) h hrow (fun d p hnext => ?_)
  have hn := next_cases hnext
  have hpend := hpending i.1
  unfold Unswept at hg
  generalize s.requests i.1 = q at hn hpend
  generalize i.2 = act at hn hg
  cases hn with
  | replayed => exact hrow
  | commit land response row? hphase =>
    cases row? with
    | none => exact hrow
    | some new =>
      refine (Table.get?_put_of_ne _ ?_).trans hrow
      intro hnew
      have hfree := (hpend land response (some new) hphase).2
      rw [hnew, hrow] at hfree
      cases hfree
  | sweep now =>
    obtain ⟨hmem, hkey⟩ := Table.get?_eq_some.1 hrow
    apply Table.get?_eq_some.2
    refine ⟨List.mem_filter.2 ⟨hmem, ?_⟩, hkey⟩
    have hfresh := hg now row rfl hrow
    simp [hfresh]
  | write land => exact hrow

theorem answered_step (h : Step (program δ) s i t) (hpending : ∀ r, Pending s.store (s.requests r))
    (hkey : (t.requests i.1).call.unique = some k) (hx : Succeeds (t.requests i.1) x) :
    (∃ row, t.store.keys.get? k = some row ∧ Answers row (t.requests i.1) x) ∧
      (Executes (t.requests i.1) x → s.store.keys.get? k = none) := by
  obtain ⟨m, hnext, hmoved, hstore⟩ := step_moved h
  rw [hmoved] at hx hkey ⊢
  rw [hstore]
  have hn := next_cases hnext
  have hpend := hpending i.1
  generalize s.requests i.1 = q at hn hpend
  generalize i.2 = act at hn
  cases hn with
  | replayed k' row hk' hrow hhash =>
    have hk' : some k' = some k := hk'.symm.trans hkey
    cases hk'
    have hrowKey := Table.get?_key hrow
    rcases hx with hx | hx
    · cases hx
    · cases hx
      refine ⟨⟨row, hrow, ?_, hhash, rfl⟩, ?_⟩
      · rw [hkey, ← hrowKey]
      · intro hexec
        cases hexec
  | commit land response row? hphase =>
    have hpend := hpend land response row? hphase
    cases row? with
    | none =>
      have hnone : q.call.unique = none := hpend
      cases hnone.symm.trans hkey
    | some row =>
      obtain ⟨hanswers, hfree⟩ := hpend
      have hrow : some row.unique = some k := hanswers.unique.symm.trans hkey
      cases hrow
      rcases hx with hx | hx
      · cases hx
        exact ⟨⟨row, Table.get?_put_self _ row, hanswers.unique, hanswers.hash,
          hanswers.response⟩, fun _ => hfree⟩
      · cases hx
  | _ => rcases hx with hx | hx <;> cases hx

theorem inv_start (d : Store δ) (calls : ℕ → Call) : Inv d k (start d calls) where
  locked := locked_start (fun _ => rfl)
  pending r land x row? h := by cases h
  answered r x _ h := by rcases h with h | h <;> cases h
  once r r' x x' _ _ h := by cases h
  spent row hrow := ⟨hrow, fun r x _ h => by cases h⟩

theorem inv_step (hs : Inv d₀ k s) (hg : Unswept k s i) (h : Step (program δ) s i t) :
    Inv d₀ k t := by
  have hnew : ∀ x, (t.requests i.1).call.unique = some k → Executes (t.requests i.1) x →
      s.store.keys.get? k = none := fun x hkey hx =>
    (answered_step h hs.pending hkey (.inl hx)).2 hx
  have hold : ∀ r x, r ≠ i.1 → (t.requests r).call.unique = some k → Executes (t.requests r) x →
      s.store.keys.get? k ≠ none := by
    intro r x hr hkey hx hnone
    rw [requests_of_ne h hr] at hkey hx
    obtain ⟨row, hrow, _⟩ := hs.answered r x hkey (.inl hx)
    rw [hnone] at hrow
    cases hrow
  constructor
  · exact locked_step hs.locked h
  · exact pending_step h hs.locked hs.pending
  · intro r x hkey hx
    by_cases hr : r = i.1
    · subst hr
      exact (answered_step h hs.pending hkey hx).1
    · rw [requests_of_ne h hr] at hkey hx ⊢
      obtain ⟨row, hrow, hanswers⟩ := hs.answered r x hkey hx
      exact ⟨row, row_step h hs.pending hg hrow, hanswers⟩
  · intro r r' x x' hkey hkey' hx hx'
    by_cases hr : r = i.1
    · by_cases hr' : r' = i.1
      · rw [hr, hr']
      · subst hr
        exact absurd (hnew x hkey hx) (hold r' x' hr' hkey' hx')
    · by_cases hr' : r' = i.1
      · subst hr'
        exact absurd (hnew x' hkey' hx') (hold r x hr hkey hx)
      · rw [requests_of_ne h hr] at hkey hx
        rw [requests_of_ne h hr'] at hkey' hx'
        exact hs.once r r' x x' hkey hkey' hx hx'
  · intro row hrow
    obtain ⟨hhere, hnone⟩ := hs.spent row hrow
    refine ⟨row_step h hs.pending hg hhere, ?_⟩
    intro r x hkey hx
    by_cases hr : r = i.1
    · subst hr
      have hfree := hnew x hkey hx
      rw [hhere] at hfree
      cases hfree
    · rw [requests_of_ne h hr] at hkey hx
      exact hnone r x hkey hx

theorem inv_runs {calls : ℕ → Call} {is : List (ℕ × Act δ)}
    (h : Runs (Step (program δ)) (Unswept k) (start d₀ calls) is s) : Inv d₀ k s :=
  h.invariant (fun _ _ _ hs hg hstep => inv_step hs hg hstep) (inv_start d₀ calls)

/-! ## Where a replayed response comes from -/

/-- Somebody stored it with this very key and body, before or in the run. -/
def Sourced (d₀ : Store δ) (s : Sys δ) (row : IdempotencyKey) : Prop :=
  d₀.keys.get? row.unique = some row ∨
    ∃ r, Executes (s.requests r) row.responseBody ∧ (s.requests r).call.unique = some row.unique ∧
      (s.requests r).call.fingerprint = row.requestHash

theorem Sourced.step (h : Step (program δ) s i t) (hrow : Sourced d₀ s row) : Sourced d₀ t row := by
  rcases hrow with hold | ⟨r, hx, hkey, hhash⟩
  · exact .inl hold
  · exact .inr ⟨r, done_step h hx, by rw [call_step h]; exact hkey, by rw [call_step h]; exact hhash⟩

structure Traced (d₀ : Store δ) (s : Sys δ) : Prop where
  locked : Locked (program δ) s
  pending : ∀ r, Pending s.store (s.requests r)
  rows : ∀ row ∈ s.store.keys.rows, Sourced d₀ s row
  replayed : ∀ r x, Replays (s.requests r) x →
    ∃ row, Sourced d₀ s row ∧ Answers row (s.requests r) x

theorem rows_step (hs : Traced d₀ s) (h : Step (program δ) s i t) :
    ∀ row ∈ t.store.keys.rows, row ∈ s.store.keys.rows ∨ ∃ x, Executes (t.requests i.1) x ∧
      Answers row (s.requests i.1) x := by
  intro row hrow
  obtain ⟨m, hnext, hmoved, hstore⟩ := step_moved h
  rw [hstore] at hrow
  rw [hmoved]
  have hn := next_cases hnext
  have hpend := hs.pending i.1
  generalize s.requests i.1 = q at hn hpend
  generalize i.2 = act at hn
  cases hn with
  | commit land response row? hphase =>
    cases row? with
    | none => exact .inl hrow
    | some new =>
      rcases Table.mem_put.1 hrow with rfl | ⟨hold, -⟩
      · exact .inr ⟨response, rfl, (hpend land response (some row) hphase).1⟩
      · exact .inl hold
  | sweep now => exact .inl (List.mem_filter.1 hrow).1
  | _ => exact .inl hrow

theorem replayed_step (h : Step (program δ) s i t) (hx : Replays (t.requests i.1) x) :
    ∃ row ∈ s.store.keys.rows, Answers row (t.requests i.1) x := by
  obtain ⟨m, hnext, hmoved, -⟩ := step_moved h
  rw [hmoved] at hx ⊢
  have hn := next_cases hnext
  generalize s.requests i.1 = q at hn
  generalize i.2 = act at hn
  cases hn with
  | replayed k row hkey hrow hhash =>
    cases hx
    obtain ⟨hmem, hunique⟩ := Table.get?_eq_some.1 hrow
    exact ⟨row, hmem, by rw [hunique]; exact hkey, hhash, rfl⟩
  | _ => cases hx

theorem traced_step (hs : Traced d₀ s) (h : Step (program δ) s i t) : Traced d₀ t := by
  constructor
  · exact locked_step hs.locked h
  · exact pending_step h hs.locked hs.pending
  · intro row hrow
    rcases rows_step hs h row hrow with hold | ⟨x, hx, hanswers⟩
    · exact (hs.rows row hold).step h
    · refine .inr ⟨i.1, ?_, ?_, ?_⟩
      · rw [hanswers.response]
        exact hx
      · rw [call_step h]
        exact hanswers.unique
      · rw [call_step h]
        exact hanswers.hash.symm
  · intro r x hx
    by_cases hr : r = i.1
    · subst hr
      obtain ⟨row, hrow, hanswers⟩ := replayed_step h hx
      exact ⟨row, (hs.rows row hrow).step h, hanswers⟩
    · rw [requests_of_ne h hr] at hx ⊢
      obtain ⟨row, hrow, hanswers⟩ := hs.replayed r x hx
      exact ⟨row, hrow.step h, hanswers⟩

theorem traced_start (d : Store δ) (calls : ℕ → Call) : Traced d (start d calls) where
  locked := locked_start (fun _ => rfl)
  pending r land x row? h := by cases h
  rows row hrow := .inl (Table.get?_eq_some.2 ⟨hrow, rfl⟩)
  replayed r x h := by cases h

/-! ## The law -/

/-- What a key is worth: its work lands once, and whoever succeeds with it sent one body and is
answered one response, which is of the same user, scope and key. -/
structure ReplayedOnce (d₀ : Store δ) (k : Unique) (s : Sys δ) : Prop where
  once : ∀ r r' x x', presented (s.requests r).call = some k →
    presented (s.requests r').call = some k → Executes (s.requests r) x →
    Executes (s.requests r') x' → r = r'
  spent : ∀ row, d₀.keys.get? k = some row → ∀ r x, presented (s.requests r).call = some k →
    ¬ Executes (s.requests r) x
  same : ∀ r r' x x', presented (s.requests r).call = some k →
    presented (s.requests r').call = some k → Succeeds (s.requests r) x →
    Succeeds (s.requests r') x' →
    x = x' ∧ (s.requests r).call.fingerprint = (s.requests r').call.fingerprint
  own : ∀ r x, presented (s.requests r).call = some k → Replays (s.requests r) x →
    (∃ row, d₀.keys.get? k = some row ∧ row.responseBody = x) ∨
      ∃ r', Executes (s.requests r') x ∧ presented (s.requests r').call = some k
  quiet : ∀ i t, Step (program δ) s i t → presented (s.requests i.1).call = some k →
    (∀ x, ¬ Executes (t.requests i.1) x) → t.store = s.store

theorem presented_of_unique {call : Call} (h : call.unique = some k) : presented call = some k := by
  cases call with
  | guarded route key userId body =>
    obtain ⟨key', hkey, rfl⟩ := Option.map_eq_some_iff.1 h
    exact Option.map_eq_some_iff.2 ⟨key', (Option.filter_eq_some_iff.1 hkey).1, rfl⟩
  | sweep => cases h
  | other => cases h

theorem quiet_step (h : Step (program δ) s i t) (hkey : presented (s.requests i.1).call = some k)
    (hx : ∀ x, ¬ Executes (t.requests i.1) x) : t.store = s.store := by
  obtain ⟨m, hnext, hmoved, hstore⟩ := step_moved h
  rw [hmoved] at hx
  rw [hstore]
  have hn := next_cases hnext
  generalize s.requests i.1 = q at hn hkey
  generalize i.2 = act at hn
  cases hn with
  | commit land response row? hphase => exact absurd rfl (hx response)
  | sweep now hcall =>
    rw [hcall] at hkey
    cases hkey
  | write land hcall =>
    rw [hcall] at hkey
    cases hkey
  | _ => rfl

theorem key_spent_once (d₀ : Store δ) (calls : ℕ → Call) (k : Unique) (hk : k.2.1 ≠ "")
    (is : List (ℕ × Act δ)) (s : Sys δ)
    (h : Runs (Step (program δ)) (Unswept k) (start d₀ calls) is s) : ReplayedOnce d₀ k s := by
  have hs : Inv d₀ k s := inv_runs h
  have htraced : Traced d₀ s := h.invariant (fun _ _ _ hs _ hstep => traced_step hs hstep)
    (traced_start d₀ calls)
  constructor
  · intro r r' x x' hr hr'
    exact hs.once r r' x x' (unique_of_presented hr hk) (unique_of_presented hr' hk)
  · intro row hrow r x hr
    exact (hs.spent row hrow).2 r x (unique_of_presented hr hk)
  · intro r r' x x' hr hr' hx hx'
    obtain ⟨row, hrow, hanswers⟩ := hs.answered r x (unique_of_presented hr hk) hx
    obtain ⟨row', hrow', hanswers'⟩ := hs.answered r' x' (unique_of_presented hr' hk) hx'
    rw [hrow] at hrow'
    cases hrow'
    exact ⟨hanswers.response.symm.trans hanswers'.response,
      hanswers.hash.symm.trans hanswers'.hash⟩
  · intro r x hr hx
    obtain ⟨row, hsource, hanswers⟩ := htraced.replayed r x hx
    have hrow : some row.unique = some k :=
      hanswers.unique.symm.trans (unique_of_presented hr hk)
    cases hrow
    rcases hsource with hold | ⟨r', hx', hkey, _⟩
    · exact .inl ⟨row, hold, hanswers.response⟩
    · rw [hanswers.response] at hx'
      exact .inr ⟨r', hx', presented_of_unique hkey⟩
  · intro i t hstep hkey hx
    exact quiet_step hstep hkey hx

/-! ## A swept key, and an empty one -/

def orders : ℕ → Call
  | 0 | 1 => .guarded .createOrder (some "k1") 7 (.obj [("provider", .str "click")])
  | 2 | 3 => .guarded .createOrder (some "") 7 (.obj [("provider", .str "click")])
  | 4 => .sweep
  | _ => .other

def ordering (r : ℕ) (now : Time) : List (ℕ × Act ℕ) :=
  [(r, .replay), (r, .work (fun n => n + 1) (.obj [("reference", .str "ORD")])), (r, .store now),
    (r, .commit)]

def none₀ : Store ℕ := { rest := 0 }

def executed (q : Request ℕ) : Bool :=
  match q.phase with
  | .done (.executed _) => true
  | _ => false

theorem executes_of_executed {q : Request ℕ} (h : executed q = true) : ∃ x, Executes q x := by
  unfold executed at h
  split at h
  · next x hphase => exact ⟨x, hphase⟩
  · cases h

theorem reached (is : List (ℕ × Act ℕ)) (worked : List ℕ)
    (h : (follow (step (program ℕ)) (fun _ _ => True) is (start none₀ orders)).map
      (fun s => (List.range 4).filter (fun r => executed (s.requests r))) = some worked) :
    ∃ s, Any (Step (program ℕ)) (start none₀ orders) is s ∧
      ∀ r ∈ worked, ∃ x, Executes (s.requests r) x := by
  obtain ⟨s, hs, hworked⟩ := Option.map_eq_some_iff.1 h
  refine ⟨s, runs_of_follow hs, ?_⟩
  intro r hr
  rw [← hworked] at hr
  exact executes_of_executed (List.mem_filter.1 hr).2

theorem call_runs {is : List (ℕ × Act δ)} {calls : ℕ → Call} {g : Sys δ → ℕ × Act δ → Prop}
    (h : Runs (Step (program δ)) g (start d₀ calls) is s) (r : ℕ) : (s.requests r).call = calls r :=
  h.invariant (I := fun s => (s.requests r).call = calls r)
    (fun _ _ _ hs _ hstep => (call_step hstep r).trans hs) rfl

theorem unswept_of_steady {is : List (ℕ × Act δ)} {calls : ℕ → Call} {g : Sys δ → ℕ × Act δ → Prop}
    (h : Runs (Step (program δ)) g (start d₀ calls) is s)
    (hsteady : ∀ i ∈ is, ∀ now, i.2 ≠ .sweep now) :
    Runs (Step (program δ)) (Unswept k) (start d₀ calls) is s := by
  refine (h.among (fun _ hi => hi)).guarded (I := fun _ => True) ?_ trivial
  intro s i t _ hg _
  exact ⟨fun now _ hsweep => absurd hsweep (hsteady i hg.2 now), trivial⟩

/-- A key that was swept after its day, and a key that is empty, are each worth the work twice. -/
theorem work_is_done_twice :
    (¬ ∀ (d₀ : Store ℕ) (calls : ℕ → Call) (k : Unique) (is : List (ℕ × Act ℕ)) (s : Sys ℕ),
      k.2.1 ≠ "" → Any (Step (program ℕ)) (start d₀ calls) is s → ReplayedOnce d₀ k s) ∧
    (¬ ∀ (d₀ : Store ℕ) (calls : ℕ → Call) (k : Unique) (is : List (ℕ × Act ℕ)) (s : Sys ℕ),
      Runs (Step (program ℕ)) (Unswept k) (start d₀ calls) is s → ReplayedOnce d₀ k s) := by
  constructor
  · intro h
    obtain ⟨s, hs, hworked⟩ := reached
      (ordering 0 0 ++ [(4, .sweep (oneDay + 1))] ++ ordering 1 (oneDay + 2)) [0, 1]
      (by decide +kernel)
    obtain ⟨x, hx⟩ := hworked 0 (by simp)
    obtain ⟨x', hx'⟩ := hworked 1 (by simp)
    have honce := (h none₀ orders ("orders.create", "k1", 7) _ s (by decide) hs).once 0 1 x x'
      (by rw [call_runs hs]; rfl) (by rw [call_runs hs]; rfl) hx hx'
    cases honce
  · intro h
    obtain ⟨s, hs, hworked⟩ := reached (ordering 2 0 ++ ordering 3 1) [2, 3] (by decide +kernel)
    obtain ⟨x, hx⟩ := hworked 2 (by simp)
    obtain ⟨x', hx'⟩ := hworked 3 (by simp)
    have hunswept := unswept_of_steady (k := ("orders.create", "", 7)) hs (by simp [ordering])
    have honce := (h none₀ orders _ _ s hunswept).once 2 3 x x'
      (by rw [call_runs hs]; rfl) (by rw [call_runs hs]; rfl) hx hx'
    cases honce

theorem key_spent_once_order : ∃ s, Any (Step (program ℕ)) (start none₀ orders)
      (ordering 0 0 ++ [(1, .replay)]) s ∧ ReplayedOnce none₀ ("orders.create", "k1", 7) s := by
  obtain ⟨s, hs, _⟩ := reached (ordering 0 0 ++ [(1, .replay)]) [0] (by decide +kernel)
  have hunswept := unswept_of_steady (k := ("orders.create", "k1", 7)) hs (by simp [ordering])
  exact ⟨s, hs, key_spent_once none₀ orders _ (by decide) _ s hunswept⟩

end IeltsHub.IdempotentReplay
