import IeltsHub.GuardedRuns

set_option autoImplicit false

/-!
# Transactions under READ COMMITTED

Requests run side by side over one database, each a statement at a time. A statement reads what is
committed when it runs, and takes the locks of the keys it writes; while somebody else holds one it
waits. What a transaction wrote lands at its commit. A commit lets its locks go, and so does a
rollback.
-/
namespace IeltsHub.ReadCommitted

structure Sys (δ κ φ : Type) where
  store : δ
  locks : List (κ × ℕ) := []
  requests : ℕ → φ

/-- What a statement does to the transaction of its request. -/
inductive Move (δ κ φ : Type) where
  | goes (p : φ) (keys : List κ)
  | commits (d : δ) (p : φ)
  | rollsBack (p : φ)

def Move.phase {δ κ φ : Type} : Move δ κ φ → φ
  | .goes p _ | .commits _ p | .rollsBack p => p

def Move.store {δ κ φ : Type} (d : δ) : Move δ κ φ → δ
  | .commits d' _ => d'
  | .goes _ _ | .rollsBack _ => d

/-- The statements of a request, and the keys whose locks it holds in each of its phases. -/
structure Program (δ κ φ ι : Type) where
  next : δ → φ → ι → Option (Move δ κ φ)
  owned : φ → List κ
  owned_goes : ∀ {d p i p' keys}, next d p i = some (.goes p' keys) →
    ∀ k ∈ owned p', k ∈ owned p ∨ k ∈ keys
  owned_commits : ∀ {d p i d' p'}, next d p i = some (.commits d' p') → owned p' = []
  owned_rollsBack : ∀ {d p i p'}, next d p i = some (.rollsBack p') → owned p' = []

variable {δ κ φ ι : Type} [DecidableEq κ]

namespace Sys

def put (s : Sys δ κ φ) (r : ℕ) (p : φ) : ℕ → φ := Function.update s.requests r p

def free (s : Sys δ κ φ) (r : ℕ) (keys : List κ) : Bool :=
  s.locks.all (fun l => l.2 = r ∨ l.1 ∉ keys)

def released (s : Sys δ κ φ) (r : ℕ) : List (κ × ℕ) := s.locks.filter (fun l => l.2 ≠ r)

def move (s : Sys δ κ φ) (r : ℕ) : Move δ κ φ → Option (Sys δ κ φ)
  | .goes p keys =>
    if s.free r keys then
      some { s with locks := s.locks ++ keys.map (fun k => (k, r)), requests := s.put r p }
    else none
  | .commits d p => some { store := d, locks := s.released r, requests := s.put r p }
  | .rollsBack p => some { s with locks := s.released r, requests := s.put r p }

end Sys

def step (P : Program δ κ φ ι) (s : Sys δ κ φ) (i : ℕ × ι) : Option (Sys δ κ φ) :=
  (P.next s.store (s.requests i.1) i.2).bind (s.move i.1)

abbrev Step (P : Program δ κ φ ι) (s : Sys δ κ φ) (i : ℕ × ι) (t : Sys δ κ φ) : Prop :=
  step P s i = some t

/-! ## What a step can do -/

/-- The phase a step leaves its request in, and what it does to the database. -/
inductive Did (P : Program δ κ φ ι) (s : Sys δ κ φ) (i : ℕ × ι) (t : Sys δ κ φ) : Prop where
  | went (p : φ) (keys : List κ) (next : P.next s.store (s.requests i.1) i.2 = some (.goes p keys))
      (free : s.free i.1 keys = true) (store : t.store = s.store)
      (locks : t.locks = s.locks ++ keys.map (fun k => (k, i.1)))
      (requests : t.requests = s.put i.1 p)
  | committed (p : φ)
      (next : P.next s.store (s.requests i.1) i.2 = some (.commits t.store p))
      (locks : t.locks = s.released i.1) (requests : t.requests = s.put i.1 p)
  | rolledBack (p : φ) (next : P.next s.store (s.requests i.1) i.2 = some (.rollsBack p))
      (store : t.store = s.store) (locks : t.locks = s.released i.1)
      (requests : t.requests = s.put i.1 p)

variable {P : Program δ κ φ ι} {s t : Sys δ κ φ} {i : ℕ × ι} {r r' : ℕ} {k : κ}

theorem step_cases (h : Step P s i t) : Did P s i t := by
  obtain ⟨m, hnext, hmove⟩ := Option.bind_eq_some_iff.1 h
  cases m with
  | goes p keys =>
    simp only [Sys.move] at hmove
    split at hmove
    · next hfree =>
      cases hmove
      exact .went p keys hnext hfree rfl rfl rfl
    · cases hmove
  | commits d p =>
    cases hmove
    exact .committed p hnext rfl rfl
  | rollsBack p =>
    cases hmove
    exact .rolledBack p hnext rfl rfl rfl

omit [DecidableEq κ] in
@[simp] theorem put_self (s : Sys δ κ φ) (r : ℕ) (p : φ) : s.put r p r = p :=
  Function.update_self ..

omit [DecidableEq κ] in
theorem put_of_ne (s : Sys δ κ φ) {r r' : ℕ} (p : φ) (h : r' ≠ r) :
    s.put r p r' = s.requests r' := Function.update_of_ne h ..

theorem requests_of_ne (h : Step P s i t) (hr : r ≠ i.1) : t.requests r = s.requests r := by
  cases step_cases h with
  | went p _ _ _ _ _ hrequests => rw [hrequests, put_of_ne s p hr]
  | committed p _ _ hrequests => rw [hrequests, put_of_ne s p hr]
  | rolledBack p _ _ _ hrequests => rw [hrequests, put_of_ne s p hr]

theorem phase_step {C : φ → Prop} (h : Step P s i t) (hr : C (s.requests r))
    (hnext : r = i.1 → ∀ m, P.next s.store (s.requests r) i.2 = some m → C m.phase) :
    C (t.requests r) := by
  by_cases hmoved : r = i.1
  · have hnext := hnext hmoved
    subst hmoved
    cases step_cases h with
    | went p _ hp _ _ _ hrequests =>
      rw [hrequests, put_self]
      exact hnext _ hp
    | committed p hp _ hrequests =>
      rw [hrequests, put_self]
      exact hnext _ hp
    | rolledBack p hp _ _ hrequests =>
      rw [hrequests, put_self]
      exact hnext _ hp
  · rwa [requests_of_ne h hmoved]

@[elab_as_elim]
theorem database_step {J : δ → Prop} (h : Step P s i t) (hs : J s.store)
    (hcommits : ∀ d p, P.next s.store (s.requests i.1) i.2 = some (.commits d p) → J d) :
    J t.store := by
  cases step_cases h with
  | went _ _ _ _ hstore => rwa [hstore]
  | rolledBack _ _ hstore => rwa [hstore]
  | committed p hnext => exact hcommits _ p hnext

theorem step_moved (h : Step P s i t) : ∃ m, P.next s.store (s.requests i.1) i.2 = some m ∧
    t.requests i.1 = m.phase ∧ t.store = m.store s.store := by
  cases step_cases h with
  | went p keys hnext _ hstore _ hrequests =>
    exact ⟨_, hnext, by rw [hrequests, put_self]; rfl, hstore⟩
  | committed p hnext _ hrequests =>
    exact ⟨_, hnext, by rw [hrequests, put_self]; rfl, rfl⟩
  | rolledBack p hnext hstore _ hrequests =>
    exact ⟨_, hnext, by rw [hrequests, put_self]; rfl, hstore⟩

theorem moved_of_next {m : Move δ κ φ} (h : Step P s i t)
    (hnext : P.next s.store (s.requests i.1) i.2 = some m) :
    t.requests i.1 = m.phase ∧ t.store = m.store s.store := by
  obtain ⟨m', hm', hmoved⟩ := step_moved h
  cases hnext.symm.trans hm'
  exact hmoved

theorem store_of_next {d : δ} {p : φ} (h : Step P s i t)
    (hnext : P.next s.store (s.requests i.1) i.2 = some (.commits d p)) : t.store = d :=
  (moved_of_next h hnext).2

/-! ## Locks -/

/-- Requests hold the locks they own, and no lock has two holders. -/
structure Locked (P : Program δ κ φ ι) (s : Sys δ κ φ) : Prop where
  holds : ∀ r, ∀ k ∈ P.owned (s.requests r), (k, r) ∈ s.locks
  single : ∀ k r r', (k, r) ∈ s.locks → (k, r') ∈ s.locks → r = r'

omit [DecidableEq κ] in
theorem locked_start {d : δ} {q : ℕ → φ} (h : ∀ r, P.owned (q r) = []) :
    Locked P { store := d, requests := q } where
  holds r k hk := by simp [h r] at hk
  single := by simp

omit [DecidableEq κ] in
theorem mem_released {l : κ × ℕ} : l ∈ s.released r ↔ l ∈ s.locks ∧ l.2 ≠ r := by
  simp [Sys.released]

theorem of_free {keys : List κ} (h : s.free r keys = true) (hk : k ∈ keys)
    (hl : (k, r') ∈ s.locks) : r' = r := by
  have h := List.all_eq_true.1 h _ hl
  simp only [decide_eq_true_eq] at h
  exact h.resolve_right (fun hn => hn hk)

omit [DecidableEq κ] in
theorem locked_release {p : φ} (hs : Locked P s) (hlocks : t.locks = s.released r)
    (hrequests : t.requests = s.put r p) (hp : P.owned p = []) : Locked P t where
  holds r' k hk := by
    rw [hrequests] at hk
    rw [hlocks, mem_released]
    by_cases hr : r' = r
    · subst hr
      rw [put_self, hp] at hk
      cases hk
    · rw [put_of_ne s p hr] at hk
      exact ⟨hs.holds r' k hk, hr⟩
  single k a b ha hb := by
    rw [hlocks, mem_released] at ha hb
    exact hs.single k a b ha.1 hb.1

theorem locked_step (hs : Locked P s) (h : Step P s i t) : Locked P t := by
  cases step_cases h with
  | committed p hnext hlocks hrequests =>
    exact locked_release hs hlocks hrequests (P.owned_commits hnext)
  | rolledBack p hnext _ hlocks hrequests =>
    exact locked_release hs hlocks hrequests (P.owned_rollsBack hnext)
  | went p keys hnext hfree _ hlocks hrequests =>
    refine ⟨?_, ?_⟩
    · intro r k hk
      rw [hrequests] at hk
      rw [hlocks, List.mem_append]
      by_cases hr : r = i.1
      · subst hr
        rw [put_self] at hk
        rcases P.owned_goes hnext k hk with hk | hk
        · exact .inl (hs.holds _ k hk)
        · exact .inr (List.mem_map.2 ⟨k, hk, rfl⟩)
      · rw [put_of_ne s p hr] at hk
        exact .inl (hs.holds r k hk)
    · intro k a b ha hb
      rw [hlocks, List.mem_append, List.mem_map] at ha hb
      rcases ha with ha | ⟨k₁, hk₁, ha⟩ <;> rcases hb with hb | ⟨k₂, hk₂, hb⟩
      · exact hs.single k a b ha hb
      · cases hb
        exact of_free hfree hk₂ ha
      · cases ha
        exact (of_free hfree hk₁ hb).symm
      · cases ha
        cases hb
        rfl

omit [DecidableEq κ] in
theorem Locked.unique (hs : Locked P s) (hk : k ∈ P.owned (s.requests r))
    (hk' : k ∈ P.owned (s.requests r')) : r = r' :=
  hs.single k r r' (hs.holds r k hk) (hs.holds r' k hk')

/-- What commits keep of the keys that their requests do not own. -/
def Kept (P : Program δ κ φ ι) (J : δ → κ → Prop) : Prop :=
  ∀ d p i d' p' k, P.next d p i = some (.commits d' p') → k ∉ P.owned p → J d k → J d' k

theorem Kept.step {J : δ → κ → Prop} (hJ : Kept P J) (hs : Locked P s) (h : Step P s i t)
    (hk : k ∈ P.owned (s.requests r)) (hr : r ≠ i.1) (hd : J s.store k) : J t.store k :=
  database_step h hd (fun _ _ hnext => hJ _ _ _ _ _ k hnext (fun hk' => hr (hs.unique hk hk')) hd)

end IeltsHub.ReadCommitted
