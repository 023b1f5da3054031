import Mathlib.Data.List.Basic
import Mathlib.Tactic.Common

set_option autoImplicit false

/-!
# Jobs in one transaction

A job takes a state to a value and a next state, or raises. Jobs run together are kept only if all
of them return; run apart, each in a savepoint of its own, one that raises undoes itself alone.
Where each job has a part of the state to itself, apart is what each would have done first.
-/
namespace IeltsHub.JobBatches

variable {ε σ α ι : Type}

abbrev Job (ε σ α : Type) : Type := σ → Except ε (α × σ)

def Breaks (m : Job ε σ α) (s : σ) : Prop := ∃ e, m s = .error e

def settle (m : Job ε σ α) (s : σ) : σ :=
  match m s with
  | .ok (_, t) => t
  | .error _ => s

def together : List (Job ε σ α) → Job ε σ (List α)
  | [], s => .ok ([], s)
  | m :: ms, s => do
    let (a, t) ← m s
    let (as, u) ← together ms t
    return (a :: as, u)

def apart (ms : List (Job ε σ α)) (s : σ) : σ := ms.foldl (fun s m => settle m s) s

section
variable {m : Job ε σ α} {ms : List (Job ε σ α)} {s t u : σ} {a : α} {as : List α}

theorem settle_ok (h : m s = .ok (a, t)) : settle m s = t := by
  unfold settle
  rw [h]

theorem settle_error (h : Breaks m s) : settle m s = s := by
  obtain ⟨e, h⟩ := h
  unfold settle
  rw [h]

theorem breaks_or_ok (m : Job ε σ α) (s : σ) : Breaks m s ∨ ∃ a t, m s = .ok (a, t) := by
  unfold Breaks
  cases m s with
  | error e => exact .inl ⟨e, rfl⟩
  | ok p => exact .inr ⟨p.1, p.2, rfl⟩

theorem not_breaks_of_ok (h : m s = .ok (a, t)) : ¬ Breaks m s := by
  rintro ⟨e, he⟩
  rw [h] at he
  cases he

theorem ok_of_not_breaks (h : ¬ Breaks m s) : ∃ a, m s = .ok (a, settle m s) := by
  rcases breaks_or_ok m s with hbreaks | ⟨a, t, hok⟩
  · exact absurd hbreaks h
  · exact ⟨a, by rw [settle_ok hok, hok]⟩

theorem together_cons_ok (h : m s = .ok (a, t)) (hms : together ms t = .ok (as, u)) :
    together (m :: ms) s = .ok (a :: as, u) := by
  rw [together, h]
  change together ms t >>= _ = _
  rw [hms]
  rfl

theorem breaks_together_cons : Breaks (together (m :: ms)) s ↔
    Breaks m s ∨ Breaks (together ms) (settle m s) := by
  rcases breaks_or_ok m s with hbreaks | ⟨a, t, hok⟩
  · refine iff_of_true ?_ (.inl hbreaks)
    obtain ⟨e, he⟩ := hbreaks
    refine ⟨e, ?_⟩
    rw [together, he]
    rfl
  · rw [settle_ok hok]
    rcases breaks_or_ok (together ms) t with ⟨e, he⟩ | ⟨as, u, hms⟩
    · refine iff_of_true ⟨e, ?_⟩ (.inr ⟨e, he⟩)
      rw [together, hok]
      change together ms t >>= _ = _
      rw [he]
      rfl
    · refine iff_of_false (not_breaks_of_ok (together_cons_ok hok hms)) ?_
      exact not_or.2 ⟨not_breaks_of_ok hok, not_breaks_of_ok hms⟩

theorem apart_of_together (h : ¬ Breaks (together ms) s) :
    settle (together ms) s = apart ms s := by
  induction ms generalizing s with
  | nil => rfl
  | cons m ms ih =>
    rw [breaks_together_cons, not_or] at h
    obtain ⟨a, hok⟩ := ok_of_not_breaks h.1
    obtain ⟨as, hms⟩ := ok_of_not_breaks h.2
    rw [settle_ok (together_cons_ok hok hms), ih h.2]
    rfl

theorem settle_together_iff : settle (together ms) s = apart ms s ↔
    ¬ Breaks (together ms) s ∨ apart ms s = s := by
  by_cases h : Breaks (together ms) s
  · rw [settle_error h]
    constructor
    · exact fun heq => .inr heq.symm
    · rintro (hno | heq)
      · exact absurd h hno
      · exact heq.symm
  · exact iff_of_true (apart_of_together h) (.inl h)

end

/-! ## A part of the state for each -/

/-- `Same k` says that two states agree about the part of job `k`. -/
structure Local (Same : ι → σ → σ → Prop) (job : ι → Job ε σ α) : Prop where
  same : ∀ k, Equivalence (Same k)
  ext : ∀ {s t}, (∀ k, Same k s t) → s = t
  frame : ∀ {j k s}, k ≠ j → Same k (settle (job j) s) s
  own : ∀ {j s t}, Same j s t → Same j (settle (job j) s) (settle (job j) t)
  breaks : ∀ {j s t}, Same j s t → (Breaks (job j) s ↔ Breaks (job j) t)

namespace Local

variable {Same : ι → σ → σ → Prop} {job : ι → Job ε σ α} {js : List ι} {s : σ}

theorem apart_other (h : Local Same job) {k : ι} (hk : k ∉ js) :
    Same k (apart (js.map job) s) s := by
  induction js generalizing s with
  | nil => exact (h.same k).refl s
  | cons j js ih =>
    rw [List.mem_cons, not_or] at hk
    exact (h.same k).trans (ih hk.2) (h.frame hk.1)

theorem apart_own (h : Local Same job) (hnodup : js.Nodup) {j : ι} (hj : j ∈ js) :
    Same j (apart (js.map job) s) (settle (job j) s) := by
  induction js generalizing s with
  | nil => cases hj
  | cons i js ih =>
    rw [List.nodup_cons] at hnodup
    by_cases heq : j = i
    · subst heq
      exact h.apart_other hnodup.1
    · have hlater : j ∈ js := (List.mem_cons.1 hj).resolve_left heq
      exact (h.same j).trans (ih hnodup.2 hlater) (h.own (h.frame heq))

theorem apart_eq_self_iff (h : Local Same job) (hnodup : js.Nodup) (hall : ∀ j, j ∈ js) :
    apart (js.map job) s = s ↔ ∀ j, settle (job j) s = s := by
  constructor
  · intro heq j
    apply h.ext
    intro k
    by_cases hk : k = j
    · subst hk
      have hown := h.apart_own hnodup (hall k) (s := s)
      rw [heq] at hown
      exact (h.same k).symm hown
    · exact h.frame hk
  · intro hidle
    apply h.ext
    intro k
    have hown := h.apart_own hnodup (hall k) (s := s)
    rw [hidle k] at hown
    exact hown

theorem breaks_together_iff (h : Local Same job) (hnodup : js.Nodup) :
    Breaks (together (js.map job)) s ↔ ∃ j ∈ js, Breaks (job j) s := by
  induction js generalizing s with
  | nil =>
    refine iff_of_false (not_breaks_of_ok rfl) ?_
    rintro ⟨j, hj, _⟩
    cases hj
  | cons i js ih =>
    rw [List.nodup_cons] at hnodup
    have hlater : (∃ j ∈ js, Breaks (job j) (settle (job i) s)) ↔ ∃ j ∈ js, Breaks (job j) s := by
      refine exists_congr (fun j => and_congr_right (fun hj => h.breaks (h.frame ?_)))
      rintro rfl
      exact hnodup.1 hj
    rw [List.map_cons, breaks_together_cons, ih hnodup.2, hlater]
    simp only [List.mem_cons, exists_eq_or_imp]

/-- Together they commit what they would apart exactly when none raises or none does anything. -/
theorem settle_together_iff (h : Local Same job) (hnodup : js.Nodup) (hall : ∀ j, j ∈ js) :
    settle (together (js.map job)) s = apart (js.map job) s ↔
      (∀ j, ¬ Breaks (job j) s) ∨ ∀ j, settle (job j) s = s := by
  rw [JobBatches.settle_together_iff, h.breaks_together_iff hnodup,
    h.apart_eq_self_iff hnodup hall]
  simp only [hall, true_and, not_exists]

end Local

end IeltsHub.JobBatches
