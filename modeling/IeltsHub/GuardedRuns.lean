import Mathlib

set_option autoImplicit false

/-!
# Runs of a transition system

`step s i s'` says that input `i` can take state `s` to `s'`. A run takes inputs one after
another; in a run within `g` every input met the guard `g` in the state it was taken from. An
invariant that guarded steps keep holds of every state a guarded run reaches.
-/
namespace IeltsHub.GuardedRuns

variable {σ ι : Type} {step : σ → ι → σ → Prop} {g : σ → ι → Prop}

inductive Runs (step : σ → ι → σ → Prop) (g : σ → ι → Prop) : σ → List ι → σ → Prop where
  | refl (s : σ) : Runs step g s [] s
  | next {s t u : σ} {i : ι} {is : List ι} (guard : g s i) (h : step s i t)
      (tail : Runs step g t is u) : Runs step g s (i :: is) u

abbrev Any (step : σ → ι → σ → Prop) : σ → List ι → σ → Prop := Runs step (fun _ _ => True)

theorem Runs.invariant {I : σ → Prop}
    (hstep : ∀ s i t, I s → g s i → step s i t → I t) {s u : σ} {is : List ι}
    (h : Runs step g s is u) (hs : I s) : I u := by
  induction h with
  | refl s => exact hs
  | next guard h _ ih => exact ih (hstep _ _ _ hs guard h)

theorem Runs.related {I : σ → Prop} {R : σ → σ → Prop} (hrefl : ∀ s, R s s)
    (htrans : ∀ s t u, R s t → R t u → R s u)
    (hstep : ∀ s i t, I s → g s i → step s i t → I t ∧ R s t) {s u : σ} {is : List ι}
    (h : Runs step g s is u) (hs : I s) : R s u := by
  induction h with
  | refl s => exact hrefl s
  | next guard h _ ih =>
    obtain ⟨ht, hR⟩ := hstep _ _ _ hs guard h
    exact htrans _ _ _ hR (ih ht)

theorem Runs.guarded {g' : σ → ι → Prop} {I : σ → Prop}
    (hstep : ∀ s i t, I s → g s i → step s i t → g' s i ∧ I t) {s u : σ} {is : List ι}
    (h : Runs step g s is u) (hs : I s) : Runs step g' s is u := by
  induction h with
  | refl s => exact .refl s
  | next guard h _ ih =>
    obtain ⟨hguard, ht⟩ := hstep _ _ _ hs guard h
    exact .next hguard h (ih ht)

theorem Runs.among {s u : σ} {is : List ι} (h : Runs step g s is u) {js : List ι}
    (hsub : ∀ i ∈ is, i ∈ js) : Runs step (fun s i => g s i ∧ i ∈ js) s is u := by
  induction h with
  | refl s => exact .refl s
  | next guard h _ ih =>
    exact .next ⟨guard, hsub _ List.mem_cons_self⟩ h
      (ih (fun i hi => hsub i (List.mem_cons_of_mem _ hi)))

/-- A run over `is ++ js` passes through a state between the two. -/
theorem Runs.split {s u : σ} {is js : List ι} (h : Runs step g s (is ++ js) u) :
    ∃ t, Runs step g s is t ∧ Runs step g t js u := by
  induction is generalizing s with
  | nil => exact ⟨s, .refl s, h⟩
  | cons i is ih =>
    cases h with
    | next guard h tail =>
      obtain ⟨t, hi, hj⟩ := ih tail
      exact ⟨t, .next guard h hi, hj⟩

def follow (next : σ → ι → Option σ) (g : σ → ι → Prop) [∀ s i, Decidable (g s i)] :
    List ι → σ → Option σ
  | [], s => some s
  | i :: rest, s => if g s i then (next s i).bind (follow next g rest) else none

theorem runs_of_follow {next : σ → ι → Option σ} [∀ s i, Decidable (g s i)] {is : List ι} {s u : σ}
    (h : follow next g is s = some u) : Runs (fun s i t => next s i = some t) g s is u := by
  induction is generalizing s with
  | nil =>
    cases h
    exact .refl u
  | cons i rest ih =>
    unfold follow at h
    split at h
    · next hguard =>
      obtain ⟨t, ht, hrest⟩ := Option.bind_eq_some_iff.1 h
      exact .next hguard ht (ih hrest)
    · cases h

end IeltsHub.GuardedRuns
