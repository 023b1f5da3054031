import Mathlib

set_option autoImplicit false

/-!
# Registers where the latest write wins

A register keeps the value of the write with the greatest stamp it was offered; a write at or
below the stored stamp is stale and is dropped. What a set of writes leaves does not depend on
the order or the number of times they are offered.
-/
namespace IeltsHub.LatestWins

variable {κ α ν : Type}

structure Write (κ α ν : Type) where
  key : κ
  stamp : α
  value : ν

abbrev Registers (κ α ν : Type) : Type := κ → Option (α × ν)

variable [LinearOrder α]

def Stale (m : Registers κ α ν) (w : Write κ α ν) : Prop := ∃ p ∈ m w.key, w.stamp ≤ p.1

instance (m : Registers κ α ν) (w : Write κ α ν) : Decidable (Stale m w) :=
  match h : m w.key with
  | none => .isFalse (by
      rintro ⟨p, hp, _⟩
      rw [h] at hp
      cases hp)
  | some p => decidable_of_iff (w.stamp ≤ p.1) (by simp [Stale, h])

variable [DecidableEq κ]

/-- Keep `w`, unless it is stale. -/
def offer (m : Registers κ α ν) (w : Write κ α ν) : Registers κ α ν :=
  if Stale m w then m else Function.update m w.key (some (w.stamp, w.value))

/-- Under each key stands a write with the greatest stamp of those in `ws`. -/
def IsLatest (m : Registers κ α ν) (ws : List (Write κ α ν)) : Prop :=
  ∀ k, match m k with
    | none => ∀ w ∈ ws, w.key ≠ k
    | some p => ⟨k, p.1, p.2⟩ ∈ ws ∧ ∀ w ∈ ws, w.key = k → w.stamp ≤ p.1

def Distinct (ws : List (Write κ α ν)) : Prop :=
  ∀ w ∈ ws, ∀ w' ∈ ws, w.key = w'.key → w.stamp = w'.stamp → w = w'

omit [DecidableEq κ] in
theorem IsLatest.empty : IsLatest (fun _ => none : Registers κ α ν) [] := by
  intro k
  simp

theorem offer_mono (m : Registers κ α ν) (w : Write κ α ν) {k : κ} {p : α × ν} (h : m k = some p) :
    ∃ q, offer m w k = some q ∧ p.1 ≤ q.1 := by
  unfold offer
  split
  · exact ⟨p, h, le_rfl⟩
  · rename_i hs
    by_cases hk : k = w.key
    · subst hk
      refine ⟨(w.stamp, w.value), by simp, ?_⟩
      by_contra hlt
      exact hs ⟨p, h, (not_le.1 hlt).le⟩
    · exact ⟨p, by simp [hk, h], le_rfl⟩

theorem IsLatest.offer {m : Registers κ α ν} {ws : List (Write κ α ν)} (h : IsLatest m ws)
    (w : Write κ α ν) : IsLatest (offer m w) (ws ++ [w]) := by
  intro k
  have hk := h k
  unfold LatestWins.offer
  by_cases hs : Stale m w
  · rw [if_pos hs]
    cases hm : m k with
    | none =>
      rw [hm] at hk
      intro w' hw' hkey
      rcases List.mem_append.1 hw' with hw' | hw'
      · exact hk w' hw' hkey
      · rw [List.mem_singleton.1 hw'] at hkey
        obtain ⟨p, hp, _⟩ := hs
        rw [hkey, hm] at hp
        cases hp
    | some p =>
      rw [hm] at hk
      refine ⟨List.mem_append_left _ hk.1, ?_⟩
      intro w' hw' hkey
      rcases List.mem_append.1 hw' with hw' | hw'
      · exact hk.2 w' hw' hkey
      · rw [List.mem_singleton.1 hw'] at hkey ⊢
        obtain ⟨q, hq, hle⟩ := hs
        rw [hkey, hm] at hq
        cases hq
        exact hle
  · rw [if_neg hs]
    by_cases hkey : k = w.key
    · subst hkey
      rw [Function.update_self]
      refine ⟨by simp, ?_⟩
      intro w' hw' hkey
      rcases List.mem_append.1 hw' with hw' | hw'
      · cases hm : m w.key with
        | none =>
          rw [hm] at hk
          exact absurd hkey (hk w' hw')
        | some p =>
          rw [hm] at hk
          by_contra hlt
          exact hs ⟨p, hm, (not_le.1 (fun hle => hlt ((hk.2 w' hw' hkey).trans hle))).le⟩
      · rw [List.mem_singleton.1 hw']
    · rw [Function.update_of_ne hkey]
      have hne : w.key ≠ k := fun q => hkey q.symm
      cases hm : m k with
      | none =>
        rw [hm] at hk
        intro w' hw'
        rcases List.mem_append.1 hw' with hw' | hw'
        · exact hk w' hw'
        · rw [List.mem_singleton.1 hw']
          exact hne
      | some p =>
        rw [hm] at hk
        refine ⟨List.mem_append_left _ hk.1, ?_⟩
        intro w' hw' hkey'
        rcases List.mem_append.1 hw' with hw' | hw'
        · exact hk.2 w' hw' hkey'
        · rw [List.mem_singleton.1 hw'] at hkey'
          exact absurd hkey' hne

theorem IsLatest.foldl {m : Registers κ α ν} {ws : List (Write κ α ν)} (h : IsLatest m ws)
    (ws' : List (Write κ α ν)) : IsLatest (ws'.foldl LatestWins.offer m) (ws ++ ws') := by
  induction ws' generalizing m ws with
  | nil => simpa using h
  | cons w ws' ih =>
    rw [List.foldl_cons, List.append_cons]
    exact ih (h.offer w)

omit [DecidableEq κ] in
omit [DecidableEq κ] in
theorem IsLatest.eq_some {m : Registers κ α ν} {ws : List (Write κ α ν)} (h : IsLatest m ws)
    (hd : Distinct ws) {w : Write κ α ν} (hw : w ∈ ws)
    (hmax : ∀ w' ∈ ws, w'.key = w.key → w'.stamp ≤ w.stamp) :
    m w.key = some (w.stamp, w.value) := by
  have hm := h w.key
  cases hp : m w.key with
  | none =>
    rw [hp] at hm
    exact absurd rfl (hm w hw)
  | some p =>
    rw [hp] at hm
    have hle : w.stamp ≤ p.1 := hm.2 w hw rfl
    have hge : p.1 ≤ w.stamp := hmax _ hm.1 rfl
    have heq : w = ⟨w.key, p.1, p.2⟩ := hd w hw _ hm.1 rfl (le_antisymm hle hge)
    have hstamp : w.stamp = p.1 := congrArg Write.stamp heq
    have hvalue : w.value = p.2 := congrArg Write.value heq
    rw [hstamp, hvalue]

end IeltsHub.LatestWins
