import Mathlib

set_option autoImplicit false

/-!
# Standard competition ranking

An entry stands one place below all entries of a smaller key. Entries of one key stand together,
and in a sorted list the first of them stands at its own position.
-/
namespace IeltsHub.StandardRanking

variable {α κ : Type} [LinearOrder κ] {key : α → κ} {xs ys : List α} {x y : α}

def standing (key : α → κ) (xs : List α) (x : α) : ℕ := xs.countP (fun y => key y < key x) + 1

theorem standing_perm (h : xs.Perm ys) : standing key xs x = standing key ys x := by
  unfold standing
  rw [h.countP_eq]

theorem standing_tied (h : key x = key y) : standing key xs x = standing key xs y := by
  unfold standing
  rw [h]

theorem standing_mono (h : key x ≤ key y) : standing key xs x ≤ standing key xs y := by
  have hcount : xs.countP (fun z => key z < key x) ≤ xs.countP (fun z => key z < key y) := by
    apply List.countP_mono_left
    intro z _ hz
    simp only [decide_eq_true_eq] at hz ⊢
    exact lt_of_lt_of_le hz h
  unfold standing
  omega

theorem standing_lt (hx : x ∈ xs) (h : key x < key y) :
    standing key xs x < standing key xs y := by
  obtain ⟨s, t, rfl⟩ := List.append_of_mem hx
  have hs : standing key s x ≤ standing key s y := standing_mono h.le
  have ht : standing key t x ≤ standing key t y := standing_mono h.le
  unfold standing at *
  simp only [List.countP_append, List.countP_cons, lt_irrefl, h, decide_true, decide_false, if_true,
    Bool.false_eq_true, if_false]
  omega

theorem standing_eq_iff (hx : x ∈ xs) (hy : y ∈ xs) :
    standing key xs x = standing key xs y ↔ key x = key y := by
  constructor
  · intro h
    rcases lt_trichotomy (key x) (key y) with hlt | heq | hgt
    · have := standing_lt hx hlt
      omega
    · exact heq
    · have := standing_lt hy hgt
      omega
  · exact standing_tied

theorem standing_first {done rest : List α}
    (hsorted : (done ++ x :: rest).Pairwise (fun a b => key a ≤ key b))
    (hfirst : ∀ y ∈ done, key y < key x) :
    standing key (done ++ x :: rest) x = done.length + 1 := by
  have hdone : done.countP (fun y => key y < key x) = done.length := by
    rw [List.countP_eq_length]
    intro y hy
    simpa using hfirst y hy
  have hrest : rest.countP (fun y => key y < key x) = 0 := by
    rw [List.countP_eq_zero]
    intro y hy
    have hle := (List.pairwise_cons.1 (List.pairwise_append.1 hsorted).2.1).1 y hy
    simpa using hle
  unfold standing
  rw [List.countP_append, List.countP_cons, hdone, hrest]
  simp

end IeltsHub.StandardRanking
