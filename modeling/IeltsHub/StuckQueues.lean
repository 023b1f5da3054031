import Mathlib

set_option autoImplicit false

/-!
# Passes over a queue that keeps its failures

A pass looks at the first `limit` entries of a queue, serves those it can and leaves the others
where they stand. What stays at the front takes its places again in every later pass.
-/
namespace IeltsHub.StuckQueues

variable {α : Type} {stuck : α → Bool} {limit : ℕ} {queue : List α}

def pass (stuck : α → Bool) (limit : ℕ) (queue : List α) : List α :=
  (queue.take limit).filter stuck ++ queue.drop limit

def passes (stuck : α → Bool) (limit : ℕ) (queue : List α) : ℕ → List α
  | 0 => queue
  | k + 1 => pass stuck limit (passes stuck limit queue k)

/-- How many entries have been looked at after some passes: each has the places that the stuck
entries met so far do not take. -/
def reach (stuck : α → Bool) (limit : ℕ) (queue : List α) : ℕ → ℕ
  | 0 => 0
  | k + 1 => reach stuck limit queue k +
      (limit - (queue.take (reach stuck limit queue k)).countP stuck)

theorem pass_append {front rest : List α} (h : ∀ x ∈ front, stuck x = true) :
    pass stuck limit (front ++ rest) =
      front ++ pass stuck (limit - front.length) rest := by
  unfold pass
  rw [List.take_append, List.drop_append, List.filter_append]
  have hfront : (front.take limit).filter stuck = front.take limit :=
    List.filter_eq_self.2 (fun x hx => h x (List.mem_of_mem_take hx))
  rw [hfront]
  rcases le_total front.length limit with hle | hle
  · rw [List.take_of_length_le hle, List.drop_of_length_le hle, List.nil_append, List.append_assoc]
  · rw [Nat.sub_eq_zero_of_le hle, List.take_zero, List.filter_nil, List.append_nil,
      List.drop_zero, List.nil_append, ← List.append_assoc, List.take_append_drop]

theorem passes_eq (stuck : α → Bool) (limit : ℕ) (queue : List α) (k : ℕ) :
    passes stuck limit queue k = (queue.take (reach stuck limit queue k)).filter stuck ++
      queue.drop (reach stuck limit queue k) := by
  induction k with
  | zero => simp [passes, reach]
  | succ k ih =>
    rw [passes, ih, reach, pass_append (fun x hx => (List.mem_filter.1 hx).2)]
    rw [← List.countP_eq_length_filter]
    generalize limit - (queue.take (reach stuck limit queue k)).countP stuck = places
    unfold pass
    rw [List.take_add, List.filter_append, List.drop_drop, List.append_assoc]

theorem mem_passes_of_not_stuck {k : ℕ} {x : α} (h : stuck x = false) :
    x ∈ passes stuck limit queue k ↔ x ∈ queue.drop (reach stuck limit queue k) := by
  rw [passes_eq, List.mem_append, List.mem_filter, h]
  simp

theorem mem_pass_of_stuck {x : α} (h : stuck x = true) :
    x ∈ pass stuck limit queue ↔ x ∈ queue := by
  unfold pass
  conv_rhs => rw [← List.take_append_drop limit queue]
  rw [List.mem_append, List.mem_append, List.mem_filter, h]
  simp

theorem mem_passes_of_stuck {k : ℕ} {x : α} (h : stuck x = true) :
    x ∈ passes stuck limit queue k ↔ x ∈ queue := by
  induction k with
  | zero => rfl
  | succ k ih => rw [passes, mem_pass_of_stuck h, ih]

/-- Once as many entries are stuck as a pass looks at, no pass comes any further. -/
theorem reach_of_full {k : ℕ}
    (h : limit ≤ (queue.take (reach stuck limit queue k)).countP stuck) (j : ℕ) :
    reach stuck limit queue (k + j) = reach stuck limit queue k := by
  induction j with
  | zero => rfl
  | succ j ih =>
    rw [← Nat.add_assoc, reach, ih, Nat.sub_eq_zero_of_le h, Nat.add_zero]

theorem pass_eq_filter [DecidableEq α] (h : queue.Nodup) :
    pass stuck limit queue = queue.filter (fun x => stuck x || x ∉ queue.take limit) := by
  unfold pass
  conv_rhs =>
    arg 2
    rw [← List.take_append_drop limit queue]
  rw [List.filter_append]
  congr 1
  · refine List.filter_congr (fun x hx => ?_)
    simp [hx]
  · refine (List.filter_eq_self.2 (fun x hx => ?_)).symm
    rw [← List.take_append_drop limit queue] at h
    have hdisjoint := List.disjoint_of_nodup_append h
    have hnot : x ∉ queue.take limit := fun hmem => hdisjoint hmem hx
    simp [hnot]

/-! ## Queues in order -/

variable {r : α → α → Prop} [DecidableRel r]

theorem orderedInsert_of_forall {a : α} {xs : List α} (h : ∀ x ∈ xs, r a x) :
    xs.orderedInsert r a = a :: xs := by
  cases xs with
  | nil => rfl
  | cons x xs => exact List.orderedInsert_cons_of_le r xs (h x List.mem_cons_self)

theorem filter_orderedInsert [IsTrans α r] (p : α → Bool) (a : α) {xs : List α}
    (h : xs.Pairwise r) : (xs.orderedInsert r a).filter p =
      if p a then (xs.filter p).orderedInsert r a else xs.filter p := by
  induction xs with
  | nil => by_cases hp : p a <;> simp [hp]
  | cons x xs ih =>
    obtain ⟨hx, hrest⟩ := List.pairwise_cons.1 h
    by_cases hax : r a x
    · have hall : ∀ y ∈ (x :: xs).filter p, r a y := by
        intro y hy
        rcases List.mem_cons.1 (List.mem_of_mem_filter hy) with rfl | hy
        · exact hax
        · exact IsTrans.trans a x y hax (hx y hy)
      rw [List.orderedInsert_cons_of_le r xs hax, orderedInsert_of_forall hall, List.filter_cons]
    · rw [List.orderedInsert_of_not_le r xs hax, List.filter_cons, List.filter_cons, ih hrest]
      by_cases hpx : p x = true
      · rw [if_pos hpx, if_pos hpx, List.orderedInsert_of_not_le r _ hax]
        split <;> rfl
      · rw [if_neg hpx, if_neg hpx]

theorem filter_insertionSort [IsTrans α r] [Std.Total r] (p : α → Bool) (xs : List α) :
    (xs.insertionSort r).filter p = (xs.filter p).insertionSort r := by
  induction xs with
  | nil => rfl
  | cons x xs ih =>
    rw [List.insertionSort_cons, filter_orderedInsert p x (List.pairwise_insertionSort r xs), ih]
    by_cases hp : p x = true
    · rw [if_pos hp, List.filter_cons_of_pos hp, List.insertionSort_cons]
    · rw [if_neg hp, List.filter_cons_of_neg hp]

theorem insertionSort_eq_append [IsTrans α r] [Std.Total r] {p : α → Bool} {xs : List α}
    (h : ∀ x ∈ xs, ∀ y ∈ xs, p x = true → p y = false → ¬ r y x) :
    xs.insertionSort r =
      (xs.filter p).insertionSort r ++ (xs.filter (fun x => !p x)).insertionSort r := by
  rw [← filter_insertionSort, ← filter_insertionSort]
  have hsorted := List.pairwise_insertionSort r xs
  have hmem : ∀ x ∈ xs.insertionSort r, x ∈ xs := fun x hx => (List.mem_insertionSort r).1 hx
  generalize xs.insertionSort r = ys at hsorted hmem ⊢
  induction ys with
  | nil => rfl
  | cons y ys ih =>
    obtain ⟨hy, hrest⟩ := List.pairwise_cons.1 hsorted
    have ih := ih hrest (fun x hx => hmem x (List.mem_cons_of_mem _ hx))
    by_cases hp : p y = true
    · rw [List.filter_cons_of_pos hp, List.filter_cons_of_neg (by simp [hp]), List.cons_append,
        ← ih]
    · -- nothing that comes first is left behind an entry that does not
      have hnone : ys.filter p = [] := by
        rw [List.filter_eq_nil_iff]
        intro x hx hpx
        exact h x (hmem x (List.mem_cons_of_mem _ hx)) y (hmem y List.mem_cons_self) hpx
          (by simpa using hp) (hy x hx)
      rw [List.filter_cons_of_neg hp, List.filter_cons_of_pos (by simp [hp]), hnone,
        List.nil_append]
      rw [hnone, List.nil_append] at ih
      rw [← ih]

end IeltsHub.StuckQueues
