import Mathlib.Algebra.Order.Group.Nat
import Mathlib.Data.List.Count
import Mathlib.Data.List.Perm.Basic

set_option autoImplicit false

/-!
# Lists gathered by key

A map in insertion order that holds, for each key, the entries of a list that have it.
-/
namespace IeltsHub.InsertionMap

variable {κ α : Type} [DecidableEq κ] (key : α → κ)

def push : List (κ × List α) → α → List (κ × List α)
  | [], a => [(key a, [a])]
  | (k, held) :: m, a => if key a = k then (k, held ++ [a]) :: m else (k, held) :: push m a

def gather (as : List α) : List (κ × List α) := as.foldl (push key) []

def get? (m : List (κ × List α)) (k : κ) : Option (List α) :=
  (m.find? (fun e => e.1 = k)).map Prod.snd

def own (as : List α) (k : κ) : List α := as.filter (fun a => key a = k)

section
variable {key} {m : List (κ × List α)} {as : List α} {a : α} {k : κ}

theorem get?_cons (e : κ × List α) (m : List (κ × List α)) (k : κ) :
    get? (e :: m) k = if e.1 = k then some e.2 else get? m k := by
  unfold get?
  rw [List.find?_cons]
  by_cases h : e.1 = k
  · rw [if_pos h, decide_eq_true h]
    rfl
  · rw [if_neg h, decide_eq_false h]

theorem get?_push (m : List (κ × List α)) (a : α) (k : κ) :
    get? (push key m a) k =
      if key a = k then some ((get? m k).getD [] ++ [a]) else get? m k := by
  induction m with
  | nil => exact get?_cons _ _ _
  | cons e m ih =>
    obtain ⟨k', held⟩ := e
    unfold push
    by_cases hk : key a = k'
    · rw [if_pos hk, get?_cons, get?_cons]
      dsimp only
      subst hk
      split <;> rfl
    · rw [if_neg hk, get?_cons, get?_cons, ih]
      dsimp only
      by_cases hk' : k' = k
      · rw [if_pos hk', if_pos hk', if_neg (fun h => hk (h.trans hk'.symm))]
      · rw [if_neg hk', if_neg hk']

theorem get?_foldl (as : List α) (m : List (κ × List α)) (k : κ) :
    get? (as.foldl (push key) m) k =
      if own key as k = [] then get? m k else some ((get? m k).getD [] ++ own key as k) := by
  induction as generalizing m with
  | nil => rfl
  | cons a as ih =>
    rw [List.foldl_cons, ih, get?_push]
    by_cases hk : key a = k
    · have hown : own key (a :: as) k = a :: own key as k :=
        List.filter_cons_of_pos (decide_eq_true hk)
      rw [if_pos hk, hown, if_neg (List.cons_ne_nil _ _)]
      by_cases hnil : own key as k = []
      · rw [if_pos hnil, hnil]
      · rw [if_neg hnil, Option.getD_some, List.append_assoc]
        rfl
    · have hown : own key (a :: as) k = own key as k :=
        List.filter_cons_of_neg (by simpa using hk)
      rw [if_neg hk, hown]

theorem get?_gather (as : List α) (k : κ) :
    get? (gather key as) k = if own key as k = [] then none else some (own key as k) :=
  get?_foldl as [] k

theorem get?_isSome_of_mem {e : κ × List α} (h : e ∈ m) : (get? m e.1).isSome = true := by
  unfold get?
  rw [Option.isSome_map, List.find?_isSome]
  exact ⟨e, h, decide_eq_true rfl⟩

theorem key_of_mem_push (hm : ∀ e ∈ m, ∀ b ∈ e.2, key b = e.1) :
    ∀ e ∈ push key m a, ∀ b ∈ e.2, key b = e.1 := by
  induction m with
  | nil =>
    intro e he b hb
    rw [List.mem_singleton.1 he] at hb ⊢
    rw [List.mem_singleton.1 hb]
  | cons f m ih =>
    obtain ⟨k', held⟩ := f
    intro e he b hb
    unfold push at he
    split at he
    · rename_i hk
      obtain rfl | he := List.mem_cons.1 he
      · obtain hb | hb := List.mem_append.1 hb
        · exact hm (k', held) List.mem_cons_self b hb
        · rw [List.mem_singleton.1 hb]
          exact hk
      · exact hm e (List.mem_cons_of_mem _ he) b hb
    · obtain rfl | he := List.mem_cons.1 he
      · exact hm (k', held) List.mem_cons_self b hb
      · exact ih (fun f hf => hm f (List.mem_cons_of_mem _ hf)) e he b hb

theorem key_of_mem (as : List α) : ∀ e ∈ gather key as, ∀ b ∈ e.2, key b = e.1 := by
  have hfold : ∀ (as : List α) (m : List (κ × List α)), (∀ e ∈ m, ∀ b ∈ e.2, key b = e.1) →
      ∀ e ∈ as.foldl (push key) m, ∀ b ∈ e.2, key b = e.1 := by
    intro as
    induction as with
    | nil => exact fun m hm => hm
    | cons a as ih => exact fun m hm => ih _ (key_of_mem_push hm)
  exact hfold as [] (fun _ he => absurd he List.not_mem_nil)

theorem flatMap_push (p : κ → Bool) (m : List (κ × List α)) (a : α) :
    (((push key m a).filter (fun e => p e.1)).flatMap Prod.snd).Perm
      ((m.filter (fun e => p e.1)).flatMap Prod.snd ++ [a].filter (fun a => p (key a))) := by
  induction m with
  | nil =>
    unfold push
    cases hp : p (key a) <;> simp [hp]
  | cons e m ih =>
    obtain ⟨k', held⟩ := e
    unfold push
    split
    · rename_i hk
      subst hk
      cases hp : p (key a)
      · simp [hp]
      · simp only [List.filter_cons, hp, if_true, List.flatMap_cons, List.filter_nil,
          List.append_assoc]
        exact List.Perm.append_left _ List.perm_append_comm
    · cases hp : p k'
      · rw [List.filter_cons_of_neg (by simp [hp]), List.filter_cons_of_neg (by simp [hp])]
        exact ih
      · rw [List.filter_cons_of_pos (by simp [hp]), List.filter_cons_of_pos (by simp [hp]),
          List.flatMap_cons, List.flatMap_cons, List.append_assoc]
        exact ih.append_left held

theorem flatMap_gather (p : κ → Bool) (as : List α) :
    (((gather key as).filter (fun e => p e.1)).flatMap Prod.snd).Perm
      (as.filter (fun a => p (key a))) := by
  have hfold : ∀ (as : List α) (m : List (κ × List α)),
      (((as.foldl (push key) m).filter (fun e => p e.1)).flatMap Prod.snd).Perm
        ((m.filter (fun e => p e.1)).flatMap Prod.snd ++ as.filter (fun a => p (key a))) := by
    intro as
    induction as with
    | nil =>
      intro m
      rw [List.filter_nil, List.append_nil]
      rfl
    | cons a as ih =>
      intro m
      have hsplit : (a :: as).filter (fun a => p (key a)) =
          [a].filter (fun a => p (key a)) ++ as.filter (fun a => p (key a)) :=
        List.filter_append [a] as
      rw [List.foldl_cons, hsplit, ← List.append_assoc]
      exact (ih _).trans ((flatMap_push p m a).append_right _)
  exact hfold as []

theorem count_flatMap_own [DecidableEq α] (ks : List κ) (as : List α) (a : α) :
    (ks.flatMap (own key as)).count a = ks.count (key a) * as.count a := by
  have hown : ∀ k, (own key as k).count a = if key a = k then as.count a else 0 := by
    intro k
    unfold own
    split
    · rename_i hk
      exact List.count_filter (decide_eq_true hk)
    · rename_i hk
      refine List.count_eq_zero_of_not_mem (fun hmem => hk ?_)
      simpa using List.of_mem_filter hmem
  induction ks with
  | nil => rw [List.flatMap_nil, List.count_nil, List.count_nil, Nat.zero_mul]
  | cons k ks ih =>
    rw [List.flatMap_cons, List.count_append, ih, hown, List.count_cons]
    by_cases hk : key a = k
    · rw [if_pos hk, hk, beq_self_eq_true, if_pos rfl, Nat.add_mul, Nat.one_mul, Nat.add_comm]
    · rw [if_neg hk, beq_false_of_ne (Ne.symm hk), Nat.zero_add]
      rfl

theorem perm_own_iff (ks : List κ) (as : List α) :
    (ks.flatMap (own key as) ++ as.filter (fun a => key a ∉ ks)).Perm as ↔
      ∀ a ∈ as, ks.count (key a) ≤ 1 := by
  classical
  have hcount : ∀ a, (ks.flatMap (own key as) ++ as.filter (fun a => key a ∉ ks)).count a =
      if key a ∈ ks then ks.count (key a) * as.count a else as.count a := by
    intro a
    rw [List.count_append, count_flatMap_own]
    by_cases hk : key a ∈ ks
    · have hrest : (as.filter (fun a => key a ∉ ks)).count a = 0 := by
        refine List.count_eq_zero_of_not_mem (fun hmem => ?_)
        have hout : key a ∉ ks := by simpa using List.of_mem_filter hmem
        exact hout hk
      rw [if_pos hk, hrest, Nat.add_zero]
    · have hrest : (as.filter (fun a => key a ∉ ks)).count a = as.count a :=
        List.count_filter (decide_eq_true hk)
      rw [if_neg hk, hrest, List.count_eq_zero_of_not_mem hk, Nat.zero_mul, Nat.zero_add]
  rw [List.perm_iff_count]
  constructor
  · intro h a ha
    have hpos : 0 < as.count a := List.count_pos_iff.2 ha
    have hsame := h a
    rw [hcount] at hsame
    split at hsame
    · exact (Nat.eq_of_mul_eq_mul_right hpos (hsame.trans (Nat.one_mul _).symm)).le
    · rename_i hk
      rw [List.count_eq_zero_of_not_mem hk]
      exact Nat.zero_le 1
  · intro h a
    rw [hcount]
    split
    · rename_i hk
      by_cases ha : a ∈ as
      · have hone : ks.count (key a) = 1 :=
          Nat.le_antisymm (h a ha) (List.count_pos_iff.2 hk)
        rw [hone, Nat.one_mul]
      · rw [List.count_eq_zero_of_not_mem ha, Nat.mul_zero]
    · rfl

end

end IeltsHub.InsertionMap
