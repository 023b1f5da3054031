import Mathlib.Algebra.BigOperators.Group.List.Basic
import Mathlib.Algebra.BigOperators.Ring.List
import Mathlib.Algebra.CharZero.Defs
import Mathlib.Algebra.Field.Basic
import Mathlib.Data.Nat.Cast.Order.Field
import Mathlib.Tactic.FieldSimp
import Mathlib.Tactic.Ring

set_option autoImplicit false

/-!
# Averages of repeated values

A join repeats a value as often as it finds a partner for it. The average is the same as without
the repetitions where all values are, or are repeated alike.
-/
namespace IeltsHub.RepeatedAverages

def repeated {V : Type} (ps : List (ℕ × V)) : List V :=
  ps.flatMap (fun p => List.replicate p.1 p.2)

/-! ## The repetitions -/

section
variable {V : Type} {ps : List (ℕ × V)}

theorem length_repeated {n : ℕ} (h : ∀ p ∈ ps, p.1 = n) :
    (repeated ps).length = n * ps.length := by
  induction ps with
  | nil => rfl
  | cons p ps ih =>
    have ih := ih (fun q hq => h q (List.mem_cons_of_mem p hq))
    unfold repeated at ih ⊢
    rw [List.flatMap_cons, List.length_append, ih, List.length_replicate, h p List.mem_cons_self,
      List.length_cons, Nat.mul_succ, Nat.add_comm]

theorem mem_repeated (hpos : ∀ p ∈ ps, 0 < p.1) {q : V} :
    q ∈ repeated ps ↔ q ∈ ps.map Prod.snd := by
  unfold repeated
  rw [List.mem_flatMap, List.mem_map]
  constructor
  · rintro ⟨p, hp, hq⟩
    exact ⟨p, hp, (List.eq_of_mem_replicate hq).symm⟩
  · rintro ⟨p, hp, rfl⟩
    exact ⟨p, hp, List.mem_replicate.2 ⟨(hpos p hp).ne', rfl⟩⟩

theorem alike_or_same (h : ∀ p ∈ ps, ∀ q ∈ ps, p.2 = q.2 ∨ p.1 = q.1) :
    (∀ p ∈ ps, ∀ q ∈ ps, p.2 = q.2) ∨ (∀ p ∈ ps, ∀ q ∈ ps, p.1 = q.1) := by
  by_cases hsame : ∀ p ∈ ps, ∀ q ∈ ps, p.2 = q.2
  · exact .inl hsame
  · refine .inr ?_
    push Not at hsame
    obtain ⟨p, hp, q, hq, hne⟩ := hsame
    have hpq : p.1 = q.1 := (h p hp q hq).resolve_left hne
    have hall : ∀ r ∈ ps, r.1 = p.1 := by
      intro r hr
      rcases h r hr p hp with hvalue | hcount
      · have hcount := (h r hr q hq).resolve_left (fun heq => hne (hvalue.symm.trans heq))
        exact hcount.trans hpq.symm
      · exact hcount
    exact fun r hr s hs => (hall r hr).trans (hall s hs).symm

end

/-! ## Their average -/

section
variable {K : Type} [Field K]

/-- `avg`, which is null over no rows. -/
def average (qs : List K) : Option K := if qs.isEmpty then none else some (qs.sum / qs.length)

theorem average_of_ne_nil {qs : List K} (h : qs ≠ []) :
    average qs = some (qs.sum / qs.length) := by
  unfold average
  rw [if_neg (by simpa using h)]

theorem sum_repeated {ps : List (ℕ × K)} {n : ℕ} (h : ∀ p ∈ ps, p.1 = n) :
    (repeated ps).sum = n * (ps.map Prod.snd).sum := by
  induction ps with
  | nil => simp [repeated]
  | cons p ps ih =>
    have ih := ih (fun q hq => h q (List.mem_cons_of_mem p hq))
    unfold repeated at ih ⊢
    rw [List.flatMap_cons, List.sum_append, ih, List.sum_replicate, h p List.mem_cons_self,
      List.map_cons, List.sum_cons, nsmul_eq_mul, mul_add]

variable [CharZero K]

theorem average_const {qs : List K} {c : K} (hne : qs ≠ []) (h : ∀ q ∈ qs, q = c) :
    average qs = some c := by
  have hlength : (qs.length : K) ≠ 0 := by simpa using hne
  rw [average_of_ne_nil hne, List.sum_eq_card_nsmul qs c h, nsmul_eq_mul,
    mul_div_cancel_left₀ c hlength]

theorem average_repeated {ps : List (ℕ × K)} (hpos : ∀ p ∈ ps, 0 < p.1)
    (h : ∀ p ∈ ps, ∀ q ∈ ps, p.2 = q.2 ∨ p.1 = q.1) :
    average (repeated ps) = average (ps.map Prod.snd) := by
  by_cases hnil : ps = []
  · subst hnil
    rfl
  · obtain ⟨p, hp⟩ := List.exists_mem_of_ne_nil _ hnil
    have hvalues : ps.map Prod.snd ≠ [] := List.ne_nil_of_mem (List.mem_map_of_mem hp)
    have hrepeated : repeated ps ≠ [] :=
      List.ne_nil_of_mem ((mem_repeated hpos).2 (List.mem_map_of_mem hp))
    rcases alike_or_same h with hsame | halike
    · have hconst : ∀ q ∈ ps.map Prod.snd, q = p.2 := by
        intro q hq
        obtain ⟨r, hr, rfl⟩ := List.mem_map.1 hq
        exact hsame r hr p hp
      rw [average_const hvalues hconst,
        average_const hrepeated (fun q hq => hconst q ((mem_repeated hpos).1 hq))]
    · have hcount : ∀ q ∈ ps, q.1 = p.1 := fun q hq => halike q hq p hp
      have hne : (p.1 : K) ≠ 0 := Nat.cast_ne_zero.2 (hpos p hp).ne'
      rw [average_of_ne_nil hvalues, average_of_ne_nil hrepeated, sum_repeated hcount,
        length_repeated hcount, List.length_map, Nat.cast_mul, mul_div_mul_left _ _ hne]

end

end IeltsHub.RepeatedAverages
