import Mathlib

set_option autoImplicit false

/-!
# Text in the order of the numbers

Numbers written with a fixed count of digits compare as text the way they compare as numbers, and
so do numbers written as a quotient and a remainder, or as a block and an offset in it.
-/
namespace IeltsHub.AscendingText

section
variable {α : Type} [LinearOrder α] {s s' t t' : List α}

theorem append_lt_append (h : s.length = s'.length) :
    s ++ t < s' ++ t' ↔ s < s' ∨ s = s' ∧ t < t' := by
  induction s generalizing s' with
  | nil =>
    have hs' : s' = [] := List.length_eq_zero_iff.1 h.symm
    subst hs'
    simp
  | cons a s ih =>
    cases s' with
    | nil => cases h
    | cons a' s' =>
      have ih := ih (Nat.succ.inj h)
      rw [List.cons_append, List.cons_append, List.cons_lt_cons_iff, List.cons_lt_cons_iff, ih]
      rw [List.cons.injEq]
      tauto

end

/-- Below the bound the texts have one width and go up with the number. -/
structure Ascending (width bound : ℕ) (f : ℕ → List Char) : Prop where
  length_eq : ∀ n < bound, (f n).length = width
  lt : ∀ n n', n < n' → n' < bound → f n < f n'

namespace Ascending

variable {w v b k : ℕ} {f g : ℕ → List Char}

theorem congr (h : Ascending w b f) (hfg : ∀ n < b, g n = f n) : Ascending w b g where
  length_eq n hn := by
    rw [hfg n hn]
    exact h.length_eq n hn
  lt n n' hlt hn' := by
    rw [hfg n (hlt.trans hn'), hfg n' hn']
    exact h.lt n n' hlt hn'

theorem lt_iff (h : Ascending w b f) {n n' : ℕ} (hn : n < b) (hn' : n' < b) :
    f n < f n' ↔ n < n' := by
  constructor
  · intro hlt
    by_contra hge
    rcases Nat.lt_or_eq_of_le (Nat.le_of_not_lt hge) with hgt | heq
    · exact lt_asymm hlt (h.lt n' n hgt hn)
    · subst heq
      exact lt_irrefl _ hlt
  · exact fun hlt => h.lt n n' hlt hn'

theorem inj (h : Ascending w b f) {n n' : ℕ} (hn : n < b) (hn' : n' < b) (heq : f n = f n') :
    n = n' := by
  rcases Nat.lt_trichotomy n n' with hlt | he | hgt
  · exact absurd heq (h.lt n n' hlt hn').ne
  · exact he
  · exact absurd heq.symm (h.lt n' n hgt hn).ne

theorem mono {c : ℕ} (h : Ascending w b f) (hc : c ≤ b) : Ascending w c f where
  length_eq n hn := h.length_eq n (hn.trans_le hc)
  lt n n' hlt hn' := h.lt n n' hlt (hn'.trans_le hc)

theorem shift (h : Ascending w (b + 1) f) : Ascending w b (fun n => f (n + 1)) where
  length_eq _ hn := h.length_eq _ (Nat.succ_lt_succ hn)
  lt _ _ hlt hn' := h.lt _ _ (Nat.succ_lt_succ hlt) (Nat.succ_lt_succ hn')

theorem cons (c : Char) (h : Ascending w b f) : Ascending (w + 1) b (fun n => c :: f n) where
  length_eq n hn := congrArg (· + 1) (h.length_eq n hn)
  lt n n' hlt hn' := by
    rw [List.cons_lt_cons_iff]
    exact .inr ⟨rfl, h.lt n n' hlt hn'⟩

theorem blocks {c : ℕ} {block offset : ℕ → ℕ} {g : ℕ → ℕ → List Char}
    (hf : Ascending w b f) (hblock : ∀ n < k, block n < b)
    (hg : ∀ n < k, Ascending v c (g (block n))) (hoffset : ∀ n < k, offset n < c)
    (horder : ∀ n n', n < n' → n' < k →
      block n < block n' ∨ block n = block n' ∧ offset n < offset n') :
    Ascending (w + v) k (fun n => f (block n) ++ g (block n) (offset n)) where
  length_eq n hn := by
    rw [List.length_append, hf.length_eq _ (hblock n hn), (hg n hn).length_eq _ (hoffset n hn)]
  lt n n' hlt hn' := by
    have hn : n < k := hlt.trans hn'
    have hlength := (hf.length_eq _ (hblock n hn)).trans (hf.length_eq _ (hblock n' hn')).symm
    rw [append_lt_append hlength]
    rcases horder n n' hlt hn' with hless | ⟨hsame, hless⟩
    · exact .inl (hf.lt _ _ hless (hblock n' hn'))
    · rw [hsame]
      exact .inr ⟨rfl, (hg n' hn').lt _ _ hless (hoffset n' hn')⟩

theorem divMod (hf : Ascending w b f) (hg : Ascending v k g) (hk : 0 < k) :
    Ascending (w + v) (b * k) (fun n => f (n / k) ++ g (n % k)) := by
  refine blocks (g := fun _ => g) hf ?_ (fun _ _ => hg) (fun n _ => Nat.mod_lt n hk) ?_
  · intro n hn
    exact Nat.div_lt_of_lt_mul (by rwa [Nat.mul_comm])
  · intro n n' hlt _
    have hle : n / k ≤ n' / k := Nat.div_le_div_right hlt.le
    rcases Nat.lt_or_eq_of_le hle with hless | hsame
    · exact .inl hless
    · refine .inr ⟨hsame, ?_⟩
      have hn := Nat.div_add_mod n k
      have hn' := Nat.div_add_mod n' k
      rw [hsame] at hn
      omega

end Ascending

/-! ## Digits -/

/-- `str(n).zfill(width)`. -/
def zfill (width n : ℕ) : List Char :=
  List.replicate (width - (Nat.toDigits 10 n).length) '0' ++ Nat.toDigits 10 n

theorem zfill_succ {w n : ℕ} (hw : 0 < w) :
    zfill (w + 1) n = zfill w (n / 10) ++ [Nat.digitChar (n % 10)] := by
  unfold zfill
  by_cases hn : n < 10
  · have hdiv : n / 10 = 0 := Nat.div_eq_of_lt hn
    rw [hdiv, Nat.mod_eq_of_lt hn, Nat.toDigits_of_lt_base hn, Nat.toDigits_zero]
    obtain ⟨v, rfl⟩ : ∃ v, w = v + 1 := ⟨w - 1, by omega⟩
    simp only [List.length_singleton, Nat.add_sub_cancel]
    rw [List.replicate_succ']
  · rw [Nat.toDigits_of_base_le (by decide) (Nat.le_of_not_lt hn)]
    rw [List.length_append, List.length_singleton, Nat.add_sub_add_right, List.append_assoc]

theorem digitChar_lt {m n : ℕ} (h : m < n) (hn : n < 10) : Nat.digitChar m < Nat.digitChar n := by
  have hall : ∀ n < 10, ∀ m < n, Nat.digitChar m < Nat.digitChar n := by decide
  exact hall n hn m h

theorem ascending_digit : Ascending 1 10 (fun n => [Nat.digitChar n]) where
  length_eq _ _ := rfl
  lt n n' hlt hn' := by
    rw [List.cons_lt_cons_iff]
    exact .inl (digitChar_lt hlt hn')

theorem ascending_zfill (w : ℕ) : Ascending (w + 1) (10 ^ (w + 1)) (zfill (w + 1)) := by
  induction w with
  | zero =>
    refine ascending_digit.congr (fun n hn => ?_)
    rw [zfill, Nat.toDigits_of_lt_base hn]
    rfl
  | succ w ih =>
    refine (ih.divMod ascending_digit (by decide)).congr (fun n _ => ?_)
    exact zfill_succ (Nat.succ_pos w)

end IeltsHub.AscendingText
