import Mathlib.Data.List.Basic
import Mathlib.Data.List.Infix
import Mathlib.Tactic.Common

set_option autoImplicit false

/-!
# Longest-match rewriting

A text is read from the left; at each place the longest phrase that begins there is replaced and
passed over. A block that no phrase reaches into or out of is replaced by itself, whatever stands
around it.
-/
namespace IeltsHub.PhraseRewriting

variable {α : Type} (lookup : List α → Option (List α))

def longest (tokens : List α) : ℕ → Option (ℕ × List α)
  | 0 => none
  | size + 1 =>
    match lookup (tokens.take (size + 1)) with
    | some replacement => some (size + 1, replacement)
    | none => longest tokens size

/-- `skip` tokens belong to the phrase just replaced. -/
def rewrite (maxLen : ℕ) : ℕ → List α → List α
  | _, [] => []
  | skip + 1, _ :: ts => rewrite maxLen skip ts
  | 0, t :: ts =>
    match longest lookup (t :: ts) (min maxLen (t :: ts).length) with
    | some (size, replacement) => replacement ++ rewrite maxLen (size - 1) ts
    | none => t :: rewrite maxLen 0 ts

/-- No phrase reaches across an edge of the block, whatever stands around it. -/
def Clear (block : List α) : Prop :=
  ∀ gram, (lookup gram).isSome = true →
    (∀ u v, gram = u ++ v → u ≠ [] → v ≠ [] → ¬ v <+: block ∧ ¬ block <+: v) ∧
    (block <+: gram → gram = block)

/-- What a block becomes: a phrase its replacement, and one token that is none itself. -/
def Becomes (block image : List α) : Prop :=
  lookup block = some image ∨ (lookup block = none ∧ block.length = 1 ∧ image = block)

variable {lookup} {maxLen : ℕ}

theorem longest_of_none {tokens : List α} {k n : ℕ} (hk : k ≤ n)
    (h : ∀ j, k < j → j ≤ n → lookup (tokens.take j) = none) :
    longest lookup tokens n = longest lookup tokens k := by
  induction n with
  | zero => rw [Nat.le_zero.1 hk]
  | succ n ih =>
    by_cases heq : k = n + 1
    · rw [heq]
    · rw [longest, h (n + 1) (by omega) le_rfl]
      exact ih (by omega) (fun j hj hn => h j hj (by omega))

theorem longest_congr {tokens tokens' : List α} {n : ℕ}
    (h : ∀ j ≤ n, tokens.take j = tokens'.take j) :
    longest lookup tokens n = longest lookup tokens' n := by
  induction n with
  | zero => rfl
  | succ n ih =>
    rw [longest, longest, h (n + 1) le_rfl, ih (fun j hj => h j (by omega))]

theorem longest_size {tokens image : List α} {n size : ℕ}
    (h : longest lookup tokens n = some (size, image)) : 0 < size ∧ size ≤ n := by
  induction n with
  | zero => cases h
  | succ n ih =>
    rw [longest] at h
    split at h
    · cases h
      omega
    · have hsize := ih h
      omega

theorem rewrite_skip (xs rest : List α) :
    rewrite lookup maxLen xs.length (xs ++ rest) = rewrite lookup maxLen 0 rest := by
  induction xs with
  | nil => rfl
  | cons x xs ih => exact ih

theorem longest_append {front rest : List α}
    (h : ∀ u v, front ++ rest = front ++ u ++ v → u ≠ [] → lookup (front ++ u) = none) :
    longest lookup (front ++ rest) (min maxLen (front ++ rest).length) =
      longest lookup front (min maxLen front.length) := by
  rw [List.length_append]
  by_cases hm : maxLen ≤ front.length
  · rw [min_eq_left (by omega), min_eq_left hm]
    apply longest_congr
    intro j hj
    exact List.take_append_of_le_length (by omega)
  · rw [min_eq_right (Nat.le_of_not_le hm)]
    have hnone : ∀ j, front.length < j → j ≤ min maxLen (front.length + rest.length) →
        lookup ((front ++ rest).take j) = none := by
      intro j hj hn
      rw [List.take_append, List.take_of_length_le (by omega)]
      apply h (rest.take (j - front.length)) (rest.drop (j - front.length))
      · rw [List.append_assoc, List.take_append_drop]
      · intro hnil
        have hlen := congrArg List.length hnil
        rw [List.length_take, List.length_nil] at hlen
        omega
    rw [longest_of_none (by omega) hnone]
    apply longest_congr
    intro j hj
    exact List.take_append_of_le_length hj

theorem not_lookup_across {block front u v rest : List α} (hclear : Clear lookup block)
    (hfront : front ≠ []) (hu : u ≠ []) (h : block ++ rest = u ++ v) :
    lookup (front ++ u) = none := by
  by_contra hsome
  have hgram := (hclear (front ++ u) (Option.isSome_iff_ne_none.2 hsome)).1 front u rfl hfront hu
  have hprefix : u <+: block ++ rest := ⟨v, h.symm⟩
  rcases List.prefix_or_prefix_of_prefix hprefix (List.prefix_append block rest) with hub | hbu
  · exact hgram.1 hub
  · exact hgram.2 hbu

/-- A clear block becomes what it becomes alone, and the text around it is read as two texts. -/
theorem rewrite_block {block image : List α} (hlen : ∀ g, (lookup g).isSome = true →
      g.length ≤ maxLen) (hne : block ≠ []) (hclear : Clear lookup block)
    (himage : Becomes lookup block image) (before after : List α) {skip : ℕ}
    (hskip : skip ≤ before.length) :
    rewrite lookup maxLen skip (before ++ block ++ after) =
      rewrite lookup maxLen skip before ++ image ++ rewrite lookup maxLen 0 after := by
  induction before generalizing skip with
  | nil =>
    have hzero : skip = 0 := Nat.le_zero.1 hskip
    subst hzero
    obtain ⟨t, ts, rfl⟩ := List.exists_cons_of_ne_nil hne
    have hfront : longest lookup ((t :: ts) ++ after) (min maxLen ((t :: ts) ++ after).length) =
        longest lookup (t :: ts) (min maxLen (t :: ts).length) := by
      apply longest_append
      intro u v h hu
      by_contra hsome
      have hgram := (hclear (t :: ts ++ u) (Option.isSome_iff_ne_none.2 hsome)).2
        (List.prefix_append _ _)
      exact hu (List.append_right_eq_self.1 hgram)
    rw [List.nil_append, rewrite]
    change rewrite lookup maxLen 0 (t :: (ts ++ after)) = _
    rw [rewrite]
    change (match longest lookup ((t :: ts) ++ after) (min maxLen ((t :: ts) ++ after).length) with
      | some (size, replacement) => replacement ++ rewrite lookup maxLen (size - 1) (ts ++ after)
      | none => t :: rewrite lookup maxLen 0 (ts ++ after)) = _
    rw [hfront]
    rcases himage with hsome | ⟨hnone, hone, rfl⟩
    · have hle := hlen (t :: ts) (by rw [hsome]; rfl)
      rw [min_eq_right hle, List.length_cons, longest, ← List.length_cons, List.take_length, hsome]
      change image ++ rewrite lookup maxLen ts.length (ts ++ after) = _
      rw [rewrite_skip]
      rfl
    · have hts : ts = [] := List.length_eq_zero_iff.1 (by simpa using hone)
      subst hts
      have hmiss : longest lookup [t] (min maxLen 1) = none := by
        rw [longest_of_none (Nat.zero_le _)]
        · rfl
        · intro j hj hj'
          have h1 : j = 1 := by omega
          rw [h1]
          exact hnone
      rw [List.length_singleton, hmiss]
      rfl
  | cons t ts ih =>
    cases skip with
    | succ skip =>
      exact ih (Nat.le_of_succ_le_succ hskip)
    | zero =>
      have hfront : longest lookup ((t :: ts) ++ (block ++ after))
          (min maxLen ((t :: ts) ++ (block ++ after)).length) =
          longest lookup (t :: ts) (min maxLen (t :: ts).length) := by
        apply longest_append
        intro u v h hu
        rw [List.append_assoc] at h
        exact not_lookup_across hclear (List.cons_ne_nil t ts) hu (List.append_cancel_left h)
      rw [List.append_assoc]
      change rewrite lookup maxLen 0 (t :: (ts ++ (block ++ after))) = _
      rw [rewrite, rewrite]
      change (match longest lookup ((t :: ts) ++ (block ++ after))
          (min maxLen ((t :: ts) ++ (block ++ after)).length) with
        | some (size, replacement) =>
          replacement ++ rewrite lookup maxLen (size - 1) (ts ++ (block ++ after))
        | none => t :: rewrite lookup maxLen 0 (ts ++ (block ++ after))) = _
      rw [hfront, ← List.append_assoc]
      cases hl : longest lookup (t :: ts) (min maxLen (t :: ts).length) with
      | none =>
        dsimp only
        rw [ih (Nat.zero_le _)]
        rfl
      | some p =>
        obtain ⟨size, replacement⟩ := p
        have hsize := longest_size hl
        rw [List.length_cons] at hsize
        dsimp only
        rw [ih (by omega)]
        simp only [List.append_assoc]

variable (lookup) in
/-- A run of clear blocks and what they become. -/
inductive Blocks : List α → List α → Prop
  | one {block image : List α} : block ≠ [] → Clear lookup block → Becomes lookup block image →
      Blocks block image
  | cons {block image rest images : List α} : block ≠ [] → Clear lookup block →
      Becomes lookup block image → Blocks rest images → Blocks (block ++ rest) (image ++ images)

theorem rewrite_blocks {blocks images : List α} (hlen : ∀ g, (lookup g).isSome = true →
      g.length ≤ maxLen) (h : Blocks lookup blocks images) (before after : List α) :
    rewrite lookup maxLen 0 (before ++ blocks ++ after) =
      rewrite lookup maxLen 0 before ++ images ++ rewrite lookup maxLen 0 after := by
  induction h generalizing before with
  | one hne hclear himage =>
    exact rewrite_block hlen hne hclear himage before after (Nat.zero_le _)
  | @cons block image rest images hne hclear himage _ ih =>
    have hrest := ih []
    rw [List.nil_append] at hrest
    rw [List.append_assoc, List.append_assoc, ← List.append_assoc before,
      rewrite_block hlen hne hclear himage before (rest ++ after) (Nat.zero_le _), hrest]
    simp only [rewrite, List.nil_append, List.append_assoc]

end IeltsHub.PhraseRewriting
