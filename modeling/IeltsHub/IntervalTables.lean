import Mathlib

set_option autoImplicit false

/-!
# Tables of intervals

Rows give an interval of integers one value. Where no two rows share an integer, the first row that
holds an integer is the only one: the order of the rows does not matter, and the table goes up
exactly when the values go up with the rows' lower ends.
-/
namespace IeltsHub.IntervalTables

variable {V : Type} {rows rows' : List (ℤ × ℤ × V)} {r r' : ℤ × ℤ × V} {m m' : ℤ} {v : V}

def Within (r : ℤ × ℤ × V) (m : ℤ) : Prop := r.1 ≤ m ∧ m ≤ r.2.1

instance within_decidable (r : ℤ × ℤ × V) (m : ℤ) : Decidable (Within r m) :=
  inferInstanceAs (Decidable (_ ∧ _))

def lookup (rows : List (ℤ × ℤ × V)) (m : ℤ) : Option V :=
  (rows.find? (fun r => Within r m)).map (fun r => r.2.2)

def Apart (r r' : ℤ × ℤ × V) : Prop := ∀ m, ¬ (Within r m ∧ Within r' m)

theorem Apart.symm (h : Apart r r') : Apart r' r := fun m q => h m q.symm

instance apart_symm : Std.Symm (@Apart V) where
  symm _ _ h := h.symm

def Separate (rows : List (ℤ × ℤ × V)) : Prop := rows.Pairwise Apart

theorem Separate.perm (h : Separate rows) (hperm : rows.Perm rows') : Separate rows' :=
  hperm.pairwise h Apart.symm

theorem Separate.apart (h : Separate rows) (hr : r ∈ rows) (hr' : r' ∈ rows) (hne : r ≠ r') :
    Apart r r' :=
  h.forall hr hr' hne

theorem Separate.unique (h : Separate rows) (hr : r ∈ rows) (hr' : r' ∈ rows) (hm : Within r m)
    (hm' : Within r' m) : r = r' := by
  by_contra hne
  exact h.apart hr hr' hne m ⟨hm, hm'⟩

theorem Separate.lookup_eq_some (h : Separate rows) :
    lookup rows m = some v ↔ ∃ r ∈ rows, Within r m ∧ r.2.2 = v := by
  unfold lookup
  rw [Option.map_eq_some_iff]
  constructor
  · rintro ⟨r, hr, rfl⟩
    have hwithin := List.find?_some hr
    exact ⟨r, List.mem_of_find?_eq_some hr, of_decide_eq_true hwithin, rfl⟩
  · rintro ⟨r, hr, hm, rfl⟩
    cases hfound : rows.find? (fun r => Within r m) with
    | none =>
      have hnone := List.find?_eq_none.1 hfound r hr
      exact absurd (decide_eq_true hm) hnone
    | some r' =>
      have hwithin : Within r' m := by simpa using List.find?_some hfound
      have hsame := h.unique (List.mem_of_find?_eq_some hfound) hr hwithin hm
      exact ⟨r', rfl, by rw [hsame]⟩

theorem isSome_lookup : (lookup rows m).isSome ↔ ∃ r ∈ rows, Within r m := by
  unfold lookup
  rw [Option.isSome_map, List.find?_isSome]
  simp only [decide_eq_true_eq]

theorem Separate.lookup_perm (h : Separate rows) (hperm : rows.Perm rows') :
    lookup rows m = lookup rows' m := by
  apply Option.ext
  intro v
  rw [h.lookup_eq_some, (h.perm hperm).lookup_eq_some]
  simp only [hperm.mem_iff]

def Rising [LE V] (rows : List (ℤ × ℤ × V)) : Prop :=
  ∀ r ∈ rows, ∀ r' ∈ rows, r.1 < r'.1 → r.2.2 ≤ r'.2.2

theorem Rising.perm [LE V] (h : Rising rows) (hperm : rows.Perm rows') : Rising rows' :=
  fun r hr r' hr' => h r (hperm.mem_iff.2 hr) r' (hperm.mem_iff.2 hr')

theorem Separate.rising_iff [Preorder V] (h : Separate rows) (hproper : ∀ r ∈ rows, r.1 ≤ r.2.1) :
    Rising rows ↔
      ∀ m m' v v', m ≤ m' → lookup rows m = some v → lookup rows m' = some v' → v ≤ v' := by
  constructor
  · intro hrising m m' v v' hle hv hv'
    obtain ⟨r, hr, hm, rfl⟩ := h.lookup_eq_some.1 hv
    obtain ⟨r', hr', hm', rfl⟩ := h.lookup_eq_some.1 hv'
    by_cases hlt : r.1 < r'.1
    · exact hrising r hr r' hr' hlt
    · -- the later mark lies in a row that begins no later, so the two are one row
      have hshared : Within r' r.1 := ⟨Int.not_lt.1 hlt, by
        have h₁ := hm.1
        have h₂ := hm'.2
        omega⟩
      have hown : Within r r.1 := ⟨le_rfl, hproper r hr⟩
      rw [h.unique hr hr' hown hshared]
  · intro hmono r hr r' hr' hlt
    have hown : Within r r.1 := ⟨le_rfl, hproper r hr⟩
    have hown' : Within r' r'.1 := ⟨le_rfl, hproper r' hr'⟩
    exact hmono r.1 r'.1 _ _ hlt.le (h.lookup_eq_some.2 ⟨r, hr, hown, rfl⟩)
      (h.lookup_eq_some.2 ⟨r', hr', hown', rfl⟩)

end IeltsHub.IntervalTables
