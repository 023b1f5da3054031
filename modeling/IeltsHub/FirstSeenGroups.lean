import Mathlib.Data.List.Basic
import Mathlib.Data.List.Induction
import Mathlib.Data.List.Nodup
import Mathlib.Tactic.Common

set_option autoImplicit false

/-!
# Groups in the order their keys are first seen

What `setdefault(key, []).append(value)` makes of a list: each key once, with its values in order.
-/
namespace IeltsHub.FirstSeenGroups

variable {κ ρ : Type} [DecidableEq κ]

/-- `groups.setdefault(key, []).append(value)`. -/
def append (e : κ × ρ) : List (κ × List ρ) → List (κ × List ρ)
  | [] => [(e.1, [e.2])]
  | g :: gs => if g.1 = e.1 then (g.1, g.2 ++ [e.2]) :: gs else g :: append e gs

def grouped (es : List (κ × ρ)) : List (κ × List ρ) := es.foldl (fun gs e => append e gs) []

def valuesOf (es : List (κ × ρ)) (k : κ) : List ρ := (es.filter (fun e => e.1 = k)).map Prod.snd

theorem valuesOf_concat (es : List (κ × ρ)) (e : κ × ρ) (k : κ) :
    valuesOf (es ++ [e]) k = valuesOf es k ++ if e.1 = k then [e.2] else [] := by
  unfold valuesOf
  rw [List.filter_append, List.map_append]
  by_cases h : e.1 = k
  · rw [if_pos h, List.filter_cons_of_pos (by simpa using h)]
    rfl
  · rw [if_neg h, List.filter_cons_of_neg (by simpa using h)]
    rfl

theorem keys_append (e : κ × ρ) (gs : List (κ × List ρ)) : (append e gs).map Prod.fst =
    if e.1 ∈ gs.map Prod.fst then gs.map Prod.fst else gs.map Prod.fst ++ [e.1] := by
  induction gs with
  | nil => rfl
  | cons g gs ih =>
    by_cases h : g.1 = e.1
    · simp [append, h]
    · have h' : ¬ e.1 = g.1 := fun q => h q.symm
      simp only [append, h, if_false, List.map_cons, ih, List.mem_cons, h', false_or]
      split <;> rfl

theorem mem_append {e : κ × ρ} {gs : List (κ × List ρ)} (hnodup : (gs.map Prod.fst).Nodup)
    {g : κ × List ρ} : g ∈ append e gs ↔
      (g.1 ≠ e.1 ∧ g ∈ gs) ∨
        (g.1 = e.1 ∧ ∃ rs, g.2 = rs ++ [e.2] ∧
          ((e.1, rs) ∈ gs ∨ (rs = [] ∧ e.1 ∉ gs.map Prod.fst))) := by
  induction gs with
  | nil =>
    rw [append, List.mem_singleton]
    constructor
    · rintro rfl
      exact .inr ⟨rfl, [], rfl, .inr ⟨rfl, List.not_mem_nil⟩⟩
    · rintro (⟨_, h⟩ | ⟨hk, rs, hrs, h | ⟨rfl, _⟩⟩)
      · cases h
      · cases h
      · exact Prod.ext hk hrs
  | cons x gs ih =>
    rw [List.map_cons, List.nodup_cons] at hnodup
    by_cases hx : x.1 = e.1
    · have habsent : e.1 ∉ gs.map Prod.fst := hx ▸ hnodup.1
      rw [append, if_pos hx, List.mem_cons]
      constructor
      · rintro (rfl | hg)
        · exact .inr ⟨hx, x.2, rfl, .inl (by rw [← hx]; exact List.mem_cons_self)⟩
        · refine .inl ⟨fun hk => habsent ?_, List.mem_cons_of_mem x hg⟩
          exact hk ▸ List.mem_map_of_mem hg
      · rintro (⟨hk, hg⟩ | ⟨hk, rs, hrs, h | ⟨_, habs⟩⟩)
        · rcases List.mem_cons.1 hg with rfl | hg
          · exact absurd hx hk
          · exact .inr hg
        · rcases List.mem_cons.1 h with heq | h
          · subst heq
            exact .inl (Prod.ext hk hrs)
          · exact absurd (List.mem_map_of_mem h) habsent
        · exact absurd (by rw [List.map_cons, hx]; exact List.mem_cons_self) habs
    · rw [append, if_neg hx, List.mem_cons, ih hnodup.2]
      have hx' : ¬ e.1 = x.1 := fun q => hx q.symm
      constructor
      · rintro (rfl | ⟨hk, hg⟩ | ⟨hk, rs, hrs, h | ⟨hnil, habs⟩⟩)
        · exact .inl ⟨hx, List.mem_cons_self⟩
        · exact .inl ⟨hk, List.mem_cons_of_mem x hg⟩
        · exact .inr ⟨hk, rs, hrs, .inl (List.mem_cons_of_mem x h)⟩
        · refine .inr ⟨hk, rs, hrs, .inr ⟨hnil, ?_⟩⟩
          rw [List.map_cons, List.mem_cons, not_or]
          exact ⟨hx', habs⟩
      · rintro (⟨hk, hg⟩ | ⟨hk, rs, hrs, h | ⟨hnil, habs⟩⟩)
        · rcases List.mem_cons.1 hg with rfl | hg
          · exact .inl rfl
          · exact .inr (.inl ⟨hk, hg⟩)
        · rcases List.mem_cons.1 h with heq | h
          · subst heq
            exact absurd rfl hx
          · exact .inr (.inr ⟨hk, rs, hrs, .inl h⟩)
        · rw [List.map_cons, List.mem_cons, not_or] at habs
          exact .inr (.inr ⟨hk, rs, hrs, .inr ⟨hnil, habs.2⟩⟩)

theorem grouped_spec (es : List (κ × ρ)) : ((grouped es).map Prod.fst).Nodup ∧
    ∀ k rs, (k, rs) ∈ grouped es ↔ rs = valuesOf es k ∧ rs ≠ [] := by
  induction es using List.reverseRecOn with
  | nil =>
    refine ⟨List.nodup_nil, fun k rs => iff_of_false List.not_mem_nil ?_⟩
    rintro ⟨rfl, hne⟩
    exact hne rfl
  | append_singleton es e ih =>
    obtain ⟨hnodup, hmem⟩ := ih
    have hkeys : ∀ k, k ∈ (grouped es).map Prod.fst ↔ valuesOf es k ≠ [] := by
      intro k
      rw [List.mem_map]
      constructor
      · rintro ⟨⟨k', rs⟩, hg, rfl⟩
        obtain ⟨rfl, hne⟩ := (hmem k' rs).1 hg
        exact hne
      · exact fun hne => ⟨(k, valuesOf es k), (hmem k _).2 ⟨rfl, hne⟩, rfl⟩
    have hstep : grouped (es ++ [e]) = append e (grouped es) := List.foldl_concat _ _ _ _
    rw [hstep]
    constructor
    · rw [keys_append]
      split
      · exact hnodup
      · rename_i habs
        exact List.nodup_append'.2 ⟨hnodup, List.nodup_singleton _, by simpa using habs⟩
    · intro k rs
      rw [mem_append hnodup, valuesOf_concat]
      by_cases hk : e.1 = k
      · subst hk
        rw [if_pos rfl]
        constructor
        · rintro (⟨hne, _⟩ | ⟨_, rs', hrs, h | ⟨rfl, habs⟩⟩)
          · exact absurd rfl hne
          · obtain ⟨hold, _⟩ := (hmem e.1 rs').1 h
            have hrs : rs = rs' ++ [e.2] := hrs
            rw [hrs, hold]
            exact ⟨rfl, by simp⟩
          · have hrs : rs = [] ++ [e.2] := hrs
            have hempty : valuesOf es e.1 = [] := by
              by_contra hne
              exact habs ((hkeys e.1).2 hne)
            rw [hrs, hempty]
            exact ⟨rfl, by simp⟩
        · rintro ⟨rfl, _⟩
          refine .inr ⟨rfl, valuesOf es e.1, rfl, ?_⟩
          by_cases hempty : valuesOf es e.1 = []
          · exact .inr ⟨hempty, fun h => (hkeys e.1).1 h hempty⟩
          · exact .inl ((hmem e.1 _).2 ⟨rfl, hempty⟩)
      · rw [if_neg hk, List.append_nil]
        have hk' : k ≠ e.1 := fun q => hk q.symm
        constructor
        · rintro (⟨_, h⟩ | ⟨heq, _⟩)
          · exact (hmem k rs).1 h
          · exact absurd heq hk'
        · exact fun h => .inl ⟨hk', (hmem k rs).2 h⟩

end IeltsHub.FirstSeenGroups
