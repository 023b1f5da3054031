import Mathlib

set_option autoImplicit false

/-!
# Pairing off a pool greedily

The members of a pool take turns; one who is still free is joined to some free partner the rule
allows, and stays alone only where it allows none. Which of the allowed partners is chosen is
left open.
-/
namespace IeltsHub.GreedyPairing

variable {α : Type}

def members (pairs : List (α × α)) : List α := pairs.flatMap (fun p => [p.1, p.2])

theorem members_append (xs ys : List (α × α)) : members (xs ++ ys) = members xs ++ members ys :=
  List.flatMap_append

theorem mem_members {pairs : List (α × α)} {c : α} :
    c ∈ members pairs ↔ ∃ p ∈ pairs, c = p.1 ∨ c = p.2 := by
  simp [members]

variable (allowed : α → α → Prop) (pool : List α)

/-- A free partner for `c`. -/
structure Free (pairs : List (α × α)) (c p : α) : Prop where
  mem : p ∈ pool
  other : p ≠ c
  free : p ∉ members pairs
  allowed : allowed c p

inductive Turn (c : α) : List (α × α) → List (α × α) → Prop
  | taken {pairs} : c ∈ members pairs → Turn c pairs pairs
  | alone {pairs} : c ∉ members pairs → (∀ p, ¬ Free allowed pool pairs c p) → Turn c pairs pairs
  | joined {pairs} (p : α) : c ∉ members pairs → Free allowed pool pairs c p →
      Turn c pairs (pairs ++ [(c, p)])

inductive Run : List α → List (α × α) → List (α × α) → Prop
  | nil {pairs} : Run [] pairs pairs
  | cons {c cs s t u} : Turn allowed pool c s t → Run cs t u → Run (c :: cs) s u

variable {allowed pool}

theorem Run.split {cs ds : List α} {s u : List (α × α)} (h : Run allowed pool (cs ++ ds) s u) :
    ∃ t, Run allowed pool cs s t ∧ Run allowed pool ds t u := by
  induction cs generalizing s with
  | nil => exact ⟨s, .nil, h⟩
  | cons c cs ih =>
    cases h with
    | cons hturn hrest =>
      obtain ⟨t, hleft, hright⟩ := ih hrest
      exact ⟨t, .cons hturn hleft, hright⟩

theorem Turn.extends {c : α} {s t : List (α × α)} (h : Turn allowed pool c s t) : s <+: t := by
  cases h with
  | taken => exact List.prefix_refl s
  | alone => exact List.prefix_refl s
  | joined p => exact List.prefix_append s _

theorem Run.extends {cs : List α} {s u : List (α × α)} (h : Run allowed pool cs s u) : s <+: u := by
  induction h with
  | nil => exact List.prefix_refl _
  | cons hturn _ ih => exact hturn.extends.trans ih

theorem Run.mem_mono {cs : List α} {s u : List (α × α)} (h : Run allowed pool cs s u) {c : α}
    (hc : c ∈ members s) : c ∈ members u := by
  obtain ⟨rest, rfl⟩ := h.extends
  rw [members_append]
  exact List.mem_append_left _ hc

variable (allowed pool) in
/-- What holds of the pairs after every turn. -/
structure Sound (pairs : List (α × α)) : Prop where
  nodup : (members pairs).Nodup
  within : ∀ c ∈ members pairs, c ∈ pool
  allowed : ∀ p ∈ pairs, allowed p.1 p.2

theorem sound_nil : Sound allowed pool [] := by
  constructor
  · exact List.nodup_nil
  · intro c hc
    cases hc
  · intro p hp
    cases hp

theorem Turn.sound {c : α} {s t : List (α × α)} (hc : c ∈ pool) (hs : Sound allowed pool s)
    (h : Turn allowed pool c s t) : Sound allowed pool t := by
  cases h with
  | taken => exact hs
  | alone => exact hs
  | joined p hfree hp =>
    have hmembers : members (s ++ [(c, p)]) = members s ++ [c, p] := members_append s _
    constructor
    · rw [hmembers, List.nodup_append]
      refine ⟨hs.nodup, by simp [hp.other.symm], ?_⟩
      intro x hx y hy hxy
      rw [← hxy] at hy
      have hcases : x = c ∨ x = p := by simpa using hy
      rcases hcases with hxc | hxp
      · exact hfree (hxc ▸ hx)
      · exact hp.free (hxp ▸ hx)
    · intro x hx
      rw [hmembers, List.mem_append] at hx
      rcases hx with hx | hx
      · exact hs.within x hx
      · have hcases : x = c ∨ x = p := by simpa using hx
        rcases hcases with hxc | hxp
        · exact hxc ▸ hc
        · exact hxp ▸ hp.mem
    · intro q hq
      rw [List.mem_append, List.mem_singleton] at hq
      rcases hq with hq | hq
      · exact hs.allowed q hq
      · rw [hq]
        exact hp.allowed

theorem Run.sound {cs : List α} {s u : List (α × α)} (h : Run allowed pool cs s u)
    (hcs : ∀ c ∈ cs, c ∈ pool) (hs : Sound allowed pool s) : Sound allowed pool u := by
  induction h with
  | nil => exact hs
  | cons hturn _ ih =>
    have hnext := hturn.sound (hcs _ List.mem_cons_self) hs
    exact ih (fun c hc => hcs c (List.mem_cons_of_mem _ hc)) hnext

theorem Run.maximal {cs : List α} {s u : List (α × α)} (h : Run allowed pool cs s u) {c : α}
    (hc : c ∈ cs) (halone : c ∉ members u) (p : α) : ¬ Free allowed pool u c p := by
  induction h with
  | nil => cases hc
  | @cons d ds s t u hturn hrest ih =>
    rcases List.mem_cons.1 hc with rfl | hc
    · have hs : c ∉ members t := fun hm => halone (hrest.mem_mono hm)
      cases hturn with
      | taken hm => exact absurd hm hs
      | alone _ hnone =>
        intro hp
        exact hnone p ⟨hp.mem, hp.other, fun hm => hp.free (hrest.mem_mono hm), hp.allowed⟩
      | joined q =>
        refine absurd ?_ hs
        rw [members_append]
        exact List.mem_append_right _ List.mem_cons_self
    · exact ih hc halone

theorem Run.idle {cs : List α} {s u : List (α × α)} (h : Run allowed pool cs s u)
    (hnone : ∀ c ∈ cs, ∀ p ∈ pool, p ≠ c → ¬ allowed c p) : u = s := by
  induction h with
  | nil => rfl
  | cons hturn _ ih =>
    rw [ih (fun c hc => hnone c (List.mem_cons_of_mem _ hc))]
    cases hturn with
    | taken => rfl
    | alone => rfl
    | joined p _ hp => exact absurd hp.allowed (hnone _ List.mem_cons_self p hp.mem hp.other)

theorem Run.first {before after : List α} {c : α} {u : List (α × α)}
    (h : Run allowed pool (before ++ c :: after) [] u)
    (hbefore : ∀ d ∈ before, ∀ p ∈ pool, p ≠ d → ¬ allowed d p)
    (hpartner : ∃ p ∈ pool, p ≠ c ∧ allowed c p) : c ∈ members u := by
  obtain ⟨t, hleft, hright⟩ := h.split
  have ht : t = [] := hleft.idle hbefore
  rw [ht] at hright
  cases hright with
  | cons hturn hrest =>
    refine hrest.mem_mono ?_
    cases hturn with
    | taken hm => exact hm
    | alone _ hnone =>
      obtain ⟨p, hp, hother, hallowed⟩ := hpartner
      exact absurd ⟨hp, hother, List.not_mem_nil, hallowed⟩ (hnone p)
    | joined p => exact List.mem_cons_self

theorem Sound.partition [DecidableEq α] {pairs : List (α × α)} (hs : Sound allowed pool pairs)
    (hpool : pool.Nodup) :
    (members pairs ++ pool.filter (fun c => c ∉ members pairs)).Perm pool := by
  have hleft : (pool.filter (fun c => c ∉ members pairs)).Nodup := hpool.filter _
  refine (List.perm_ext_iff_of_nodup ?_ hpool).2 ?_
  · rw [List.nodup_append]
    refine ⟨hs.nodup, hleft, ?_⟩
    intro c hc d hd hcd
    have hfree : d ∉ members pairs := by simpa using (List.mem_filter.1 hd).2
    exact hfree (hcd ▸ hc)
  · intro c
    rw [List.mem_append, List.mem_filter]
    by_cases hc : c ∈ members pairs
    · simp [hc, hs.within c hc]
    · simp [hc]

end IeltsHub.GreedyPairing
