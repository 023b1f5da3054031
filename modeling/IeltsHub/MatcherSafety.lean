import IeltsHub.SpeakingMatching

set_option autoImplicit false

/-!
# What the matcher promises

Within a partition the loop is a greedy pairing whose rule is `_compatible` with the widest band
gap, so its pairs are legal, nobody who could be paired is left, and the first in waiting order
with a partner is not. Waiting order is total on distinct users, so the order of the input does
not matter.
-/
namespace IeltsHub.SpeakingMatching
open PyDict GreedyPairing

/-! ## What a pair must satisfy -/

/-- Two candidates who may be put in one room, said without the matcher's predicates. -/
structure Legal (allowRepeats : Bool) (a b : Candidate) : Prop where
  age : a.isMinor = b.isMinor
  language : a.language = b.language
  unblocked : b.userXid ∉ a.blocked ∧ a.userXid ∉ b.blocked
  org : a.orgOnly = true ∨ b.orgOnly = true → ∃ o, a.orgXid = some o ∧ b.orgXid = some o
  band : ∀ x y, a.band = some x → b.band = some y → |x - y| ≤ 2
  fresh : allowRepeats = false →
    b.userXid ∉ a.recentPartners ∧ a.userXid ∉ b.recentPartners

/-- What `_best_partner` asks of a free candidate. -/
def Acceptable (allowRepeat : Bool) (a b : Candidate) : Prop :=
  compatible a b allowRepeat = true ∧ (gap a b).any (fun g => maxBandGap < g) = false

theorem compatible_iff {a b : Candidate} {allowRepeat : Bool} :
    compatible a b allowRepeat = true ↔
      (b.userXid ∉ a.blocked ∧ a.userXid ∉ b.blocked) ∧ a.language = b.language ∧
      (a.orgOnly = true ∨ b.orgOnly = true → ∃ o, a.orgXid = some o ∧ b.orgXid = some o) ∧
      (allowRepeat = false → b.userXid ∉ a.recentPartners ∧ a.userXid ∉ b.recentPartners) := by
  have horg : ((a.orgXid.isNone || b.orgXid.isNone || a.orgXid != b.orgXid) = false) ↔
      ∃ o, a.orgXid = some o ∧ b.orgXid = some o := by
    cases a.orgXid with
    | none => simp
    | some x =>
      cases b.orgXid with
      | none => simp
      | some y =>
        have hsame : (∃ o, some x = some o ∧ some y = some o) ↔ x = y := by
          constructor
          · rintro ⟨o, hx, hy⟩
            exact Option.some.inj (hx.trans hy.symm)
          · intro h
            exact ⟨y, by rw [h], rfl⟩
        rw [hsame]
        simp
  unfold compatible
  rw [← horg]
  generalize (a.orgXid.isNone || b.orgXid.isNone || a.orgXid != b.orgXid) = elsewhere
  clear horg
  by_cases hblock : b.userXid ∈ a.blocked ∨ a.userXid ∈ b.blocked
  · rw [if_pos hblock]
    simp only [Bool.false_eq_true, false_iff]
    tauto
  · rw [if_neg hblock]
    have hunblocked := not_or.1 hblock
    by_cases hlang : a.language = b.language
    · simp only [hlang, hunblocked]
      cases a.orgOnly <;> cases b.orgOnly <;> cases elsewhere <;> cases allowRepeat <;> simp
    · simp [hlang]

theorem gap_within_iff {a b : Candidate} :
    (gap a b).any (fun g => maxBandGap < g) = false ↔
      ∀ x y, a.band = some x → b.band = some y → |x - y| ≤ 2 := by
  unfold gap maxBandGap
  cases a.band with
  | none => simp
  | some x =>
    cases b.band with
    | none => simp
    | some y => simp

theorem acceptable_iff {a b : Candidate} {allowRepeat : Bool} (h : a.cohortKey = b.cohortKey) :
    Acceptable allowRepeat a b ↔ Legal allowRepeat a b := by
  have hage : a.isMinor = b.isMinor := congrArg Prod.fst h
  unfold Acceptable
  rw [compatible_iff, gap_within_iff]
  constructor
  · rintro ⟨⟨hblock, hlang, horg, hfresh⟩, hband⟩
    exact ⟨hage, hlang, hblock, horg, hband, hfresh⟩
  · intro h
    exact ⟨⟨h.unblocked, h.language, h.org, h.fresh⟩, h.band⟩

theorem Acceptable.of_fresh {a b : Candidate} {allowRepeat : Bool} (h : Acceptable false a b) :
    Acceptable allowRepeat a b := by
  obtain ⟨hcompat, hgap⟩ := h
  rw [compatible_iff] at hcompat
  refine ⟨compatible_iff.2 ?_, hgap⟩
  exact ⟨hcompat.1, hcompat.2.1, hcompat.2.2.1, fun _ => hcompat.2.2.2 rfl⟩

/-! ## The best partner -/

variable {candidate : Candidate} {pool : List Candidate} {taken : List String}
  {allowRepeat allowRepeats : Bool}

/-- The members of a pool `_best_partner` chooses among. -/
structure Eligible (candidate : Candidate) (taken : List String) (allowRepeat : Bool)
    (p : Candidate) : Prop where
  other : p.userXid ≠ candidate.userXid
  free : p.userXid ∉ taken
  acceptable : Acceptable allowRepeat candidate p

theorem considerPartner_of_not {best : Option (Candidate × Option ℚ)} {other : Candidate}
    (h : ¬ Eligible candidate taken allowRepeat other) :
    considerPartner candidate taken allowRepeat best other = best := by
  unfold considerPartner
  split
  · rfl
  · next hfree =>
    split
    · rfl
    · next hcompat =>
      split
      · rfl
      · next hgap =>
        rw [not_or] at hfree
        refine absurd ⟨hfree.1, hfree.2, ?_, ?_⟩ h
        · simpa using hcompat
        · simpa using hgap

theorem considerPartner_of_eligible {best : Option (Candidate × Option ℚ)} {other : Candidate}
    (h : Eligible candidate taken allowRepeat other) :
    considerPartner candidate taken allowRepeat best other = some (other, gap candidate other) ∨
      ∃ b, best = some b ∧ considerPartner candidate taken allowRepeat best other = some b := by
  have hfree : ¬ (other.userXid = candidate.userXid ∨ other.userXid ∈ taken) :=
    not_or.2 ⟨h.other, h.free⟩
  have hcompat := h.acceptable.1
  have hgap := h.acceptable.2
  unfold considerPartner
  rw [if_neg hfree, if_neg (by simp [hcompat]), if_neg (by simp [hgap])]
  cases best with
  | none => exact .inl rfl
  | some b =>
    by_cases hcloser : closer (gap candidate other) b.2 = true
    · exact .inl (if_pos hcloser)
    · exact .inr ⟨b, rfl, if_neg hcloser⟩

theorem foldl_considerPartner (candidate : Candidate) (pool : List Candidate) (taken : List String)
    (allowRepeat : Bool) (best : Option (Candidate × Option ℚ)) :
    match pool.foldl (considerPartner candidate taken allowRepeat) best with
    | some b => best = some b ∨ b.1 ∈ pool ∧ Eligible candidate taken allowRepeat b.1
    | none => best = none ∧ ∀ p ∈ pool, ¬ Eligible candidate taken allowRepeat p := by
  induction pool generalizing best with
  | nil => cases best <;> simp
  | cons p pool ih =>
    rw [List.foldl_cons]
    have hrest := ih (considerPartner candidate taken allowRepeat best p)
    generalize hres : pool.foldl (considerPartner candidate taken allowRepeat)
      (considerPartner candidate taken allowRepeat best p) = res at hrest ⊢
    by_cases h : Eligible candidate taken allowRepeat p
    · have hstep : considerPartner candidate taken allowRepeat best p =
          some (p, gap candidate p) ∨
          ∃ b, best = some b ∧ considerPartner candidate taken allowRepeat best p = some b :=
        considerPartner_of_eligible h
      cases res with
      | none =>
        have hnone := hrest.1
        rcases hstep with hp | ⟨b, _, hb⟩
        · rw [hp] at hnone
          cases hnone
        · rw [hb] at hnone
          cases hnone
      | some r =>
        rcases hrest with hr | ⟨hmem, hr⟩
        · rcases hstep with hp | ⟨b, hbest, hb⟩
          · rw [hp] at hr
            right
            rw [← Option.some.inj hr]
            exact ⟨List.mem_cons_self, h⟩
          · left
            rw [hbest, ← hb, hr]
        · exact .inr ⟨List.mem_cons_of_mem _ hmem, hr⟩
    · rw [considerPartner_of_not h] at hrest
      cases res with
      | none =>
        refine ⟨hrest.1, ?_⟩
        intro q hq
        rcases List.mem_cons.1 hq with rfl | hq
        · exact h
        · exact hrest.2 q hq
      | some r =>
        rcases hrest with hr | ⟨hmem, hr⟩
        · exact .inl hr
        · exact .inr ⟨List.mem_cons_of_mem _ hmem, hr⟩

theorem bestPartner_eq_some {p : Candidate}
    (h : bestPartner candidate pool taken allowRepeat = some p) :
    p ∈ pool ∧ Eligible candidate taken allowRepeat p := by
  have hloop := foldl_considerPartner candidate pool taken allowRepeat none
  unfold bestPartner at h
  obtain ⟨b, hb, rfl⟩ := Option.map_eq_some_iff.1 h
  rw [hb] at hloop
  rcases hloop with hnone | hp
  · cases hnone
  · exact hp

theorem bestPartner_eq_none (h : bestPartner candidate pool taken allowRepeat = none) :
    ∀ p ∈ pool, ¬ Eligible candidate taken allowRepeat p := by
  have hloop := foldl_considerPartner candidate pool taken allowRepeat none
  unfold bestPartner at h
  rw [Option.map_eq_none_iff.1 h] at hloop
  exact hloop.2

theorem partnerOf_eq_some {p : Candidate × Bool}
    (h : partnerOf candidate pool taken allowRepeats = some p) :
    p.1 ∈ pool ∧ Eligible candidate taken allowRepeats p.1 := by
  unfold partnerOf at h
  split at h
  · next partner hpartner =>
    cases h
    obtain ⟨hmem, hp⟩ := bestPartner_eq_some hpartner
    exact ⟨hmem, hp.other, hp.free, hp.acceptable.of_fresh⟩
  · split at h
    · next hallow =>
      rw [hallow]
      obtain ⟨partner, hpartner, rfl⟩ := Option.map_eq_some_iff.1 h
      exact bestPartner_eq_some hpartner
    · cases h

theorem partnerOf_eq_none (h : partnerOf candidate pool taken allowRepeats = none) :
    ∀ p ∈ pool, ¬ Eligible candidate taken allowRepeats p := by
  unfold partnerOf at h
  split at h
  · cases h
  · next hfresh =>
    split at h
    · next hallow =>
      rw [hallow]
      exact bestPartner_eq_none (Option.map_eq_none_iff.1 h)
    · next hallow =>
      rw [Bool.not_eq_true] at hallow
      rw [hallow]
      exact bestPartner_eq_none hfresh

/-! ## The loop is a greedy pairing -/

def Pair.sides (p : Pair) : Candidate × Candidate := (p.a, p.b)

/-- The loop's `taken` are the members of its pairs. -/
structure Tracks (s : Loop) (made : List (Candidate × Candidate)) : Prop where
  pairs : s.pairs.map Pair.sides = made
  taken : s.taken = (members made).map Candidate.userXid

theorem eq_of_userXid (hdistinct : (pool.map Candidate.userXid).Nodup) {a b : Candidate}
    (ha : a ∈ pool) (hb : b ∈ pool) (h : a.userXid = b.userXid) : a = b :=
  List.inj_on_of_nodup_map hdistinct ha hb h

theorem Tracks.mem_taken {s : Loop} {pairs : List (Candidate × Candidate)} (h : Tracks s pairs)
    (hdistinct : (pool.map Candidate.userXid).Nodup) (hwithin : ∀ c ∈ members pairs, c ∈ pool)
    {c : Candidate} (hc : c ∈ pool) : c.userXid ∈ s.taken ↔ c ∈ members pairs := by
  rw [h.taken, List.mem_map]
  constructor
  · rintro ⟨d, hd, hxid⟩
    rw [← eq_of_userXid hdistinct (hwithin d hd) hc hxid]
    exact hd
  · intro hmem
    exact ⟨c, hmem, rfl⟩

theorem pairTurn_turn {s : Loop} {pairs : List (Candidate × Candidate)} {c : Candidate}
    (hdistinct : (pool.map Candidate.userXid).Nodup) (h : Tracks s pairs)
    (hs : Sound (Acceptable allowRepeats) pool pairs) (hc : c ∈ pool) :
    ∃ pairs', Turn (Acceptable allowRepeats) pool c pairs pairs' ∧
      Tracks (pairTurn pool allowRepeats s c) pairs' := by
  have hmem : ∀ d ∈ pool, (d.userXid ∈ s.taken ↔ d ∈ members pairs) :=
    fun d hd => h.mem_taken hdistinct hs.within hd
  unfold pairTurn
  by_cases htaken : c.userXid ∈ s.taken
  · rw [if_pos htaken]
    exact ⟨pairs, .taken ((hmem c hc).1 htaken), h⟩
  · rw [if_neg htaken]
    have hfree : c ∉ members pairs := fun hm => htaken ((hmem c hc).2 hm)
    cases hpartner : partnerOf c pool s.taken allowRepeats with
    | none =>
      refine ⟨pairs, .alone hfree ?_, h⟩
      intro p hp
      refine partnerOf_eq_none hpartner p hp.mem ⟨?_, ?_, hp.allowed⟩
      · intro hxid
        exact hp.other (eq_of_userXid hdistinct hp.mem hc hxid)
      · intro hm
        exact hp.free ((hmem p hp.mem).1 hm)
    | some r =>
      obtain ⟨p, again⟩ := r
      obtain ⟨hp, heligible⟩ := partnerOf_eq_some hpartner
      refine ⟨pairs ++ [(c, p)], .joined p hfree ⟨hp, ?_, ?_, heligible.acceptable⟩, ?_, ?_⟩
      · intro hpc
        exact heligible.other (congrArg Candidate.userXid hpc)
      · intro hm
        exact heligible.free ((hmem p hp).2 hm)
      · rw [← h.pairs]
        exact List.map_append
      · rw [members_append, List.map_append, ← h.taken]
        rfl

theorem foldl_pairTurn {cs : List Candidate} {s : Loop} {pairs : List (Candidate × Candidate)}
    (hdistinct : (pool.map Candidate.userXid).Nodup) (h : Tracks s pairs)
    (hs : Sound (Acceptable allowRepeats) pool pairs) (hcs : ∀ c ∈ cs, c ∈ pool) :
    ∃ pairs', Run (Acceptable allowRepeats) pool cs pairs pairs' ∧
      Tracks (cs.foldl (pairTurn pool allowRepeats) s) pairs' := by
  induction cs generalizing s pairs with
  | nil => exact ⟨pairs, .nil, h⟩
  | cons c cs ih =>
    have hc := hcs c List.mem_cons_self
    obtain ⟨next, hturn, hnext⟩ := pairTurn_turn hdistinct h hs hc
    obtain ⟨last, hrun, hlast⟩ := ih hnext (hturn.sound hc hs)
      (fun d hd => hcs d (List.mem_cons_of_mem _ hd))
    exact ⟨last, .cons hturn hrun, hlast⟩

/-! ## Sorting -/

theorem perm_sortedByOrder (pool : List Candidate) : (sortedByOrder pool).Perm pool :=
  List.perm_insertionSort _ _

theorem pairwise_sortedByOrder (pool : List Candidate) :
    (sortedByOrder pool).Pairwise (fun a b => order a ≤ order b) := by
  have htotal : Std.Total (fun a b : Candidate => order a ≤ order b) :=
    ⟨fun a b => le_total (order a) (order b)⟩
  have htrans : IsTrans Candidate (fun a b => order a ≤ order b) := ⟨fun _ _ _ => le_trans⟩
  exact List.pairwise_insertionSort _ _

theorem userXid_of_order {a b : Candidate} (h : order a = order b) : a.userXid = b.userXid := by
  have hinner := congrArg (fun k => (ofLex (ofLex k).2).2) h
  exact hinner

theorem sortedByOrder_perm {pool' : List Candidate} (hdistinct : (pool.map Candidate.userXid).Nodup)
    (h : pool.Perm pool') : sortedByOrder pool = sortedByOrder pool' := by
  have hperm : (sortedByOrder pool).Perm (sortedByOrder pool') :=
    (perm_sortedByOrder pool).trans (h.trans (perm_sortedByOrder pool').symm)
  refine hperm.eq_of_pairwise ?_ (pairwise_sortedByOrder _) (pairwise_sortedByOrder _)
  intro a b ha hb hab hba
  have ha := (perm_sortedByOrder pool).mem_iff.1 ha
  have hb := h.mem_iff.2 ((perm_sortedByOrder pool').mem_iff.1 hb)
  exact eq_of_userXid hdistinct ha hb (userXid_of_order (le_antisymm hab hba))

/-! ## One partition -/

theorem pairWithin_run (allowRepeats : Bool) (hdistinct : (pool.map Candidate.userXid).Nodup) :
    ∃ made, Run (Acceptable allowRepeats) (sortedByOrder pool) (sortedByOrder pool) [] made ∧
      (pairWithin pool allowRepeats).1.map Pair.sides = made ∧
      (pairWithin pool allowRepeats).2 = (sortedByOrder pool).filter (fun c => c ∉ members made) := by
  have hsorted : ((sortedByOrder pool).map Candidate.userXid).Nodup :=
    (((perm_sortedByOrder pool).map Candidate.userXid).nodup_iff).2 hdistinct
  have hloop : ∃ made,
      Run (Acceptable allowRepeats) (sortedByOrder pool) (sortedByOrder pool) [] made ∧
      Tracks ((sortedByOrder pool).foldl (pairTurn (sortedByOrder pool) allowRepeats) {}) made :=
    foldl_pairTurn hsorted ⟨rfl, rfl⟩ sound_nil (fun _ hc => hc)
  obtain ⟨made, hrun, htracks⟩ := hloop
  refine ⟨made, hrun, htracks.pairs, ?_⟩
  have hsound := hrun.sound (fun _ hc => hc) sound_nil
  refine List.filter_congr ?_
  intro c hc
  have hmem := htracks.mem_taken hsorted hsound.within hc
  exact decide_eq_decide.2 (not_congr hmem)

theorem pairWithin_perm {pool' : List Candidate} (hdistinct : (pool.map Candidate.userXid).Nodup)
    (h : pool.Perm pool') : pairWithin pool allowRepeats = pairWithin pool' allowRepeats := by
  unfold pairWithin
  rw [sortedByOrder_perm hdistinct h]

/-! ## The partitions -/

def cohort (candidates : List Candidate) (key : Bool × String) : List Candidate :=
  candidates.filter (fun c => c.cohortKey = key)

theorem get?_foldl_joinCohort (candidates : List Candidate)
    (d : Dict (Bool × String) (List Candidate)) (key : Bool × String) :
    ((candidates.foldl joinCohort d).get? key).getD [] =
      (d.get? key).getD [] ++ cohort candidates key := by
  induction candidates generalizing d with
  | nil => simp [cohort]
  | cons c cs ih =>
    rw [List.foldl_cons, ih, joinCohort, Dict.get?_put]
    by_cases hkey : c.cohortKey = key
    · simp [cohort, hkey]
    · simp [cohort, hkey]

theorem get?_partitions (candidates : List Candidate) (key : Bool × String) :
    ((partitions candidates).get? key).getD [] = cohort candidates key :=
  get?_foldl_joinCohort candidates Dict.empty key

theorem mem_keys_foldl_joinCohort (candidates : List Candidate)
    (d : Dict (Bool × String) (List Candidate)) (key : Bool × String) :
    key ∈ (candidates.foldl joinCohort d).keys ↔
      key ∈ d.keys ∨ ∃ c ∈ candidates, c.cohortKey = key := by
  induction candidates generalizing d with
  | nil => simp
  | cons c cs ih =>
    have hput : key ∈ (joinCohort d c).keys ↔ key ∈ d.keys ∨ c.cohortKey = key := by
      rw [Dict.mem_keys, Dict.mem_keys, joinCohort]
      by_cases hkey : c.cohortKey = key
      · simp [hkey]
      · simp [Dict.get?_put, hkey]
    rw [List.foldl_cons, ih, hput]
    simp only [List.mem_cons, exists_eq_or_imp]
    tauto

theorem mem_keys_partitions {candidates : List Candidate} {key : Bool × String} :
    key ∈ (partitions candidates).keys ↔ ∃ c ∈ candidates, c.cohortKey = key := by
  unfold partitions
  rw [mem_keys_foldl_joinCohort]
  have hempty : key ∉ (Dict.empty : Dict (Bool × String) (List Candidate)).keys := List.not_mem_nil
  simp [hempty]

theorem perm_sortedKeys (d : Dict (Bool × String) (List Candidate)) : (sortedKeys d).Perm d.keys :=
  List.perm_insertionSort _ _

theorem nodup_sortedKeys (d : Dict (Bool × String) (List Candidate)) : (sortedKeys d).Nodup :=
  (perm_sortedKeys d).nodup_iff.2 d.keys_nodup

theorem mem_sortedKeys {candidates : List Candidate} {key : Bool × String} :
    key ∈ sortedKeys (partitions candidates) ↔ ∃ c ∈ candidates, c.cohortKey = key := by
  rw [(perm_sortedKeys _).mem_iff, mem_keys_partitions]

theorem sortedKeys_perm {candidates other : List Candidate} (h : candidates.Perm other) :
    sortedKeys (partitions candidates) = sortedKeys (partitions other) := by
  have htotal : Std.Total (fun k l : Bool × String => toLex k ≤ toLex l) :=
    ⟨fun k l => le_total (toLex k) (toLex l)⟩
  have htrans : IsTrans (Bool × String) (fun k l => toLex k ≤ toLex l) := ⟨fun _ _ _ => le_trans⟩
  have hperm : (sortedKeys (partitions candidates)).Perm (sortedKeys (partitions other)) := by
    refine (List.perm_ext_iff_of_nodup (nodup_sortedKeys _) (nodup_sortedKeys _)).2 ?_
    intro key
    rw [mem_sortedKeys, mem_sortedKeys]
    simp only [h.mem_iff]
  refine hperm.eq_of_pairwise ?_ (List.pairwise_insertionSort _ _) (List.pairwise_insertionSort _ _)
  intro k l _ _ hkl hlk
  exact toLex.injective (le_antisymm hkl hlk)

theorem flatMap_cohort {keys : List (Bool × String)} (hkeys : keys.Nodup)
    (candidates : List Candidate) :
    (keys.flatMap (cohort candidates)).Perm (candidates.filter (fun c => c.cohortKey ∈ keys)) := by
  induction keys with
  | nil => simp
  | cons k ks ih =>
    rw [List.nodup_cons] at hkeys
    have hrest := ih hkeys.2
    rw [List.flatMap_cons]
    refine (hrest.append_left _).trans ?_
    have hsplit := List.filter_append_perm (fun c : Candidate => c.cohortKey = k)
      (candidates.filter (fun c => c.cohortKey ∈ k :: ks))
    refine List.Perm.trans ?_ hsplit
    rw [List.filter_filter, List.filter_filter]
    refine List.Perm.append (List.Perm.of_eq ?_) (List.Perm.of_eq ?_)
    · refine List.filter_congr ?_
      intro c _
      by_cases hc : c.cohortKey = k <;> simp [hc]
    · refine List.filter_congr ?_
      intro c _
      by_cases hc : c.cohortKey = k
      · simp [hc, hkeys.1]
      · simp [hc]

theorem perm_cohorts (candidates : List Candidate) :
    ((sortedKeys (partitions candidates)).flatMap (cohort candidates)).Perm candidates := by
  have h := flatMap_cohort (nodup_sortedKeys (partitions candidates)) candidates
  have hall : candidates.filter (fun c => c.cohortKey ∈ sortedKeys (partitions candidates)) =
      candidates := by
    refine List.filter_eq_self.2 ?_
    intro c hc
    exact decide_eq_true (mem_sortedKeys.2 ⟨c, hc, rfl⟩)
  rw [hall] at h
  exact h

/-! ## The outcome -/

def Pair.members (p : Pair) : List Candidate := [p.a, p.b]

def matchedIn (candidates : List Candidate) (allowRepeats : Bool) (key : Bool × String) :
    List Pair :=
  (pairWithin (cohort candidates key) allowRepeats).1

def leftIn (candidates : List Candidate) (allowRepeats : Bool) (key : Bool × String) :
    List Candidate :=
  (pairWithin (cohort candidates key) allowRepeats).2

variable {candidates : List Candidate}

theorem cohort_distinct (hdistinct : (candidates.map Candidate.userXid).Nodup)
    (key : Bool × String) : ((cohort candidates key).map Candidate.userXid).Nodup :=
  hdistinct.sublist (List.filter_sublist.map _)

theorem mem_cohort {key : Bool × String} {c : Candidate} :
    c ∈ cohort candidates key ↔ c ∈ candidates ∧ c.cohortKey = key := by
  simp [cohort]

theorem members_sides (pairs : List Pair) :
    members (pairs.map Pair.sides) = pairs.flatMap Pair.members :=
  List.flatMap_map Pair.sides _ pairs

theorem pairWithin_partition (allowRepeats : Bool)
    (hdistinct : (pool.map Candidate.userXid).Nodup) :
    ((pairWithin pool allowRepeats).1.flatMap Pair.members ++
      (pairWithin pool allowRepeats).2).Perm pool := by
  obtain ⟨made, hrun, hpairs, hleft⟩ := pairWithin_run allowRepeats hdistinct
  have hsound := hrun.sound (fun _ hc => hc) sound_nil
  have hnodup : (sortedByOrder pool).Nodup :=
    (perm_sortedByOrder pool).nodup_iff.2 hdistinct.of_map
  rw [← members_sides, hpairs, hleft]
  exact (hsound.partition hnodup).trans (perm_sortedByOrder pool)

theorem legal_of_matchedIn (hdistinct : (candidates.map Candidate.userXid).Nodup)
    {key : Bool × String} {p : Pair} (hp : p ∈ matchedIn candidates allowRepeats key) :
    Legal allowRepeats p.a p.b := by
  obtain ⟨made, hrun, hpairs, _⟩ := pairWithin_run allowRepeats
    (cohort_distinct hdistinct key)
  have hsound := hrun.sound (fun _ hc => hc) sound_nil
  have hmade : p.sides ∈ made := by
    rw [← hpairs]
    exact List.mem_map_of_mem hp
  have hkey : ∀ c ∈ members made, c.cohortKey = key := fun c hc =>
    (mem_cohort.1 ((perm_sortedByOrder _).mem_iff.1 (hsound.within c hc))).2
  have ha := hkey p.a (mem_members.2 ⟨p.sides, hmade, .inl rfl⟩)
  have hb := hkey p.b (mem_members.2 ⟨p.sides, hmade, .inr rfl⟩)
  exact (acceptable_iff (ha.trans hb.symm)).1 (hsound.allowed p.sides hmade)

theorem cohortKey_of_leftIn (hdistinct : (candidates.map Candidate.userXid).Nodup)
    {key : Bool × String} {c : Candidate} (hc : c ∈ leftIn candidates allowRepeats key) :
    c.cohortKey = key := by
  have hperm := pairWithin_partition allowRepeats (cohort_distinct hdistinct key)
  exact (mem_cohort.1 (hperm.mem_iff.1 (List.mem_append_right _ hc))).2

theorem not_legal_of_leftIn (hdistinct : (candidates.map Candidate.userXid).Nodup)
    {key : Bool × String} {a b : Candidate} (ha : a ∈ leftIn candidates allowRepeats key)
    (hb : b ∈ leftIn candidates allowRepeats key) (hab : a ≠ b) : ¬ Legal allowRepeats a b := by
  obtain ⟨made, hrun, _, hleft⟩ := pairWithin_run allowRepeats
    (cohort_distinct hdistinct key)
  have hmem : ∀ c ∈ leftIn candidates allowRepeats key,
      c ∈ sortedByOrder (cohort candidates key) ∧ c ∉ members made := by
    intro c hc
    unfold leftIn at hc
    rw [hleft] at hc
    simpa using List.mem_filter.1 hc
  have hkey : ∀ c ∈ sortedByOrder (cohort candidates key), c.cohortKey = key := fun c hc =>
    (mem_cohort.1 ((perm_sortedByOrder _).mem_iff.1 hc)).2
  obtain ⟨hapool, haleft⟩ := hmem a ha
  obtain ⟨hbpool, hbleft⟩ := hmem b hb
  intro hlegal
  have hacceptable := (acceptable_iff ((hkey a hapool).trans (hkey b hbpool).symm)).2 hlegal
  exact hrun.maximal hapool haleft b ⟨hbpool, hab.symm, hbleft, hacceptable⟩

/-- Somebody in the pool whom the rules let `c` be paired with. -/
def HasPartner (candidates : List Candidate) (allowRepeats : Bool) (c : Candidate) : Prop :=
  ∃ p ∈ candidates, p ≠ c ∧ Legal allowRepeats c p

theorem Legal.cohortKey {a b : Candidate} (h : Legal allowRepeats a b) :
    a.cohortKey = b.cohortKey := Prod.ext h.age h.language

theorem first_matchedIn (hdistinct : (candidates.map Candidate.userXid).Nodup) {c : Candidate}
    (hc : c ∈ candidates) (hpartner : HasPartner candidates allowRepeats c)
    (hfirst : ∀ d ∈ candidates, order d < order c → ¬ HasPartner candidates allowRepeats d) :
    ∃ p ∈ matchedIn candidates allowRepeats c.cohortKey, c = p.a ∨ c = p.b := by
  have hcohort := cohort_distinct hdistinct c.cohortKey
  obtain ⟨made, hrun, hpairs, _⟩ := pairWithin_run allowRepeats hcohort
  have hpool : ∀ d, d ∈ sortedByOrder (cohort candidates c.cohortKey) ↔
      d ∈ candidates ∧ d.cohortKey = c.cohortKey := fun d =>
    (perm_sortedByOrder _).mem_iff.trans mem_cohort
  have hsplit := List.append_of_mem ((hpool c).2 ⟨hc, rfl⟩)
  obtain ⟨before, after, hsplit⟩ := hsplit
  have hsorted := pairwise_sortedByOrder (cohort candidates c.cohortKey)
  have hnodup : (sortedByOrder (cohort candidates c.cohortKey)).Nodup :=
    (perm_sortedByOrder _).nodup_iff.2 hcohort.of_map
  have hmade : c ∈ members made := by
    rw [hsplit] at hsorted hnodup
    have hrun : Run (Acceptable allowRepeats) (sortedByOrder (cohort candidates c.cohortKey))
        (before ++ c :: after) [] made := hsplit ▸ hrun
    refine hrun.first ?_ ?_
    · intro d hd p hp hother hacceptable
      have hdmem := (hpool d).1 (by rw [hsplit]; exact List.mem_append_left _ hd)
      have hpmem := (hpool p).1 hp
      have hle : order d ≤ order c :=
        (List.pairwise_append.1 hsorted).2.2 d hd c List.mem_cons_self
      have hne : d ≠ c := (List.nodup_append.1 hnodup).2.2 d hd c List.mem_cons_self
      have hlt : order d < order c := by
        refine lt_of_le_of_ne hle ?_
        intro heq
        exact hne (eq_of_userXid hdistinct hdmem.1 hc (userXid_of_order heq))
      refine hfirst d hdmem.1 hlt ⟨p, hpmem.1, hother, ?_⟩
      exact (acceptable_iff (hdmem.2.trans hpmem.2.symm)).1 hacceptable
    · obtain ⟨p, hp, hother, hlegal⟩ := hpartner
      have hkey := hlegal.cohortKey
      exact ⟨p, (hpool p).2 ⟨hp, hkey.symm⟩, hother, (acceptable_iff hkey).2 hlegal⟩
  rw [← hpairs] at hmade
  obtain ⟨q, hq, hside⟩ := mem_members.1 hmade
  obtain ⟨p, hp, rfl⟩ := List.mem_map.1 hq
  exact ⟨p, hp, hside⟩

/-- What an outcome owes the pool it was made of. -/
structure WellMatched (candidates : List Candidate) (allowRepeats : Bool) (o : Outcome) : Prop where
  places : (o.pairs.flatMap Pair.members ++ o.unmatched).Perm candidates
  safe : ∀ p ∈ o.pairs, Legal allowRepeats p.a p.b
  maximal : ∀ a ∈ o.unmatched, ∀ b ∈ o.unmatched, a ≠ b → ¬ Legal allowRepeats a b
  first : ∀ c ∈ candidates, HasPartner candidates allowRepeats c →
    (∀ d ∈ candidates, order d < order c → ¬ HasPartner candidates allowRepeats d) →
    ∃ p ∈ o.pairs, c = p.a ∨ c = p.b

def outcomeOf (candidates : List Candidate) (allowRepeats : Bool) : Outcome where
  pairs := (sortedKeys (partitions candidates)).flatMap (matchedIn candidates allowRepeats)
  unmatched := sortedByOrder
    ((sortedKeys (partitions candidates)).flatMap (leftIn candidates allowRepeats))

theorem forM_checkPair {pairs : List Pair} (h : ∀ p ∈ pairs, p.a.isMinor = p.b.isMinor) :
    pairs.forM checkPair = .ok () := by
  induction pairs with
  | nil => rfl
  | cons p ps ih =>
    have hp : checkPair p = .ok () := by
      unfold checkPair
      rw [if_neg (not_not.2 (h p List.mem_cons_self))]
    have hps := ih (fun q hq => h q (List.mem_cons_of_mem _ hq))
    change (checkPair p >>= fun _ => ps.forM checkPair) = .ok ()
    rw [hp]
    exact hps

theorem legal_of_outcome (allowRepeats : Bool)
    (hdistinct : (candidates.map Candidate.userXid).Nodup) :
    ∀ p ∈ (outcomeOf candidates allowRepeats).pairs, Legal allowRepeats p.a p.b := by
  intro p hp
  obtain ⟨key, _, hmatched⟩ := List.mem_flatMap.1 hp
  exact legal_of_matchedIn hdistinct hmatched

theorem matchCandidates_eq (hdistinct : (candidates.map Candidate.userXid).Nodup) :
    matchCandidates candidates allowRepeats = .ok (outcomeOf candidates allowRepeats) := by
  have hpairs : ((sortedKeys (partitions candidates)).map (fun key => pairWithin
      (((partitions candidates).get? key).getD []) allowRepeats)).flatMap Prod.fst =
      (outcomeOf candidates allowRepeats).pairs := by
    rw [List.flatMap_map]
    simp only [get?_partitions]
    rfl
  have hleft : sortedByOrder (((sortedKeys (partitions candidates)).map (fun key => pairWithin
      (((partitions candidates).get? key).getD []) allowRepeats)).flatMap Prod.snd) =
      (outcomeOf candidates allowRepeats).unmatched := by
    rw [List.flatMap_map]
    simp only [get?_partitions]
    rfl
  have hcheck := forM_checkPair
    (fun p hp => (legal_of_outcome allowRepeats hdistinct p hp).age)
  unfold matchCandidates
  simp only [hpairs, hleft, hcheck]
  rfl

theorem outcomeOf_perm {other : List Candidate}
    (hdistinct : (candidates.map Candidate.userXid).Nodup) (h : other.Perm candidates) :
    outcomeOf other allowRepeats = outcomeOf candidates allowRepeats := by
  have hcohort : ∀ key, pairWithin (cohort candidates key) allowRepeats =
      pairWithin (cohort other key) allowRepeats := fun key =>
    pairWithin_perm (cohort_distinct hdistinct key) (h.symm.filter _)
  unfold outcomeOf matchedIn leftIn
  rw [sortedKeys_perm h]
  simp only [hcohort]

theorem wellMatched_outcomeOf (hdistinct : (candidates.map Candidate.userXid).Nodup) :
    WellMatched candidates allowRepeats (outcomeOf candidates allowRepeats) := by
  constructor
  · have hparts := (List.flatMap_append_perm (sortedKeys (partitions candidates))
      (fun key => (matchedIn candidates allowRepeats key).flatMap Pair.members)
      (leftIn candidates allowRepeats))
    have hcohorts := List.Perm.flatMap_left (sortedKeys (partitions candidates))
      (fun key _ => pairWithin_partition allowRepeats
        (cohort_distinct hdistinct key))
    unfold outcomeOf
    rw [List.flatMap_assoc]
    refine ((perm_sortedByOrder _).append_left _).trans ?_
    exact hparts.trans (hcohorts.trans (perm_cohorts candidates))
  · exact legal_of_outcome allowRepeats hdistinct
  · intro a ha b hb hab hlegal
    obtain ⟨k, _, hak⟩ := List.mem_flatMap.1 ((perm_sortedByOrder _).mem_iff.1 ha)
    obtain ⟨l, _, hbl⟩ := List.mem_flatMap.1 ((perm_sortedByOrder _).mem_iff.1 hb)
    have hkey : k = l := by
      rw [← cohortKey_of_leftIn hdistinct hak, ← cohortKey_of_leftIn hdistinct hbl]
      exact hlegal.cohortKey
    rw [← hkey] at hbl
    exact not_legal_of_leftIn hdistinct hak hbl hab hlegal
  · intro c hc hpartner hfirst
    obtain ⟨p, hp, hside⟩ := first_matchedIn hdistinct hc hpartner hfirst
    have hkey := mem_sortedKeys.2 ⟨c, hc, rfl⟩
    exact ⟨p, List.mem_flatMap.2 ⟨_, hkey, hp⟩, hside⟩

/-- Whatever the pool, its pairs are safe and as many as the rules allow, and the order in which
it was listed does not matter. -/
theorem match_safe_and_maximal (candidates : List Candidate) (allowRepeats : Bool)
    (hdistinct : (candidates.map Candidate.userXid).Nodup) :
    ∃ o, matchCandidates candidates allowRepeats = .ok o ∧
      WellMatched candidates allowRepeats o ∧
      ∀ other : List Candidate, other.Perm candidates →
        matchCandidates other allowRepeats = .ok o := by
  refine ⟨_, matchCandidates_eq hdistinct, wellMatched_outcomeOf hdistinct, ?_⟩
  intro other hperm
  have hother : (other.map Candidate.userXid).Nodup := ((hperm.map _).nodup_iff).2 hdistinct
  rw [matchCandidates_eq hother, outcomeOf_perm hdistinct hperm]

def samplePool : List Candidate := [
  { userXid := "u1", isMinor := false, band := some 6, waitingSince := some 0 },
  { userXid := "u2", isMinor := true, band := some 6, waitingSince := some 1 },
  { userXid := "u3", isMinor := false, band := some 8, waitingSince := some 2 }]

theorem match_safe_on_sample :
    ∃ o, matchCandidates samplePool true = .ok o ∧ WellMatched samplePool true o ∧
      ∀ other : List Candidate, other.Perm samplePool → matchCandidates other true = .ok o :=
  match_safe_and_maximal samplePool true (by decide)

end IeltsHub.SpeakingMatching
