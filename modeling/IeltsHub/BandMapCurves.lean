import IeltsHub.ContentBandMaps

set_option autoImplicit false

/-!
# Band maps that pass their validation

A mapping without findings is a table of intervals that covers every mark once and goes up, as its
bands are read by `float`. The scorer reads them by `Decimal`, and the curve it has is as good
exactly when that can be done and does not turn equal floats round.
-/
namespace IeltsHub.BandMapCurves
open PyExc PyText PyTime PyValue PlatformErrors PlatformFindings IntervalTables ContentModels
  ContentComposition ExamModels ExamScoring ExamScoringInputs ContentBandMaps

/-! ## The nearest double -/

theorem close_of_nearestDouble {q x : ℚ} (h : nearestDouble q = some x) (hx : |x| ≤ 9) :
    |x - q| < 1 / 4 := by
  unfold nearestDouble at h
  split at h
  · next hzero =>
    cases h
    subst hzero
    norm_num
  · next hne =>
    dsimp only at h
    split at h
    · cases h
      generalize hu : (2 : ℚ) ^ max (Int.log 2 |q| - 52) (-1074) = u at hx ⊢
      have hpos : 0 < u := by
        rw [← hu]
        positivity
      have herror : |roundEven (q / u) * u - q| ≤ u / 2 := by
        have hq : roundEven (q / u) * u - q = ((roundEven (q / u) : ℚ) - q / u) * u := by
          rw [sub_mul, div_mul_cancel₀ _ hpos.ne']
        rw [hq, abs_mul, abs_of_pos hpos]
        have hround := abs_roundEven_sub_le (q / u)
        calc |(roundEven (q / u) : ℚ) - q / u| * u ≤ 1 / 2 * u := by gcongr
          _ = u / 2 := by ring
      have habs : 0 < |q| := abs_pos.2 hne
      have hlog : (2 : ℚ) ^ Int.log 2 |q| ≤ |q| := Int.zpow_log_le_self (by norm_num) habs
      have hsmall : Int.log 2 |q| ≤ 4 := by
        by_contra hbig
        have hmax : max (Int.log 2 |q| - 52) (-1074) = Int.log 2 |q| - 52 :=
          max_eq_left (by omega)
        have hscale : (2 : ℚ) ^ Int.log 2 |q| = u * 2 ^ (52 : ℤ) := by
          rw [← hu, hmax, ← zpow_add₀ (by norm_num : (2 : ℚ) ≠ 0)]
          congr 1
          ring
        have hlarge : (2 : ℚ) ^ (5 : ℤ) ≤ 2 ^ Int.log 2 |q| :=
          zpow_le_zpow_right₀ (by norm_num) (by omega)
        have hdist := abs_sub_abs_le_abs_sub q (roundEven (q / u) * u)
        rw [abs_sub_comm] at hdist
        norm_num at hscale hlarge
        linarith
      have hfine : u ≤ 2 ^ (-48 : ℤ) := by
        rw [← hu]
        exact zpow_le_zpow_right₀ (by norm_num) (by omega)
      norm_num at hfine
      linarith
    · cases h

theorem validBands_le {x : ℚ} (h : x ∈ validBands) : |x| ≤ 9 := by
  obtain ⟨k, hk, rfl⟩ := List.mem_map.1 h
  have hk : k ≤ 18 := by
    have := List.mem_range.1 hk
    omega
  have hcast : (k : ℚ) ≤ 18 := by exact_mod_cast hk
  rw [abs_of_nonneg (by positivity)]
  linarith

theorem half_le_of_lt {x y : ℚ} (hx : x ∈ validBands) (hy : y ∈ validBands) (h : x < y) :
    x + 1 / 2 ≤ y := by
  obtain ⟨k, _, rfl⟩ := List.mem_map.1 hx
  obtain ⟨j, _, rfl⟩ := List.mem_map.1 hy
  have hlt : (k : ℚ) < j := by linarith
  have hsucc : ((k + 1 : ℕ) : ℚ) ≤ j := by
    exact_mod_cast Nat.succ_le_of_lt (by exact_mod_cast hlt)
  push_cast at hsucc
  linarith

/-! ## One value, read twice -/

theorem decimal_of_float {b : Json} {x : ℚ} (h : float b = .ok (some x)) (hx : x ∈ validBands) :
    (∃ t, b = .bool t) ∨ ∃ d, (decimal b : Except Raised ℚ) = .ok d ∧ |x - d| < 1 / 4 := by
  have hclose : ∀ q, nearestDouble q = some x → |x - q| < 1 / 4 := fun q hq =>
    close_of_nearestDouble hq (validBands_le hx)
  cases b with
  | bool t => exact .inl ⟨t, rfl⟩
  | int n =>
    refine .inr ⟨n, rfl, hclose n ?_⟩
    unfold float at h
    dsimp only at h
    cases hn : nearestDouble n with
    | none =>
      rw [hn] at h
      cases h
    | some y =>
      rw [hn] at h
      cases h
      rfl
  | real q =>
    cases h
    exact .inr ⟨x, rfl, by norm_num⟩
  | str s =>
    unfold float at h
    dsimp only at h
    split at h
    · cases h
    · unfold floatLiteral at h
      split at h
      · next q hq =>
        split at hq
        · refine .inr ⟨q, ?_, hclose q (Except.ok.inj h)⟩
          unfold decimal
          dsimp only
          rw [hq]
        · cases hq
      · cases h
  | _ => cases h

theorem pyInt_transfer {v : Json} {n : ℤ} (h : (pyInt v : Reading ℤ) = .ok n) :
    (pyInt v : Except Raised ℤ) = .ok n := by
  cases v with
  | str s =>
    unfold pyInt intOfText at h ⊢
    dsimp only at h ⊢
    split at h
    · cases h
    · next ds hds =>
      split at h
      · next hlen =>
        cases h
        rw [if_pos hlen]
      · cases h
  | bool b =>
    cases h
    rfl
  | int m =>
    cases h
    rfl
  | real q =>
    cases h
    rfl
  | _ => cases h

theorem subscript_transfer {v w : Json} {key : String}
    (h : (subscript v key : Reading Json) = .ok w) :
    (subscript v key : Except Raised Json) = .ok w := by
  rw [QtypesSchemas.subscript_eq_ok] at h ⊢
  exact h

/-! ## The loops of `findings` -/

section
variable {r : Row} {rows : List Row} {m maxRaw : ℤ}

theorem mem_marks : m ∈ marks r ↔ Within r m := by
  unfold marks Within
  rw [List.mem_map]
  constructor
  · rintro ⟨k, hk, rfl⟩
    have := List.mem_range.1 hk
    omega
  · intro h
    exact ⟨(m - r.1).toNat, List.mem_range.2 (by omega), by omega⟩

theorem findIf_eq_nil {p : Bool} {f : Finding} : findIf p f = [] ↔ p = false := by
  unfold findIf
  cases p <;> simp

theorem overlaps_eq_nil {covered : List ℤ} :
    overlaps covered rows = [] ↔
      (∀ r ∈ rows, ∀ m, Within r m → m ∉ covered) ∧ Separate rows := by
  induction rows generalizing covered with
  | nil => simp [overlaps, Separate]
  | cons r rows ih =>
    have hfirst : ((marks r).filter (fun m => m ∈ covered)).isEmpty = true ↔
        ∀ m, Within r m → m ∉ covered := by
      rw [List.isEmpty_iff, List.filter_eq_nil_iff]
      simp only [mem_marks, decide_eq_true_eq]
    rw [overlaps, List.append_eq_nil_iff, findIf_eq_nil, Bool.not_eq_false', hfirst, ih]
    unfold Separate
    rw [List.forall_mem_cons, List.pairwise_cons]
    simp only [List.mem_append, mem_marks, not_or]
    constructor
    · rintro ⟨hr, hrest, hseparate⟩
      exact ⟨⟨hr, fun r' hr' m hm => (hrest r' hr' m hm).1⟩,
        fun r' hr' m hm => (hrest r' hr' m hm.2).2 hm.1, hseparate⟩
    · rintro ⟨⟨hr, hrest⟩, hapart, hseparate⟩
      exact ⟨hr, fun r' hr' m hm => ⟨hrest r' hr' m hm, fun hm' => hapart r' hr' m ⟨hm', hm⟩⟩,
        hseparate⟩

theorem gaps_eq_nil : gaps maxRaw rows = [] ↔ ∀ m, 0 ≤ m → m ≤ maxRaw → ∃ r ∈ rows, Within r m := by
  unfold gaps
  rw [findIf_eq_nil, Bool.not_eq_false', List.isEmpty_iff, List.filter_eq_nil_iff]
  simp only [decide_eq_true_eq, not_not, List.mem_flatMap, mem_marks]
  constructor
  · intro h m hlo hhi
    exact h m (List.mem_map.2 ⟨m.toNat, List.mem_range.2 (by omega), by
      exact Int.toNat_of_nonneg hlo⟩)
  · intro h m hm
    obtain ⟨k, hk, rfl⟩ := List.mem_map.1 hm
    have := List.mem_range.1 hk
    exact h _ (Int.natCast_nonneg k) (by
      change (k : ℤ) ≤ maxRaw
      omega)

theorem drops_eq_nil {previous : Option ℚ} :
    drops previous rows = [] ↔ (∀ p, previous = some p → ∀ r ∈ rows.head?, p ≤ r.2.2) ∧
      rows.Pairwise (fun r r' => r.2.2 ≤ r'.2.2) := by
  induction rows generalizing previous with
  | nil => simp [drops]
  | cons r rows ih =>
    rw [drops]
    have hhead : (∀ p, some r.2.2 = some p → ∀ r' ∈ rows.head?, p ≤ r'.2.2) ∧
        rows.Pairwise (fun r r' => r.2.2 ≤ r'.2.2) ↔
        (r :: rows).Pairwise (fun r r' => r.2.2 ≤ r'.2.2) := by
      rw [List.pairwise_cons]
      constructor
      · rintro ⟨hnext, hrest⟩
        refine ⟨fun r' hr' => ?_, hrest⟩
        cases rows with
        | nil => cases hr'
        | cons s rows =>
          have hs := hnext _ rfl s rfl
          rcases List.mem_cons.1 hr' with rfl | hmem
          · exact hs
          · exact hs.trans ((List.pairwise_cons.1 hrest).1 r' hmem)
      · rintro ⟨hall, hrest⟩
        refine ⟨?_, hrest⟩
        rintro p ⟨⟩ r' hr'
        exact hall r' (List.mem_of_mem_head? hr')
    cases previous with
    | none =>
      simp only [Option.filter_none]
      rw [ih, hhead]
      simp
    | some p =>
      by_cases hlt : r.2.2 < p
      · simp only [Option.filter_some, hlt, decide_true, if_true]
        refine iff_of_false (by simp) ?_
        rintro ⟨hnext, _⟩
        exact not_le.2 hlt (hnext p rfl r rfl)
      · simp only [Option.filter_some, hlt, decide_false, Bool.false_eq_true, if_false]
        rw [ih, hhead]
        constructor
        · intro hpair
          refine ⟨?_, hpair⟩
          rintro p' ⟨⟩ r' hr'
          cases hr'
          exact not_lt.1 hlt
        · exact And.right

end

/-! ## A mapping without findings -/

/-- A row that adds no finding, as `float` reads its band. -/
structure Read (maxRaw : ℤ) (row : Json) (r : Row) : Prop where
  reads : readRow row = .ok (r.1, r.2.1, some r.2.2)
  proper : r.1 ≤ r.2.1
  inside : 0 ≤ r.1 ∧ r.2.1 ≤ maxRaw
  valid : r.2.2 ∈ validBands

theorem read_of_checkRow {maxRaw : ℤ} {index : ℕ} {row : Json} {r : Row}
    (h : checkRow maxRaw index row = .ok (.inr r)) : Read maxRaw row r := by
  unfold checkRow at h
  split at h
  · split at h <;> cases h
  · next lo hi band hread =>
    split at h
    · cases h
    · next hproper =>
      split at h
      · cases h
      · next hinside =>
        split at h
        · next b hb =>
          cases h
          obtain ⟨hband, hvalid⟩ := Option.filter_eq_some_iff.1 hb
          subst hband
          rw [not_or, not_lt, not_lt] at hinside
          exact ⟨hread, not_lt.1 hproper, hinside, of_decide_eq_true hvalid⟩
        · cases h

/-- What a mapping without findings is: a curve of floats over the marks. -/
structure Curve (mapping : List Json) (maxRaw : ℤ) (rows : List Row) : Prop where
  read : List.Forall₂ (Read maxRaw) mapping rows
  separate : Separate rows
  covers : ∀ m, 0 ≤ m → m ≤ maxRaw → ∃ r ∈ rows, Within r m
  rising : Rising rows

theorem forall₂_zipIdx {mapping : List Json} {maxRaw : ℤ} {rows : List Row} {k : ℕ}
    (h : (mapping.zipIdx k).mapM (fun e => checkRow maxRaw e.2 e.1) = .ok (rows.map .inr)) :
    List.Forall₂ (Read maxRaw) mapping rows := by
  induction mapping generalizing rows k with
  | nil =>
    have hrows := mapM_length h
    rw [List.length_map] at hrows
    rw [List.length_eq_zero_iff.1 hrows]
    exact .nil
  | cons row mapping ih =>
    rw [List.zipIdx_cons] at h
    obtain ⟨b, bs, hb, hbs, heq⟩ := mapM_cons_eq_ok.1 h
    cases rows with
    | nil => cases heq
    | cons r rows =>
      obtain ⟨rfl, rfl⟩ := List.cons.inj heq
      exact .cons (read_of_checkRow hb) (ih hbs)

theorem eq_map_inr {checked : List (Finding ⊕ Row)} (h : checked.filterMap Sum.getLeft? = []) :
    checked = (checked.filterMap Sum.getRight?).map .inr := by
  induction checked with
  | nil => rfl
  | cons c checked ih =>
    cases c with
    | inl f => cases h
    | inr r =>
      have hrest : checked.filterMap Sum.getLeft? = [] := h
      change Sum.inr r :: checked = Sum.inr r :: (checked.filterMap Sum.getRight?).map .inr
      rw [← ih hrest]

theorem before_total (a b : Row) : before a b ∨ before b a := by
  unfold before
  rcases lt_trichotomy a.1 b.1 with h | h | h
  · exact .inl (.inl h)
  · rcases lt_trichotomy a.2.1 b.2.1 with h' | h' | h'
    · exact .inl (.inr ⟨h, .inl h'⟩)
    · rcases le_total a.2.2 b.2.2 with h'' | h''
      · exact .inl (.inr ⟨h, .inr ⟨h', h''⟩⟩)
      · exact .inr (.inr ⟨h.symm, .inr ⟨h'.symm, h''⟩⟩)
    · exact .inr (.inr ⟨h.symm, .inl h'⟩)
  · exact .inr (.inl h)

theorem before_trans (a b c : Row) (hab : before a b) (hbc : before b c) : before a c := by
  unfold before at *
  rcases hab with h | ⟨h, hab⟩
  · rcases hbc with k | ⟨k, _⟩
    · exact .inl (h.trans k)
    · exact .inl (k ▸ h)
  · rcases hbc with k | ⟨k, hbc⟩
    · exact .inl (h ▸ k)
    · refine .inr ⟨h.trans k, ?_⟩
      rcases hab with h' | ⟨h', h''⟩
      · rcases hbc with k' | ⟨k', _⟩
        · exact .inl (h'.trans k')
        · exact .inl (k' ▸ h')
      · rcases hbc with k' | ⟨k', k''⟩
        · exact .inl (h' ▸ k')
        · exact .inr ⟨h'.trans k', h''.trans k''⟩

instance before_isTotal : Std.Total before := ⟨before_total⟩

instance before_isTrans : IsTrans Row before := ⟨before_trans⟩

theorem rising_of_sorted {rows : List Row} (hsorted : rows.Pairwise before)
    (hbands : rows.Pairwise (fun r r' => r.2.2 ≤ r'.2.2)) : Rising rows := by
  have hboth : rows.Pairwise (fun r r' => r.1 ≤ r'.1 ∧ r.2.2 ≤ r'.2.2) := by
    refine (hsorted.and hbands).imp ?_
    rintro r r' ⟨hbefore, hband⟩
    refine ⟨?_, hband⟩
    rcases hbefore with h | ⟨h, _⟩
    · exact h.le
    · exact h.le
  clear hsorted hbands
  induction rows with
  | nil => exact fun r hr => by cases hr
  | cons s rows ih =>
    obtain ⟨hs, hrest⟩ := List.pairwise_cons.1 hboth
    intro r hr r' hr' hlt
    rcases List.mem_cons.1 hr with heq | hmem
    · rcases List.mem_cons.1 hr' with heq' | hmem'
      · rw [heq, heq']
      · rw [heq]
        exact (hs r' hmem').2
    · rcases List.mem_cons.1 hr' with heq' | hmem'
      · rw [heq'] at hlt
        exact absurd (hs r hmem).1 (not_le.2 hlt)
      · exact ih hrest r hmem r' hmem' hlt

theorem curve_of_findings {mapping : List Json} {maxRaw : ℤ}
    (h : findings mapping maxRaw = .ok []) :
    1 ≤ maxRaw ∧ ∃ rows, Curve mapping maxRaw rows := by
  unfold findings at h
  split at h
  · cases h
  · next hmax =>
    split at h
    · cases h
    · refine ⟨by omega, ?_⟩
      obtain ⟨checked, hchecked, h⟩ := bind_eq_ok.1 h
      dsimp only at h
      split at h
      · next hempty =>
        -- without rows there would be no finding either, and so no row checked at all
        have hleft : checked.filterMap Sum.getLeft? = [] := Except.ok.inj h
        rw [eq_map_inr hleft, List.isEmpty_iff.1 hempty] at hchecked
        have hlen := mapM_length hchecked
        rw [List.length_zipIdx] at hlen
        have hnil := List.length_eq_zero_iff.1 hlen.symm
        subst hnil
        exact absurd rfl ‹¬ _›
      · have hall := Except.ok.inj h
        rw [List.append_eq_nil_iff, List.append_eq_nil_iff, List.append_eq_nil_iff] at hall
        obtain ⟨⟨⟨hleft, hoverlaps⟩, hgaps⟩, hdrops⟩ := hall
        have hperm : ((checked.filterMap Sum.getRight?).insertionSort before).Perm
            (checked.filterMap Sum.getRight?) := List.perm_insertionSort _ _
        rw [eq_map_inr hleft] at hchecked
        refine ⟨checked.filterMap Sum.getRight?, forall₂_zipIdx hchecked,
          (overlaps_eq_nil.1 hoverlaps).2.perm hperm, ?_, ?_⟩
        · intro m hlo hhi
          obtain ⟨r, hr, hm⟩ := gaps_eq_nil.1 hgaps m hlo hhi
          exact ⟨r, hperm.mem_iff.1 hr, hm⟩
        · exact (rising_of_sorted (List.pairwise_insertionSort _ _)
            (drops_eq_nil.1 hdrops).2).perm hperm

/-! ## The scorer's rows -/

def Reads (row : Json) (lo : ℤ) (b : Json) : Prop :=
  (∃ v, (subscript row "raw_min" : Except Raised Json) = .ok v ∧
    (pyInt v : Except Raised ℤ) = .ok lo) ∧
  (subscript row "band" : Except Raised Json) = .ok b

def NumericBands (mapping : List Json) : Prop :=
  ∀ row ∈ mapping, ∀ t, (subscript row "band" : Except Raised Json) ≠ .ok (.bool t)

def FineBands (mapping : List Json) : Prop :=
  ∀ row ∈ mapping, ∀ row' ∈ mapping, ∀ lo lo' b b', Reads row lo b → Reads row' lo' b' → lo < lo' →
    float b = float b' → ∀ d d', (decimal b : Except Raised ℚ) = .ok d →
      (decimal b' : Except Raised ℚ) = .ok d' → d ≤ d'

theorem bandRow_eq_ok {row : Json} {s : Row} : bandRow row = .ok s ↔
    ∃ b, Reads row s.1 b ∧ (∃ v, (subscript row "raw_max" : Except Raised Json) = .ok v ∧
      (pyInt v : Except Raised ℤ) = .ok s.2.1) ∧ (decimal b : Except Raised ℚ) = .ok s.2.2 := by
  unfold bandRow Reads
  simp only [bind_eq_ok]
  constructor
  · rintro ⟨v, hv, lo, hlo, w, hw, hi, hhi, b, hb, d, hd, h⟩
    cases h
    exact ⟨b, ⟨⟨v, hv, hlo⟩, hb⟩, ⟨w, hw, hhi⟩, hd⟩
  · rintro ⟨b, ⟨⟨v, hv, hlo⟩, hb⟩, ⟨w, hw, hhi⟩, hd⟩
    exact ⟨v, hv, _, hlo, w, hw, _, hhi, b, hb, _, hd, rfl⟩

theorem readRow_eq_ok {row : Json} {lo hi : ℤ} {x : Option ℚ} (h : readRow row = .ok (lo, hi, x)) :
    ∃ b, Reads row lo b ∧ (∃ v, (subscript row "raw_max" : Except Raised Json) = .ok v ∧
      (pyInt v : Except Raised ℤ) = .ok hi) ∧ float b = .ok x := by
  unfold readRow at h
  simp only [bind_eq_ok] at h
  obtain ⟨v, hv, lo', hlo, w, hw, hi', hhi, b, hb, x', hx, h⟩ := h
  cases h
  exact ⟨b, ⟨⟨v, subscript_transfer hv, pyInt_transfer hlo⟩, subscript_transfer hb⟩,
    ⟨w, subscript_transfer hw, pyInt_transfer hhi⟩, hx⟩

/-- A row as it is checked and as it is scored from: one range, and bands close to each other. -/
structure Twin (row : Json) (r s : Row) : Prop where
  reads : ∃ b, Reads row r.1 b ∧ float b = .ok (some r.2.2) ∧
    (decimal b : Except Raised ℚ) = .ok s.2.2
  lower : s.1 = r.1
  upper : s.2.1 = r.2.1
  close : |r.2.2 - s.2.2| < 1 / 4

theorem Reads.unique {row : Json} {lo lo' : ℤ} {b b' : Json} (h : Reads row lo b)
    (h' : Reads row lo' b') : lo = lo' ∧ b = b' := by
  obtain ⟨⟨v, hv, hlo⟩, hb⟩ := h
  obtain ⟨⟨v', hv', hlo'⟩, hb'⟩ := h'
  rw [hv] at hv'
  cases hv'
  rw [hlo] at hlo'
  cases hlo'
  rw [hb] at hb'
  cases hb'
  exact ⟨rfl, rfl⟩

theorem exists_twin {maxRaw : ℤ} {row : Json} {r : Row} (h : Read maxRaw row r)
    (hnumeric : ∀ t, (subscript row "band" : Except Raised Json) ≠ .ok (.bool t)) :
    ∃ s, bandRow row = .ok s ∧ Twin row r s := by
  obtain ⟨b, hreads, hhi, hfloat⟩ := readRow_eq_ok h.reads
  rcases decimal_of_float hfloat h.valid with ⟨t, rfl⟩ | ⟨d, hd, hclose⟩
  · exact absurd hreads.2 (hnumeric t)
  · exact ⟨(r.1, r.2.1, d), bandRow_eq_ok.2 ⟨b, hreads, hhi, hd⟩,
      ⟨b, hreads, hfloat, hd⟩, rfl, rfl, hclose⟩

theorem twin_of_bandRow {maxRaw : ℤ} {row : Json} {r s : Row} (h : Read maxRaw row r)
    (hs : bandRow row = .ok s) : Twin row r s := by
  obtain ⟨b, hreads, hhi, hd⟩ := bandRow_eq_ok.1 hs
  have hnumeric : ∀ t, (subscript row "band" : Except Raised Json) ≠ .ok (.bool t) := by
    intro t ht
    rw [hreads.2] at ht
    cases ht
    cases hd
  obtain ⟨s', hs', htwin⟩ := exists_twin h hnumeric
  rw [hs] at hs'
  cases hs'
  exact htwin

theorem twins_of_mapM {maxRaw : ℤ} {mapping : List Json} {rows scored : List Row}
    (hread : List.Forall₂ (Read maxRaw) mapping rows) (h : mapping.mapM bandRow = .ok scored) :
    List.Forall₂ (fun r s => ∃ row ∈ mapping, Read maxRaw row r ∧ Twin row r s) rows scored := by
  induction hread generalizing scored with
  | nil =>
    cases h
    exact .nil
  | cons hrow hrest ih =>
    obtain ⟨s, scored', hs, hscored, rfl⟩ := mapM_cons_eq_ok.1 h
    refine .cons ⟨_, List.mem_cons_self, hrow, twin_of_bandRow hrow hs⟩ ?_
    refine (ih hscored).imp ?_
    rintro r s ⟨row, hmem, hread, htwin⟩
    exact ⟨row, List.mem_cons_of_mem _ hmem, hread, htwin⟩

theorem mapM_bandRow {maxRaw : ℤ} {mapping : List Json} {rows : List Row}
    (hread : List.Forall₂ (Read maxRaw) mapping rows) (hnumeric : NumericBands mapping) :
    ∃ scored, mapping.mapM bandRow = .ok scored := by
  induction hread with
  | nil => exact ⟨[], rfl⟩
  | cons hrow hrest ih =>
    obtain ⟨s, hs, _⟩ := exists_twin hrow (hnumeric _ List.mem_cons_self)
    obtain ⟨scored, hscored⟩ := ih (fun row hmem => hnumeric row (List.mem_cons_of_mem _ hmem))
    exact ⟨s :: scored, mapM_cons_eq_ok.2 ⟨s, scored, hs, hscored, rfl⟩⟩

section
variable {maxRaw : ℤ} {mapping : List Json} {rows scored : List Row}

theorem mem_twin (h : List.Forall₂ (fun r s => ∃ row ∈ mapping, Read maxRaw row r ∧ Twin row r s)
    rows scored) {s : Row} (hs : s ∈ scored) :
    ∃ r ∈ rows, ∃ row ∈ mapping, Read maxRaw row r ∧ Twin row r s := by
  induction h with
  | nil => cases hs
  | cons hrow _ ih =>
    rcases List.mem_cons.1 hs with rfl | hmem
    · exact ⟨_, List.mem_cons_self, hrow⟩
    · obtain ⟨r, hr, htwin⟩ := ih hmem
      exact ⟨r, List.mem_cons_of_mem _ hr, htwin⟩

theorem ends_eq (h : List.Forall₂ (fun r s => ∃ row ∈ mapping, Read maxRaw row r ∧ Twin row r s)
    rows scored) : scored.map (fun s => (s.1, s.2.1)) = rows.map (fun r => (r.1, r.2.1)) := by
  induction h with
  | nil => rfl
  | cons hrow _ ih =>
    obtain ⟨row, _, _, htwin⟩ := hrow
    rw [List.map_cons, List.map_cons, ih, htwin.lower, htwin.upper]

theorem separate_scored (hcurve : Curve mapping maxRaw rows)
    (h : mapping.mapM bandRow = .ok scored) : Separate scored := by
  have hends := ends_eq (twins_of_mapM hcurve.read h)
  have hrows := hcurve.separate
  unfold Separate Apart Within at hrows ⊢
  have hpair : (rows.map (fun r => (r.1, r.2.1))).Pairwise
      (fun a b => ∀ m, ¬ ((a.1 ≤ m ∧ m ≤ a.2) ∧ b.1 ≤ m ∧ m ≤ b.2)) :=
    List.pairwise_map.2 hrows
  rw [← hends] at hpair
  exact List.pairwise_map.1 hpair

theorem proper_scored (hcurve : Curve mapping maxRaw rows)
    (h : mapping.mapM bandRow = .ok scored) : ∀ s ∈ scored, s.1 ≤ s.2.1 := by
  intro s hs
  obtain ⟨r, _, row, _, hread, htwin⟩ := mem_twin (twins_of_mapM hcurve.read h) hs
  rw [htwin.lower, htwin.upper]
  exact hread.proper

theorem covers_scored (hcurve : Curve mapping maxRaw rows)
    (h : mapping.mapM bandRow = .ok scored) {m : ℤ} (hlo : 0 ≤ m) (hhi : m ≤ maxRaw) :
    (lookup scored m).isSome := by
  rw [isSome_lookup]
  obtain ⟨r, hr, hm⟩ := hcurve.covers m hlo hhi
  have hends := ends_eq (twins_of_mapM hcurve.read h)
  have hmem : (r.1, r.2.1) ∈ scored.map (fun s => (s.1, s.2.1)) := by
    rw [hends]
    exact List.mem_map_of_mem hr
  obtain ⟨s, hs, heq⟩ := List.mem_map.1 hmem
  obtain ⟨hlower, hupper⟩ := Prod.mk.inj heq
  refine ⟨s, hs, ?_⟩
  unfold Within
  rw [hlower, hupper]
  exact hm

theorem rising_scored_iff (hcurve : Curve mapping maxRaw rows)
    (h : mapping.mapM bandRow = .ok scored) : Rising scored ↔ FineBands mapping := by
  have htwins := twins_of_mapM hcurve.read h
  constructor
  · intro hrising row hrow row' hrow' lo lo' b b' hb hb' hlt _ d d' hd hd'
    obtain ⟨s, hs, hband⟩ := exists_of_mapM h hrow
    obtain ⟨s', hs', hband'⟩ := exists_of_mapM h hrow'
    obtain ⟨c, hc, _, hdec⟩ := bandRow_eq_ok.1 hband
    obtain ⟨c', hc', _, hdec'⟩ := bandRow_eq_ok.1 hband'
    obtain ⟨rfl, rfl⟩ := hb.unique hc
    obtain ⟨rfl, rfl⟩ := hb'.unique hc'
    rw [hd] at hdec
    rw [hd'] at hdec'
    cases hdec
    cases hdec'
    exact hrising s hs s' hs' hlt
  · intro hfine s hs s' hs' hlt
    obtain ⟨r, hr, row, hrow, hread, htwin⟩ := mem_twin htwins hs
    obtain ⟨r', hr', row', hrow', hread', htwin'⟩ := mem_twin htwins hs'
    obtain ⟨b, hb, hfloat, hdec⟩ := htwin.reads
    obtain ⟨b', hb', hfloat', hdec'⟩ := htwin'.reads
    have hlower : r.1 < r'.1 := by
      rw [← htwin.lower, ← htwin'.lower]
      exact hlt
    rcases lt_or_eq_of_le (hcurve.rising r hr r' hr' hlower) with hless | hsame
    · have hhalf := half_le_of_lt hread.valid hread'.valid hless
      have hclose := abs_lt.1 htwin.close
      have hclose' := abs_lt.1 htwin'.close
      linarith
    · rw [← hsame] at hfloat'
      exact hfine row hrow row' hrow' _ _ b b' hb hb' hlower (hfloat.trans hfloat'.symm) _ _
        hdec hdec'

end

/-! ## Half-up marks -/

theorem roundHalfUp_intCast (n : ℤ) : roundHalfUp n = n := by
  have hfloor : ∀ k : ℤ, ⌊(k : ℚ) + 1 / 2⌋ = k := by
    intro k
    rw [Int.floor_eq_iff]
    constructor <;> norm_num
  unfold roundHalfUp
  split
  · exact hfloor n
  · have hneg := hfloor (-n)
    push_cast at hneg
    rw [hneg, neg_neg]

theorem roundHalfUp_mono {p q : ℚ} (h : p ≤ q) : roundHalfUp p ≤ roundHalfUp q := by
  unfold roundHalfUp
  split
  · next hp =>
    rw [if_pos (hp.trans h)]
    exact Int.floor_le_floor (by linarith)
  · next hp =>
    split
    · next hq =>
      have h₁ : 0 ≤ ⌊q + 1 / 2⌋ := Int.floor_nonneg.2 (by linarith)
      have h₂ : 0 ≤ ⌊-p + 1 / 2⌋ := Int.floor_nonneg.2 (by linarith)
      omega
    · have hfloor : ⌊-q + 1 / 2⌋ ≤ ⌊-p + 1 / 2⌋ := Int.floor_le_floor (by linarith)
      omega

/-! ## The law of a validated map -/

/-- The map that is built answers every mark, in whatever order its rows stand, and never goes
down. -/
def Answers (b : BandMapVersion) : Prop :=
  ∃ m, bandMapOf b = .ok m ∧
    (∀ raw : ℚ, 0 ≤ raw → raw ≤ b.maxRaw → (m.bandFor raw).isSome) ∧
    (∀ mapping', b.mapping.Perm mapping' → ∃ m', bandMapOf { b with mapping := mapping' } = .ok m' ∧
      ∀ raw : ℚ, m'.bandFor raw = m.bandFor raw) ∧
    ∀ (raw raw' : ℚ) (band band' : ℚ), raw ≤ raw' → m.bandFor raw = some band → m.bandFor raw' = some band' →
      band ≤ band'

theorem bandMapOf_eq_ok {b : BandMapVersion} {m : BandMap} : bandMapOf b = .ok m ↔
    ∃ scored, b.mapping.mapM bandRow = .ok scored ∧
      m = { xid := str b.id, maxRaw := b.maxRaw, rows := scored } := by
  unfold bandMapOf
  rw [map_eq_ok]
  constructor
  · rintro ⟨scored, hscored, rfl⟩
    exact ⟨scored, hscored, rfl⟩
  · rintro ⟨scored, hscored, rfl⟩
    exact ⟨scored, hscored, rfl⟩

theorem bandFor_eq_lookup (m : BandMap) (raw : ℚ) :
    m.bandFor raw = lookup m.rows (roundHalfUp raw) := rfl

theorem mapM_perm {mapping mapping' : List Json} {scored : List Row}
    (hperm : mapping.Perm mapping') (h : mapping.mapM bandRow = .ok scored) :
    ∃ scored', mapping'.mapM bandRow = .ok scored' ∧ scored.Perm scored' := by
  induction hperm generalizing scored with
  | nil => exact ⟨scored, h, .refl _⟩
  | cons row _ ih =>
    obtain ⟨s, rest, hs, hrest, rfl⟩ := mapM_cons_eq_ok.1 h
    obtain ⟨rest', hrest', hp⟩ := ih hrest
    exact ⟨s :: rest', mapM_cons_eq_ok.2 ⟨s, rest', hs, hrest', rfl⟩, hp.cons s⟩
  | swap row row' mapping =>
    obtain ⟨s, rest, hs, hrest, rfl⟩ := mapM_cons_eq_ok.1 h
    obtain ⟨s', rest', hs', hrest', rfl⟩ := mapM_cons_eq_ok.1 hrest
    refine ⟨s' :: s :: rest', mapM_cons_eq_ok.2 ⟨s', _, hs', ?_, rfl⟩, .swap _ _ _⟩
    exact mapM_cons_eq_ok.2 ⟨s, rest', hs, hrest', rfl⟩
  | trans _ _ ih ih' =>
    obtain ⟨scored', hscored', hp⟩ := ih h
    obtain ⟨scored'', hscored'', hp'⟩ := ih' hscored'
    exact ⟨scored'', hscored'', hp.trans hp'⟩

def bandRowOf (lo hi : ℤ) (band : Json) : Json :=
  .obj [("raw_min", .int lo), ("raw_max", .int hi), ("band", band)]

/-- A band given as `true` passes as the float one, and there is no decimal of it. -/
def booleanBand : BandMapVersion where
  id := 1
  mapping := [bandRowOf 0 1 (.bool true)]
  maxRaw := 1

def twoBands : BandMapVersion where
  id := 1
  mapping := [bandRowOf 10 20 (.int 7), bandRowOf 0 9 (.real (9 / 2))]
  maxRaw := 20

end IeltsHub.BandMapCurves
