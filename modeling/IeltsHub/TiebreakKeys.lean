import IeltsHub.CompetitionsRanking

set_option autoImplicit false

/-!
# Tiebreak keys as text

`_render` offsets a number by a thousand million and pads it to eighteen characters, so that rows
can be ordered by the text. The offset is passed by one value the product stores: a duration of
more than a thousand million milliseconds under `duration_desc`.
-/
namespace IeltsHub.TiebreakKeys
open PyTime AscendingText CivilCalendar StandardRanking CompetitionsRanking

/-! ## What a row can hold -/

def unknownDurationMs : ℤ := 2 ^ 31 - 1

/-- `_duration_ms`. -/
def durationMs (startedAt submittedAt : Option Time) : ℤ :=
  match startedAt, submittedAt with
  | some started, some submitted => max 0 (milliseconds (submitted - started))
  | _, _ => unknownDurationMs

/-- Raw scores are `numeric(7,2)`, bands `numeric(2,1)`, durations `int` and no less than zero. -/
structure Stored (e : Entry) : Prop where
  rawScore : ∃ n : ℤ, e.rawScore = n / 100 ∧ -(10 ^ 7) < n ∧ n < 10 ^ 7
  band : ∀ b, e.band = some b → ∃ n : ℤ, b = n / 10 ∧ -(10 ^ 2) < n ∧ n < 10 ^ 2
  durationMs : 0 ≤ e.durationMs ∧ e.durationMs < 2 ^ 31
  submittedAt : Representable e.submittedAt

/-! ## Fixed-point text -/

theorem roundEven_intCast (n : ℤ) : roundEven n = n := by
  unfold roundEven
  simp

theorem thousandths_eq (k : ℤ) : thousandths (k / 1000) = k.natAbs := by
  have habs : |(k : ℚ) / 1000| * 1000 = ((k.natAbs : ℤ) : ℚ) := by
    rw [abs_div, Int.natCast_natAbs, Int.cast_abs]
    norm_num
  unfold thousandths
  rw [habs, roundEven_intCast, Int.toNat_natCast]

theorem ascending_fixed (w : ℕ) : Ascending (w + 1 + (3 + 1)) (10 ^ (w + 1) * 1000)
    (fun n => zfill (w + 1) (n / 1000) ++ '.' :: zfill 3 (n % 1000)) :=
  (ascending_zfill w).divMod ((ascending_zfill 2).cons '.') (by decide)

def fixedText (k : ℤ) : List Char := fixedPoint (k / 1000)

theorem fixedText_neg {k : ℤ} (h : k < 0) : fixedText k =
    '-' :: (zfill 13 (k.natAbs / 1000) ++ '.' :: zfill 3 (k.natAbs % 1000)) := by
  have hneg : (k : ℚ) / 1000 < 0 := div_neg_of_neg_of_pos (by exact_mod_cast h) (by norm_num)
  unfold fixedText fixedPoint
  dsimp only
  rw [if_pos hneg, thousandths_eq]

theorem fixedText_nonneg {k : ℤ} (h : 0 ≤ k) : fixedText k =
    zfill 14 (k.natAbs / 1000) ++ '.' :: zfill 3 (k.natAbs % 1000) := by
  have hnonneg : ¬ (k : ℚ) / 1000 < 0 := by
    rw [not_lt]
    exact div_nonneg (by exact_mod_cast h) (by norm_num)
  unfold fixedText fixedPoint
  dsimp only
  rw [if_neg hnonneg, thousandths_eq]

def Fits (k : ℤ) : Prop := -(10 ^ 16) < k ∧ k < 10 ^ 16

variable {k k' : ℤ}

theorem Fits.natAbs_lt (h : Fits k) : k.natAbs < 10 ^ 13 * 1000 := by
  obtain ⟨hlo, hhi⟩ := h
  omega

theorem length_fixedText (h : Fits k) : (fixedText k).length = 18 := by
  have hlt := h.natAbs_lt
  by_cases hk : k < 0
  · rw [fixedText_neg hk]
    exact ((ascending_fixed 12).cons '-').length_eq _ hlt
  · rw [fixedText_nonneg (Int.not_lt.1 hk)]
    exact (ascending_fixed 13).length_eq _ (by omega)

theorem zfill_head_digit {w n : ℕ} : ∃ c cs, zfill (w + 1) n = c :: cs ∧ '0' ≤ c := by
  unfold zfill
  cases hpad : w + 1 - (Nat.toDigits 10 n).length with
  | succ j => exact ⟨'0', _, rfl, le_rfl⟩
  | zero =>
    cases hd : Nat.toDigits 10 n with
    | nil => exact absurd hd Nat.toDigits_ne_nil
    | cons c cs =>
      refine ⟨c, cs, rfl, ?_⟩
      have hdigit : c.isDigit := Nat.isDigit_of_mem_toDigits (by decide) (by decide)
        (hd ▸ List.mem_cons_self)
      simp only [Char.isDigit, Bool.and_eq_true, decide_eq_true_eq] at hdigit
      exact hdigit.1

theorem fixedText_neg_lt (h : k < 0) (h' : 0 ≤ k') : fixedText k < fixedText k' := by
  obtain ⟨c, cs, hc, hle⟩ := @zfill_head_digit 13 (k'.natAbs / 1000)
  rw [fixedText_neg h, fixedText_nonneg h', hc, List.cons_append, List.cons_lt_cons_iff]
  exact .inl (lt_of_lt_of_le (by decide) hle)

theorem fixedText_lt_iff (h : Fits k) (h' : Fits k') (hsign : ¬ (k < 0 ∧ k' < 0)) :
    fixedText k < fixedText k' ↔ k < k' := by
  have hn := h.natAbs_lt
  have hn' := h'.natAbs_lt
  by_cases hk : k < 0
  · have hk' : 0 ≤ k' := Int.not_lt.1 (fun q => hsign ⟨hk, q⟩)
    exact iff_of_true (fixedText_neg_lt hk hk') (by omega)
  · by_cases hk' : k' < 0
    · exact iff_of_false (lt_asymm (fixedText_neg_lt hk' (Int.not_lt.1 hk))) (by omega)
    · rw [fixedText_nonneg (Int.not_lt.1 hk), fixedText_nonneg (Int.not_lt.1 hk')]
      have hwide : k.natAbs < 10 ^ 14 * 1000 := by omega
      have hwide' : k'.natAbs < 10 ^ 14 * 1000 := by omega
      exact ((ascending_fixed 13).lt_iff hwide hwide').trans (by omega)

theorem fixedText_lt_iff_of_neg (h : Fits k) (h' : Fits k') (hk : k < 0) (hk' : k' < 0) :
    fixedText k < fixedText k' ↔ k' < k := by
  rw [fixedText_neg hk, fixedText_neg hk']
  have hlt := ((ascending_fixed 12).cons '-').lt_iff h.natAbs_lt h'.natAbs_lt
  exact hlt.trans (by omega)

theorem fixedText_inj (h : Fits k) (h' : Fits k') (heq : fixedText k = fixedText k') : k = k' := by
  by_cases hsign : k < 0 ∧ k' < 0
  · have hup := fixedText_lt_iff_of_neg h h' hsign.1 hsign.2
    have hdown := fixedText_lt_iff_of_neg h' h hsign.2 hsign.1
    rw [heq] at hup hdown
    have hnot : ¬ fixedText k' < fixedText k' := lt_irrefl _
    rw [hup] at hnot
    have hnot' : ¬ fixedText k' < fixedText k' := lt_irrefl _
    rw [hdown] at hnot'
    omega
  · have hup := fixedText_lt_iff h h' hsign
    have hdown := fixedText_lt_iff h' h (fun q => hsign q.symm)
    rw [heq] at hup hdown
    have hnot : ¬ fixedText k' < fixedText k' := lt_irrefl _
    rw [hup] at hnot
    have hnot' : ¬ fixedText k' < fixedText k' := lt_irrefl _
    rw [hdown] at hnot'
    omega

/-! ## Parts of a key -/

/-- The values a stored row gives: a number of whole thousandths, or a moment. -/
inductive Sound : KeyValue → Prop where
  | number (k : ℤ) (h : Fits (k + 10 ^ 12)) : Sound (number (k / 1000))
  | moment (t : Time) (h : Representable t) : Sound (moment t)

def Under : KeyValue → Prop
  | .inl q => q < -(10 ^ 9)
  | .inr _ => False

def SameKind : KeyValue → KeyValue → Prop
  | .inl _, .inl _ => True
  | .inr _, .inr _ => True
  | _, _ => False

theorem part_number (k : ℤ) : part (number (k / 1000)) = fixedText (k + 10 ^ 12) := by
  unfold fixedText
  push_cast
  change fixedPoint (_ + 10 ^ 9) = _
  congr 1
  ring

theorem under_number (k : ℤ) : Under (number (k / 1000)) ↔ k + 10 ^ 12 < 0 := by
  change (k : ℚ) / 1000 < -(10 ^ 9) ↔ _
  rw [div_lt_iff₀ (by norm_num)]
  constructor
  · intro h
    have h : (k : ℚ) < ((-(10 ^ 12) : ℤ) : ℚ) := by
      push_cast
      linarith
    have := Int.cast_lt.1 h
    omega
  · intro h
    have h : (k : ℚ) < ((-(10 ^ 12) : ℤ) : ℚ) := Int.cast_lt.2 (by omega)
    push_cast at h
    linarith

theorem number_lt_iff {k k' : ℤ} : number (k / 1000) < number (k' / 1000) ↔ k < k' := by
  unfold number
  rw [Sum.Lex.inl_lt_inl_iff, div_lt_div_iff_of_pos_right (by norm_num), Int.cast_lt]

section
variable {v v' : KeyValue}

theorem length_part (h : Sound v) (h' : Sound v') (hkind : SameKind v v') :
    (part v).length = (part v').length := by
  cases h with
  | number k h =>
    cases h' with
    | number k' h' =>
      rw [part_number, part_number, length_fixedText h, length_fixedText h']
    | moment t' h' => exact hkind.elim
  | moment t h =>
    cases h' with
    | number k' h' => exact hkind.elim
    | moment t' h' => exact (length_momentText h).trans (length_momentText h').symm

theorem part_inj (h : Sound v) (h' : Sound v') (hkind : SameKind v v') (heq : part v = part v') :
    v = v' := by
  cases h with
  | number k h =>
    cases h' with
    | number k' h' =>
      rw [part_number, part_number] at heq
      have := fixedText_inj h h' heq
      rw [show k = k' by omega]
    | moment t' h' => exact hkind.elim
  | moment t h =>
    cases h' with
    | number k' h' => exact hkind.elim
    | moment t' h' => rw [momentText_inj h h' heq]

theorem part_lt_iff (h : Sound v) (h' : Sound v') (hkind : SameKind v v')
    (hunder : ¬ (Under v ∧ Under v')) : part v < part v' ↔ v < v' := by
  cases h with
  | number k h =>
    cases h' with
    | number k' h' =>
      rw [under_number, under_number] at hunder
      rw [part_number, part_number, fixedText_lt_iff h h' hunder, number_lt_iff]
      omega
    | moment t' h' => exact hkind.elim
  | moment t h =>
    cases h' with
    | number k' h' => exact hkind.elim
    | moment t' h' =>
      unfold moment
      rw [Sum.Lex.inr_lt_inr_iff]
      exact momentText_lt_iff h h'

theorem part_lt_iff_of_under (h : Sound v) (h' : Sound v') (hv : Under v) (hv' : Under v') :
    part v < part v' ↔ v' < v := by
  cases h with
  | number k h =>
    cases h' with
    | number k' h' =>
      rw [under_number] at hv hv'
      rw [part_number, part_number, fixedText_lt_iff_of_neg h h' hv hv', number_lt_iff]
      omega
    | moment t' h' => exact hv'.elim
  | moment t h => exact hv.elim

end

/-! ## Keys -/

section
variable {key key' : Key} {v v' : KeyValue}

/-- Keys of one list of rules, of stored rows. -/
inductive Matched : Key → Key → Prop where
  | nil : Matched [] []
  | cons {v v' : KeyValue} {key key' : Key} (h : Sound v) (h' : Sound v') (hkind : SameKind v v')
      (hrest : Matched key key') : Matched (v :: key) (v' :: key')

theorem render_lt_render : render key < render key' ↔
    List.intercalate ['|'] (key.map part) < List.intercalate ['|'] (key'.map part) := by
  unfold render
  rw [String.lt_iff, String.toList_ofList, String.toList_ofList]

theorem render_eq_render : render key = render key' ↔
    List.intercalate ['|'] (key.map part) = List.intercalate ['|'] (key'.map part) := by
  unfold render
  exact String.ofList_inj

theorem Matched.intercalate_lt (h : Matched (v :: key) (v' :: key')) :
    List.intercalate ['|'] ((v :: key).map part) < List.intercalate ['|'] ((v' :: key').map part) ↔
      part v < part v' ∨ part v = part v' ∧
        List.intercalate ['|'] (key.map part) < List.intercalate ['|'] (key'.map part) := by
  cases h with
  | cons hv hv' hkind hrest =>
    have hlength := length_part hv hv' hkind
    cases hrest with
    | nil => simp
    | cons hw hw' _ _ =>
      rw [List.map_cons, List.map_cons, List.map_cons, List.map_cons,
        List.intercalate_cons_cons, List.intercalate_cons_cons, List.append_assoc,
        List.append_assoc, append_lt_append hlength, List.singleton_append, List.singleton_append,
        List.cons_lt_cons_iff]
      simp

theorem Matched.intercalate_inj (h : Matched key key')
    (heq : List.intercalate ['|'] (key.map part) = List.intercalate ['|'] (key'.map part)) :
    key = key' := by
  induction h with
  | nil => rfl
  | cons hv hv' hkind hrest ih =>
    have hlength := length_part hv hv' hkind
    cases hrest with
    | nil =>
      simp only [List.map_cons, List.map_nil, List.intercalate_singleton] at heq
      rw [part_inj hv hv' hkind heq]
    | cons hw hw' hwkind hrest =>
      rw [List.map_cons, List.map_cons, List.map_cons, List.map_cons,
        List.intercalate_cons_cons, List.intercalate_cons_cons, List.append_assoc,
        List.append_assoc] at heq
      obtain ⟨hpart, hrestEq⟩ := List.append_inj heq hlength
      rw [List.singleton_append, List.singleton_append] at hrestEq
      rw [part_inj hv hv' hkind hpart, ih (List.cons.inj hrestEq).2]

theorem Matched.render_inj (h : Matched key key') : render key = render key' ↔ key = key' := by
  rw [render_eq_render]
  constructor
  · exact h.intercalate_inj
  · rintro rfl
    rfl

theorem Matched.render_cons_lt (h : Matched (v :: key) (v' :: key')) :
    render (v :: key) < render (v' :: key') ↔
      part v < part v' ∨ part v = part v' ∧ render key < render key' := by
  rw [render_lt_render, h.intercalate_lt, render_lt_render]

end

/-! ## Rules over stored rows -/

section
variable {e e' : Entry} {rule : String} {rules tiebreak : List String} {entries : List Entry}
  {rows : List Ranked} {value : Entry → KeyValue}

def Lifted (v : KeyValue) : Prop := Sound v ∧ ¬ Under v

theorem sound_number {q : ℚ} {k : ℤ} (hq : q = k / 1000) (h : Fits (k + 10 ^ 12)) :
    Sound (number q) := by
  subst hq
  exact .number k h

theorem lifted_number {q : ℚ} {k : ℤ} (hq : q = k / 1000) (hlo : -(10 ^ 12) ≤ k)
    (hhi : k < 10 ^ 15) : Lifted (number q) := by
  refine ⟨sound_number hq ⟨by omega, by omega⟩, ?_⟩
  rw [hq, under_number]
  omega

theorem under_durationDesc : Under (number (-e.durationMs)) ↔ 10 ^ 9 < e.durationMs := by
  have hq : (-e.durationMs : ℚ) = ((-1000 * e.durationMs : ℤ) : ℚ) / 1000 := by
    push_cast
    ring
  rw [hq, under_number]
  omega

theorem sound_durationDesc (h : Stored e) : Sound (number (-e.durationMs)) := by
  have hq : (-e.durationMs : ℚ) = ((-1000 * e.durationMs : ℤ) : ℚ) / 1000 := by
    push_cast
    ring
  have hd := h.durationMs
  exact sound_number hq ⟨by omega, by omega⟩

theorem lifted_of_ne (h : Stored e) :
    ∀ c ∈ comparators, c.1 ≠ "duration_desc" → Lifted (c.2 e) := by
  obtain ⟨n, hraw, hlo, hhi⟩ := h.rawScore
  have hd := h.durationMs
  unfold comparators
  simp only [List.forall_mem_cons]
  refine ⟨fun _ => ?_, fun _ => ?_, fun _ => ?_, fun q => (q rfl).elim, fun _ => ?_, fun _ => ?_,
    ?_⟩
  · refine @lifted_number _ (-10 * n) ?_ (by omega) (by omega)
    rw [hraw]
    push_cast
    ring
  · refine @lifted_number _ (10 * n) ?_ (by omega) (by omega)
    rw [hraw]
    push_cast
    ring
  · refine @lifted_number _ (1000 * e.durationMs) ?_ (by omega) (by omega)
    push_cast
    ring
  · exact ⟨.moment _ h.submittedAt, id⟩
  · cases hb : e.band with
    | none => exact @lifted_number _ 0 (by simp) (by omega) (by omega)
    | some b =>
      obtain ⟨m, hband, hmlo, hmhi⟩ := h.band b hb
      refine @lifted_number _ (-100 * m) ?_ (by omega) (by omega)
      rw [Option.getD_some, hband]
      push_cast
      ring
  · exact fun c hc => by cases hc

theorem sameKind : ∀ c ∈ comparators, SameKind (c.2 e) (c.2 e') := by
  unfold comparators
  simp only [List.forall_mem_cons]
  exact ⟨trivial, trivial, trivial, trivial, trivial, trivial, fun c hc => by cases hc⟩

theorem durationDesc_of_mem : ∀ c ∈ comparators, c.1 = "duration_desc" →
    c.2 e = number (-e.durationMs) := by
  unfold comparators
  simp only [List.forall_mem_cons]
  refine ⟨?_, ?_, ?_, ?_, ?_, ?_, ?_⟩
  · exact fun q => absurd q (by decide)
  · exact fun q => absurd q (by decide)
  · exact fun q => absurd q (by decide)
  · exact fun _ => trivial
  · exact fun q => absurd q (by decide)
  · exact fun q => absurd q (by decide)
  · exact fun c hc => by cases hc

theorem sound_of_mem (h : Stored e) : ∀ c ∈ comparators, Sound (c.2 e) := by
  intro c hc
  by_cases hname : c.1 = "duration_desc"
  · rw [durationDesc_of_mem c hc hname]
    exact sound_durationDesc h
  · exact (lifted_of_ne h c hc hname).1

theorem under_of_mem (h : Stored e) : ∀ c ∈ comparators,
    (Under (c.2 e) ↔ c.1 = "duration_desc" ∧ 10 ^ 9 < e.durationMs) := by
  intro c hc
  by_cases hname : c.1 = "duration_desc"
  · rw [durationDesc_of_mem c hc hname, under_durationDesc]
    exact ⟨fun hd => ⟨hname, hd⟩, And.right⟩
  · exact iff_of_false (lifted_of_ne h c hc hname).2 (fun q => hname q.1)

theorem mem_of_known (h : Known rule) : ∃ c ∈ comparators, c.1 = rule ∧
    comparators.lookup rule = some c.2 := by
  obtain ⟨c, hc, rfl⟩ := List.mem_map.1 h
  refine ⟨c, hc, rfl, ?_⟩
  have hall : ∀ c ∈ comparators, comparators.lookup c.1 = some c.2 := by
    unfold comparators
    simp only [List.forall_mem_cons]
    exact ⟨rfl, rfl, rfl, rfl, rfl, rfl, fun c hc => by cases hc⟩
  exact hall c hc

theorem matched_keys (h : Stored e) (h' : Stored e') (hknown : ∀ rule ∈ rules, Known rule) :
    Matched (keyOf rules e) (keyOf rules e') := by
  induction rules with
  | nil => exact .nil
  | cons rule rules ih =>
    obtain ⟨c, hc, _, hlookup⟩ := mem_of_known (hknown rule List.mem_cons_self)
    unfold keyOf
    rw [List.filterMap_cons, List.filterMap_cons, hlookup]
    exact .cons (sound_of_mem h c hc) (sound_of_mem h' c hc) (sameKind c hc)
      (ih (fun r hr => hknown r (List.mem_cons_of_mem _ hr)))

/-- The two rows are told apart by `duration_desc`, and both durations pass the offset. -/
def Overruns (rules : List String) (e e' : Entry) : Prop :=
  ∃ before after, rules = before ++ "duration_desc" :: after ∧ (∀ rule ∈ before, Ties rule e e') ∧
    10 ^ 9 < e.durationMs ∧ 10 ^ 9 < e'.durationMs ∧ e.durationMs ≠ e'.durationMs

theorem overruns_cons_of_ties (h : Ties rule e e') :
    Overruns (rule :: rules) e e' ↔ Overruns rules e e' := by
  constructor
  · rintro ⟨before, after, hrules, hbefore, hd, hd', hne⟩
    cases before with
    | nil =>
      obtain ⟨rfl, rfl⟩ := List.cons.inj hrules
      have hvalue : number (-e.durationMs) = number (-e'.durationMs) := Option.some.inj h
      have hcast : (-e.durationMs : ℚ) = -e'.durationMs := Sum.inl.inj (toLex.injective hvalue)
      exact absurd (by exact_mod_cast neg_injective hcast) hne
    | cons r before =>
      obtain ⟨rfl, rfl⟩ := List.cons.inj hrules
      exact ⟨before, after, rfl, fun r hr => hbefore r (List.mem_cons_of_mem _ hr), hd, hd', hne⟩
  · rintro ⟨before, after, rfl, hbefore, hd, hd', hne⟩
    refine ⟨rule :: before, after, rfl, ?_, hd, hd', hne⟩
    rw [List.forall_mem_cons]
    exact ⟨h, hbefore⟩

theorem overruns_cons_of_not_ties (h : ¬ Ties rule e e') :
    Overruns (rule :: rules) e e' ↔
      rule = "duration_desc" ∧ 10 ^ 9 < e.durationMs ∧ 10 ^ 9 < e'.durationMs := by
  constructor
  · rintro ⟨before, after, hrules, hbefore, hd, hd', _⟩
    cases before with
    | nil => exact ⟨(List.cons.inj hrules).1, hd, hd'⟩
    | cons r before =>
      obtain ⟨rfl, _⟩ := List.cons.inj hrules
      exact absurd (hbefore rule List.mem_cons_self) h
  · rintro ⟨rfl, hd, hd'⟩
    refine ⟨[], rules, rfl, List.forall_mem_nil _, hd, hd', fun heq => h ?_⟩
    change some (number (-e.durationMs)) = some (number (-e'.durationMs))
    rw [heq]

theorem render_lt_iff (h : Stored e) (h' : Stored e') (hknown : ∀ rule ∈ rules, Known rule) :
    (Overruns rules e e' →
      (render (keyOf rules e) < render (keyOf rules e') ↔ keyOf rules e' < keyOf rules e)) ∧
    (¬ Overruns rules e e' →
      (render (keyOf rules e) < render (keyOf rules e') ↔ keyOf rules e < keyOf rules e')) := by
  induction rules with
  | nil =>
    refine ⟨?_, fun _ => ?_⟩
    · rintro ⟨before, after, hrules, _⟩
      cases before <;> cases hrules
    · exact iff_of_false (lt_irrefl _) (lt_irrefl _)
  | cons rule rules ih =>
    have hmatched := matched_keys h h' hknown
    have ih := ih (fun r hr => hknown r (List.mem_cons_of_mem _ hr))
    obtain ⟨c, hc, hname, hlookup⟩ := mem_of_known (hknown rule List.mem_cons_self)
    have hkey : ∀ e, keyOf (rule :: rules) e = c.2 e :: keyOf rules e := by
      intro e
      unfold keyOf
      rw [List.filterMap_cons, hlookup]
      rfl
    have hties : Ties rule e e' ↔ c.2 e = c.2 e' := by
      unfold Ties
      rw [hlookup]
      exact Option.some_inj
    rw [hkey, hkey] at hmatched ⊢
    rw [hmatched.render_cons_lt, List.cons_lt_cons_iff, List.cons_lt_cons_iff]
    by_cases hsame : c.2 e = c.2 e'
    · rw [overruns_cons_of_ties (hties.2 hsame), hsame]
      simpa using ih
    · have hpart : part (c.2 e) ≠ part (c.2 e') := fun q =>
        hsame (part_inj (sound_of_mem h c hc) (sound_of_mem h' c hc) (sameKind c hc) q)
      have hback : ¬ c.2 e' = c.2 e := fun q => hsame q.symm
      have hunder := under_of_mem h c hc
      have hunder' := under_of_mem h' c hc
      rw [overruns_cons_of_not_ties (fun q => hsame (hties.1 q)), ← hname]
      simp only [hpart, hsame, hback, false_and, or_false]
      constructor
      · rintro ⟨hrule, hd, hd'⟩
        exact part_lt_iff_of_under (sound_of_mem h c hc) (sound_of_mem h' c hc)
          (hunder.2 ⟨hrule, hd⟩) (hunder'.2 ⟨hrule, hd'⟩)
      · intro hnot
        refine part_lt_iff (sound_of_mem h c hc) (sound_of_mem h' c hc) (sameKind c hc) ?_
        rintro ⟨hu, hu'⟩
        exact hnot ⟨(hunder.1 hu).1, (hunder.1 hu).2, (hunder'.1 hu').2⟩

theorem keyOf_ne_of_overruns (hknown : ∀ rule ∈ rules, Known rule) (h : Overruns rules e e') :
    keyOf rules e ≠ keyOf rules e' := by
  intro heq
  rw [keyOf_eq_iff] at heq
  obtain ⟨before, after, rfl, _, _, _, hne⟩ := h
  have hties := heq "duration_desc" (List.mem_append_right _ List.mem_cons_self)
  have hvalue : number (-e.durationMs) = number (-e'.durationMs) := Option.some.inj hties
  have hcast : (-e.durationMs : ℚ) = -e'.durationMs := Sum.inl.inj (toLex.injective hvalue)
  exact hne (by exact_mod_cast neg_injective hcast)

theorem known_rulesInForce (h : ∀ rule ∈ tiebreak, Known rule) :
    ∀ rule ∈ rulesInForce tiebreak, Known rule := by
  unfold rulesInForce
  split
  · decide
  · exact h

end

/-- The texts of a board's rows order them as their keys do, and are equal when their ranks are. -/
def Embedded (rules : List String) (rows : List Ranked) : Prop :=
  ∀ r ∈ rows, ∀ r' ∈ rows,
    (r.tiebreakKey < r'.tiebreakKey ↔ keyOf rules r.entry < keyOf rules r'.entry) ∧
    (r.tiebreakKey = r'.tiebreakKey ↔ r.rank = r'.rank)

theorem not_embedded {entries : List Entry} {tiebreak : List String} {rows : List Ranked}
    {e e' : Entry} (hrows : rank entries tiebreak = .ok rows)
    (hknown : ∀ rule ∈ rulesInForce tiebreak, Known rule) (he : e ∈ entries) (he' : e' ∈ entries)
    (hs : Stored e) (hs' : Stored e') (hover : Overruns (rulesInForce tiebreak) e e') :
    ¬ Embedded (rulesInForce tiebreak) rows := by
  have hentries : (rows.map Ranked.entry).Perm entries := by
    rw [rank_entries hrows]
    exact inOrder_perm
  intro hembedded
  obtain ⟨r, hr, rfl⟩ := List.mem_map.1 (hentries.mem_iff.2 he)
  obtain ⟨r', hr', rfl⟩ := List.mem_map.1 (hentries.mem_iff.2 he')
  have hlt := (hembedded r hr r' hr').1
  rw [rank_tiebreakKey hrows r hr, rank_tiebreakKey hrows r' hr',
    (render_lt_iff hs hs' hknown).1 hover] at hlt
  rcases lt_or_gt_of_ne (keyOf_ne_of_overruns hknown hover) with hless | hgreater
  · exact lt_asymm hless (hlt.2 hless)
  · exact lt_asymm hgreater (hlt.1 hgreater)

/-- The texts embed the order exactly when no two rows are told apart by `duration_desc` at
durations that both pass the offset. -/
theorem keys_embed_iff (entries : List Entry) (tiebreak : List String)
    (hstored : ∀ e ∈ entries, Stored e) (hknown : ∀ rule ∈ tiebreak, Known rule) :
    ∃ rows, rank entries tiebreak = .ok rows ∧
      (Embedded (rulesInForce tiebreak) rows ↔
        ∀ e ∈ entries, ∀ e' ∈ entries, ¬ Overruns (rulesInForce tiebreak) e e') := by
  obtain ⟨rows, hrows⟩ := rank_returns entries hknown
  have hforce := known_rulesInForce hknown
  have hentries : (rows.map Ranked.entry).Perm entries := by
    rw [rank_entries hrows]
    exact inOrder_perm
  have hmem : ∀ r ∈ rows, r.entry ∈ entries := fun r hr =>
    hentries.mem_iff.1 (List.mem_map_of_mem hr)
  refine ⟨rows, hrows, ?_, ?_⟩
  · exact fun hembedded e he e' he' hover =>
      not_embedded hrows hforce he he' (hstored e he) (hstored e' he') hover hembedded
  · intro hnone r hr r' hr'
    have hs := hstored _ (hmem r hr)
    have hs' := hstored _ (hmem r' hr')
    rw [rank_tiebreakKey hrows r hr, rank_tiebreakKey hrows r' hr', rank_standing hrows r hr,
      rank_standing hrows r' hr', standing_eq_iff (hmem r hr) (hmem r' hr'),
      (matched_keys hs hs' hforce).render_inj]
    exact ⟨(render_lt_iff hs hs' hforce).2 (hnone _ (hmem r hr) _ (hmem r' hr')), Iff.rfl⟩

/-- A contest run for a fortnight: one entrant's start was never recorded, the other took twelve
days. -/
def lostStart : Entry :=
  sampleEntry "a" 30 (durationMs none (some 0))

def twelveDays : Entry :=
  sampleEntry "b" 30 (durationMs (some (-seconds 1036800)) (some 0))

theorem representable_zero : Representable 0 := ⟨by decide, by decide⟩

theorem stored_sampleEntry {user : String} {q : ℚ} {n d : ℤ} (hq : q = n / 100)
    (hn : -(10 ^ 7) < n ∧ n < 10 ^ 7) (hd : 0 ≤ d ∧ d < 2 ^ 31) :
    Stored (sampleEntry user q d) where
  rawScore := ⟨n, hq, hn⟩
  band b h := by cases h
  durationMs := hd
  submittedAt := representable_zero

theorem stored_lostStart : Stored lostStart :=
  @stored_sampleEntry _ _ 3000 _ (by norm_num) (by decide) (by decide)

theorem stored_twelveDays : Stored twelveDays :=
  @stored_sampleEntry _ _ 3000 _ (by norm_num) (by decide) (by decide +kernel)

theorem overruns_fortnight : Overruns (rulesInForce ["duration_desc"]) twelveDays lostStart :=
  ⟨[], [], rfl, List.forall_mem_nil _, by decide +kernel, by decide, by decide +kernel⟩

theorem long_durations_reversed : Stored lostStart ∧ Stored twelveDays ∧
    ∃ rows, rank [twelveDays, lostStart] ["duration_desc"] = .ok rows ∧
      ¬ Embedded (rulesInForce ["duration_desc"]) rows := by
  obtain ⟨rows, hrows⟩ := @rank_returns ["duration_desc"] [twelveDays, lostStart] (by decide)
  refine ⟨stored_lostStart, stored_twelveDays, rows, hrows, ?_⟩
  exact not_embedded hrows (by decide) List.mem_cons_self
    (List.mem_cons_of_mem _ List.mem_cons_self) stored_twelveDays stored_lostStart
    overruns_fortnight

theorem keys_embed_on_sample : ∃ rows, rank sampleEntries ["duration_desc"] = .ok rows ∧
    (Embedded (rulesInForce ["duration_desc"]) rows ↔ ∀ e ∈ sampleEntries, ∀ e' ∈ sampleEntries,
      ¬ Overruns (rulesInForce ["duration_desc"]) e e') := by
  refine keys_embed_iff sampleEntries ["duration_desc"] ?_ (by decide)
  unfold sampleEntries
  simp only [List.forall_mem_cons]
  exact ⟨@stored_sampleEntry _ _ 3000 _ (by norm_num) (by decide) (by decide),
    @stored_sampleEntry _ _ 3100 _ (by norm_num) (by decide) (by decide),
    @stored_sampleEntry _ _ 3000 _ (by norm_num) (by decide) (by decide),
    @stored_sampleEntry _ _ 1200 _ (by norm_num) (by decide) (by decide), List.forall_mem_nil _⟩

end IeltsHub.TiebreakKeys
