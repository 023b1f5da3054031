import Mathlib

set_option autoImplicit false

/-!
# Highlights

`exam/highlights.ts`: spans of character offsets into a passage, and the passage cut along them.
Below, the set of offsets a student has painted, which the list of spans stands for.
-/
namespace IeltsHub.Highlights

/-! ## Spans -/

structure Span where
  start : ℤ
  stop : ℤ
  deriving DecidableEq, Repr

def Span.before (a b : Span) : Prop := a.start ≤ b.start

instance Span.decidableBefore : DecidableRel Span.before := fun a b =>
  inferInstanceAs (Decidable (a.start ≤ b.start))

instance Span.totalBefore : Std.Total Span.before := ⟨fun a b => le_total a.start b.start⟩

instance Span.transBefore : IsTrans Span Span.before := ⟨fun _ _ _ => le_trans⟩

/-- The loop of `add`, over the spans kept and the one that grows. -/
def absorb (acc : List Span × Span) (existing : Span) : List Span × Span :=
  if existing.stop < acc.2.start ∨ acc.2.stop < existing.start then
    (acc.1 ++ [existing], acc.2)
  else (acc.1, {
    start := min acc.2.start existing.start
    stop := max acc.2.stop existing.stop })

def add (spans : List Span) (span : Span) : List Span :=
  let start := min span.start span.stop
  let stop := max span.start span.stop
  if stop ≤ start then spans
  else
    let acc := (spans.insertionSort Span.before).foldl absorb ([], ⟨start, stop⟩)
    (acc.1 ++ [acc.2]).insertionSort Span.before

def removeAt (spans : List Span) (offset : ℤ) : List Span :=
  spans.filter (fun s => offset < s.start ∨ s.stop ≤ offset)

def spanAt (spans : List Span) (offset : ℤ) : Option Span :=
  spans.find? (fun s => s.start ≤ offset ∧ offset < s.stop)

/-! ## Segments -/

abbrev Units := List UInt16

structure Segment where
  text : Units
  highlighted : Bool
  start : ℤ
  deriving DecidableEq, Repr

/-- Where `slice` takes an index to be; one below zero counts from the end. -/
def sliceIndex (length : ℕ) (i : ℤ) : ℕ :=
  if i < 0 then ((length : ℤ) + i).toNat else min i.toNat length

def slice (text : Units) (start stop : ℤ) : Units :=
  (text.drop (sliceIndex text.length start)).take
    (sliceIndex text.length stop - sliceIndex text.length start)

/-- `Math.max(0, Math.min(i, text.length))`. -/
def clamp (text : Units) (i : ℤ) : ℤ := max 0 (min i text.length)

/-- The loop of `segments`, over the segments so far and the cursor. -/
def cut (text : Units) (acc : List Segment × ℤ) (span : Span) : List Segment × ℤ :=
  let start := clamp text span.start
  let stop := clamp text span.stop
  if stop ≤ acc.2 then acc
  else
    let out := if acc.2 < start then acc.1 ++ [⟨slice text acc.2 start, false, acc.2⟩] else acc.1
    (out ++ [⟨slice text (max acc.2 start) stop, true, max acc.2 start⟩], stop)

def segments (text : Units) (spans : List Span) : List Segment :=
  let acc := (spans.insertionSort Span.before).foldl (cut text) ([], 0)
  let out := if acc.2 < text.length then
      acc.1 ++ [⟨slice text acc.2 text.length, false, acc.2⟩]
    else acc.1
  if out = [] then [⟨text, false, 0⟩] else out

/-! ## What a student has painted -/

inductive Op where
  | add (span : Span)
  | removeAt (offset : ℤ)

def apply (spans : List Span) : Op → List Span
  | .add span => Highlights.add spans span
  | .removeAt offset => Highlights.removeAt spans offset

/-- A stroke adds its offsets, in whichever direction it is drawn; a click takes away the
unbroken stretch around it. -/
def paint (painted : Set ℤ) : Op → Set ℤ
  | .add span => painted ∪ Set.Ico (min span.start span.stop) (max span.start span.stop)
  | .removeAt offset => painted \ painted.ordConnectedComponent offset

def covered (spans : List Span) : Set ℤ := {i | ∃ s ∈ spans, s.start ≤ i ∧ i < s.stop}

/-- In order, each with something in it, and a gap before the next. -/
structure Normal (spans : List Span) : Prop where
  nonempty : ∀ s ∈ spans, s.start < s.stop
  apart : spans.Pairwise (fun a b => a.stop < b.start)

def joined (out : List Segment) : Units := out.flatMap Segment.text

/-- The text up to the cursor in pieces, each with its offset and each on one side of the set. -/
structure Cuts (text : Units) (painted : Set ℤ) (out : List Segment) (cursor : ℤ) : Prop where
  joins : joined out = text.take cursor.toNat
  starts : ∀ k seg, out[k]? = some seg → seg.start = ((joined (out.take k)).length : ℤ)
  marks : ∀ seg ∈ out, ∀ i, seg.start ≤ i → i < seg.start + seg.text.length →
    (seg.highlighted = true ↔ i ∈ painted)

section
variable {spans rest kept : List Span} {pending span s t : Span} {offset i : ℤ}

/-! ## The merge -/

def Far (a b : Span) : Prop := a.stop < b.start ∨ b.stop < a.start

theorem Far.symm (h : Far s t) : Far t s := Or.symm h

instance symmFar : Std.Symm Far := ⟨fun _ _ => Far.symm⟩

theorem Normal.far (h : Normal spans) (hs : s ∈ spans) (ht : t ∈ spans) (hne : s ≠ t) :
    Far s t := by
  have hpairs : spans.Pairwise Far := h.apart.imp .inl
  exact hpairs.forall hs ht hne

theorem Normal.sorted (h : Normal spans) : spans.Pairwise Span.before := by
  refine h.apart.imp_of_mem (fun {a b} ha _ hab => ?_)
  have hpos := h.nonempty a ha
  change a.start ≤ b.start
  omega

theorem normal_insertionSort (hne : ∀ s ∈ spans, s.start < s.stop) (hfar : spans.Pairwise Far) :
    Normal (spans.insertionSort Span.before) := by
  have hperm := List.perm_insertionSort Span.before spans
  have hne' : ∀ s ∈ spans.insertionSort Span.before, s.start < s.stop := fun s hs =>
    hne s (hperm.mem_iff.1 hs)
  have hfar' : (spans.insertionSort Span.before).Pairwise Far :=
    (hperm.pairwise_iff Far.symm).2 hfar
  refine ⟨hne', ?_⟩
  refine ((List.pairwise_insertionSort Span.before spans).and hfar').imp_of_mem ?_
  rintro a b ha hb ⟨hle, hab⟩
  have ha' := hne' a ha
  have hb' := hne' b hb
  change a.start ≤ b.start at hle
  obtain h | h := hab <;> omega

/-- What is kept lies apart from what grows and before what is still to come. -/
structure Merging (kept : List Span) (pending : Span) (rest : List Span) : Prop where
  pos : pending.start < pending.stop
  normal : Normal (kept ++ rest)
  far : ∀ s ∈ kept, Far s pending

theorem Merging.absorb (h : Merging kept pending (s :: rest)) :
    Merging (absorb (kept, pending) s).1 (absorb (kept, pending) s).2 rest := by
  obtain ⟨hpos, hnormal, hfar⟩ := h
  have hs : s.start < s.stop := hnormal.nonempty s (by simp)
  unfold Highlights.absorb
  dsimp only
  split
  · rename_i hgap
    refine ⟨hpos, by rwa [List.append_assoc], fun t ht => ?_⟩
    obtain ht | ht := List.mem_append.1 ht
    · exact hfar t ht
    · rw [List.mem_singleton.1 ht]
      exact hgap
  · rename_i hmeet
    rw [not_or, not_lt, not_lt] at hmeet
    have hsub : (kept ++ rest).Sublist (kept ++ s :: rest) :=
      List.Sublist.append_left (List.sublist_cons_self s rest) kept
    refine ⟨?_, ⟨fun t ht => hnormal.nonempty t (hsub.subset ht), hnormal.apart.sublist hsub⟩, ?_⟩
    · change min pending.start s.start < max pending.stop s.stop
      omega
    · intro t ht
      have hbefore : t.stop < s.start :=
        (List.pairwise_append.1 hnormal.apart).2.2 t ht s List.mem_cons_self
      have ht' := hnormal.nonempty t (List.mem_append_left _ ht)
      have hside := hfar t ht
      unfold Far at hside ⊢
      dsimp only
      omega

theorem merging_foldl (h : Merging kept pending rest) :
    Merging (rest.foldl Highlights.absorb (kept, pending)).1
      (rest.foldl Highlights.absorb (kept, pending)).2 [] := by
  induction rest generalizing kept pending with
  | nil => exact h
  | cons s rest ih => exact ih h.absorb

theorem covered_append (a b : List Span) : covered (a ++ b) = covered a ∪ covered b := by
  ext i
  simp only [covered, List.mem_append, Set.mem_ofPred_eq, Set.mem_union, or_and_right, exists_or]

theorem covered_singleton (s : Span) : covered [s] = Set.Ico s.start s.stop := by
  ext i
  simp [covered]

theorem covered_cons (s : Span) (rest : List Span) :
    covered (s :: rest) = Set.Ico s.start s.stop ∪ covered rest := by
  rw [← covered_singleton, ← covered_append]
  rfl

theorem covered_perm {a b : List Span} (h : a.Perm b) : covered a = covered b := by
  ext i
  simp only [covered, h.mem_iff, Set.mem_ofPred_eq]

theorem covered_absorb (_hpos : pending.start < pending.stop) (_hs : s.start < s.stop) :
    covered ((absorb (kept, pending) s).1 ++ [(absorb (kept, pending) s).2]) =
      covered (kept ++ [pending]) ∪ Set.Ico s.start s.stop := by
  unfold absorb
  dsimp only
  split
  · rw [covered_append, covered_append, covered_append, covered_singleton, covered_singleton,
      Set.union_right_comm]
  · rename_i hmeet
    rw [not_or, not_lt, not_lt] at hmeet
    rw [covered_append, covered_append, covered_singleton, covered_singleton, Set.union_assoc]
    congr 1
    ext i
    simp only [Set.mem_Ico, Set.mem_union]
    omega

theorem covered_foldl (h : Merging kept pending rest) :
    covered ((rest.foldl absorb (kept, pending)).1 ++ [(rest.foldl absorb (kept, pending)).2]) =
      covered (kept ++ [pending]) ∪ covered rest := by
  induction rest generalizing kept pending with
  | nil =>
    have hnone : covered [] = ∅ := by simp [covered]
    rw [hnone, Set.union_empty]
    rfl
  | cons s rest ih =>
    have hs : s.start < s.stop := h.normal.nonempty s (by simp)
    rw [List.foldl_cons, ih h.absorb, covered_absorb h.pos hs, covered_cons, Set.union_assoc]

/-! ## The operations -/

theorem Normal.add (h : Normal spans) (span : Span) : Normal (add spans span) := by
  unfold Highlights.add
  dsimp only
  split
  · exact h
  · rename_i hpos
    rw [h.sorted.insertionSort_eq]
    have hstart : Merging [] ⟨min span.start span.stop, max span.start span.stop⟩ spans :=
      ⟨not_le.1 hpos, h, fun _ hs => absurd hs List.not_mem_nil⟩
    obtain ⟨hgrown, hkept, hfar⟩ := merging_foldl hstart
    rw [List.append_nil] at hkept
    refine normal_insertionSort (fun s hs => ?_) ?_
    · obtain hs | hs := List.mem_append.1 hs
      · exact hkept.nonempty s hs
      · rw [List.mem_singleton.1 hs]
        exact hgrown
    · refine List.pairwise_append.2 ⟨hkept.apart.imp .inl, List.pairwise_singleton _ _, ?_⟩
      intro s hs t ht
      rw [List.mem_singleton.1 ht]
      exact hfar s hs

theorem covered_add (h : Normal spans) (span : Span) :
    covered (add spans span) = paint (covered spans) (.add span) := by
  unfold Highlights.add paint
  dsimp only
  split
  · rename_i hempty
    rw [Set.Ico_eq_empty (not_lt.2 hempty), Set.union_empty]
  · rename_i hpos
    rw [h.sorted.insertionSort_eq]
    have hstart : Merging [] ⟨min span.start span.stop, max span.start span.stop⟩ spans :=
      ⟨not_le.1 hpos, h, fun _ hs => absurd hs List.not_mem_nil⟩
    rw [covered_perm (List.perm_insertionSort _ _), covered_foldl hstart, List.nil_append,
      covered_singleton, Set.union_comm]

theorem Normal.removeAt (h : Normal spans) (offset : ℤ) : Normal (removeAt spans offset) :=
  ⟨fun s hs => h.nonempty s (List.mem_of_mem_filter hs), h.apart.filter _⟩

theorem Normal.component (h : Normal spans) : i ∈ (covered spans).ordConnectedComponent offset ↔
    ∃ s ∈ spans, (s.start ≤ offset ∧ offset < s.stop) ∧ s.start ≤ i ∧ i < s.stop := by
  rw [Set.mem_ordConnectedComponent]
  constructor
  · intro hall
    obtain ⟨s, hs, hoffset⟩ := hall Set.left_mem_uIcc
    refine ⟨s, hs, hoffset, ?_, ?_⟩
    · by_contra hleft
      have hedge : s.start - 1 ∈ Set.uIcc offset i := Set.mem_uIcc.2 (by omega)
      obtain ⟨t, ht, hin⟩ := hall hedge
      have hne : s ≠ t := by
        rintro rfl
        omega
      have hfar := h.far hs ht hne
      unfold Far at hfar
      omega
    · by_contra hright
      have hedge : s.stop ∈ Set.uIcc offset i := Set.mem_uIcc.2 (by omega)
      obtain ⟨t, ht, hin⟩ := hall hedge
      have hne : s ≠ t := by
        rintro rfl
        omega
      have hfar := h.far hs ht hne
      unfold Far at hfar
      omega
  · rintro ⟨s, hs, hoffset, hi⟩ j hj
    have hbetween := Set.mem_uIcc.1 hj
    exact ⟨s, hs, by omega, by omega⟩

theorem covered_removeAt (h : Normal spans) (offset : ℤ) :
    covered (removeAt spans offset) = paint (covered spans) (.removeAt offset) := by
  ext i
  unfold paint
  dsimp only
  rw [Set.mem_sdiff, h.component]
  constructor
  · rintro ⟨s, hs, hi⟩
    obtain ⟨hs, hout⟩ := List.mem_filter.1 hs
    have hout' := of_decide_eq_true hout
    refine ⟨⟨s, hs, hi⟩, ?_⟩
    rintro ⟨t, ht, hoffset, hi'⟩
    have hne : s ≠ t := by
      rintro rfl
      omega
    have hfar := h.far hs ht hne
    unfold Far at hfar
    omega
  · rintro ⟨⟨s, hs, hi⟩, hout⟩
    refine ⟨s, List.mem_filter.2 ⟨hs, decide_eq_true ?_⟩, hi⟩
    by_contra hin
    exact hout ⟨s, hs, by omega, hi⟩

theorem normal_apply (h : Normal spans) (op : Op) : Normal (apply spans op) := by
  cases op with
  | add span => exact h.add span
  | removeAt offset => exact h.removeAt offset

theorem covered_apply (h : Normal spans) (op : Op) :
    covered (apply spans op) = paint (covered spans) op := by
  cases op with
  | add span => exact covered_add h span
  | removeAt offset => exact covered_removeAt h offset

theorem normal_run (h : Normal spans) (ops : List Op) : Normal (ops.foldl apply spans) := by
  induction ops generalizing spans with
  | nil => exact h
  | cons op ops ih => exact ih (normal_apply h op)

theorem covered_run (h : Normal spans) (ops : List Op) :
    covered (ops.foldl apply spans) = ops.foldl paint (covered spans) := by
  induction ops generalizing spans with
  | nil => rfl
  | cons op ops ih => rw [List.foldl_cons, List.foldl_cons, ih (normal_apply h op),
      covered_apply h op]

/-! ## The cut -/

variable {text : Units} {painted : Set ℤ} {out : List Segment} {cursor start stop : ℤ}

theorem joined_append (a b : List Segment) : joined (a ++ b) = joined a ++ joined b :=
  List.flatMap_append

theorem sliceIndex_of_le {length : ℕ} (hnn : 0 ≤ i) (hle : i ≤ length) :
    sliceIndex length i = i.toNat := by
  unfold sliceIndex
  rw [if_neg (not_lt.2 hnn)]
  omega

theorem take_slice (hnn : 0 ≤ start) (hle : start ≤ stop) (hlen : stop ≤ text.length) :
    text.take start.toNat ++ slice text start stop = text.take stop.toNat := by
  have hsplit : stop.toNat = start.toNat + (stop.toNat - start.toNat) := by omega
  unfold slice
  rw [sliceIndex_of_le hnn (hle.trans hlen), sliceIndex_of_le (hnn.trans hle) hlen]
  conv_rhs => rw [hsplit]
  exact List.take_add.symm

theorem length_slice (hnn : 0 ≤ start) (hle : start ≤ stop) (hlen : stop ≤ text.length) :
    ((slice text start stop).length : ℤ) = stop - start := by
  unfold slice
  rw [sliceIndex_of_le hnn (hle.trans hlen), sliceIndex_of_le (hnn.trans hle) hlen,
    List.length_take, List.length_drop]
  omega

theorem Cuts.push (h : Cuts text painted out cursor) {highlighted : Bool} (hnn : 0 ≤ cursor)
    (hle : cursor ≤ stop) (hlen : stop ≤ text.length)
    (hside : ∀ i, cursor ≤ i → i < stop → (highlighted = true ↔ i ∈ painted)) :
    Cuts text painted (out ++ [⟨slice text cursor stop, highlighted, cursor⟩]) stop := by
  refine ⟨?_, fun k seg hk => ?_, fun seg hseg i hfrom hto => ?_⟩
  · rw [joined_append, h.joins, ← take_slice hnn hle hlen]
    exact congrArg (text.take cursor.toNat ++ ·) (List.append_nil _)
  · by_cases hlt : k < out.length
    · rw [List.getElem?_append_left hlt] at hk
      rw [List.take_append_of_le_length hlt.le]
      exact h.starts k seg hk
    · have hge := not_lt.1 hlt
      rw [List.getElem?_append_right hge, List.getElem?_singleton] at hk
      split at hk
      · rename_i hzero
        have hlast : k = out.length := by omega
        cases hk
        change cursor = _
        rw [hlast, List.take_left, h.joins, List.length_take]
        omega
      · cases hk
  · obtain hseg | hseg := List.mem_append.1 hseg
    · exact h.marks seg hseg i hfrom hto
    · rw [List.mem_singleton.1 hseg] at hfrom hto ⊢
      dsimp only at hfrom hto ⊢
      rw [length_slice hnn hle hlen] at hto
      exact hside i hfrom (by omega)

/-- The cursor has passed every span that went before. -/
structure Cutting (text : Units) (painted : Set ℤ) (acc : List Segment × ℤ) (rest : List Span) :
    Prop where
  nonneg : 0 ≤ acc.2
  bound : acc.2 ≤ text.length
  cuts : Cuts text painted acc.1 acc.2
  ahead : ∀ i, acc.2 ≤ i → i < text.length → (i ∈ painted ↔ i ∈ covered rest)

theorem clamp_bounds (text : Units) (i : ℤ) : 0 ≤ clamp text i ∧ clamp text i ≤ text.length := by
  unfold clamp
  omega

theorem lt_clamp {j : ℤ} (hnn : 0 ≤ i) (hlen : i < text.length) : i < clamp text j ↔ i < j := by
  unfold clamp
  omega

theorem Cutting.cut {acc : List Segment × ℤ} (h : Cutting text painted acc (s :: rest))
    (hs : s.start ≤ s.stop) (hsorted : (s :: rest).Pairwise Span.before) :
    Cutting text painted (cut text acc s) rest := by
  obtain ⟨hnn, hbound, hcuts, hahead⟩ := h
  have hstart := clamp_bounds text s.start
  have hstop := clamp_bounds text s.stop
  have hmono : clamp text s.start ≤ clamp text s.stop := by
    unfold clamp
    omega
  have hin : ∀ i, acc.2 ≤ i → i < text.length →
      (i ∈ painted ↔ (s.start ≤ i ∧ i < s.stop) ∨ i ∈ covered rest) := fun i hi hlen => by
    rw [hahead i hi hlen, covered_cons]
    rfl
  have hlater : ∀ i, i < s.start → i ∉ covered rest := by
    rintro i hi ⟨t, ht, hle, -⟩
    have hst : s.start ≤ t.start := (List.pairwise_cons.1 hsorted).1 t ht
    omega
  unfold Highlights.cut
  dsimp only
  split
  · rename_i hbehind
    refine ⟨hnn, hbound, hcuts, fun i hi hlen => ?_⟩
    have hpast := lt_clamp (j := s.stop) (hnn.trans hi) hlen
    rw [hin i hi hlen]
    exact or_iff_right (by omega)
  · rename_i hreach
    rw [not_le] at hreach
    have hplain : Cuts text painted (if acc.2 < clamp text s.start then
        acc.1 ++ [⟨slice text acc.2 (clamp text s.start), false, acc.2⟩] else acc.1)
        (max acc.2 (clamp text s.start)) := by
      split
      · rename_i hgap
        rw [max_eq_right hgap.le]
        refine hcuts.push hnn hgap.le hstart.2 (fun i hi hlt => ?_)
        have hlen : i < text.length := by omega
        have hbefore := (lt_clamp (hnn.trans hi) hlen).1 hlt
        rw [hin i hi hlen]
        exact iff_of_false Bool.false_ne_true
          (not_or.2 ⟨by omega, hlater i hbefore⟩)
      · rename_i hgap
        rw [max_eq_left (not_lt.1 hgap)]
        exact hcuts
    refine ⟨hstop.1, hstop.2, hplain.push (by omega) (by omega) hstop.2 (fun i hi hlt => ?_),
      fun i hi hlen => ?_⟩
    · have hlen : i < text.length := by omega
      have hfrom := lt_clamp (j := s.start) (by omega) hlen
      have hto := (lt_clamp (by omega) hlen).1 hlt
      rw [hin i (by omega) hlen]
      exact iff_of_true rfl (.inl ⟨by omega, hto⟩)
    · dsimp only at hi
      have hpast := lt_clamp (j := s.stop) (hstop.1.trans hi) hlen
      rw [hin i (by omega) hlen]
      exact or_iff_right (by omega)

theorem cutting_foldl {acc : List Segment × ℤ} (h : Cutting text painted acc rest)
    (hrest : ∀ s ∈ rest, s.start ≤ s.stop) (hsorted : rest.Pairwise Span.before) :
    Cutting text painted (rest.foldl (Highlights.cut text) acc) [] := by
  induction rest generalizing acc with
  | nil => exact h
  | cons s rest ih =>
    exact ih (h.cut (hrest s List.mem_cons_self) hsorted)
      (fun t ht => hrest t (List.mem_cons_of_mem _ ht)) hsorted.of_cons

theorem Cuts.orPlain (h : Cuts text painted out text.length) :
    Cuts text painted (if out = [] then [⟨text, false, 0⟩] else out) text.length := by
  split
  · rename_i hempty
    have htext : text = [] := by
      have hjoins := h.joins
      rw [hempty, Int.toNat_natCast, List.take_length] at hjoins
      exact hjoins.symm
    subst htext
    refine ⟨rfl, fun k seg hk => ?_, fun seg hseg i hfrom hto => ?_⟩
    · rw [List.getElem?_singleton] at hk
      split at hk
      · rename_i hzero
        cases hk
        rw [hzero]
        rfl
      · cases hk
    · rw [List.mem_singleton.1 hseg] at hfrom hto
      change (0 : ℤ) ≤ i at hfrom
      change i < 0 + 0 at hto
      omega
  · exact h

theorem cuts_segments (hspans : ∀ s ∈ spans, s.start ≤ s.stop) (text : Units) :
    Cuts text (covered spans) (segments text spans) text.length := by
  have hperm := List.perm_insertionSort Span.before spans
  have hnil : Cuts text (covered spans) [] 0 :=
    ⟨rfl, fun _ _ hk => (by cases hk), fun _ hseg => absurd hseg List.not_mem_nil⟩
  have hstart : Cutting text (covered spans) ([], 0) (spans.insertionSort Span.before) :=
    ⟨le_rfl, Int.natCast_nonneg _, hnil, fun _ _ _ => by rw [covered_perm hperm]⟩
  obtain ⟨hnn, hbound, hcuts, hahead⟩ := cutting_foldl hstart
    (fun s hs => hspans s (hperm.mem_iff.1 hs)) (List.pairwise_insertionSort _ _)
  have hplain : ∀ i, i ∉ covered [] := by simp [covered]
  unfold segments
  generalize (spans.insertionSort Span.before).foldl (cut text) ([], 0) = acc at *
  dsimp only
  have hall : Cuts text (covered spans) (if acc.2 < text.length then
      acc.1 ++ [⟨slice text acc.2 text.length, false, acc.2⟩] else acc.1) text.length := by
    split
    · rename_i hleft
      refine hcuts.push hnn hleft.le le_rfl (fun i hi hlt => ?_)
      rw [hahead i hi hlt]
      exact iff_of_false Bool.false_ne_true (hplain i)
    · rename_i hdone
      rwa [show acc.2 = text.length by omega] at hcuts
  exact hall.orPlain

/-! ## Every sitting -/

/-- After any strokes and clicks the list is in order, stands for what has been painted, and cuts
any text accordingly. -/
theorem highlights_sound (ops : List Op) :
    Normal (ops.foldl apply []) ∧
    covered (ops.foldl apply []) = ops.foldl paint ∅ ∧
    ∀ text, joined (segments text (ops.foldl apply [])) = text ∧
      (∀ k seg, (segments text (ops.foldl apply []))[k]? = some seg →
        seg.start = ((joined ((segments text (ops.foldl apply [])).take k)).length : ℤ)) ∧
      ∀ seg ∈ segments text (ops.foldl apply []), ∀ i, seg.start ≤ i →
        i < seg.start + seg.text.length →
          (seg.highlighted = true ↔ i ∈ covered (ops.foldl apply [])) := by
  have hnil : Normal [] := ⟨fun _ hs => absurd hs List.not_mem_nil, .nil⟩
  have hnone : covered [] = ∅ := by simp [covered]
  have hnormal := normal_run hnil ops
  refine ⟨hnormal, hnone ▸ covered_run hnil ops, fun text => ?_⟩
  have hcuts := cuts_segments (fun s hs => (hnormal.nonempty s hs).le) text
  refine ⟨?_, hcuts.starts, hcuts.marks⟩
  rw [hcuts.joins, Int.toNat_natCast, List.take_length]

end

end IeltsHub.Highlights
