import IeltsHub.PyText
import Mathlib.Data.List.Forall2
import Mathlib.Tactic.Ring

set_option autoImplicit false

/-!
# The words of a text

What `str.split` finds, and how it goes through `join`, `strip`, case folding and replacement. A
rewrite of characters that keeps white space and what is none acts on each word by itself.
-/
namespace IeltsHub.TextWords
open PyText

def IsWord (w : String) : Prop := w.toList ≠ [] ∧ ∀ c ∈ w.toList, isSpace c = false

/-! ## The scan -/

theorem splitFrom_nonspace {cs : List Char} (h : ∀ c ∈ cs, isSpace c = false)
    (word rest : List Char) :
    splitFrom word (cs ++ rest) = splitFrom (cs.reverse ++ word) rest := by
  induction cs generalizing word with
  | nil => rfl
  | cons c cs ih =>
    have hc := h c List.mem_cons_self
    rw [List.cons_append, splitFrom, hc, if_neg Bool.false_ne_true,
      ih (fun d hd => h d (List.mem_cons_of_mem c hd)), List.reverse_cons, List.append_assoc]
    rfl

theorem splitFrom_append_space {c : Char} (hc : isSpace c = true) (word cs ds : List Char) :
    splitFrom word (cs ++ c :: ds) = splitFrom word cs ++ splitFrom [] ds := by
  induction cs generalizing word with
  | nil =>
    simp only [List.nil_append, splitFrom, if_pos hc]
    cases word with
    | nil => rfl
    | cons d word => rfl
  | cons d cs ih =>
    rw [List.cons_append, splitFrom, splitFrom]
    cases hd : isSpace d with
    | true =>
      rw [if_pos rfl, if_pos rfl, ih]
      cases word with
      | nil => rfl
      | cons e word => rfl
    | false =>
      rw [if_neg Bool.false_ne_true, if_neg Bool.false_ne_true]
      exact ih (d :: word)

theorem splitFrom_spaces {cs : List Char} (h : ∀ c ∈ cs, isSpace c = true) (rest : List Char) :
    splitFrom [] (cs ++ rest) = splitFrom [] rest := by
  induction cs with
  | nil => rfl
  | cons c cs ih =>
    rw [List.cons_append, splitFrom, if_pos (h c List.mem_cons_self)]
    exact ih (fun d hd => h d (List.mem_cons_of_mem c hd))

theorem splitFrom_trailing {cs : List Char} (h : ∀ c ∈ cs, isSpace c = true)
    (word rest : List Char) : splitFrom word (rest ++ cs) = splitFrom word rest := by
  cases cs with
  | nil => rw [List.append_nil]
  | cons c cs =>
    have hnone := splitFrom_spaces (fun d hd => h d (List.mem_cons_of_mem c hd)) []
    rw [List.append_nil] at hnone
    rw [splitFrom_append_space (h c List.mem_cons_self), hnone]
    exact List.append_nil _

theorem splitFrom_words {word cs : List Char} (hword : ∀ c ∈ word, isSpace c = false) :
    ∀ w ∈ splitFrom word cs, w ≠ [] ∧ ∀ c ∈ w, isSpace c = false := by
  have hdone : ∀ w ∈ [word.reverse], ¬ word.isEmpty = true →
      w ≠ [] ∧ ∀ c ∈ w, isSpace c = false := by
    intro w hw hne
    rw [List.mem_singleton.1 hw]
    refine ⟨?_, fun c hc => hword c (List.mem_reverse.1 hc)⟩
    intro hnil
    rw [List.reverse_eq_nil_iff] at hnil
    exact hne (by rw [hnil]; rfl)
  induction cs generalizing word with
  | nil =>
    intro w hw
    rw [splitFrom] at hw
    split at hw
    · cases hw
    · rename_i hne
      exact hdone w hw hne
  | cons c cs ih =>
    intro w hw
    have hnone : ∀ d ∈ ([] : List Char), isSpace d = false := by simp
    have hnil : ∀ w ∈ [([] : List Char).reverse], ¬ ([] : List Char).isEmpty = true →
        w ≠ [] ∧ ∀ c ∈ w, isSpace c = false := fun _ _ h => absurd rfl h
    rw [splitFrom] at hw
    split at hw
    · split at hw
      · exact ih hnone hnil w hw
      · rename_i hne
        rcases List.mem_cons.1 hw with rfl | hw
        · exact hdone _ (List.mem_singleton_self _) hne
        · exact ih hnone hnil w hw
    · rename_i hc
      have hword' : ∀ d ∈ c :: word, isSpace d = false := by
        intro d hd
        rcases List.mem_cons.1 hd with rfl | hd
        · exact Bool.not_eq_true _ ▸ hc
        · exact hword d hd
      refine ih hword' ?_ w hw
      intro u hu _
      rw [List.mem_singleton.1 hu]
      exact ⟨by simp, fun d hd => hword' d (List.mem_reverse.1 hd)⟩

theorem split_words {s w : String} (h : w ∈ split s) : IsWord w := by
  obtain ⟨cs, hcs, rfl⟩ := List.mem_map.1 h
  have hword := @splitFrom_words [] s.toList (by simp) cs hcs
  unfold IsWord
  rw [String.toList_ofList]
  exact hword

theorem split_of_isWord {w : String} (h : IsWord w) : split w = [w] := by
  have hscan := splitFrom_nonspace h.2 [] []
  rw [List.append_nil, List.append_nil, splitFrom] at hscan
  have hne : w.toList.reverse.isEmpty = false := by
    rw [List.isEmpty_eq_false_iff]
    simpa using h.1
  rw [hne, if_neg Bool.false_ne_true, List.reverse_reverse] at hscan
  unfold split
  rw [hscan, List.map_singleton, String.ofList_toList]

theorem flatMap_split_words {ws : List String} (h : ∀ w ∈ ws, IsWord w) :
    ws.flatMap split = ws := by
  induction ws with
  | nil => rfl
  | cons w ws ih =>
    rw [List.flatMap_cons, split_of_isWord (h w List.mem_cons_self),
      ih (fun u hu => h u (List.mem_cons_of_mem w hu))]
    rfl

/-! ## Join -/

theorem intercalate_cons_cons (w u : List Char) (us : List (List Char)) :
    List.intercalate [' '] (w :: u :: us) = w ++ ' ' :: List.intercalate [' '] (u :: us) := by
  simp [List.intercalate, List.intersperse]

theorem splitFrom_intercalate (wss : List (List Char)) :
    splitFrom [] (List.intercalate [' '] wss) = wss.flatMap (splitFrom []) := by
  induction wss with
  | nil => rfl
  | cons w wss ih =>
    cases wss with
    | nil => simp [List.intercalate]
    | cons u us =>
      rw [intercalate_cons_cons, splitFrom_append_space (by rfl), ih]
      rfl

theorem split_join (ws : List String) : split (join " " ws) = ws.flatMap split := by
  have hscan := splitFrom_intercalate (ws.map String.toList)
  unfold split join
  rw [String.toList_ofList]
  change (splitFrom [] (List.intercalate [' '] (ws.map String.toList))).map String.ofList = _
  rw [hscan, List.flatMap_map, List.map_flatMap]

theorem split_join_words {ws : List String} (h : ∀ w ∈ ws, IsWord w) :
    split (join " " ws) = ws := by
  rw [split_join, flatMap_split_words h]

/-! ## Strip -/

theorem all_of_takeWhile {p : Char → Bool} (cs : List Char) :
    ∀ c ∈ cs.takeWhile p, p c = true := fun _ hc => List.mem_takeWhile_imp hc

theorem split_strip (s : String) : split (strip s) = split s := by
  have hback : s.toList.dropWhile isSpace = stripBy isSpace s.toList ++
      ((s.toList.dropWhile isSpace).reverse.takeWhile isSpace).reverse := by
    unfold stripBy
    rw [← List.reverse_append, List.takeWhile_append_dropWhile, List.reverse_reverse]
  have htrail : ∀ c ∈ ((s.toList.dropWhile isSpace).reverse.takeWhile isSpace).reverse,
      isSpace c = true := fun c hc => all_of_takeWhile _ c (List.mem_reverse.1 hc)
  have hscan : splitFrom [] s.toList = splitFrom [] (stripBy isSpace s.toList) := by
    calc splitFrom [] s.toList
        = splitFrom [] (s.toList.takeWhile isSpace ++ s.toList.dropWhile isSpace) := by
          rw [List.takeWhile_append_dropWhile]
      _ = splitFrom [] (s.toList.dropWhile isSpace) := splitFrom_spaces (all_of_takeWhile _) _
      _ = splitFrom [] (stripBy isSpace s.toList ++
          ((s.toList.dropWhile isSpace).reverse.takeWhile isSpace).reverse) := by rw [← hback]
      _ = splitFrom [] (stripBy isSpace s.toList) := splitFrom_trailing htrail [] _
  unfold split strip
  rw [String.toList_ofList, hscan]

/-! ## Rewriting characters -/

/-- A rewrite that keeps white space as it is and turns nothing else into it. -/
structure KeepsSpace (f : Char → List Char) : Prop where
  space : ∀ c, isSpace c = true → f c = [c]
  word : ∀ c, isSpace c = false → f c ≠ [] ∧ ∀ d ∈ f c, isSpace d = false

theorem splitFrom_flatMap {f : Char → List Char} (hf : KeepsSpace f) {cs word : List Char}
    (hword : ∀ c ∈ word, isSpace c = false) :
    splitFrom (word.reverse.flatMap f).reverse (cs.flatMap f) =
      (splitFrom word cs).map (fun w => w.flatMap f) := by
  have hempty : ∀ u : List Char, (∀ c ∈ u, isSpace c = false) →
      ((u.reverse.flatMap f).reverse.isEmpty = u.isEmpty) := by
    intro u hu
    cases u with
    | nil => rfl
    | cons c u =>
      have hne := (hf.word c (hu c List.mem_cons_self)).1
      rw [Bool.eq_iff_iff, List.isEmpty_iff, List.isEmpty_iff]
      simp [hne]
  induction cs generalizing word with
  | nil =>
    rw [List.flatMap_nil, splitFrom, splitFrom, hempty word hword]
    split
    · rfl
    · rw [List.reverse_reverse]
      rfl
  | cons c cs ih =>
    rw [List.flatMap_cons]
    cases hc : isSpace c with
    | true =>
      have hrest := @ih [] (by simp)
      change splitFrom [] (cs.flatMap f) = _ at hrest
      rw [hf.space c hc, List.singleton_append, splitFrom, splitFrom, if_pos hc, if_pos hc,
        hempty word hword, hrest, List.reverse_reverse]
      split
      · rfl
      · rfl
    | false =>
      have hcword := hf.word c hc
      have hword' : ∀ d ∈ c :: word, isSpace d = false := by
        intro d hd
        rcases List.mem_cons.1 hd with rfl | hd
        · exact hc
        · exact hword d hd
      have hrest := ih hword'
      rw [List.reverse_cons, List.flatMap_append, List.flatMap_singleton, List.reverse_append]
        at hrest
      rw [splitFrom_nonspace hcword.2, hrest]
      conv_rhs => rw [splitFrom, hc, if_neg Bool.false_ne_true]

theorem split_flatMap {f : Char → List Char} (hf : KeepsSpace f) (s : String) :
    split (.ofList (s.toList.flatMap f)) =
      (split s).map (fun w => .ofList (w.toList.flatMap f)) := by
  have hscan := @splitFrom_flatMap f hf s.toList [] (by simp)
  unfold split
  rw [String.toList_ofList]
  change splitFrom [] (s.toList.flatMap f) = _ at hscan
  rw [hscan, List.map_map, List.map_map]
  apply List.map_congr_left
  intro w _
  simp

theorem dropWhile_flatMap {f : Char → List Char} (hf : KeepsSpace f) (cs : List Char) :
    (cs.flatMap f).dropWhile isSpace = (cs.dropWhile isSpace).flatMap f := by
  induction cs with
  | nil => rfl
  | cons c cs ih =>
    rw [List.flatMap_cons]
    cases hc : isSpace c with
    | true =>
      rw [hf.space c hc, List.singleton_append, List.dropWhile_cons_of_pos hc,
        List.dropWhile_cons_of_pos hc, ih]
    | false =>
      obtain ⟨hne, hword⟩ := hf.word c hc
      have hstop : ¬ isSpace c = true := by simp [hc]
      rw [List.dropWhile_cons_of_neg hstop, List.flatMap_cons]
      cases hfc : f c with
      | nil => exact absurd hfc hne
      | cons d ds =>
        have hd := hword d (by rw [hfc]; exact List.mem_cons_self)
        rw [List.cons_append, List.dropWhile_cons_of_neg (by simp [hd])]

theorem KeepsSpace.reverse {f : Char → List Char} (hf : KeepsSpace f) :
    KeepsSpace (fun c => (f c).reverse) where
  space := by
    intro c hc
    rw [hf.space c hc]
    rfl
  word := by
    intro c hc
    obtain ⟨hne, hword⟩ := hf.word c hc
    exact ⟨by simpa using hne, fun d hd => hword d (List.mem_reverse.1 hd)⟩

theorem strip_flatMap {f : Char → List Char} (hf : KeepsSpace f) (s : String) :
    strip (.ofList (s.toList.flatMap f)) = .ofList ((strip s).toList.flatMap f) := by
  have hback : ∀ cs : List Char, (cs.flatMap f).reverse =
      cs.reverse.flatMap (fun c => (f c).reverse) := by
    intro cs
    rw [List.reverse_flatMap]
    rfl
  have hforth : ∀ cs : List Char, (cs.flatMap (fun c => (f c).reverse)).reverse =
      cs.reverse.flatMap f := by
    intro cs
    rw [List.reverse_flatMap]
    simp [Function.comp_def]
  unfold strip stripBy
  rw [String.toList_ofList, String.toList_ofList, dropWhile_flatMap hf, hback,
    dropWhile_flatMap hf.reverse, hforth]

/-! ### Case folding -/

def spaceCodes : List ℕ := [0x9, 0xa, 0xb, 0xc, 0xd, 0x1c, 0x1d, 0x1e, 0x1f, 0x20, 0x85, 0xa0,
  0x1680, 0x2000, 0x2001, 0x2002, 0x2003, 0x2004, 0x2005, 0x2006, 0x2007, 0x2008, 0x2009, 0x200a,
  0x2028, 0x2029, 0x202f, 0x205f, 0x3000]

theorem isSpace_ofNat {n : ℕ} (h : n ∉ spaceCodes) : isSpace (Char.ofNat n) = false := by
  rw [Bool.eq_false_iff]
  intro hs
  have hcode := isSpace_codes hs
  by_cases hv : n.isValidChar
  · rw [Char.toNat_ofNat, if_pos hv] at hcode
    exact h hcode
  · rw [Char.toNat_ofNat, if_neg hv] at hcode
    exact absurd hcode (by decide)

theorem foldRuns_images : ∀ r ∈ foldRuns, ∀ s ∈ spaceCodes, s < r.2.2.2 ∨
    r.2.2.2 + (r.2.1 - r.1) < s := by decide +kernel

theorem foldExpansions_images : ∀ e ∈ foldExpansions, e.2 ≠ [] ∧ ∀ n ∈ e.2, n ∉ spaceCodes := by
  decide +kernel

theorem foldChar_spaces : ∀ n ∈ spaceCodes, foldChar (Char.ofNat n) = [Char.ofNat n] := by
  decide +kernel

theorem keepsSpace_foldChar : KeepsSpace foldChar where
  space := by
    intro c hc
    have hfold := foldChar_spaces c.toNat (isSpace_codes hc)
    rw [Char.ofNat_toNat] at hfold
    exact hfold
  word := by
    intro c hc
    unfold foldChar
    dsimp only
    split
    · rename_i hascii
      split
      · rename_i hupper
        refine ⟨by simp, ?_⟩
        intro d hd
        rw [List.mem_singleton.1 hd]
        apply isSpace_ofNat
        simp only [Bool.and_eq_true, decide_eq_true_eq] at hupper
        simp only [spaceCodes, List.mem_cons, List.not_mem_nil, or_false]
        omega
      · exact ⟨by simp, fun d hd => by rw [List.mem_singleton.1 hd]; exact hc⟩
    · split
      · rename_i r hr
        refine ⟨by simp, ?_⟩
        intro d hd
        rw [List.mem_singleton.1 hd]
        apply isSpace_ofNat
        intro hin
        have hbounds := List.find?_some hr
        simp only [Bool.and_eq_true, decide_eq_true_eq] at hbounds
        have himage := foldRuns_images r (List.mem_of_find?_eq_some hr) _ hin
        omega
      · split
        · rename_i e he
          have himages := foldExpansions_images e (List.mem_of_find?_eq_some he)
          constructor
          · simpa using himages.1
          · intro d hd
            obtain ⟨n, hn, rfl⟩ := List.mem_map.1 hd
            exact isSpace_ofNat (himages.2 n hn)
        · exact ⟨by simp, fun d hd => by rw [List.mem_singleton.1 hd]; exact hc⟩

theorem split_casefold (s : String) : split (casefold s) = (split s).map casefold :=
  split_flatMap keepsSpace_foldChar s

theorem strip_casefold (s : String) : strip (casefold s) = casefold (strip s) :=
  strip_flatMap keepsSpace_foldChar s

/-! ### Replacement -/

theorem replaceChar_join {c : Char} {r : String} (hc : c ≠ ' ') (ws : List String) :
    replaceChar c r (join " " ws) = join " " (ws.map (replaceChar c r)) := by
  have hsep : ∀ wss : List (List Char),
      (List.intercalate [' '] wss).flatMap (fun d => if d = c then r.toList else [d]) =
        List.intercalate [' '] (wss.map (fun w => w.flatMap
          (fun d => if d = c then r.toList else [d]))) := by
    intro wss
    induction wss with
    | nil => rfl
    | cons w wss ih =>
      cases wss with
      | nil => simp [List.intercalate]
      | cons u us =>
        rw [intercalate_cons_cons, List.flatMap_append, List.flatMap_cons, ih, if_neg hc.symm]
        simp only [List.map_cons, intercalate_cons_cons]
        rfl
  unfold replaceChar join
  rw [String.toList_ofList]
  change String.ofList ((List.intercalate [' '] (ws.map String.toList)).flatMap _) = _
  rw [hsep, List.map_map, List.map_map]
  congr 2
  apply List.map_congr_left
  intro w _
  simp

end IeltsHub.TextWords
