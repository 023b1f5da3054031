import IeltsHub.KeyEditor

set_option autoImplicit false

/-!
# Alternatives as one text

What `splitAlternatives` makes of what `joinAlternatives` wrote, and what is left of answers that
are trimmed as one.
-/
namespace IeltsHub.AnswerTexts
open PyText MarkerText KeyEditor

variable {c : Char} {cs ws : List Char} {xs : List (List Char)}

/-! ## Texts -/

/-- An answer that the editor leaves as it is. -/
structure Plain (cs : List Char) : Prop where
  whole : ∀ c ∈ cs, isSeparator c = false
  trimmed : trim cs = cs
  some : cs ≠ []

theorem trim_space (hws : ws.all isJsSpace = true) (cs : List Char) :
    trim (ws ++ cs) = trim cs := by
  unfold trim stripBy
  rw [dropWhile_all hws]

theorem trim_append_space (hws : ws.all isJsSpace = true) (cs : List Char) :
    trim (cs ++ ws) = trim cs := by
  have hrev : ws.reverse.all isJsSpace = true := by rwa [List.all_reverse]
  unfold trim stripBy
  rw [List.dropWhile_append]
  split
  · next hempty =>
    have hempty := List.isEmpty_iff.1 hempty
    have hall : ws.dropWhile isJsSpace = [] := by
      have hall := dropWhile_all hws []
      rwa [List.append_nil] at hall
    rw [hall, hempty]
  · rw [List.reverse_append, dropWhile_all hrev]

theorem trim_trim (cs : List Char) : trim (trim cs) = trim cs := by
  have hfirst : (List.rdropWhile isJsSpace (cs.dropWhile isJsSpace)).dropWhile isJsSpace =
      List.rdropWhile isJsSpace (cs.dropWhile isJsSpace) := by
    rw [List.dropWhile_eq_self_iff]
    intro hlength
    have hstart := List.rdropWhile_prefix isJsSpace (cs.dropWhile isJsSpace)
    rw [hstart.getElem hlength]
    have hlength : 0 < (cs.dropWhile isJsSpace).length := hlength.trans_le hstart.length_le
    exact List.dropWhile_eq_self_iff.1 (List.dropWhile_idempotent isJsSpace cs) hlength
  change List.rdropWhile isJsSpace ((List.rdropWhile isJsSpace
    (cs.dropWhile isJsSpace)).dropWhile isJsSpace) = _
  rw [hfirst, List.rdropWhile_idempotent]
  rfl

theorem mem_of_mem_trim (h : c ∈ trim cs) : c ∈ cs := mem_of_mem_stripBy h

theorem not_separator_of_space (h : isJsSpace c = true) : isSeparator c = false := by
  unfold isSeparator
  by_contra hne
  have hne := of_decide_eq_true (eq_true_of_ne_false hne)
  rcases hne with rfl | rfl <;> exact absurd h (by decide)

theorem splitAlternatives_of_pieces {qs : List Char}
    (h : (cs.splitOnP isSeparator).map trim = (qs.splitOnP isSeparator).map trim) :
    splitAlternatives cs = splitAlternatives qs := by
  unfold splitAlternatives
  rw [h]

theorem pieces_space (h : isJsSpace c = true) (cs : List Char) :
    ((c :: cs).splitOnP isSeparator).map trim = (cs.splitOnP isSeparator).map trim := by
  rw [List.splitOnP_cons_eq_if_modifyHead, not_separator_of_space h, if_neg Bool.false_ne_true]
  obtain ⟨piece, pieces, hpieces⟩ :=
    List.exists_cons_of_ne_nil (List.splitOnP_ne_nil isSeparator cs)
  have htrim : trim ([c] ++ piece) = trim piece := trim_space (by simpa using h) piece
  rw [hpieces, List.modifyHead_cons, List.map_cons, List.map_cons]
  exact congrArg (· :: pieces.map trim) htrim

theorem pieces_append_space (h : isJsSpace c = true) (cs : List Char) :
    ∃ init last, cs.splitOnP isSeparator = init ++ [last] ∧
      (cs ++ [c]).splitOnP isSeparator = init ++ [last ++ [c]] := by
  induction cs with
  | nil =>
    refine ⟨[], [], List.splitOnP_nil, List.splitOnP_eq_singleton (fun x hx => ?_)⟩
    rw [List.mem_singleton.1 hx]
    exact not_separator_of_space h
  | cons x cs ih =>
    obtain ⟨init, last, hcs, happend⟩ := ih
    rw [List.cons_append, List.splitOnP_cons_eq_if_modifyHead,
      List.splitOnP_cons_eq_if_modifyHead, hcs, happend]
    split
    · exact ⟨[] :: init, last, rfl, rfl⟩
    · cases init with
      | nil => exact ⟨[], x :: last, rfl, rfl⟩
      | cons piece init => exact ⟨(x :: piece) :: init, last, rfl, rfl⟩

theorem split_space (hws : ws.all isJsSpace = true) (cs : List Char) :
    splitAlternatives (ws ++ cs) = splitAlternatives cs := by
  induction ws with
  | nil => rfl
  | cons c ws ih =>
    rw [List.all_cons, Bool.and_eq_true] at hws
    rw [List.cons_append, splitAlternatives_of_pieces (pieces_space hws.1 _), ih hws.2]

theorem split_append_space (hws : ws.all isJsSpace = true) (cs : List Char) :
    splitAlternatives (cs ++ ws) = splitAlternatives cs := by
  induction ws generalizing cs with
  | nil => rw [List.append_nil]
  | cons c ws ih =>
    rw [List.all_cons, Bool.and_eq_true] at hws
    obtain ⟨init, last, hcs, happend⟩ := pieces_append_space hws.1 cs
    have hlast : trim (last ++ [c]) = trim last := trim_append_space (by simpa using hws.1) last
    have hone : splitAlternatives (cs ++ [c]) = splitAlternatives cs := by
      refine splitAlternatives_of_pieces ?_
      rw [hcs, happend, List.map_append, List.map_append, List.map_singleton, hlast]
      rfl
    rw [List.append_cons, ih hws.2, hone]

theorem split_trim (cs : List Char) : splitAlternatives (trim cs) = splitAlternatives cs := by
  obtain ⟨ws, ws', hws, hws', htrim⟩ := exists_trim cs
  conv_rhs => rw [htrim, split_space hws, split_append_space hws']

theorem split_separated (hc : isSeparator c = true) (cs rest : List Char) :
    splitAlternatives (cs ++ c :: rest) = splitAlternatives cs ++ splitAlternatives rest := by
  unfold splitAlternatives
  rw [List.splitOnP_append_cons cs rest hc, List.map_append, List.filter_append]

theorem split_joined (xs : List (List Char)) :
    splitAlternatives (joinAlternatives xs) = xs.flatMap splitAlternatives := by
  unfold joinAlternatives
  induction xs with
  | nil => rfl
  | cons x xs ih =>
    cases xs with
    | nil => rw [List.intercalate_singleton, List.flatMap_singleton]
    | cons y xs =>
      have hsep : x ++ " | ".toList ++ " | ".toList.intercalate (y :: xs) =
          (x ++ [' ']) ++ '|' :: ([' '] ++ " | ".toList.intercalate (y :: xs)) := by
        change x ++ [' ', '|', ' '] ++ _ = _
        simp
      rw [List.intercalate_cons_cons, hsep, split_separated (by decide),
        split_append_space (by decide), split_space (by decide), ih, ← List.flatMap_cons]

theorem split_plain (h : Plain cs) : splitAlternatives cs = [cs] := by
  unfold splitAlternatives
  rw [List.splitOnP_eq_singleton h.whole, List.map_singleton, h.trimmed, List.filter_cons,
    if_pos (decide_eq_true h.some), List.filter_nil]

theorem not_mem_piece {p : Char → Bool} {piece : List Char} (h : piece ∈ cs.splitOnP p) :
    ∀ c ∈ piece, p c = false := by
  induction cs generalizing piece with
  | nil =>
    rw [List.splitOnP_nil, List.mem_singleton] at h
    subst h
    simp
  | cons x cs ih =>
    rw [List.splitOnP_cons_eq_if_modifyHead] at h
    split at h
    · rcases List.mem_cons.1 h with rfl | h
      · simp
      · exact ih h
    · next hx =>
      obtain ⟨first, pieces, hpieces⟩ := List.exists_cons_of_ne_nil (List.splitOnP_ne_nil p cs)
      rw [hpieces] at h ih
      rcases List.mem_cons.1 h with rfl | h
      · intro c hc
        rcases List.mem_cons.1 hc with rfl | hc
        · exact eq_false_of_ne_true hx
        · exact ih List.mem_cons_self c hc
      · exact ih (List.mem_cons_of_mem _ h)

theorem plain_of_mem_split (h : cs ∈ splitAlternatives ws) : Plain cs := by
  obtain ⟨hmem, hne⟩ := List.mem_filter.1 h
  obtain ⟨piece, hpiece, rfl⟩ := List.mem_map.1 hmem
  exact ⟨fun c hc => not_mem_piece hpiece c (mem_of_mem_trim hc), trim_trim piece,
    of_decide_eq_true hne⟩

theorem flatMap_plain (h : ∀ x ∈ xs, Plain x) : xs.flatMap splitAlternatives = xs := by
  induction xs with
  | nil => rfl
  | cons x xs ih =>
    rw [List.flatMap_cons, split_plain (h x List.mem_cons_self),
      ih (fun y hy => h y (List.mem_cons_of_mem _ hy))]
    rfl

theorem typed_iff : (∀ x, x ∈ xs ↔ x ∈ splitAlternatives (trim (joinAlternatives xs))) ↔
    ∀ x ∈ xs, Plain x := by
  rw [split_trim]
  constructor
  · exact fun h x hx => plain_of_mem_split ((h x).1 hx)
  · intro h x
    rw [split_joined, flatMap_plain h]

/-! ### One answer for several -/

theorem count_trim (hc : isJsSpace c = false) (cs : List Char) :
    (trim cs).count c = cs.count c := by
  have hspace : ∀ ws : List Char, ws.all isJsSpace = true → ws.count c = 0 := by
    intro ws hws
    refine List.count_eq_zero.2 (fun hmem => ?_)
    rw [List.all_eq_true.1 hws c hmem] at hc
    cases hc
  obtain ⟨ws, ws', hws, hws', htrim⟩ := exists_trim cs
  conv_rhs => rw [htrim, List.count_append, List.count_append, hspace ws hws, hspace ws' hws']
  omega

theorem count_joined (n : ℕ) (cs : List Char) :
    (joinAlternatives (List.replicate (n + 1) cs)).count '|' = (n + 1) * cs.count '|' + n := by
  unfold joinAlternatives
  induction n with
  | zero => simp
  | succ n ih =>
    have hsep : (" | ".toList : List Char).count '|' = 1 := by decide
    rw [List.replicate_succ, List.replicate_succ, List.intercalate_cons_cons, List.count_append,
      List.count_append, hsep, ← List.replicate_succ, ih]
    ring

theorem picked_iff (hne : xs ≠ []) : (∀ x, x ∈ xs ↔ x = trim (joinAlternatives xs)) ↔
    ∃ x, xs = [x] ∧ trim x = x := by
  constructor
  · intro h
    have hall : xs = List.replicate xs.length (trim (joinAlternatives xs)) :=
      List.eq_replicate_iff.2 ⟨rfl, fun x hx => (h x).1 hx⟩
    obtain ⟨n, hn⟩ := Nat.exists_eq_succ_of_ne_zero (mt List.length_eq_zero_iff.1 hne)
    rw [hn] at hall
    generalize hv : trim (joinAlternatives xs) = v at hall
    have hcount : v.count '|' = (n + 1) * v.count '|' + n := by
      conv_lhs => rw [← hv, count_trim (by decide), hall]
      exact count_joined n v
    have hone : n = 0 := by
      rw [Nat.add_mul, Nat.one_mul] at hcount
      omega
    subst hone
    refine ⟨v, hall, ?_⟩
    rw [← hv, trim_trim]
  · rintro ⟨x, rfl, htrim⟩ y
    have hjoin : joinAlternatives [x] = x := List.intercalate_singleton
    rw [hjoin, htrim, List.mem_singleton]

end IeltsHub.AnswerTexts
