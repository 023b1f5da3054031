import Mathlib

set_option autoImplicit false

/-!
# Moves one after another

A list is brought into a desired order by moving its elements one at a time to the places they
should have, those that stand there at the start left out. What stays put can be overtaken, so
the order that is reached is the desired one only for some of the orders.
-/
namespace IeltsHub.SequentialMoves
variable {α : Type}

/-! ## The order of a list -/

def Before (l : List α) (a b : α) : Prop := [a, b].Sublist l

section
variable {l m : List α} {a b x : α} {i : ℕ}

theorem Before.mem_left (h : Before l a b) : a ∈ l := h.subset List.mem_cons_self

theorem Before.mem_right (h : Before l a b) : b ∈ l := h.subset (by simp)

theorem Before.ne (hl : l.Nodup) (h : Before l a b) : a ≠ b := by
  have hnodup := h.nodup hl
  simpa using hnodup

theorem before_cons {c : α} : Before (c :: l) a b ↔ Before l a b ∨ a = c ∧ b ∈ l := by
  unfold Before
  rw [List.sublist_cons_iff]
  constructor
  · rintro (h | ⟨r, hr, hsub⟩)
    · exact .inl h
    · cases hr
      exact .inr ⟨rfl, by simpa using hsub⟩
  · rintro (h | ⟨rfl, hb⟩)
    · exact .inl h
    · exact .inr ⟨[b], rfl, by simpa using hb⟩

theorem Before.asymm (hl : l.Nodup) (h : Before l a b) : ¬ Before l b a := by
  induction l with
  | nil => simp [Before] at h
  | cons c l ih =>
    rw [List.nodup_cons] at hl
    rw [before_cons] at h ⊢
    rintro (h' | ⟨rfl, ha⟩)
    · rcases h with h | ⟨rfl, _⟩
      · exact ih hl.2 h h'
      · exact hl.1 h'.mem_right
    · rcases h with h | ⟨rfl, hb⟩
      · exact hl.1 h.mem_right
      · exact hl.1 hb

theorem before_append (ha : a ∈ l) (hb : b ∈ m) : Before (l ++ m) a b :=
  (List.singleton_sublist.2 ha).append (List.singleton_sublist.2 hb)

theorem before_of_getElem? {j : ℕ} (ha : l[i]? = some a) (hb : l[j]? = some b) (hij : i < j) :
    Before l a b := by
  induction l generalizing i j with
  | nil => simp at ha
  | cons c l ih =>
    obtain ⟨j, rfl⟩ : ∃ j', j = j' + 1 := ⟨j - 1, by omega⟩
    rw [List.getElem?_cons_succ] at hb
    rw [before_cons]
    cases i with
    | zero =>
      rw [List.getElem?_cons_zero, Option.some.injEq] at ha
      exact .inr ⟨ha.symm, List.mem_of_getElem? hb⟩
    | succ i =>
      rw [List.getElem?_cons_succ] at ha
      exact .inl (ih ha hb (by omega))

theorem place_unique (hl : l.Nodup) {j : ℕ} (hi : l[i]? = some a) (hj : l[j]? = some a) :
    i = j := by
  have hlt : i < l.length := (List.getElem?_eq_some_iff.1 hi).1
  exact (List.getElem?_inj hlt hl).1 (hi.trans hj.symm)

theorem ne_of_place {j : ℕ} (hl : l.Nodup) (ha : l[i]? = some a) (hb : l[j]? = some b)
    (hne : i ≠ j) : a ≠ b := by
  rintro rfl
  exact hne (place_unique hl ha hb)

theorem before_of_mem_take (ha : l[i]? = some a) (hb : b ∈ l.take i) : Before l b a := by
  obtain ⟨j, hj, hget⟩ := List.mem_take_iff_getElem.1 hb
  exact before_of_getElem? (List.getElem?_eq_some_iff.2 ⟨by omega, hget⟩) ha (by omega)

theorem exists_before_of_drop (hl : l.Nodup) (hi : i ≤ l.length) (ha : a ∈ l.drop i) :
    ∃ ys : List α, ys.Nodup ∧ ys.length = i ∧ ∀ y ∈ ys, Before l y a := by
  refine ⟨l.take i, (List.take_sublist i l).nodup hl, List.length_take_of_le hi, ?_⟩
  intro y hy
  have h := before_append hy ha
  rwa [List.take_append_drop] at h

theorem lt_of_before_take {ys : List α} (hl : l.Nodup) (hn : ys.Nodup)
    (ha : a ∈ l.take i) (hys : ∀ y ∈ ys, Before l y a) : ys.length < i := by
  have htake : ∀ y ∈ a :: ys, y ∈ l.take i := by
    intro y hy
    rcases List.mem_cons.1 hy with rfl | hy
    · exact ha
    · have hyl : y ∈ l.take i ++ l.drop i := by
        rw [List.take_append_drop]
        exact (hys y hy).mem_left
      rcases List.mem_append.1 hyl with h | h
      · exact h
      · have hback := before_append ha h
        rw [List.take_append_drop] at hback
        exact absurd hback ((hys y hy).asymm hl)
  have hcons : (a :: ys).Nodup :=
    List.nodup_cons.2 ⟨fun h => (hys a h).ne hl rfl, hn⟩
  have hlen := (hcons.subperm htake).length_le
  rw [List.length_cons] at hlen
  exact hlen.trans (List.length_take_le i l)

end

/-! ## What one move does to it -/

section
variable [DecidableEq α] {l : List α} {a b x : α} {i : ℕ}

def moveTo (l : List α) (x : α) (i : ℕ) : List α := (l.erase x).take i ++ x :: (l.erase x).drop i

theorem perm_moveTo (h : x ∈ l) : (moveTo l x i).Perm l := by
  unfold moveTo
  refine List.perm_middle.trans ?_
  rw [List.take_append_drop]
  exact (List.perm_cons_erase h).symm

theorem nodup_moveTo (hl : l.Nodup) (h : x ∈ l) : (moveTo l x i).Nodup :=
  (perm_moveTo h).nodup_iff.2 hl

theorem before_erase (hl : l.Nodup) (ha : a ≠ x) (hb : b ≠ x) :
    Before (l.erase x) a b ↔ Before l a b := by
  unfold Before
  rw [hl.erase_eq_filter]
  constructor
  · exact fun h => h.trans List.filter_sublist
  · intro h
    have hfilter := h.filter (fun y => y != x)
    simpa [ha, hb] using hfilter

theorem erase_moveTo (hl : l.Nodup) : (moveTo l x i).erase x = l.erase x := by
  have hx : x ∉ (l.erase x).take i := fun h => hl.not_mem_erase (List.mem_of_mem_take h)
  unfold moveTo
  rw [List.erase_append_right _ hx, List.erase_cons_head, List.take_append_drop]

theorem moveTo_eq {f : ℕ} (hl : l.Nodup) (hf : l[f]? = some x) :
    moveTo l x i = (l.eraseIdx f).take i ++ x :: (l.eraseIdx f).drop i := by
  obtain ⟨hlt, rfl⟩ := List.getElem?_eq_some_iff.1 hf
  unfold moveTo
  rw [hl.erase_getElem f hlt]

theorem getElem?_moveTo {f : ℕ} (hl : l.Nodup) (hf : l[f]? = some x) (hi : i < l.length) (j : ℕ) :
    (moveTo l x i)[j]? = if j = i then some x else if f ≤ j ∧ j < i then l[j + 1]?
      else if i < j ∧ j ≤ f then l[j - 1]? else l[j]? := by
  have hlt : f < l.length := (List.getElem?_eq_some_iff.1 hf).1
  have hlen : (l.eraseIdx f).length = l.length - 1 := List.length_eraseIdx_of_lt hlt
  have htake : ((l.eraseIdx f).take i).length = i := List.length_take_of_le (by omega)
  rw [moveTo_eq hl hf]
  rcases Nat.lt_trichotomy j i with hji | rfl | hij
  · rw [List.getElem?_append_left (by omega), List.getElem?_take_of_lt hji, List.getElem?_eraseIdx]
    split
    · rw [if_neg (by omega), if_neg (by omega), if_neg (by omega)]
    · rw [if_neg (by omega), if_pos (by omega)]
  · rw [List.getElem?_append_right (by omega), htake, Nat.sub_self, if_pos rfl]
    rfl
  · obtain ⟨k, rfl⟩ : ∃ k, j = i + (k + 1) := ⟨j - i - 1, by omega⟩
    rw [List.getElem?_append_right (by omega), htake, Nat.add_sub_cancel_left,
      List.getElem?_cons_succ, List.getElem?_drop, List.getElem?_eraseIdx]
    by_cases hkf : i + k < f
    · rw [if_pos hkf, if_neg (by omega), if_neg (by omega), if_pos (by omega)]
      congr 1
    · rw [if_neg hkf, if_neg (by omega), if_neg (by omega), if_neg (by omega)]
      congr 1

theorem moveTo_self (hl : l.Nodup) (hi : l[i]? = some x) : moveTo l x i = l := by
  apply List.ext_getElem?
  intro j
  rw [getElem?_moveTo hl hi (List.getElem?_eq_some_iff.1 hi).1]
  by_cases hj : j = i
  · rw [if_pos hj, hj, hi]
  · rw [if_neg hj, if_neg (by omega), if_neg (by omega)]

theorem map_moveTo {β : Type} [DecidableEq β] {g : α → β} {f : ℕ} (hl : l.Nodup)
    (hg : (l.map g).Nodup) (hf : l[f]? = some x) :
    (moveTo l x i).map g = moveTo (l.map g) (g x) i := by
  have hmap : (l.map g)[f]? = some (g x) := by rw [List.getElem?_map, hf, Option.map_some]
  rw [moveTo_eq hl hf, moveTo_eq hg hmap, List.map_append, List.map_take, List.map_cons,
    List.map_drop, List.eraseIdx_map]

theorem before_moveTo (hl : l.Nodup) (hx : x ∈ l) (ha : a ≠ x) (hb : b ≠ x) :
    Before (moveTo l x i) a b ↔ Before l a b := by
  rw [← before_erase (nodup_moveTo hl hx) ha hb, erase_moveTo hl, before_erase hl ha hb]

theorem before_moved (ha : a ∈ (l.erase x).take i) : Before (moveTo l x i) a x :=
  before_append ha List.mem_cons_self

theorem moved_before (ha : a ∈ (l.erase x).drop i) : Before (moveTo l x i) x a := by
  unfold moveTo
  refine List.Sublist.trans ?_ (List.sublist_append_right _ _)
  exact (List.singleton_sublist.2 ha).cons_cons x

theorem mem_take_or_drop (ha : a ∈ l) (hne : a ≠ x) :
    a ∈ (l.erase x).take i ∨ a ∈ (l.erase x).drop i := by
  rw [← List.mem_append, List.take_append_drop]
  exact (List.mem_erase_of_ne hne).2 ha

theorem mem_take_of_few {P : List α} (hl : l.Nodup) (hx : x ∈ l) (ha : a ∈ l) (hne : a ≠ x)
    (hi : i < l.length) (hP : P.length < i)
    (hfew : ∀ y, y ≠ x → Before l y a → y ∈ P) : a ∈ (l.erase x).take i := by
  rcases mem_take_or_drop (i := i) ha hne with h | h
  · exact h
  · have hlen : i ≤ (l.erase x).length := by
      rw [List.length_erase_of_mem hx]
      omega
    obtain ⟨ys, hnodup, hys, hbefore⟩ := exists_before_of_drop (hl.erase x) hlen h
    have hsub : ∀ y ∈ ys, y ∈ P := by
      intro y hy
      have hyx : y ≠ x := by
        rintro rfl
        exact hl.not_mem_erase (hbefore y hy).mem_left
      exact hfew y hyx ((before_erase hl hyx hne).1 (hbefore y hy))
    have hle := (hnodup.subperm hsub).length_le
    omega

theorem mem_drop_of_many {ys : List α} (hl : l.Nodup) (ha : a ∈ l) (hne : a ≠ x)
    (hn : ys.Nodup) (hi : i ≤ ys.length) (hys : ∀ y ∈ ys, y ≠ x ∧ Before l y a) :
    a ∈ (l.erase x).drop i := by
  rcases mem_take_or_drop (i := i) ha hne with h | h
  · have hlt := lt_of_before_take (hl.erase x) hn h
      (fun y hy => (before_erase hl (hys y hy).1 hne).2 (hys y hy).2)
    omega
  · exact h

end

/-! ## The moves to a desired order -/

section
variable {start desired : List α} {b : α} {s t : ℕ}

theorem unmoved_after (hd : desired.Nodup) (h : desired[t]? = some b) (ht : t < s) (j : ℕ)
    (hj : s ≤ j) (hb : desired[j]? = some b) : start[j]? = some b := by
  have hsame := place_unique hd h hb
  omega

theorem unmoved_before (hd : desired.Nodup) (h : desired[t]? = some b) (j : ℕ)
    (hj : j < t) (hb : desired[j]? = some b) : start[j]? = some b := by
  have hsame := place_unique hd h hb
  omega

theorem unmoved_stays (hd : desired.Nodup) (h : desired[t]? = some b) (hstay : start[t]? = some b)
    (j : ℕ) (hb : desired[j]? = some b) : start[j]? = some b := by
  have hsame := place_unique hd h hb
  rw [← hsame]
  exact hstay

end

section
variable [DecidableEq α]

def moved (start l : List α) (e : α × ℕ) : List α :=
  if start[e.2]? = some e.1 then l else moveTo l e.1 e.2

/-- The order after the first `k` places. -/
def walk (start desired : List α) (k : ℕ) : List α :=
  (desired.zipIdx.take k).foldl (moved start) start

/-- Nothing that stands before an element that stays goes past one that moves behind it. -/
def Clear (start desired : List α) : Prop :=
  ∀ (i f t u : ℕ) (a b c : α), i < f → f < t → t < u → start[f]? = some a → desired[f]? = some a →
    desired[t]? = some b → start[t]? ≠ some b → start[i]? = some c → desired[u]? ≠ some c

variable {start desired : List α} {a b x y : α} {f k s t : ℕ}

theorem walk_succ (h : desired[k]? = some x) :
    walk start desired (k + 1) = moved start (walk start desired k) (x, k) := by
  have hzip : desired.zipIdx[k]? = some (x, k) := by
    rw [List.getElem?_zipIdx, h, Option.map_some, zero_add]
  unfold walk
  rw [List.take_add_one, hzip, List.foldl_append]
  rfl

theorem walk_stays (h : desired[k]? = some x) (hs : start[k]? = some x) :
    walk start desired (k + 1) = walk start desired k := by
  rw [walk_succ h, moved, if_pos hs]

theorem walk_moves (h : desired[k]? = some x) (hs : start[k]? ≠ some x) :
    walk start desired (k + 1) = moveTo (walk start desired k) x k := by
  rw [walk_succ h, moved, if_neg hs]

theorem walk_past (h : desired[k]? = none) :
    walk start desired (k + 1) = walk start desired k := by
  have hzip : desired.zipIdx[k]? = none := by
    rw [List.getElem?_zipIdx, h, Option.map_none]
  unfold walk
  rw [List.take_add_one, hzip]
  simp

theorem perm_walk (hp : desired.Perm start) (k : ℕ) : (walk start desired k).Perm start := by
  induction k with
  | zero => exact .refl _
  | succ k ih =>
    cases hk : desired[k]? with
    | none =>
      rw [walk_past hk]
      exact ih
    | some x =>
      by_cases hs : start[k]? = some x
      · rw [walk_stays hk hs]
        exact ih
      · have hx : x ∈ walk start desired k :=
          ih.mem_iff.2 (hp.mem_iff.1 (List.mem_of_getElem? hk))
        rw [walk_moves hk hs]
        exact (perm_moveTo hx).trans ih

theorem nodup_walk (hs : start.Nodup) (hp : desired.Perm start) (k : ℕ) :
    (walk start desired k).Nodup :=
  (perm_walk hp k).nodup_iff.2 hs

theorem mem_walk (hp : desired.Perm start) (h : desired[s]? = some a) (k : ℕ) :
    a ∈ walk start desired k :=
  (perm_walk hp k).mem_iff.2 (hp.mem_iff.1 (List.mem_of_getElem? h))

theorem before_walk (hs : start.Nodup) (hp : desired.Perm start) (hk : s ≤ k)
    (ha : ∀ j, s ≤ j → j < k → desired[j]? = some a → start[j]? = some a)
    (hb : ∀ j, s ≤ j → j < k → desired[j]? = some b → start[j]? = some b) :
    Before (walk start desired k) a b ↔ Before (walk start desired s) a b := by
  induction k, hk using Nat.le_induction with
  | base => rfl
  | succ k hk ih =>
    have ih := ih (fun j hj hlt => ha j hj (by omega)) (fun j hj hlt => hb j hj (by omega))
    rw [← ih]
    cases hx : desired[k]? with
    | none => rw [walk_past hx]
    | some x =>
      by_cases hstay : start[k]? = some x
      · rw [walk_stays hx hstay]
      · have hax : a ≠ x := by
          rintro rfl
          exact hstay (ha k hk (by omega) hx)
        have hbx : b ≠ x := by
          rintro rfl
          exact hstay (hb k hk (by omega) hx)
        rw [walk_moves hx hstay, before_moveTo (nodup_walk hs hp k) (mem_walk hp hx k) hax hbx]

end

/-! ### What is moved later comes later -/

section
variable [DecidableEq α] {start desired : List α} {a b x y : α} {f k s t : ℕ}

theorem lt_length_walk (hp : desired.Perm start) (h : desired[k]? = some x) :
    k < (walk start desired k).length := by
  rw [(perm_walk hp k).length_eq, ← hp.length_eq]
  exact (List.getElem?_eq_some_iff.1 h).1

theorem few_before_moved (hs : start.Nodup) (hp : desired.Perm start) (ha : desired[s]? = some a)
    (hmove : start[s]? ≠ some a) (hk : s < k) :
    ∀ y, Before (walk start desired k) y a → y ∈ ((walk start desired s).erase a).take s := by
  have hd : desired.Nodup := hp.nodup_iff.2 hs
  induction k, hk using Nat.le_induction with
  | base =>
    intro y hy
    have hmem := mem_walk hp ha s
    rw [walk_moves ha hmove] at hy
    have hl := nodup_moveTo (i := s) (nodup_walk hs hp s) hmem
    have hmy : y ∈ walk start desired s := (perm_moveTo hmem).mem_iff.1 hy.mem_left
    rcases mem_take_or_drop (i := s) hmy (hy.ne hl) with h | h
    · exact h
    · exact absurd (moved_before h) (hy.asymm hl)
  | succ k hk ih =>
    intro y hy
    cases hx : desired[k]? with
    | none =>
      rw [walk_past hx] at hy
      exact ih y hy
    | some x =>
      by_cases hstay : start[k]? = some x
      · rw [walk_stays hx hstay] at hy
        exact ih y hy
      · have hax : a ≠ x := ne_of_place hd ha hx (by omega)
        have hnodup := nodup_walk hs hp k
        have hmem := mem_walk hp hx k
        have hlen : (((walk start desired s).erase a).take s).length < k :=
          (List.length_take_le _ _).trans_lt (by omega)
        have htake := mem_take_of_few hnodup hmem (mem_walk hp ha k) hax (lt_length_walk hp hx)
          hlen (fun z _ => ih z)
        rw [walk_moves hx hstay] at hy
        have hl := nodup_moveTo (i := k) hnodup hmem
        have hyx : y ≠ x := by
          rintro rfl
          exact hy.asymm hl (before_moved htake)
        exact ih y ((before_moveTo hnodup hmem hyx hax).1 hy)

theorem moved_before_moved (hs : start.Nodup) (hp : desired.Perm start) (hst : s < t)
    (ha : desired[s]? = some a) (hma : start[s]? ≠ some a) (hb : desired[t]? = some b)
    (hmb : start[t]? ≠ some b) : Before (walk start desired (t + 1)) a b := by
  have hd : desired.Nodup := hp.nodup_iff.2 hs
  have hlen : (((walk start desired s).erase a).take s).length < t :=
    (List.length_take_le _ _).trans_lt hst
  rw [walk_moves hb hmb]
  exact before_moved (mem_take_of_few (nodup_walk hs hp t) (mem_walk hp hb t) (mem_walk hp ha t)
    (ne_of_place hd ha hb (by omega)) (lt_length_walk hp hb) hlen
    (fun z _ => few_before_moved hs hp ha hma hst z))

/-! ### What stays is not overtaken from behind -/

/-- What is moved to a place before `f` lands before what stays at `f`, and so does all that
stood before it. -/
theorem before_stays (hs : start.Nodup) (hp : desired.Perm start) (ha : desired[f]? = some a)
    (hstay : start[f]? = some a) (hk : k ≤ f) :
    ∀ y, Before start y a ∨ (∃ j, j < k ∧ desired[j]? = some y) →
      Before (walk start desired k) y a := by
  have hd : desired.Nodup := hp.nodup_iff.2 hs
  induction k with
  | zero =>
    rintro y (h | ⟨j, hj, _⟩)
    · exact h
    · omega
  | succ k ih =>
    have ih := ih (by omega)
    intro y hy
    have hlt : k < desired.length := by
      have hf := (List.getElem?_eq_some_iff.1 ha).1
      omega
    obtain ⟨x, hx⟩ : ∃ x, desired[k]? = some x := ⟨_, List.getElem?_eq_getElem hlt⟩
    have hax : a ≠ x := ne_of_place hd ha hx (by omega)
    by_cases hmove : start[k]? = some x
    · rw [walk_stays hx hmove]
      apply ih
      rcases hy with hy | ⟨j, hj, hy⟩
      · exact .inl hy
      · rcases Nat.lt_succ_iff_lt_or_eq.1 hj with hj | rfl
        · exact .inr ⟨j, hj, hy⟩
        · rw [hx] at hy
          cases hy
          exact .inl (before_of_getElem? hmove hstay (by omega))
    · rw [walk_moves hx hmove]
      have hnodup := nodup_walk hs hp k
      have hmem := mem_walk hp hx k
      by_cases hyx : y = x
      · subst hyx
        -- the others that stood before it are enough to keep it behind place `k`
        have hfront : (start.take f).length = f :=
          List.length_take_of_le (le_of_lt (List.getElem?_eq_some_iff.1 hstay).1)
        have hmany : k ≤ ((start.take f).erase y).length := by
          rw [List.length_erase]
          split <;> omega
        have htake : (start.take f).Nodup := (List.take_sublist f start).nodup hs
        refine moved_before
          (mem_drop_of_many hnodup (mem_walk hp ha k) hax (htake.erase y) hmany ?_)
        intro z hz
        rw [htake.mem_erase_iff] at hz
        exact ⟨hz.1, ih z (.inl (before_of_mem_take hstay hz.2))⟩
      · rw [before_moveTo hnodup hmem hyx hax]
        apply ih
        rcases hy with hy | ⟨j, hj, hy⟩
        · exact .inl hy
        · rcases Nat.lt_succ_iff_lt_or_eq.1 hj with hj | rfl
          · exact .inr ⟨j, hj, hy⟩
          · rw [hx] at hy
            cases hy
            exact absurd rfl hyx

/-! ### Where what stays is overtaken -/

theorem stays_before_moved (hs : start.Nodup) (hp : desired.Perm start)
    (hclear : Clear start desired) (ha : desired[f]? = some a) (hstay : start[f]? = some a)
    (hft : f < t) (hb : desired[t]? = some b) (hmove : start[t]? ≠ some b) :
    Before (walk start desired (t + 1)) a b := by
  have hd : desired.Nodup := hp.nodup_iff.2 hs
  induction t using Nat.strong_induction_on generalizing b with
  | _ t ih =>
    have hnodup := nodup_walk hs hp t
    have hfront : (desired.take f).length < t := (List.length_take_le _ _).trans_lt hft
    rw [walk_moves hb hmove]
    refine before_moved (mem_take_of_few hnodup (mem_walk hp hb t) (mem_walk hp ha t)
      (ne_of_place hd ha hb (by omega)) (lt_length_walk hp hb) hfront ?_)
    -- only what has its place before `f` stands before `a`
    intro y hyb hya
    have hy : y ∈ desired := hp.mem_iff.2 ((perm_walk hp t).mem_iff.1 hya.mem_left)
    obtain ⟨j, hj⟩ := List.mem_iff_getElem?.1 hy
    by_contra hback
    have hjf : f < j := by
      by_contra hle
      have hne : j ≠ f := by
        rintro rfl
        rw [ha] at hj
        cases hj
        exact hya.ne hnodup rfl
      exact hback (List.mem_take_iff_getElem.2
        ⟨j, by have := (List.getElem?_eq_some_iff.1 hj).1; omega,
          (List.getElem?_eq_some_iff.1 hj).2⟩)
    by_cases hjstay : start[j]? = some y
    · have hay := (before_walk hs hp (Nat.zero_le t)
        (fun i _ _ => unmoved_stays hd ha hstay i)
        (fun i _ _ => unmoved_stays hd hj hjstay i)).2 (before_of_getElem? hstay hjstay hjf)
      exact hya.asymm hnodup hay
    · have hjt : j ≠ t := by
        rintro rfl
        rw [hb] at hj
        cases hj
        exact hyb rfl
      rcases Nat.lt_or_gt_of_ne hjt with hlt | hgt
      · have hay := (before_walk hs hp (show j + 1 ≤ t from hlt)
          (fun i _ _ => unmoved_stays hd ha hstay i)
          (fun i hi _ => unmoved_after hd hj (by omega) i hi)).2 (ih j hlt hjf hj hjstay)
        exact hya.asymm hnodup hay
      · have hstart := (before_walk hs hp (Nat.zero_le t)
          (fun i _ hi => unmoved_before hd hj i (by omega))
          (fun i _ _ => unmoved_stays hd ha hstay i)).1 hya
        change Before start y a at hstart
        obtain ⟨i, hi⟩ := List.mem_iff_getElem?.1 hstart.mem_left
        have hif : i < f := by
          by_contra hle
          have hne : i ≠ f := by
            rintro rfl
            rw [hstay] at hi
            cases hi
            exact hya.ne hnodup rfl
          exact hstart.asymm hs (before_of_getElem? hstay hi (by omega))
        exact hclear i f t j a b y hif hft hgt hstay ha hb hmove hi hj

theorem arrives_of_clear (hs : start.Nodup) (hp : desired.Perm start)
    (hclear : Clear start desired) : walk start desired desired.length = desired := by
  have hd : desired.Nodup := hp.nodup_iff.2 hs
  have hnodup := nodup_walk hs hp desired.length
  have hwalk : (walk start desired desired.length).Pairwise
      (Before (walk start desired desired.length)) := by
    rw [List.pairwise_iff_forall_sublist]
    exact fun h => h
  refine ((perm_walk hp _).trans hp.symm).eq_of_pairwise ?_ hwalk ?_
  · intro a b _ _ hab hba
    exact absurd hba (hab.asymm hnodup)
  · rw [List.pairwise_iff_getElem]
    intro s t hsl htl hst
    have ha : desired[s]? = some desired[s] := List.getElem?_eq_getElem hsl
    have hb : desired[t]? = some desired[t] := List.getElem?_eq_getElem htl
    by_cases hsa : start[s]? = some desired[s]
    · by_cases hsb : start[t]? = some desired[t]
      · rw [before_walk hs hp (Nat.zero_le _)
          (fun i _ _ => unmoved_stays hd ha hsa i) (fun i _ _ => unmoved_stays hd hb hsb i)]
        exact before_of_getElem? hsa hsb hst
      · rw [before_walk hs hp (show t + 1 ≤ desired.length from htl)
          (fun i _ _ => unmoved_stays hd ha hsa i)
          (fun i hi _ => unmoved_after hd hb (by omega) i hi)]
        exact stays_before_moved hs hp hclear ha hsa hst hb hsb
    · by_cases hsb : start[t]? = some desired[t]
      · rw [before_walk hs hp (le_of_lt htl)
          (fun i hi _ => unmoved_after hd ha (by omega) i hi)
          (fun i _ _ => unmoved_stays hd hb hsb i)]
        exact before_stays hs hp hb hsb le_rfl _ (.inr ⟨s, hst, ha⟩)
      · rw [before_walk hs hp (show t + 1 ≤ desired.length from htl)
          (fun i hi _ => unmoved_after hd ha (by omega) i hi)
          (fun i hi _ => unmoved_after hd hb (by omega) i hi)]
        exact moved_before_moved hs hp hst ha hsa hb hsb

theorem exists_first_move (ha : desired[f]? = some a) (hstay : start[f]? = some a) (hft : f < t)
    (hb : desired[t]? = some b) (hmove : start[t]? ≠ some b) :
    ∃ g c d, f ≤ g ∧ g + 1 ≤ t ∧ desired[g]? = some c ∧ start[g]? = some c ∧
      desired[g + 1]? = some d ∧ start[g + 1]? ≠ some d := by
  induction t, hft using Nat.le_induction generalizing b with
  | base => exact ⟨f, a, b, le_rfl, le_rfl, ha, hstay, hb, hmove⟩
  | succ t hft ih =>
    have hlt : t < desired.length := by
      have hlen := (List.getElem?_eq_some_iff.1 hb).1
      omega
    have hc : desired[t]? = some desired[t] := List.getElem?_eq_getElem hlt
    by_cases hct : start[t]? = some desired[t]
    · exact ⟨t, _, b, by omega, le_rfl, hc, hct, hb, hmove⟩
    · obtain ⟨g, c, d, hfg, hgt, h⟩ := ih hc hct
      exact ⟨g, c, d, hfg, by omega, h⟩

theorem clear_of_arrives (hs : start.Nodup) (hp : desired.Perm start)
    (harrive : walk start desired desired.length = desired) : Clear start desired := by
  intro i f t u a b c hif hft htu hstay ha hb hmove hi hu
  have hd : desired.Nodup := hp.nodup_iff.2 hs
  obtain ⟨g, x, z, hfg, hgt, hx, hxstay, hz, hzmove⟩ := exists_first_move ha hstay hft hb hmove
  have hnodup := nodup_walk hs hp (g + 1)
  have hfront : (desired.take g).length = g :=
    List.length_take_of_le (le_of_lt (List.getElem?_eq_some_iff.1 hx).1)
  have hc : c ∉ desired.take g := by
    intro h
    obtain ⟨j, hj, hget⟩ := List.mem_take_iff_getElem.1 h
    have hsame := place_unique hd (List.getElem?_eq_some_iff.2 ⟨by omega, hget⟩) hu
    omega
  have hxz : x ≠ z := ne_of_place hd hx hz (by omega)
  -- all that belongs before the place `g` stands before `x`, and so does `c`
  have hdrop : x ∈ ((walk start desired (g + 1)).erase z).drop (g + 1) := by
    have hmany : g + 1 ≤ (c :: desired.take g).length := by rw [List.length_cons, hfront]
    refine mem_drop_of_many hnodup (mem_walk hp hx _) hxz
      (List.nodup_cons.2 ⟨hc, (List.take_sublist g desired).nodup hd⟩) hmany ?_
    intro y hy
    rw [walk_stays hx hxstay]
    rcases List.mem_cons.1 hy with rfl | hy
    · exact ⟨ne_of_place hd hu hz (by omega),
        before_stays hs hp hx hxstay le_rfl _ (.inl (before_of_getElem? hi hxstay (by omega)))⟩
    · obtain ⟨j, hj, hget⟩ := List.mem_take_iff_getElem.1 hy
      have hj' : desired[j]? = some y := List.getElem?_eq_some_iff.2 ⟨by omega, hget⟩
      exact ⟨ne_of_place hd hj' hz (by omega),
        before_stays hs hp hx hxstay le_rfl _ (.inr ⟨j, by omega, hj'⟩)⟩
  have hzx : Before (walk start desired (g + 1 + 1)) z x := by
    rw [walk_moves hz hzmove]
    exact moved_before hdrop
  have hend : Before (walk start desired desired.length) z x := by
    have hle : g + 1 + 1 ≤ desired.length := (List.getElem?_eq_some_iff.1 hz).1
    rw [before_walk hs hp hle (fun i hi _ => unmoved_after hd hz (by omega) i hi)
      (fun i _ _ => unmoved_stays hd hx hxstay i)]
    exact hzx
  rw [harrive] at hend
  exact hend.asymm hd (before_of_getElem? hx hz (by omega))

theorem arrives_iff (hs : start.Nodup) (hp : desired.Perm start) :
    desired.zipIdx.foldl (moved start) start = desired ↔ Clear start desired := by
  have hall : desired.zipIdx.foldl (moved start) start = walk start desired desired.length := by
    unfold walk
    rw [List.take_of_length_le (by rw [List.length_zipIdx])]
  rw [hall]
  exact ⟨clear_of_arrives hs hp, arrives_of_clear hs hp⟩

end

end IeltsHub.SequentialMoves
