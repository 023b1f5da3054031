import Mathlib

set_option autoImplicit false

/-!
# Keyset paging

A keyset walk reads rows by ascending key, a page at a time, each page from the last key of the
one before. Over rows of distinct keys the pages are the sorted rows cut into chunks: nothing is
read twice and nothing is skipped.
-/
namespace IeltsHub.KeysetPaging

variable {ρ κ : Type} [LinearOrder κ] {serial : ρ → κ}

def past (serial : ρ → κ) (rows : List ρ) (last : κ) : List ρ :=
  (rows.filter (fun r => last < serial r)).insertionSort (fun a b => serial a ≤ serial b)

def lastKey (serial : ρ → κ) (page : List ρ) (last : κ) : κ := (page.getLast?.map serial).getD last

/-- A list cut into chunks; `fuel` bounds their number. -/
def pages (chunk : ℕ) : ℕ → List ρ → List (List ρ)
  | 0, _ => []
  | fuel + 1, rows =>
    if rows.take chunk = [] then [] else rows.take chunk :: pages chunk fuel (rows.drop chunk)

theorem mem_past {rows : List ρ} {last : κ} {r : ρ} :
    r ∈ past serial rows last ↔ r ∈ rows ∧ last < serial r := by
  unfold past
  rw [List.mem_insertionSort, List.mem_filter, decide_eq_true_eq]

theorem past_perm (rows : List ρ) (last : κ) :
    (past serial rows last).Perm (rows.filter (fun r => last < serial r)) :=
  List.perm_insertionSort _ _

instance serial_total : Std.Total (fun a b : ρ => serial a ≤ serial b) := ⟨fun _ _ => le_total _ _⟩

instance serial_trans : IsTrans ρ (fun a b : ρ => serial a ≤ serial b) := ⟨fun _ _ _ => le_trans⟩

theorem past_sorted (rows : List ρ) (last : κ) :
    (past serial rows last).Pairwise (fun a b => serial a ≤ serial b) :=
  List.pairwise_insertionSort _ _

theorem past_nodup {rows : List ρ} (hn : (rows.map serial).Nodup) (last : κ) :
    ((past serial rows last).map serial).Nodup := by
  rw [((past_perm rows last).map serial).nodup_iff]
  exact (List.filter_sublist.map serial).nodup hn

theorem past_strict {rows : List ρ} (hn : (rows.map serial).Nodup) (last : κ) :
    (past serial rows last).Pairwise (fun a b => serial a < serial b) := by
  have hne : (past serial rows last).Pairwise (fun a b => serial a ≠ serial b) :=
    List.pairwise_map.1 (past_nodup hn last)
  exact (past_sorted rows last).imp₂ (fun _ _ hle hab => lt_of_le_of_ne hle hab) hne

theorem past_of_le {rows : List ρ} (hn : (rows.map serial).Nodup) {last next : κ}
    (h : last ≤ next) :
    past serial rows next = (past serial rows last).filter (fun r => next < serial r) := by
  refine List.Perm.eq_of_pairwise ?_ (past_sorted rows next)
    ((past_sorted rows last).filter _) ?_
  · intro a b ha hb hab hba
    exact List.inj_on_of_nodup_map hn (mem_past.1 ha).1
      (mem_past.1 (List.mem_filter.1 hb).1).1 (le_antisymm hab hba)
  · refine (past_perm rows next).trans ?_
    refine List.Perm.trans ?_ ((past_perm rows last).filter _).symm
    rw [List.filter_filter]
    refine List.Perm.of_eq (List.filter_congr (fun r _ => ?_))
    have himp : next < serial r → last < serial r := fun q => lt_of_le_of_lt h q
    by_cases hr : next < serial r <;> simp [hr, himp]

omit [LinearOrder κ] in
theorem lastKey_of_ne_nil {page : List ρ} (h : page ≠ []) (last : κ) :
    lastKey serial page last = serial (page.getLast h) := by
  unfold lastKey
  rw [List.getLast?_eq_some_getLast h]
  rfl

theorem le_getLast {first : List ρ} (h : first ≠ [])
    (hs : first.Pairwise (fun a b => serial a ≤ serial b)) {r : ρ} (hr : r ∈ first) :
    serial r ≤ serial (first.getLast h) := by
  obtain ⟨init, z, rfl⟩ := (List.eq_nil_or_concat' first).resolve_left h
  rw [List.getLast_append_singleton]
  rcases List.mem_append.1 hr with hr | hr
  · exact (List.pairwise_append.1 hs).2.2 r hr z List.mem_cons_self
  · rw [List.mem_singleton.1 hr]

theorem le_lastKey {rows : List ρ} {chunk : ℕ} {last : κ} {r : ρ}
    (hr : r ∈ (past serial rows last).take chunk) :
    serial r ≤ lastKey serial ((past serial rows last).take chunk) last := by
  rw [lastKey_of_ne_nil (List.ne_nil_of_mem hr)]
  exact le_getLast _ ((past_sorted rows last).sublist (List.take_sublist ..)) hr

theorem filter_past_getLast {first rest : List ρ} (h : first ≠ [])
    (hs : (first ++ rest).Pairwise (fun a b => serial a < serial b)) :
    (first ++ rest).filter (fun r => decide (serial (first.getLast h) < serial r)) = rest := by
  obtain ⟨hfirst, _, hcross⟩ := List.pairwise_append.1 hs
  have hnone : first.filter (fun r => decide (serial (first.getLast h) < serial r)) = [] := by
    rw [List.filter_eq_nil_iff]
    intro r hr
    simp only [decide_eq_true_eq, not_lt]
    exact le_getLast h (hfirst.imp le_of_lt) hr
  have hall : rest.filter (fun r => decide (serial (first.getLast h) < serial r)) = rest := by
    rw [List.filter_eq_self]
    exact fun r hr => decide_eq_true (hcross _ (List.getLast_mem h) r hr)
  rw [List.filter_append, hnone, hall, List.nil_append]

theorem past_lastKey {rows : List ρ} (hn : (rows.map serial).Nodup) {chunk : ℕ} {last : κ}
    (h : (past serial rows last).take chunk ≠ []) :
    past serial rows (lastKey serial ((past serial rows last).take chunk) last) =
      (past serial rows last).drop chunk := by
  have hstrict := past_strict hn last
  have hmem : ((past serial rows last).take chunk).getLast h ∈ past serial rows last :=
    List.mem_of_mem_take (List.getLast_mem h)
  rw [lastKey_of_ne_nil h, past_of_le hn (mem_past.1 hmem).2.le]
  rw [← List.take_append_drop chunk (past serial rows last)] at hstrict
  have hrest := filter_past_getLast h hstrict
  rwa [List.take_append_drop] at hrest

theorem flatten_pages {chunk : ℕ} (hchunk : 0 < chunk) {fuel : ℕ} {rows : List ρ}
    (h : rows.length ≤ fuel) : (pages chunk fuel rows).flatten = rows := by
  induction fuel generalizing rows with
  | zero =>
    rw [List.eq_nil_of_length_eq_zero (Nat.le_zero.1 h)]
    rfl
  | succ fuel ih =>
    unfold pages
    split
    · next hnil =>
      cases rows with
      | nil => rfl
      | cons r rows =>
        obtain ⟨k, rfl⟩ := Nat.exists_eq_add_of_lt hchunk
        cases hnil
    · have hlength : (rows.drop chunk).length ≤ fuel := by
        rw [List.length_drop]
        omega
      rw [List.flatten_cons, ih hlength, List.take_append_drop]

/-! ## A walk over rows that change

Between two pages rows may come and go. The walk ends with a page that nothing is left after. -/

/-- What a walk from `last` returns, its pages read from `states` one after another. -/
inductive Walk (serial : ρ → κ) (limit : ℕ) : κ → List (List ρ) → List ρ → Prop where
  | done {last : κ} {rows : List ρ} (h : (past serial rows last).length ≤ limit) :
      Walk serial limit last [rows] (past serial rows last)
  | more {last : κ} {rows out : List ρ} {states : List (List ρ)}
      (h : limit < (past serial rows last).length)
      (tail : Walk serial limit
        (lastKey serial ((past serial rows last).take limit) last) states out) :
      Walk serial limit last (rows :: states) ((past serial rows last).take limit ++ out)

variable {limit : ℕ} {last : κ} {states : List (List ρ)} {out : List ρ}

theorem Walk.beyond (h : Walk serial limit last states out) (hlimit : 0 < limit) {r : ρ}
    (hr : r ∈ out) : last < serial r := by
  induction h with
  | done _ => exact (mem_past.1 hr).2
  | @more last rows out states hlen _ ih =>
    rcases List.mem_append.1 hr with hr | hr
    · exact (mem_past.1 (List.mem_of_mem_take hr)).2
    · -- the page is not empty, so it ends past where it began
      have hne : (past serial rows last).take limit ≠ [] := by
        intro hnil
        have hlength := congrArg List.length hnil
        rw [List.length_take, List.length_nil] at hlength
        omega
      have hlast := (mem_past.1 (List.mem_of_mem_take (List.getLast_mem hne))).2
      rw [lastKey_of_ne_nil hne] at ih
      exact hlast.trans (ih hr)

theorem Walk.sorted (h : Walk serial limit last states out) (hlimit : 0 < limit)
    (hn : ∀ rows ∈ states, (rows.map serial).Nodup) :
    out.Pairwise (fun a b => serial a < serial b) := by
  induction h with
  | done _ => exact past_strict (hn _ List.mem_cons_self) _
  | @more last rows out states _ tail ih =>
    refine List.pairwise_append.2 ⟨?_, ih (fun t ht => hn t (List.mem_cons_of_mem rows ht)), ?_⟩
    · exact (past_strict (hn rows List.mem_cons_self) last).sublist (List.take_sublist ..)
    · intro a ha b hb
      exact lt_of_le_of_lt (le_lastKey ha) (tail.beyond hlimit hb)

theorem Walk.complete (h : Walk serial limit last states out)
    (hn : ∀ rows ∈ states, (rows.map serial).Nodup) {r : ρ} (hr : ∀ rows ∈ states, r ∈ rows)
    (hlast : last < serial r) : r ∈ out := by
  induction h with
  | done _ => exact mem_past.2 ⟨hr _ List.mem_cons_self, hlast⟩
  | @more last rows out states hlen _ ih =>
    have hmem : r ∈ past serial rows last := mem_past.2 ⟨hr rows List.mem_cons_self, hlast⟩
    rw [← List.take_append_drop limit (past serial rows last), List.mem_append] at hmem
    rcases hmem with hmem | hmem
    · exact List.mem_append_left _ hmem
    · refine List.mem_append_right _ (ih (fun t ht => hn t (List.mem_cons_of_mem rows ht))
        (fun t ht => hr t (List.mem_cons_of_mem rows ht)) ?_)
      by_cases hne : (past serial rows last).take limit = []
      · unfold lastKey
        rw [hne]
        exact hlast
      · rw [← past_lastKey (hn rows List.mem_cons_self) hne] at hmem
        exact (mem_past.1 hmem).2

/-- Every row that is there throughout is returned exactly once. -/
theorem Walk.exactly_once (h : Walk serial limit last states out) (hlimit : 0 < limit)
    (hn : ∀ rows ∈ states, (rows.map serial).Nodup) {r : ρ} (hr : ∀ rows ∈ states, r ∈ rows)
    (hlast : last < serial r) : out.filter (fun x => serial x = serial r) = [r] := by
  obtain ⟨pre, post, rfl⟩ := List.append_of_mem (h.complete hn hr hlast)
  have hsorted := h.sorted hlimit hn
  rw [List.pairwise_append, List.pairwise_cons] at hsorted
  obtain ⟨_, ⟨hpost, _⟩, hpre⟩ := hsorted
  have hnone : pre.filter (fun x => serial x = serial r) = [] := by
    rw [List.filter_eq_nil_iff]
    intro x hx
    simpa using (hpre x hx r List.mem_cons_self).ne
  have hnone' : post.filter (fun x => serial x = serial r) = [] := by
    rw [List.filter_eq_nil_iff]
    intro x hx
    simpa using (hpost x hx).ne'
  rw [List.filter_append, List.filter_cons_of_pos (by simp), hnone, hnone']
  rfl

end IeltsHub.KeysetPaging
