import IeltsHub.UntouchedVersions
import IeltsHub.SequentialMoves

set_option autoImplicit false

/-!
# The order of the sections

The console turns an order of sections into moves of single sections and sends them one after
another. On the server a move takes its section to a place and lets the others close up, so a run
of them is a run of moves of a list.
-/
namespace IeltsHub.SectionOrder
open PyExc RowTable ContentTables AuthoringEdits UntouchedVersions SequentialMoves

/-! ## The moves the console sends -/

structure Ordered where
  xid : ℕ
  position : Option ℤ := none
  deriving DecidableEq

structure SectionMove where
  xid : ℕ
  position : ℤ
  deriving DecidableEq

def sectionMoves (desired : List Ordered) : List SectionMove :=
  ((desired.zipIdx.map (fun e => SectionMove.mk e.1.xid (e.2 + 1))).zipIdx.filter
    (fun e => desired[e.2]?.bind Ordered.position ≠ some e.1.position)).map Prod.fst

/-! ## The server's move -/

/-- What `update_section` does to the order. -/
def applyMove (t : Tables) (m : SectionMove) : Tables :=
  match t.sections.get? m.xid with
  | none => t
  | some s => if m.position = s.position then t else moveSection s m.position t

def listSections (t : Tables) (testVersionId : ℕ) : List Ordered :=
  (orderedSections t testVersionId).map (fun s => { xid := s.id, position := some s.position })

/-- The positions of the sections are `1..n`. -/
def Numbered (t : Tables) (testVersionId : ℕ) : Prop :=
  (orderedSections t testVersionId).map (fun s => s.position) =
    (List.range (orderedSections t testVersionId).length).map (fun i : ℕ => (i : ℤ) + 1)

/-- No section that stands before one that stays goes past one that moves behind it. -/
def Unpassed (desired : List Ordered) : Prop :=
  ∀ (f t u : ℕ) (a b c : Ordered) (p : ℤ), f < t → t < u → desired[f]? = some a →
    a.position = some ((f : ℤ) + 1) → desired[t]? = some b → b.position ≠ some ((t : ℤ) + 1) →
      desired[u]? = some c → c.position = some p → f + 1 ≤ p

/-! ## A move of a row is a move of a list -/

def placed (r : SectionRow) (n : ℤ) : SectionRow := { r with position := n }

@[simp] theorem placed_id (r : SectionRow) (n : ℤ) : (placed r n).id = r.id := rfl

@[simp] theorem placed_position (r : SectionRow) (n : ℤ) : (placed r n).position = n := rfl

@[simp] theorem placed_placed (r : SectionRow) (m n : ℤ) : placed (placed r m) n = placed r n := rfl

@[simp] theorem inVersion_placed (tv : ℕ) (r : SectionRow) (n : ℤ) :
    inVersion tv (placed r n) = inVersion tv r := rfl

section
variable {t : Table SectionRow ℕ (fun s => s.id)} {tv : ℕ} {moves within : SectionRow → Bool}
  {f : ℤ → ℤ} {delta : ℤ}

theorem select_put_of_get? {r x : SectionRow} (h : t.get? r.id = some x)
    (hq : inVersion tv r = inVersion tv x) :
    (t.put r).select (inVersion tv) =
      (t.select (inVersion tv)).map (fun y => if y.id = r.id then r else y) := by
  rw [Table.put_eq_mapRows h]
  unfold Table.select Table.mapRows
  rw [List.filter_map]
  congr 1
  apply List.filter_congr
  intro y hy
  change inVersion tv (if y.id = r.id then r else y) = inVersion tv y
  split
  · rename_i hid
    have hsame := Table.get?_eq_some.2 ⟨hy, hid⟩
    rw [h] at hsame
    cases hsame
    exact hq
  · rfl

theorem select_replace_rows : (replace moves f t).select (inVersion tv) =
    (t.select (inVersion tv)).map (fun r => if moves r then placed r (f r.position) else r) := by
  apply Table.select_mapRows
  intro r
  split
  · rfl
  · rfl

theorem exists_get?_replace {id : ℕ} {x : SectionRow} (h : t.get? id = some x) :
    ∃ n, (replace moves f t).get? id = some (placed x n) := by
  unfold replace
  rw [Table.get?_mapRows, h]
  by_cases hm : moves x = true
  · exact ⟨_, congrArg some (if_pos hm)⟩
  · exact ⟨x.position, congrArg some (if_neg hm)⟩

theorem exists_get?_shift {id : ℕ} {x : SectionRow} (h : t.get? id = some x) :
    ∃ n, (shift moves within delta t).get? id = some (placed x n) := by
  unfold shift
  split
  · obtain ⟨m, hm⟩ : ∃ m, (park moves t).get? id = some (placed x m) := exists_get?_replace h
    obtain ⟨n, hn⟩ : ∃ n, (land within delta (park moves t)).get? id =
      some (placed (placed x m) n) := exists_get?_replace hm
    exact ⟨n, hn⟩
  · exact ⟨x.position, h⟩

theorem select_shift_rows
    (hmoves : ∀ r ∈ t.select (inVersion tv), moves r = true →
      0 < r.position ∧ within (placed r (-r.position)) = true)
    (hrest : ∀ r ∈ t.select (inVersion tv), moves r = false → within r = true → 0 ≤ r.position) :
    (shift moves within delta t).select (inVersion tv) = (t.select (inVersion tv)).map
      (fun r => if moves r then placed r (r.position + delta) else r) := by
  have hland : ∀ r, (if within r && decide (r.position < 0) then placed r (-r.position + delta)
      else r) = if within r = true ∧ r.position < 0 then placed r (-r.position + delta) else r := by
    intro r
    simp only [Bool.and_eq_true, decide_eq_true_eq]
  unfold shift
  split
  · unfold land park
    rw [select_replace_rows, select_replace_rows, List.map_map]
    apply List.map_congr_left
    intro r hr
    refine (hland _).trans ?_
    dsimp only
    by_cases hm : moves r = true
    · obtain ⟨hpos, hwithin⟩ := hmoves r hr hm
      have hneg : (placed r (-r.position)).position < 0 := by
        rw [placed_position]
        omega
      simp only [if_pos hm]
      rw [if_pos ⟨hwithin, hneg⟩]
      simp
    · simp only [if_neg hm]
      rw [if_neg]
      rintro ⟨hwithin, hneg⟩
      have hnonneg := hrest r hr (by simpa using hm) hwithin
      omega
  · rename_i hany
    conv_lhs => rw [← List.map_id (t.select (inVersion tv))]
    apply List.map_congr_left
    intro r hr
    have hmem := (List.mem_filter.1 hr).1
    have hfalse : moves r = false := by
      cases hm : moves r with
      | false => rfl
      | true => exact absurd (List.any_eq_true.2 ⟨r, hmem, hm⟩) hany
    rw [hfalse]
    rfl

end

section
variable {t : Tables} {s : SectionRow} {wanted stop : ℤ}

/-- Where a move to `stop` takes a row. -/
def carried (s : SectionRow) (stop : ℤ) (r : SectionRow) : SectionRow :=
  if r.id = s.id then placed s stop
  else if (span s.position stop).1 ≤ r.position ∧ r.position ≤ (span s.position stop).2.1 then
    placed r (r.position + (span s.position stop).2.2)
  else r

theorem carried_position {r : SectionRow} (hid : r.id ≠ s.id) :
    (carried s stop r).position =
      if s.position < stop then
        if s.position < r.position ∧ r.position ≤ stop then r.position - 1 else r.position
      else if stop ≤ r.position ∧ r.position < s.position then r.position + 1 else r.position := by
  unfold carried span
  rw [if_neg hid]
  by_cases hdown : s.position < stop
  · simp only [if_pos hdown]
    split
    · rw [if_pos (by omega), placed_position]
      omega
    · rw [if_neg (by omega)]
  · simp only [if_neg hdown]
    split
    · rw [if_pos (by omega), placed_position]
    · rw [if_neg (by omega)]

theorem select_moveSection (hs : t.sections.get? s.id = some s)
    (hpos : ∀ r ∈ t.sections.select (inVersion s.testVersionId), 0 < r.position)
    (hstop : stop = max 1 (min wanted (sectionCount t s.testVersionId)))
    (hne : stop ≠ s.position) :
    (moveSection s wanted t).sections.select (inVersion s.testVersionId) =
      (t.sections.select (inVersion s.testVersionId)).map (carried s stop) := by
  have hmem : s ∈ t.sections.select (inVersion s.testVersionId) :=
    List.mem_filter.2 ⟨(Table.get?_eq_some.1 hs).1, by simp [inVersion]⟩
  have hspos := hpos s hmem
  have hlow : 0 < (span s.position stop).1 := by
    have hone : 1 ≤ stop := by rw [hstop]; exact le_max_left _ _
    unfold span
    split <;> omega
  unfold moveSection
  dsimp only
  rw [← hstop, if_neg hne]
  change Table.select (Table.put (shift _ _ _ (t.sections.put (placed s (-s.position))))
    (placed s stop)) _ = _
  have hparked : (t.sections.put (placed s (-s.position))).get? s.id =
      some (placed s (-s.position)) := Table.get?_put_self _ _
  have hsecond : inVersion s.testVersionId (placed s (-s.position)) = inVersion s.testVersionId s :=
    rfl
  obtain ⟨n, hshifted⟩ : ∃ n, (shift (fun r => inVersion s.testVersionId r &&
        decide ((span s.position stop).1 ≤ r.position ∧ r.position ≤ (span s.position stop).2.1))
      (fun r => inVersion s.testVersionId r && decide (r.id ≠ s.id)) (span s.position stop).2.2
      (t.sections.put (placed s (-s.position)))).get? (placed s stop).id =
        some (placed (placed s (-s.position)) n) := exists_get?_shift hparked
  have hin : ∀ r ∈ t.sections.select (inVersion s.testVersionId),
      inVersion s.testVersionId r = true := fun r hr => (List.mem_filter.1 hr).2
  have hselect : (t.sections.put (placed s (-s.position))).select (inVersion s.testVersionId) =
      (t.sections.select (inVersion s.testVersionId)).map
        (fun y => if y.id = s.id then placed s (-s.position) else y) :=
    select_put_of_get? (r := placed s (-s.position)) hs hsecond
  rw [select_put_of_get? hshifted rfl, select_shift_rows, hselect, List.map_map, List.map_map]
  · apply List.map_congr_left
    intro r hr
    simp only [Function.comp_apply, carried]
    by_cases hid : r.id = s.id
    · have hout : ¬ (span s.position stop).1 ≤ -s.position := by omega
      simp [hid, hout]
    · by_cases hspan : (span s.position stop).1 ≤ r.position ∧
        r.position ≤ (span s.position stop).2.1
      · simp [hid, hin r hr, hspan]
      · simp [hid, hin r hr, hspan]
  · intro y hy hm
    rw [hselect] at hy
    obtain ⟨r, hr, rfl⟩ := List.mem_map.1 hy
    by_cases hid : r.id = s.id
    · simp only [if_pos hid, placed_position, Bool.and_eq_true, decide_eq_true_eq] at hm
      omega
    · rw [if_neg hid]
      refine ⟨hpos r hr, ?_⟩
      simp [hin r hr, hid]
  · intro y hy _ hwithin
    rw [hselect] at hy
    obtain ⟨r, hr, rfl⟩ := List.mem_map.1 hy
    by_cases hid : r.id = s.id
    · rw [if_pos hid] at hwithin
      simp at hwithin
    · rw [if_neg hid]
      exact le_of_lt (hpos r hr)

end

/-! ## The order as a list -/

/-- The rows of a version, in the order of their positions `1..n`. -/
structure At (t : Tables) (tv : ℕ) (rows : List SectionRow) : Prop where
  perm : rows.Perm (t.sections.select (inVersion tv))
  numbered : ∀ (i : ℕ) (r : SectionRow), rows[i]? = some r → r.position = i + 1

section
variable {t : Tables} {tv f i : ℕ} {rows : List SectionRow} {s r : SectionRow}

theorem At.orderedSections_eq (h : At t tv rows) : orderedSections t tv = rows := by
  have hperm : (orderedSections t tv).Perm rows :=
    (List.perm_insertionSort _ _).trans h.perm.symm
  have htotal : Std.Total (fun a b : SectionRow => a.position ≤ b.position) :=
    ⟨fun a b => le_total a.position b.position⟩
  have htrans : IsTrans SectionRow (fun a b => a.position ≤ b.position) := ⟨fun _ _ _ => le_trans⟩
  refine hperm.eq_of_pairwise ?_ (List.pairwise_insertionSort _ _) ?_
  · intro a b ha hb hab hba
    obtain ⟨i, hi⟩ := List.mem_iff_getElem?.1 (hperm.mem_iff.1 ha)
    obtain ⟨j, hj⟩ := List.mem_iff_getElem?.1 hb
    have hpi := h.numbered i a hi
    have hpj := h.numbered j b hj
    have hij : i = j := by omega
    subst hij
    exact Option.some.inj (hi.symm.trans hj)
  · rw [List.pairwise_iff_getElem]
    intro i j hi hj hij
    have hpi := h.numbered i _ (List.getElem?_eq_getElem hi)
    have hpj := h.numbered j _ (List.getElem?_eq_getElem hj)
    omega

theorem at_of_numbered (h : Numbered t tv) : At t tv (orderedSections t tv) := by
  refine ⟨List.perm_insertionSort _ _, ?_⟩
  intro i r hr
  have hi : i < (orderedSections t tv).length := (List.getElem?_eq_some_iff.1 hr).1
  have hpos := congrArg (fun l => l[i]?) h
  simp only [List.getElem?_map, hr, Option.map_some, List.getElem?_range hi] at hpos
  exact Option.some.inj hpos

theorem At.numbered_of (h : At t tv rows) : Numbered t tv := by
  unfold Numbered
  rw [h.orderedSections_eq]
  apply List.ext_getElem?
  intro i
  rw [List.getElem?_map, List.getElem?_map]
  by_cases hi : i < rows.length
  · rw [List.getElem?_eq_getElem hi, List.getElem?_range hi, Option.map_some, Option.map_some,
      h.numbered i _ (List.getElem?_eq_getElem hi)]
  · rw [List.getElem?_eq_none (by omega), List.getElem?_eq_none (by rw [List.length_range]; omega)]
    rfl

theorem At.mem (h : At t tv rows) (hr : r ∈ rows) : r ∈ t.sections.rows ∧ r.testVersionId = tv := by
  obtain ⟨hrow, hin⟩ := List.mem_filter.1 (h.perm.mem_iff.1 hr)
  exact ⟨hrow, by simpa [inVersion] using hin⟩

theorem At.nodup_ids (h : At t tv rows) : (rows.map (fun s => s.id)).Nodup := by
  rw [(h.perm.map _).nodup_iff]
  exact (List.filter_sublist.map _).nodup t.sections.nodup

theorem At.get? (h : At t tv rows) (hr : r ∈ rows) : t.sections.get? r.id = some r :=
  Table.get?_eq_some.2 ⟨(h.mem hr).1, rfl⟩

theorem At.moved (h : At t tv rows) (hs : rows[f]? = some s) (hi : i < rows.length) (hne : i ≠ f) :
    At (moveSection s (i + 1) t) tv ((moveTo rows s i).map (carried s (i + 1))) := by
  have hmem : s ∈ rows := List.mem_of_getElem? hs
  have hnodup : rows.Nodup := h.nodup_ids.of_map _
  have htv := (h.mem hmem).2
  have hpos : s.position = f + 1 := h.numbered f s hs
  have hcount : sectionCount t s.testVersionId = rows.length := by
    unfold sectionCount
    rw [htv]
    exact h.perm.length_eq.symm
  have hselect : (moveSection s (i + 1) t).sections.select (inVersion tv) =
      (t.sections.select (inVersion tv)).map (carried s (i + 1)) := by
    have hstop : (i : ℤ) + 1 = max 1 (min ((i : ℤ) + 1) (sectionCount t s.testVersionId)) := by
      rw [hcount]
      omega
    have hfar : (i : ℤ) + 1 ≠ s.position := by omega
    have hpositive : ∀ r ∈ t.sections.select (inVersion s.testVersionId), 0 < r.position := by
      intro r hr
      rw [htv] at hr
      obtain ⟨j, hj⟩ := List.mem_iff_getElem?.1 (h.perm.mem_iff.2 hr)
      have hj := h.numbered j r hj
      omega
    have hgo := select_moveSection (h.get? hmem) hpositive hstop hfar
    rwa [htv] at hgo
  constructor
  · rw [hselect]
    exact ((perm_moveTo hmem).trans h.perm).map _
  · intro j r hr
    rw [List.getElem?_map, Option.map_eq_some_iff] at hr
    obtain ⟨x, hx, rfl⟩ := hr
    rw [getElem?_moveTo hnodup hs hi] at hx
    have hother : ∀ k, k ≠ f → rows[k]? = some x → x.id ≠ s.id := by
      intro k hk hget hid
      have hxs := h.get? (List.mem_of_getElem? hget)
      rw [hid, h.get? hmem] at hxs
      cases hxs
      exact hk (place_unique hnodup hget hs)
    split at hx
    · cases hx
      unfold carried
      rw [if_pos rfl, placed_position]
      omega
    · split at hx
      · have hxpos := h.numbered _ x hx
        rw [carried_position (hother _ (by omega) hx), if_pos (by omega), if_pos (by omega)]
        omega
      · split at hx
        · have hxpos := h.numbered _ x hx
          rw [carried_position (hother _ (by omega) hx), if_neg (by omega), if_pos (by omega)]
          omega
        · have hxpos := h.numbered _ x hx
          rw [carried_position (hother _ (by omega) hx)]
          split
          · rw [if_neg (by omega)]
            exact hxpos
          · rw [if_neg (by omega)]
            exact hxpos

theorem carried_id (stop : ℤ) : (carried s stop r).id = r.id := by
  unfold carried
  split
  · rename_i hid
    exact hid.symm
  · split <;> rfl

theorem At.applyMove (h : At t tv rows) (hs : s ∈ rows) (hi : i < rows.length) :
    ∃ rows', At (applyMove t { xid := s.id, position := i + 1 }) tv rows' ∧
      rows'.map (fun s => s.id) = moveTo (rows.map (fun s => s.id)) s.id i := by
  have hnodup : rows.Nodup := h.nodup_ids.of_map _
  obtain ⟨f, hf⟩ := List.mem_iff_getElem?.1 hs
  have hpos := h.numbered f s hf
  unfold SectionOrder.applyMove
  dsimp only
  rw [h.get? hs]
  dsimp only
  by_cases hif : i = f
  · subst hif
    have hid : (rows.map (fun s => s.id))[i]? = some s.id := by
      rw [List.getElem?_map, hf, Option.map_some]
    rw [if_pos hpos.symm]
    exact ⟨rows, h, (moveTo_self h.nodup_ids hid).symm⟩
  · rw [if_neg (by omega)]
    refine ⟨_, h.moved hf hi hif, ?_⟩
    rw [← map_moveTo hnodup h.nodup_ids hf, List.map_map]
    apply List.map_congr_left
    intro r _
    exact carried_id _

end

/-! ## The moves of an order -/

section
variable {t : Tables} {tv : ℕ} {desired : List Ordered}

theorem sectionMoves_eq (desired : List Ordered) : sectionMoves desired =
    (desired.zipIdx.filter (fun e => e.1.position ≠ some ((e.2 : ℤ) + 1))).map
      (fun e => { xid := e.1.xid, position := e.2 + 1 }) := by
  have hzip : desired.zipIdx.zipIdx = desired.zipIdx.map (fun e => (e, e.2)) := by
    apply List.ext_getElem?
    intro i
    simp only [List.getElem?_zipIdx, List.getElem?_map, Option.map_map, zero_add]
    rfl
  unfold sectionMoves
  rw [List.zipIdx_map, hzip, List.map_map, List.filter_map, List.map_map]
  have hsame : desired.zipIdx.filter ((fun e => decide (desired[e.2]?.bind Ordered.position ≠
      some e.1.position)) ∘ (Prod.map (fun e => SectionMove.mk e.1.xid (e.2 + 1)) id ∘
        fun e => (e, e.2))) =
      desired.zipIdx.filter (fun e => decide (e.1.position ≠ some ((e.2 : ℤ) + 1))) := by
    apply List.filter_congr
    intro e he
    have hget := List.mem_zipIdx_iff_getElem?.1 he
    simp [hget]
  rw [hsame]
  rfl

def orderOf (t : Tables) (tv : ℕ) : List ℕ := (orderedSections t tv).map (fun s => s.id)

theorem stands_iff (hn : Numbered t tv) {o : Ordered} (ho : o ∈ listSections t tv) (i : ℕ) :
    (orderOf t tv)[i]? = some o.xid ↔ o.position = some ((i : ℤ) + 1) := by
  have hat := at_of_numbered hn
  obtain ⟨s, hs, rfl⟩ := List.mem_map.1 ho
  obtain ⟨j, hj⟩ := List.mem_iff_getElem?.1 hs
  have hid : (orderOf t tv)[j]? = some s.id := by
    unfold orderOf
    rw [List.getElem?_map, hj, Option.map_some]
  have hpos := hat.numbered j s hj
  constructor
  · intro h
    have hij := place_unique hat.nodup_ids h hid
    rw [hij, hpos]
  · intro h
    have hij : i = j := by
      have hi := Option.some.inj h
      omega
    rw [hij]
    exact hid

theorem perm_order (hp : desired.Perm (listSections t tv)) :
    (desired.map Ordered.xid).Perm (orderOf t tv) := by
  have h := hp.map Ordered.xid
  unfold listSections at h
  rwa [List.map_map] at h

theorem at_sectionMoves (hn : Numbered t tv) (hp : desired.Perm (listSections t tv)) :
    ∃ rows, At ((sectionMoves desired).foldl applyMove t) tv rows ∧ rows.map (fun s => s.id) =
      (desired.map Ordered.xid).zipIdx.foldl (moved (orderOf t tv)) (orderOf t tv) := by
  have hlength : desired.length = (orderOf t tv).length := by
    rw [← (perm_order hp).length_eq, List.length_map]
  have hstep : ∀ e ∈ desired.zipIdx, ∀ (u : Tables) (l : List ℕ),
      (l.Perm (orderOf t tv) ∧ ∃ rows, At u tv rows ∧ rows.map (fun s => s.id) = l) →
      (moved (orderOf t tv) l (e.1.xid, e.2)).Perm (orderOf t tv) ∧ ∃ rows,
        At (if decide (e.1.position ≠ some ((e.2 : ℤ) + 1)) = true then
          applyMove u { xid := e.1.xid, position := e.2 + 1 } else u) tv rows ∧
        rows.map (fun s => s.id) = moved (orderOf t tv) l (e.1.xid, e.2) := by
    rintro ⟨o, i⟩ he u l ⟨hperm, rows, hat, hids⟩
    have hget : desired[i]? = some o := List.mem_zipIdx_iff_getElem?.1 he
    have ho : o ∈ listSections t tv := hp.mem_iff.1 (List.mem_of_getElem? hget)
    dsimp only
    unfold moved
    dsimp only
    by_cases hstay : o.position = some ((i : ℤ) + 1)
    · rw [if_pos ((stands_iff hn ho i).2 hstay), if_neg (by simp [hstay])]
      exact ⟨hperm, rows, hat, hids⟩
    · rw [if_neg (fun h => hstay ((stands_iff hn ho i).1 h)), if_pos (by simp [hstay])]
      have hmem : o.xid ∈ l := by
        rw [hperm.mem_iff, ← (perm_order hp).mem_iff]
        exact List.mem_map_of_mem (List.mem_of_getElem? hget)
      obtain ⟨s, hs, hid⟩ := List.mem_map.1 (hids ▸ hmem)
      have hi : i < rows.length := by
        have hlt := (List.getElem?_eq_some_iff.1 hget).1
        have hrows := congrArg List.length hids
        rw [List.length_map, hperm.length_eq] at hrows
        omega
      obtain ⟨rows', hat', hids'⟩ := hat.applyMove hs hi
      rw [hid, hids] at hids'
      rw [hid] at hat'
      exact ⟨(perm_moveTo hmem).trans hperm, rows', hat', hids'⟩
  rw [sectionMoves_eq, List.foldl_map, List.foldl_filter, List.zipIdx_map, List.foldl_map]
  exact (List.foldl_rel ⟨.refl _, _, at_of_numbered hn, rfl⟩ hstep).2

theorem clear_iff (hn : Numbered t tv) (hp : desired.Perm (listSections t tv)) :
    Clear (orderOf t tv) (desired.map Ordered.xid) ↔ Unpassed desired := by
  have hnodup : (orderOf t tv).Nodup := (at_of_numbered hn).nodup_ids
  have hlisted : ∀ {i : ℕ} {o : Ordered}, desired[i]? = some o → o ∈ listSections t tv :=
    fun h => hp.mem_iff.1 (List.mem_of_getElem? h)
  have hplace : ∀ {i : ℕ} {o : Ordered}, desired[i]? = some o →
      (desired.map Ordered.xid)[i]? = some o.xid := by
    intro i o h
    rw [List.getElem?_map, h, Option.map_some]
  constructor
  · intro hclear f g u a b c p hfg hgu ha hstay hb hmove hc hpc
    by_contra hlt
    have hcmem : c.xid ∈ orderOf t tv :=
      (perm_order hp).mem_iff.1 (List.mem_of_getElem? (hplace hc))
    obtain ⟨i, hi⟩ := List.mem_iff_getElem?.1 hcmem
    have hpi := (stands_iff hn (hlisted hc) i).1 hi
    rw [hpc, Option.some.injEq] at hpi
    exact hclear i f g u a.xid b.xid c.xid (by omega) hfg hgu
      ((stands_iff hn (hlisted ha) f).2 hstay) (hplace ha) (hplace hb)
      (fun h => hmove ((stands_iff hn (hlisted hb) g).1 h)) hi (hplace hc)
  · intro hunpassed i f g u a b c hif hfg hgu hsa hda hdb hsb hsc hdc
    rw [List.getElem?_map, Option.map_eq_some_iff] at hda hdb hdc
    obtain ⟨a, ha, rfl⟩ := hda
    obtain ⟨b, hb, rfl⟩ := hdb
    obtain ⟨c, hc, rfl⟩ := hdc
    have hle := hunpassed f g u a b c _ hfg hgu ha ((stands_iff hn (hlisted ha) f).1 hsa) hb
      (fun h => hsb ((stands_iff hn (hlisted hb) g).2 h)) hc
      ((stands_iff hn (hlisted hc) i).1 hsc)
    omega

/-- The moves end in the desired order exactly where nothing that has to go past is left behind. -/
theorem converges_iff (t : Tables) (tv : ℕ) (hn : Numbered t tv) (desired : List Ordered)
    (hp : desired.Perm (listSections t tv)) :
    orderOf ((sectionMoves desired).foldl applyMove t) tv = desired.map Ordered.xid ↔
      Unpassed desired := by
  obtain ⟨rows, hat, hids⟩ := at_sectionMoves hn hp
  have horder : orderOf ((sectionMoves desired).foldl applyMove t) tv =
      (desired.map Ordered.xid).zipIdx.foldl (moved (orderOf t tv)) (orderOf t tv) := by
    unfold orderOf
    rw [hat.orderedSections_eq]
    exact hids
  rw [horder, ← clear_iff hn hp]
  exact arrives_iff (at_of_numbered hn).nodup_ids (perm_order hp)

/-- Wherever they end, the positions stay `1..n`. -/
theorem numbered_sectionMoves (hn : Numbered t tv) (hp : desired.Perm (listSections t tv)) :
    Numbered ((sectionMoves desired).foldl applyMove t) tv := by
  obtain ⟨rows, hat, _⟩ := at_sectionMoves hn hp
  exact hat.numbered_of

theorem orderOf_mapRows {f : SectionRow → SectionRow} {hf : ∀ s, (f s).id = s.id}
    (hpos : ∀ s, (f s).position = s.position) (hver : ∀ s, inVersion tv (f s) = inVersion tv s) :
    orderOf { t with sections := t.sections.mapRows f hf } tv = orderOf t tv := by
  unfold orderOf orderedSections
  have hsort := List.map_insertionSort (fun a b : SectionRow => a.position ≤ b.position)
    (fun a b : SectionRow => a.position ≤ b.position) f (t.sections.select (inVersion tv))
    (fun a _ b _ => by rw [hpos, hpos])
  rw [Table.select_mapRows hver, ← hsort, List.map_map]
  apply List.map_congr_left
  intro s _
  exact hf s

theorem orderOf_reviseSection {id : ℕ} {f : SectionRow → SectionRow} {hf : ∀ s, (f s).id = s.id}
    (hpos : ∀ s, (f s).position = s.position) (hver : ∀ s, inVersion tv (f s) = inVersion tv s) :
    orderOf (reviseSection id f hf t) tv = orderOf t tv := by
  have hrevise : ∀ s : SectionRow, (if s.id = id then f s else s).id = s.id := by
    intro s
    split
    · exact hf s
    · rfl
  refine @orderOf_mapRows t tv _ hrevise ?_ ?_
  · intro s
    split
    · exact hpos s
    · rfl
  · intro s
    split
    · exact hver s
    · rfl

/-- The request of a move does to the order what the move does. -/
theorem orderOf_updateSection {l l' : Library} {id : ℕ} {r : Reach} {b : SectionBody}
    (h : updateSection l id r b = .ok l') :
    orderOf l'.tables tv =
      orderOf (applyMove l.tables { xid := id, position := b.position }) tv := by
  unfold updateSection at h
  obtain ⟨s, hs, h⟩ := bind_eq_ok.1 h
  obtain ⟨v, _, h⟩ := bind_eq_ok.1 h
  obtain ⟨passageVersionId, _, h⟩ := bind_eq_ok.1 h
  obtain ⟨audioTrackId, _, h⟩ := bind_eq_ok.1 h
  have hget : l.tables.sections.get? id = some s := found_eq_ok hs
  have hmove : applyMove l.tables { xid := id, position := b.position } =
      if (b.position : ℤ) = s.position then l.tables else moveSection s b.position l.tables := by
    unfold applyMove
    rw [hget]
  rw [commit_eq_ok h, hmove]
  exact @orderOf_reviseSection _ tv s.id (revised b passageVersionId audioTrackId) (fun _ => rfl)
    (fun _ => rfl) (fun _ => rfl)

end

/-! ## Where the moves miss -/

def sectionRow (id : ℕ) : SectionRow := { id, testVersionId := 1, position := id }

def fourSections : Tables where
  sections := { rows := [1, 2, 3, 4].map sectionRow, nodup := by decide }

def orderTo (ids : List ℕ) : List Ordered := ids.map (fun id => { xid := id, position := some id })

/-- Two that change places do. -/
theorem converges_iff_swap :
    orderOf ((sectionMoves (orderTo [2, 1, 3, 4])).foldl applyMove fourSections) 1 =
      (orderTo [2, 1, 3, 4]).map Ordered.xid ↔ Unpassed (orderTo [2, 1, 3, 4]) :=
  converges_iff fourSections 1 (by unfold Numbered; decide +kernel) (orderTo [2, 1, 3, 4])
    (by decide +kernel)

theorem numbered_sectionMoves_swap :
    Numbered ((sectionMoves (orderTo [2, 1, 3, 4])).foldl applyMove fourSections) 1 :=
  numbered_sectionMoves (by unfold Numbered; decide +kernel) (by decide +kernel)

def draftPaper : Library where
  tables := { fourSections with testVersions := .put .empty { id := 1, xid := "tv1" } }
  valid := by decide +kernel

theorem orderOf_updateSection_first : ∃ l',
    updateSection draftPaper 1 {} { position := 3, skill := "reading", title := "One" } = .ok l' ∧
      orderOf l'.tables 1 =
        orderOf (applyMove draftPaper.tables { xid := 1, position := 3 }) 1 := by
  have hok : (updateSection draftPaper 1 {}
      { position := 3, skill := "reading", title := "One" }).toOption.isSome = true := by
    decide +kernel
  cases h : updateSection draftPaper 1 {} { position := 3, skill := "reading", title := "One" } with
  | error e =>
    rw [h] at hok
    cases hok
  | ok l' => exact ⟨l', rfl, orderOf_updateSection h⟩

/-- The second stays, the fourth is to stand behind it, and the first has to go past both. -/
theorem moves_miss : ¬ ∀ (t : Tables) (tv : ℕ) (desired : List Ordered), Numbered t tv →
    desired.Perm (listSections t tv) →
      orderOf ((sectionMoves desired).foldl applyMove t) tv = desired.map Ordered.xid := by
  intro h
  have hmiss := h fourSections 1 (orderTo [3, 2, 4, 1]) (by unfold Numbered; decide +kernel)
    (by decide +kernel)
  exact absurd hmiss (by decide +kernel)

end IeltsHub.SectionOrder
