import IeltsHub.AuthoringEdits

set_option autoImplicit false

/-!
# What structural edits leave alone

A structural edit is refused on a frozen version, and on any other it writes that version's
sections and what is placed in them. Either way every frozen version keeps its own.
-/
namespace IeltsHub.UntouchedVersions
open PyExc PyDict RowTable ContentDrafts ContentTables AuthoringEdits Positioned

/-! ## Rows a condition does not see -/

section
variable {ρ : Type} {key : ρ → ℕ} {t : Table ρ ℕ key} {q : ρ → Bool}

theorem select_put_of_ne {row : ρ} (hrow : q row = false)
    (h : ∀ r ∈ t.select q, key r ≠ key row) : (t.put row).select q = t.select q := by
  apply Table.select_put hrow
  intro x hx
  obtain ⟨hmem, hkey⟩ := Table.get?_eq_some.1 hx
  cases hq : q x with
  | false => rfl
  | true => exact absurd hkey (h x (List.mem_filter.2 ⟨hmem, hq⟩))

theorem ne_of_get? {row : ρ} (hget : t.get? (key row) = some row) (hrow : q row = false) :
    ∀ r ∈ t.select q, key r ≠ key row := by
  intro r hr hkey
  obtain ⟨hmem, hq⟩ := List.mem_filter.1 hr
  have hsame : t.get? (key row) = some r := Table.get?_eq_some.2 ⟨hmem, hkey⟩
  rw [hget] at hsame
  cases hsame
  rw [hrow] at hq
  cases hq

theorem ne_of_fresh {n : ℕ} (h : t.get? n = none) : ∀ r ∈ t.select q, key r ≠ n :=
  fun r hr => Table.get?_eq_none.1 h r (List.mem_filter.1 hr).1

theorem select_remove_of_mem {p : ρ → Bool} (h : ∀ r ∈ t.select q, p r = false) :
    (t.remove p).select q = t.select q := by
  unfold Table.select Table.remove
  rw [List.filter_filter]
  refine List.filter_congr (fun r hr => ?_)
  cases hq : q r with
  | false => rfl
  | true => simp [h r (List.mem_filter.2 ⟨hr, hq⟩)]

theorem select_mapRows_of_mem {f : ρ → ρ} {hf : ∀ r, key (f r) = key r} (hq : ∀ r, q (f r) = q r)
    (h : ∀ r ∈ t.select q, f r = r) : (t.mapRows f hf).select q = t.select q := by
  rw [Table.select_mapRows hq]
  conv_rhs => rw [← List.map_id (t.select q)]
  exact List.map_congr_left h

variable [Positioned key]

theorem select_replace {moves : ρ → Bool} {f : ℤ → ℤ} (hplace : ∀ r n, q (place key r n) = q r)
    (h : ∀ r ∈ t.select q, moves r = false) : (replace moves f t).select q = t.select q := by
  apply select_mapRows_of_mem
  · intro r
    split
    · exact hplace r _
    · rfl
  · intro r hr
    simp [h r hr]

theorem select_park_land {moves within : ρ → Bool} {delta : ℤ}
    (hplace : ∀ r n, q (place key r n) = q r) (hmoves : ∀ r ∈ t.select q, moves r = false)
    (hwithin : ∀ r ∈ t.select q, within r = false) :
    (land within delta (park moves t)).select q = t.select q := by
  have hpark : (park moves t).select q = t.select q := select_replace hplace hmoves
  unfold land
  rw [select_replace hplace, hpark]
  intro r hr
  rw [hpark] at hr
  simp [hwithin r hr]

theorem select_shift {moves within : ρ → Bool} {delta : ℤ}
    (hplace : ∀ r n, q (place key r n) = q r) (hmoves : ∀ r ∈ t.select q, moves r = false)
    (hwithin : ∀ r ∈ t.select q, within r = false) :
    (shift moves within delta t).select q = t.select q := by
  unfold shift
  split
  · exact select_park_land hplace hmoves hwithin
  · rfl

end

/-! ## A version left alone -/

/-- The sections of a version and what is placed in them, its numbering apart; and every table but
those two. -/
structure Untouched (tv : ℕ) (t t' : Tables) : Prop where
  sections : t'.sections.select (inVersion tv) = t.sections.select (inVersion tv)
  placements : ∀ s ∈ t.sections.select (inVersion tv),
    (t'.placements.select (inSection s.id)).map PlacementRow.toTestVersionGroup =
      (t.placements.select (inSection s.id)).map PlacementRow.toTestVersionGroup
  rest : t' = { t with sections := t'.sections, placements := t'.placements }

theorem Untouched.refl (tv : ℕ) (t : Tables) : Untouched tv t t := ⟨rfl, fun _ _ => rfl, rfl⟩

theorem Untouched.trans {tv : ℕ} {t u w : Tables} (h : Untouched tv t u) (h' : Untouched tv u w) :
    Untouched tv t w where
  sections := h'.sections.trans h.sections
  placements := by
    intro s hs
    have hs' : s ∈ u.sections.select (inVersion tv) := h.sections ▸ hs
    exact (h'.placements s hs').trans (h.placements s hs)
  rest := by
    rw [h'.rest, h.rest]

section
variable {tv : ℕ} {t : Tables}

theorem untouched_sections {u : Table SectionRow ℕ (fun s => s.id)}
    (h : u.select (inVersion tv) = t.sections.select (inVersion tv)) :
    Untouched tv t { t with sections := u } := ⟨h, fun _ _ => rfl, rfl⟩

theorem untouched_placements {u : Table PlacementRow ℕ (fun g => g.id)}
    (h : ∀ s ∈ t.sections.select (inVersion tv),
      u.select (inSection s.id) = t.placements.select (inSection s.id)) :
    Untouched tv t { t with placements := u } :=
  ⟨rfl, fun s hs => congrArg _ (h s hs), rfl⟩

theorem elsewhere {other : ℕ} (h : other ≠ tv) {s : SectionRow}
    (hs : s ∈ t.sections.select (inVersion tv)) : inVersion other s = false := by
  have hv := (List.mem_filter.1 hs).2
  simp only [inVersion, decide_eq_true_eq] at hv
  simp [inVersion, hv, h.symm]

theorem elsewhere_placement {sectionId : ℕ} {s : SectionRow} (h : s.id ≠ sectionId)
    {g : PlacementRow} (hg : g ∈ t.placements.select (inSection s.id)) :
    inSection sectionId g = false := by
  have hv := (List.mem_filter.1 hg).2
  simp only [inSection, decide_eq_true_eq] at hv
  simp [inSection, hv, h]

theorem untouched_makeRoom {other : ℕ} (h : other ≠ tv) (p : ℤ) :
    Untouched tv t (makeRoom other p t) := by
  apply untouched_sections
  apply select_shift (fun _ _ => rfl)
  · intro r hr
    simp [elsewhere h hr]
  · intro r hr
    exact elsewhere h hr

theorem untouched_closePositionGap {other : ℕ} (h : other ≠ tv) (removed : ℤ) :
    Untouched tv t (closePositionGap other removed t) := by
  apply untouched_sections
  apply select_park_land (fun _ _ => rfl)
  · intro r hr
    simp [elsewhere h hr]
  · intro r hr
    exact elsewhere h hr

theorem untouched_makeRoomForGroup {sectionId : ℕ}
    (h : ∀ s ∈ t.sections.select (inVersion tv), s.id ≠ sectionId) (p : ℤ) :
    Untouched tv t (makeRoomForGroup sectionId p t) := by
  apply untouched_placements
  intro s hs
  apply select_shift (fun _ _ => rfl)
  · intro r hr
    simp [elsewhere_placement (h s hs) hr]
  · intro r hr
    exact elsewhere_placement (h s hs) hr

theorem untouched_renumber (other : ℕ) : Untouched tv t (renumber other t) := by
  refine ⟨rfl, ?_, rfl⟩
  intro s _
  unfold renumber
  dsimp only
  rw [Table.select_mapRows, List.map_map]
  · rfl
  · intro g
    rfl

theorem untouched_putSection {row : SectionRow} (hrow : inVersion tv row = false)
    (h : ∀ s ∈ t.sections.select (inVersion tv), s.id ≠ row.id) :
    Untouched tv t { t with sections := t.sections.put row } :=
  untouched_sections (select_put_of_ne hrow h)

theorem untouched_putPlacement {row : PlacementRow}
    (hrow : ∀ s ∈ t.sections.select (inVersion tv), s.id ≠ row.sectionId)
    (hfresh : t.placements.get? row.id = none) :
    Untouched tv t { t with placements := t.placements.put row } := by
  apply untouched_placements
  intro s hs
  apply select_put_of_ne
  · simpa [inSection] using (hrow s hs).symm
  · exact ne_of_fresh hfresh

theorem untouched_reviseSection {id : ℕ} {f : SectionRow → SectionRow} {hf : ∀ s, (f s).id = s.id}
    (hv : ∀ s, (f s).testVersionId = s.testVersionId)
    (h : ∀ s ∈ t.sections.select (inVersion tv), s.id ≠ id) :
    Untouched tv t (reviseSection id f hf t) := by
  apply untouched_sections
  apply select_mapRows_of_mem
  · intro s
    split
    · unfold inVersion
      rw [hv]
    · rfl
  · intro s hs
    exact if_neg (h s hs)

theorem select_moved {s : SectionRow} (hs : inVersion tv s = false)
    (h : ∀ r ∈ t.sections.select (inVersion tv), r.id ≠ s.id) (moves within : SectionRow → Bool)
    (delta stop : ℤ) (parked : Table SectionRow ℕ (fun s => s.id))
    (hparked : parked = t.sections.put { s with position := -s.position }) :
    ((shift (fun r => inVersion s.testVersionId r && moves r)
      (fun r => inVersion s.testVersionId r && within r) delta parked).put
        { s with position := stop }).select (inVersion tv) = t.sections.select (inVersion tv) := by
  have hother : s.testVersionId ≠ tv := by simpa [inVersion] using hs
  have hselect : parked.select (inVersion tv) = t.sections.select (inVersion tv) := by
    rw [hparked]
    exact select_put_of_ne hs h
  have hshifted : (shift (fun r => inVersion s.testVersionId r && moves r)
      (fun r => inVersion s.testVersionId r && within r) delta parked).select (inVersion tv) =
        t.sections.select (inVersion tv) := by
    rw [select_shift (fun _ _ => rfl), hselect]
    · intro r hr
      rw [hselect] at hr
      simp [elsewhere hother hr]
    · intro r hr
      rw [hselect] at hr
      simp [elsewhere hother hr]
  rw [select_put_of_ne, hshifted]
  · exact hs
  · rw [hshifted]
    exact h

theorem untouched_moveSection {s : SectionRow} (hs : inVersion tv s = false)
    (h : ∀ r ∈ t.sections.select (inVersion tv), r.id ≠ s.id) (wanted : ℤ) :
    Untouched tv t (moveSection s wanted t) := by
  unfold moveSection
  dsimp only
  split
  · exact .refl tv t
  · exact untouched_sections (select_moved hs h _ _ _ _ _ rfl)

end

/-! ## The structural endpoints -/

def Frozen (tv : ℕ) (t : Tables) : Prop :=
  ∃ v, t.testVersions.get? tv = some v ∧ mutable v.draft.status ≠ .ok ()

section
variable {tv : ℕ} {t : Tables} {l l' : Library} {r : Reach}

theorem found_eq_ok {ρ : Type} {missing : String} {o : Option ρ} {row : ρ}
    (h : found missing o = .ok row) : o = some row := by
  cases o with
  | none => cases h
  | some x =>
    cases h
    rfl

theorem editable_eq_ok {id : ℕ} {access : Except Denied Unit} {missing : String}
    {v : TestVersionRow} (h : editable t id access missing = .ok v) :
    t.testVersions.get? id = some v ∧ mutable v.draft.status = .ok () := by
  unfold editable at h
  obtain ⟨w, hw, h⟩ := bind_eq_ok.1 h
  obtain ⟨_, _, h⟩ := bind_eq_ok.1 h
  obtain ⟨_, hmutable, h⟩ := bind_eq_ok.1 h
  cases h
  exact ⟨found_eq_ok hw, hmutable⟩

theorem editable_ne {id : ℕ} {access : Except Denied Unit} {missing : String} {v : TestVersionRow}
    (hfrozen : Frozen tv t) (h : editable t id access missing = .ok v) : v.id = id ∧ id ≠ tv := by
  obtain ⟨hget, hmutable⟩ := editable_eq_ok h
  refine ⟨Table.get?_key hget, ?_⟩
  rintro rfl
  obtain ⟨w, hw, hno⟩ := hfrozen
  rw [hget] at hw
  cases hw
  exact hno hmutable

theorem untouched_createSection {id : ℕ} {b : SectionBody} (hfrozen : Frozen tv l.tables)
    (h : createSection l id r b = .ok l') : Untouched tv l.tables l'.tables := by
  unfold createSection at h
  obtain ⟨v, hv, h⟩ := bind_eq_ok.1 h
  obtain ⟨hid, hne⟩ := editable_ne hfrozen hv
  obtain ⟨passage, _, h⟩ := bind_eq_ok.1 h
  obtain ⟨audio, _, h⟩ := bind_eq_ok.1 h
  rw [commit_eq_ok h]
  have hother : v.id ≠ tv := hid ▸ hne
  have hroom : Untouched tv l.tables
      (makeRoom v.id ((min b.position (sectionCount l.tables v.id + 1) : ℕ) : ℤ) l.tables) :=
    untouched_makeRoom hother _
  refine hroom.trans (Untouched.trans ?_ (untouched_renumber v.id))
  apply untouched_putSection
  · simpa [inVersion] using hother
  · exact ne_of_fresh (Table.get?_nextId _)

theorem section_elsewhere {s : SectionRow} {v : TestVersionRow} {sectionId : ℕ} {missing : String}
    (hfrozen : Frozen tv l.tables) (hs : l.tables.sections.get? sectionId = some s)
    (hv : editable l.tables s.testVersionId r.access missing = .ok v) :
    v.id ≠ tv ∧ inVersion tv s = false ∧
      ∀ x ∈ l.tables.sections.select (inVersion tv), x.id ≠ s.id := by
  obtain ⟨hid, hne⟩ := editable_ne hfrozen hv
  have hout : inVersion tv s = false := by simpa [inVersion] using hne
  have hself : l.tables.sections.get? s.id = some s := by
    rw [Table.get?_key hs]
    exact hs
  exact ⟨hid ▸ hne, hout, ne_of_get? hself hout⟩

theorem untouched_updateSection {id : ℕ} {b : SectionBody} (hfrozen : Frozen tv l.tables)
    (h : updateSection l id r b = .ok l') : Untouched tv l.tables l'.tables := by
  unfold updateSection at h
  obtain ⟨s, hs, h⟩ := bind_eq_ok.1 h
  obtain ⟨v, hv, h⟩ := bind_eq_ok.1 h
  obtain ⟨passage, _, h⟩ := bind_eq_ok.1 h
  obtain ⟨audio, _, h⟩ := bind_eq_ok.1 h
  rw [commit_eq_ok h]
  obtain ⟨hother, hout, hids⟩ := section_elsewhere hfrozen (found_eq_ok hs) hv
  have hmoved : Untouched tv l.tables
      (if (b.position : ℤ) = s.position then l.tables else moveSection s b.position l.tables) := by
    split
    · exact .refl tv l.tables
    · exact untouched_moveSection hout hids b.position
  refine hmoved.trans (Untouched.trans ?_ (untouched_renumber v.id))
  apply untouched_reviseSection
  · intro x
    rfl
  · rw [hmoved.sections]
    exact hids

theorem untouched_deleteSection {id : ℕ} (hfrozen : Frozen tv l.tables)
    (h : deleteSection l id r = .ok l') : Untouched tv l.tables l'.tables := by
  unfold deleteSection at h
  obtain ⟨s, hs, h⟩ := bind_eq_ok.1 h
  obtain ⟨v, hv, h⟩ := bind_eq_ok.1 h
  rw [commit_eq_ok h]
  obtain ⟨hother, hout, hids⟩ := section_elsewhere hfrozen (found_eq_ok hs) hv
  refine Untouched.trans ?_ ((untouched_closePositionGap hother s.position).trans
    (untouched_renumber v.id))
  refine ⟨?_, ?_, rfl⟩
  · apply select_remove_of_mem
    intro x hx
    simpa using hids x hx
  · intro x hx
    apply congrArg
    apply Table.select_remove
    intro g hg
    simp only [inSection, decide_eq_true_eq] at hg
    simpa [inSection, hg] using hids x hx

theorem untouched_placeGroup {id : ℕ} {b : GroupPlacementBody} (hfrozen : Frozen tv l.tables)
    (h : placeGroup l id r b = .ok l') : Untouched tv l.tables l'.tables := by
  unfold placeGroup at h
  obtain ⟨s, hs, h⟩ := bind_eq_ok.1 h
  obtain ⟨v, hv, h⟩ := bind_eq_ok.1 h
  obtain ⟨gv, _, h⟩ := bind_eq_ok.1 h
  split at h
  · cases h
  · rw [commit_eq_ok h]
    obtain ⟨hother, hout, hids⟩ := section_elsewhere hfrozen (found_eq_ok hs) hv
    have hroom : Untouched tv l.tables (makeRoomForGroup s.id b.position l.tables) :=
      untouched_makeRoomForGroup hids b.position
    refine hroom.trans (Untouched.trans ?_ (untouched_renumber v.id))
    apply untouched_putPlacement
    · rw [hroom.sections]
      exact hids
    · exact Table.get?_nextId _

theorem mem_placementsByXid {sectionId id : ℕ} (h : id ∈ (placementsByXid t sectionId).values) :
    ∃ g ∈ t.placements.rows, g.id = id ∧ g.sectionId = sectionId := by
  obtain ⟨e, he, rfl⟩ := List.mem_map.1 h
  have hget : (placementsByXid t sectionId).get? e.1 = some e.2 := Dict.get?_eq_some.2 he
  obtain ⟨g, hg, hpair⟩ := List.mem_filterMap.1 (Dict.mem_of_get?_ofList hget)
  obtain ⟨gv, _, hpair⟩ := Option.map_eq_some_iff.1 hpair
  obtain ⟨hmem, hin⟩ := List.mem_filter.1 hg
  exact ⟨g, hmem, congrArg Prod.snd hpair, by simpa [inSection] using hin⟩

theorem select_setPositions {q : PlacementRow → Bool}
    (hq : ∀ g n, q (place (fun g : PlacementRow => g.id) g n) = q g) (es : List (ℕ × ℕ))
    (u : Table PlacementRow ℕ (fun g => g.id))
    (h : ∀ g ∈ u.select q, ∀ e ∈ es, g.id ≠ e.1) :
    (es.foldl (fun t e => setPosition e.1 e.2 t) u).select q = u.select q := by
  induction es generalizing u with
  | nil => rfl
  | cons e es ih =>
    have hone : (setPosition e.1 e.2 u).select q = u.select q := by
      apply select_replace hq
      intro g hg
      simpa using h g hg e List.mem_cons_self
    rw [List.foldl_cons, ih, hone]
    rw [hone]
    exact fun g hg e' he' => h g hg e' (List.mem_cons_of_mem e he')

theorem untouched_reorderGroups {id : ℕ} {xids : List String} (hfrozen : Frozen tv l.tables)
    (h : reorderGroups l id r xids = .ok l') : Untouched tv l.tables l'.tables := by
  unfold reorderGroups at h
  obtain ⟨s, hs, h⟩ := bind_eq_ok.1 h
  obtain ⟨v, hv, h⟩ := bind_eq_ok.1 h
  dsimp only at h
  split at h
  · cases h
  · rw [commit_eq_ok h]
    obtain ⟨hother, hout, hids⟩ := section_elsewhere hfrozen (found_eq_ok hs) hv
    refine Untouched.trans ?_ (untouched_renumber v.id)
    apply untouched_placements
    intro x hx
    have hmoved : ∀ g ∈ l.tables.placements.select (inSection x.id),
        ∀ n ∈ (placementsByXid l.tables s.id).values, g.id ≠ n := by
      intro g hg n hn hgn
      obtain ⟨g', hmem', hid', hsection'⟩ := mem_placementsByXid hn
      obtain ⟨hmem, hin⟩ := List.mem_filter.1 hg
      have hsame : g = g' := List.inj_on_of_nodup_map l.tables.placements.nodup hmem hmem'
        (hgn.trans hid'.symm)
      simp only [inSection, decide_eq_true_eq] at hin
      exact hids x hx (by rw [← hin, hsame, hsection'])
    have hpark : (park (fun g : PlacementRow =>
        decide (g.id ∈ (placementsByXid l.tables s.id).values)) l.tables.placements).select
          (inSection x.id) = l.tables.placements.select (inSection x.id) := by
      apply select_replace (fun _ _ => rfl)
      intro g hg
      simp only [decide_eq_false_iff_not]
      exact fun hn => hmoved g hg g.id hn rfl
    rw [select_setPositions (fun _ _ => rfl), hpark]
    rw [hpark]
    intro g hg e he
    obtain ⟨xid, _, hxid⟩ := List.mem_filterMap.1 (List.fst_mem_of_mem_zipIdx he)
    exact hmoved g hg e.1 (List.mem_map.2 ⟨_, Dict.get?_eq_some.1 hxid, rfl⟩)

end

end IeltsHub.UntouchedVersions
