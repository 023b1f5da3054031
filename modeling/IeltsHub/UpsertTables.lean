import IeltsHub.RowTable

set_option autoImplicit false

/-!
# Upserts

`INSERT … ON CONFLICT DO UPDATE`, one statement after another. Of several that meet in one row the
last has its way, and a second run of the same statements changes nothing.
-/
namespace IeltsHub.UpsertTables
open RowTable

/-- How a statement writes: the row it makes, and what it makes of the row it meets. -/
structure Upsert (ρ π κ : Type) (key : ρ → κ) where
  target : π → κ
  insert : π → ρ
  update : ρ → π → ρ
  key_insert : ∀ p, key (insert p) = target p
  key_update : ∀ r p, key (update r p) = key r
  update_update : ∀ r p q, update (update r p) q = update r q
  update_insert : ∀ p, update (insert p) p = insert p

variable {ρ π κ : Type} {key : ρ → κ} [DecidableEq κ]

namespace Upsert

def row (u : Upsert ρ π κ key) (old : Option ρ) (p : π) : ρ :=
  match old with
  | none => u.insert p
  | some r => u.update r p

def write (u : Upsert ρ π κ key) (t : Table ρ κ key) (p : π) : Table ρ κ key :=
  t.put (u.row (t.get? (u.target p)) p)

def writes (u : Upsert ρ π κ key) (t : Table ρ κ key) (ps : List π) : Table ρ κ key :=
  ps.foldl u.write t

def lastOf (u : Upsert ρ π κ key) (ps : List π) (k : κ) : Option π :=
  (ps.filter (fun p => u.target p = k)).getLast?

variable {u : Upsert ρ π κ key} {t : Table ρ κ key} {ps : List π} {p : π} {k : κ}

theorem writes_concat (u : Upsert ρ π κ key) (t : Table ρ κ key) (ps : List π) (p : π) :
    u.writes t (ps ++ [p]) = u.write (u.writes t ps) p := List.foldl_concat _ _ _ _

theorem lastOf_concat (u : Upsert ρ π κ key) (ps : List π) (p : π) (k : κ) :
    u.lastOf (ps ++ [p]) k = if u.target p = k then some p else u.lastOf ps k := by
  unfold lastOf
  by_cases h : u.target p = k
  · rw [if_pos h, List.filter_append, List.filter_cons_of_pos (by simpa using h)]
    exact List.getLast?_concat
  · rw [if_neg h, List.filter_append, List.filter_cons_of_neg (by simpa using h)]
    simp

theorem lastOf_eq_none : u.lastOf ps k = none ↔ ∀ p ∈ ps, u.target p ≠ k := by
  unfold lastOf
  rw [List.getLast?_eq_none_iff, List.filter_eq_nil_iff]
  simp

theorem lastOf_mem (h : u.lastOf ps k = some p) : p ∈ ps ∧ u.target p = k := by
  have hmem := List.mem_of_getLast? h
  simpa using List.mem_filter.1 hmem

theorem key_row (u : Upsert ρ π κ key) (t : Table ρ κ key) (p : π) :
    key (u.row (t.get? (u.target p)) p) = u.target p := by
  cases h : t.get? (u.target p) with
  | none => exact u.key_insert p
  | some r => exact (u.key_update r p).trans (Table.get?_key h)

theorem get?_write (u : Upsert ρ π κ key) (t : Table ρ κ key) (p : π) (k : κ) :
    (u.write t p).get? k = if u.target p = k then some (u.row (t.get? k) p) else t.get? k := by
  have hkey := key_row u t p
  unfold write
  rw [Table.get?_put, hkey]
  split
  · rename_i h
    rw [h]
  · rfl

theorem get?_writes_of_none (h : u.lastOf ps k = none) : (u.writes t ps).get? k = t.get? k := by
  induction ps using List.reverseRecOn with
  | nil => rfl
  | append_singleton ps p ih =>
    rw [lastOf_concat] at h
    split at h
    · cases h
    · rename_i hp
      rw [writes_concat, get?_write, if_neg hp, ih h]

theorem get?_writes_of_some (h : u.lastOf ps k = some p) :
    ∃ old, (u.writes t ps).get? k = some (u.row old p) := by
  induction ps using List.reverseRecOn with
  | nil => cases h
  | append_singleton ps q ih =>
    rw [lastOf_concat] at h
    rw [writes_concat, get?_write]
    split at h
    · rename_i hq
      cases h
      exact ⟨_, if_pos hq⟩
    · rename_i hq
      rw [if_neg hq]
      exact ih h

theorem get?_writes_present {r : ρ} (hr : t.get? k = some r) (h : u.lastOf ps k = some p) :
    (u.writes t ps).get? k = some (u.update r p) := by
  induction ps using List.reverseRecOn generalizing p with
  | nil => cases h
  | append_singleton ps q ih =>
    rw [lastOf_concat] at h
    rw [writes_concat, get?_write]
    split at h
    · rename_i hq
      cases h
      rw [if_pos hq]
      cases hlast : u.lastOf ps k with
      | none =>
        rw [get?_writes_of_none hlast, hr]
        rfl
      | some p' =>
        rw [ih hlast]
        exact congrArg some (u.update_update r p' _)
    · rename_i hq
      rw [if_neg hq]
      exact ih h

omit [DecidableEq κ] in
theorem update_row (u : Upsert ρ π κ key) (old : Option ρ) (p : π) :
    u.update (u.row old p) p = u.row old p := by
  cases old with
  | none => exact u.update_insert p
  | some r => exact u.update_update r p p

theorem keys_write {t : Table ρ κ key} (h : t.get? (u.target p) ≠ none) :
    (u.write t p).rows.map key = t.rows.map key := by
  have hrow := key_row u t p
  unfold write Table.put
  rw [map_putRow, hrow, if_pos]
  obtain ⟨r, hr⟩ := Option.ne_none_iff_exists'.1 h
  obtain ⟨hmem, hkey⟩ := Table.get?_eq_some.1 hr
  rw [← hkey]
  exact List.mem_map_of_mem hmem

theorem keys_writes {t : Table ρ κ key} (h : ∀ p ∈ ps, t.get? (u.target p) ≠ none) :
    (u.writes t ps).rows.map key = t.rows.map key := by
  induction ps using List.reverseRecOn with
  | nil => rfl
  | append_singleton ps p ih =>
    have hps : ∀ q ∈ ps, t.get? (u.target q) ≠ none := fun q hq => h q (List.mem_append_left _ hq)
    rw [writes_concat, keys_write, ih hps]
    intro hnone
    have hp := h p (by simp)
    obtain ⟨r, hr⟩ := Option.ne_none_iff_exists'.1 hp
    cases hlast : u.lastOf ps (u.target p) with
    | none => exact hp (by rw [← get?_writes_of_none hlast, hnone])
    | some q =>
      rw [get?_writes_present hr hlast] at hnone
      cases hnone

theorem ext_get? {t v : Table ρ κ key} (hkeys : t.rows.map key = v.rows.map key)
    (h : ∀ k, t.get? k = v.get? k) : t = v := by
  apply Table.ext_rows
  apply List.ext_getElem
  · have hlen := congrArg List.length hkeys
    rwa [List.length_map, List.length_map] at hlen
  · intro i ht hv
    have hkey : key t.rows[i] = key v.rows[i] := by
      have hi := congrArg (fun l => l[i]?) hkeys
      simpa [ht, hv] using hi
    have hrow : t.get? (key t.rows[i]) = some t.rows[i] :=
      Table.get?_eq_some.2 ⟨List.getElem_mem ht, rfl⟩
    have hrow' : v.get? (key v.rows[i]) = some v.rows[i] :=
      Table.get?_eq_some.2 ⟨List.getElem_mem hv, rfl⟩
    rw [h, hkey, hrow'] at hrow
    exact (Option.some.inj hrow).symm

theorem writes_writes (u : Upsert ρ π κ key) (t : Table ρ κ key) (ps : List π) :
    u.writes (u.writes t ps) ps = u.writes t ps := by
  have hpresent : ∀ p ∈ ps, (u.writes t ps).get? (u.target p) ≠ none := by
    intro p hp hnone
    cases hlast : u.lastOf ps (u.target p) with
    | none => exact lastOf_eq_none.1 hlast p hp rfl
    | some q =>
      obtain ⟨old, hold⟩ := get?_writes_of_some (t := t) hlast
      rw [hold] at hnone
      cases hnone
  apply ext_get? (keys_writes hpresent)
  intro k
  cases hlast : u.lastOf ps k with
  | none => exact get?_writes_of_none hlast
  | some p =>
    obtain ⟨old, hold⟩ := get?_writes_of_some (t := t) hlast
    rw [get?_writes_present hold hlast, hold, update_row]

end Upsert

end IeltsHub.UpsertTables
