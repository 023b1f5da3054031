import Mathlib

set_option autoImplicit false

/-!
# Tables of rows under a key

A table keeps its rows in the order of their insertion and carries the proof that no two of
them share a key. A write replaces the row of its key where it stands, or appends the row.
-/
namespace IeltsHub.RowTable

/-- Whether a list holds a pair of ids is decided in many modules, always by this law. -/
instance pair_lawful : LawfulBEq (ℕ × ℕ) := inferInstance

structure Table (ρ κ : Type) (key : ρ → κ) where
  rows : List ρ
  nodup : (rows.map key).Nodup

variable {ρ κ : Type} {key : ρ → κ}

/-- Replace the row of `r`'s key where it stands, or append `r`. -/
def putRow [DecidableEq κ] (key : ρ → κ) (r : ρ) : List ρ → List ρ
  | [] => [r]
  | x :: xs => if key x = key r then r :: xs else x :: putRow key r xs

section
variable [DecidableEq κ]

theorem map_putRow (r : ρ) (xs : List ρ) :
    (putRow key r xs).map key =
      if key r ∈ xs.map key then xs.map key else xs.map key ++ [key r] := by
  induction xs with
  | nil => simp [putRow]
  | cons x xs ih =>
    by_cases h : key x = key r
    · simp [putRow, h]
    · have h' : ¬ key r = key x := fun q => h q.symm
      simp only [putRow, h, if_false, List.map_cons, ih, List.mem_cons, h', false_or]
      split <;> rfl

theorem nodup_putRow (r : ρ) {xs : List ρ} (h : (xs.map key).Nodup) :
    ((putRow key r xs).map key).Nodup := by
  rw [map_putRow]
  split
  · exact h
  · rename_i hk
    exact List.nodup_append'.2 ⟨h, List.nodup_singleton _, by simpa using hk⟩

theorem putRow_of_not_mem {r : ρ} {xs : List ρ} (h : key r ∉ xs.map key) :
    putRow key r xs = xs ++ [r] := by
  induction xs with
  | nil => rfl
  | cons x xs ih =>
    rw [List.map_cons, List.mem_cons, not_or] at h
    rw [putRow, if_neg (fun q => h.1 q.symm), ih h.2]
    rfl

theorem find?_putRow (r : ρ) (xs : List ρ) (k : κ) :
    (putRow key r xs).find? (fun x => key x = k) =
      if key r = k then some r else xs.find? (fun x => key x = k) := by
  induction xs with
  | nil =>
    by_cases h : key r = k <;> simp [putRow, h]
  | cons x xs ih =>
    by_cases hx : key x = key r
    · by_cases h : key r = k
      · simp [putRow, hx, h]
      · simp [putRow, hx, h]
    · by_cases hk : key x = k
      · have h : ¬ key r = k := fun q => hx (hk.trans q.symm)
        have h' : ¬ k = key r := fun q => h q.symm
        simp [putRow, hk, h, h']
      · simp [putRow, hx, hk, ih]

theorem filter_putRow {p : ρ → Bool} {r : ρ} {xs : List ρ} (hr : p r = false)
    (hxs : ∀ x ∈ xs, key x = key r → p x = false) :
    (putRow key r xs).filter p = xs.filter p := by
  induction xs with
  | nil => simp [putRow, hr]
  | cons x xs ih =>
    have ih := ih (fun y hy => hxs y (List.mem_cons_of_mem x hy))
    by_cases h : key x = key r
    · have hx : p x = false := hxs x List.mem_cons_self h
      simp [putRow, h, hr, hx]
    · simp only [putRow, h, if_false, List.filter_cons, ih]

theorem flatMap_putRow {β : Type} {f : ρ → List β} {r : ρ} {xs : List ρ}
    (hxs : ∀ x ∈ xs, key x = key r → f x = f r) (hnew : key r ∉ xs.map key → f r = []) :
    (putRow key r xs).flatMap f = xs.flatMap f := by
  induction xs with
  | nil => simpa [putRow] using hnew
  | cons x xs ih =>
    by_cases h : key x = key r
    · simp [putRow, h, hxs x List.mem_cons_self h]
    · have hnew : key r ∉ xs.map key → f r = [] := by
        intro habsent
        refine hnew ?_
        rw [List.map_cons, List.mem_cons, not_or]
        exact ⟨fun heq => h heq.symm, habsent⟩
      have ih := ih (fun y hy => hxs y (List.mem_cons_of_mem x hy)) hnew
      simp only [putRow, h, if_false, List.flatMap_cons, ih]

end

namespace Table

def empty : Table ρ κ key := ⟨[], List.nodup_nil⟩

instance : Inhabited (Table ρ κ key) := ⟨empty⟩

instance [DecidableEq ρ] : DecidableEq (Table ρ κ key) := fun a b =>
  decidable_of_iff (a.rows = b.rows) (by cases a; cases b; simp)

theorem ext_rows {t u : Table ρ κ key} (h : t.rows = u.rows) : t = u := by
  cases t
  cases u
  cases h
  rfl

def select (t : Table ρ κ key) (p : ρ → Bool) : List ρ := t.rows.filter p

def project {σ : Type} {key' : σ → κ} (t : Table ρ κ key) (f : ρ → σ)
    (hf : ∀ r, key' (f r) = key r) : Table σ κ key' where
  rows := t.rows.map f
  nodup := by
    have h : (t.rows.map f).map key' = t.rows.map key := by simp [Function.comp_def, hf]
    rw [h]
    exact t.nodup

theorem select_project {σ : Type} {key' : σ → κ} (t : Table ρ κ key) (f : ρ → σ)
    (hf : ∀ r, key' (f r) = key r) (p : σ → Bool) :
    (t.project f hf).select p = (t.select (fun r => p (f r))).map f := by
  simp [select, project, List.filter_map, Function.comp_def]

def remove (t : Table ρ κ key) (p : ρ → Bool) : Table ρ κ key where
  rows := t.rows.filter (fun r => !p r)
  nodup := (List.filter_sublist.map key).nodup t.nodup

theorem select_remove {t : Table ρ κ key} {p q : ρ → Bool}
    (h : ∀ r, q r = true → p r = false) : (t.remove p).select q = t.select q := by
  unfold select remove
  rw [List.filter_filter]
  refine List.filter_congr (fun r _ => ?_)
  cases hq : q r with
  | false => rfl
  | true => simp [h r hq]

def mapRows (t : Table ρ κ key) (f : ρ → ρ) (hf : ∀ r, key (f r) = key r) : Table ρ κ key where
  rows := t.rows.map f
  nodup := by
    have h : (t.rows.map f).map key = t.rows.map key := by simp [Function.comp_def, hf]
    rw [h]
    exact t.nodup

theorem select_mapRows {t : Table ρ κ key} {f : ρ → ρ} {hf : ∀ r, key (f r) = key r}
    {p : ρ → Bool} (hp : ∀ r, p (f r) = p r) :
    (t.mapRows f hf).select p = (t.select p).map f := by
  simp [select, mapRows, List.filter_map, Function.comp_def, hp]

theorem select_mapRows_of_eq {t : Table ρ κ key} {f : ρ → ρ} {hf : ∀ r, key (f r) = key r}
    {p : ρ → Bool} (hp : ∀ r, p (f r) = p r) (hid : ∀ r, p r = true → f r = r) :
    (t.mapRows f hf).select p = t.select p := by
  rw [select_mapRows hp]
  conv_rhs => rw [← List.map_id (t.select p)]
  exact List.map_congr_left (fun r hr => hid r (List.mem_filter.1 hr).2)

section
variable [DecidableEq κ]

def get? (t : Table ρ κ key) (k : κ) : Option ρ := t.rows.find? (fun r => key r = k)

def put (t : Table ρ κ key) (r : ρ) : Table ρ κ key :=
  ⟨putRow key r t.rows, nodup_putRow r t.nodup⟩

theorem get?_eq_some {t : Table ρ κ key} {k : κ} {r : ρ} :
    t.get? k = some r ↔ r ∈ t.rows ∧ key r = k := by
  constructor
  · intro h
    have hk := List.find?_some h
    exact ⟨List.mem_of_find?_eq_some h, by simpa using hk⟩
  · rintro ⟨hr, rfl⟩
    unfold get?
    rw [List.find?_eq_some_iff_append]
    obtain ⟨pre, post, h⟩ := List.append_of_mem hr
    refine ⟨by simp, pre, post, h, ?_⟩
    intro x hx
    have hn := t.nodup
    rw [h, List.map_append, List.map_cons, List.nodup_append] at hn
    simpa using hn.2.2 (key x) (List.mem_map_of_mem hx) (key r) List.mem_cons_self

theorem get?_key {t : Table ρ κ key} {k : κ} {r : ρ} (h : t.get? k = some r) : key r = k :=
  (get?_eq_some.1 h).2

theorem get?_eq_none {t : Table ρ κ key} {k : κ} : t.get? k = none ↔ ∀ r ∈ t.rows, key r ≠ k := by
  simp [get?, List.find?_eq_none]

@[simp] theorem get?_empty (k : κ) : (empty : Table ρ κ key).get? k = none := rfl

theorem get?_put (t : Table ρ κ key) (r : ρ) (k : κ) :
    (t.put r).get? k = if key r = k then some r else t.get? k :=
  find?_putRow r t.rows k

theorem get?_put_self (t : Table ρ κ key) (r : ρ) : (t.put r).get? (key r) = some r := by
  simp [get?_put]

theorem get?_put_of_ne (t : Table ρ κ key) {r : ρ} {k : κ} (h : key r ≠ k) :
    (t.put r).get? k = t.get? k := by
  simp [get?_put, h]

theorem mem_put {t : Table ρ κ key} {r x : ρ} :
    x ∈ (t.put r).rows ↔ x = r ∨ x ∈ t.rows ∧ key x ≠ key r := by
  have hmem : ∀ {u : Table ρ κ key}, x ∈ u.rows ↔ u.get? (key x) = some x := by
    intro u
    rw [get?_eq_some]
    exact ⟨fun h => ⟨h, rfl⟩, fun h => h.1⟩
  rw [hmem, get?_put]
  by_cases h : key r = key x
  · rw [if_pos h, Option.some.injEq]
    exact ⟨fun heq => .inl heq.symm, fun h' => h'.elim Eq.symm (fun hx => absurd h.symm hx.2)⟩
  · rw [if_neg h, ← hmem]
    constructor
    · exact fun hx => .inr ⟨hx, fun heq => h heq.symm⟩
    · rintro (rfl | ⟨hx, -⟩)
      · exact absurd rfl h
      · exact hx

theorem rows_put_of_get?_eq_none {t : Table ρ κ key} {r : ρ} (h : t.get? (key r) = none) :
    (t.put r).rows = t.rows ++ [r] := by
  refine putRow_of_not_mem ?_
  intro hm
  obtain ⟨x, hx, hk⟩ := List.mem_map.1 hm
  exact get?_eq_none.1 h x hx hk

theorem select_put {t : Table ρ κ key} {r : ρ} {p : ρ → Bool} (hr : p r = false)
    (hold : ∀ x, t.get? (key r) = some x → p x = false) :
    (t.put r).select p = t.select p :=
  filter_putRow hr (fun x hx hk => hold x (get?_eq_some.2 ⟨hx, hk⟩))

theorem select_put_of_get?_eq_none {t : Table ρ κ key} {r : ρ} (h : t.get? (key r) = none)
    (p : ρ → Bool) : (t.put r).select p = t.select p ++ [r].filter p := by
  unfold select
  rw [rows_put_of_get?_eq_none h, List.filter_append]

theorem get?_foldl_put_of_not_mem {rs : List ρ} {t : Table ρ κ key} {k : κ}
    (h : k ∉ rs.map key) : (rs.foldl put t).get? k = t.get? k := by
  induction rs generalizing t with
  | nil => rfl
  | cons r rs ih =>
    rw [List.map_cons, List.mem_cons, not_or] at h
    rw [List.foldl_cons, ih h.2, get?_put_of_ne t (fun q => h.1 q.symm)]

theorem get?_foldl_put_of_mem {rs : List ρ} {t : Table ρ κ key} (hn : (rs.map key).Nodup) {r : ρ}
    (hr : r ∈ rs) : (rs.foldl put t).get? (key r) = some r := by
  induction rs generalizing t with
  | nil => cases hr
  | cons x rs ih =>
    rw [List.map_cons, List.nodup_cons] at hn
    rw [List.foldl_cons]
    rcases List.mem_cons.1 hr with rfl | hr
    · rw [get?_foldl_put_of_not_mem hn.1, get?_put_self]
    · exact ih hn.2 hr

theorem select_foldl_put {p : ρ → Bool} {rs : List ρ} {t : Table ρ κ key}
    (hrs : ∀ r ∈ rs, p r = false) (hp : ∀ x, ∀ r ∈ rs, key x = key r → p x = false) :
    (rs.foldl put t).select p = t.select p := by
  induction rs generalizing t with
  | nil => rfl
  | cons r rs ih =>
    rw [List.foldl_cons, ih (fun x hx => hrs x (List.mem_cons_of_mem r hx))
      (fun x y hy => hp x y (List.mem_cons_of_mem r hy))]
    exact select_put (hrs r List.mem_cons_self)
      (fun x hx => hp x r List.mem_cons_self (get?_key hx))

theorem get?_mapRows (t : Table ρ κ key) (f : ρ → ρ) (hf : ∀ r, key (f r) = key r) (k : κ) :
    (t.mapRows f hf).get? k = (t.get? k).map f := by
  simp [get?, mapRows, List.find?_map, hf]

theorem get?_project {σ : Type} {key' : σ → κ} (t : Table ρ κ key) (f : ρ → σ)
    (hf : ∀ r, key' (f r) = key r) (k : κ) : (t.project f hf).get? k = (t.get? k).map f := by
  simp [get?, project, List.find?_map, hf]

theorem put_eq_mapRows {t : Table ρ κ key} {r x : ρ} (h : t.get? (key r) = some x) :
    t.put r = t.mapRows (fun y => if key y = key r then r else y)
      (fun y => by split <;> simp [*]) := by
  refine ext_rows ?_
  have hmem : key r ∈ t.rows.map key := by
    obtain ⟨hx, hkey⟩ := get?_eq_some.1 h
    exact hkey ▸ List.mem_map_of_mem hx
  have hn := t.nodup
  change putRow key r t.rows = t.rows.map _
  generalize t.rows = rows at hmem hn
  induction rows with
  | nil => simp at hmem
  | cons y ys ih =>
    rw [List.map_cons, List.nodup_cons] at hn
    by_cases hy : key y = key r
    · have hrest : ys.map (fun y => if key y = key r then r else y) = ys := by
        conv_rhs => rw [← List.map_id ys]
        refine List.map_congr_left (fun z hz => if_neg (fun hkey => hn.1 ?_))
        rw [hy, ← hkey]
        exact List.mem_map_of_mem hz
      rw [putRow, if_pos hy, List.map_cons, if_pos hy, hrest]
    · have htail : key r ∈ ys.map key := by
        rw [List.map_cons, List.mem_cons] at hmem
        exact hmem.resolve_left (fun q => hy q.symm)
      rw [putRow, if_neg hy, List.map_cons, if_neg hy, ih htail hn.2]

end

section Serial
variable {serial : ρ → ℕ}

def nextId (t : Table ρ ℕ serial) : ℕ := (t.rows.map serial).foldr max 0 + 1

theorem le_foldr_max {n : ℕ} {ns : List ℕ} (h : n ∈ ns) : n ≤ ns.foldr max 0 := by
  induction ns with
  | nil => cases h
  | cons m ns ih =>
    rcases List.mem_cons.1 h with rfl | h
    · exact le_max_left ..
    · exact (ih h).trans (le_max_right ..)

theorem get?_nextId (t : Table ρ ℕ serial) : t.get? t.nextId = none := by
  rw [get?_eq_none]
  intro r hr hk
  have hle := le_foldr_max (List.mem_map_of_mem (f := serial) hr)
  unfold nextId at hk
  omega

end Serial

end Table

/-! ## What a transaction writes -/

/-- A column once a transaction commits: what it set, and what the row holds where it set nothing.
The transaction writes the columns it changed since it loaded the row. -/
def merged {α : Type} [DecidableEq α] (loaded mine stored : α) : α :=
  if mine = loaded then stored else mine

@[simp] theorem merged_loaded {α : Type} [DecidableEq α] (loaded mine : α) :
    merged loaded mine loaded = mine := by
  unfold merged
  split <;> simp [*]

end IeltsHub.RowTable
