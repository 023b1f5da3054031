import Mathlib

set_option autoImplicit false

/-!
# Insertion-ordered dictionaries

A Python `dict` keeps its keys in the order of their first insertion, and an assignment to a
key that is present replaces the value where it stands. `Dict` carries the proof that its keys
are distinct, so an iteration over its entries meets every key once.
-/
namespace IeltsHub.PyDict

variable {κ ν : Type} [DecidableEq κ]

/-- Replace the value under `k` where it stands, or append a new entry. -/
def putEntry (k : κ) (v : ν) : List (κ × ν) → List (κ × ν)
  | [] => [(k, v)]
  | e :: es => if e.1 = k then (k, v) :: es else e :: putEntry k v es

theorem putEntry_keys (k : κ) (v : ν) (es : List (κ × ν)) :
    (putEntry k v es).map Prod.fst =
      if k ∈ es.map Prod.fst then es.map Prod.fst else es.map Prod.fst ++ [k] := by
  induction es with
  | nil => simp [putEntry]
  | cons e es ih =>
    by_cases h : e.1 = k
    · simp [putEntry, h]
    · have h' : ¬ k = e.1 := fun q => h q.symm
      simp only [putEntry, h, if_false, List.map_cons, ih, List.mem_cons, h', false_or]
      split <;> rfl

theorem putEntry_nodup (k : κ) (v : ν) (es : List (κ × ν)) (h : (es.map Prod.fst).Nodup) :
    ((putEntry k v es).map Prod.fst).Nodup := by
  rw [putEntry_keys]
  split
  · exact h
  · rename_i hk
    exact List.nodup_append'.2 ⟨h, List.nodup_singleton k, by simpa using hk⟩

theorem putEntry_of_not_mem {k : κ} {v : ν} {es : List (κ × ν)} (h : k ∉ es.map Prod.fst) :
    putEntry k v es = es ++ [(k, v)] := by
  induction es with
  | nil => rfl
  | cons e es ih =>
    rw [List.map_cons, List.mem_cons, not_or] at h
    rw [putEntry, if_neg (fun q => h.1 q.symm), ih h.2]
    rfl

structure Dict (κ ν : Type) where
  entries : List (κ × ν)
  nodup : (entries.map Prod.fst).Nodup

namespace Dict

def empty : Dict κ ν := ⟨[], List.nodup_nil⟩

instance : Inhabited (Dict κ ν) := ⟨empty⟩

instance [DecidableEq ν] : DecidableEq (Dict κ ν) := fun a b =>
  decidable_of_iff (a.entries = b.entries) (by cases a; cases b; simp)

def keys (d : Dict κ ν) : List κ := d.entries.map Prod.fst

def values (d : Dict κ ν) : List ν := d.entries.map Prod.snd

/-- `d.get(k)`. -/
def get? (d : Dict κ ν) (k : κ) : Option ν := (d.entries.find? (fun e => e.1 = k)).map Prod.snd

/-- `d[k] = v`. -/
def put (d : Dict κ ν) (k : κ) (v : ν) : Dict κ ν :=
  ⟨putEntry k v d.entries, putEntry_nodup k v d.entries d.nodup⟩

/-- `d.setdefault(k, v)`. -/
def setDefault (d : Dict κ ν) (k : κ) (v : ν) : Dict κ ν :=
  match d.get? k with
  | some _ => d
  | none => d.put k v

def ofList (es : List (κ × ν)) : Dict κ ν := es.foldl (fun d e => d.put e.1 e.2) empty

/-- `d.update(other)`. -/
def update (d other : Dict κ ν) : Dict κ ν := other.entries.foldl (fun d e => d.put e.1 e.2) d

omit [DecidableEq κ] in
theorem ext_entries {a b : Dict κ ν} (h : a.entries = b.entries) : a = b := by
  cases a
  cases b
  simpa using h

@[simp] theorem get?_empty (k : κ) : (empty : Dict κ ν).get? k = none := rfl

theorem get?_eq_some {d : Dict κ ν} {k : κ} {v : ν} : d.get? k = some v ↔ (k, v) ∈ d.entries := by
  obtain ⟨es, hn⟩ := d
  unfold get?
  induction es with
  | nil => simp
  | cons e es ih =>
    obtain ⟨ha, hn'⟩ := List.nodup_cons.1 (by simpa using hn : (e.1 :: es.map Prod.fst).Nodup)
    have ih := ih hn'
    by_cases h : e.1 = k
    · subst h
      have hv : ∀ w, (e.1, w) ∉ es := fun w hw => ha (List.mem_map.2 ⟨_, hw, rfl⟩)
      simp only [List.find?_cons_of_pos, decide_true, Option.map_some, Option.some.injEq,
        List.mem_cons, hv v, or_false]
      constructor
      · rintro rfl
        rfl
      · intro h
        rw [← h]
    · have hne : ¬ (k, v) = e := fun q => h (by rw [← q])
      rw [List.find?_cons_of_neg (by simpa using h), ih, List.mem_cons]
      simp [hne]

theorem get?_eq_none {d : Dict κ ν} {k : κ} : d.get? k = none ↔ k ∉ d.keys := by
  unfold get? keys
  simp [List.find?_eq_none]
  grind

theorem mem_keys {d : Dict κ ν} {k : κ} : k ∈ d.keys ↔ ∃ v, d.get? k = some v := by
  rw [← not_iff_not, ← get?_eq_none]
  cases d.get? k <;> simp

omit [DecidableEq κ] in
theorem keys_nodup (d : Dict κ ν) : d.keys.Nodup := d.nodup

omit [DecidableEq κ] in
@[simp] theorem length_keys (d : Dict κ ν) : d.keys.length = d.entries.length :=
  List.length_map ..

theorem find?_putEntry (k : κ) (v : ν) (es : List (κ × ν)) (j : κ) :
    ((putEntry k v es).find? (fun e => e.1 = j)).map Prod.snd =
      if k = j then some v else (es.find? (fun e => e.1 = j)).map Prod.snd := by
  induction es with
  | nil =>
    by_cases h : k = j <;> simp [putEntry, h]
  | cons e es ih =>
    by_cases he : e.1 = k
    · by_cases h : k = j
      · simp [putEntry, he, h]
      · have h' : ¬ e.1 = j := fun q => h (he.symm.trans q)
        simp [putEntry, he, h]
    · by_cases hj : e.1 = j
      · have h : ¬ k = j := fun q => he (hj.trans q.symm)
        have h' : ¬ j = k := fun q => h q.symm
        simp [putEntry, hj, h, h']
      · simp [putEntry, he, hj, ih]

theorem get?_put (d : Dict κ ν) (k : κ) (v : ν) (j : κ) :
    (d.put k v).get? j = if k = j then some v else d.get? j :=
  find?_putEntry k v d.entries j

@[simp] theorem get?_put_self (d : Dict κ ν) (k : κ) (v : ν) : (d.put k v).get? k = some v := by
  simp [get?_put]

theorem get?_put_of_ne (d : Dict κ ν) {k j : κ} (v : ν) (h : k ≠ j) :
    (d.put k v).get? j = d.get? j := by
  simp [get?_put, h]

theorem get?_setDefault (d : Dict κ ν) (k : κ) (v : ν) (j : κ) :
    (d.setDefault k v).get? j = if k = j then some ((d.get? k).getD v) else d.get? j := by
  unfold setDefault
  cases h : d.get? k with
  | none => simp [get?_put]
  | some w =>
    by_cases hj : k = j
    · subst hj
      simp [h]
    · simp [hj]

theorem get?_update (d other : Dict κ ν) (k : κ) :
    (d.update other).get? k = (other.get? k).or (d.get? k) := by
  obtain ⟨es, hn⟩ := other
  unfold update get?
  simp only
  induction es generalizing d with
  | nil => simp
  | cons e es ih =>
    obtain ⟨ha, hn'⟩ := List.nodup_cons.1 (by simpa using hn : (e.1 :: es.map Prod.fst).Nodup)
    rw [List.foldl_cons, ih (d.put e.1 e.2) hn']
    have hp := get?_put d e.1 e.2 k
    unfold get? at hp
    rw [hp]
    by_cases h : e.1 = k
    · have hk : es.find? (fun x => decide (x.1 = k)) = none := by
        rw [List.find?_eq_none]
        intro x hx hxk
        exact ha (List.mem_map.2 ⟨x, hx, (of_decide_eq_true hxk).trans h.symm⟩)
      simp [hk, h]
    · simp [h]

theorem foldl_put_entries {es fs : List (κ × ν)} {d : Dict κ ν} (hd : d.entries = fs)
    (hn : ((fs ++ es).map Prod.fst).Nodup) :
    (es.foldl (fun d e => d.put e.1 e.2) d).entries = fs ++ es := by
  induction es generalizing fs d with
  | nil => simpa using hd
  | cons e es ih =>
    have hfresh : e.1 ∉ d.entries.map Prod.fst := by
      rw [hd]
      rw [List.map_append, List.map_cons, List.nodup_append] at hn
      intro hm
      exact hn.2.2 e.1 hm e.1 List.mem_cons_self rfl
    have hput : (d.put e.1 e.2).entries = fs ++ [e] := by
      rw [← hd]
      exact putEntry_of_not_mem hfresh
    rw [List.foldl_cons, ih hput (by simpa using hn), List.append_assoc]
    rfl

theorem ofList_entries (d : Dict κ ν) : ofList d.entries = d :=
  ext_entries (@foldl_put_entries _ _ _ d.entries [] _ rfl (by simpa using d.nodup))

theorem get?_foldl_put {es : List (κ × ν)} {d : Dict κ ν} {k : κ} {v : ν}
    (h : ∀ w, (k, w) ∈ es → w = v) :
    (es.foldl (fun d e => d.put e.1 e.2) d).get? k =
      if k ∈ es.map Prod.fst then some v else d.get? k := by
  induction es generalizing d with
  | nil => simp
  | cons e es ih =>
    rw [List.foldl_cons, ih (fun w hw => h w (List.mem_cons_of_mem e hw)), get?_put]
    by_cases he : e.1 = k
    · have hv : e.2 = v := h e.2 (by rw [← he]; exact List.mem_cons_self)
      simp [he, hv]
    · have hne : ¬ k = e.1 := fun q => he q.symm
      simp only [he, if_false, List.map_cons, List.mem_cons, hne, false_or]

theorem get?_ofList {es : List (κ × ν)} {k : κ} {v : ν} (h : ∀ w, (k, w) ∈ es → w = v) :
    (ofList es).get? k = if k ∈ es.map Prod.fst then some v else none :=
  get?_foldl_put h

theorem get?_foldl_put_of_not_mem {es : List (κ × ν)} {d : Dict κ ν} {k : κ}
    (h : k ∉ es.map Prod.fst) : (es.foldl (fun d e => d.put e.1 e.2) d).get? k = d.get? k := by
  induction es generalizing d with
  | nil => rfl
  | cons e es ih =>
    rw [List.map_cons, List.mem_cons, not_or] at h
    rw [List.foldl_cons, ih h.2, get?_put_of_ne d e.2 (fun q => h.1 q.symm)]

theorem get?_ofList_of_not_mem {es : List (κ × ν)} {k : κ} (h : k ∉ es.map Prod.fst) :
    (ofList es).get? k = none :=
  get?_foldl_put_of_not_mem h

theorem mem_of_get?_foldl_put {es : List (κ × ν)} {d : Dict κ ν} {k : κ} {v : ν}
    (h : (es.foldl (fun d e => d.put e.1 e.2) d).get? k = some v) :
    (k, v) ∈ es ∨ d.get? k = some v := by
  induction es generalizing d with
  | nil => exact .inr h
  | cons e es ih =>
    rcases ih h with h | h
    · exact .inl (List.mem_cons_of_mem e h)
    · rw [get?_put] at h
      split at h
      · rename_i he
        cases h
        exact .inl (by rw [← he]; exact List.mem_cons_self)
      · exact .inr h

theorem mem_of_get?_ofList {es : List (κ × ν)} {k : κ} {v : ν} (h : (ofList es).get? k = some v) :
    (k, v) ∈ es := by
  rcases mem_of_get?_foldl_put h with h | h
  · exact h
  · cases h

theorem isSome_get?_foldl_put {es : List (κ × ν)} {d : Dict κ ν} {k : κ} :
    ((es.foldl (fun d e => d.put e.1 e.2) d).get? k).isSome ↔
      k ∈ es.map Prod.fst ∨ (d.get? k).isSome := by
  induction es generalizing d with
  | nil => simp
  | cons e es ih =>
    rw [List.foldl_cons, ih, get?_put, List.map_cons, List.mem_cons]
    by_cases he : e.1 = k
    · simp [he]
    · have hne : ¬ k = e.1 := fun q => he q.symm
      simp [he, hne]

theorem isSome_get?_ofList {es : List (κ × ν)} {k : κ} :
    ((ofList es).get? k).isSome ↔ k ∈ es.map Prod.fst := by
  rw [ofList, isSome_get?_foldl_put]
  simp

theorem get?_ofList_eq_some {es : List (κ × ν)}
    (hone : ∀ k v w, (k, v) ∈ es → (k, w) ∈ es → v = w) {k : κ} {v : ν} :
    (ofList es).get? k = some v ↔ (k, v) ∈ es := by
  by_cases hk : k ∈ es.map Prod.fst
  · obtain ⟨e, he, rfl⟩ := List.mem_map.1 hk
    rw [get?_ofList (fun w hw => hone e.1 w e.2 hw he), if_pos hk, Option.some.injEq]
    constructor
    · intro h
      rw [← h]
      exact he
    · intro h
      exact hone e.1 e.2 v he h
  · rw [get?_ofList_of_not_mem hk]
    constructor
    · intro h
      cases h
    · intro h
      exact absurd (List.mem_map_of_mem h) hk

def erase (d : Dict κ ν) (k : κ) : Dict κ ν :=
  ⟨d.entries.filter (fun e => e.1 ≠ k), (List.filter_sublist.map Prod.fst).nodup d.nodup⟩

theorem get?_erase (d : Dict κ ν) (k j : κ) :
    (d.erase k).get? j = if j = k then none else d.get? j := by
  apply Option.ext
  intro v
  rw [get?_eq_some]
  by_cases h : j = k
  · simp [erase, h]
  · rw [if_neg h, get?_eq_some]
    simp [erase, h]

def mapValues {μ : Type} (f : ν → μ) (d : Dict κ ν) : Dict κ μ where
  entries := d.entries.map (fun e => (e.1, f e.2))
  nodup := by simpa [Function.comp_def] using d.nodup

theorem get?_mapValues {μ : Type} (f : ν → μ) (d : Dict κ ν) (k : κ) :
    (d.mapValues f).get? k = (d.get? k).map f := by
  simp [get?, mapValues, List.find?_map, Function.comp_def]

theorem mapValues_put {μ : Type} (f : ν → μ) (d : Dict κ ν) (k : κ) (v : ν) :
    (d.put k v).mapValues f = (d.mapValues f).put k (f v) := by
  have hentries : ∀ es : List (κ × ν), (putEntry k v es).map (fun e => (e.1, f e.2)) =
      putEntry k (f v) (es.map (fun e => (e.1, f e.2))) := by
    intro es
    induction es with
    | nil => rfl
    | cons e es ih =>
      by_cases he : e.1 = k
      · simp [putEntry, he]
      · simp [putEntry, he, ih]
  exact (Dict.mk.injEq ..).mpr (hentries d.entries)

end Dict

end IeltsHub.PyDict
