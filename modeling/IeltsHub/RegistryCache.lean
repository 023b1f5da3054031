import IeltsHub.ScoringTotality
import IeltsHub.GuardedRuns

set_option autoImplicit false

/-!
# The question-type cache of a worker

Every worker process keeps a registry and a lexicon it built from the shipped files and the rows
of two tables, under one stamp per table: the greatest id plus the number of rows. Compiled
response validators sit beside them, by type reference, and are never dropped.

A worker marks by the rows it can see as long as no two row sets of one stamp meet in a check that
is not forced, and no reference a validator was compiled for comes to declare another shape.
-/
namespace IeltsHub.RegistryCache
open PyExc PyValue PyDict PlatformErrors QtypesSchemas QtypesLexicon QtypesRegistry GuardedRuns

/-! ## Rows and files -/

/-- A row of `question_type_defs`: what `from_dict` makes of it, nothing where it raises. -/
structure TypeRow where
  id : ℕ
  definition : Option QuestionTypeDef

structure LexiconRow where
  id : ℕ
  entry : LexEntry

/-- The two tables, in the order a scan meets their rows. -/
structure Tables where
  types : List TypeRow := []
  lexicon : List LexiconRow := []

/-- `coalesce(max(id), 0) + coalesce(count(*), 0)`. -/
def stamp (ids : List ℕ) : ℕ := ids.foldr max 0 + ids.length

def Tables.generation (t : Tables) : ℕ × ℕ :=
  (stamp (t.types.map TypeRow.id), stamp (t.lexicon.map LexiconRow.id))

def ident (d : QuestionTypeDef) : String × ℤ := (d.key, d.version)

def all (r : Registry) : List QuestionTypeDef := r.defs.values

/-- What ships with the process. -/
structure Files where
  definitions : List QuestionTypeDef
  registry : Registry
  loaded : Registry.ofDefs definitions = .ok registry
  entries : List LexEntry

def definitionsFrom (files : Files) (rows : List TypeRow) : Dict (String × ℤ) QuestionTypeDef :=
  (rows.filterMap TypeRow.definition).foldl (fun defs d => defs.put (ident d) d)
    (Dict.ofList ((all files.registry).map (fun d => (ident d, d))))

def registryFrom (files : Files) (rows : List TypeRow) : Except Raised Registry :=
  Registry.ofDefs (definitionsFrom files rows).values

def lexiconFrom (files : Files) (rows : List LexiconRow) : Lexicon :=
  Lexicon.ofEntries (files.entries ++ rows.map LexiconRow.entry)

/-! ## A worker -/

/-- The module's globals. The last two are for the proofs: the rows the registry and the lexicon
were built from, and those the last check that was not too early saw. -/
structure Worker where
  registry : Registry
  lexicon : Lexicon
  generation : Option (ℕ × ℕ) := none
  checkedAt : ℚ := 0
  validators : Dict String Json := Dict.empty
  built : Tables := {}
  checked : Tables := {}

def Worker.boot (files : Files) : Worker where
  registry := files.registry
  lexicon := lexiconFrom files []

def reloadAfterSeconds : ℚ := 5

def Due (force : Bool) (now : ℚ) (w : Worker) : Prop :=
  ¬ (force = false ∧ w.generation ≠ none ∧ now - w.checkedAt < reloadAfterSeconds)

instance (force : Bool) (now : ℚ) (w : Worker) : Decidable (Due force now w) := by
  unfold Due
  infer_instance

def refreshFromDb (files : Files) (rows : Tables) (force : Bool) (now : ℚ) (w : Worker) :
    Except Raised (Bool × Worker) :=
  if Due force now w then
    if force = false ∧ w.generation = some rows.generation then
      .ok (false, { w with checkedAt := now, checked := rows })
    else do
      let registry ← registryFrom files rows.types
      return (true, { w with
        registry
        lexicon := lexiconFrom files rows.lexicon
        generation := some rows.generation
        checkedAt := now
        built := rows
        checked := rows })
  else .ok (false, w)

/-- `Registry.validate_response`, with the validators compiled so far. -/
def validateResponse (validator : Validator) (key : String) (version : ℤ) (value : Json)
    (w : Worker) : Except Raised (Option String × Worker) := do
  if value = .null then return (none, w)
  let definition ← w.registry.get key version
  match ← definition.slotResponseSchema with
  | none => return (some (definition.ref ++
      " does not declare a per-slot response shape, so an answer for it cannot be checked."), w)
  | some schema =>
    let compiled := (w.validators.get? definition.ref).getD schema
    return ((validator.bestMatch (validator.iterErrors compiled value)).map SchemaError.message,
      { w with validators := w.validators.setDefault definition.ref schema })

def Worker.scorer (w : Worker) (frames : ℕ) : Scorer where
  registry := w.registry
  lexicon := w.lexicon
  frames := frames

/-! ## The database and the workers over it -/

inductive Edit where
  | insertType (place : ℕ) (row : TypeRow)
  | deleteType (id : ℕ)
  | insertLexicon (place : ℕ) (row : LexiconRow)
  | deleteLexicon (id : ℕ)

def insertRow {ρ : Type} (place : ℕ) (row : ρ) (rows : List ρ) : List ρ :=
  rows.take place ++ row :: rows.drop place

def Edit.apply (t : Tables) : Edit → Tables
  | .insertType place row => { t with types := insertRow place row t.types }
  | .deleteType id => { t with types := t.types.filter (fun r => r.id ≠ id) }
  | .insertLexicon place row => { t with lexicon := insertRow place row t.lexicon }
  | .deleteLexicon id => { t with lexicon := t.lexicon.filter (fun r => r.id ≠ id) }

/-- What is committed, what each open transaction has written, and the workers. -/
structure State where
  committed : Tables := {}
  written : ℕ → List Edit := fun _ => []
  workers : ℕ → Worker

def view (s : State) (tx : ℕ) : Tables := (s.written tx).foldl Edit.apply s.committed

inductive Event where
  | start (worker : ℕ)
  | edit (tx : ℕ) (e : Edit)
  | commit (tx : ℕ)
  | rollback (tx : ℕ)
  | refresh (worker tx : ℕ) (force : Bool) (now : ℚ)
  | validate (worker : ℕ) (validator : Validator) (key : String) (version : ℤ) (value : Json)

def State.put (s : State) (i : ℕ) (w : Worker) : State :=
  { s with workers := Function.update s.workers i w }

def step (files : Files) (s : State) : Event → State
  | .start i => s.put i (Worker.boot files)
  | .edit tx e => { s with written := Function.update s.written tx (s.written tx ++ [e]) }
  | .commit tx =>
    { s with committed := view s tx, written := Function.update s.written tx [] }
  | .rollback tx => { s with written := Function.update s.written tx [] }
  | .refresh i tx force now =>
    match refreshFromDb files (view s tx) force now (s.workers i) with
    | .ok (_, w) => s.put i w
    | .error _ => s
  | .validate i validator key version value =>
    match validateResponse validator key version value (s.workers i) with
    | .ok (_, w) => s.put i w
    | .error _ => s

/-! ## What marking by the rows is -/

def inForce (files : Files) (rows : List TypeRow) (k : String × ℤ) : Option QuestionTypeDef :=
  ((rows.filterMap TypeRow.definition).reverse.find? (fun d => ident d = k)).or
    (files.registry.defs.get? k)

/-- The worker's definitions, lexicon and compiled validators are those of the rows. -/
structure Marks (files : Files) (rows : Tables) (w : Worker) : Prop where
  definitions : registryFrom files rows.types = .ok w.registry
  lexicon : w.lexicon = lexiconFrom files rows.lexicon
  validators : ∀ d ∈ all w.registry, ∀ schema, w.validators.get? d.ref = some schema →
    d.slotResponseSchema = .ok (some schema)

def MarkAlike (w w' : Worker) : Prop :=
  (∀ validator key version value,
    Prod.fst <$> validateResponse validator key version value w =
      Prod.fst <$> validateResponse validator key version value w') ∧
  ∀ frames req, (w.scorer frames).scoreItem req = (w'.scorer frames).scoreItem req

/-- No reference a validator was compiled for declares another response shape. -/
def SameShapes (files : Files) (rows : List TypeRow) (w : Worker) : Prop :=
  ∀ k d, inForce files rows k = some d → ∀ schema, w.validators.get? d.ref = some schema →
    d.slotResponseSchema = .ok (some schema)

/-- A check that finds the stamp it knows finds the rows it knows, and no type changed shape. -/
def Guard (files : Files) (s : State) : Event → Prop
  | .refresh i tx force now =>
    Due force now (s.workers i) →
      (force = false → (s.workers i).generation = some (view s tx).generation →
        (s.workers i).built = view s tx) ∧
      SameShapes files (view s tx).types (s.workers i)
  | _ => True

/-! ## Registries are keyed by their definitions -/

def Keyed (defs : Dict (String × ℤ) QuestionTypeDef) : Prop :=
  ∀ k d, defs.get? k = some d → k = ident d

theorem keyed_empty : Keyed Dict.empty := by
  intro k d h
  cases h

theorem keyed_put {defs : Dict (String × ℤ) QuestionTypeDef} (h : Keyed defs)
    (d : QuestionTypeDef) : Keyed (defs.put (ident d) d) := by
  intro k e he
  rw [Dict.get?_put] at he
  split at he
  · next hk =>
    cases he
    exact hk.symm
  · exact h k e he

theorem keyed_foldl {defs : Dict (String × ℤ) QuestionTypeDef} (h : Keyed defs)
    (ds : List QuestionTypeDef) : Keyed (ds.foldl (fun defs d => defs.put (ident d) d) defs) := by
  induction ds generalizing defs with
  | nil => exact h
  | cons d ds ih => exact ih (keyed_put h d)

theorem keyed_of_ofDefs {ds : List QuestionTypeDef} {r : Registry}
    (h : Registry.ofDefs ds = .ok r) : Keyed r.defs := by
  apply foldlM_invariant (fun r => Keyed r.defs) h keyed_empty
  intro r hr d _ r' hd
  unfold Registry.register at hd
  split at hd
  · cases hd
  · cases hd
    exact keyed_put hr d

theorem entries_of_keyed {defs : Dict (String × ℤ) QuestionTypeDef} (h : Keyed defs) :
    defs.values.map (fun d => (ident d, d)) = defs.entries := by
  unfold Dict.values
  rw [List.map_map]
  conv => rhs; rw [← List.map_id defs.entries]
  apply List.map_congr_left
  intro e he
  have hk : e.1 = ident e.2 := h e.1 e.2 (Dict.get?_eq_some.2 he)
  simp [← hk]

theorem ofDefs_append {ds : List QuestionTypeDef} {r : Registry}
    (hn : ((r.defs.entries ++ ds.map (fun d => (ident d, d))).map Prod.fst).Nodup) :
    ∃ r', ds.foldlM Registry.register r = .ok r' ∧
      r'.defs.entries = r.defs.entries ++ ds.map (fun d => (ident d, d)) := by
  induction ds generalizing r with
  | nil => exact ⟨r, rfl, by simp⟩
  | cons d ds ih =>
    have hfresh : ident d ∉ r.defs.entries.map Prod.fst := by
      intro hm
      rw [List.map_append, List.nodup_append] at hn
      exact hn.2.2 (ident d) hm (ident d) (by simp) rfl
    have hreg : r.register d = .ok ⟨r.defs.put (ident d) d⟩ := by
      have hnone : r.defs.get? (d.key, d.version) = none := Dict.get?_eq_none.2 hfresh
      unfold Registry.register
      rw [hnone]
      rfl
    have hput : (r.defs.put (ident d) d).entries = r.defs.entries ++ [(ident d, d)] :=
      putEntry_of_not_mem hfresh
    obtain ⟨r', hr', he⟩ := @ih ⟨r.defs.put (ident d) d⟩ (by rw [hput]; simpa using hn)
    refine ⟨r', ?_, ?_⟩
    · rw [List.foldlM_cons, hreg]
      exact hr'
    · rw [he, hput]
      simp

theorem ofDefs_values {defs : Dict (String × ℤ) QuestionTypeDef} (h : Keyed defs) :
    Registry.ofDefs defs.values = .ok ⟨defs⟩ := by
  obtain ⟨r, hr, he⟩ := @ofDefs_append defs.values Registry.empty (by
    rw [entries_of_keyed h]
    exact defs.nodup)
  rw [entries_of_keyed h] at he
  have hdefs : r.defs = defs := Dict.ext_entries he
  unfold Registry.ofDefs
  rw [hr, ← hdefs]

variable (files : Files)

theorem shipped_eq :
    Dict.ofList ((all files.registry).map (fun d => (ident d, d))) = files.registry.defs := by
  unfold all
  rw [entries_of_keyed (keyed_of_ofDefs files.loaded), Dict.ofList_entries]

theorem keyed_definitionsFrom (rows : List TypeRow) : Keyed (definitionsFrom files rows) := by
  unfold definitionsFrom
  rw [shipped_eq]
  exact keyed_foldl (keyed_of_ofDefs files.loaded) _

theorem registryFrom_eq (rows : List TypeRow) :
    registryFrom files rows = .ok ⟨definitionsFrom files rows⟩ :=
  ofDefs_values (keyed_definitionsFrom files rows)

theorem registryFrom_nil : registryFrom files [] = .ok files.registry := by
  rw [registryFrom_eq]
  unfold definitionsFrom
  rw [shipped_eq]
  rfl

theorem get?_foldl_put_ident (ds : List QuestionTypeDef)
    (defs : Dict (String × ℤ) QuestionTypeDef) (k : String × ℤ) :
    (ds.foldl (fun defs d => defs.put (ident d) d) defs).get? k =
      (ds.reverse.find? (fun d => ident d = k)).or (defs.get? k) := by
  induction ds generalizing defs with
  | nil => rfl
  | cons d ds ih =>
    rw [List.foldl_cons, ih, List.reverse_cons, List.find?_append, Option.or_assoc,
      Dict.get?_put]
    by_cases hk : ident d = k <;> simp [hk]

theorem get?_definitionsFrom (rows : List TypeRow) (k : String × ℤ) :
    (definitionsFrom files rows).get? k = inForce files rows k := by
  unfold definitionsFrom
  rw [shipped_eq, get?_foldl_put_ident]
  rfl

theorem mem_all {r : Registry} {d : QuestionTypeDef} (h : Keyed r.defs) :
    d ∈ all r ↔ r.defs.get? (ident d) = some d := by
  unfold all Dict.values
  rw [List.mem_map, Dict.get?_eq_some]
  constructor
  · rintro ⟨⟨k, e⟩, he, rfl⟩
    have hk := h k e (Dict.get?_eq_some.2 he)
    rw [← hk]
    exact he
  · intro hd
    exact ⟨_, hd, rfl⟩

/-! ## A reference names one definition -/

theorem digits_no_at {n : ℕ} {c : Char} (h : c ∈ Nat.toDigits 10 n) : c ≠ '@' := by
  have hd := Nat.isDigit_of_mem_toDigits (by decide) (by decide) h
  intro hc
  rw [hc] at hd
  cases hd

theorem version_no_at (v : ℤ) : '@' ∉ (toString v).toList := by
  intro h
  cases v with
  | ofNat n =>
    have hrepr : (toString (Int.ofNat n)).toList = Nat.toDigits 10 n := Nat.toList_repr
    rw [hrepr] at h
    exact digits_no_at h rfl
  | negSucc n =>
    have hrepr : (toString (Int.negSucc n)).toList = '-' :: Nat.toDigits 10 (n + 1) := by
      change ("-" ++ Nat.repr (n + 1)).toList = _
      rw [String.toList_append, Nat.toList_repr]
      rfl
    rw [hrepr] at h
    rcases List.mem_cons.1 h with h | h
    · cases h
    · exact digits_no_at h rfl

theorem append_mark_inj {α : Type} {m : α} {as bs cs ds : List α} (hc : m ∉ cs) (hd : m ∉ ds)
    (h : as ++ m :: cs = bs ++ m :: ds) : as = bs ∧ cs = ds := by
  induction as generalizing bs with
  | nil =>
    cases bs with
    | nil => simpa using h
    | cons b bs =>
      simp only [List.nil_append, List.cons_append, List.cons.injEq] at h
      exact absurd (by rw [h.2]; simp) hc
  | cons a as ih =>
    cases bs with
    | nil =>
      simp only [List.nil_append, List.cons_append, List.cons.injEq] at h
      exact absurd (by rw [← h.2]; simp) hd
    | cons b bs =>
      simp only [List.cons_append, List.cons.injEq] at h
      obtain ⟨has, hcd⟩ := ih h.2
      exact ⟨by rw [h.1, has], hcd⟩

theorem ident_of_ref {d e : QuestionTypeDef} (h : d.ref = e.ref) : ident d = ident e := by
  have hl := congrArg String.toList h
  simp only [QuestionTypeDef.ref, String.toList_append, List.append_assoc] at hl
  have hno : ∀ v : ℤ, '@' ∉ 'v' :: (toString v).toList := by
    intro v hm
    rcases List.mem_cons.1 hm with hm | hm
    · cases hm
    · exact version_no_at v hm
  obtain ⟨hkey, hversion⟩ := append_mark_inj (hno d.version) (hno e.version) hl
  have hkey : d.key = e.key := String.toList_inj.1 hkey
  have hversion : toString d.version = toString e.version :=
    String.toList_inj.1 (List.cons.inj hversion).2
  have hversion : d.version = e.version := Int.repr_injective hversion
  unfold ident
  rw [hkey, hversion]

/-! ## One check and one answer -/

theorem marks_boot : Marks files {} (Worker.boot files) where
  definitions := registryFrom_nil files
  lexicon := rfl
  validators := by
    intro d _ schema h
    cases h

variable {files}

theorem Marks.keyed {rows : Tables} {w : Worker} (h : Marks files rows w) :
    Keyed w.registry.defs := keyed_of_ofDefs h.definitions

/-- What the worker marks by is what it was built from, and what it last saw. -/
def Current (files : Files) (w : Worker) : Prop := Marks files w.built w ∧ w.checked = w.built

theorem refresh_early {rows : Tables} {force : Bool} {now : ℚ} {w w' : Worker} {b : Bool}
    (h : refreshFromDb files rows force now w = .ok (b, w')) (hdue : ¬ Due force now w) :
    w' = w := by
  unfold refreshFromDb at h
  rw [if_neg hdue] at h
  cases h
  rfl

theorem refresh_rebuilds {rows : Tables} {force : Bool} {now : ℚ} {w w' : Worker} {b : Bool}
    (h : refreshFromDb files rows force now w = .ok (b, w')) (hdue : Due force now w)
    (hnew : ¬ (force = false ∧ w.generation = some rows.generation)) :
    registryFrom files rows.types = .ok w'.registry ∧
      w'.lexicon = lexiconFrom files rows.lexicon ∧ w'.validators = w.validators ∧
      w'.built = rows ∧ w'.checked = rows := by
  unfold refreshFromDb at h
  rw [if_pos hdue, if_neg hnew, bind_eq_ok] at h
  obtain ⟨registry, hr, h⟩ := h
  cases h
  exact ⟨hr, rfl, rfl, rfl, rfl⟩

theorem refresh_keeps {rows : Tables} {force : Bool} {now : ℚ} {w w' : Worker} {b : Bool}
    (h : refreshFromDb files rows force now w = .ok (b, w')) (hdue : Due force now w)
    (hold : force = false ∧ w.generation = some rows.generation) :
    w' = { w with checkedAt := now, checked := rows } := by
  unfold refreshFromDb at h
  rw [if_pos hdue, if_pos hold] at h
  cases h
  rfl

theorem refresh_marks {rows : Tables} {force : Bool} {now : ℚ} {w w' : Worker} {b : Bool}
    (hw : Current files w) (h : refreshFromDb files rows force now w = .ok (b, w'))
    (hdue : Due force now w)
    (hstamp : force = false → w.generation = some rows.generation → w.built = rows)
    (hshapes : SameShapes files rows.types w) :
    Current files w' ∧ Marks files rows w' := by
  by_cases hold : force = false ∧ w.generation = some rows.generation
  · have hrows := hstamp hold.1 hold.2
    have hw' := refresh_keeps h hdue hold
    have hm : Marks files rows w' := by
      rw [hw', ← hrows]
      exact ⟨hw.1.definitions, hw.1.lexicon, hw.1.validators⟩
    have hb : w'.built = rows := by
      rw [hw']
      exact hrows
    have hc : w'.checked = rows := by
      rw [hw']
    refine ⟨⟨?_, hc.trans hb.symm⟩, hm⟩
    rw [hb]
    exact hm
  · obtain ⟨hr, hl, hv, hb, hc⟩ := refresh_rebuilds h hdue hold
    have hm : Marks files rows w' := by
      refine ⟨hr, hl, ?_⟩
      intro d hd schema hs
      rw [hv] at hs
      have hget := (mem_all (keyed_of_ofDefs hr)).1 hd
      have hdefs := Except.ok.inj ((registryFrom_eq files rows.types).symm.trans hr)
      rw [← hdefs, get?_definitionsFrom] at hget
      exact hshapes (ident d) d hget schema hs
    refine ⟨⟨?_, hc.trans hb.symm⟩, hm⟩
    rw [hb]
    exact hm

theorem validateResponse_eq_ok {validator : Validator} {key : String} {version : ℤ} {value : Json}
    {w w' : Worker} {m : Option String}
    (h : validateResponse validator key version value w = .ok (m, w')) :
    w' = w ∨ ∃ d schema, w.registry.get key version = .ok d ∧
      d.slotResponseSchema = .ok (some schema) ∧
      w' = { w with validators := w.validators.setDefault d.ref schema } := by
  unfold validateResponse at h
  by_cases hnull : value = .null
  · rw [if_pos hnull] at h
    cases h
    exact .inl rfl
  · rw [if_neg hnull] at h
    obtain ⟨d, hd, h⟩ := bind_eq_ok.1 h
    obtain ⟨schema, hs, h⟩ := bind_eq_ok.1 h
    cases schema with
    | none =>
      cases h
      exact .inl rfl
    | some schema =>
      cases h
      exact .inr ⟨d, schema, hd, hs, rfl⟩

theorem get_mem_all {r : Registry} {key : String} {version : ℤ} {d : QuestionTypeDef}
    (h : r.get key version = .ok d) : d ∈ all r := by
  unfold Registry.get at h
  split at h
  · next e he =>
    cases h
    exact List.mem_map.2 ⟨_, Dict.get?_eq_some.1 he, rfl⟩
  · cases h

theorem eq_of_ref {r : Registry} {d e : QuestionTypeDef} (hr : Keyed r.defs) (hd : d ∈ all r)
    (he : e ∈ all r) (h : d.ref = e.ref) : d = e := by
  have hd := (mem_all hr).1 hd
  rw [ident_of_ref h, (mem_all hr).1 he] at hd
  exact (Option.some.inj hd).symm

theorem validate_marks {validator : Validator} {key : String} {version : ℤ} {value : Json}
    {w w' : Worker} {m : Option String} (hw : Current files w)
    (h : validateResponse validator key version value w = .ok (m, w')) : Current files w' := by
  rcases validateResponse_eq_ok h with rfl | ⟨d, schema, hd, hs, rfl⟩
  · exact hw
  · refine ⟨⟨hw.1.definitions, hw.1.lexicon, ?_⟩, hw.2⟩
    intro e he schema' hv
    change (w.validators.setDefault d.ref schema).get? e.ref = some schema' at hv
    rw [Dict.get?_setDefault] at hv
    split at hv
    · next hre =>
      have hde : d = e := eq_of_ref hw.1.keyed (get_mem_all hd) he hre
      subst hde
      cases hold : w.validators.get? d.ref with
      | none =>
        rw [hold] at hv
        cases hv
        exact hs
      | some old =>
        rw [hold] at hv
        cases hv
        exact hw.1.validators d he old hold
    · exact hw.1.validators e he schema' hv

theorem validateResponse_eq {rows : Tables} {w : Worker} (hw : Marks files rows w)
    (validator : Validator) (key : String) (version : ℤ) (value : Json) :
    Prod.fst <$> validateResponse validator key version value w =
      w.registry.validateResponse validator key version value := by
  unfold validateResponse Registry.validateResponse
  by_cases hnull : value = .null
  · rw [if_pos hnull, if_pos hnull]
    rfl
  · rw [if_neg hnull, if_neg hnull]
    cases hd : w.registry.get key version with
    | error e => rfl
    | ok d =>
      cases hs : d.slotResponseSchema with
      | error e => simp [bind, Except.bind, Functor.map, Except.map, hs]
      | ok schema =>
        cases schema with
        | none => simp [bind, Except.bind, Functor.map, Except.map, hs, pure, Except.pure]
        | some schema =>
          have hcompiled : (w.validators.get? d.ref).getD schema = schema := by
            cases hv : w.validators.get? d.ref with
            | none => rfl
            | some old =>
              have hold := hw.validators d (get_mem_all hd) old hv
              rw [hs] at hold
              cases hold
              rfl
          simp [bind, Except.bind, Functor.map, Except.map, hs, pure, Except.pure, hcompiled]

theorem Marks.alike {rows : Tables} {w w' : Worker} (hw : Marks files rows w)
    (hw' : Marks files rows w') : MarkAlike w w' := by
  have hr : w.registry = w'.registry :=
    Except.ok.inj (hw.definitions.symm.trans hw'.definitions)
  have hl : w.lexicon = w'.lexicon := hw.lexicon.trans hw'.lexicon.symm
  constructor
  · intro validator key version value
    rw [validateResponse_eq hw, validateResponse_eq hw', hr]
  · intro frames req
    unfold Worker.scorer
    rw [hr, hl]

/-! ## Every run -/

def Fresh (files : Files) (s : State) : Prop := ∀ i, Current files (s.workers i)

theorem fresh_put {s : State} {i : ℕ} {w : Worker} (hs : Fresh files s) (hw : Current files w) :
    Fresh files (s.put i w) := by
  intro j
  change Current files (Function.update s.workers i w j)
  by_cases hj : j = i
  · rw [hj, Function.update_self]
    exact hw
  · rw [Function.update_of_ne hj]
    exact hs j

theorem refresh_returns (files : Files) (rows : Tables) (force : Bool) (now : ℚ) (w : Worker) :
    ∃ b w', refreshFromDb files rows force now w = .ok (b, w') := by
  unfold refreshFromDb
  rw [registryFrom_eq]
  split_ifs
  · exact ⟨_, _, rfl⟩
  · exact ⟨_, _, rfl⟩
  · exact ⟨_, _, rfl⟩

theorem step_refresh {s : State} {i tx : ℕ} {force : Bool} {now : ℚ} (hs : Fresh files s)
    (hg : Guard files s (.refresh i tx force now)) :
    Fresh files (step files s (.refresh i tx force now)) ∧
      (Due force now (s.workers i) → Marks files (view s tx)
        ((step files s (.refresh i tx force now)).workers i)) := by
  obtain ⟨b, w, hw⟩ := refresh_returns files (view s tx) force now (s.workers i)
  have hstep : step files s (.refresh i tx force now) = s.put i w := by
    simp only [step, hw]
  have hself : (s.put i w).workers i = w := by
    simp [State.put]
  rw [hstep, hself]
  by_cases hdue : Due force now (s.workers i)
  · obtain ⟨hstamp, hshapes⟩ := hg hdue
    obtain ⟨hcurrent, hmarks⟩ := refresh_marks (hs i) hw hdue hstamp hshapes
    exact ⟨fresh_put hs hcurrent, fun _ => hmarks⟩
  · refine ⟨?_, fun h => absurd h hdue⟩
    rw [refresh_early hw hdue]
    exact fresh_put hs (hs i)

theorem step_fresh {s : State} {e : Event} (hs : Fresh files s) (hg : Guard files s e) :
    Fresh files (step files s e) := by
  cases e with
  | start i => exact fresh_put hs ⟨marks_boot files, rfl⟩
  | edit tx e => exact hs
  | commit tx => exact hs
  | rollback tx => exact hs
  | refresh i tx force now => exact (step_refresh hs hg).1
  | validate i validator key version value =>
    cases h : validateResponse validator key version value (s.workers i) with
    | error e =>
      simp only [step, h]
      exact hs
    | ok mw =>
      simp only [step, h]
      exact fresh_put hs (validate_marks (hs i) h)

def booted (files : Files) (committed : Tables) : State where
  committed := committed
  workers := fun _ => Worker.boot files

theorem run_fresh {committed : Tables} {is : List Event} {s : State}
    (h : Runs (fun s e t => step files s e = t) (Guard files) (booted files committed) is s) :
    Fresh files s := by
  apply h.invariant
  · intro s e t hs hg ht
    rw [← ht]
    exact step_fresh hs hg
  · intro i
    exact ⟨marks_boot files, rfl⟩

/-- After a check that is not too early a worker marks by the rows it can see, and two workers
whose last checks saw the same rows validate and score every response identically. -/
theorem workers_mark_alike (files : Files) (committed : Tables) (is : List Event) (s : State)
    (h : Runs (fun s e t => step files s e = t) (Guard files) (booted files committed) is s) :
    (∀ i tx force now, Due force now (s.workers i) → Guard files s (.refresh i tx force now) →
      Marks files (view s tx) ((step files s (.refresh i tx force now)).workers i)) ∧
    (∀ i, Marks files (s.workers i).checked (s.workers i)) ∧
    ∀ i j, (s.workers i).checked = (s.workers j).checked →
      MarkAlike (s.workers i) (s.workers j) := by
  have hs := run_fresh h
  have hmarks : ∀ i, Marks files (s.workers i).checked (s.workers i) := by
    intro i
    rw [(hs i).2]
    exact (hs i).1
  refine ⟨?_, hmarks, ?_⟩
  · intro i tx force now hdue hg
    exact (step_refresh hs hg).2 hdue
  · intro i j hij
    have hi := hmarks i
    rw [hij] at hi
    exact hi.alike (hmarks j)

/-! ## Workers that part -/

def sampleFiles : Files where
  definitions := [ScoringTotality.sampleType]
  registry := ⟨Dict.empty.put ("short_answer", 1) ScoringTotality.sampleType⟩
  loaded := rfl
  entries := []

def number (id : ℕ) (digits word : String) : LexiconRow := ⟨id, ⟨"number_word", digits, word, true⟩⟩

theorem runs_foldl (files : Files) (s : State) (es : List Event) :
    Any (fun s e t => step files s e = t) s es (es.foldl (step files) s) := by
  induction es generalizing s with
  | nil => exact .refl s
  | cons e es ih => exact .next trivial rfl (ih (step files s e))

theorem checked_refresh {s : State} {i tx : ℕ} {force : Bool} {now : ℚ}
    (hdue : Due force now (s.workers i)) :
    ((step files s (.refresh i tx force now)).workers i).checked = view s tx := by
  obtain ⟨b, w, hw⟩ := refresh_returns files (view s tx) force now (s.workers i)
  have hself : (step files s (.refresh i tx force now)).workers i = w := by
    simp [step, hw, State.put]
  rw [hself]
  by_cases hold : force = false ∧ (s.workers i).generation = some (view s tx).generation
  · rw [refresh_keeps hw hdue hold]
  · exact (refresh_rebuilds hw hdue hold).2.2.2.2

theorem refresh_other {s : State} {i j tx : ℕ} {force : Bool} {now : ℚ} (hij : i ≠ j) :
    (step files s (.refresh j tx force now)).workers i = s.workers i ∧
      view (step files s (.refresh j tx force now)) = view s := by
  obtain ⟨b, w, hw⟩ := refresh_returns files (view s tx) force now (s.workers j)
  have hstep : step files s (.refresh j tx force now) = s.put j w := by
    simp only [step, hw]
  rw [hstep]
  exact ⟨by simp [State.put, hij], rfl⟩

theorem checked_together {s : State} {i j tx : ℕ} {force : Bool} {now : ℚ} (hij : i ≠ j)
    (hi : Due force now (s.workers i)) (hj : Due force now (s.workers j)) :
    ((step files (step files s (.refresh i tx force now))
        (.refresh j tx force now)).workers i).checked =
      ((step files (step files s (.refresh i tx force now))
        (.refresh j tx force now)).workers j).checked := by
  obtain ⟨hkept, hview⟩ := @refresh_other files s j i tx force now hij.symm
  rw [(refresh_other hij).1, checked_refresh hi, checked_refresh (by rw [hkept]; exact hj), hview]

def awardedFor (w : Worker) (answer : String) : Option ℚ :=
  ((w.scorer 900).scoreItem (ScoringTotality.sampleRequest answer)).toOption.map ItemScore.awarded

def rowAdded : List Event :=
  [.edit 1 (.insertLexicon 0 (number 1 "2" "two")), .refresh 0 1 true 1, .commit 1,
    .refresh 1 0 false 1]

theorem workers_mark_alike_row :
    ∃ s, Runs (fun s e t => step sampleFiles s e = t) (Guard sampleFiles) (booted sampleFiles {})
        rowAdded s ∧
      (∀ i, Marks sampleFiles (s.workers i).checked (s.workers i)) ∧
      awardedFor (s.workers 0) "two" = some 1 ∧ awardedFor (s.workers 1) "two" = some 1 := by
  have hrun : Runs (fun s e t => step sampleFiles s e = t) (Guard sampleFiles)
      (booted sampleFiles {}) rowAdded
      (rowAdded.foldl (step sampleFiles) (booted sampleFiles {})) := by
    refine .next trivial rfl (.next ?_ rfl (.next trivial rfl (.next ?_ rfl (.refl _))))
    · intro _
      refine ⟨fun h => Bool.noConfusion h, ?_⟩
      intro k d _ schema h
      cases h
    · intro _
      refine ⟨fun _ h => ?_, ?_⟩
      · cases h
      · intro k d _ schema h
        cases h
  exact ⟨_, hrun, (workers_mark_alike sampleFiles {} rowAdded _ hrun).2.1, by decide +kernel,
    by decide +kernel⟩

def rowsSwapped : List Event :=
  [.edit 1 (.insertLexicon 0 (number 1 "1" "one")),
    .edit 1 (.insertLexicon 1 (number 2 "3" "three")),
    .edit 1 (.insertLexicon 2 (number 3 "4" "four")), .commit 1, .refresh 0 0 false 10,
    .edit 2 (.deleteLexicon 2), .edit 2 (.deleteLexicon 3),
    .edit 2 (.insertLexicon 1 (number 4 "2" "two")), .commit 2]

def bothCheck : List Event := [.refresh 0 0 false 20, .refresh 1 0 false 20]

def integerType : QuestionTypeDef :=
  { ScoringTotality.sampleType with
    version := 2
    responseSchema := .obj [("properties", .obj [("slots", .obj [("type", .str "object"),
      ("additionalProperties", .obj [("type", .str "integer")])])])] }

def stringType : QuestionTypeDef := { ScoringTotality.sampleType with version := 2 }

def typeRedefined : List Event :=
  [.edit 1 (.insertType 0 ⟨1, some stringType⟩), .commit 1, .refresh 0 0 false 10,
    .validate 0 ScoringTotality.typeValidator "short_answer" 2 (.str "two"),
    .edit 2 (.deleteType 1), .edit 2 (.insertType 0 ⟨2, some integerType⟩), .commit 2]

def verdictOf (w : Worker) (value : Json) : Option Bool :=
  (validateResponse ScoringTotality.typeValidator "short_answer" 2 value w).toOption.map
    (fun m => m.1.isNone)

/-- Both workers looked at the same rows, in time, and mark one answer in two ways; or take one
answer and refuse it. -/
theorem workers_part :
    (∃ s, Any (fun s e t => step sampleFiles s e = t) (booted sampleFiles {})
        (rowsSwapped ++ bothCheck) s ∧
      (s.workers 0).checked = (s.workers 1).checked ∧
      awardedFor (s.workers 0) "two" = some 0 ∧ awardedFor (s.workers 1) "two" = some 1) ∧
    ∃ s, Any (fun s e t => step sampleFiles s e = t) (booted sampleFiles {})
        (typeRedefined ++ bothCheck) s ∧
      (s.workers 0).checked = (s.workers 1).checked ∧
      verdictOf (s.workers 0) (.int 2) = some false ∧
      verdictOf (s.workers 1) (.int 2) = some true := by
  refine ⟨⟨_, runs_foldl _ _ _, ?_, ?_, ?_⟩, ⟨_, runs_foldl _ _ _, ?_, ?_, ?_⟩⟩
  · rw [List.foldl_append]
    exact checked_together (by decide) (by decide +kernel) (by decide +kernel)
  · decide +kernel
  · decide +kernel
  · rw [List.foldl_append]
    exact checked_together (by decide) (by decide +kernel) (by decide +kernel)
  · decide +kernel
  · decide +kernel

end IeltsHub.RegistryCache
