import IeltsHub.ImportAdapters

set_option autoImplicit false

/-!
# Which files the dry run accounts for

`parse` answers with a result exactly for the files whose walk meets objects only, with version
numbers `int` reads; it is then compared with what the fields of a document are.
-/
namespace IeltsHub.ImportTotality
open PyExc PyText PyValue PyDict PyCsv PlatformErrors PlatformFindings QtypesSchemas
  QtypesRegistry ContentImporter ImportAdapters

/-! ## The shapes of a document -/

/-- A loop over the value meets elements with the property only. -/
def Each (P : Json → Prop) (v : Json) : Prop := ∃ es, elements? v = some es ∧ ∀ e ∈ es, P e

def Object (P : Obj → Prop) (v : Json) : Prop := ∃ d, asDict v = some d ∧ P d

def questionsOf (g : Obj) : Json := getOr g "questions" (.arr [])

def groupsOf (s : Obj) : Json := getOr s "groups" (.arr [])

def sectionsOf (doc : Obj) : Json := getOr doc "sections" (.arr [])

def versionIn (q : Obj) : Except Raised ℤ := pyInt (getOr q "type_version" (.int 1))

def WalkableQuestion (q : Obj) : Prop := Returns (versionIn q)

def WalkableGroup (g : Obj) : Prop := Each (Object WalkableQuestion) (questionsOf g)

def WalkableSection (s : Obj) : Prop := Each (Object WalkableGroup) (groupsOf s)

def Walkable (doc : Obj) : Prop := Each (Object WalkableSection) (sectionsOf doc)

/-- The type is registered for the skill and there is an accepted answer. -/
def SoundQuestion (registry : Registry) (skill : Json) (q : Obj) : Prop :=
  (∃ version definition, versionIn q = .ok version ∧
    registered registry (getD q "type_key" .null) version = some definition ∧
    ∃ s ∈ definition.skills, .str s = skill) ∧
  truthy (getOr q "accept" (.arr [])) = true

def SoundGroup (registry : Registry) (skill : Json) (g : Obj) : Prop :=
  elements? (questionsOf g) ≠ some [] ∧ Each (Object (SoundQuestion registry skill)) (questionsOf g)

def SoundSection (registry : Registry) (s : Obj) : Prop :=
  (getD s "skill" .null = .str "reading" ∨ getD s "skill" .null = .str "listening") ∧
  Each (Object (SoundGroup registry (getD s "skill" .null))) (groupsOf s)

/-- Nothing the dry run looks for is wrong with the document. -/
def Sound (registry : Registry) (doc : Obj) : Prop :=
  truthy (getD doc "title" .null) = true ∧ elements? (sectionsOf doc) ≠ some [] ∧
  Each (Object (SoundSection registry)) (sectionsOf doc)

def OptList (P : Json → Prop) (v : Json) : Prop := v = .null ∨ ∃ es, v = .arr es ∧ ∀ e ∈ es, P e

def TypedQuestion (q : Obj) : Prop :=
  (getD q "type_version" .null = .null ∨
    Returns (pyInt (getD q "type_version" .null) : Except Raised ℤ)) ∧
  OptList (fun _ => True) (getD q "accept" .null)

def TypedGroup (g : Obj) : Prop := OptList (Object TypedQuestion) (getD g "questions" .null)

def TypedSection (s : Obj) : Prop := OptList (Object TypedGroup) (getD s "groups" .null)

/-- A document whose fields have the types the walk takes them for. -/
def Typed (doc : Obj) : Prop :=
  doc.entries ≠ [] ∧ (∃ title, getD doc "title" .null = .str title) ∧
  OptList (Object TypedSection) (getD doc "sections" .null)

/-! ## One level of the walk -/

variable {registry : Registry} {β : Type}

theorem returns_object {f : Obj → Except Raised β} {P : Obj → Prop}
    (hf : ∀ d, Returns (f d) ↔ P d) (v : Json) :
    Returns (dictMethod v >>= f) ↔ Object P v := by
  rw [returns_bind]
  simp only [dictMethod_eq_ok, hf, Object]

theorem forall_zipIdx {α : Type} (P : α → Prop) (k : ℕ) (as : List α) :
    (∀ e ∈ as.zipIdx k, P e.1) ↔ ∀ a ∈ as, P a := by
  rw [← List.forall_mem_map, List.zipIdx_map_fst]

theorem returns_zipIdx {f : Json × ℕ → Except Raised β} {P : Json → Prop}
    (hf : ∀ e i, Returns (f (e, i)) ↔ P e) (es : List Json) :
    Returns (es.zipIdx.mapM f) ↔ ∀ e ∈ es, P e := by
  rw [returns_mapM, ← forall_zipIdx P 0]
  exact forall₂_congr (fun e _ => hf e.1 e.2)

theorem returns_each {f : Json × ℕ → Except Raised β} {P : Json → Prop}
    (hf : ∀ e i, Returns (f (e, i)) ↔ P e) {γ : Type} (k : List Json → List β → γ) (v : Json) :
    Returns (iter v >>= fun es => es.zipIdx.mapM f >>= fun bs =>
      (.ok (k es bs) : Except Raised γ)) ↔ Each P v := by
  rw [returns_bind]
  constructor
  · rintro ⟨es, hes, h⟩
    obtain ⟨bs, hbs, _⟩ := returns_bind.1 h
    exact ⟨es, iter_eq_ok.1 hes, (returns_zipIdx hf es).1 ⟨bs, hbs⟩⟩
  · rintro ⟨es, hes, h⟩
    obtain ⟨bs, hbs⟩ := (returns_zipIdx hf es).2 h
    exact ⟨es, iter_eq_ok.2 hes, returns_bind.2 ⟨bs, hbs, returns_ok _⟩⟩

theorem passed_each {f : Json × ℕ → Except Raised (Report × β)} {P : Json → Prop}
    (hf : ∀ e i r, f (e, i) = .ok r → (r.1.passed = true ↔ P e)) {es : List Json}
    {checked : List (Report × β)} (h : es.zipIdx.mapM f = .ok checked) :
    Report.passed (checked.map Prod.fst).flatten = true ↔ ∀ e ∈ es, P e := by
  rw [passed_flatten, List.forall_mem_map, ← forall_zipIdx P 0]
  constructor
  · intro hall e he
    obtain ⟨r, hr, hfr⟩ := exists_of_mapM h he
    exact (hf e.1 e.2 r hfr).1 (hall r hr)
  · intro hall r hr
    obtain ⟨e, he, hfr⟩ := exists_input_of_mapM h hr
    exact (hf e.1 e.2 r hfr).2 (hall e he)

theorem passed_warning {p : Bool} {f : Finding} (hf : f.severity = .warning) :
    (findIf p f).passed = true := by
  unfold findIf
  cases p with
  | false => rfl
  | true =>
    rw [passed_iff]
    simp [hf]

theorem not_passed_one {f : Finding} (hf : f.severity = .error) : ¬ Report.passed [f] = true := by
  rw [passed_iff]
  intro h
  exact h f (by simp) hf

/-! ## A question -/

variable {skill : Json} {path : String}

theorem returns_checkQuestion (v : Json) :
    Returns (checkQuestion registry skill path v) ↔ Object WalkableQuestion v := by
  unfold checkQuestion
  apply returns_object
  intro q
  rw [returns_bind]
  constructor
  · rintro ⟨version, hversion, _⟩
    exact ⟨version, hversion⟩
  · rintro ⟨version, hversion⟩
    refine ⟨version, hversion, ?_⟩
    cases registered registry (getD q "type_key" .null) version with
    | none => exact returns_pure _
    | some definition => exact returns_pure _

theorem passed_found {definition : QuestionTypeDef} {accepted : Bool} {m m' : String} :
    Report.passed (findIf (!definition.skills.any (fun s => .str s = skill)) {
        code := "TYPE_WRONG_SKILL", message := m, path } ++
      findIf (!accepted) { code := "KEY_MISSING", message := m', path }) = true ↔
    (∃ s ∈ definition.skills, .str s = skill) ∧ accepted = true := by
  rw [passed_append, passed_findIf rfl, passed_findIf rfl]
  simp

theorem passed_checkQuestion {v : Json} {r : Report × ℕ}
    (h : checkQuestion registry skill path v = .ok r) :
    r.1.passed = true ↔ Object (SoundQuestion registry skill) v := by
  unfold checkQuestion at h
  obtain ⟨q, hq, h⟩ := bind_eq_ok.1 h
  obtain ⟨version, hversion, h⟩ := bind_eq_ok.1 h
  have hobject : Object (SoundQuestion registry skill) v ↔ SoundQuestion registry skill q := by
    unfold Object
    rw [dictMethod_eq_ok.1 hq]
    simp
  rw [hobject]
  cases hreg : registered registry (getD q "type_key" .null) version with
  | none =>
    rw [hreg] at h
    cases h
    constructor
    · intro hp
      exact absurd hp (not_passed_one rfl)
    · rintro ⟨⟨version', definition, hv, hd, _⟩, _⟩
      rw [versionIn, hversion] at hv
      cases hv
      rw [hreg] at hd
      cases hd
  | some definition =>
    rw [hreg] at h
    cases h
    rw [passed_found]
    constructor
    · rintro ⟨hskill, haccept⟩
      exact ⟨⟨version, definition, hversion, hreg, hskill⟩, haccept⟩
    · rintro ⟨⟨version', definition', hv, hd, hskill⟩, haccept⟩
      rw [versionIn, hversion] at hv
      cases hv
      rw [hreg] at hd
      cases hd
      exact ⟨hskill, haccept⟩

/-! ## A group and a section -/

theorem object_of_dictMethod {v : Json} {d : Obj} {P : Obj → Prop}
    (h : (dictMethod v : Except Raised Obj) = .ok d) : Object P v ↔ P d := by
  unfold Object
  rw [dictMethod_eq_ok.1 h]
  simp

theorem each_of_elements {v : Json} {es : List Json} {P : Json → Prop}
    (h : elements? v = some es) : Each P v ↔ ∀ e ∈ es, P e := by
  unfold Each
  rw [h]
  simp

theorem returns_checkGroup (v : Json) (i : ℕ) :
    Returns (checkGroup registry skill path (v, i)) ↔ Object WalkableGroup v := by
  unfold checkGroup
  apply returns_object
  intro g
  exact returns_each (fun e j => returns_checkQuestion e) _ (questionsOf g)

theorem returns_checkSection (v : Json) (i : ℕ) :
    Returns (checkSection registry (v, i)) ↔ Object WalkableSection v := by
  unfold checkSection
  apply returns_object
  intro s
  exact returns_each returns_checkGroup _ (groupsOf s)

theorem passed_checkGroup {v : Json} {i : ℕ} {r : Report × Counts}
    (h : checkGroup registry skill path (v, i) = .ok r) :
    r.1.passed = true ↔ Object (SoundGroup registry skill) v := by
  unfold checkGroup at h
  obtain ⟨g, hg, h⟩ := bind_eq_ok.1 h
  obtain ⟨es, hes, h⟩ := bind_eq_ok.1 h
  obtain ⟨checked, hchecked, h⟩ := bind_eq_ok.1 h
  cases h
  have hlist : elements? (questionsOf g) = some es := iter_eq_ok.1 hes
  rw [object_of_dictMethod hg, passed_append, passed_findIf rfl,
    passed_each (fun e j r hr => passed_checkQuestion hr) hchecked, SoundGroup,
    each_of_elements hlist, hlist]
  simp

theorem passed_checkSection {v : Json} {i : ℕ} {r : Report × Counts}
    (h : checkSection registry (v, i) = .ok r) :
    r.1.passed = true ↔ Object (SoundSection registry) v := by
  unfold checkSection at h
  obtain ⟨s, hs, h⟩ := bind_eq_ok.1 h
  obtain ⟨es, hes, h⟩ := bind_eq_ok.1 h
  obtain ⟨checked, hchecked, h⟩ := bind_eq_ok.1 h
  cases h
  have hlist : elements? (groupsOf s) = some es := iter_eq_ok.1 hes
  rw [object_of_dictMethod hs, passed_append, passed_findIf rfl,
    passed_each (fun e j r hr => passed_checkGroup hr) hchecked, SoundSection,
    each_of_elements hlist, decide_eq_false_iff_not]
  simp only [not_and_or, ne_eq, not_not]

/-! ## The document -/

theorem returns_validate {doc : Obj} (hdoc : doc.entries ≠ []) (report : Report) :
    Returns (validate doc registry report) ↔ Walkable doc := by
  unfold validate
  rw [if_neg (by simpa using hdoc)]
  exact returns_each returns_checkSection _ (sectionsOf doc)

theorem passed_validate {doc : Obj} {report : Report} {result : ImportResult}
    (hdoc : doc.entries ≠ []) (h : validate doc registry report = .ok result) :
    result.report.passed = true ↔ report.passed = true ∧ Sound registry doc := by
  unfold validate at h
  rw [if_neg (by simpa using hdoc)] at h
  obtain ⟨es, hes, h⟩ := bind_eq_ok.1 h
  obtain ⟨checked, hchecked, h⟩ := bind_eq_ok.1 h
  cases h
  have hlist : elements? (sectionsOf doc) = some es := iter_eq_ok.1 hes
  simp only [passed_append, passed_warning, passed_findIf, and_true]
  rw [passed_each (fun e j r hr => passed_checkSection hr) hchecked, Sound, each_of_elements hlist,
    hlist]
  simp [and_assoc]

/-! ## From an adapter on -/

/-- A result comes back, and it passes a document with fields of their types only. -/
def Explained (x : Except Escape ImportResult) : Prop :=
  ∃ result, x = .ok result ∧ (result.report.passed = true → Typed result.canonical)

/-- The document can be walked, and what the checks let pass has its types. -/
def Taken (registry : Registry) (report : Report) (doc : Obj) : Prop :=
  Walkable doc ∧ (report.passed = true → Sound registry doc → Typed doc)

theorem canonical_validate {doc : Obj} {report : Report} {result : ImportResult}
    (hdoc : doc.entries ≠ []) (h : validate doc registry report = .ok result) :
    result.canonical = doc := by
  unfold validate at h
  rw [if_neg (by simpa using hdoc)] at h
  obtain ⟨es, hes, h⟩ := bind_eq_ok.1 h
  obtain ⟨checked, hchecked, h⟩ := bind_eq_ok.1 h
  cases h
  rfl

theorem mapError_eq_ok {ε ε' α : Type} {f : ε → ε'} {x : Except ε α} {a : α} :
    x.mapError f = .ok a ↔ x = .ok a := by
  cases x with
  | ok b => exact ⟨fun h => by cases h; rfl, fun h => by cases h; rfl⟩
  | error e => exact ⟨fun h => (by cases h), fun h => (by cases h)⟩

theorem explained_nothing {doc : Obj} (hdoc : doc.entries = []) (report : Report) :
    Explained (validated registry (doc, report)) ↔ ¬ report.passed = true := by
  have hvalidated : validated registry (doc, report) = .ok ⟨Dict.empty, report, {}⟩ := by
    unfold validated validate
    rw [if_pos (by simpa using hdoc)]
    rfl
  rw [Explained, hvalidated]
  constructor
  · rintro ⟨result, hresult, htyped⟩ hpassed
    cases hresult
    exact (htyped hpassed).1 rfl
  · intro hfailed
    exact ⟨_, rfl, fun hpassed => absurd hpassed hfailed⟩

theorem explained_document {doc : Obj} (hdoc : doc.entries ≠ []) (report : Report) :
    Explained (validated registry (doc, report)) ↔ Taken registry report doc := by
  constructor
  · rintro ⟨result, hresult, htyped⟩
    have hvalidate := mapError_eq_ok.1 hresult
    have hpassed := passed_validate hdoc hvalidate
    rw [canonical_validate hdoc hvalidate, hpassed] at htyped
    have hreturns : Returns (validate doc registry report) := ⟨result, hvalidate⟩
    refine ⟨(returns_validate hdoc report).1 hreturns, fun hreport hsound => ?_⟩
    exact htyped ⟨hreport, hsound⟩
  · rintro ⟨hwalk, htyped⟩
    have hreturns : Returns (validate doc registry report) := (returns_validate hdoc report).2 hwalk
    obtain ⟨result, hvalidate⟩ := hreturns
    refine ⟨result, mapError_eq_ok.2 hvalidate, fun hpassed => ?_⟩
    have hsound := (passed_validate hdoc hvalidate).1 hpassed
    rw [canonical_validate hdoc hvalidate]
    exact htyped hsound.1 hsound.2

theorem not_explained_error (e : Escape) : ¬ Explained (.error e) := by
  rintro ⟨result, hresult, _⟩
  cases hresult

/-! ## JSON -/

/-- The members of an object, as a document the dry run accounts for. -/
def ReadableMembers (registry : Registry) (ms : List (String × Json)) : Prop :=
  (dictOf ms).entries ≠ [] ∧ Taken registry [] (dictOf ms)

theorem explained_members (ms : List (String × Json)) :
    Explained (validated registry (dictOf ms, [])) ↔ ReadableMembers registry ms := by
  by_cases hdoc : (dictOf ms).entries = []
  · rw [explained_nothing hdoc]
    exact iff_of_false (by simp) (fun h => h.1 hdoc)
  · rw [explained_document hdoc, ReadableMembers, and_iff_right hdoc]

theorem explained_refused (registry : Registry) {f : Finding} (hf : f.severity = .error) :
    Explained (validated registry (Dict.empty, [f])) :=
  (explained_nothing rfl [f]).2 (not_passed_one hf)

def ReadableJson (registry : Registry) : Loaded → Prop
  | .raises _ _ => False
  | .value (.obj ms) => ReadableMembers registry ms
  | _ => True

theorem explained_json (loaded : Loaded) :
    Explained (fromJson loaded >>= validated registry) ↔ ReadableJson registry loaded := by
  unfold fromJson
  cases loaded with
  | decodeError message => exact iff_of_true (explained_refused registry rfl) trivial
  | raises e message => exact iff_of_false (not_explained_error _) id
  | value v =>
    cases v with
    | obj ms => exact explained_members ms
    | _ => exact iff_of_true (explained_refused registry rfl) trivial

/-! ## CSV -/

variable {upper : String → String}

theorem returns_addRows (rows : List (Row × ℕ)) (s : Sections × Report) :
    Returns (rows.foldlM (addRow upper) s) ↔ ∀ r ∈ rows, Returns (versionOf r.1) := by
  induction rows generalizing s with
  | nil => exact iff_of_true (returns_pure s) (by simp)
  | cons r rows ih =>
    rw [List.foldlM_cons, returns_bind, List.forall_mem_cons]
    constructor
    · rintro ⟨t, ht, hrest⟩
      obtain ⟨version, hversion, _⟩ := bind_eq_ok.1 ht
      exact ⟨⟨version, hversion⟩, (ih t).1 hrest⟩
    · rintro ⟨⟨version, hversion⟩, hrest⟩
      have hadd : Returns (addRow upper s r) :=
        returns_bind.2 ⟨version, hversion, returns_pure _⟩
      obtain ⟨t, ht⟩ := hadd
      exact ⟨t, ht, (ih t).2 hrest⟩

theorem each_getOr {d : Obj} {key : String} {es : List Json} {P : Json → Prop}
    (hkey : getD d key .null = .arr es) (hall : ∀ e ∈ es, P e) :
    Each P (getOr d key (.arr [])) := by
  unfold getOr
  rw [hkey]
  cases es with
  | nil => exact ⟨[], rfl, hall⟩
  | cons e es => exact ⟨e :: es, rfl, hall⟩

theorem walkable_question (q : CsvQuestion) : Object WalkableQuestion (questionJson q) := by
  refine ⟨_, rfl, ?_⟩
  unfold WalkableQuestion versionIn getOr
  change Returns (pyInt (if truthy (.int q.typeVersion) = true then .int q.typeVersion else .int 1))
  split
  · exact returns_ok _
  · exact returns_ok _

theorem typed_question (q : CsvQuestion) : Object TypedQuestion (questionJson q) :=
  ⟨_, rfl, .inr (returns_ok q.typeVersion), .inr ⟨q.accept.map .str, rfl, fun _ _ => trivial⟩⟩

theorem walkable_group (g : CsvGroup) : Object WalkableGroup (groupJson g) := by
  refine ⟨_, rfl, each_getOr rfl ?_⟩
  rw [List.forall_mem_map]
  exact fun q _ => walkable_question q

theorem typed_group (g : CsvGroup) : Object TypedGroup (groupJson g) := by
  refine ⟨_, rfl, .inr ⟨_, rfl, ?_⟩⟩
  rw [List.forall_mem_map]
  exact fun q _ => typed_question q

theorem walkable_section (s : CsvSection) : Object WalkableSection (sectionJson s) := by
  refine ⟨_, rfl, each_getOr rfl ?_⟩
  rw [List.forall_mem_map]
  exact fun g _ => walkable_group g

theorem typed_section (s : CsvSection) : Object TypedSection (sectionJson s) := by
  refine ⟨_, rfl, .inr ⟨_, rfl, ?_⟩⟩
  rw [List.forall_mem_map]
  exact fun g _ => typed_group g

theorem walkable_csv (title : String) (sections : Sections) : Walkable (csvDoc title sections) := by
  refine each_getOr rfl ?_
  rw [List.forall_mem_map]
  exact fun s _ => walkable_section s

theorem typed_csv (title : String) (sections : Sections) : Typed (csvDoc title sections) := by
  refine ⟨fun h => List.cons_ne_nil _ _ h, ⟨title, rfl⟩, .inr ⟨_, rfl, ?_⟩⟩
  rw [List.forall_mem_map]
  exact fun s _ => typed_section s

def ReadableRows : List Row → Prop
  | [] => True
  | first :: rest => missingColumns first = [] → ∀ row ∈ first :: rest, Returns (versionOf row)

theorem explained_rows (rows : List Row) :
    Explained ((fromRows upper rows).mapError .raised >>= validated registry) ↔
      ReadableRows rows := by
  cases rows with
  | nil => exact iff_of_true (explained_refused registry rfl) trivial
  | cons first rest =>
    by_cases hmissing : missingColumns first = []
    · have hall : (∀ r ∈ (first :: rest).zipIdx 2, Returns (versionOf r.1)) ↔
          ReadableRows (first :: rest) := by
        rw [forall_zipIdx (fun row => Returns (versionOf row))]
        exact ⟨fun h _ => h, fun h => h hmissing⟩
      have hrows : fromRows upper (first :: rest) = (do
          let read ← ((first :: rest).zipIdx 2).foldlM (addRow upper) (Dict.empty, [])
          return (csvDoc (cellOr first "test_title" "Imported test") read.1, read.2)) :=
        if_neg (not_not.2 hmissing)
      rw [hrows, ← hall, ← @returns_addRows upper _ (Dict.empty, [])]
      cases hread : ((first :: rest).zipIdx 2).foldlM (addRow upper) (Dict.empty, []) with
      | error e => exact iff_of_false (not_explained_error _) (returns_error e)
      | ok read =>
        refine iff_of_true ?_ (returns_ok read)
        have hne : (csvDoc (cellOr first "test_title" "Imported test") read.1).entries ≠ [] :=
          (typed_csv _ _).1
        exact (explained_document hne read.2).2 ⟨walkable_csv _ _, fun _ _ => typed_csv _ _⟩
    · have hrows : fromRows upper (first :: rest) = .ok (Dict.empty, [{
          code := "CSV_MISSING_COLUMNS"
          message := "Missing required column(s): " ++ join ", " (missingColumns first) ++ "."
          path := "file.header" }]) := if_pos hmissing
      rw [hrows]
      exact iff_of_true (explained_refused registry rfl) (fun h => absurd h hmissing)

/-- The bytes are text, the text is rows, and the rows are readable. -/
def ReadableCsv (raw : ByteArray) : Prop :=
  ∃ text rows, utf8Sig raw = some text ∧ dictReader text = .ok rows ∧ ReadableRows rows

theorem explained_csv (raw : ByteArray) :
    Explained (fromCsv upper raw >>= validated registry) ↔ ReadableCsv raw := by
  unfold fromCsv ReadableCsv
  cases htext : utf8Sig raw with
  | none => exact iff_of_false (not_explained_error _) (by simp)
  | some text =>
    dsimp only
    cases hrows : dictReader text with
    | error e => exact iff_of_false (not_explained_error _) (by simp [hrows])
    | ok rows => simpa [hrows] using explained_rows rows

/-! ## The template, and every format -/

def ReadablePayload (registry : Registry) : Loaded → Prop
  | .value (.obj ms) => ReadableMembers registry ms
  | _ => True

def ReadableDocx (registry : Registry) (libs : Libraries) (raw : ByteArray) : Prop :=
  ∀ payload, (libs.customXml raw).toOption.join.bind templatePayload = some payload →
    ReadablePayload registry (libs.loadsText payload)

theorem explained_payload (loaded : Loaded) {read : Obj × Report}
    (hread : readJson loaded = .ok read) :
    Explained (validated registry read) ↔ ReadablePayload registry loaded := by
  cases loaded with
  | decodeError message =>
    cases hread
    exact iff_of_true (explained_refused registry rfl) trivial
  | raises e message => cases hread
  | value v =>
    cases v with
    | obj ms =>
      cases hread
      exact explained_members ms
    | _ =>
      cases hread
      exact iff_of_true (explained_refused registry rfl) trivial

theorem payload_of_raised {loaded : Loaded} {e : Raised × String}
    (hread : readJson loaded = .error e) : ReadablePayload registry loaded := by
  cases loaded with
  | decodeError message => cases hread
  | raises e message => exact trivial
  | value v => cases v <;> cases hread

theorem explained_docx (libs : Libraries) (raw : ByteArray) :
    Explained (validated registry (fromDocx libs raw)) ↔ ReadableDocx registry libs raw := by
  unfold fromDocx ReadableDocx
  cases hcustom : libs.customXml raw with
  | error message => exact iff_of_true (explained_refused registry rfl) (fun _ h => by cases h)
  | ok custom =>
    have hcut : (Except.ok custom : Except String (Option String)).toOption.join.bind
        templatePayload = custom.bind templatePayload := rfl
    rw [hcut]
    dsimp only
    cases custom.bind templatePayload with
    | none => exact iff_of_true (explained_refused registry rfl) (fun _ h => by cases h)
    | some payload =>
      have hone : (∀ payload', some payload = some payload' →
          ReadablePayload registry (libs.loadsText payload')) ↔
          ReadablePayload registry (libs.loadsText payload) := by simp
      rw [hone]
      dsimp only
      cases hread : readJson (libs.loadsText payload) with
      | ok read => exact explained_payload _ hread
      | error e => exact iff_of_true (explained_refused registry rfl) (payload_of_raised hread)

def Readable (libs : Libraries) (registry : Registry) (raw : ByteArray) : String → Prop
  | "json" => ReadableJson registry (libs.loadsBytes raw)
  | "csv" => ReadableCsv raw
  | "docx" => ReadableDocx registry libs raw
  | _ => True

theorem explained_other (libs : Libraries) (registry : Registry) (raw : ByteArray)
    {sourceFormat : String} (hjson : sourceFormat ≠ "json") (hcsv : sourceFormat ≠ "csv")
    (hdocx : sourceFormat ≠ "docx") : Explained (parse libs registry raw sourceFormat) := by
  unfold parse
  split
  · exact absurd rfl hjson
  · exact absurd rfl hcsv
  · exact absurd rfl hdocx
  · exact ⟨_, rfl, fun h => absurd h (not_passed_one rfl)⟩

theorem readable_other (libs : Libraries) (registry : Registry) (raw : ByteArray)
    {sourceFormat : String} (hjson : sourceFormat ≠ "json") (hcsv : sourceFormat ≠ "csv")
    (hdocx : sourceFormat ≠ "docx") : Readable libs registry raw sourceFormat := by
  unfold Readable
  split
  · exact absurd rfl hjson
  · exact absurd rfl hcsv
  · exact absurd rfl hdocx
  · trivial

/-- Parsing is total exactly on the files whose format's reading does not raise, whose document
is walked over objects only, and which the checks do not pass with a field of another type. -/
theorem parse_total_iff (libs : Libraries) (registry : Registry) (raw : ByteArray)
    (sourceFormat : String) :
    Explained (parse libs registry raw sourceFormat) ↔
      Readable libs registry raw sourceFormat := by
  by_cases hjson : sourceFormat = "json"
  · rw [hjson]
    exact explained_json (libs.loadsBytes raw)
  by_cases hcsv : sourceFormat = "csv"
  · rw [hcsv]
    exact explained_csv raw
  by_cases hdocx : sourceFormat = "docx"
  · rw [hdocx]
    exact explained_docx libs raw
  exact iff_of_true (explained_other libs registry raw hjson hcsv hdocx)
    (readable_other libs registry raw hjson hcsv hdocx)

def sampleFile : ByteArray := "\x7b\"sections\": [1]\x7d".toUTF8

def sampleLibs : Libraries where
  loadsBytes raw := if raw = sampleFile then .value (.obj [("sections", .arr [.int 1])])
    else .decodeError "Expecting value: line 1 column 1 (char 0)"
  loadsText _ := .decodeError "Expecting value: line 1 column 1 (char 0)"
  customXml _ := .error "File is not a zip file"
  upper s := s.map Char.toUpper

def sampleRows : ByteArray := "section,group,type_key,answer,type_version\nA,B,tfng,TRUE,x".toUTF8

theorem wrong_types_escape :
    parse sampleLibs .empty sampleFile "json" = .error (.raised .attributeError) ∧
    parse sampleLibs .empty sampleRows "csv" = .error (.raised .valueError) ∧
    ¬ Explained (parse sampleLibs .empty sampleFile "json") := by
  have hjson : parse sampleLibs .empty sampleFile "json" =
      .error (.raised .attributeError) := rfl
  refine ⟨hjson, rfl, ?_⟩
  rw [hjson]
  exact not_explained_error _

end IeltsHub.ImportTotality
