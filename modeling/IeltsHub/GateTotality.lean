import IeltsHub.GateShapes

set_option autoImplicit false

/-!
# Which compositions the gate reports on

A report has a finding for every violation of a schema, and for every question what it would have
if it were alone in its group.
-/
namespace IeltsHub.GateTotality
open PyExc PyText PyValue PyDict PlatformFindings QtypesSchemas QtypesRegistry ContentComposition
  ContentPublishGate GateShapes

variable {q : QuestionNode} {g : GroupNode} {s : SectionNode} {d : QuestionTypeDef}
  {registry : Registry} {validator : Validator} {c : TestComposition} {path : String}

/-! ## What a report says of a question -/

/-- The question stands in the group, and its findings are under the path. -/
def Stands (c : TestComposition) (s : SectionNode) (g : GroupNode) (q : QuestionNode)
    (path : String) : Prop :=
  ∃ j k, s ∈ c.sections ∧ (g, j) ∈ s.groups.zipIdx ∧ (q, k) ∈ g.questions.zipIdx ∧
    path = "sections[" ++ toString s.position ++ "]" ++ ".groups[" ++ toString j ++ "]" ++
      ".questions[" ++ toString k ++ "]"

def alone (g : GroupNode) (q : QuestionNode) : GroupNode := { g with questions := [q] }

/-- The finding is among them, up to the numbers in its message. -/
def Found (report : Report) (f : Finding) : Prop :=
  ∃ f' ∈ report, f'.code = f.code ∧ f'.severity = f.severity ∧ f'.path = f.path ∧
    f'.subjectXid = f.subjectXid

def Violates (report : Report) (code path xid : String) (e : SchemaError) : Prop :=
  ∃ f ∈ report, f.severity = .error ∧ f.code = code ∧ f.subjectXid = some xid ∧
    f.path = (if join "." (e.path.map PathPart.text) = "" then path
      else path ++ "." ++ join "." (e.path.map PathPart.text)) ∧
    ∃ before, f.message = before ++ e.message

structure Reports (validator : Validator) (registry : Registry) (c : TestComposition)
    (report : Report) : Prop where
  content : ∀ s g q path d, Stands c s g q path →
    registry.defs.get? (q.typeKey, q.typeVersion) = some d →
    ∀ e ∈ validator.iterErrors d.payloadSchema (.obj q.payload.entries),
      Violates report "PAYLOAD_INVALID" path q.xid e
  key : ∀ s g q path d key, Stands c s g q path →
    registry.defs.get? (q.typeKey, q.typeVersion) = some d → q.key = some key →
    ∀ e ∈ validator.iterErrors d.keySchema (.obj key.entries),
      Violates report "KEY_INVALID" path q.xid e
  alone : ∀ s g q path, Stands c s g q path →
    ∃ r, checkQuestion validator registry s (alone g q) q path = .ok r ∧
      ∀ f ∈ r, Found report f

theorem found_of_mem {report : Report} {f : Finding} (h : f ∈ report) : Found report f :=
  ⟨f, h, rfl, rfl, rfl, rfl⟩

theorem Found.mono {r report : Report} {f : Finding} (h : Found r f) (hr : ∀ f ∈ r, f ∈ report) :
    Found report f := by
  obtain ⟨f', hf', hsame⟩ := h
  exact ⟨f', hr f' hf', hsame⟩

theorem violates_of_mem {schema value : Json} {code what path xid : String} {e : SchemaError}
    {report : Report} (he : e ∈ validator.iterErrors schema value)
    (hr : ∀ f ∈ schemaFindings validator schema value code what path xid, f ∈ report) :
    Violates report code path xid e := by
  have hsorted : e ∈ (validator.iterErrors schema value).insertionSort
      (fun a b => pathLE a.path b.path = true) := (List.perm_insertionSort _ _).mem_iff.2 he
  exact ⟨_, hr _ (List.mem_map.2 ⟨e, hsorted, rfl⟩), rfl, rfl, rfl, rfl, _, rfl⟩

theorem exists_question {report : Report} (hrun : run validator c registry = .ok report)
    (h : Stands c s g q path) :
    ∃ r, checkQuestion validator registry s g q path = .ok r ∧ ∀ f ∈ r, f ∈ report := by
  obtain ⟨j, k, hs, hg, hq, rfl⟩ := h
  obtain ⟨bandMap, _, hrun⟩ := bind_eq_ok.1 hrun
  obtain ⟨sections, hsections, hrun⟩ := bind_eq_ok.1 hrun
  cases hrun
  obtain ⟨rs, hrs, hsection⟩ := exists_of_mapM hsections hs
  unfold checkSection at hsection
  obtain ⟨groups, hgroups, hsection⟩ := bind_eq_ok.1 hsection
  cases hsection
  obtain ⟨rg, hrg, hgroup⟩ := exists_of_mapM hgroups hg
  unfold checkGroup at hgroup
  have hne : g.questions.isEmpty = false := by
    rw [List.isEmpty_eq_false_iff]
    exact List.ne_nil_of_mem (List.fst_mem_of_mem_zipIdx hq)
  rw [hne, if_neg (by decide)] at hgroup
  obtain ⟨questions, hquestions, hflat⟩ := map_eq_ok.1 hgroup
  subst hflat
  obtain ⟨rq, hrq, hquestion⟩ := exists_of_mapM hquestions hq
  refine ⟨rq, hquestion, fun f hf => ?_⟩
  have hingroup : f ∈ questions.flatten := List.mem_flatten.2 ⟨rq, hrq, hf⟩
  have hinsection := List.mem_flatten.2 ⟨questions.flatten, hrg, hingroup⟩
  refine List.mem_append_left _ (List.mem_append_right _ (List.mem_flatten.2 ⟨_, hrs, ?_⟩))
  exact List.mem_append_left _ (List.mem_append_right _ hinsection)

theorem schema_in_report {r : Report}
    (hd : registry.defs.get? (q.typeKey, q.typeVersion) = some d)
    (h : checkQuestion validator registry s g q path = .ok r) :
    (∀ f ∈ schemaFindings validator d.payloadSchema (.obj q.payload.entries) "PAYLOAD_INVALID"
      "question content" path q.xid, f ∈ r) ∧
    ∀ key, q.key = some key → ∀ f ∈ schemaFindings validator d.keySchema (.obj key.entries)
      "KEY_INVALID" "answer key" path q.xid, f ∈ r := by
  unfold checkQuestion at h
  rw [hd] at h
  dsimp only at h
  cases hkey : q.key with
  | none =>
    rw [hkey] at h
    cases h
    refine ⟨fun f hf => ?_, fun key hkey => by cases hkey⟩
    exact List.mem_append_left _ (List.mem_append_right _ hf)
  | some key =>
    rw [hkey] at h
    obtain ⟨checks, _, h⟩ := bind_eq_ok.1 h
    obtain ⟨diagram, _, h⟩ := bind_eq_ok.1 h
    cases h
    constructor
    · intro f hf
      exact List.mem_append_left _ (List.mem_append_left _ (List.mem_append_left _
        (List.mem_append_right _ hf)))
    · rintro key' hkey' f hf
      cases hkey'
      exact List.mem_append_left _ (List.mem_append_left _ (List.mem_append_right _ hf))

/-! ### A question alone -/

theorem legible_alone (h : LegibleQuestion s g q d) : LegibleQuestion s (alone g q) q d where
  selection := h.selection
  slots hp :=
    have hslots := h.slots hp
    { names := hslots.names
      options := ⟨hslots.options.bank, hslots.options.payload, hslots.options.fixed⟩
      answers := hslots.answers
      first := hslots.first }
  limits hp :=
    have hlimits := h.limits hp
    { group := hlimits.group, without := hlimits.without, own := hlimits.own }
  diagram := h.diagram

theorem slotCount_alone (hq : q ∈ g.questions) : slotCount (alone g q) ≤ slotCount g := by
  have hmem := List.single_le_sum (fun _ _ => Nat.zero_le _) _
    (List.mem_map.2 ⟨q, hq, rfl⟩ : q.slotKeys.length ∈ g.questions.map (fun q => q.slotKeys.length))
  have hone : slotCount (alone g q) = q.slotKeys.length := by
    change q.slotKeys.length + 0 = _
    omega
  rw [hone]
  exact hmem

theorem found_append {r₁ r₂ r₁' r₂' : Report} (h₁ : ∀ f ∈ r₁, Found r₁' f)
    (h₂ : ∀ f ∈ r₂, Found r₂' f) : ∀ f ∈ r₁ ++ r₂, Found (r₁' ++ r₂') f := by
  intro f hf
  rcases List.mem_append.1 hf with hf | hf
  · exact (h₁ f hf).mono (fun _ h => List.mem_append_left _ h)
  · exact (h₂ f hf).mono (fun _ h => List.mem_append_right _ h)

theorem found_findIf {p p' : Bool} {f f' : Finding} (hp : p = true → p' = true)
    (hcode : f'.code = f.code) (hseverity : f'.severity = f.severity) (hpath : f'.path = f.path)
    (hsubject : f'.subjectXid = f.subjectXid) : ∀ x ∈ findIf p f, Found (findIf p' f') x := by
  unfold findIf
  intro x hx
  split at hx
  · next htrue =>
    rw [List.mem_singleton.1 hx, if_pos (hp htrue)]
    exact ⟨f', List.mem_singleton_self _, hcode, hseverity, hpath, hsubject⟩
  · cases hx

theorem bankFindings_alone {valid : List String} {r r' : Report} (hq : q ∈ g.questions)
    (h : bankFindings (alone g q) d valid path = .ok r)
    (h' : bankFindings g d valid path = .ok r') : ∀ f ∈ r, Found r' f := by
  have hcount := slotCount_alone hq
  unfold bankFindings at h h'
  split at h
  · next hempty =>
    rw [if_pos hempty] at h'
    cases h
    cases h'
    exact fun f hf => found_of_mem hf
  · next hempty =>
    rw [if_neg hempty] at h'
    obtain ⟨offset, hoffset, h⟩ := bind_eq_ok.1 h
    obtain ⟨offset', hoffset', h'⟩ := bind_eq_ok.1 h'
    cases hoffset.symm.trans hoffset'
    cases offset with
    | none =>
      cases h
      exact fun f hf => by cases hf
    | some n =>
      cases h
      cases h'
      refine found_findIf (fun hsmall => ?_) rfl rfl rfl rfl
      have hsmall := of_decide_eq_true hsmall
      exact decide_eq_true (by omega)

theorem gateOptions_alone {found found' : List String × Report} (hq : q ∈ g.questions)
    (h : gateOptions q (alone g q) s d path = .ok found)
    (h' : gateOptions q g s d path = .ok found') :
    found.1 = found'.1 ∧ ∀ f ∈ found.2, Found found'.2 f := by
  unfold gateOptions at h h'
  dsimp only at h h'
  split at h
  · next hsource =>
    rw [if_pos hsource] at h'
    obtain ⟨valid, hvalid, h⟩ := bind_eq_ok.1 h
    obtain ⟨bank, hbank, h⟩ := bind_eq_ok.1 h
    obtain ⟨valid', hvalid', h'⟩ := bind_eq_ok.1 h'
    obtain ⟨bank', hbank', h'⟩ := bind_eq_ok.1 h'
    cases h
    cases h'
    have heq : valid = valid' := Except.ok.inj (hvalid.symm.trans hvalid')
    subst heq
    exact ⟨rfl, bankFindings_alone hq hbank hbank'⟩
  · next hsource =>
    rw [if_neg hsource] at h'
    have heq : found = found' := Except.ok.inj (h.symm.trans h')
    subst heq
    exact ⟨rfl, fun f hf => found_of_mem hf⟩

theorem checkSlotKey_alone {r r' : Report} (hq : q ∈ g.questions)
    (h : checkSlotKey q (alone g q) s d path = .ok r) (h' : checkSlotKey q g s d path = .ok r') :
    ∀ f ∈ r, Found r' f := by
  unfold checkSlotKey at h h'
  obtain ⟨slots, hslots, h⟩ := bind_eq_ok.1 h
  obtain ⟨⟨valid, bank⟩, hoptions, h⟩ := bind_eq_ok.1 h
  obtain ⟨unknown, hunknown, h⟩ := bind_eq_ok.1 h
  obtain ⟨reused, hreused, h⟩ := bind_eq_ok.1 h
  obtain ⟨slots', hslots', h'⟩ := bind_eq_ok.1 h'
  obtain ⟨⟨valid', bank'⟩, hoptions', h'⟩ := bind_eq_ok.1 h'
  obtain ⟨unknown', hunknown', h'⟩ := bind_eq_ok.1 h'
  obtain ⟨reused', hreused', h'⟩ := bind_eq_ok.1 h'
  cases h
  cases h'
  obtain ⟨hvalid, hbank⟩ := gateOptions_alone hq hoptions hoptions'
  dsimp only at hvalid hbank
  subst hvalid
  cases hslots.symm.trans hslots'
  cases hunknown.symm.trans hunknown'
  cases hreused.symm.trans hreused'
  have hsame : ∀ r : Report, ∀ f ∈ r, Found r f := fun r f => found_of_mem
  exact found_append (found_append (found_append (hsame _) hbank) (hsame _)) (hsame _)

theorem checkKey_alone {r r' : Report} (hq : q ∈ g.questions)
    (h : checkKey q (alone g q) s d path = .ok r) (h' : checkKey q g s d path = .ok r') :
    ∀ f ∈ r, Found r' f := by
  unfold checkKey at h h'
  cases hp : d.scoring.primitive with
  | setSelection =>
    rw [hp] at h h'
    cases h.symm.trans h'
    exact fun f => found_of_mem
  | choicePerSlot =>
    rw [hp] at h h'
    exact checkSlotKey_alone hq h h'
  | textPerSlot =>
    rw [hp] at h h'
    obtain ⟨slots, hslots, h⟩ := bind_eq_ok.1 h
    obtain ⟨limits, hlimits, h⟩ := bind_eq_ok.1 h
    obtain ⟨slots', hslots', h'⟩ := bind_eq_ok.1 h'
    obtain ⟨limits', hlimits', h'⟩ := bind_eq_ok.1 h'
    cases h
    cases h'
    have hlimits : checkWordLimits q g d path = .ok limits := hlimits
    cases hlimits.symm.trans hlimits'
    exact found_append (checkSlotKey_alone hq hslots hslots') (fun f => found_of_mem)

theorem checkQuestion_alone {r r' : Report} (hq : q ∈ g.questions)
    (h : checkQuestion validator registry s (alone g q) q path = .ok r)
    (h' : checkQuestion validator registry s g q path = .ok r') : ∀ f ∈ r, Found r' f := by
  unfold checkQuestion at h h'
  cases hd : registry.defs.get? (q.typeKey, q.typeVersion) with
  | none =>
    rw [hd] at h h'
    cases h.symm.trans h'
    exact fun f => found_of_mem
  | some d =>
    rw [hd] at h h'
    dsimp only at h h'
    cases hkey : q.key with
    | none =>
      rw [hkey] at h h'
      cases h.symm.trans h'
      exact fun f => found_of_mem
    | some key =>
      rw [hkey] at h h'
      obtain ⟨checks, hchecks, h⟩ := bind_eq_ok.1 h
      obtain ⟨diagram, hdiagram, h⟩ := bind_eq_ok.1 h
      obtain ⟨checks', hchecks', h'⟩ := bind_eq_ok.1 h'
      obtain ⟨diagram', hdiagram', h'⟩ := bind_eq_ok.1 h'
      cases h
      cases h'
      have hdiagram : checkDiagram q g d path = .ok diagram := hdiagram
      cases hdiagram.symm.trans hdiagram'
      have hsame : ∀ r : Report, ∀ f ∈ r, Found r f := fun r f => found_of_mem
      exact found_append (found_append (hsame _) (checkKey_alone hq hchecks hchecks')) (hsame _)

theorem reports_of_run {report : Report} (hrun : run validator c registry = .ok report) :
    Reports validator registry c report := by
  constructor
  · intro s g q path d hstands hd e he
    obtain ⟨r, hr, hin⟩ := exists_question hrun hstands
    exact violates_of_mem he (fun f hf => hin f ((schema_in_report hd hr).1 f hf))
  · intro s g q path d key hstands hd hkey e he
    obtain ⟨r, hr, hin⟩ := exists_question hrun hstands
    exact violates_of_mem he (fun f hf => hin f ((schema_in_report hd hr).2 key hkey f hf))
  · intro s g q path hstands
    obtain ⟨r, hr, hin⟩ := exists_question hrun hstands
    have hlegible := returns_checkQuestion.1 ⟨r, hr⟩
    have hreturns : Returns (checkQuestion validator registry s (alone g q) q path) :=
      returns_checkQuestion.2 (fun d hd hkey => legible_alone (hlegible d hd hkey))
    obtain ⟨r', hr'⟩ := hreturns
    obtain ⟨_, _, _, _, hq, _⟩ := hstands
    have hmem := List.fst_mem_of_mem_zipIdx hq
    exact ⟨r', hr', fun f hf => (checkQuestion_alone hmem hr' hr f hf).mono hin⟩

def mcqSingle : QuestionTypeDef where
  key := "mcq_single"
  version := 1
  title := "Multiple choice"
  skills := ["reading", "listening"]
  payloadSchema := .obj [("type", .str "object")]
  scoring :=
    { primitive := .choicePerSlot
      options := Dict.ofList [("option_source", .str "payload.options")] }

def mcqRegistry : Registry := ⟨Dict.ofList [(("mcq_single", 1), mcqSingle)]⟩

def unnamedOption : Obj := Dict.ofList [("options", .arr [.obj [("text", .str "Paris")]])]

def namedOption : Obj := Dict.ofList [("options", .arr [.obj [("id", .str "A")]])]

/-- The schema asks for an `id` of every option. -/
def mcqErrors (schema value : Json) : List SchemaError :=
  if schema = mcqSingle.payloadSchema ∧ value = .obj unnamedOption.entries then
    [{ path := [.key "options", .index 0], message := "'id' is a required property" }]
  else []

def mcqValidator : Validator where
  iterErrors := mcqErrors
  bestMatch := List.head?
  bestMatch_eq_none := fun _ => List.head?_eq_none_iff

def mcqPaper (payload key : Obj) : TestComposition where
  xid := "t1"
  title := "One question"
  sections := [{
    position := 1, skill := "reading", title := "Section 1"
    groups := [{
      xid := "g1", numberStart := 1
      questions := [{
        xid := "q1", typeKey := "mcq_single", typeVersion := 1, payload, slotKeys := ["s1"]
        key := some key }] }] }]
  coherent := by
    intro p hp p' hp' _
    simp only [questionsOf, List.flatMap_cons, List.flatMap_nil, List.append_nil, List.map_cons,
      List.map_nil, List.mem_singleton] at hp hp'
    rw [hp, hp']

def keyOf (spec : Json) : Obj := Dict.ofList [("slots", .obj [("s1", spec)])]

end IeltsHub.GateTotality
