import IeltsHub.BlankOrder

set_option autoImplicit false

/-!
# The counts of an import

What `commit` writes for the numbering and the counts of a paper, and what the publish gate makes
of it. The importer counts questions where the gate counts slots.
-/
namespace IeltsHub.ImportCounts
open PyExc PyText PyValue PyDict PlatformErrors PlatformFindings QtypesSchemas QtypesRegistry
  ContentComposition ContentImporter BlankOrder
open ContentPublishGate (slotCount numberingFrom checkNumbering countFindings markers
  checkSectionPositions)

/-! ## What the gate reads -/

/-- The parts of a section that the numbering and the counts are checked on. -/
structure Shape where
  position : ℤ
  declared : Option ℤ
  groups : List (ℤ × List (List String))
  deriving DecidableEq

def shapeOf (s : SectionNode) : Shape where
  position := s.position
  declared := s.declaredQuestionCount
  groups := s.groups.map (fun g => (g.numberStart, g.questions.map QuestionNode.slotKeys))

def rowShape (s : SectionRow) : Shape where
  position := s.position
  declared := some s.declaredQuestionCount
  groups := s.groups.map (fun g => (g.numberStart, g.questions.map QuestionRow.slotKeys))

def Composed (rows : List SectionRow) (c : TestComposition) : Prop :=
  c.sections.map shapeOf = rows.map rowShape

/-- No finding of the gate is about a number or a count the importer wrote. -/
structure Agrees (c : TestComposition) : Prop where
  positions : c.sections.map SectionNode.position =
    (List.range c.sections.length).map (fun i : ℕ => (i : ℤ) + 1)
  numbering : checkNumbering c = []
  counts : ∀ s ∈ c.sections, ∀ path, countFindings s path = []

/-! ## What the document has -/

def entriesOf (key : String) (v : Json) : List Json :=
  ((asDict v).bind (fun d => elements? (getOr d key (.arr [])))).getD []

def questionDocs (canonical : Obj) : List Json :=
  ((entriesOf "sections" (.obj canonical.entries)).flatMap (entriesOf "groups")).flatMap
    (entriesOf "questions")

def typeOf (registry : Registry) (q : Obj) : Option QuestionTypeDef :=
  match (pyInt (getOr q "type_version" (.int 1)) : Except Raised ℤ) with
  | .ok version => registered registry (getD q "type_key" .null) version
  | .error _ => none

/-- One blank in the text of the payload, however often; or none and one slot listed. -/
def Single (payload : Obj) : Prop :=
  if payload.values.flatMap textMarkers = [] then
    ∃ v, elements? (getOr payload "slots" (.arr [.str "s1"])) = some [v]
  else (payload.values.flatMap textMarkers).dedup.length = 1

/-- A question comes to one blank: in the payload it gives, or with at most one in its text. A text
that is no string is printed into the payload the type asks for. -/
def OneBlank (definition : Option QuestionTypeDef) (q : Obj) : Prop :=
  if truthy (getD q "payload" .null) then
    ∀ payload, asDict (getD q "payload" .null) = some payload → Single payload
  else match textOf q with
    | .str text => (markers text.toList).dedup.length ≤ 1
    | _ => ∀ payload, payloadFrom q definition = .ok payload → Single payload

def SingleBlanks (registry : Registry) (canonical : Obj) : Prop :=
  ∀ question ∈ questionDocs canonical, ∀ q, asDict question = some q →
    OneBlank (typeOf registry q) q

def OneSlotEach (rows : List SectionRow) : Prop :=
  ∀ s ∈ rows, ∀ g ∈ s.groups, ∀ q ∈ g.questions, q.slotKeys.length = 1

section
variable {registry : Registry} {canonical q payload : Obj} {c : TestComposition}
  {rows : List SectionRow} {question : Json} {number n : ℕ}

/-! ## The gate on shapes -/

def count (g : ℤ × List (List String)) : ℕ := (g.2.map List.length).sum

def Runs : ℤ → List (ℤ × List (List String)) → Prop
  | _, [] => True
  | expected, g :: gs => g.1 = expected ∧ Runs (max expected g.1 + count g) gs

theorem findIf_eq_nil {p : Bool} {f : Finding} : findIf p f = [] ↔ p = false := by
  unfold findIf
  cases p <;> simp

theorem slotCount_eq (g : GroupNode) :
    slotCount g = count (g.numberStart, g.questions.map QuestionNode.slotKeys) := by
  unfold slotCount count
  rw [List.map_map]
  rfl

theorem numberingFrom_eq_nil (expected : ℤ) (pairs : List (SectionNode × GroupNode)) :
    numberingFrom expected pairs = [] ↔ Runs expected
      (pairs.map (fun p => (p.2.numberStart, p.2.questions.map QuestionNode.slotKeys))) := by
  induction pairs generalizing expected with
  | nil => exact iff_of_true rfl trivial
  | cons p pairs ih =>
    obtain ⟨s, g⟩ := p
    rw [numberingFrom, List.append_eq_nil_iff, findIf_eq_nil, ih, slotCount_eq, List.map_cons]
    exact and_congr_left (fun _ => by simp)

theorem numbering_iff (h : Composed rows c) :
    checkNumbering c = [] ↔ Runs 1 (rows.flatMap (fun s => (rowShape s).groups)) := by
  have hgroups : (c.sections.flatMap (fun s => s.groups.map (fun g => (s, g)))).map
      (fun p => (p.2.numberStart, p.2.questions.map QuestionNode.slotKeys)) =
      (c.sections.map shapeOf).flatMap Shape.groups := by
    rw [List.map_flatMap, List.flatMap_map]
    refine List.flatMap_congr (fun s _ => ?_)
    rw [List.map_map]
    rfl
  unfold checkNumbering
  rw [numberingFrom_eq_nil, hgroups, h, List.flatMap_map]

theorem countFindings_iff {s : SectionNode} (path : String) :
    countFindings s path = [] ↔
      ∀ declared, (shapeOf s).declared = some declared →
        (((shapeOf s).groups.map count).sum : ℤ) = declared := by
  have hactual : (s.groups.map slotCount).sum = ((shapeOf s).groups.map count).sum := by
    unfold shapeOf
    rw [List.map_map]
    exact congrArg List.sum (List.map_congr_left (fun g _ => slotCount_eq g))
  have hdeclared : (shapeOf s).declared = s.declaredQuestionCount := rfl
  unfold countFindings
  rw [hactual, hdeclared]
  cases s.declaredQuestionCount with
  | none => exact iff_of_true rfl (fun _ h => by cases h)
  | some declared =>
    dsimp only
    rw [findIf_eq_nil, decide_eq_false_iff_not, not_not]
    exact ⟨fun h d hd => (Option.some.inj hd) ▸ h, fun h => h declared rfl⟩

theorem counts_iff (h : Composed rows c) :
    (∀ s ∈ c.sections, ∀ path, countFindings s path = []) ↔
      ∀ s ∈ rows, ((rowShape s).groups.map count).sum = s.declaredQuestionCount := by
  have hshapes : (∀ shape ∈ c.sections.map shapeOf, ∀ declared, shape.declared = some declared →
      ((shape.groups.map count).sum : ℤ) = declared) ↔
      ∀ shape ∈ rows.map rowShape, ∀ declared, shape.declared = some declared →
        ((shape.groups.map count).sum : ℤ) = declared := by rw [h]
  rw [List.forall_mem_map, List.forall_mem_map] at hshapes
  constructor
  · intro hcounts s hs
    have hsame := hshapes.1 (fun s hs => (countFindings_iff "").1 (hcounts s hs "")) s hs _ rfl
    exact_mod_cast hsame
  · intro hcounts s hs path
    refine (countFindings_iff path).2 (hshapes.2 (fun s hs declared hd => ?_) s hs)
    have hdeclared : (s.declaredQuestionCount : ℤ) = declared := Option.some.inj hd
    rw [← hdeclared]
    exact_mod_cast hcounts s hs

theorem positions_iff (h : Composed rows c) :
    c.sections.map SectionNode.position =
      (List.range c.sections.length).map (fun i : ℕ => (i : ℤ) + 1) ↔
      rows.map (fun s => (s.position : ℤ)) =
        (List.range rows.length).map (fun i : ℕ => (i : ℤ) + 1) := by
  have hpositions := congrArg (List.map Shape.position) h
  have hlength := congrArg List.length h
  rw [List.map_map, List.map_map] at hpositions
  rw [List.length_map, List.length_map] at hlength
  rw [hlength]
  exact ⟨fun heq => hpositions.symm.trans heq, fun heq => hpositions.trans heq⟩

/-! ## Slots of a payload -/

theorem slotsFrom_length_iff {slots : List String} (h : slotsFrom payload = .ok slots) :
    slots.length = 1 ↔ Single payload := by
  unfold slotsFrom at h
  unfold Single
  dsimp only at h
  by_cases hfound : payload.values.flatMap textMarkers = []
  · rw [if_pos hfound]
    rw [hfound] at h
    obtain ⟨listed, hiter, hmap⟩ := bind_eq_ok.1 h
    have hlisted := iter_eq_ok.1 hiter
    rw [hlisted, ← (mapM_eq_ok.1 hmap).length_eq, List.length_eq_one_iff]
    exact ⟨fun ⟨v, hv⟩ => ⟨v, congrArg some hv⟩, fun ⟨v, hv⟩ => ⟨v, Option.some.inj hv⟩⟩
  · rw [if_neg hfound]
    have hne : (payload.values.flatMap textMarkers).isEmpty = false :=
      List.isEmpty_eq_false_iff.2 hfound
    rw [hne] at h
    cases h
    unfold sorted
    rw [List.length_insertionSort]

theorem one_le_slots {slots : List String} (h : slotsFrom payload = .ok slots) :
    1 ≤ slots.length := List.length_pos_iff.2 (slotsFrom_ne_nil h)

theorem slotsFrom_text {v : Json} (hplain : textMarkers v = []) :
    slotsFrom (Dict.empty.put "text" v) = .ok ["s1"] := by
  have hvalues : (Dict.empty.put "text" v).values = [v] := rfl
  unfold slotsFrom
  dsimp only
  rw [hvalues, List.flatMap_singleton, hplain]
  rfl

theorem payloadFrom_none (q : Obj) :
    payloadFrom q none = .ok (Dict.empty.put "text" (textOf q)) := rfl

theorem markerAt_of_markers {cs : List Char} (h : markers cs ≠ []) :
    ∃ tail, tail <:+ cs ∧ ∃ m, ContentPublishGate.markerAt tail = some m := by
  induction cs with
  | nil => exact absurd rfl h
  | cons c cs ih =>
    cases hm : ContentPublishGate.markerAt (c :: cs) with
    | some m => exact ⟨c :: cs, List.suffix_rfl, m, hm⟩
    | none =>
      rw [markers_cons_none hm] at h
      obtain ⟨tail, htail, m, hm⟩ := ih h
      exact ⟨tail, htail.trans (List.suffix_cons c cs), m, hm⟩

theorem payloadFrom_markers {definition : Option QuestionTypeDef}
    (h : payloadFrom q definition = .ok payload) (hmarkers : textMarkers (textOf q) ≠ []) :
    payload.values.flatMap textMarkers = textMarkers (textOf q) := by
  obtain ⟨slotted, text', htext', hvalues⟩ := payloadFrom_values h
  have hsame : text' = textOf q := by
    cases htext : textOf q with
    | str text =>
      rw [htext] at htext' hmarkers
      obtain ⟨cs, hsuffix, m, hm⟩ := markerAt_of_markers hmarkers
      obtain ⟨ds, rest, -, rfl⟩ := exists_of_markerAt hm
      have hstart : markerStart.toList <+: marker ds ++ rest := ⟨ds ++ _ ++ rest, rfl⟩
      rw [withBlank_eq (infixOf_iff.2 (hstart.isInfix.trans hsuffix.isInfix))] at htext'
      cases htext'
      rfl
    | _ =>
      rw [htext] at hmarkers
      exact absurd rfl hmarkers
  subst hsame
  obtain hvalues | hvalues := hvalues
  · rw [hvalues, List.flatMap_singleton]
  · rw [hvalues, List.flatMap_cons, List.flatMap_singleton]
    exact List.append_nil _

theorem plain_of_markers {cs : List Char} (h : markers cs = []) : Plain cs := by
  induction cs with
  | nil => exact plain_nil
  | cons c cs ih =>
    have hnone : ContentPublishGate.markerAt (c :: cs) = none := by
      cases hm : ContentPublishGate.markerAt (c :: cs) with
      | none => rfl
      | some m =>
        rw [markers_cons_some hm] at h
        cases h
    intro ds hds hin
    obtain hprefix | hin := List.infix_cons_iff.1 hin
    · obtain ⟨rest, hrest⟩ := hprefix
      rw [← hrest, markerAt_marker hds] at hnone
      cases hnone
    · rw [markers_cons_none hnone] at h
      exact ih h ds hds hin

theorem plain_blank {cs : List Char} (h : Plain cs) : Plain (cs ++ [' ']) := by
  rintro ds hds ⟨before, rest, heq⟩
  obtain rfl | ⟨rest, c, rfl⟩ := List.eq_nil_or_concat rest
  · have hlast := congrArg List.getLast? heq
    rw [List.append_nil, List.getLast?_concat] at hlast
    have hclose : (before ++ marker ds).getLast? = some '\x7d' := by
      have hsplit : before ++ marker ds =
          (before ++ '\x7b' :: '\x7b' :: 's' :: ds ++ ['\x7d']) ++ ['\x7d'] := by
        unfold marker
        simp only [List.append_assoc, List.cons_append, List.nil_append]
      rw [hsplit, List.getLast?_concat]
    rw [hclose] at hlast
    exact absurd hlast (by decide)
  · rw [List.concat_eq_append, ← List.append_assoc] at heq
    obtain ⟨hcs, -⟩ := List.append_inj' heq rfl
    exact h ds hds ⟨before, rest, hcs⟩

theorem dropWhile_append_marker (l : List Char) (ds : List Char) :
    (l ++ marker ds).dropWhile isSpace = l.dropWhile isSpace ++ marker ds := by
  induction l with
  | nil => exact List.dropWhile_cons_of_neg (by decide)
  | cons c l ih =>
    rw [List.cons_append]
    cases hc : isSpace c with
    | true => rw [List.dropWhile_cons_of_pos hc, List.dropWhile_cons_of_pos hc, ih]
    | false =>
      rw [List.dropWhile_cons_of_neg (by simp [hc]), List.dropWhile_cons_of_neg (by simp [hc])]
      rfl

theorem markers_appended {text : String} (h : markers text.toList = []) :
    markers (strip (text ++ " \x7b\x7bs1\x7d\x7d")).toList = ["s1"] := by
  have hone : Number ['1'] := by decide
  have htext : (text ++ " \x7b\x7bs1\x7d\x7d").toList = (text.toList ++ [' ']) ++ marker ['1'] := by
    rw [String.toList_append, List.append_assoc]
    rfl
  have hplain : Plain ((text.toList ++ [' ']).dropWhile isSpace) := fun ds hds hin =>
    plain_blank (plain_of_markers h) ds hds (hin.trans (List.dropWhile_suffix _).isInfix)
  have hstrip : stripBy isSpace ((text.toList ++ [' ']) ++ marker ['1']) =
      (text.toList ++ [' ']).dropWhile isSpace ++ marker ['1'] := by
    have hclose : (marker ['1']).reverse =
        '\x7d' :: ['\x7d', '1', 's', '\x7b', '\x7b'] := rfl
    unfold stripBy
    rw [dropWhile_append_marker, List.reverse_append, hclose, List.cons_append,
      List.dropWhile_cons_of_neg (by decide), ← List.cons_append, ← hclose, ← List.reverse_append,
      List.reverse_reverse]
  unfold strip
  rw [String.toList_ofList, htext, hstrip]
  have hmarkers := markers_written (.blank hplain hone (.plain plain_nil))
  rwa [List.append_nil] at hmarkers

theorem single_iff_of_text {definition : Option QuestionTypeDef} {text : String}
    (htext : textOf q = .str text) (h : payloadFrom q definition = .ok payload) :
    Single payload ↔ (markers text.toList).dedup.length ≤ 1 := by
  by_cases hmarkers : markers text.toList = []
  · rw [hmarkers]
    refine iff_of_true ?_ (Nat.zero_le 1)
    obtain ⟨slotted, text', field, htext', hfield, hpayload⟩ := payloadFrom_eq h
    have hshape : text' = .str text ∨
        text' = .str (strip (text ++ " \x7b\x7bs1\x7d\x7d")) := by
      rw [htext] at htext'
      unfold withBlank at htext'
      split at htext'
      · obtain ⟨b, -, hb⟩ := bind_eq_ok.1 htext'
        cases b with
        | true =>
          cases hb
          exact .inl rfl
        | false =>
          cases hb
          exact .inr rfl
      · cases htext'
        exact .inl rfl
    have hfound : textMarkers text' = [] ∨ textMarkers text' = ["s1"] := by
      obtain rfl | rfl := hshape
      · exact .inl hmarkers
      · exact .inr (markers_appended hmarkers)
    have hvalues : payload.values.flatMap textMarkers = textMarkers text' := by
      obtain rfl | rfl := hpayload
      · exact List.append_nil _
      · rw [values_withSlots hfield]
        exact List.append_nil _
    have hlisted : elements? (getOr payload "slots" (.arr [.str "s1"])) = some [.str "s1"] := by
      obtain rfl | rfl := hpayload
      · have hget : (Dict.empty.put field text').get? "slots" = none :=
          Dict.get?_put_of_ne _ _ hfield
        unfold getOr getD
        rw [hget]
        rfl
      · unfold getOr getD
        rw [Dict.get?_put, if_pos rfl]
        rfl
    unfold Single
    rw [hvalues]
    obtain hfound | hfound := hfound
    · rw [hfound, if_pos rfl]
      exact ⟨_, hlisted⟩
    · rw [hfound]
      exact rfl
  · have hfound : payload.values.flatMap textMarkers = markers text.toList := by
      have hsame := @payloadFrom_markers q payload definition h
      rw [htext] at hsame
      exact hsame hmarkers
    have hpos : 0 < (markers text.toList).dedup.length := by
      rw [List.length_pos_iff]
      exact fun hnil => hmarkers ((List.dedup_eq_nil _).1 hnil)
    unfold Single
    rw [hfound, if_neg hmarkers]
    omega

theorem single_iff {definition : Option QuestionTypeDef}
    (h : payloadOf q definition = .ok payload) : Single payload ↔ OneBlank definition q := by
  unfold payloadOf at h
  unfold OneBlank
  dsimp only at h
  split at h
  · rename_i hgiven
    rw [if_pos hgiven]
    have hdict := dictMethod_eq_ok.1 h
    constructor
    · intro hsingle payload' hpayload'
      rw [hdict] at hpayload'
      cases hpayload'
      exact hsingle
    · intro hall
      exact hall payload hdict
  · rename_i hgiven
    rw [if_neg hgiven]
    cases htext : textOf q with
    | str text => exact single_iff_of_text htext h
    | _ =>
      constructor
      · intro hsingle payload' hpayload'
        rw [h] at hpayload'
        cases hpayload'
        exact hsingle
      · intro hall
        exact hall payload h

theorem counted_of_single {slots : List String} (hpayload : payloadOf q (typeOf registry q) =
    .ok payload) (hslots : slotsFrom payload = .ok slots) (hone : slots.length = 1)
    (hq : asDict question = some q) {n : ℕ} (hcounted : countedSlots question = .ok n) : n = 1 := by
  obtain ⟨q', hq', hcounted⟩ := bind_eq_ok.1 hcounted
  rw [dictMethod_eq_ok, hq] at hq'
  cases hq'
  obtain ⟨plain, hplain, hcounted⟩ := bind_eq_ok.1 hcounted
  obtain ⟨slots', hslots', rfl⟩ := map_eq_ok.1 hcounted
  unfold payloadOf at hpayload hplain
  dsimp only at hpayload hplain
  split at hpayload
  · rename_i hgiven
    rw [if_pos hgiven, hpayload] at hplain
    cases hplain
    rw [hslots] at hslots'
    cases hslots'
    exact hone
  · rename_i hgiven
    rw [if_neg hgiven, payloadFrom_none] at hplain
    cases hplain
    by_cases hmarkers : textMarkers (textOf q) = []
    · rw [slotsFrom_text hmarkers] at hslots'
      cases hslots'
      rfl
    · have hvalues : (Dict.empty.put "text" (textOf q)).values = [textOf q] := rfl
      have hsame : slotsFrom (Dict.empty.put "text" (textOf q)) = slotsFrom payload := by
        have hne : (textMarkers (textOf q)).isEmpty = false := List.isEmpty_eq_false_iff.2 hmarkers
        unfold slotsFrom
        dsimp only
        rw [hvalues, List.flatMap_singleton, payloadFrom_markers hpayload hmarkers, hne]
        rfl
      rw [hsame, hslots] at hslots'
      cases hslots'
      exact hone

/-! ## What a commit writes -/

/-- A row and the entry of the document it comes from. -/
structure Made (registry : Registry) (question : Json) (row : QuestionRow) : Prop where
  from_doc : ∃ q payload, asDict question = some q ∧
    payloadOf q (typeOf registry q) = .ok payload ∧ slotsFrom payload = .ok row.slotKeys

theorem made_of_commit {i : ℕ} {row : QuestionRow}
    (h : commitQuestion registry (question, i) = .ok row) : Made registry question row := by
  obtain ⟨key, hkey, h⟩ := bind_eq_ok.1 h
  obtain ⟨typeKey, htypeKey, h⟩ := bind_eq_ok.1 h
  obtain ⟨q, hq, h⟩ := bind_eq_ok.1 h
  have hdict := dictMethod_eq_ok.1 hq
  have htype : getD q "type_key" .null = .str typeKey := by
    cases question with
    | obj ms =>
      cases hdict
      unfold subscript at hkey
      dsimp only at hkey
      unfold getD
      cases hget : (dictOf ms).get? "type_key" with
      | none =>
        rw [hget] at hkey
        cases hkey
      | some w =>
        rw [hget] at hkey
        cases hkey
        cases key with
        | str s =>
          cases htypeKey
          rfl
        | _ => cases htypeKey
    | _ => cases hdict
  dsimp only at h
  obtain ⟨payload, hpayload, h⟩ := bind_eq_ok.1 h
  obtain ⟨version, -, h⟩ := bind_eq_ok.1 h
  obtain ⟨slots, hslots, h⟩ := bind_eq_ok.1 h
  have htypeOf : typeOf registry q =
      (match (pyInt (getOr q "type_version" (.int 1)) : Except Raised ℤ) with
      | .ok version => registry.defs.get? (typeKey, version)
      | .error _ => none) := by
    unfold typeOf
    rw [htype]
    rfl
  refine ⟨q, payload, hdict, htypeOf ▸ hpayload, ?_⟩
  have hrow : row.slotKeys = slots := by
    split at h
    · cases h
      rfl
    · obtain ⟨key, -, h⟩ := bind_eq_ok.1 h
      cases h
      rfl
  rw [hrow]
  exact hslots

theorem forall₂_of_zipIdx {α β : Type} {R : α × ℕ → β → Prop} {S : α → β → Prop}
    (hRS : ∀ a i b, R (a, i) b → S a b) {l : List α} {k : ℕ} {bs : List β}
    (h : List.Forall₂ R (l.zipIdx k) bs) : List.Forall₂ S l bs := by
  induction l generalizing k bs with
  | nil =>
    cases h
    exact .nil
  | cons a l ih =>
    rw [List.zipIdx_cons] at h
    cases h with
    | cons hab h => exact .cons (hRS a k _ hab) (ih h)

theorem entriesOf_eq {key : String} {v : Json} {d : Obj} {es : List Json} (hd : asDict v = some d)
    (hes : elements? (getOr d key (.arr [])) = some es) : entriesOf key v = es := by
  unfold entriesOf
  rw [hd, Option.bind_some, hes]
  rfl

/-- One group: its questions, where it starts and where the next one does. -/
structure GroupMade (registry : Registry) (number : ℕ) (group : Json) (row : GroupRow)
    (next : ℕ) : Prop where
  questions : List.Forall₂ (Made registry) (entriesOf "questions" group) row.questions
  start : row.numberStart = number
  counted : ∃ counted, List.Forall₂ (fun doc n => countedSlots doc = .ok n)
    (entriesOf "questions" group) counted ∧ next = number + counted.sum

theorem groupMade_of_commit {group : Json} {i next : ℕ} {row : GroupRow}
    (h : commitGroup registry number (group, i) = .ok (row, next)) :
    GroupMade registry number group row next := by
  obtain ⟨g, hg, h⟩ := bind_eq_ok.1 h
  obtain ⟨title, -, h⟩ := bind_eq_ok.1 h
  obtain ⟨docs, hdocs, h⟩ := bind_eq_ok.1 h
  obtain ⟨questions, hquestions, h⟩ := bind_eq_ok.1 h
  obtain ⟨counted, hcounted, h⟩ := bind_eq_ok.1 h
  cases h
  have hentries : entriesOf "questions" group = docs :=
    entriesOf_eq (dictMethod_eq_ok.1 hg) (iter_eq_ok.1 hdocs)
  refine ⟨?_, rfl, counted, ?_, rfl⟩
  · rw [hentries]
    exact forall₂_of_zipIdx (fun _ _ _ => made_of_commit) (mapM_eq_ok.1 hquestions)
  · rw [hentries]
    exact mapM_eq_ok.1 hcounted

/-- The groups of a section, each where the one before it ends. -/
inductive GroupsMade (registry : Registry) : ℕ → List Json → List GroupRow → ℕ → Prop
  | nil {number : ℕ} : GroupsMade registry number [] [] number
  | cons {number next last : ℕ} {group : Json} {groups : List Json} {row : GroupRow}
      {rows : List GroupRow} (h : GroupMade registry number group row next)
      (hrest : GroupsMade registry next groups rows last) :
      GroupsMade registry number (group :: groups) (row :: rows) last

theorem groupsMade_of_commit {groups : List Json} {k last : ℕ} {rows : List GroupRow}
    (h : commitGroups registry number (groups.zipIdx k) = .ok (rows, last)) :
    GroupsMade registry number groups rows last := by
  induction groups generalizing number k rows with
  | nil =>
    cases h
    exact .nil
  | cons group groups ih =>
    rw [List.zipIdx_cons] at h
    obtain ⟨⟨row, next⟩, hrow, h⟩ := bind_eq_ok.1 h
    obtain ⟨⟨rest, last'⟩, hrest, h⟩ := bind_eq_ok.1 h
    cases h
    exact .cons (groupMade_of_commit hrow) (ih hrest)

/-- One section: its groups, its place and the count it declares. -/
structure SectionMade (registry : Registry) (number : ℕ) (sec : Json × ℕ) (row : SectionRow)
    (next : ℕ) : Prop where
  groups : GroupsMade registry number (entriesOf "groups" sec.1) row.groups next
  position : row.position = sec.2
  declared : declaredCount (entriesOf "groups" sec.1) = .ok row.declaredQuestionCount

theorem sectionMade_of_commit {sec : Json × ℕ} {next : ℕ} {row : SectionRow}
    (h : commitSection registry number sec = .ok (row, next)) :
    SectionMade registry number sec row next := by
  obtain ⟨s, hs, h⟩ := bind_eq_ok.1 h
  obtain ⟨passage, -, h⟩ := bind_eq_ok.1 h
  obtain ⟨skill, -, h⟩ := bind_eq_ok.1 h
  obtain ⟨title, -, h⟩ := bind_eq_ok.1 h
  obtain ⟨groupDocs, hdocs, h⟩ := bind_eq_ok.1 h
  obtain ⟨declared, hdeclared, h⟩ := bind_eq_ok.1 h
  obtain ⟨⟨groups, last⟩, hgroups, h⟩ := bind_eq_ok.1 h
  cases h
  have hentries : entriesOf "groups" sec.1 = groupDocs :=
    entriesOf_eq (dictMethod_eq_ok.1 hs) (iter_eq_ok.1 hdocs)
  refine ⟨?_, rfl, ?_⟩
  · rw [hentries]
    exact groupsMade_of_commit hgroups
  · rw [hentries]
    exact hdeclared

/-- The sections of a paper, the numbers running through them. -/
inductive SectionsMade (registry : Registry) : ℕ → List (Json × ℕ) → List SectionRow → Prop
  | nil {number : ℕ} : SectionsMade registry number [] []
  | cons {number next : ℕ} {sec : Json × ℕ} {secs : List (Json × ℕ)} {row : SectionRow}
      {rows : List SectionRow} (h : SectionMade registry number sec row next)
      (hrest : SectionsMade registry next secs rows) :
      SectionsMade registry number (sec :: secs) (row :: rows)

theorem sectionsMade_of_commit {secs : List (Json × ℕ)}
    (h : commitSections registry number secs = .ok rows) :
    SectionsMade registry number secs rows := by
  induction secs generalizing number rows with
  | nil =>
    cases h
    exact .nil
  | cons sec secs ih =>
    obtain ⟨⟨row, next⟩, hrow, h⟩ := bind_eq_ok.1 h
    obtain ⟨rest, hrest, h⟩ := bind_eq_ok.1 h
    cases h
    exact .cons (sectionMade_of_commit hrow) (ih hrest)

/-! ## Counts -/

variable {groups : List Json} {groupRows : List GroupRow} {secs : List (Json × ℕ)} {next : ℕ}

def slotsOf (questions : List QuestionRow) : List ℕ :=
  questions.map (fun q => q.slotKeys.length)

theorem sum_eq_length_iff {ns : List ℕ} (hpos : ∀ n ∈ ns, 1 ≤ n) :
    ns.sum = ns.length ↔ ∀ n ∈ ns, n = 1 := by
  induction ns with
  | nil => exact iff_of_true rfl (fun _ h => absurd h List.not_mem_nil)
  | cons n ns ih =>
    rw [List.forall_mem_cons] at hpos
    have hle : ns.length ≤ ns.sum := by
      have hsum := List.card_nsmul_le_sum ns 1 hpos.2
      rwa [smul_eq_mul, Nat.mul_one] at hsum
    rw [List.sum_cons, List.length_cons, List.forall_mem_cons, ← ih hpos.2]
    omega

theorem length_of_len {group : Json} {n : ℕ}
    (h : (do let g ← dictMethod group
             len (questionsIn g) : Except Raised ℕ) = .ok n) :
    (entriesOf "questions" group).length = n := by
  obtain ⟨g, hg, hlen⟩ := bind_eq_ok.1 h
  have hdict := dictMethod_eq_ok.1 hg
  have helements : ∀ v : Json, len v = .ok n → ∃ es, elements? v = some es ∧ es.length = n := by
    intro v hv
    cases v with
    | arr es =>
      cases hv
      exact ⟨_, rfl, rfl⟩
    | str s =>
      cases hv
      exact ⟨_, rfl, List.length_map _⟩
    | obj ms =>
      cases hv
      exact ⟨_, rfl, List.length_map _⟩
    | _ => cases hv
  obtain ⟨es, hes, hn⟩ := helements _ hlen
  rw [entriesOf_eq hdict hes, hn]

theorem declared_of_groups {ns : List ℕ}
    (h : GroupsMade registry number groups groupRows next)
    (hlens : List.Forall₂ (fun group n => (do let g ← dictMethod group
                                              len (questionsIn g) : Except Raised ℕ) = .ok n)
      groups ns) :
    ns.sum = (groupRows.map (fun g => g.questions.length)).sum := by
  induction h generalizing ns with
  | nil =>
    cases hlens
    rfl
  | cons h _ ih =>
    cases hlens with
    | cons hlen hlens =>
      rw [List.sum_cons, List.map_cons, List.sum_cons, ih hlens, ← length_of_len hlen,
        h.questions.length_eq]

theorem SectionMade.declared_eq {sec : Json × ℕ} {row : SectionRow}
    (h : SectionMade registry number sec row next) :
    row.declaredQuestionCount = (row.groups.map (fun g => g.questions.length)).sum := by
  obtain ⟨ns, hns, hsum⟩ := map_eq_ok.1 h.declared
  rw [← hsum]
  exact declared_of_groups h.groups (mapM_eq_ok.1 hns)

theorem count_iff {row : SectionRow}
    (hdeclared : row.declaredQuestionCount = (row.groups.map (fun g => g.questions.length)).sum)
    (hpos : ∀ g ∈ row.groups, ∀ q ∈ g.questions, 1 ≤ q.slotKeys.length) :
    ((rowShape row).groups.map count).sum = row.declaredQuestionCount ↔
      ∀ g ∈ row.groups, ∀ q ∈ g.questions, q.slotKeys.length = 1 := by
  have hall := @sum_eq_length_iff (row.groups.flatMap (fun g => slotsOf g.questions)) (by
    intro n hn
    obtain ⟨g, hg, hn⟩ := List.mem_flatMap.1 hn
    obtain ⟨q, hq, rfl⟩ := List.mem_map.1 hn
    exact hpos g hg q hq)
  have hsum : (row.groups.flatMap (fun g => slotsOf g.questions)).sum =
      ((rowShape row).groups.map count).sum := by
    rw [List.flatMap_def, List.sum_flatten]
    unfold rowShape
    rw [List.map_map, List.map_map]
    refine congrArg List.sum (List.map_congr_left (fun g _ => ?_))
    unfold slotsOf count
    dsimp only [Function.comp_apply]
    rw [List.map_map]
    rfl
  have hlength : (row.groups.flatMap (fun g => slotsOf g.questions)).length =
      row.declaredQuestionCount := by
    rw [List.length_flatMap, hdeclared]
    refine congrArg List.sum (List.map_congr_left (fun g _ => ?_))
    exact List.length_map _
  rw [hsum, hlength] at hall
  rw [hall]
  constructor
  · intro h g hg q hq
    exact h _ (List.mem_flatMap.2 ⟨g, hg, List.mem_map_of_mem hq⟩)
  · intro h n hn
    obtain ⟨g, hg, hn⟩ := List.mem_flatMap.1 hn
    obtain ⟨q, hq, rfl⟩ := List.mem_map.1 hn
    exact h g hg q hq

/-! ## Numbers -/

theorem counted_sum {docs : List Json} {questions : List QuestionRow} {ns : List ℕ}
    (hmade : List.Forall₂ (Made registry) docs questions)
    (hcounted : List.Forall₂ (fun doc n => countedSlots doc = .ok n) docs ns)
    (hone : ∀ q ∈ questions, q.slotKeys.length = 1) : ns.sum = (slotsOf questions).sum := by
  induction hmade generalizing ns with
  | nil =>
    cases hcounted
    rfl
  | cons h _ ih =>
    rw [List.forall_mem_cons] at hone
    cases hcounted with
    | cons hn hcounted =>
      obtain ⟨q, payload, hq, hpayload, hslots⟩ := h.from_doc
      unfold slotsOf
      rw [List.sum_cons, List.map_cons, List.sum_cons, hone.1,
        counted_of_single hpayload hslots hone.1 hq hn, ih hcounted hone.2]
      rfl

def groupShape (g : GroupRow) : ℤ × List (List String) :=
  (g.numberStart, g.questions.map QuestionRow.slotKeys)

theorem GroupMade.next_eq {group : Json} {row : GroupRow}
    (h : GroupMade registry number group row next)
    (hone : ∀ q ∈ row.questions, q.slotKeys.length = 1) :
    next = number + count (groupShape row) := by
  obtain ⟨ns, hns, rfl⟩ := h.counted
  have hslots : (slotsOf row.questions).sum = count (groupShape row) := by
    unfold count groupShape slotsOf
    rw [List.map_map]
    rfl
  rw [counted_sum h.questions hns hone, hslots]

theorem runs_groups (h : GroupsMade registry number groups groupRows next)
    (hone : ∀ g ∈ groupRows, ∀ q ∈ g.questions, q.slotKeys.length = 1)
    {rest : List (ℤ × List (List String))} (hrest : Runs next rest) :
    Runs number (groupRows.map groupShape ++ rest) := by
  induction h with
  | nil => exact hrest
  | @cons number next last group groups row rows h _ ih =>
    rw [List.forall_mem_cons] at hone
    have hstart : (groupShape row).1 = (number : ℤ) := congrArg Nat.cast h.start
    have hnext : max (number : ℤ) (groupShape row).1 + count (groupShape row) = (next : ℤ) := by
      rw [hstart, max_self, h.next_eq hone.1]
      push_cast
      rfl
    refine ⟨hstart, ?_⟩
    rw [hnext]
    exact ih hone.2 hrest

theorem runs_sections (h : SectionsMade registry number secs rows) (hone : OneSlotEach rows) :
    Runs number (rows.flatMap (fun s => (rowShape s).groups)) := by
  induction h with
  | nil => exact trivial
  | cons h _ ih =>
    unfold OneSlotEach at hone
    rw [List.forall_mem_cons] at hone
    rw [List.flatMap_cons]
    exact runs_groups h.groups hone.1 (ih hone.2)

theorem positions_of_sections {docs : List Json} {k : ℕ}
    (h : SectionsMade registry number (docs.zipIdx k) rows) :
    rows.map SectionRow.position = List.range' k rows.length := by
  induction docs generalizing number k rows with
  | nil =>
    cases h
    rfl
  | cons doc docs ih =>
    rw [List.zipIdx_cons] at h
    cases h with
    | cons h hrest =>
      rw [List.map_cons, List.length_cons, List.range'_succ, h.position, ih hrest]

/-! ## Entries of the document -/

theorem made_groups (h : GroupsMade registry number groups groupRows next) :
    List.Forall₂ (Made registry) (groups.flatMap (entriesOf "questions"))
      (groupRows.flatMap GroupRow.questions) := by
  induction h with
  | nil => exact .nil
  | cons h _ ih =>
    rw [List.flatMap_cons, List.flatMap_cons]
    exact List.rel_append h.questions ih

theorem made_sections (h : SectionsMade registry number secs rows) :
    List.Forall₂ (Made registry)
      (((secs.map Prod.fst).flatMap (entriesOf "groups")).flatMap (entriesOf "questions"))
      (rows.flatMap (fun s => s.groups.flatMap GroupRow.questions)) := by
  induction h with
  | nil => exact .nil
  | cons h _ ih =>
    rw [List.map_cons, List.flatMap_cons, List.flatMap_append, List.flatMap_cons]
    exact List.rel_append (made_groups h.groups) ih

theorem made_single {docs : List Json} {questions : List QuestionRow}
    (h : List.Forall₂ (Made registry) docs questions) :
    (∀ q ∈ questions, q.slotKeys.length = 1) ↔
      ∀ question ∈ docs, ∀ q, asDict question = some q → OneBlank (typeOf registry q) q := by
  induction h with
  | nil => simp
  | cons h _ ih =>
    rw [List.forall_mem_cons, List.forall_mem_cons, ih]
    refine and_congr_left (fun _ => ?_)
    obtain ⟨q, payload, hq, hpayload, hslots⟩ := h.from_doc
    rw [slotsFrom_length_iff hslots, single_iff hpayload]
    constructor
    · intro hone q' hq'
      rw [hq] at hq'
      cases hq'
      exact hone
    · intro hall
      exact hall q hq

theorem oneSlotEach_iff (h : commit canonical registry = .ok rows) :
    OneSlotEach rows ↔ SingleBlanks registry canonical := by
  obtain ⟨docs, hdocs, hcommit⟩ := bind_eq_ok.1 h
  have hmade := made_sections (sectionsMade_of_commit hcommit)
  have hentries : entriesOf "sections" (.obj canonical.entries) = docs := by
    refine entriesOf_eq (d := canonical) ?_ (iter_eq_ok.1 hdocs)
    exact congrArg some (Dict.ofList_entries canonical)
  have hfst : (docs.zipIdx 1).map Prod.fst = docs := List.zipIdx_map_fst 1 docs
  rw [hfst] at hmade
  unfold SingleBlanks questionDocs
  rw [hentries, ← made_single hmade]
  unfold OneSlotEach
  constructor
  · intro hone q hq
    obtain ⟨s, hs, hq⟩ := List.mem_flatMap.1 hq
    obtain ⟨g, hg, hq⟩ := List.mem_flatMap.1 hq
    exact hone s hs g hg q hq
  · intro hone s hs g hg q hq
    exact hone q (List.mem_flatMap.2 ⟨s, hs, List.mem_flatMap.2 ⟨g, hg, hq⟩⟩)

theorem exists_of_forall₂ {α β : Type} {R : α → β → Prop} {as : List α} {bs : List β}
    (h : List.Forall₂ R as bs) {b : β} (hb : b ∈ bs) : ∃ a, R a b := by
  induction h with
  | nil => exact absurd hb List.not_mem_nil
  | cons hab _ ih =>
    obtain rfl | hb := List.mem_cons.1 hb
    · exact ⟨_, hab⟩
    · exact ih hb

theorem slots_pos (h : SectionsMade registry number secs rows) :
    ∀ s ∈ rows, ∀ g ∈ s.groups, ∀ q ∈ g.questions, 1 ≤ q.slotKeys.length := by
  have hmade := made_sections h
  intro s hs g hg q hq
  have hmem : q ∈ rows.flatMap (fun s => s.groups.flatMap GroupRow.questions) :=
    List.mem_flatMap.2 ⟨s, hs, List.mem_flatMap.2 ⟨g, hg, hq⟩⟩
  obtain ⟨doc, hdoc⟩ := exists_of_forall₂ hmade hmem
  obtain ⟨_, _, _, _, hslots⟩ := hdoc.from_doc
  exact one_le_slots hslots

theorem declared_of_sections (h : SectionsMade registry number secs rows) :
    ∀ s ∈ rows, s.declaredQuestionCount = (s.groups.map (fun g => g.questions.length)).sum := by
  induction h with
  | nil => exact fun _ hs => absurd hs List.not_mem_nil
  | cons h _ ih => exact List.forall_mem_cons.2 ⟨h.declared_eq, ih⟩

/-- The gate has nothing to say about an import's numbers exactly when every question has one
blank. -/
theorem import_agrees_iff (h : commit canonical registry = .ok rows) (hc : Composed rows c) :
    Agrees c ↔ SingleBlanks registry canonical := by
  rw [← oneSlotEach_iff h]
  obtain ⟨docs, hdocs, hcommit⟩ := bind_eq_ok.1 h
  have hmade := sectionsMade_of_commit hcommit
  have hdeclared := declared_of_sections hmade
  have hpos := slots_pos hmade
  constructor
  · intro hagrees s hs
    have hcounts := (counts_iff hc).1 hagrees.counts s hs
    exact (count_iff (hdeclared s hs) (hpos s hs)).1 hcounts
  · intro hone
    refine ⟨(positions_iff hc).2 ?_, (numbering_iff hc).2 (runs_sections hmade hone),
      (counts_iff hc).2 (fun s hs => (count_iff (hdeclared s hs) (hpos s hs)).2 (hone s hs))⟩
    have hpositions := congrArg (List.map (fun n : ℕ => (n : ℤ))) (positions_of_sections hmade)
    rw [List.map_map] at hpositions
    refine hpositions.trans ?_
    rw [List.range'_eq_map_range, List.map_map]
    refine List.map_congr_left (fun i _ => ?_)
    change ((1 + i : ℕ) : ℤ) = (i : ℤ) + 1
    omega

end

/-! ## A gap fill with two blanks -/

def completionType : QuestionTypeDef where
  key := "sentence_completion"
  version := 1
  title := "Sentence completion"
  skills := ["reading", "listening"]
  payloadSchema := .obj [("properties", .obj [("text", .obj []), ("slots", .obj [])])]
  scoring := { primitive := .textPerSlot, options := Dict.empty, normalizers := [] }

def completionRegistry : Registry := ⟨Dict.empty.put ("sentence_completion", 1) completionType⟩

def lineDoc (text : String) (accept : List String) : Obj :=
  Dict.ofList [("canonical_version", .int 1), ("title", .str "Mock 1"),
    ("sections", .arr [.obj [("skill", .str "reading"),
      ("groups", .arr [.obj [("questions", .arr [.obj [
        ("type_key", .str "sentence_completion"), ("text", .str text),
        ("accept", .arr (accept.map .str))]])]])]])]

def linePaper (text : String) (slotKeys : List String) : TestComposition where
  xid := "t1"
  title := "Mock 1"
  sections := [{
    position := 1, skill := "reading", title := "Section 1", declaredQuestionCount := some 1
    groups := [{
      xid := "g1", numberStart := 1
      questions := [{
        xid := "q1", typeKey := "sentence_completion", typeVersion := 1, slotKeys
        payload := Dict.ofList [("text", .str text), ("slots", .arr [.str "s1"])] }] }] }]
  coherent := by
    intro p hp p' hp' _
    simp only [questionsOf, List.flatMap_cons, List.flatMap_nil, List.append_nil, List.map_cons,
      List.map_nil, List.mem_singleton] at hp hp'
    rw [hp, hp']

def twoBlanks : String := "In \x7b\x7bs1\x7d\x7d by \x7b\x7bs2\x7d\x7d."

def oneBlank : String := "In \x7b\x7bs1\x7d\x7d."

def committed (doc : Obj) : List SectionRow := (commit doc completionRegistry).toOption.getD []

theorem commit_eq {doc : Obj} (h : (commit doc completionRegistry).toOption.isSome = true) :
    commit doc completionRegistry = .ok (committed doc) := by
  unfold committed
  cases hcommit : commit doc completionRegistry with
  | ok rows => rfl
  | error e =>
    rw [hcommit] at h
    cases h

/-- A valid file, and the gate refuses the count the importer wrote. -/
theorem two_blanks_miscounted :
    (validate (lineDoc twoBlanks ["June", "train"]) completionRegistry []).toOption.map
      (fun r => r.report.passed) = some true ∧
    commit (lineDoc twoBlanks ["June", "train"]) completionRegistry =
      .ok (committed (lineDoc twoBlanks ["June", "train"])) ∧
    Composed (committed (lineDoc twoBlanks ["June", "train"])) (linePaper twoBlanks ["s1", "s2"]) ∧
    ¬ Agrees (linePaper twoBlanks ["s1", "s2"]) := by
  refine ⟨by decide +kernel, commit_eq (by decide +kernel), ?_, fun h => ?_⟩
  · unfold Composed
    decide +kernel
  have hcount := h.counts _ List.mem_cons_self "sections[1]"
  exact absurd hcount (by decide +kernel)

theorem one_blank_agrees :
    Agrees (linePaper oneBlank ["s1"]) ↔
      SingleBlanks completionRegistry (lineDoc oneBlank ["June"]) :=
  import_agrees_iff (@commit_eq (lineDoc oneBlank ["June"]) (by decide +kernel))
    (show List.map _ _ = List.map _ _ by decide +kernel)

end IeltsHub.ImportCounts
