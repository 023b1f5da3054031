import IeltsHub.PublishGatePasses
import IeltsHub.ImportTotality

set_option autoImplicit false

/-!
# What the gate takes stored JSON for

The checks of a question run on after a schema finding. `LegibleQuestion` is what they take the
content, the key and the group for, and the gate returns exactly on compositions that are legible.
-/
namespace IeltsHub.GateShapes
open PyExc PyText PyValue PyDict PlatformErrors PlatformFindings QtypesSchemas QtypesRegistry
  ContentComposition ContentPublishGate
open ImportTotality (Each Object returns_object each_of_elements object_of_dictMethod forall_zipIdx)

/-! ## What the checks take the JSON for -/

/-- `int` reads it. -/
def Integral (v : Json) : Prop := Returns (pyInt v : Except Raised ℤ)

/-- `float` reads it. -/
def Floating (v : Json) : Prop := Returns (pyFloat v)

def BandRow (row : Json) : Prop :=
  Object (fun d => ∃ lo hi, d.get? "raw_min" = some lo ∧ Integral lo ∧
    d.get? "raw_max" = some hi ∧ Integral hi) row

/-- `o["id"]` is there. -/
def HasId (o : Json) : Prop := Object (fun d => (d.get? "id").isSome = true) o

def Text (v : Json) : Prop := ∃ s, v = .str s

def Slots (P : Obj → Prop) (q : QuestionNode) : Prop :=
  Object (fun slots => ∀ e ∈ slots.entries, Object P e.2) (slotsValue q)

/-- A loop over `accept` meets something. -/
def Iterable (spec : Obj) : Prop := Each (fun _ => True) (getD spec "accept" (.arr []))

/-- `spec["accept"][0]`, unless there is nothing in it. -/
def Headed (spec : Obj) : Prop :=
  truthy (getD spec "accept" .null) = true →
    (∃ es, getD spec "accept" .null = .arr es) ∨ Text (getD spec "accept" .null)

def WalksTo (name : String) : List Json → Prop
  | [] => True
  | r :: rs => Object (fun rule => getD rule "rule" .null ≠ .str name → WalksTo name rs) r

def FirstRule (name : String) (P : Obj → Prop) : List Json → Prop
  | [] => True
  | r :: rs => ∀ rule, asDict r = some rule →
    if getD rule "rule" .null = .str name then P rule else FirstRule name P rs

def Rules (P : List Json → Prop) (d : QuestionTypeDef) : Prop :=
  Object (fun validation =>
    ∃ rules, elements? (getD validation "rules" (.arr [])) = some rules ∧ P rules) d.validation

def source (d : QuestionTypeDef) : Json := getD d.scoring.options "option_source" .null

def payloadOptions (q : QuestionNode) : Json := getOr q.payload "options" (.arr [])

def fixedOptions (d : QuestionTypeDef) : Json := getD d.scoring.options "fixed_options" (.arr [])

def OffsetLegible (d : QuestionTypeDef) : Prop :=
  Rules (fun rules => WalksTo "option_bank_at_least" rules ∧
    FirstRule "option_bank_at_least" (fun rule => Integral (getD rule "offset" (.int 1))) rules) d

structure OptionsLegible (q : QuestionNode) (g : GroupNode) (d : QuestionTypeDef) : Prop where
  bank : source d = .str "group.option_bank" →
    (∀ o ∈ g.optionBank, HasId o) ∧ (g.optionBank ≠ [] → OffsetLegible d)
  payload : source d = .str "payload.options" → Each HasId (payloadOptions q)
  fixed : source d = .str "fixed" → Each HasId (fixedOptions d)

def HasOptions (q : QuestionNode) (g : GroupNode) (s : SectionNode) (d : QuestionTypeDef) : Prop :=
  (source d = .str "group.option_bank" ∧ g.optionBank ≠ []) ∨
  (source d = .str "payload.options" ∧ elements? (payloadOptions q) ≠ some []) ∨
  (source d = .str "fixed" ∧ elements? (fixedOptions d) ≠ some []) ∨
  (source d = .str "section.passage_version.paragraph_labels" ∧
    (s.passage.map PassageRef.paragraphLabels).getD [] ≠ [])

structure SlotKeyLegible (q : QuestionNode) (g : GroupNode) (s : SectionNode)
    (d : QuestionTypeDef) : Prop where
  names : Each Text (slotsValue q)
  options : OptionsLegible q g d
  answers : HasOptions q g s d → Slots Iterable q
  first : getD d.scoring.options "unique_options" .null = .bool true → Slots Headed q

structure WordLimitsLegible (q : QuestionNode) (g : GroupNode) (d : QuestionTypeDef) : Prop where
  group : WordLimit.Legible g.wordLimit
  without : truthy g.wordLimit = false → Rules (WalksTo "word_limit_present_on_group") d
  own : truthy g.wordLimit = true → Slots (fun spec =>
    WordLimit.Legible (getD spec "word_limit" .null) ∧ Iterable spec) q

structure SelectionLegible (q : QuestionNode) : Prop where
  correct : Each (fun _ => True) (getD (q.key.getD Dict.empty) "correct" (.arr []))
  asked : elements? (getD (q.key.getD Dict.empty) "correct" (.arr [])) ≠ some [] →
    (getD q.payload "select_count" .null ≠ .null → Integral (getD q.payload "select_count" .null)) ∧
    Each HasId (payloadOptions q)

def ruleName (r : Json) : Json := (asDict r).elim .null (fun rule => getD rule "rule" .null)

def Hotspot (h : Json) : Prop :=
  Object (fun d => Floating (getD d "x" (.int (-1))) ∧ Floating (getD d "y" (.int (-1)))) h

def Pictured (g : GroupNode) (rules : List Json) : Prop :=
  .str "group_has_diagram_media" ∈ rules.map ruleName ∧ g.diagramMedia.isSome = true

def DiagramLegible (g : GroupNode) (d : QuestionTypeDef) : Prop :=
  Rules (fun rules =>
    (∀ r ∈ rules, Object (fun rule => hashable (getD rule "rule" .null) = true) r) ∧
    (Pictured g rules → (∀ h ∈ g.hotspots, Hotspot h) ∧
      (.str "hotspots_cover_option_bank" ∈ rules.map ruleName → ∀ o ∈ g.optionBank, HasId o))) d

structure LegibleQuestion (s : SectionNode) (g : GroupNode) (q : QuestionNode)
    (d : QuestionTypeDef) : Prop where
  selection : d.scoring.primitive = .setSelection → SelectionLegible q
  slots : d.scoring.primitive ≠ .setSelection → SlotKeyLegible q g s d
  limits : d.scoring.primitive = .textPerSlot → WordLimitsLegible q g d
  diagram : DiagramLegible g d

structure Legible (registry : Registry) (c : TestComposition) : Prop where
  bandMap : ∀ b, c.bandMap = some b → ∀ row ∈ b.mapping, BandRow row
  questions : ∀ p ∈ c.questions, ∀ d,
    registry.defs.get? (p.2.2.typeKey, p.2.2.typeVersion) = some d → p.2.2.key.isSome = true →
    LegibleQuestion p.1 p.2.1 p.2.2 d

/-! ## One check after another -/

variable {q : QuestionNode} {g : GroupNode} {s : SectionNode} {d : QuestionTypeDef}
  {registry : Registry} {validator : Validator} {c : TestComposition} {path : String}
  {α β γ : Type}

theorem returns_and {x : Except Raised α} {y : Except Raised β} {f : α → β → γ} :
    Returns (x >>= fun a => y >>= fun b => (.ok (f a b) : Except Raised γ)) ↔
      Returns x ∧ Returns y := by
  simp only [returns_bind]
  constructor
  · rintro ⟨a, ha, b, hb, _⟩
    exact ⟨⟨a, ha⟩, b, hb⟩
  · rintro ⟨⟨a, ha⟩, b, hb⟩
    exact ⟨a, ha, b, hb, returns_ok _⟩

theorem returns_then {x : Except Raised α} {f : α → β} :
    Returns (x >>= fun a => (.ok (f a) : Except Raised β)) ↔ Returns x := by
  rw [returns_bind]
  exact exists_congr (fun a => and_iff_left (returns_ok _))

theorem returns_subscript (v : Json) (key : String) :
    Returns (subscript v key : Except Raised Json) ↔
      Object (fun d => (d.get? key).isSome = true) v := by
  unfold Returns Object
  simp only [subscript_eq_ok, Option.isSome_iff_exists]
  constructor
  · rintro ⟨w, d, hd, hw⟩
    exact ⟨d, hd, w, hw⟩
  · rintro ⟨d, hd, w, hw⟩
    exact ⟨w, d, hd, hw⟩

theorem returns_coveredRange (row : Json) : Returns (coveredRange row) ↔ BandRow row := by
  unfold coveredRange BandRow Object Integral
  simp only [returns_bind, subscript_eq_ok]
  constructor
  · rintro ⟨lo, ⟨d, hd, hlo⟩, n, hn, hi, ⟨d', hd', hhi⟩, m, hm, _⟩
    rw [hd] at hd'
    cases hd'
    exact ⟨d, hd, lo, hi, hlo, ⟨n, hn⟩, hhi, m, hm⟩
  · rintro ⟨d, hd, lo, hi, hlo, ⟨n, hn⟩, hhi, m, hm⟩
    exact ⟨lo, ⟨d, hd, hlo⟩, n, hn, hi, ⟨d, hd, hhi⟩, m, hm, returns_pure _⟩

theorem returns_checkBandMap (c : TestComposition) :
    Returns (checkBandMap c) ↔ ∀ b, c.bandMap = some b → ∀ row ∈ b.mapping, BandRow row := by
  unfold checkBandMap
  cases c.bandMap with
  | none => simp
  | some b =>
    have hrows : Returns (b.mapping.mapM coveredRange) ↔ ∀ row ∈ b.mapping, BandRow row := by
      rw [returns_mapM]
      exact forall₂_congr (fun row _ => returns_coveredRange row)
    simp only [Option.some.injEq, forall_eq']
    rw [← hrows]
    exact returns_then

theorem returns_optionIds (listed : List Json) :
    Returns (optionIds listed) ↔ ∀ o ∈ listed, HasId o := by
  unfold optionIds
  rw [returns_mapM]
  exact forall₂_congr (fun o _ => returns_map.trans (returns_subscript o "id"))

theorem returns_listedIds (v : Json) :
    Returns (iter v >>= fun listed => optionIds listed) ↔ Each HasId v := by
  rw [returns_bind]
  unfold Each
  exact exists_congr (fun es => and_congr iter_eq_ok (returns_optionIds es))

/-! ### The rules of a type -/

theorem returns_findRule (name : String) (rules : List Json) :
    Returns (findRule name rules) ↔ WalksTo name rules := by
  induction rules with
  | nil => exact iff_of_true (returns_ok _) trivial
  | cons r rs ih =>
    unfold findRule WalksTo
    refine returns_object (fun rule => ?_) r
    split
    · next heq => exact iff_of_true (returns_pure _) (fun hne => absurd heq hne)
    · next hne => exact ih.trans ⟨fun h _ => h, fun h => h hne⟩

theorem findRule_first {name : String} {rules : List Json} {found : Option Obj}
    (h : findRule name rules = .ok found) (P : Obj → Prop) :
    FirstRule name P rules ↔ ∀ rule, found = some rule → P rule := by
  induction rules with
  | nil =>
    cases h
    exact iff_of_true trivial (fun _ hnone => by cases hnone)
  | cons r rs ih =>
    unfold findRule at h
    obtain ⟨rule, hrule, h⟩ := bind_eq_ok.1 h
    have hrule := dictMethod_eq_ok.1 hrule
    unfold FirstRule
    rw [hrule]
    simp only [Option.some.injEq, forall_eq']
    split at h
    · next heq =>
      cases h
      rw [if_pos heq]
      simp
    · next hne =>
      rw [if_neg hne]
      exact ih h

theorem rulesOf_eq_ok {rules : List Json} :
    rulesOf d = .ok rules ↔ ∃ validation, asDict d.validation = some validation ∧
      elements? (getD validation "rules" (.arr [])) = some rules := by
  unfold rulesOf
  simp only [bind_eq_ok, dictMethod_eq_ok, iter_eq_ok]

theorem returns_rules {f : List Json → Except Raised β} {P : List Json → Prop}
    (hf : ∀ rules, Returns (f rules) ↔ P rules) : Returns (rulesOf d >>= f) ↔ Rules P d := by
  rw [returns_bind]
  simp only [rulesOf_eq_ok, hf, Rules, Object]
  constructor
  · rintro ⟨rules, ⟨validation, hd, hrules⟩, h⟩
    exact ⟨validation, hd, rules, hrules, h⟩
  · rintro ⟨validation, hd, rules, hrules, h⟩
    exact ⟨rules, ⟨validation, hd, hrules⟩, h⟩

theorem returns_bankOffset (d : QuestionTypeDef) :
    Returns (bankOffset d) ↔ OffsetLegible d := by
  unfold bankOffset
  refine returns_rules (fun rules => ?_)
  rw [← returns_findRule, returns_bind]
  constructor
  · rintro ⟨found, hfound, h⟩
    refine ⟨⟨found, hfound⟩, (findRule_first hfound _).2 (fun rule hrule => ?_)⟩
    subst hrule
    exact returns_map.1 h
  · rintro ⟨⟨found, hfound⟩, h⟩
    refine ⟨found, hfound, ?_⟩
    have h := (findRule_first hfound _).1 h
    cases found with
    | none => exact returns_pure _
    | some rule => exact returns_map.2 (h rule rfl)

/-! ### The answers of a key -/

theorem returns_keySlotFindings (q : QuestionNode) (path : String) :
    Returns (keySlotFindings q path) ↔ Each Text (slotsValue q) := by
  have htexts : ∀ es : List Json, Returns (asTexts es) ↔ ∀ e ∈ es, Text e := by
    intro es
    unfold asTexts
    rw [returns_mapM]
    refine forall₂_congr (fun e _ => ?_)
    cases e with
    | str t => exact iff_of_true (returns_ok _) ⟨t, rfl⟩
    | _ =>
      refine iff_of_false (returns_error _) ?_
      rintro ⟨t, ht⟩
      cases ht
  have hset : Returns (keySlotSet q) ↔ Each Text (slotsValue q) := by
    unfold keySlotSet
    rw [returns_bind]
    unfold Each
    exact exists_congr (fun es => and_congr iter_eq_ok (htexts es))
  rw [← hset]
  exact returns_then

theorem returns_slotEntries {f : String × Json → Except Raised β} {P : Obj → Prop}
    (hf : ∀ slot, Returns (f slot) ↔ Object P slot.2) :
    Returns (slotEntries q >>= fun entries => entries.mapM f) ↔ Slots P q := by
  unfold slotEntries Slots Object
  rw [returns_bind]
  simp only [map_eq_ok, dictMethod_eq_ok, returns_mapM, hf]
  constructor
  · rintro ⟨entries, ⟨slots, hslots, rfl⟩, h⟩
    exact ⟨slots, hslots, h⟩
  · rintro ⟨slots, hslots, h⟩
    exact ⟨slots.entries, ⟨slots, hslots, rfl⟩, h⟩

theorem returns_flatten {f : String × Json → Except Raised Report} {P : Obj → Prop}
    (hf : ∀ slot, Returns (f slot) ↔ Object P slot.2) :
    Returns (slotEntries q >>= fun entries => entries.mapM f >>= fun rs =>
      (.ok rs.flatten : Except Raised Report)) ↔ Slots P q := by
  rw [← returns_slotEntries hf, ← bind_assoc]
  exact returns_then

theorem returns_acceptedValues (spec : Json) :
    Returns (acceptedValues spec) ↔ Object Iterable spec := by
  unfold acceptedValues
  refine returns_object (fun d => ?_) spec
  rw [returns_iter]
  exact exists_congr (fun es => (and_iff_left (fun _ _ => trivial)).symm)

theorem returns_unknownOptionFindings {valid : List String} :
    Returns (unknownOptionFindings q valid path) ↔ (valid ≠ [] → Slots Iterable q) := by
  unfold unknownOptionFindings
  split
  · next hempty =>
    exact iff_of_true (returns_ok _) (fun hne => absurd (List.isEmpty_iff.1 hempty) hne)
  · next hempty =>
    have hne : valid ≠ [] := fun hnil => hempty (List.isEmpty_iff.2 hnil)
    rw [forall_prop_of_true hne]
    exact returns_flatten (fun slot => returns_map.trans (returns_acceptedValues slot.2))

theorem returns_firstAccepted (spec : Json) :
    Returns (firstAccepted spec) ↔ Object Headed spec := by
  unfold firstAccepted
  refine returns_object (fun d => ?_) spec
  unfold Headed Text
  dsimp only
  generalize getD d "accept" .null = accept
  split
  · next htrue =>
    rw [forall_prop_of_true htrue]
    cases accept with
    | arr es =>
      cases es with
      | nil => cases htrue
      | cons e es => exact iff_of_true (returns_pure _) (.inl ⟨_, rfl⟩)
    | str t => exact iff_of_true (returns_pure _) (.inr ⟨t, rfl⟩)
    | _ =>
      refine iff_of_false (returns_throw _) ?_
      rintro (⟨es, hes⟩ | ⟨t, ht⟩)
      · cases hes
      · cases ht
  · next hfalse => exact iff_of_true (returns_pure _) (fun htrue => absurd htrue hfalse)

theorem returns_reusedFindings :
    Returns (reusedFindings q d path) ↔
      (getD d.scoring.options "unique_options" .null = .bool true → Slots Headed q) := by
  unfold reusedFindings
  split
  · next hunique =>
    rw [forall_prop_of_true hunique,
      ← returns_slotEntries (fun slot => returns_firstAccepted slot.2), ← bind_assoc]
    exact returns_then
  · next hunique => exact iff_of_true (returns_ok _) (fun h => absurd h hunique)

/-! ### The options -/

theorem returns_bankFindings {valid : List String} :
    Returns (bankFindings g d valid path) ↔ (valid ≠ [] → OffsetLegible d) := by
  unfold bankFindings
  split
  · next hempty =>
    exact iff_of_true (returns_ok _) (fun hne => absurd (List.isEmpty_iff.1 hempty) hne)
  · next hempty =>
    have hne : valid ≠ [] := fun hnil => hempty (List.isEmpty_iff.2 hnil)
    rw [forall_prop_of_true hne, ← returns_bankOffset, returns_bind]
    refine exists_congr (fun offset => and_iff_left ?_)
    cases offset with
    | none => exact returns_pure _
    | some n => exact returns_pure _

theorem optionIds_eq_nil {listed : List Json} {valid : List String}
    (h : optionIds listed = .ok valid) : valid = [] ↔ listed = [] := by
  have hlength := mapM_length h
  constructor
  · rintro rfl
    exact List.length_eq_zero_iff.1 hlength.symm
  · rintro rfl
    exact List.length_eq_zero_iff.1 hlength

theorem optionIds_listed {v : Json} {valid : List String}
    (h : (iter v >>= fun listed => optionIds listed) = .ok valid) :
    valid ≠ [] ↔ elements? v ≠ some [] := by
  obtain ⟨listed, hlisted, hvalid⟩ := bind_eq_ok.1 h
  rw [iter_eq_ok.1 hlisted, ne_eq, ne_eq, optionIds_eq_nil hvalid, Option.some.injEq]

theorem returns_gateOptions :
    Returns (gateOptions q g s d path) ↔ OptionsLegible q g d := by
  unfold gateOptions
  dsimp only
  change Returns (if source d = _ then _ else if source d = _ then _ else if source d = _ then _
    else if source d = _ then _ else _) ↔ _
  split
  · next hbank =>
    have hlegible : OptionsLegible q g d ↔
        (∀ o ∈ g.optionBank, HasId o) ∧ (g.optionBank ≠ [] → OffsetLegible d) := by
      constructor
      · exact fun h => h.bank hbank
      · refine fun h => ⟨fun _ => h, fun hother => ?_, fun hother => ?_⟩ <;>
          exact absurd (hbank.symm.trans hother) (by decide)
    rw [hlegible, ← returns_optionIds, returns_bind]
    constructor
    · rintro ⟨valid, hvalid, h⟩
      obtain ⟨bank, hbank, _⟩ := returns_bind.1 h
      refine ⟨⟨valid, hvalid⟩, fun hne => returns_bankFindings.1 ⟨bank, hbank⟩ ?_⟩
      exact mt (optionIds_eq_nil hvalid).1 hne
    · rintro ⟨⟨valid, hvalid⟩, h⟩
      refine ⟨valid, hvalid, returns_then.2 (returns_bankFindings.2 (fun hne => h ?_))⟩
      exact mt (optionIds_eq_nil hvalid).2 hne
  · next hbank =>
    split
    · next hpayload =>
      have hlegible : OptionsLegible q g d ↔ Each HasId (payloadOptions q) := by
        constructor
        · exact fun h => h.payload hpayload
        · refine fun h => ⟨fun hother => absurd hother hbank, fun _ => h, fun hother => ?_⟩
          exact absurd (hpayload.symm.trans hother) (by decide)
      rw [hlegible, ← returns_listedIds]
      exact (by rw [← bind_assoc]; exact returns_then)
    · next hpayload =>
      split
      · next hfixed =>
        have hlegible : OptionsLegible q g d ↔ Each HasId (fixedOptions d) := by
          constructor
          · exact fun h => h.fixed hfixed
          · exact fun h => ⟨fun hother => absurd hother hbank,
              fun hother => absurd hother hpayload, fun _ => h⟩
        rw [hlegible, ← returns_listedIds]
        exact (by rw [← bind_assoc]; exact returns_then)
      · next hfixed =>
        have hlegible : OptionsLegible q g d := ⟨fun h => absurd h hbank,
          fun h => absurd h hpayload, fun h => absurd h hfixed⟩
        split
        · exact iff_of_true (returns_ok _) hlegible
        · exact iff_of_true (returns_ok _) hlegible

theorem hasOptions_of_source {name : String} (h : source d = .str name) :
    HasOptions q g s d ↔ (name = "group.option_bank" ∧ g.optionBank ≠ []) ∨
      (name = "payload.options" ∧ elements? (payloadOptions q) ≠ some []) ∨
      (name = "fixed" ∧ elements? (fixedOptions d) ≠ some []) ∨
      (name = "section.passage_version.paragraph_labels" ∧
        (s.passage.map PassageRef.paragraphLabels).getD [] ≠ []) := by
  unfold HasOptions
  rw [h]
  simp only [Json.str.injEq]

theorem gateOptions_ne_nil {valid : List String} {bank : Report}
    (h : gateOptions q g s d path = .ok (valid, bank)) : valid ≠ [] ↔ HasOptions q g s d := by
  unfold gateOptions at h
  dsimp only at h
  change (if source d = _ then _ else if source d = _ then _ else if source d = _ then _
    else if source d = _ then _ else _) = _ at h
  split at h
  · next hsource =>
    obtain ⟨ids, hids, h⟩ := bind_eq_ok.1 h
    obtain ⟨found, _, h⟩ := bind_eq_ok.1 h
    cases h
    rw [hasOptions_of_source hsource, ne_eq, optionIds_eq_nil hids]
    simp
  · next hbank =>
    split at h
    · next hsource =>
      rw [← bind_assoc] at h
      obtain ⟨ids, hids, h⟩ := bind_eq_ok.1 h
      cases h
      rw [hasOptions_of_source hsource, optionIds_listed hids]
      simp [payloadOptions]
    · next hpayload =>
      split at h
      · next hsource =>
        rw [← bind_assoc] at h
        obtain ⟨ids, hids, h⟩ := bind_eq_ok.1 h
        cases h
        rw [hasOptions_of_source hsource, optionIds_listed hids]
        simp [fixedOptions]
      · next hfixed =>
        split at h
        · next hsource =>
          cases h
          rw [hasOptions_of_source hsource]
          simp
        · next hparagraph =>
          cases h
          refine iff_of_false (fun hne => hne rfl) ?_
          rintro (h | h | h | h)
          · exact hbank h.1
          · exact hpayload h.1
          · exact hfixed h.1
          · exact hparagraph h.1

theorem returns_checkSlotKey :
    Returns (checkSlotKey q g s d path) ↔ SlotKeyLegible q g s d := by
  unfold checkSlotKey
  constructor
  · intro h
    obtain ⟨slots, hslots, h⟩ := returns_bind.1 h
    obtain ⟨⟨valid, bank⟩, hoptions, h⟩ := returns_bind.1 h
    obtain ⟨unknown, hunknown, h⟩ := returns_bind.1 h
    obtain ⟨reused, hreused, _⟩ := returns_bind.1 h
    refine ⟨(returns_keySlotFindings q path).1 ⟨slots, hslots⟩,
      returns_gateOptions.1 ⟨_, hoptions⟩, fun hhas => ?_,
      returns_reusedFindings.1 ⟨reused, hreused⟩⟩
    exact returns_unknownOptionFindings.1 ⟨unknown, hunknown⟩ ((gateOptions_ne_nil hoptions).2 hhas)
  · intro h
    obtain ⟨slots, hslots⟩ := (returns_keySlotFindings q path).2 h.names
    have hgate : Returns (gateOptions q g s d path) := returns_gateOptions.2 h.options
    obtain ⟨⟨valid, bank⟩, hoptions⟩ := hgate
    have hall : Returns (unknownOptionFindings q valid path) := returns_unknownOptionFindings.2
      (fun hne => h.answers ((gateOptions_ne_nil hoptions).1 hne))
    obtain ⟨unknown, hunknown⟩ := hall
    have hfirst : Returns (reusedFindings q d path) := returns_reusedFindings.2 h.first
    obtain ⟨reused, hreused⟩ := hfirst
    exact returns_bind.2 ⟨slots, hslots, returns_bind.2 ⟨_, hoptions, returns_bind.2
      ⟨unknown, hunknown, returns_bind.2 ⟨reused, hreused, returns_pure _⟩⟩⟩⟩

/-! ### Word limits, selections and pictures -/

theorem returns_overLimitFindings (rule : WordLimit) (slot : String × Json) :
    Returns (overLimitFindings q rule path slot) ↔ Object (fun spec =>
      WordLimit.Legible (getD spec "word_limit" .null) ∧ Iterable spec) slot.2 := by
  unfold overLimitFindings
  rw [returns_bind]
  unfold Object
  refine exists_congr (fun spec => ?_)
  rw [dictMethod_eq_ok]
  refine and_congr_right (fun hspec => ?_)
  have haccepted : Returns (acceptedValues slot.2) ↔ Iterable spec := by
    rw [returns_acceptedValues, object_of_dictMethod (dictMethod_eq_ok.2 hspec)]
  change _ ↔ WordLimit.Legible (getD spec "word_limit" .null) ∧ Iterable spec
  rw [← WordLimit.returns_fromDict, ← haccepted]
  exact returns_and

theorem returns_checkWordLimits :
    Returns (checkWordLimits q g d path) ↔ WordLimitsLegible q g d := by
  unfold checkWordLimits
  rw [returns_bind]
  cases htruthy : truthy g.wordLimit with
  | false =>
    have hnone : WordLimit.fromDict g.wordLimit = .ok none := by
      unfold WordLimit.fromDict
      rw [htruthy]
      rfl
    have hrules : Returns
        (rulesOf d >>= fun rules => findRule "word_limit_present_on_group" rules) ↔
        Rules (WalksTo "word_limit_present_on_group") d :=
      returns_rules (returns_findRule _)
    rw [hnone]
    constructor
    · rintro ⟨limit, hlimit, h⟩
      cases hlimit
      refine ⟨fun htrue => absurd htrue (by rw [htruthy]; decide), fun _ => hrules.1 ?_,
        fun htrue => absurd htrue (by rw [htruthy]; decide)⟩
      rw [← bind_assoc] at h
      exact returns_then.1 h
    · intro h
      refine ⟨none, rfl, ?_⟩
      rw [← bind_assoc]
      exact returns_then.2 (hrules.2 (h.without htruthy))
  | true =>
    constructor
    · rintro ⟨limit, hlimit, h⟩
      refine ⟨(WordLimit.returns_fromDict _).1 ⟨limit, hlimit⟩,
        fun hfalse => absurd hfalse (by rw [htruthy]; decide), fun _ => ?_⟩
      obtain ⟨rule, rfl⟩ := Option.isSome_iff_exists.1
        (WordLimit.isSome_of_fromDict hlimit htruthy)
      exact (returns_flatten (returns_overLimitFindings rule)).1 h
    · intro h
      obtain ⟨limit, hlimit⟩ := (WordLimit.returns_fromDict _).2 h.group
      obtain ⟨rule, rfl⟩ := Option.isSome_iff_exists.1
        (WordLimit.isSome_of_fromDict hlimit htruthy)
      exact ⟨some rule, hlimit,
        (returns_flatten (returns_overLimitFindings rule)).2 (h.own htruthy)⟩

theorem returns_miscounts (correct : List String) :
    Returns (miscounts q correct) ↔ (getD q.payload "select_count" .null ≠ .null →
      Integral (getD q.payload "select_count" .null)) := by
  unfold miscounts
  dsimp only
  split
  · next hnull => exact iff_of_true (returns_ok _) (fun hne => absurd hnull hne)
  · next hne =>
    rw [forall_prop_of_true hne]
    exact returns_map

theorem returns_selectionFindings (correct : List String) :
    Returns (selectionFindings q path correct) ↔
      (getD q.payload "select_count" .null ≠ .null →
        Integral (getD q.payload "select_count" .null)) ∧ Each HasId (payloadOptions q) := by
  unfold selectionFindings
  rw [← returns_miscounts correct, ← returns_listedIds]
  have hassoc : ∀ (f : Bool → List String → Report), (miscounts q correct >>= fun miscounted =>
      iter (payloadOptions q) >>= fun listed => optionIds listed >>= fun valid =>
        (.ok (f miscounted valid) : Except Raised Report)) =
      miscounts q correct >>= fun miscounted =>
        (iter (payloadOptions q) >>= fun listed => optionIds listed) >>= fun valid =>
          .ok (f miscounted valid) := by
    intro f
    simp only [bind_assoc]
  rw [← @returns_and Bool (List String) Report]
  exact iff_of_eq (congrArg Returns (hassoc _))

theorem returns_checkSetSelectionKey :
    Returns (checkSetSelectionKey q path) ↔ SelectionLegible q := by
  unfold checkSetSelectionKey
  rw [returns_bind]
  constructor
  · rintro ⟨es, hes, h⟩
    have hes := iter_eq_ok.1 hes
    refine ⟨⟨es, hes, fun _ _ => trivial⟩, fun hne => ?_⟩
    dsimp only at h
    have hnil : (es.map pyStr).isEmpty = false := by
      cases es with
      | nil => exact absurd hes hne
      | cons e es => rfl
    rw [hnil, if_neg Bool.false_ne_true] at h
    exact (returns_selectionFindings _).1 h
  · rintro ⟨⟨es, hes, _⟩, hasked⟩
    refine ⟨es, iter_eq_ok.2 hes, ?_⟩
    dsimp only
    split
    · exact returns_ok _
    · next hempty =>
      refine (returns_selectionFindings _).2 (hasked ?_)
      rw [hes]
      intro hnil
      cases hnil
      exact hempty rfl

theorem returns_hotspotFindings (h : Json) :
    Returns (hotspotFindings g path h) ↔ Hotspot h := by
  unfold hotspotFindings Hotspot
  exact returns_object (fun d => returns_and) h

theorem returns_placedFindings (media : MediaRef) (rules : List Json) :
    Returns (placedFindings q g media rules path) ↔ (∀ h ∈ g.hotspots, Hotspot h) ∧
      (.str "hotspots_cover_option_bank" ∈ rules → ∀ o ∈ g.optionBank, HasId o) := by
  have hbank : Returns ((if rules.contains (.str "hotspots_cover_option_bank") then g.optionBank
      else []).mapM (fun o => pyStr <$> (subscript o "id" : Except Raised Json))) ↔
      (.str "hotspots_cover_option_bank" ∈ rules → ∀ o ∈ g.optionBank, HasId o) := by
    rw [returns_mapM]
    split
    · next hmem =>
      rw [forall_prop_of_true (List.contains_iff_mem.1 hmem)]
      exact forall₂_congr (fun o _ => returns_map.trans (returns_subscript o "id"))
    · next hmem =>
      exact iff_of_true (fun _ hnil => by cases hnil)
        (fun h => absurd (List.contains_iff_mem.2 h) hmem)
  have hbounds : Returns (g.hotspots.mapM (hotspotFindings g path)) ↔
      ∀ h ∈ g.hotspots, Hotspot h := by
    rw [returns_mapM]
    exact forall₂_congr (fun h _ => returns_hotspotFindings h)
  have hplaced : (∀ h ∈ g.hotspots, Hotspot h) → Returns (g.hotspots.mapM (fun h =>
      (fun e => pyStr (getD e "slot" .null)) <$> (dictMethod h : Except Raised Obj))) := by
    intro h
    rw [returns_mapM]
    intro x hx
    obtain ⟨e, he, _⟩ := h x hx
    exact returns_map.2 ⟨e, dictMethod_eq_ok.2 he⟩
  rw [← hbank, and_comm, ← hbounds]
  unfold placedFindings
  rw [returns_bind]
  constructor
  · rintro ⟨placed, _, h⟩
    exact returns_and.1 h
  · intro h
    obtain ⟨placed, hmapped⟩ := hplaced (hbounds.1 h.2)
    exact ⟨placed, hmapped, returns_and.2 h⟩

theorem returns_ruleNames {rules : List Json} : Returns (rules.mapM (fun r =>
      (dictMethod r : Except Raised Obj) >>= fun rule =>
        if hashable (getD rule "rule" .null) then pure (getD rule "rule" .null)
        else throw .typeError)) ↔
    ∀ r ∈ rules, Object (fun rule => hashable (getD rule "rule" .null) = true) r := by
  rw [returns_mapM]
  refine forall₂_congr (fun r _ => returns_object (fun rule => ?_) r)
  split
  · next h => exact iff_of_true (returns_pure _) h
  · next h => exact iff_of_false (returns_throw _) h

theorem ruleNames_eq {rules names : List Json} (h : rules.mapM (fun r =>
      (dictMethod r : Except Raised Obj) >>= fun rule =>
        if hashable (getD rule "rule" .null) then pure (getD rule "rule" .null)
        else throw .typeError) = .ok names) : names = rules.map ruleName := by
  induction rules generalizing names with
  | nil =>
    cases h
    rfl
  | cons r rs ih =>
    obtain ⟨name, rest, hname, hrest, rfl⟩ := mapM_cons_eq_ok.1 h
    obtain ⟨rule, hrule, hname⟩ := bind_eq_ok.1 hname
    have hrule := dictMethod_eq_ok.1 hrule
    split at hname
    · cases hname
      rw [ih hrest, List.map_cons]
      unfold ruleName
      rw [hrule]
      rfl
    · cases hname

theorem returns_checkDiagram : Returns (checkDiagram q g d path) ↔ DiagramLegible g d := by
  unfold checkDiagram ruleNames DiagramLegible Pictured
  dsimp only
  rw [bind_assoc]
  refine returns_rules (fun rules => ?_)
  rw [← returns_ruleNames, returns_bind]
  cases g.diagramMedia with
  | none =>
    constructor
    · rintro ⟨names, hnames, _⟩
      exact ⟨⟨names, hnames⟩, fun h => by cases h.2⟩
    · rintro ⟨⟨names, hnames⟩, _⟩
      refine ⟨names, hnames, ?_⟩
      split <;> exact returns_ok _
  | some media =>
    constructor
    · rintro ⟨names, hnames, h⟩
      refine ⟨⟨names, hnames⟩, fun hpictured => ?_⟩
      rw [ruleNames_eq hnames, if_pos (List.contains_iff_mem.2 hpictured.1)] at h
      exact (returns_placedFindings media _).1 h
    · rintro ⟨⟨names, hnames⟩, h⟩
      refine ⟨names, hnames, ?_⟩
      rw [ruleNames_eq hnames]
      split
      · next hmem =>
        exact (returns_placedFindings media _).2 (h ⟨List.contains_iff_mem.1 hmem, rfl⟩)
      · exact returns_ok _

/-! ## A question, and the paper -/

theorem returns_checkKey : Returns (checkKey q g s d path) ↔
    (d.scoring.primitive = .setSelection → SelectionLegible q) ∧
    (d.scoring.primitive ≠ .setSelection → SlotKeyLegible q g s d) ∧
    (d.scoring.primitive = .textPerSlot → WordLimitsLegible q g d) := by
  unfold checkKey
  cases d.scoring.primitive with
  | setSelection =>
    rw [returns_checkSetSelectionKey]
    simp
  | choicePerSlot =>
    rw [returns_checkSlotKey]
    simp
  | textPerSlot =>
    rw [← returns_checkSlotKey, ← returns_checkWordLimits]
    simp only [reduceCtorEq, false_implies, ne_eq, not_false_eq_true, true_implies, true_and]
    exact returns_and

theorem returns_checkQuestion :
    Returns (checkQuestion validator registry s g q path) ↔
      ∀ d, registry.defs.get? (q.typeKey, q.typeVersion) = some d → q.key.isSome = true →
        LegibleQuestion s g q d := by
  unfold checkQuestion
  cases hd : registry.defs.get? (q.typeKey, q.typeVersion) with
  | none => exact iff_of_true (returns_ok _) (fun d h => by cases h)
  | some d =>
    simp only [Option.some.injEq, forall_eq']
    cases hkey : q.key with
    | none => exact iff_of_true (returns_ok _) (fun h => by cases h)
    | some key =>
      have hsome : (some key).isSome = true := rfl
      rw [forall_prop_of_true hsome]
      have hboth : LegibleQuestion s g q d ↔
          Returns (checkKey q g s d path) ∧ Returns (checkDiagram q g d path) := by
        rw [returns_checkKey, returns_checkDiagram]
        exact ⟨fun h => ⟨⟨h.selection, h.slots, h.limits⟩, h.diagram⟩,
          fun h => ⟨h.1.1, h.1.2.1, h.1.2.2, h.2⟩⟩
      rw [hboth]
      exact returns_and

/-- What the checks of a question are about, if its type is registered and it has a key. -/
def LegibleAt (registry : Registry) (s : SectionNode) (g : GroupNode) (q : QuestionNode) : Prop :=
  ∀ d, registry.defs.get? (q.typeKey, q.typeVersion) = some d → q.key.isSome = true →
    LegibleQuestion s g q d

theorem returns_checkGroup : Returns (checkGroup validator registry s g path) ↔
    ∀ q ∈ g.questions, LegibleAt registry s g q := by
  unfold checkGroup
  split
  · next hempty =>
    rw [List.isEmpty_iff.1 hempty]
    exact iff_of_true (returns_ok _) (fun _ hnil => by cases hnil)
  · rw [returns_map, returns_mapM, ← forall_zipIdx (LegibleAt registry s g) 0]
    exact forall₂_congr (fun _ _ => returns_checkQuestion)

theorem returns_checkSection : Returns (checkSection validator registry s) ↔
    ∀ g ∈ s.groups, ∀ q ∈ g.questions, LegibleAt registry s g q := by
  have hgroups : Returns (s.groups.zipIdx.mapM (fun p => checkGroup validator registry s p.1
      ("sections[" ++ toString s.position ++ "]" ++ ".groups[" ++ toString p.2 ++ "]"))) ↔
      ∀ g ∈ s.groups, ∀ q ∈ g.questions, LegibleAt registry s g q := by
    rw [returns_mapM, ← forall_zipIdx (fun g => ∀ q ∈ g.questions, LegibleAt registry s g q) 0]
    exact forall₂_congr (fun _ _ => returns_checkGroup)
  rw [← hgroups]
  exact returns_then

theorem returns_run : Returns (run validator c registry) ↔ Legible registry c := by
  have hsections : Returns (c.sections.mapM (checkSection validator registry)) ↔
      ∀ p ∈ c.questions, LegibleAt registry p.1 p.2.1 p.2.2 := by
    rw [returns_mapM]
    constructor
    · intro h p hp
      obtain ⟨hs, hg, hq⟩ := PublishGatePasses.mem_questions hp
      exact returns_checkSection.1 (h p.1 hs) p.2.1 hg p.2.2 hq
    · intro h s hs
      refine returns_checkSection.2 (fun g hg q hq => h (s, g, q) ?_)
      exact List.mem_flatMap.2 ⟨s, hs, List.mem_flatMap.2 ⟨g, hg, List.mem_map.2 ⟨q, hq, rfl⟩⟩⟩
  have hboth : Legible registry c ↔ Returns (checkBandMap c) ∧
      Returns (c.sections.mapM (checkSection validator registry)) := by
    rw [returns_checkBandMap, hsections]
    exact ⟨fun h => ⟨h.bandMap, h.questions⟩, fun h => ⟨h.1, h.2⟩⟩
  rw [hboth]
  exact returns_and

end IeltsHub.GateShapes
