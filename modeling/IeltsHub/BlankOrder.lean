import IeltsHub.ContentImporter

set_option autoImplicit false

/-!
# Blanks in reading order

A text with blanks `s1` to `sn` in it, and what the importer and the editor make of it. Slots are
sorted as text, where `s10` comes before `s2`.
-/
namespace IeltsHub.BlankOrder
open PyExc PyText PyValue PyDict QtypesSchemas ContentImporter
open ContentPublishGate (markerAt markers)

/-! ## A text with blanks -/

def isSlotDigit (c : Char) : Bool := '0' ≤ c && c ≤ '9'

def marker (ds : List Char) : List Char := '\x7b' :: '\x7b' :: 's' :: ds ++ ['\x7d', '\x7d']

structure Number (ds : List Char) : Prop where
  ne : ds ≠ []
  digits : ds.all isSlotDigit = true

def Plain (cs : List Char) : Prop := ∀ ds, Number ds → ¬ marker ds <:+: cs

/-- The blanks of a text, as they are read. -/
inductive Written : List Char → List String → Prop
  | plain {cs : List Char} (h : Plain cs) : Written cs []
  | blank {before ds rest : List Char} {names : List String} (hplain : Plain before)
      (hds : Number ds) (h : Written rest names) :
      Written (before ++ (marker ds ++ rest)) (.ofList ('s' :: ds) :: names)

def slotName (i : ℕ) : String := "s" ++ toString (i + 1)

/-- `s1` to `sn`. -/
def names (n : ℕ) : List String := (List.range n).map slotName

/-- What the importer reads in a value: only text has blanks. -/
inductive Spells : Json → List String → Prop
  | text {s : String} {ns : List String} (h : Written s.toList ns) : Spells (.str s) ns
  | other {v : Json} (h : ∀ s, v ≠ .str s) : Spells v []

/-- What the editor reads in an entry of a list: an entry with a key is that blank. -/
inductive SpellsEntry : Json → List String → Prop
  | text {s : String} {ns : List String} (h : Written s.toList ns) : SpellsEntry (.str s) ns
  | keyed {ms : List (String × Json)} {key : Json} (h : (dictOf ms).get? "key" = some key) :
      SpellsEntry (.obj ms) [pyStr key]
  | other {v : Json} (htext : ∀ s, v ≠ .str s)
      (hkey : ∀ ms, v = .obj ms → (dictOf ms).get? "key" = none) : SpellsEntry v []

inductive SpellsValue : Json → List String → Prop
  | text {s : String} {ns : List String} (h : Written s.toList ns) : SpellsValue (.str s) ns
  | entries {es : List Json} {nss : List (List String)} (h : List.Forall₂ SpellsEntry es nss) :
      SpellsValue (.arr es) nss.flatten
  | other {v : Json} (htext : ∀ s, v ≠ .str s) (hlist : ∀ es, v ≠ .arr es) : SpellsValue v []

/-- A payload with the blanks `s1` to `sn` in order, and no others. -/
def HasBlanks (spells : Json → List String → Prop) (payload : Obj) (n : ℕ) : Prop :=
  ∃ nss, List.Forall₂ spells payload.values nss ∧ nss.flatten = names n

/-- A question of a file: its payload has the blanks, or is built from a text that has them. -/
inductive Imported (questionDoc : Obj) (definition : Option QuestionTypeDef) (n : ℕ) :
    Obj → Prop
  | given {payload : Obj} (h : payloadOf questionDoc definition = .ok payload)
      (hblanks : HasBlanks Spells payload n) : Imported questionDoc definition n payload
  | built {payload : Obj} {text : String} (h : payloadFrom questionDoc definition = .ok payload)
      (htext : textOf questionDoc = .str text) (hblanks : Written text.toList (names n))
      (hpos : 0 < n) : Imported questionDoc definition n payload

def acceptedFor (key : Json) (slot : String) : Option Json := do
  let slots ← asDict (← (← asDict key).get? "slots")
  (← asDict (← slots.get? slot)).get? "accept"

section
variable {cs ds rest before : List Char} {ns : List String} {n i : ℕ} {payload questionDoc : Obj}

/-! ## Markers -/

theorem takeWhile_digits (h : ds.all isSlotDigit = true) :
    (ds ++ '\x7d' :: rest).takeWhile isSlotDigit = ds := by
  rw [List.takeWhile_append_of_pos (List.all_eq_true.1 h), List.takeWhile_cons_of_neg (by decide),
    List.append_nil]

theorem markerAt_marker (h : Number ds) (rest : List Char) :
    markerAt (marker ds ++ rest) = some (.ofList ('s' :: ds)) := by
  have htake : (ds ++ ['\x7d', '\x7d'] ++ rest).takeWhile isSlotDigit = ds := by
    rw [List.append_assoc]
    exact takeWhile_digits h.digits
  have hdrop : ((ds ++ ['\x7d', '\x7d'] ++ rest).drop ds.length).take 2 = ['\x7d', '\x7d'] := by
    rw [List.append_assoc, List.drop_left]
    rfl
  have hne : ds.isEmpty = false := List.isEmpty_eq_false_iff.2 h.ne
  change (if !((ds ++ ['\x7d', '\x7d'] ++ rest).takeWhile isSlotDigit).isEmpty &&
      ((ds ++ ['\x7d', '\x7d'] ++ rest).drop
        ((ds ++ ['\x7d', '\x7d'] ++ rest).takeWhile isSlotDigit).length).take 2 =
          ['\x7d', '\x7d'] then
    some (String.ofList ('s' :: (ds ++ ['\x7d', '\x7d'] ++ rest).takeWhile isSlotDigit))
    else none) = _
  rw [htake, hdrop, hne]
  rfl

theorem drop_takeWhile (p : Char → Bool) (cs : List Char) :
    cs.drop (cs.takeWhile p).length = cs.dropWhile p := by
  induction cs with
  | nil => rfl
  | cons c cs ih =>
    cases hc : p c with
    | true =>
      rw [List.takeWhile_cons_of_pos hc, List.dropWhile_cons_of_pos hc]
      exact ih
    | false =>
      rw [List.takeWhile_cons_of_neg (by simp [hc]), List.dropWhile_cons_of_neg (by simp [hc])]
      rfl

theorem exists_of_markerAt {m : String} (h : markerAt cs = some m) :
    ∃ ds rest, Number ds ∧ cs = marker ds ++ rest := by
  unfold markerAt at h
  split at h
  · rename_i tail
    change (if !(tail.takeWhile isSlotDigit).isEmpty &&
      (tail.drop (tail.takeWhile isSlotDigit).length).take 2 = ['\x7d', '\x7d'] then _ else _) =
        _ at h
    rw [drop_takeWhile] at h
    split at h
    · rename_i hcond
      rw [Bool.and_eq_true] at hcond
      obtain ⟨hne, hclose⟩ := hcond
      have hclose' := of_decide_eq_true hclose
      refine ⟨tail.takeWhile isSlotDigit, (tail.dropWhile isSlotDigit).drop 2,
        ⟨by simpa using hne, List.all_takeWhile⟩, ?_⟩
      have htail : tail = tail.takeWhile isSlotDigit ++
          (['\x7d', '\x7d'] ++ (tail.dropWhile isSlotDigit).drop 2) := by
        rw [← hclose', List.take_append_drop, List.takeWhile_append_dropWhile]
      unfold marker
      rw [List.append_assoc]
      exact congrArg (fun t => '\x7b' :: '\x7b' :: 's' :: t) htail
    · cases h
  · cases h

theorem markerAt_plain (h : Plain cs) : markerAt cs = none := by
  cases hm : markerAt cs with
  | none => rfl
  | some m =>
    obtain ⟨ds, rest, hds, rfl⟩ := exists_of_markerAt hm
    exact absurd (List.prefix_append _ _).isInfix (h ds hds)

theorem Plain.tail {c : Char} (h : Plain (c :: cs)) : Plain cs := fun ds hds hin =>
  h ds hds (hin.trans (List.suffix_cons c cs).isInfix)

theorem markers_plain (h : Plain cs) : markers cs = [] := by
  induction cs with
  | nil => rfl
  | cons c cs ih =>
    rw [markers, markerAt_plain h]
    exact ih h.tail

theorem brace_not_mem (h : Number ds) : '\x7b' ∉ 's' :: ds ++ ['\x7d', '\x7d'] := by
  intro hmem
  rw [List.mem_append, List.mem_cons] at hmem
  obtain (hs | hdigit) | hclose := hmem
  · exact absurd hs (by decide)
  · have hbrace := List.all_eq_true.1 h.digits _ hdigit
    exact absurd hbrace (by decide)
  · exact absurd hclose (by decide)

theorem markers_cons_none {c : Char} (h : markerAt (c :: cs) = none) :
    markers (c :: cs) = markers cs := by
  rw [markers, h]

theorem markers_cons_some {c : Char} {m : String} (h : markerAt (c :: cs) = some m) :
    markers (c :: cs) = m :: markers cs := by
  rw [markers, h]

theorem markerAt_before {c : Char} (h : Plain (c :: before)) (ds rest : List Char) :
    markerAt (c :: before ++ (marker ds ++ rest)) = none := by
  cases hm : markerAt (c :: before ++ (marker ds ++ rest)) with
  | none => rfl
  | some m =>
    obtain ⟨ds', rest', hds', heq⟩ := exists_of_markerAt hm
    obtain ⟨w, hw, -⟩ | ⟨w, hw, hw'⟩ := List.append_eq_append_iff.1 heq.symm
    · refine absurd ?_ (h ds' hds')
      rw [hw]
      exact (List.prefix_append _ _).isInfix
    · cases w with
      | nil =>
        rw [List.append_nil] at hw
        exact absurd (hw ▸ List.infix_rfl) (h ds' hds')
      | cons d w =>
        have hd : '\x7b' = d := (List.cons.inj hw').1
        have hright : '\x7b' :: 's' :: ds ++ ['\x7d', '\x7d'] ++ rest = w ++ rest' :=
          (List.cons.inj hw').2
        have hleft : '\x7b' :: ('s' :: ds' ++ ['\x7d', '\x7d']) = before ++ d :: w :=
          (List.cons.inj hw).2
        cases before with
        | nil =>
          -- a second brace cannot be followed by both a brace and an `s`
          have hs : 's' :: ds' ++ ['\x7d', '\x7d'] = w := (List.cons.inj hleft).2
          rw [← hs] at hright
          exact absurd (List.cons.inj hright).1 (by decide)
        | cons e before =>
          have hs : 's' :: ds' ++ ['\x7d', '\x7d'] = before ++ d :: w := (List.cons.inj hleft).2
          refine absurd ?_ (brace_not_mem hds')
          rw [hs, hd]
          exact List.mem_append_right _ List.mem_cons_self

theorem markers_before (h : Plain before) (ds rest : List Char) :
    markers (before ++ (marker ds ++ rest)) = markers (marker ds ++ rest) := by
  induction before with
  | nil => rfl
  | cons c before ih =>
    exact (markers_cons_none (markerAt_before h ds rest)).trans (ih h.tail)

theorem markerAt_of_ne {c : Char} (h : c ≠ '\x7b') (cs : List Char) :
    markerAt (c :: cs) = none := by
  unfold markerAt
  split
  · rename_i heq
    exact absurd (List.cons.inj heq).1 h
  · rfl

theorem markers_skip (h : '\x7b' ∉ cs) (rest : List Char) :
    markers (cs ++ rest) = markers rest := by
  induction cs with
  | nil => rfl
  | cons c cs ih =>
    rw [List.mem_cons, not_or] at h
    exact (markers_cons_none (markerAt_of_ne (Ne.symm h.1) _)).trans (ih h.2)

theorem markers_marker (h : Number ds) (rest : List Char) :
    markers (marker ds ++ rest) = .ofList ('s' :: ds) :: markers rest := by
  have hsecond : markerAt ('\x7b' :: ('s' :: ds ++ ['\x7d', '\x7d'] ++ rest)) = none := rfl
  have hrest := markers_skip (brace_not_mem h) rest
  exact (markers_cons_some (markerAt_marker h rest)).trans
    (congrArg _ ((markers_cons_none hsecond).trans hrest))

theorem markers_written (h : Written cs ns) : markers cs = ns := by
  induction h with
  | plain h => exact markers_plain h
  | blank hplain hds _ ih => rw [markers_before hplain, markers_marker hds, ih]

/-! ## Payloads -/

theorem textMarkers_spells {v : Json} (h : Spells v ns) : textMarkers v = ns := by
  cases h with
  | text h => exact markers_written h
  | other h =>
    cases v with
    | str s => exact absurd rfl (h s)
    | _ => rfl

theorem slotsOfEntry_spells {v : Json} (h : SpellsEntry v ns) :
    ContentDrafts.slotsOfEntry v = ns := by
  cases h with
  | text h => exact markers_written h
  | keyed h =>
    unfold ContentDrafts.slotsOfEntry
    dsimp only
    rw [h]
  | other htext hkey =>
    cases v with
    | str s => exact absurd rfl (htext s)
    | obj ms =>
      unfold ContentDrafts.slotsOfEntry
      dsimp only
      rw [hkey ms rfl]
    | _ => rfl

theorem flatMap_of_forall₂ {R : Json → List String → Prop} {f : Json → List String}
    (hf : ∀ v ns, R v ns → f v = ns) {vs : List Json} {nss : List (List String)}
    (h : List.Forall₂ R vs nss) : vs.flatMap f = nss.flatten := by
  induction h with
  | nil => rfl
  | cons h _ ih => rw [List.flatMap_cons, List.flatten_cons, hf _ _ h, ih]

theorem slotsOfValue_spells {v : Json} (h : SpellsValue v ns) :
    ContentDrafts.slotsOfValue v = ns := by
  cases h with
  | text h => exact markers_written h
  | entries h => exact flatMap_of_forall₂ (fun _ _ h => slotsOfEntry_spells h) h
  | other htext hlist =>
    cases v with
    | str s => exact absurd rfl (htext s)
    | arr es => exact absurd rfl (hlist es)
    | _ => rfl

theorem found_imported (h : HasBlanks Spells payload n) :
    payload.values.flatMap textMarkers = names n := by
  obtain ⟨nss, hall, hflat⟩ := h
  rw [flatMap_of_forall₂ (fun _ _ h => textMarkers_spells h) hall, hflat]

theorem found_authored (h : HasBlanks SpellsValue payload n) :
    payload.values.flatMap ContentDrafts.slotsOfValue = names n := by
  obtain ⟨nss, hall, hflat⟩ := h
  rw [flatMap_of_forall₂ (fun _ _ h => slotsOfValue_spells h) hall, hflat]

/-! ## The order of slots -/

theorem names_length (n : ℕ) : (names n).length = n := by
  unfold names
  rw [List.length_map, List.length_range]

theorem names_getElem? (h : i < n) : (names n)[i]? = some (slotName i) := by
  unfold names
  rw [List.getElem?_map, List.getElem?_range h]
  rfl

theorem pairwise_sorted (l : List String) : (sorted l).Pairwise (fun a b => textLE a b = true) := by
  have htotal : Std.Total (fun a b : String => textLE a b = true) :=
    ⟨fun a b => (le_total (a.toList.map Char.toNat) (b.toList.map Char.toNat)).imp
      decide_eq_true decide_eq_true⟩
  have htrans : IsTrans String (fun a b => textLE a b = true) :=
    ⟨fun a b c hab hbc => decide_eq_true ((of_decide_eq_true hab).trans (of_decide_eq_true hbc))⟩
  exact List.pairwise_insertionSort _ l

theorem sorted_names_iff (n : ℕ) : sorted (names n).dedup = names n ↔ n ≤ 9 := by
  constructor
  · intro h
    by_contra hmany
    have hpairs : (names n).Pairwise (fun a b => textLE a b = true) := by
      rw [← h]
      exact pairwise_sorted _
    obtain ⟨h1, hs2⟩ := List.getElem?_eq_some_iff.1 (@names_getElem? n 1 (by omega))
    obtain ⟨h9, hs10⟩ := List.getElem?_eq_some_iff.1 (@names_getElem? n 9 (by omega))
    have hle := List.pairwise_iff_getElem.1 hpairs 1 9 h1 h9 (by omega)
    rw [hs2, hs10] at hle
    exact absurd hle (by decide)
  · intro h
    interval_cases n <;> decide

/-! ## A question always has a slot -/

theorem elements?_ne_nil {v : Json} {es : List Json} (ht : truthy v = true)
    (h : elements? v = some es) : es ≠ [] := by
  rintro rfl
  cases v with
  | arr l =>
    cases h
    cases ht
  | str s =>
    have hchars : s.toList = [] := by simpa [elements?] using h
    have hs : s = "" := by simpa using hchars
    subst hs
    cases ht
  | obj ms =>
    have hkeys : (dictOf ms).keys = [] := by simpa [elements?] using h
    cases ms with
    | nil => cases ht
    | cons m ms =>
      have hsome : ((dictOf (m :: ms)).get? m.1).isSome = true :=
        Dict.isSome_get?_ofList.2 List.mem_cons_self
      have hnone : (dictOf (m :: ms)).get? m.1 = none := Dict.get?_eq_none.2 (by
        rw [hkeys]
        exact List.not_mem_nil)
      rw [hnone] at hsome
      cases hsome
  | _ => cases h

theorem truthy_getOr {d : Obj} {key : String} {v : Json} (h : truthy v = true) :
    truthy (getOr d key v) = true := by
  unfold getOr
  dsimp only
  split
  · assumption
  · exact h

theorem listed_ne_nil {δ β : Type} {f : Json → Except (Exc δ) β} {bs : List β}
    (h : (do let listed ← iter (getOr payload "slots" (.arr [.str "s1"]))
             listed.mapM f) = .ok bs) : bs ≠ [] := by
  rintro rfl
  obtain ⟨listed, hiter, hmap⟩ := bind_eq_ok.1 h
  have hne : listed ≠ [] := elements?_ne_nil (truthy_getOr rfl) (iter_eq_ok.1 hiter)
  cases mapM_eq_ok.1 hmap
  exact hne rfl

theorem sorted_ne_nil {found : List String} (h : found.isEmpty = false) :
    sorted found.dedup ≠ [] := by
  intro hnil
  have hlength := congrArg List.length hnil
  unfold sorted at hlength
  rw [List.length_insertionSort, List.length_nil, List.length_eq_zero_iff,
    List.dedup_eq_nil] at hlength
  rw [hlength] at h
  cases h

theorem slotsFrom_ne_nil (h : slotsFrom payload = .ok ns) : ns ≠ [] := by
  unfold slotsFrom at h
  dsimp only at h
  split at h
  · exact listed_ne_nil h
  · rename_i hfound
    cases h
    exact sorted_ne_nil (by simpa using hfound)

theorem authored_ne_nil (h : ContentDrafts.slotsFrom payload = .ok ns) : ns ≠ [] := by
  unfold ContentDrafts.slotsFrom at h
  dsimp only at h
  split at h
  · exact listed_ne_nil h
  · rename_i hfound
    cases h
    exact sorted_ne_nil (by simpa using hfound)

theorem names_isEmpty (h : 0 < n) : (names n).isEmpty = false := by
  rw [List.isEmpty_eq_false_iff, ← List.length_pos_iff, names_length]
  exact h

theorem names_zero : names 0 = [] := rfl

theorem slotsFrom_iff (h : HasBlanks Spells payload n) :
    slotsFrom payload = .ok (names n) ↔ 1 ≤ n ∧ n ≤ 9 := by
  rcases Nat.eq_zero_or_pos n with rfl | hpos
  · refine iff_of_false (fun hslots => slotsFrom_ne_nil hslots names_zero) (by omega)
  · have hslots : slotsFrom payload = .ok (sorted (names n).dedup) := by
      unfold slotsFrom
      dsimp only
      rw [found_imported h, names_isEmpty hpos]
      rfl
    rw [hslots, Except.ok.injEq, sorted_names_iff]
    exact (and_iff_right hpos).symm

theorem authored_iff (h : HasBlanks SpellsValue payload n) :
    ContentDrafts.slotsFrom payload = .ok (names n) ↔ 1 ≤ n ∧ n ≤ 9 := by
  rcases Nat.eq_zero_or_pos n with rfl | hpos
  · refine iff_of_false (fun hslots => authored_ne_nil hslots names_zero) (by omega)
  · have hslots : ContentDrafts.slotsFrom payload = .ok (sorted (names n).dedup) := by
      unfold ContentDrafts.slotsFrom
      dsimp only
      rw [found_authored h, names_isEmpty hpos]
      rfl
    rw [hslots, Except.ok.injEq, sorted_names_iff]
    exact (and_iff_right hpos).symm

/-! ## A payload built from a text -/

theorem infixOf_iff {part cs : List Char} : infixOf part cs = true ↔ part <:+: cs := by
  unfold infixOf
  rw [List.any_eq_true, List.infix_iff_prefix_suffix]
  simp only [List.mem_tails, List.isPrefixOf_iff_prefix, and_comm]

theorem markerStart_within (h : Written cs ns) (hne : ns ≠ []) : markerStart.toList <:+: cs := by
  cases h with
  | plain _ => exact absurd rfl hne
  | @blank before ds rest _ _ _ _ =>
    have hstart : markerStart.toList <+: marker ds := ⟨ds ++ ['\x7d', '\x7d'], rfl⟩
    exact hstart.isInfix.trans ⟨before, rest, List.append_assoc _ _ _⟩

theorem fieldIn_ne_slots {properties : Json} {fs : List String} {f : String}
    (hfs : "slots" ∉ fs) (h : fieldIn properties fs = .ok f) : f ≠ "slots" := by
  induction fs with
  | nil =>
    cases h
    decide
  | cons g fs ih =>
    rw [List.mem_cons, not_or] at hfs
    obtain ⟨b, -, hb⟩ := bind_eq_ok.1 h
    cases b with
    | true =>
      cases hb
      exact Ne.symm hfs.1
    | false => exact ih hfs.2 hb

theorem spells_slots : Spells (.arr [.str "s1"]) [] := .other (fun s h => by cases h)

theorem payloadFrom_eq {definition : Option QuestionTypeDef}
    (h : payloadFrom questionDoc definition = .ok payload) :
    ∃ slotted text field, withBlank slotted (textOf questionDoc) = .ok text ∧ field ≠ "slots" ∧
      (payload = Dict.empty.put field text ∨
        payload = (Dict.empty.put field text).put "slots" (.arr [.str "s1"])) := by
  obtain ⟨⟨properties, required⟩, -, h⟩ := bind_eq_ok.1 h
  obtain ⟨field, hfield, h⟩ := bind_eq_ok.1 h
  obtain ⟨slotted, -, h⟩ := bind_eq_ok.1 h
  obtain ⟨text, htext, h⟩ := bind_eq_ok.1 h
  refine ⟨slotted, text, field, htext, fieldIn_ne_slots (by decide) hfield, ?_⟩
  dsimp only at h
  split at h
  · cases h
    exact .inr rfl
  · obtain ⟨listed, -, h⟩ := bind_eq_ok.1 h
    split at h
    · cases h
      exact .inr rfl
    · cases h
      exact .inl rfl

theorem values_withSlots {field : String} (h : field ≠ "slots") (text : Json) :
    ((Dict.empty.put field text).put "slots" (.arr [.str "s1"])).values =
      [text, .arr [.str "s1"]] := by
  change (putEntry "slots" (.arr [.str "s1"]) [(field, text)]).map Prod.snd = _
  rw [putEntry, if_neg h]
  rfl

theorem payloadFrom_values {definition : Option QuestionTypeDef}
    (h : payloadFrom questionDoc definition = .ok payload) :
    ∃ slotted text, withBlank slotted (textOf questionDoc) = .ok text ∧
      (payload.values = [text] ∨ payload.values = [text, .arr [.str "s1"]]) := by
  obtain ⟨slotted, text, field, htext, hfield, rfl | rfl⟩ := payloadFrom_eq h
  · exact ⟨slotted, text, htext, .inl rfl⟩
  · exact ⟨slotted, text, htext, .inr (values_withSlots hfield text)⟩

theorem withBlank_eq {slotted : Bool} {text : String}
    (h : infixOf markerStart.toList text.toList = true) :
    withBlank slotted (.str text) = .ok (.str text) := by
  cases slotted with
  | false => rfl
  | true =>
    have hcontains : contains markerStart (.str text) = .ok true := congrArg Except.ok h
    unfold withBlank
    rw [if_pos rfl, hcontains]
    rfl

theorem hasBlanks_payloadFrom {definition : Option QuestionTypeDef} {text : String}
    (h : payloadFrom questionDoc definition = .ok payload) (htext : textOf questionDoc = .str text)
    (hblanks : Written text.toList (names n)) (hpos : 0 < n) : HasBlanks Spells payload n := by
  have hne : names n ≠ [] := List.isEmpty_eq_false_iff.1 (names_isEmpty hpos)
  obtain ⟨slotted, text', htext', hvalues⟩ := payloadFrom_values h
  rw [htext, withBlank_eq (infixOf_iff.2 (markerStart_within hblanks hne))] at htext'
  cases htext'
  obtain hvalues | hvalues := hvalues
  · refine ⟨[names n], ?_, List.append_nil _⟩
    rw [hvalues]
    exact .cons (.text hblanks) .nil
  · refine ⟨[names n, []], ?_, by simp⟩
    rw [hvalues]
    exact .cons (.text hblanks) (.cons spells_slots .nil)

theorem Imported.hasBlanks {definition : Option QuestionTypeDef}
    (h : Imported questionDoc definition n payload) : HasBlanks Spells payload n := by
  cases h with
  | given _ hblanks => exact hblanks
  | built hbuilt htext hblanks hpos => exact hasBlanks_payloadFrom hbuilt htext hblanks hpos

/-! ## The key -/

/-- A slot for each blank, and for the blank in place `i` the answer in place `i`. -/
structure InReadingOrder (questionDoc payload : Obj) (n : ℕ) : Prop where
  slots : slotsFrom payload = .ok (names n)
  answers : ∀ answers : List Json, getOr questionDoc "accept" (.arr []) = .arr answers →
    answers.length = n → ∃ key, keyFrom questionDoc payload = .ok key ∧
      ∀ i (h : i < answers.length), acceptedFor key (slotName i) = some (.arr [answers[i]])

theorem slotSpec_eq {answers : List Json} (h : i < answers.length) (slot : String) :
    slotSpec (.arr answers) (slot, i) = .ok (slot, acceptSpec (.arr [answers[i]])) := by
  unfold slotSpec
  change (if i < answers.length then _ else _) = _
  rw [if_pos h]
  have hindex : index (.arr answers) i = .ok answers[i] := by
    unfold index
    dsimp only
    rw [List.getElem?_eq_getElem h]
    rfl
  rw [hindex]
  rfl

def specs (answers : List Json) : List (String × Json) :=
  answers.mapIdx (fun i a => (slotName i, acceptSpec (.arr [a])))

theorem mapM_slotSpec (answers : List Json) :
    (names answers.length).zipIdx.mapM (slotSpec (.arr answers)) = .ok (specs answers) := by
  refine mapM_eq_ok.2 (List.forall₂_iff_get.2 ⟨?_, fun i hi hi' => ?_⟩)
  · rw [List.length_zipIdx, names_length]
    unfold specs
    rw [List.length_mapIdx]
  · have hlt : i < answers.length := by
      rw [List.length_zipIdx, names_length] at hi
      exact hi
    obtain ⟨hname, hslot⟩ := List.getElem?_eq_some_iff.1 (names_getElem? hlt)
    unfold specs
    rw [List.get_eq_getElem, List.get_eq_getElem, List.getElem_zipIdx, List.getElem_mapIdx,
      hslot, Nat.zero_add, slotSpec_eq hlt]

theorem specs_keys (answers : List Json) : (specs answers).map Prod.fst = names answers.length := by
  unfold specs names
  refine List.ext_getElem ?_ (fun i hi hi' => ?_)
  · rw [List.length_map, List.length_mapIdx, List.length_map, List.length_range]
  · rw [List.getElem_map, List.getElem_mapIdx, List.getElem_map, List.getElem_range]

theorem acceptedFor_specs {answers : List Json} (hfew : answers.length ≤ 9)
    (h : i < answers.length) :
    acceptedFor (.obj [("slots", .obj (specs answers))]) (slotName i) =
      some (.arr [answers[i]]) := by
  have hnodup : (names answers.length).Nodup := by
    generalize answers.length = n at hfew
    interval_cases n <;> decide
  have hmem : (slotName i, acceptSpec (.arr [answers[i]])) ∈ specs answers := by
    unfold specs
    exact List.mem_mapIdx.2 ⟨i, h, rfl⟩
  have hone : ∀ k v w, (k, v) ∈ specs answers → (k, w) ∈ specs answers → v = w := by
    intro k v w hv hw
    rw [← specs_keys] at hnodup
    exact (Prod.ext_iff.1 (List.inj_on_of_nodup_map hnodup hv hw rfl)).2
  have hget : (dictOf (specs answers)).get? (slotName i) = some (acceptSpec (.arr [answers[i]])) :=
    (Dict.get?_ofList_eq_some hone).2 hmem
  unfold acceptedFor
  change (do
    let spec ← (dictOf (specs answers)).get? (slotName i)
    let spec ← asDict spec
    spec.get? "accept") = _
  rw [hget]
  rfl

theorem answers_in_order (hslots : slotsFrom payload = .ok (names n)) (hpos : 1 ≤ n)
    (hfew : n ≤ 9) (answers : List Json)
    (haccept : getOr questionDoc "accept" (.arr []) = .arr answers) (hlength : answers.length = n) :
    ∃ key, keyFrom questionDoc payload = .ok key ∧
      ∀ i (h : i < answers.length), acceptedFor key (slotName i) = some (.arr [answers[i]]) := by
  subst hlength
  unfold keyFrom
  dsimp only
  rw [haccept, hslots]
  rcases answers with _ | ⟨a, _ | ⟨b, answers⟩⟩
  · cases hpos
  · refine ⟨_, rfl, fun i h => ?_⟩
    have hi : i = 0 := by
      rw [List.length_singleton] at h
      omega
    subst hi
    rfl
  · have hmap := mapM_slotSpec (a :: b :: answers)
    refine ⟨.obj [("slots", .obj (specs (a :: b :: answers)))], ?_, fun i h =>
      acceptedFor_specs hfew h⟩
    have hnames : ∃ x y l, names (a :: b :: answers).length = x :: y :: l :=
      ⟨_, _, _, by rw [names, List.length_cons, List.length_cons, List.range_succ_eq_map,
        List.range_succ_eq_map]; rfl⟩
    obtain ⟨x, y, l, hnames⟩ := hnames
    rw [hnames] at hmap ⊢
    change (do
      let entries ← (x :: y :: l).zipIdx.mapM (slotSpec (.arr (a :: b :: answers)))
      return Json.obj [("slots", .obj entries)]) = _
    rw [hmap]
    rfl

/-- Blanks come in reading order exactly when there are one to nine of them. -/
theorem reading_order_iff (n : ℕ) :
    (∀ questionDoc definition payload, Imported questionDoc definition n payload →
      (InReadingOrder questionDoc payload n ↔ 1 ≤ n ∧ n ≤ 9)) ∧
    ∀ payload, HasBlanks SpellsValue payload n →
      (ContentDrafts.slotsFrom payload = .ok (names n) ↔ 1 ≤ n ∧ n ≤ 9) := by
  refine ⟨fun questionDoc definition payload himported => ?_, fun payload => authored_iff⟩
  have hslots := slotsFrom_iff himported.hasBlanks
  constructor
  · intro h
    exact hslots.1 h.slots
  · rintro ⟨hpos, hfew⟩
    have hnames := hslots.2 ⟨hpos, hfew⟩
    exact ⟨hnames, answers_in_order hnames hpos hfew⟩

/-! ## Rows of blanks -/

theorem plain_nil : Plain [] := by
  intro ds _ hin
  exact absurd (List.infix_nil.1 hin) (List.cons_ne_nil _ _)

theorem written_row {ks : List (List Char)} (h : ∀ ds ∈ ks, Number ds) :
    Written (ks.flatMap marker) (ks.map (fun ds => .ofList ('s' :: ds))) := by
  induction ks with
  | nil => exact .plain plain_nil
  | cons ds ks ih =>
    rw [List.forall_mem_cons] at h
    exact @Written.blank [] ds (ks.flatMap marker) _ plain_nil h.1 (ih h.2)

end

def rowDigits (n : ℕ) : List (List Char) := (List.range n).map (fun i => (toString (i + 1)).toList)

/-- The markers of `s1` to `sn`, one after the other. -/
def rowText (n : ℕ) : String := .ofList ((rowDigits n).flatMap marker)

def rowPayload (n : ℕ) : Obj := Dict.ofList [("text", .str (rowText n))]

/-- A line of an import with as many answers as blanks, `A`, `B` and so on. -/
def rowDoc (n : ℕ) : Obj := Dict.ofList [("text", .str (rowText n)),
  ("accept", .arr ((ContentDrafts.letters n).map .str))]

instance number_decidable (ds : List Char) : Decidable (Number ds) :=
  decidable_of_iff (ds ≠ [] ∧ ds.all isSlotDigit = true) ⟨fun h => ⟨h.1, h.2⟩, fun h => ⟨h.1, h.2⟩⟩

theorem written_ten : Written (rowText 10).toList (names 10) := by
  have hrow := @written_row (rowDigits 10) (by decide)
  have hnames : (rowDigits 10).map (fun ds => String.ofList ('s' :: ds)) = names 10 := by decide
  rw [hnames] at hrow
  unfold rowText
  rwa [String.toList_ofList]

/-- The second blank of ten is numbered third, and the tenth takes the second answer. -/
theorem ten_blanks_shuffled : Imported (rowDoc 10) none 10 (rowPayload 10) ∧
    slotsFrom (rowPayload 10) =
      .ok ["s1", "s10", "s2", "s3", "s4", "s5", "s6", "s7", "s8", "s9"] ∧
    ContentDrafts.slotsFrom (rowPayload 10) =
      .ok ["s1", "s10", "s2", "s3", "s4", "s5", "s6", "s7", "s8", "s9"] ∧
    (acceptedFor <$> keyFrom (rowDoc 10) (rowPayload 10)) <*> .ok "s10" =
      .ok (some (.arr [.str "B"])) ∧
    ¬ InReadingOrder (rowDoc 10) (rowPayload 10) 10 := by
  have hslots : slotsFrom (rowPayload 10) =
      .ok ["s1", "s10", "s2", "s3", "s4", "s5", "s6", "s7", "s8", "s9"] := by decide +kernel
  refine ⟨.built (by decide +kernel) (by decide +kernel) written_ten (by decide), hslots,
    by decide +kernel, by decide +kernel, fun h => ?_⟩
  have hslots' := h.slots
  rw [hslots] at hslots'
  exact absurd hslots' (by decide)

theorem written_two : Written (rowText 2).toList (names 2) := by
  have hrow := @written_row (rowDigits 2) (by decide)
  have hnames : (rowDigits 2).map (fun ds => String.ofList ('s' :: ds)) = names 2 := by decide
  rw [hnames] at hrow
  unfold rowText
  rwa [String.toList_ofList]

theorem reading_order_on_two :
    (InReadingOrder (rowDoc 2) (rowPayload 2) 2 ↔ 1 ≤ 2 ∧ 2 ≤ 9) ∧
    (ContentDrafts.slotsFrom (rowPayload 2) = .ok (names 2) ↔ 1 ≤ 2 ∧ 2 ≤ 9) :=
  ⟨(reading_order_iff 2).1 (rowDoc 2) none (rowPayload 2)
      (.built (by decide +kernel) (by decide +kernel) written_two (by decide)),
    (reading_order_iff 2).2 (rowPayload 2)
      ⟨[names 2], .cons (.text written_two) .nil, List.append_nil _⟩⟩

end IeltsHub.BlankOrder
