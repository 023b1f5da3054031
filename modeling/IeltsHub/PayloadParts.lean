import IeltsHub.MarkerText

set_option autoImplicit false

/-!
# Payload builders

`blankText`, `noteBlocks`, `flowSteps`, `formFields` and `tableGrid` of `payloadParts.ts`: the body
an author typed, with the list of its blanks beside it. When the list is what the body draws, and
what `slots_from` and the check of markers read.
-/
namespace IeltsHub.PayloadParts
open PyExc PyText PyDict PyValue BlankOrder MarkerText
open ContentPublishGate (markerAt markers markersIn markersInList markersInMembers textFields
  payloadMarkers)
open ContentDrafts (slotsFrom slotsOfValue)

/-! ## The builders -/

def jsonText (cs : List Char) : Json := .str (.ofList cs)

/-- The fields that `blank_editor` writes. -/
inductive ProseField where
  | text
  | summary

def ProseField.name : ProseField → String
  | .text => "text"
  | .summary => "summary"

def slotList (ids : List String) : Json := .arr (ids.map .str)

def blankText (field : ProseField) (body : List Char) : Obj :=
  dictOf [(field.name, jsonText (normaliseMarkers (trim body))),
    ("slots", slotList (slotsInText (trim body)))]

inductive NoteKind where
  | heading
  | bullet
  | subbullet
  | line

def NoteKind.name : NoteKind → String
  | .heading => "heading"
  | .bullet => "bullet"
  | .subbullet => "subbullet"
  | .line => "line"

structure NoteBlock where
  kind : NoteKind
  text : List Char

def written (cs : List Char) : Bool := trim cs ≠ []

def NoteBlock.json (block : NoteBlock) : Json :=
  .obj [("kind", .str block.kind.name), ("text", jsonText (normaliseMarkers (trim block.text)))]

def noteBlocks (blocks : List NoteBlock) : Obj :=
  let kept := blocks.filter (written ·.text)
  dictOf [("blocks", .arr (kept.map NoteBlock.json)),
    ("slots", slotList (slotsInLines (kept.map NoteBlock.text)))]

structure FlowStep where
  text : List Char
  branch : Option (List Char)

def FlowStep.json (step : FlowStep) : Json :=
  let branch := trim (step.branch.getD [])
  if branch ≠ [] then
    .obj [("text", jsonText (normaliseMarkers (trim step.text))),
      ("branch", jsonText branch)]
  else .obj [("text", jsonText (normaliseMarkers (trim step.text)))]

def flowSteps (steps : List FlowStep) : Obj :=
  let kept := steps.filter (written ·.text)
  dictOf [("steps", .arr (kept.map FlowStep.json)),
    ("slots", slotList (slotsInLines (kept.map FlowStep.text)))]

structure FormRow where
  label : List Char
  value : List Char

def FormRow.json (row : FormRow) : Json :=
  let raw := trim row.value
  let label := jsonText (trim row.label)
  match (slotsInText raw).head?, onlyMarker raw with
  | some slot, true => .obj [("label", label), ("slot", .str slot)]
  | _, _ =>
    if raw ≠ [] then .obj [("label", label), ("value", jsonText (normaliseMarkers raw))]
    else .obj [("label", label)]

def formFields (rows : List FormRow) : Obj :=
  let kept := rows.filter (fun row => written row.label || written row.value)
  dictOf [("fields", .arr (kept.map FormRow.json)),
    ("slots", slotList (slotsInLines (kept.map FormRow.value)))]

def cellJson (cell : List Char) : Json :=
  let raw := trim cell
  if onlyMarker raw then
    .obj [("kind", .str "blank"), ("slot", .str ((slotsInText raw).head?.getD "s1"))]
  else .obj [("kind", .str "text"), ("value", jsonText (normaliseMarkers raw))]

def keptColumns (columns : List (List Char)) : List (List Char) :=
  (columns.map trim).filter (· ≠ [])

def width (columns : List (List Char)) : ℕ := max 1 (keptColumns columns).length

def tableGrid (columns : List (List Char)) (cells : List (List (List Char))) : Obj :=
  let keptRows := cells.filter (fun row => row.any written)
  dictOf [("columns", .arr ((keptColumns columns).map jsonText)),
    ("rows", .arr (keptRows.map (fun row => .arr ((row.take (width columns)).map cellJson)))),
    ("slots", slotList (slotsInLines keptRows.flatten))]

/-! ## What a payload draws -/

mutual
/-- The blanks of a body: the markers of its texts, and what its members named `slot` carry. -/
def blanksIn : Json → List String
  | .arr es => blanksInList es
  | .obj ms => blanksInMembers ms
  | .str s => markers s.toList
  | _ => []

def blanksInList : List Json → List String
  | [] => []
  | e :: es => blanksIn e ++ blanksInList es

def blanksInMembers : List (String × Json) → List String
  | [] => []
  | (key, .str s) :: ms => (if key = "slot" then [s] else markers s.toList) ++ blanksInMembers ms
  | (_, v) :: ms => blanksIn v ++ blanksInMembers ms
end

def declared (payload : Obj) : List String :=
  match getD payload "slots" .null with
  | .arr es => es.filterMap (fun e => match e with
    | .str s => some s
    | _ => none)
  | _ => []

def drawn (payload : Obj) : List String :=
  blanksInMembers (payload.entries.filter (fun e => e.1 ≠ "slots"))

structure Agrees (payload : Obj) : Prop where
  once : (declared payload).Nodup
  exact : ∀ id, id ∈ declared payload ↔ id ∈ drawn payload
  server : ∃ ids, slotsFrom payload = .ok ids ∧ ∀ id, id ∈ ids ↔ id ∈ declared payload
  gate : payloadMarkers payload = [] ∨
    ∀ id, id ∈ payloadMarkers payload ↔ id ∈ declared payload

/-! ## What an author may type -/

structure Readable (lines : List (List Char)) : Prop where
  some : lines.flatMap ids ≠ []
  digits : ∀ id ∈ lines.flatMap ids, serverId id = true

def carried (lines : List (List Char)) : List String :=
  (lines.filter (fun cs => onlyMarker (trim cs))).flatMap ids

def inline (lines : List (List Char)) : List String :=
  ((lines.filter (fun cs => ¬ onlyMarker (trim cs))).flatMap ids).filter serverId

def asTyped (lines : List (List Char)) : List String := lines.flatMap (fun cs => markers (trim cs))

structure BranchesFit (steps : List FlowStep) : Prop where
  texts : Readable (steps.map FlowStep.text)
  branches : ∀ step ∈ steps, written step.text = true →
    ∀ id ∈ asTyped step.branch.toList, id ∈ (steps.map FlowStep.text).flatMap ids

structure FieldsFit (rows : List FormRow) : Prop where
  some : (rows.map FormRow.value).flatMap ids ≠ []
  shown : ∀ id ∈ (rows.map FormRow.value).flatMap ids,
    id ∈ carried (rows.map FormRow.value) ∨ id ∈ inline (rows.map FormRow.value) ∨
      id ∈ asTyped (rows.map FormRow.label)
  labels : ∀ id ∈ asTyped (rows.map FormRow.label), id ∈ (rows.map FormRow.value).flatMap ids
  gate : inline (rows.map FormRow.value) ++ asTyped (rows.map FormRow.label) = [] ∨
    ∀ id ∈ (rows.map FormRow.value).flatMap ids,
      id ∈ inline (rows.map FormRow.value) ++ asTyped (rows.map FormRow.label)

def shownCells (columns : List (List Char)) (cells : List (List (List Char))) : List (List Char) :=
  cells.flatMap (List.take (width columns))

structure CellsFit (columns : List (List Char)) (cells : List (List (List Char))) : Prop where
  some : cells.flatten.flatMap ids ≠ []
  shown : ∀ id ∈ cells.flatten.flatMap ids, id ∈ carried (shownCells columns cells) ∨
    id ∈ inline (shownCells columns cells) ∨ id ∈ asTyped columns
  headers : ∀ id ∈ asTyped columns, id ∈ cells.flatten.flatMap ids
  server : asTyped columns = [] ∨ ∀ id ∈ cells.flatten.flatMap ids, id ∈ asTyped columns
  gate : inline (shownCells columns cells) = [] ∨
    ∀ id ∈ cells.flatten.flatMap ids, id ∈ inline (shownCells columns cells)

variable {body : List (String × Json)} {slots : List String} {id : String} {cs : List Char}

/-! ## A body with its list of slots -/

def built (body : List (String × Json)) (slots : List String) : Obj :=
  dictOf (body ++ [("slots", slotList slots)])

theorem entries_built (h : (body.map Prod.fst ++ ["slots"]).Nodup) :
    (built body slots).entries = body ++ [("slots", slotList slots)] := by
  have hkeys : (([] ++ (body ++ [("slots", slotList slots)])).map Prod.fst).Nodup := by
    simpa using h
  exact Dict.foldl_put_entries rfl hkeys

theorem getD_slots (h : (body.map Prod.fst ++ ["slots"]).Nodup) :
    getD (built body slots) "slots" .null = slotList slots := by
  have hget : (built body slots).get? "slots" = some (slotList slots) := by
    rw [Dict.get?_eq_some, entries_built h]
    exact List.mem_append_right _ List.mem_cons_self
  unfold getD
  rw [hget]
  rfl

theorem declared_built (h : (body.map Prod.fst ++ ["slots"]).Nodup) :
    declared (built body slots) = slots := by
  unfold declared
  rw [getD_slots h]
  simp [slotList, List.filterMap_map]

theorem drawn_built (h : (body.map Prod.fst ++ ["slots"]).Nodup) :
    drawn (built body slots) = blanksInMembers body := by
  have hbody : ∀ e ∈ body, decide (e.1 ≠ "slots") = true := by
    intro e he
    refine decide_eq_true ?_
    rintro heq
    exact (List.nodup_append.1 h).2.2 e.1 (List.mem_map_of_mem he) "slots" List.mem_cons_self heq
  unfold drawn
  rw [entries_built h, List.filter_append, List.filter_eq_self.2 hbody]
  exact congrArg blanksInMembers (List.append_nil body)

theorem slotsOfValue_slotList (h : ∀ id ∈ slots, markers id.toList = []) :
    slotsOfValue (slotList slots) = [] := by
  unfold slotsOfValue slotList
  dsimp only
  rw [List.flatMap_eq_nil_iff]
  intro e he
  obtain ⟨id, hid, rfl⟩ := List.mem_map.1 he
  exact h id hid

theorem getOr_slots (h : (body.map Prod.fst ++ ["slots"]).Nodup) (hne : slots ≠ []) :
    getOr (built body slots) "slots" (.arr [.str "s1"]) = slotList slots := by
  have htruthy : truthy (slotList slots) = true := by
    cases slots with
    | nil => exact absurd rfl hne
    | cons slot slots => rfl
  unfold getOr
  dsimp only
  rw [getD_slots h, if_pos htruthy]

theorem slotsFrom_built (h : (body.map Prod.fst ++ ["slots"]).Nodup)
    (hplain : ∀ id ∈ slots, markers id.toList = []) :
    slotsFrom (built body slots) =
      .ok (if (body.map Prod.snd).flatMap slotsOfValue = [] then
        (if slots = [] then ["s1"] else slots)
      else sorted ((body.map Prod.snd).flatMap slotsOfValue).dedup) := by
  have hfound : (built body slots).values.flatMap slotsOfValue =
      (body.map Prod.snd).flatMap slotsOfValue := by
    unfold Dict.values
    rw [entries_built h]
    simp [slotsOfValue_slotList hplain]
  unfold slotsFrom
  dsimp only
  rw [hfound]
  by_cases hnil : (body.map Prod.snd).flatMap slotsOfValue = []
  · rw [if_pos hnil, if_pos (by simp [hnil])]
    by_cases hslots : slots = []
    · rw [if_pos hslots]
      unfold getOr
      rw [getD_slots h, hslots]
      rfl
    · rw [if_neg hslots, getOr_slots h hslots]
      refine mapM_eq_ok.2 ?_
      rw [List.forall₂_map_left_iff]
      exact List.forall₂_same.2 (fun _ _ => rfl)
  · rw [if_neg hnil, if_neg (by simpa using hnil)]

theorem mem_sorted {found : List String} : id ∈ sorted found ↔ id ∈ found :=
  List.mem_insertionSort _

theorem agrees_built (h : (body.map Prod.fst ++ ["slots"]).Nodup)
    (hplain : ∀ id ∈ slots, markers id.toList = []) (hnodup : slots.Nodup) :
    Agrees (built body slots) ↔ slots ≠ [] ∧ (∀ id, id ∈ slots ↔ id ∈ blanksInMembers body) ∧
      ((body.map Prod.snd).flatMap slotsOfValue = [] ∨
        ∀ id, id ∈ (body.map Prod.snd).flatMap slotsOfValue ↔ id ∈ slots) ∧
      (payloadMarkers (built body slots) = [] ∨
        ∀ id, id ∈ payloadMarkers (built body slots) ↔ id ∈ slots) := by
  have hserver : (∃ ids, slotsFrom (built body slots) = .ok ids ∧
      ∀ id, id ∈ ids ↔ id ∈ declared (built body slots)) ↔ slots ≠ [] ∧
        ((body.map Prod.snd).flatMap slotsOfValue = [] ∨
          ∀ id, id ∈ (body.map Prod.snd).flatMap slotsOfValue ↔ id ∈ slots) := by
    rw [slotsFrom_built h hplain, declared_built h]
    simp only [Except.ok.injEq, exists_eq_left']
    by_cases hnil : (body.map Prod.snd).flatMap slotsOfValue = []
    · rw [if_pos hnil]
      by_cases hslots : slots = []
      · rw [if_pos hslots]
        refine iff_of_false ?_ (fun hne => hne.1 hslots)
        rw [hslots]
        exact fun hall => List.not_mem_nil ((hall "s1").1 List.mem_cons_self)
      · rw [if_neg hslots]
        exact ⟨fun _ => ⟨hslots, .inl hnil⟩, fun _ _ => Iff.rfl⟩
    · rw [if_neg hnil]
      simp only [mem_sorted, List.mem_dedup]
      refine ⟨fun hall => ⟨?_, .inr hall⟩, fun hall => hall.2.resolve_left hnil⟩
      rintro rfl
      obtain ⟨id, hid⟩ := List.exists_mem_of_ne_nil _ hnil
      exact List.not_mem_nil ((hall id).1 hid)
  constructor
  · intro hagrees
    obtain ⟨hne, hread⟩ := hserver.1 hagrees.server
    have hexact := hagrees.exact
    have hgate := hagrees.gate
    rw [declared_built h] at hexact hgate
    rw [drawn_built h] at hexact
    exact ⟨hne, hexact, hread, hgate⟩
  · rintro ⟨hne, hexact, hread, hgate⟩
    refine ⟨?_, ?_, hserver.2 ⟨hne, hread⟩, ?_⟩
    · rw [declared_built h]
      exact hnodup
    · rw [declared_built h, drawn_built h]
      exact hexact
    · rw [declared_built h]
      exact hgate

theorem fits_built {named : List String} (h : (body.map Prod.fst ++ ["slots"]).Nodup)
    (hplain : ∀ id ∈ slots, markers id.toList = []) (hnodup : slots.Nodup)
    (hmem : ∀ id, id ∈ slots ↔ id ∈ named)
    (hfound : ∀ id ∈ (body.map Prod.snd).flatMap slotsOfValue, id ∈ blanksInMembers body)
    (hmarkers : ∀ id ∈ payloadMarkers (built body slots), id ∈ blanksInMembers body) :
    Agrees (built body slots) ↔ named ≠ [] ∧ (∀ id ∈ named, id ∈ blanksInMembers body) ∧
      (∀ id ∈ blanksInMembers body, id ∈ named) ∧
      ((body.map Prod.snd).flatMap slotsOfValue = [] ∨
        ∀ id ∈ named, id ∈ (body.map Prod.snd).flatMap slotsOfValue) ∧
      (payloadMarkers (built body slots) = [] ∨
        ∀ id ∈ named, id ∈ payloadMarkers (built body slots)) := by
  have hne : slots ≠ [] ↔ named ≠ [] := by
    rw [not_iff_not, List.eq_nil_iff_forall_not_mem, List.eq_nil_iff_forall_not_mem]
    exact forall_congr' (fun id => not_congr (hmem id))
  rw [agrees_built h hplain hnodup, hne]
  constructor
  · rintro ⟨hnamed, hexact, hserver, hgate⟩
    exact ⟨hnamed, fun id hid => (hexact id).1 ((hmem id).2 hid),
      fun id hid => (hmem id).1 ((hexact id).2 hid),
      hserver.imp_right (fun hall id hid => (hall id).2 ((hmem id).2 hid)),
      hgate.imp_right (fun hall id hid => (hall id).2 ((hmem id).2 hid))⟩
  · rintro ⟨hnamed, hdrawn, hback, hserver, hgate⟩
    have hexact : ∀ id, id ∈ slots ↔ id ∈ blanksInMembers body := fun id =>
      ⟨fun hid => hdrawn id ((hmem id).1 hid), fun hid => (hmem id).2 (hback id hid)⟩
    exact ⟨hnamed, hexact,
      hserver.imp_right (fun hall id => ⟨fun hid => (hexact id).2 (hfound id hid),
        fun hid => hall id ((hmem id).1 hid)⟩),
      hgate.imp_right (fun hall id => ⟨fun hid => (hexact id).2 (hmarkers id hid),
        fun hid => hall id ((hmem id).1 hid)⟩)⟩

theorem get?_built (h : (body.map Prod.fst ++ ["slots"]).Nodup) (key : String) :
    (built body slots).get? key =
      ((body ++ [("slots", slotList slots)]).find? (fun e => e.1 = key)).map Prod.snd := by
  unfold Dict.get?
  rw [entries_built h]

/-! ## Blanks of the parts -/

theorem blanksInList_eq (es : List Json) : blanksInList es = es.flatMap blanksIn := by
  induction es with
  | nil => rfl
  | cons e es ih =>
    rw [List.flatMap_cons, ← ih]
    rfl

theorem markersInList_eq (es : List Json) : markersInList es = es.flatMap markersIn := by
  induction es with
  | nil => rfl
  | cons e es ih =>
    rw [List.flatMap_cons, ← ih]
    rfl

theorem slotsOfEntry_obj {ms : List (String × Json)} (h : "key" ∉ ms.map Prod.fst) :
    ContentDrafts.slotsOfEntry (.obj ms) = [] := by
  have hnone : (dictOf ms).get? "key" = none := Dict.get?_ofList_of_not_mem h
  unfold ContentDrafts.slotsOfEntry
  dsimp only
  rw [hnone]

theorem serverId_of_mem_markers (h : id ∈ markers cs) : serverId id = true := by
  induction cs with
  | nil => cases h
  | cons c cs ih =>
    cases hfound : markerAt (c :: cs) with
    | none =>
      rw [markers_cons_none hfound] at h
      exact ih h
    | some m =>
      rw [markers_cons_some hfound, List.mem_cons] at h
      rcases h with rfl | h
      · obtain ⟨ds, rest, hds, htext⟩ := exists_of_markerAt hfound
        rw [htext, markerAt_marker hds] at hfound
        cases hfound
        exact serverId_iff.2 ⟨ds, hds, rfl⟩
      · exact ih h

theorem markers_slotId (h : id ∈ ids cs) : markers id.toList = [] := by
  obtain ⟨ds, rfl⟩ := exists_slotId h
  have hplain : '\x7b' ∉ (slotId ds).toList := by
    unfold slotId
    rw [String.toList_ofList, List.mem_cons]
    rintro (hs | hdigit)
    · cases hs
    · exact (not_brace_numberText hdigit).1 rfl
  have hskip := markers_skip hplain []
  rwa [List.append_nil] at hskip

theorem markers_slotsInLines {lines : List (List Char)} :
    ∀ id ∈ slotsInLines lines, markers id.toList = [] := by
  intro id hid
  rw [mem_slotsInLines, List.mem_flatMap] at hid
  obtain ⟨cs, _, hid⟩ := hid
  exact markers_slotId hid

theorem markers_rewritten (cs : List Char) :
    markers (normaliseMarkers (trim cs)) = (ids cs).filter serverId := by
  rw [markers_normaliseMarkers, ids_trim]

theorem trim_of_not_written (h : written cs = false) : trim cs = [] := by
  unfold written at h
  simpa using h

theorem ids_of_not_written (h : written cs = false) : ids cs = [] := by
  rw [← ids_trim, trim_of_not_written h, ids_nil]

theorem flatMap_filter_of_nil {α β : Type} {p : α → Bool} {f : α → List β} {as : List α}
    (h : ∀ a ∈ as, p a = false → f a = []) : (as.filter p).flatMap f = as.flatMap f := by
  induction as with
  | nil => rfl
  | cons a as ih =>
    have hrest := ih (fun a ha => h a (List.mem_cons_of_mem _ ha))
    cases hp : p a with
    | true => rw [List.filter_cons_of_pos hp, List.flatMap_cons, List.flatMap_cons, hrest]
    | false =>
      rw [List.filter_cons_of_neg (by simp [hp]), List.flatMap_cons, hrest,
        h a List.mem_cons_self hp, List.nil_append]

/-! ## One passage of prose -/

theorem prose_nodup (field : ProseField) (v : Json) :
    (([(field.name, v)] : List (String × Json)).map Prod.fst ++ ["slots"]).Nodup := by
  cases field <;> simp [ProseField.name]

theorem payloadMarkers_prose (field : ProseField) (slots : List String) :
    payloadMarkers (built [(field.name, jsonText cs)] slots) = markers cs := by
  unfold payloadMarkers getD
  simp only [get?_built (prose_nodup field _)]
  cases field <;> simp [ProseField.name, textFields, jsonText, markersIn]

theorem blankText_iff (field : ProseField) (text : List Char) :
    Agrees (blankText field text) ↔ Readable [text] := by
  have hmem : ∀ id, id ∈ slotsInText (trim text) ↔ id ∈ [text].flatMap ids := by
    intro id
    rw [mem_slotsInText, ids_trim, List.flatMap_singleton]
  have hplain : ∀ id ∈ slotsInText (trim text), markers id.toList = [] := by
    intro id hid
    exact markers_slotId (mem_slotsInText.1 hid)
  have hfound : ([(field.name, jsonText (normaliseMarkers (trim text)))].map Prod.snd).flatMap
      slotsOfValue = ([text].flatMap ids).filter serverId := by
    rw [List.flatMap_singleton, ← markers_rewritten]
    simp [slotsOfValue, jsonText]
  have hdrawn : blanksInMembers [(field.name, jsonText (normaliseMarkers (trim text)))] =
      ([text].flatMap ids).filter serverId := by
    rw [List.flatMap_singleton, ← markers_rewritten]
    cases field <;> simp [blanksInMembers, jsonText, ProseField.name]
  have hgate : payloadMarkers (built [(field.name, jsonText (normaliseMarkers (trim text)))]
      (slotsInText (trim text))) = ([text].flatMap ids).filter serverId := by
    rw [payloadMarkers_prose, markers_rewritten, List.flatMap_singleton]
  have hnodup : (slotsInText (trim text)).Nodup := nodup_firstSeen List.nodup_nil
  have hfits := fits_built (prose_nodup field _) hplain hnodup hmem
    (fun id hid => by rw [hdrawn]; rwa [hfound] at hid)
    (fun id hid => by rw [hdrawn]; rwa [hgate] at hid)
  rw [hfound, hdrawn, hgate] at hfits
  refine hfits.trans ⟨fun h => ⟨h.1, fun id hid => (List.mem_filter.1 (h.2.1 id hid)).2⟩, ?_⟩
  intro h
  have hall : ∀ id ∈ [text].flatMap ids, id ∈ ([text].flatMap ids).filter serverId := fun id hid =>
    List.mem_filter.2 ⟨hid, h.digits id hid⟩
  exact ⟨h.some, hall, fun id hid => (List.mem_filter.1 hid).1, .inr hall, .inr hall⟩

/-! ## Lists of parts -/

inductive Container : String → Prop where
  | steps : Container "steps"
  | blocks : Container "blocks"
  | fields : Container "fields"

variable {key : String} {parts : List Json} {lines : List (List Char)}

theorem container_nodup (h : Container key) (v : Json) :
    (([(key, v)] : List (String × Json)).map Prod.fst ++ ["slots"]).Nodup := by
  cases h <;> simp

theorem payloadMarkers_container (h : Container key) (slots : List String) :
    payloadMarkers (built [(key, .arr parts)] slots) = parts.flatMap markersIn := by
  unfold payloadMarkers getD
  simp only [get?_built (container_nodup h _)]
  cases h <;> simp [textFields, markersIn, markersInList_eq]

theorem blanksInMembers_container (h : Container key) :
    blanksInMembers [(key, .arr parts)] = parts.flatMap blanksIn := by
  cases h <;> simp [blanksInMembers, blanksIn, blanksInList_eq]

theorem container_fits (h : Container key)
    (hkeys : ∀ part ∈ parts, ContentDrafts.slotsOfEntry part = [])
    (hmarkers : ∀ part ∈ parts, ∀ id ∈ markersIn part, id ∈ blanksIn part) :
    Agrees (built [(key, .arr parts)] (slotsInLines lines)) ↔ lines.flatMap ids ≠ [] ∧
      (∀ id ∈ lines.flatMap ids, id ∈ parts.flatMap blanksIn) ∧
      (∀ id ∈ parts.flatMap blanksIn, id ∈ lines.flatMap ids) ∧
      (parts.flatMap markersIn = [] ∨ ∀ id ∈ lines.flatMap ids, id ∈ parts.flatMap markersIn) := by
  have hfound : ([(key, Json.arr parts)].map Prod.snd).flatMap slotsOfValue = [] := by
    simpa [slotsOfValue] using hkeys
  have hread : ∀ id ∈ payloadMarkers (built [(key, .arr parts)] (slotsInLines lines)),
      id ∈ blanksInMembers [(key, .arr parts)] := by
    intro id hid
    rw [payloadMarkers_container h, List.mem_flatMap] at hid
    obtain ⟨part, hpart, hid⟩ := hid
    rw [blanksInMembers_container h, List.mem_flatMap]
    exact ⟨part, hpart, hmarkers part hpart id hid⟩
  have hfits := fits_built (container_nodup h _) markers_slotsInLines (nodup_slotsInLines lines)
    (fun id => mem_slotsInLines) (fun id hid => by rw [hfound] at hid; cases hid) hread
  rw [hfound, payloadMarkers_container h, blanksInMembers_container h] at hfits
  simpa using hfits

theorem container_marked (h : Container key)
    (hkeys : ∀ part ∈ parts, ContentDrafts.slotsOfEntry part = [])
    (hsame : ∀ part ∈ parts, blanksIn part = markersIn part) :
    Agrees (built [(key, .arr parts)] (slotsInLines lines)) ↔ lines.flatMap ids ≠ [] ∧
      (∀ id ∈ lines.flatMap ids, id ∈ parts.flatMap markersIn) ∧
      (∀ id ∈ parts.flatMap markersIn, id ∈ lines.flatMap ids) := by
  have hmarkers : ∀ part ∈ parts, ∀ id ∈ markersIn part, id ∈ blanksIn part := by
    intro part hpart id hid
    rwa [hsame part hpart]
  rw [container_fits h hkeys hmarkers, List.flatMap_congr hsame]
  exact ⟨fun hall => ⟨hall.1, hall.2.1, hall.2.2.1⟩,
    fun hall => ⟨hall.1, hall.2.1, hall.2.2, .inr hall.2.1⟩⟩

/-! ## Notes -/

theorem markersIn_note (block : NoteBlock) :
    markersIn block.json = (ids block.text).filter serverId := by
  have hkind : markers block.kind.name.toList = [] := by cases block.kind <;> decide
  have htext := markers_rewritten block.text
  simp [NoteBlock.json, markersIn, markersInMembers, jsonText, hkind, htext]

theorem blanksIn_note (block : NoteBlock) : blanksIn block.json = markersIn block.json := by
  simp [NoteBlock.json, markersIn, markersInMembers, blanksIn, blanksInMembers, jsonText]

theorem markersIn_notes (blocks : List NoteBlock) :
    ((blocks.filter (written ·.text)).map NoteBlock.json).flatMap markersIn =
      ((blocks.map NoteBlock.text).flatMap ids).filter serverId := by
  have hdropped : ∀ block ∈ blocks, written block.text = false →
      (ids block.text).filter serverId = [] := by
    intro block _ hblank
    rw [ids_of_not_written hblank, List.filter_nil]
  simp only [List.flatMap_map, markersIn_note]
  rw [flatMap_filter_of_nil hdropped, List.filter_flatMap]

theorem ids_kept {α : Type} (line : α → List Char) {p : α → Bool} {as : List α}
    (h : ∀ a ∈ as, p a = false → written (line a) = false) :
    ((as.filter p).map line).flatMap ids = (as.map line).flatMap ids := by
  rw [List.flatMap_map, List.flatMap_map]
  exact flatMap_filter_of_nil (fun a ha hp => ids_of_not_written (h a ha hp))

theorem noteBlocks_iff (blocks : List NoteBlock) :
    Agrees (noteBlocks blocks) ↔ Readable (blocks.map NoteBlock.text) := by
  have hkeys : ∀ part ∈ (blocks.filter (written ·.text)).map NoteBlock.json,
      ContentDrafts.slotsOfEntry part = [] := by
    intro part hpart
    obtain ⟨block, _, rfl⟩ := List.mem_map.1 hpart
    exact slotsOfEntry_obj (by simp)
  have hsame : ∀ part ∈ (blocks.filter (written ·.text)).map NoteBlock.json,
      blanksIn part = markersIn part := by
    intro part hpart
    obtain ⟨block, _, rfl⟩ := List.mem_map.1 hpart
    exact blanksIn_note block
  refine (container_marked .blocks hkeys hsame).trans ?_
  rw [markersIn_notes, ids_kept NoteBlock.text (fun _ _ h => h)]
  constructor
  · rintro ⟨hsome, hall, _⟩
    exact ⟨hsome, fun id hid => (List.mem_filter.1 (hall id hid)).2⟩
  · intro h
    exact ⟨h.some, fun id hid => List.mem_filter.2 ⟨hid, h.digits id hid⟩,
      fun id hid => (List.mem_filter.1 hid).1⟩

/-! ## Flow charts -/

theorem asTyped_branch (branch : Option (List Char)) :
    markers (trim (branch.getD [])) = asTyped branch.toList := by
  cases branch with
  | none => rfl
  | some cs => simp [asTyped]

theorem markersIn_step (step : FlowStep) : markersIn step.json =
    (ids step.text).filter serverId ++ asTyped step.branch.toList := by
  have htext := markers_rewritten step.text
  rw [← asTyped_branch]
  unfold FlowStep.json
  dsimp only
  split
  · simp [markersIn, markersInMembers, jsonText, htext]
  · next hnone =>
    rw [not_not.1 hnone]
    simp [markersIn, markersInMembers, jsonText, htext, markers]

theorem blanksIn_step (step : FlowStep) : blanksIn step.json = markersIn step.json := by
  unfold FlowStep.json
  dsimp only
  split <;> simp [markersIn, markersInMembers, blanksIn, blanksInMembers, jsonText]

theorem slotsOfEntry_step (step : FlowStep) : ContentDrafts.slotsOfEntry step.json = [] := by
  unfold FlowStep.json
  dsimp only
  split <;> exact slotsOfEntry_obj (by simp)

theorem mem_steps {steps : List FlowStep} :
    id ∈ ((steps.filter (written ·.text)).map FlowStep.json).flatMap markersIn ↔
      id ∈ ((steps.map FlowStep.text).flatMap ids).filter serverId ∨
        ∃ step ∈ steps, written step.text = true ∧ id ∈ asTyped step.branch.toList := by
  rw [List.flatMap_map, List.mem_flatMap]
  simp only [List.mem_filter, markersIn_step, List.mem_append]
  constructor
  · rintro ⟨step, ⟨hstep, hkept⟩, ⟨htext, hserver⟩ | hbranch⟩
    · exact .inl ⟨List.mem_flatMap.2 ⟨_, List.mem_map_of_mem hstep, htext⟩, hserver⟩
    · exact .inr ⟨step, hstep, hkept, hbranch⟩
  · rintro (⟨htext, hserver⟩ | ⟨step, hstep, hkept, hbranch⟩)
    · obtain ⟨cs, hcs, hid⟩ := List.mem_flatMap.1 htext
      obtain ⟨step, hstep, rfl⟩ := List.mem_map.1 hcs
      have hkept : written step.text = true := by
        by_contra hblank
        rw [ids_of_not_written (by simpa using hblank)] at hid
        cases hid
      exact ⟨step, ⟨hstep, hkept⟩, .inl ⟨hid, hserver⟩⟩
    · exact ⟨step, ⟨hstep, hkept⟩, .inr hbranch⟩

theorem flowSteps_iff (steps : List FlowStep) :
    Agrees (flowSteps steps) ↔ BranchesFit steps := by
  have hkeys : ∀ part ∈ (steps.filter (written ·.text)).map FlowStep.json,
      ContentDrafts.slotsOfEntry part = [] := by
    intro part hpart
    obtain ⟨step, _, rfl⟩ := List.mem_map.1 hpart
    exact slotsOfEntry_step step
  have hsame : ∀ part ∈ (steps.filter (written ·.text)).map FlowStep.json,
      blanksIn part = markersIn part := by
    intro part hpart
    obtain ⟨step, _, rfl⟩ := List.mem_map.1 hpart
    exact blanksIn_step step
  refine (container_marked .steps hkeys hsame).trans ?_
  rw [ids_kept FlowStep.text (fun _ _ h => h)]
  simp only [mem_steps]
  constructor
  · rintro ⟨hsome, hall, hback⟩
    refine ⟨⟨hsome, fun id hid => ?_⟩, fun step hstep hkept id hid =>
      hback id (.inr ⟨step, hstep, hkept, hid⟩)⟩
    rcases hall id hid with htext | ⟨step, _, _, hbranch⟩
    · exact (List.mem_filter.1 htext).2
    · unfold asTyped at hbranch
      obtain ⟨cs, _, hcs⟩ := List.mem_flatMap.1 hbranch
      exact serverId_of_mem_markers hcs
  · intro h
    refine ⟨h.texts.some, fun id hid => .inl (List.mem_filter.2 ⟨hid, h.texts.digits id hid⟩), ?_⟩
    rintro id (htext | ⟨step, hstep, hkept, hbranch⟩)
    · exact (List.mem_filter.1 htext).1
    · exact h.branches step hstep hkept id hbranch

/-! ## Blanks that a part carries -/

theorem carried_eq (lines : List (List Char)) :
    carried lines = lines.flatMap (fun cs => carried [cs]) := by
  unfold carried
  induction lines with
  | nil => rfl
  | cons cs lines ih =>
    rw [List.flatMap_cons, ← ih, ← List.flatMap_append, ← List.filter_append]
    rfl

theorem inline_eq (lines : List (List Char)) :
    inline lines = lines.flatMap (fun cs => inline [cs]) := by
  unfold inline
  induction lines with
  | nil => rfl
  | cons cs lines ih =>
    rw [List.flatMap_cons, ← ih, ← List.filter_append, ← List.flatMap_append, ← List.filter_append]
    rfl

theorem carried_of_onlyMarker (h : onlyMarker (trim cs) = true) : carried [cs] = ids cs := by
  simp [carried, h]

theorem carried_of_not (h : onlyMarker (trim cs) = false) : carried [cs] = [] := by
  simp [carried, h]

theorem inline_of_onlyMarker (h : onlyMarker (trim cs) = true) : inline [cs] = [] := by
  simp [inline, h]

theorem inline_of_not (h : onlyMarker (trim cs) = false) :
    inline [cs] = (ids cs).filter serverId := by
  simp [inline, h]

theorem carried_blank (h : written cs = false) : carried [cs] = [] := by
  unfold carried
  rw [List.flatMap_eq_nil_iff]
  intro cs' hcs'
  rw [List.mem_singleton.1 (List.mem_filter.1 hcs').1]
  exact ids_of_not_written h

theorem inline_blank (h : written cs = false) : inline [cs] = [] := by
  unfold inline
  rw [List.filter_eq_nil_iff]
  intro id hid
  obtain ⟨cs', hcs', hid⟩ := List.mem_flatMap.1 hid
  rw [List.mem_singleton.1 (List.mem_filter.1 hcs').1, ids_of_not_written h] at hid
  cases hid

theorem head_slotsInText (h : onlyMarker (trim cs) = true) :
    ∃ id, ids cs = [id] ∧ (slotsInText (trim cs)).head? = some id := by
  obtain ⟨id, hid⟩ := ids_of_onlyMarker h
  refine ⟨id, by rw [← ids_trim, hid], ?_⟩
  unfold slotsInText
  rw [hid]
  rfl

/-! ## Forms -/

theorem json_carried {row : FormRow} (h : onlyMarker (trim row.value) = true) :
    ∃ id, ids row.value = [id] ∧
      row.json = .obj [("label", jsonText (trim row.label)), ("slot", .str id)] := by
  obtain ⟨id, hid, hhead⟩ := head_slotsInText h
  refine ⟨id, hid, ?_⟩
  unfold FormRow.json
  dsimp only
  rw [hhead, h]

theorem json_inline {row : FormRow} (h : onlyMarker (trim row.value) = false) :
    row.json = if trim row.value ≠ [] then
        .obj [("label", jsonText (trim row.label)),
          ("value", jsonText (normaliseMarkers (trim row.value)))]
      else .obj [("label", jsonText (trim row.label))] := by
  unfold FormRow.json
  dsimp only
  rw [h]
  cases (slotsInText (trim row.value)).head? <;> rfl

theorem markersIn_row (row : FormRow) :
    markersIn row.json = markers (trim row.label) ++ inline [row.value] := by
  cases h : onlyMarker (trim row.value) with
  | true =>
    obtain ⟨id, hid, hjson⟩ := json_carried h
    have hplain : markers id.toList = [] := markers_slotId (hid ▸ List.mem_cons_self)
    rw [hjson, inline_of_onlyMarker h]
    simp [markersIn, markersInMembers, jsonText, hplain]
  | false =>
    have htext := markers_rewritten row.value
    rw [json_inline h, inline_of_not h]
    split
    · simp [markersIn, markersInMembers, jsonText, htext]
    · next hempty =>
      rw [← htext, not_not.1 hempty]
      simp [markersIn, markersInMembers, jsonText, normaliseMarkers, scan, pieces, markers]

theorem blanksIn_row (row : FormRow) : blanksIn row.json =
    markers (trim row.label) ++ (carried [row.value] ++ inline [row.value]) := by
  cases h : onlyMarker (trim row.value) with
  | true =>
    obtain ⟨id, hid, hjson⟩ := json_carried h
    rw [hjson, inline_of_onlyMarker h, carried_of_onlyMarker h, hid]
    simp [blanksIn, blanksInMembers, jsonText]
  | false =>
    have htext := markers_rewritten row.value
    rw [json_inline h, inline_of_not h, carried_of_not h]
    split
    · simp [blanksIn, blanksInMembers, jsonText, htext]
    · next hempty =>
      rw [← htext, not_not.1 hempty]
      simp [blanksIn, blanksInMembers, jsonText, normaliseMarkers, scan, pieces, markers]

theorem slotsOfEntry_row (row : FormRow) : ContentDrafts.slotsOfEntry row.json = [] := by
  cases h : onlyMarker (trim row.value) with
  | true =>
    obtain ⟨id, _, hjson⟩ := json_carried h
    rw [hjson]
    exact slotsOfEntry_obj (by simp)
  | false =>
    rw [json_inline h]
    split <;> exact slotsOfEntry_obj (by simp)

theorem row_blank {row : FormRow} (h : (written row.label || written row.value) = false) :
    markers (trim row.label) = [] ∧ written row.value = false := by
  rw [Bool.or_eq_false_iff] at h
  refine ⟨?_, h.2⟩
  rw [trim_of_not_written h.1]
  rfl

theorem markersIn_rows (rows : List FormRow) (id : String) :
    id ∈ ((rows.filter (fun row => written row.label || written row.value)).map
        FormRow.json).flatMap markersIn ↔
      id ∈ inline (rows.map FormRow.value) ++ asTyped (rows.map FormRow.label) := by
  have hdropped : ∀ row ∈ rows, (written row.label || written row.value) = false →
      markers (trim row.label) ++ inline [row.value] = [] := by
    intro row _ h
    rw [(row_blank h).1, inline_blank (row_blank h).2]
    rfl
  rw [List.flatMap_map]
  simp only [markersIn_row]
  rw [flatMap_filter_of_nil hdropped, List.mem_append, inline_eq, asTyped, List.flatMap_map,
    List.flatMap_map]
  simp only [List.mem_flatMap, List.mem_append, and_or_left, exists_or]
  exact or_comm

theorem blanksIn_rows (rows : List FormRow) (id : String) :
    id ∈ ((rows.filter (fun row => written row.label || written row.value)).map
        FormRow.json).flatMap blanksIn ↔
      id ∈ asTyped (rows.map FormRow.label) ∨ id ∈ carried (rows.map FormRow.value) ∨
        id ∈ inline (rows.map FormRow.value) := by
  have hdropped : ∀ row ∈ rows, (written row.label || written row.value) = false →
      markers (trim row.label) ++ (carried [row.value] ++ inline [row.value]) = [] := by
    intro row _ h
    rw [(row_blank h).1, inline_blank (row_blank h).2, carried_blank (row_blank h).2]
    rfl
  rw [List.flatMap_map]
  simp only [blanksIn_row]
  rw [flatMap_filter_of_nil hdropped, inline_eq, carried_eq, asTyped, List.flatMap_map,
    List.flatMap_map, List.flatMap_map]
  simp only [List.mem_flatMap, List.mem_append, and_or_left, exists_or]

theorem mem_of_carried (h : id ∈ carried lines) : id ∈ lines.flatMap ids := by
  obtain ⟨cs, hcs, hid⟩ := List.mem_flatMap.1 h
  exact List.mem_flatMap.2 ⟨cs, (List.mem_filter.1 hcs).1, hid⟩

theorem mem_of_inline (h : id ∈ inline lines) : id ∈ lines.flatMap ids := by
  obtain ⟨cs, hcs, hid⟩ := List.mem_flatMap.1 (List.mem_filter.1 h).1
  exact List.mem_flatMap.2 ⟨cs, (List.mem_filter.1 hcs).1, hid⟩

theorem eq_nil_congr {as bs : List String} (h : ∀ id, id ∈ as ↔ id ∈ bs) : as = [] ↔ bs = [] := by
  rw [List.eq_nil_iff_forall_not_mem, List.eq_nil_iff_forall_not_mem]
  exact forall_congr' (fun id => not_congr (h id))

theorem formFields_iff (rows : List FormRow) : Agrees (formFields rows) ↔ FieldsFit rows := by
  have hkeys : ∀ part ∈ (rows.filter (fun row => written row.label || written row.value)).map
      FormRow.json, ContentDrafts.slotsOfEntry part = [] := by
    intro part hpart
    obtain ⟨row, _, rfl⟩ := List.mem_map.1 hpart
    exact slotsOfEntry_row row
  have hmarkers : ∀ part ∈ (rows.filter (fun row => written row.label || written row.value)).map
      FormRow.json, ∀ id ∈ markersIn part, id ∈ blanksIn part := by
    intro part hpart id hid
    obtain ⟨row, _, rfl⟩ := List.mem_map.1 hpart
    rw [markersIn_row, List.mem_append] at hid
    rw [blanksIn_row, List.mem_append, List.mem_append]
    exact hid.imp_right .inr
  have hkept : ∀ row ∈ rows, (written row.label || written row.value) = false →
      written row.value = false := fun row _ h => (row_blank h).2
  refine (container_fits .fields hkeys hmarkers).trans ?_
  rw [ids_kept FormRow.value hkept, eq_nil_congr (markersIn_rows rows)]
  simp only [markersIn_rows, blanksIn_rows]
  constructor
  · rintro ⟨hsome, hshown, hback, hgate⟩
    refine ⟨hsome, fun id hid => ?_, fun id hid => hback id (.inl hid), hgate⟩
    rcases hshown id hid with hlabel | hcarried | hinline
    · exact .inr (.inr hlabel)
    · exact .inl hcarried
    · exact .inr (.inl hinline)
  · intro h
    refine ⟨h.some, fun id hid => ?_, ?_, h.gate⟩
    · rcases h.shown id hid with hcarried | hinline | hlabel
      · exact .inr (.inl hcarried)
      · exact .inr (.inr hinline)
      · exact .inl hlabel
    · rintro id (hlabel | hcarried | hinline)
      · exact h.labels id hlabel
      · exact mem_of_carried hcarried
      · exact mem_of_inline hinline

/-! ## Tables -/

theorem markersIn_cell (cell : List Char) : markersIn (cellJson cell) = inline [cell] := by
  unfold cellJson
  dsimp only
  cases h : onlyMarker (trim cell) with
  | true =>
    obtain ⟨id, hid, hhead⟩ := head_slotsInText h
    have hplain : markers id.toList = [] := markers_slotId (hid ▸ List.mem_cons_self)
    have hkind : markers ['b', 'l', 'a', 'n', 'k'] = [] := by decide
    rw [if_pos rfl, hhead, inline_of_onlyMarker h]
    simp [markersIn, markersInMembers, hplain, hkind]
  | false =>
    have htext := markers_rewritten cell
    have hkind : markers ['t', 'e', 'x', 't'] = [] := by decide
    rw [if_neg (by decide), inline_of_not h]
    simp [markersIn, markersInMembers, jsonText, htext, hkind]

theorem blanksIn_cell (cell : List Char) :
    blanksIn (cellJson cell) = carried [cell] ++ inline [cell] := by
  unfold cellJson
  dsimp only
  cases h : onlyMarker (trim cell) with
  | true =>
    obtain ⟨id, hid, hhead⟩ := head_slotsInText h
    have hkind : markers ['b', 'l', 'a', 'n', 'k'] = [] := by decide
    rw [if_pos rfl, hhead, inline_of_onlyMarker h, carried_of_onlyMarker h, hid]
    simp [blanksIn, blanksInMembers, hkind]
  | false =>
    have htext := markers_rewritten cell
    have hkind : markers ['t', 'e', 'x', 't'] = [] := by decide
    rw [if_neg (by decide), inline_of_not h, carried_of_not h]
    simp [blanksIn, blanksInMembers, jsonText, htext, hkind]

variable {columns : List (List Char)} {cells : List (List (List Char))}

theorem flatMap_rows {β : Type} {f : List Char → List β} (w : ℕ)
    (h : ∀ cell, written cell = false → f cell = []) :
    (cells.filter (fun row => row.any written)).flatMap (fun row => (row.take w).flatMap f) =
      (cells.flatMap (List.take w)).flatMap f := by
  rw [List.flatMap_assoc]
  refine flatMap_filter_of_nil (fun row _ hblank => ?_)
  rw [List.flatMap_eq_nil_iff]
  intro cell hcell
  refine h cell ?_
  have hall := List.any_eq_false.1 hblank cell (List.mem_of_mem_take hcell)
  simpa using hall

def rowsJson (columns : List (List Char)) (cells : List (List (List Char))) : List Json :=
  (cells.filter (fun row => row.any written)).map
    (fun row => .arr ((row.take (width columns)).map cellJson))

theorem markersIn_rowsJson :
    (rowsJson columns cells).flatMap markersIn = inline (shownCells columns cells) := by
  unfold rowsJson
  rw [inline_eq, shownCells, ← flatMap_rows _ (fun _ h => inline_blank h), List.flatMap_map]
  simp only [markersIn, markersInList_eq, List.flatMap_map, markersIn_cell]

theorem blanksIn_rowsJson : id ∈ (rowsJson columns cells).flatMap blanksIn ↔
    id ∈ carried (shownCells columns cells) ∨ id ∈ inline (shownCells columns cells) := by
  have hblank : ∀ cell, written cell = false → carried [cell] ++ inline [cell] = [] := by
    intro cell h
    rw [carried_blank h, inline_blank h]
    rfl
  have hrows : (rowsJson columns cells).flatMap blanksIn =
      (shownCells columns cells).flatMap (fun cell => carried [cell] ++ inline [cell]) := by
    unfold rowsJson
    rw [shownCells, ← flatMap_rows _ hblank, List.flatMap_map]
    simp only [blanksIn, blanksInList_eq, List.flatMap_map, blanksIn_cell]
  rw [hrows, carried_eq, inline_eq]
  simp only [List.mem_flatMap, List.mem_append, and_or_left, exists_or]

theorem markers_columns : (keptColumns columns).flatMap markers = asTyped columns := by
  unfold keptColumns asTyped
  rw [flatMap_filter_of_nil, List.flatMap_map]
  intro cs _ hempty
  have hnil : cs = [] := by simpa using hempty
  rw [hnil]
  rfl

theorem slotsOfValue_rowsJson : slotsOfValue (.arr (rowsJson columns cells)) = [] := by
  unfold slotsOfValue
  dsimp only
  rw [List.flatMap_eq_nil_iff]
  intro row hrow
  obtain ⟨cells, _, rfl⟩ := List.mem_map.1 hrow
  rfl

theorem slotsOfValue_columns :
    slotsOfValue (.arr ((keptColumns columns).map jsonText)) = asTyped columns := by
  rw [← markers_columns]
  simp [slotsOfValue, List.flatMap_map, ContentDrafts.slotsOfEntry, jsonText]

theorem ids_cells : (cells.filter (fun row => row.any written)).flatten.flatMap ids =
    cells.flatten.flatMap ids := by
  rw [List.flatten_eq_flatMap, List.flatten_eq_flatMap, List.flatMap_assoc, List.flatMap_assoc]
  refine flatMap_filter_of_nil (fun row _ hblank => ?_)
  rw [List.flatMap_eq_nil_iff]
  intro cell hcell
  have hall := List.any_eq_false.1 hblank cell hcell
  exact ids_of_not_written (by simpa using hall)

def tableBody (columns : List (List Char)) (cells : List (List (List Char))) :
    List (String × Json) :=
  [("columns", .arr ((keptColumns columns).map jsonText)), ("rows", .arr (rowsJson columns cells))]

theorem table_nodup : ((tableBody columns cells).map Prod.fst ++ ["slots"]).Nodup := by
  simp [tableBody]

theorem payloadMarkers_table (slots : List String) :
    payloadMarkers (built (tableBody columns cells) slots) =
      inline (shownCells columns cells) := by
  rw [← markersIn_rowsJson]
  unfold payloadMarkers getD
  simp only [get?_built table_nodup]
  simp [tableBody, textFields, markersIn, markersInList_eq]

theorem mem_table : id ∈ blanksInMembers (tableBody columns cells) ↔
    id ∈ asTyped columns ∨
      id ∈ carried (shownCells columns cells) ∨ id ∈ inline (shownCells columns cells) := by
  have hcolumns : blanksIn (.arr ((keptColumns columns).map jsonText)) = asTyped columns := by
    rw [← markers_columns]
    simp [blanksIn, blanksInList_eq, List.flatMap_map, jsonText]
  rw [← blanksIn_rowsJson, ← hcolumns]
  simp [tableBody, blanksInMembers, blanksIn, blanksInList_eq]

theorem tableGrid_iff (columns : List (List Char)) (cells : List (List (List Char))) :
    Agrees (tableGrid columns cells) ↔ CellsFit columns cells := by
  have hfound : ((tableBody columns cells).map Prod.snd).flatMap slotsOfValue =
      asTyped columns := by
    simp [tableBody, slotsOfValue_columns, slotsOfValue_rowsJson]
  have hmem : ∀ id, id ∈ slotsInLines (cells.filter (fun row => row.any written)).flatten ↔
      id ∈ cells.flatten.flatMap ids := by
    intro id
    rw [mem_slotsInLines, ids_cells]
  have hfits := fits_built table_nodup markers_slotsInLines
    (nodup_slotsInLines (cells.filter (fun row => row.any written)).flatten) hmem
    (fun id hid => mem_table.2 (.inl (hfound ▸ hid)))
    (fun id hid => mem_table.2 (.inr (.inr (payloadMarkers_table _ ▸ hid))))
  rw [hfound, payloadMarkers_table] at hfits
  simp only [mem_table] at hfits
  refine hfits.trans ⟨?_, ?_⟩
  · rintro ⟨hsome, hshown, hback, hserver, hgate⟩
    refine ⟨hsome, fun id hid => ?_, fun id hid => hback id (.inl hid), hserver, hgate⟩
    rcases hshown id hid with hheader | hcarried | hinline
    · exact .inr (.inr hheader)
    · exact .inl hcarried
    · exact .inr (.inl hinline)
  · intro h
    have hcells : ∀ id ∈ (shownCells columns cells).flatMap ids,
        id ∈ cells.flatten.flatMap ids := by
      intro id hid
      obtain ⟨cell, hcell, hid⟩ := List.mem_flatMap.1 hid
      obtain ⟨row, hrow, hcell⟩ := List.mem_flatMap.1 hcell
      exact List.mem_flatMap.2
        ⟨cell, List.mem_flatten.2 ⟨row, hrow, List.mem_of_mem_take hcell⟩, hid⟩
    refine ⟨h.some, fun id hid => ?_, ?_, h.server, h.gate⟩
    · rcases h.shown id hid with hcarried | hinline | hheader
      · exact .inr (.inl hcarried)
      · exact .inr (.inr hinline)
      · exact .inl hheader
    · rintro id (hheader | hcarried | hinline)
      · exact h.headers id hheader
      · exact hcells id (mem_of_carried hcarried)
      · exact hcells id (mem_of_inline hinline)

/-! ## Every builder -/

/-- For which inputs the list of slots is what the body draws and what the server reads. -/
theorem builders_agree_iff (field : ProseField) (text : List Char) (blocks : List NoteBlock)
    (steps : List FlowStep) (rows : List FormRow) (columns : List (List Char))
    (cells : List (List (List Char))) :
    (Agrees (blankText field text) ↔ Readable [text]) ∧
    (Agrees (noteBlocks blocks) ↔ Readable (blocks.map NoteBlock.text)) ∧
    (Agrees (flowSteps steps) ↔ BranchesFit steps) ∧
    (Agrees (formFields rows) ↔ FieldsFit rows) ∧
    (Agrees (tableGrid columns cells) ↔ CellsFit columns cells) :=
  ⟨blankText_iff field text, noteBlocks_iff blocks, flowSteps_iff steps, formFields_iff rows,
    tableGrid_iff columns cells⟩

/-- One column and a row of two cells: the second is cut off, and its blank is declared. -/
theorem cut_cell_declared :
    declared (tableGrid [['A']] [[['a'], marker ['1']]]) = ["s1"] ∧
    drawn (tableGrid [['A']] [[['a'], marker ['1']]]) = [] ∧
    ¬ (∀ columns cells, Agrees (tableGrid columns cells)) := by
  have hdeclared : declared (tableGrid [['A']] [[['a'], marker ['1']]]) = ["s1"] := by
    decide +kernel
  have hdrawn : drawn (tableGrid [['A']] [[['a'], marker ['1']]]) = [] := by
    decide +kernel
  refine ⟨hdeclared, hdrawn, fun h => ?_⟩
  have hexact := (h [['A']] [[['a'], marker ['1']]]).exact "s1"
  rw [hdeclared, hdrawn] at hexact
  exact List.not_mem_nil (hexact.1 List.mem_cons_self)

end IeltsHub.PayloadParts
