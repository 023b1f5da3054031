import IeltsHub.InsertionMap
import Mathlib.Algebra.BigOperators.Group.List.Basic
import Mathlib.Algebra.Order.Ring.Rat
import Mathlib.Data.List.Sort

set_option autoImplicit false

/-!
# Marked slots under the paper

`review/marking.ts`: the slots of a review gathered under the sections and questions of the paper.
-/
namespace IeltsHub.ReviewMarking
open InsertionMap

/-! ## What the server sends -/

/-- One marked slot; `rest` is what the screen shows of it. -/
structure Item (ρ : Type) where
  number : Option ℤ
  questionVersionXid : String
  slotKey : String
  verdict : String
  awarded : ℚ
  maxPoints : ℚ
  rest : ρ

structure Question where
  number : ℤ
  questionVersionXid : String
  slotKeys : Option (List String)

structure Group where
  questions : Option (List Question)

structure Passage where
  title : Option String

structure Section where
  position : ℤ
  skill : String
  title : Option String
  passage : Option Passage
  groups : Option (List Group)

structure MarkedQuestion (ρ : Type) where
  question : Option Question
  xid : String
  number : ℤ
  items : List (Item ρ)
  awarded : ℚ
  max : ℚ

structure MarkedSection (ρ : Type) where
  position : ℤ
  title : String
  skill : String
  questions : List (MarkedQuestion ρ)
  awarded : ℚ
  max : ℚ

structure Tally where
  awarded : ℚ
  max : ℚ
  right : ℕ
  of : ℕ

/-- What the runtime makes of a slot's number (`none` unless it is finite) and of two texts. -/
structure Runtime where
  toNumber : String → Option ℚ
  localeCompare : String → String → ℤ

section
variable {ρ : Type}

/-! ## Sums -/

/-- The loop of `tally`. -/
def Tally.add (t : Tally) (item : Item ρ) : Tally where
  awarded := t.awarded + item.awarded
  max := t.max + item.maxPoints
  right := if item.verdict = "correct" then t.right + 1 else t.right
  of := t.of

def tally (items : List (Item ρ)) : Tally :=
  { items.foldl Tally.add { awarded := 0, max := 0, right := 0, of := 0 } with of := items.length }

/-! ## The order of slots -/

def digitsOf (slotKey : String) : String :=
  .ofList (slotKey.toList.dropWhile (fun c => !c.isDigit))

def bySlot (rt : Runtime) (a b : Item ρ) : ℚ :=
  match rt.toNumber (digitsOf a.slotKey), rt.toNumber (digitsOf b.slotKey) with
  | some na, some nb => if na ≠ nb then na - nb else rt.localeCompare a.slotKey b.slotKey
  | _, _ => rt.localeCompare a.slotKey b.slotKey

def bySlotOrder (rt : Runtime) (items : List (Item ρ)) : List (Item ρ) :=
  items.insertionSort (fun a b => bySlot rt a b ≤ 0)

def MarkedQuestion.before (a b : MarkedQuestion ρ) : Prop := a.number ≤ b.number

instance MarkedQuestion.decidableBefore : DecidableRel (@MarkedQuestion.before ρ) := fun a b =>
  inferInstanceAs (Decidable (a.number ≤ b.number))

instance MarkedQuestion.totalBefore : Std.Total (@MarkedQuestion.before ρ) :=
  ⟨fun a b => le_total a.number b.number⟩

instance MarkedQuestion.transBefore : IsTrans (MarkedQuestion ρ) MarkedQuestion.before :=
  ⟨fun _ _ _ => le_trans⟩

def byNumber (questions : List (MarkedQuestion ρ)) : List (MarkedQuestion ρ) :=
  questions.insertionSort MarkedQuestion.before

/-! ## The join -/

abbrev ByXid (ρ : Type) := List (String × List (Item ρ))

def byXid (items : List (Item ρ)) : ByXid ρ := gather Item.questionVersionXid items

def Section.onPaper (s : Section) : List Question :=
  (s.groups.getD []).flatMap (fun g => g.questions.getD [])

def marked (rt : Runtime) (question : Option Question) (xid : String) (number : ℤ)
    (own : List (Item ρ)) : MarkedQuestion ρ where
  question := question
  xid := xid
  number := number
  items := bySlotOrder rt own
  awarded := (tally own).awarded
  max := (tally own).max

def markQuestion (rt : Runtime) (held : ByXid ρ) (q : Question) : Option (MarkedQuestion ρ) :=
  (get? held q.questionVersionXid).map (marked rt (some q) q.questionVersionXid q.number)

def collected (position : ℤ) (title skill : String) (questions : List (MarkedQuestion ρ)) :
    MarkedSection ρ where
  position := position
  title := title
  skill := skill
  questions := byNumber questions
  awarded := (tally ((byNumber questions).flatMap MarkedQuestion.items)).awarded
  max := (tally ((byNumber questions).flatMap MarkedQuestion.items)).max

def markSection (rt : Runtime) (held : ByXid ρ) (s : Section) : Option (MarkedSection ρ) :=
  let questions := s.onPaper.filterMap (markQuestion rt held)
  if questions.isEmpty then none
  else some (collected s.position
    ((s.title.or (s.passage.bind Passage.title)).getD s!"Part {s.position}") s.skill questions)

/-- The `placed` set after the loop. -/
def placed (held : ByXid ρ) (sections : List Section) : List String :=
  ((sections.flatMap Section.onPaper).map Question.questionVersionXid).filter
    (fun xid => (get? held xid).isSome)

def maxSafeInteger : ℤ := 2 ^ 53 - 1

def orphans (rt : Runtime) (held : ByXid ρ) (sections : List Section) : List (MarkedQuestion ρ) :=
  (held.filter (fun e => e.1 ∉ placed held sections)).map (fun e =>
    marked rt none e.1 ((e.2.head?.bind Item.number).getD 0) e.2)

def organise (rt : Runtime) (sections : List Section) (items : List (Item ρ)) :
    List (MarkedSection ρ) :=
  let held := byXid items
  let out := sections.filterMap (markSection rt held)
  let rest := orphans rt held sections
  if rest.isEmpty then out
  else out ++ [collected maxSafeInteger "Marked, but not on the paper" "" rest]

/-! ## Nothing lost -/

def paperXids (sections : List Section) : List String :=
  (sections.flatMap Section.onPaper).map Question.questionVersionXid

def MarkedSection.items (s : MarkedSection ρ) : List (Item ρ) :=
  s.questions.flatMap MarkedQuestion.items

/-- A question of the section, or of none of them, with slots of its own only. -/
def Belongs (question : Option Question → Prop) (q : MarkedQuestion ρ) : Prop :=
  question q.question ∧ ∀ item ∈ q.items, item.questionVersionXid = q.xid

/-- Every slot in one question of one section, and the sums of all of them. -/
structure Complete (sections : List Section) (items : List (Item ρ))
    (out : List (MarkedSection ρ)) : Prop where
  once : (out.flatMap MarkedSection.items).Perm items
  home : ∃ found trailing, out = found ++ trailing ∧ trailing.length ≤ 1 ∧
    (∀ s ∈ found, ∃ sec ∈ sections, s.position = sec.position ∧ s.skill = sec.skill ∧
      ∀ q ∈ s.questions, Belongs (fun question => ∃ p ∈ sec.onPaper, question = some p ∧
        q.xid = p.questionVersionXid ∧ q.number = p.number) q) ∧
    ∀ s ∈ trailing, s.title = "Marked, but not on the paper" ∧
      ∀ q ∈ s.questions, Belongs (fun question => question = none ∧
        q.xid ∉ paperXids sections) q
  awarded : (out.map MarkedSection.awarded).sum = (tally items).awarded
  max : (out.map MarkedSection.max).sum = (tally items).max
  ordered : ∀ s ∈ out, s.questions.Pairwise (fun a b => a.number ≤ b.number)

variable {rt : Runtime} {sections : List Section} {items : List (Item ρ)} {held : ByXid ρ}

theorem tally_foldl (items : List (Item ρ)) (t : Tally) :
    (items.foldl Tally.add t).awarded = t.awarded + (items.map Item.awarded).sum ∧
      (items.foldl Tally.add t).max = t.max + (items.map Item.maxPoints).sum := by
  induction items generalizing t with
  | nil => exact ⟨(add_zero _).symm, (add_zero _).symm⟩
  | cons item items ih =>
    obtain ⟨hawarded, hmax⟩ := ih (t.add item)
    rw [List.foldl_cons, hawarded, hmax, List.map_cons, List.map_cons, List.sum_cons,
      List.sum_cons, ← add_assoc, ← add_assoc]
    exact ⟨rfl, rfl⟩

theorem tally_awarded (items : List (Item ρ)) :
    (tally items).awarded = (items.map Item.awarded).sum :=
  (tally_foldl items _).1.trans (zero_add _)

theorem tally_max (items : List (Item ρ)) :
    (tally items).max = (items.map Item.maxPoints).sum :=
  (tally_foldl items _).2.trans (zero_add _)

theorem bySlotOrder_perm (rt : Runtime) (items : List (Item ρ)) :
    (bySlotOrder rt items).Perm items := List.perm_insertionSort _ _

theorem byNumber_perm (questions : List (MarkedQuestion ρ)) :
    (byNumber questions).Perm questions := List.perm_insertionSort _ _

theorem byNumber_ordered (questions : List (MarkedQuestion ρ)) :
    (byNumber questions).Pairwise (fun a b => a.number ≤ b.number) :=
  List.pairwise_insertionSort MarkedQuestion.before questions

theorem collected_items (position : ℤ) (title skill : String)
    (questions : List (MarkedQuestion ρ)) :
    (collected position title skill questions).items.Perm
      (questions.flatMap MarkedQuestion.items) :=
  (byNumber_perm questions).flatMap_right _

/-! ## Where the slots are -/

theorem markQuestion_items (rt : Runtime) (items : List (Item ρ)) (q : Question) :
    ((markQuestion rt (byXid items) q).toList.flatMap MarkedQuestion.items).Perm
      (own Item.questionVersionXid items q.questionVersionXid) := by
  unfold markQuestion byXid
  rw [get?_gather]
  split
  · rename_i hnil
    rw [hnil]
    rfl
  · rw [Option.map_some, Option.toList_some, List.flatMap_singleton]
    exact bySlotOrder_perm rt _

theorem filterMap_items (rt : Runtime) (items : List (Item ρ)) (qs : List Question) :
    ((qs.filterMap (markQuestion rt (byXid items))).flatMap MarkedQuestion.items).Perm
      ((qs.map Question.questionVersionXid).flatMap (own Item.questionVersionXid items)) := by
  induction qs with
  | nil => rfl
  | cons q qs ih =>
    have hsplit : (q :: qs).filterMap (markQuestion rt (byXid items)) =
        (markQuestion rt (byXid items) q).toList ++
          qs.filterMap (markQuestion rt (byXid items)) := by
      rw [List.filterMap_cons]
      cases markQuestion rt (byXid items) q <;> rfl
    rw [hsplit, List.flatMap_append, List.map_cons, List.flatMap_cons]
    exact (markQuestion_items rt items q).append ih

theorem markSection_items (rt : Runtime) (items : List (Item ρ)) (s : Section) :
    ((markSection rt (byXid items) s).toList.flatMap MarkedSection.items).Perm
      ((s.onPaper.map Question.questionVersionXid).flatMap
        (own Item.questionVersionXid items)) := by
  refine List.Perm.trans ?_ (filterMap_items rt items s.onPaper)
  unfold markSection
  dsimp only
  split
  · rename_i hempty
    rw [List.isEmpty_iff.1 hempty]
    rfl
  · rw [Option.toList_some, List.flatMap_singleton]
    exact collected_items _ _ _ _

theorem found_items (rt : Runtime) (items : List (Item ρ)) (sections : List Section) :
    ((sections.filterMap (markSection rt (byXid items))).flatMap MarkedSection.items).Perm
      ((paperXids sections).flatMap (own Item.questionVersionXid items)) := by
  induction sections with
  | nil => rfl
  | cons s sections ih =>
    have hsplit : (s :: sections).filterMap (markSection rt (byXid items)) =
        (markSection rt (byXid items) s).toList ++
          sections.filterMap (markSection rt (byXid items)) := by
      rw [List.filterMap_cons]
      cases markSection rt (byXid items) s <;> rfl
    have hxids : paperXids (s :: sections) =
        s.onPaper.map Question.questionVersionXid ++ paperXids sections := by
      unfold paperXids
      rw [List.flatMap_cons, List.map_append]
    rw [hsplit, hxids, List.flatMap_append, List.flatMap_append]
    exact (markSection_items rt items s).append ih

theorem mem_placed_iff {e : String × List (Item ρ)} (he : e ∈ held) :
    e.1 ∈ placed held sections ↔ e.1 ∈ paperXids sections := by
  unfold placed paperXids
  rw [List.mem_filter]
  exact and_iff_left (get?_isSome_of_mem he)

theorem orphans_items (rt : Runtime) (items : List (Item ρ)) (sections : List Section) :
    ((orphans rt (byXid items) sections).flatMap MarkedQuestion.items).Perm
      (items.filter (fun i => i.questionVersionXid ∉ paperXids sections)) := by
  have hsame : (byXid items).filter (fun e => e.1 ∉ placed (byXid items) sections) =
      (byXid items).filter (fun e => e.1 ∉ paperXids sections) :=
    List.filter_congr (fun e he => decide_eq_decide.2 (not_congr (mem_placed_iff he)))
  have hsorted : ∀ es : ByXid ρ, ((es.map (fun e =>
      marked rt none e.1 ((e.2.head?.bind Item.number).getD 0) e.2)).flatMap
        MarkedQuestion.items).Perm (es.flatMap Prod.snd) := by
    intro es
    induction es with
    | nil => rfl
    | cons e es ih =>
      rw [List.map_cons, List.flatMap_cons, List.flatMap_cons]
      exact (bySlotOrder_perm rt e.2).append ih
  unfold orphans
  rw [hsame]
  exact (hsorted _).trans (flatMap_gather (fun xid => xid ∉ paperXids sections) items)

theorem organise_eq (rt : Runtime) (sections : List Section) (items : List (Item ρ)) :
    organise rt sections items = sections.filterMap (markSection rt (byXid items)) ++
      if (orphans rt (byXid items) sections).isEmpty then []
      else [collected maxSafeInteger "Marked, but not on the paper" ""
        (orphans rt (byXid items) sections)] := by
  unfold organise
  dsimp only
  split
  · rw [List.append_nil]
  · rfl

theorem organise_items (rt : Runtime) (sections : List Section) (items : List (Item ρ)) :
    ((organise rt sections items).flatMap MarkedSection.items).Perm
      ((paperXids sections).flatMap (own Item.questionVersionXid items) ++
        items.filter (fun i => i.questionVersionXid ∉ paperXids sections)) := by
  rw [organise_eq, List.flatMap_append]
  refine (found_items rt items sections).append
    (List.Perm.trans ?_ (orphans_items rt items sections))
  split
  · rename_i hempty
    rw [List.isEmpty_iff.1 hempty]
    rfl
  · rw [List.flatMap_singleton]
    exact collected_items _ _ _ _

/-! ## What the sections say -/

theorem sum_sections {out : List (MarkedSection ρ)} {points : Item ρ → ℚ}
    {total : MarkedSection ρ → ℚ} (h : ∀ s ∈ out, total s = (s.items.map points).sum) :
    (out.map total).sum = ((out.flatMap MarkedSection.items).map points).sum := by
  induction out with
  | nil => rfl
  | cons s out ih =>
    rw [List.map_cons, List.sum_cons, h s List.mem_cons_self,
      ih (fun t ht => h t (List.mem_cons_of_mem _ ht)), List.flatMap_cons, List.map_append,
      List.sum_append]

theorem mem_organise {s : MarkedSection ρ} (h : s ∈ organise rt sections items) :
    ∃ position title skill questions, s = collected position title skill questions := by
  rw [organise_eq] at h
  obtain h | h := List.mem_append.1 h
  · obtain ⟨sec, -, hs⟩ := List.mem_filterMap.1 h
    unfold markSection at hs
    dsimp only at hs
    split at hs
    · cases hs
    · cases hs
      exact ⟨_, _, _, _, rfl⟩
  · split at h
    · cases h
    · exact ⟨_, _, _, _, List.mem_singleton.1 h⟩

theorem organise_ordered {s : MarkedSection ρ} (h : s ∈ organise rt sections items) :
    s.questions.Pairwise (fun a b => a.number ≤ b.number) := by
  obtain ⟨position, title, skill, questions, rfl⟩ := mem_organise h
  exact byNumber_ordered questions

theorem organise_awarded {s : MarkedSection ρ} (h : s ∈ organise rt sections items) :
    s.awarded = (s.items.map Item.awarded).sum := by
  obtain ⟨position, title, skill, questions, rfl⟩ := mem_organise h
  exact tally_awarded _

theorem organise_max {s : MarkedSection ρ} (h : s ∈ organise rt sections items) :
    s.max = (s.items.map Item.maxPoints).sum := by
  obtain ⟨position, title, skill, questions, rfl⟩ := mem_organise h
  exact tally_max _

theorem markQuestion_belongs {sec : Section} {p : Question} (hp : p ∈ sec.onPaper)
    {q : MarkedQuestion ρ} (h : markQuestion rt (byXid items) p = some q) :
    Belongs (fun question => ∃ p ∈ sec.onPaper, question = some p ∧
      q.xid = p.questionVersionXid ∧ q.number = p.number) q := by
  unfold markQuestion byXid at h
  rw [get?_gather] at h
  split at h
  · cases h
  · cases h
    refine ⟨⟨p, hp, rfl, rfl, rfl⟩, fun item hitem => ?_⟩
    have hown := (bySlotOrder_perm rt _).mem_iff.1 hitem
    have hxid : item.questionVersionXid = p.questionVersionXid := by
      simpa using List.of_mem_filter hown
    exact hxid

theorem orphan_belongs {q : MarkedQuestion ρ} (h : q ∈ orphans rt (byXid items) sections) :
    Belongs (fun question => question = none ∧ q.xid ∉ paperXids sections) q := by
  obtain ⟨e, he, rfl⟩ := List.mem_map.1 h
  obtain ⟨hheld, hout⟩ := List.mem_filter.1 he
  have hout' : e.1 ∉ placed (byXid items) sections := by simpa using hout
  refine ⟨⟨rfl, fun hon => hout' ((mem_placed_iff hheld).2 hon)⟩, fun item hitem => ?_⟩
  exact key_of_mem items e hheld item ((bySlotOrder_perm rt _).mem_iff.1 hitem)

theorem organise_home (rt : Runtime) (sections : List Section) (items : List (Item ρ)) :
    ∃ found trailing, organise rt sections items = found ++ trailing ∧ trailing.length ≤ 1 ∧
      (∀ s ∈ found, ∃ sec ∈ sections, s.position = sec.position ∧ s.skill = sec.skill ∧
        ∀ q ∈ s.questions, Belongs (fun question => ∃ p ∈ sec.onPaper, question = some p ∧
          q.xid = p.questionVersionXid ∧ q.number = p.number) q) ∧
      ∀ s ∈ trailing, s.title = "Marked, but not on the paper" ∧
        ∀ q ∈ s.questions, Belongs (fun question => question = none ∧
          q.xid ∉ paperXids sections) q := by
  refine ⟨_, _, organise_eq rt sections items, ?_, fun s hs => ?_, fun s hs => ?_⟩
  · split
    · exact Nat.zero_le 1
    · exact le_rfl
  · obtain ⟨sec, hsec, hmark⟩ := List.mem_filterMap.1 hs
    unfold markSection at hmark
    dsimp only at hmark
    split at hmark
    · cases hmark
    · cases hmark
      refine ⟨sec, hsec, rfl, rfl, fun q hq => ?_⟩
      have hq' := (byNumber_perm _).mem_iff.1 hq
      obtain ⟨p, hp, hmarked⟩ := List.mem_filterMap.1 hq'
      exact markQuestion_belongs hp hmarked
  · split at hs
    · cases hs
    · rw [List.mem_singleton.1 hs]
      refine ⟨rfl, fun q hq => ?_⟩
      exact orphan_belongs ((byNumber_perm _).mem_iff.1 hq)

end

/-! ## A question in two sections -/

def sharedQuestion : Question where
  number := 1
  questionVersionXid := "q"
  slotKeys := some ["s1"]

def sectionAt (position : ℤ) : Section where
  position := position
  skill := "reading"
  title := none
  passage := none
  groups := some [⟨some [sharedQuestion]⟩]

def mark : Item Unit where
  number := some 1
  questionVersionXid := "q"
  slotKey := "s1"
  verdict := "correct"
  awarded := 1
  maxPoints := 1
  rest := ()

def plainRuntime : Runtime where
  toNumber := fun s => s.toNat?.map (fun n => (n : ℚ))
  localeCompare := fun a b => if a < b then -1 else if b < a then 1 else 0

end IeltsHub.ReviewMarking
