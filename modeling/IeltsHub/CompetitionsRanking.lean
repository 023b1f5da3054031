import IeltsHub.CivilCalendar
import IeltsHub.PyText
import IeltsHub.PyTime
import IeltsHub.StandardRanking

set_option autoImplicit false

/-!
# Leaderboard ranking

`app/modules/competitions/ranking.py`. Tiebreak rules are names of comparators, evaluated left to
right; entries that tie on all of them share a rank, and the rank after them skips.
-/
namespace IeltsHub.CompetitionsRanking
open PyText PyTime AscendingText CivilCalendar StandardRanking

structure Entry where
  userXid : String
  attemptXid : String
  rawScore : ℚ
  band : Option ℚ
  durationMs : ℤ
  submittedAt : Time
  deriving DecidableEq

structure Ranked where
  entry : Entry
  rank : ℕ
  tiebreakKey : String
  deriving DecidableEq

/-- A comparator's value, a number or a moment. One rule gives values of one kind, so the two are
never compared. -/
abbrev KeyValue := ℚ ⊕ₗ Time

def number (q : ℚ) : KeyValue := Sum.inlₗ q

def moment (t : Time) : KeyValue := Sum.inrₗ t

abbrev Key := List KeyValue

/-- `_COMPARATORS`: each value sorts ascending, a descending rule negates. -/
def comparators : List (String × (Entry → KeyValue)) := [
  ("raw_score_desc", fun e => number (-e.rawScore)),
  ("raw_score_asc", fun e => number e.rawScore),
  ("duration_asc", fun e => number e.durationMs),
  ("duration_desc", fun e => number (-e.durationMs)),
  ("submitted_at_asc", fun e => moment e.submittedAt),
  ("band_desc", fun e => number (-e.band.getD 0))]

def defaultTiebreak : List String := ["raw_score_desc", "duration_asc", "submitted_at_asc"]

def Known (rule : String) : Prop := rule ∈ comparators.map Prod.fst

instance known_decidable (rule : String) : Decidable (Known rule) :=
  inferInstanceAs (Decidable (_ ∈ _))

/-- `tiebreak or DEFAULT_TIEBREAK`. -/
def rulesInForce (tiebreak : List String) : List String :=
  if tiebreak = [] then defaultTiebreak else tiebreak

def keyOf (rules : List String) (e : Entry) : Key :=
  rules.filterMap (fun rule => (comparators.lookup rule).map (fun value => value e))

/-! ## The materialized key -/

def thousandths (q : ℚ) : ℕ := (roundEven (|q| * 1000)).toNat

/-- `f"{q:018.3f}"`: the sign, then zeros, then the digits. -/
def fixedPoint (q : ℚ) : List Char :=
  let n := thousandths q
  if q < 0 then '-' :: (zfill 13 (n / 1000) ++ '.' :: zfill 3 (n % 1000))
  else zfill 14 (n / 1000) ++ '.' :: zfill 3 (n % 1000)

def part (v : KeyValue) : List Char :=
  match ofLex v with
  | .inl q => fixedPoint (q + 10 ^ 9)
  | .inr t => momentText t

/-- `_render`. -/
def render (key : Key) : String := .ofList (List.intercalate ['|'] (key.map part))

/-! ## Ranks -/

/-- The loop of `rank`, at a position of the sorted entries. -/
def rankFrom (key : Entry → Key) : ℕ → Option Key → ℕ → List Entry → List Ranked
  | _, _, _, [] => []
  | position, previousKey, currentRank, e :: es =>
    if some (key e) ≠ previousKey then
      { entry := e, rank := position, tiebreakKey := render (key e) } ::
        rankFrom key (position + 1) (some (key e)) position es
    else
      -- after two joint seconds the next is fourth
      { entry := e, rank := currentRank, tiebreakKey := render (key e) } ::
        rankFrom key (position + 1) previousKey currentRank es

structure UnknownTiebreak where
  message : String
  deriving DecidableEq

def unknownTiebreak (unknown : List String) : UnknownTiebreak where
  message := "Unknown tiebreak rule(s): " ++ join ", " unknown ++ ". Known: " ++
    join ", " (sorted (comparators.map Prod.fst)) ++ "."

def inOrder (key : Entry → Key) (es : List Entry) : List Entry :=
  es.insertionSort (fun a b => key a ≤ key b)

def rank (entries : List Entry) (tiebreak : List String) :
    Except UnknownTiebreak (List Ranked) :=
  let rules := rulesInForce tiebreak
  let unknown := rules.filter (fun rule => ¬ Known rule)
  if unknown ≠ [] then .error (unknownTiebreak unknown)
  else .ok (rankFrom (keyOf rules) 1 none 0 (inOrder (keyOf rules) entries))

section
variable {key : Entry → Key} {es entries : List Entry} {tiebreak : List String}
  {rows : List Ranked}

theorem rankFrom_entries (position : ℕ) (previousKey : Option Key) (currentRank : ℕ) :
    (rankFrom key position previousKey currentRank es).map Ranked.entry = es := by
  induction es generalizing position previousKey currentRank with
  | nil => rfl
  | cons e es ih =>
    rw [rankFrom]
    split
    · rw [List.map_cons, ih]
    · rw [List.map_cons, ih]

theorem rankFrom_tiebreakKey {position : ℕ} {previousKey : Option Key} {currentRank : ℕ}
    {r : Ranked} (h : r ∈ rankFrom key position previousKey currentRank es) :
    r.tiebreakKey = render (key r.entry) := by
  induction es generalizing position previousKey currentRank with
  | nil => cases h
  | cons e es ih =>
    rw [rankFrom] at h
    split at h
    · rcases List.mem_cons.1 h with rfl | hmem
      · rfl
      · exact ih hmem
    · rcases List.mem_cons.1 h with rfl | hmem
      · rfl
      · exact ih hmem

/-- What the loop carries past the entries it has done: the key of the last of them, and where that
one stands. -/
def Carried (key : Entry → Key) (all done : List Entry) (previousKey : Option Key)
    (currentRank : ℕ) : Prop :=
  match done.getLast? with
  | none => previousKey = none
  | some last => previousKey = some (key last) ∧ currentRank = standing key all last

theorem rankFrom_standing {done : List Entry} {previousKey : Option Key} {currentRank : ℕ}
    (hsorted : (done ++ es).Pairwise (fun a b => key a ≤ key b))
    (hcarried : Carried key (done ++ es) done previousKey currentRank) :
    ∀ r ∈ rankFrom key (done.length + 1) previousKey currentRank es,
      r.rank = standing key (done ++ es) r.entry := by
  induction es generalizing done previousKey currentRank with
  | nil => exact fun r h => by cases h
  | cons e es ih =>
    have hsplit : done ++ e :: es = done ++ [e] ++ es := by simp
    have hlength : (done ++ [e]).length = done.length + 1 := by simp
    have hlast : (done ++ [e]).getLast? = some e := List.getLast?_concat
    intro r hr
    rw [rankFrom] at hr
    by_cases hnew : some (key e) ≠ previousKey
    · -- nobody done has this key, and the list is sorted: all of them are below
      have hbelow : ∀ y ∈ done, key y < key e := by
        intro y hy
        have hle := (List.pairwise_append.1 hsorted).2.2 y hy e List.mem_cons_self
        refine lt_of_le_of_ne hle (fun heq => hnew ?_)
        unfold Carried at hcarried
        cases hl : done.getLast? with
        | none =>
          rw [List.getLast?_eq_none_iff] at hl
          rw [hl] at hy
          cases hy
        | some last =>
          rw [hl] at hcarried
          have hlastMem : last ∈ done := List.mem_of_getLast? hl
          have hlastLe := (List.pairwise_append.1 hsorted).2.2 last hlastMem e List.mem_cons_self
          have hyLast : key y ≤ key last := by
            obtain ⟨init, rfl⟩ := List.getLast?_eq_some_iff.1 hl
            rcases List.mem_append.1 hy with hinit | hsame
            · exact (List.pairwise_append.1 (List.pairwise_append.1 hsorted).1).2.2 y hinit last
                List.mem_cons_self
            · rw [List.mem_singleton.1 hsame]
          rw [hcarried.1, ← le_antisymm hlastLe (heq ▸ hyLast)]
      have hstanding := standing_first hsorted hbelow
      rw [if_pos hnew] at hr
      rcases List.mem_cons.1 hr with rfl | hmem
      · exact hstanding.symm
      · rw [hsplit] at hsorted hstanding ⊢
        rw [← hlength] at hmem
        refine ih hsorted ?_ r hmem
        unfold Carried
        rw [hlast]
        exact ⟨rfl, by rw [hstanding, hlength]⟩
    · have hsame : previousKey = some (key e) := (not_not.1 hnew).symm
      have hcurrent : currentRank = standing key (done ++ e :: es) e := by
        unfold Carried at hcarried
        cases hl : done.getLast? with
        | none =>
          rw [hl, hsame] at hcarried
          cases hcarried
        | some last =>
          rw [hl, hsame] at hcarried
          rw [hcarried.2]
          exact standing_tied (Option.some.inj hcarried.1).symm
      rw [if_neg hnew] at hr
      rcases List.mem_cons.1 hr with rfl | hmem
      · exact hcurrent
      · rw [hsplit] at hsorted hcurrent ⊢
        rw [← hlength] at hmem
        refine ih hsorted ?_ r hmem
        unfold Carried
        rw [hlast]
        exact ⟨hsame, hcurrent⟩

theorem inOrder_perm : (inOrder key entries).Perm entries := List.perm_insertionSort _ _

theorem inOrder_sorted : (inOrder key entries).Pairwise (fun a b => key a ≤ key b) :=
  List.pairwise_insertionSort _ _

theorem rank_eq_ok (h : rank entries tiebreak = .ok rows) :
    rows = rankFrom (keyOf (rulesInForce tiebreak)) 1 none 0
      (inOrder (keyOf (rulesInForce tiebreak)) entries) := by
  unfold rank at h
  dsimp only at h
  split at h
  · cases h
  · cases h
    rfl

theorem rank_returns (entries : List Entry) (h : ∀ rule ∈ tiebreak, Known rule) :
    ∃ rows, rank entries tiebreak = .ok rows := by
  have hknown : ∀ rule ∈ rulesInForce tiebreak, Known rule := by
    unfold rulesInForce
    split
    · decide
    · exact h
  have hnone : (rulesInForce tiebreak).filter (fun rule => ¬ Known rule) = [] := by
    rw [List.filter_eq_nil_iff]
    intro rule hrule
    simpa using hknown rule hrule
  unfold rank
  dsimp only
  rw [hnone]
  exact ⟨_, rfl⟩

theorem rank_standing (h : rank entries tiebreak = .ok rows) :
    ∀ r ∈ rows, r.rank = standing (keyOf (rulesInForce tiebreak)) entries r.entry := by
  cases rank_eq_ok h
  intro r hr
  rw [← standing_perm (@inOrder_perm (keyOf (rulesInForce tiebreak)) _)]
  have hstanding := @rankFrom_standing (keyOf (rulesInForce tiebreak))
    (inOrder (keyOf (rulesInForce tiebreak)) entries) [] none 0
  exact hstanding inOrder_sorted rfl r hr

theorem rank_entries (h : rank entries tiebreak = .ok rows) :
    rows.map Ranked.entry = inOrder (keyOf (rulesInForce tiebreak)) entries := by
  cases rank_eq_ok h
  exact rankFrom_entries _ _ _

theorem rank_tiebreakKey (h : rank entries tiebreak = .ok rows) :
    ∀ r ∈ rows, r.tiebreakKey = render (keyOf (rulesInForce tiebreak) r.entry) := by
  cases rank_eq_ok h
  exact fun r hr => rankFrom_tiebreakKey hr

theorem rank_eq_map (h : rank entries tiebreak = .ok rows) :
    rows = (inOrder (keyOf (rulesInForce tiebreak)) entries).map (fun e =>
      { entry := e, rank := standing (keyOf (rulesInForce tiebreak)) entries e,
        tiebreakKey := render (keyOf (rulesInForce tiebreak) e) }) := by
  rw [← rank_entries h, List.map_map]
  conv_lhs => rw [← List.map_id rows]
  apply List.map_congr_left
  intro r hr
  rw [Function.comp_apply, ← rank_standing h r hr, ← rank_tiebreakKey h r hr]
  rfl

theorem rank_perm {entries' : List Entry} {rows' : List Ranked} (hperm : entries.Perm entries')
    (h : rank entries tiebreak = .ok rows) (h' : rank entries' tiebreak = .ok rows') :
    rows.Perm rows' := by
  rw [rank_eq_map h, rank_eq_map h']
  have hstanding : standing (keyOf (rulesInForce tiebreak)) entries' =
      standing (keyOf (rulesInForce tiebreak)) entries := by
    funext e
    exact (standing_perm hperm).symm
  rw [hstanding]
  exact ((inOrder_perm.trans hperm).trans inOrder_perm.symm).map _

end

/-! ## The law of the board -/

def Ties (rule : String) (e e' : Entry) : Prop :=
  (comparators.lookup rule).map (fun value => value e) =
    (comparators.lookup rule).map (fun value => value e')

theorem keyOf_eq_iff {rules : List String} {e e' : Entry} :
    keyOf rules e = keyOf rules e' ↔ ∀ rule ∈ rules, Ties rule e e' := by
  induction rules with
  | nil => simp [keyOf]
  | cons rule rules ih =>
    rw [List.forall_mem_cons, ← ih]
    unfold keyOf Ties
    rw [List.filterMap_cons, List.filterMap_cons]
    cases comparators.lookup rule with
    | none => simp
    | some value => simp

structure RankedBy (rules : List String) (entries : List Entry) (rows : List Ranked) : Prop where
  all : (rows.map Ranked.entry).Perm entries
  ascending : (rows.map (fun r => keyOf rules r.entry)).Pairwise (· ≤ ·)
  counted : ∀ r ∈ rows, r.rank = standing (keyOf rules) entries r.entry
  shared : ∀ r ∈ rows, ∀ r' ∈ rows,
    r.rank = r'.rank ↔ ∀ rule ∈ rules, Ties rule r.entry r'.entry

/-- Whatever the entries and their order, known rules rank them by counting. -/
theorem ranked_by_count (entries : List Entry) (tiebreak : List String)
    (hknown : ∀ rule ∈ tiebreak, Known rule) :
    ∃ rows, rank entries tiebreak = .ok rows ∧ RankedBy (rulesInForce tiebreak) entries rows ∧
      ∀ entries', entries.Perm entries' →
        ∃ rows', rank entries' tiebreak = .ok rows' ∧ rows.Perm rows' := by
  obtain ⟨rows, hrows⟩ := rank_returns entries hknown
  have hentries := rank_entries hrows
  have hmem : ∀ r ∈ rows, r.entry ∈ entries := by
    intro r hr
    rw [← (@inOrder_perm (keyOf (rulesInForce tiebreak)) _).mem_iff, ← hentries]
    exact List.mem_map_of_mem hr
  refine ⟨rows, hrows, ⟨?_, ?_, rank_standing hrows, ?_⟩, ?_⟩
  · rw [hentries]
    exact inOrder_perm
  · have hsorted : (rows.map Ranked.entry).Pairwise (fun a b =>
        keyOf (rulesInForce tiebreak) a ≤ keyOf (rulesInForce tiebreak) b) := by
      rw [hentries]
      exact inOrder_sorted
    rw [List.pairwise_map] at hsorted ⊢
    exact hsorted
  · intro r hr r' hr'
    rw [rank_standing hrows r hr, rank_standing hrows r' hr',
      standing_eq_iff (hmem r hr) (hmem r' hr'), keyOf_eq_iff]
  · intro entries' hperm
    obtain ⟨rows', hrows'⟩ := rank_returns entries' hknown
    exact ⟨rows', hrows', rank_perm hperm hrows hrows'⟩

def sampleEntry (user : String) (rawScore : ℚ) (durationMs : ℤ) : Entry where
  userXid := user
  attemptXid := user
  rawScore := rawScore
  band := none
  durationMs := durationMs
  submittedAt := 0

def sampleEntries : List Entry :=
  [sampleEntry "a" 30 5000, sampleEntry "b" 31 9000, sampleEntry "c" 30 5000, sampleEntry "d" 12 1]

theorem ranked_by_count_on_sample : ∃ rows, rank sampleEntries ["raw_score_desc"] = .ok rows ∧
    RankedBy (rulesInForce ["raw_score_desc"]) sampleEntries rows ∧
      ∀ entries', sampleEntries.Perm entries' →
        ∃ rows', rank entries' ["raw_score_desc"] = .ok rows' ∧ rows.Perm rows' :=
  ranked_by_count sampleEntries ["raw_score_desc"] (by decide)

example : (rank sampleEntries []).map (fun rows => rows.map (fun r => (r.entry.userXid, r.rank))) =
    .ok [("b", 1), ("a", 2), ("c", 2), ("d", 4)] := by decide +kernel

end IeltsHub.CompetitionsRanking
