import Mathlib

set_option autoImplicit false

/-!
# Readings resumed strictly below a key

Rows are read newest first and their keys need not differ. Every reading is a first part of the
answer, and the next one goes on strictly below the last key read, so the rows left of that very
key are never read. Which of several rows of one key comes first is the answer's own affair.
-/
namespace IeltsHub.ResumedReading

variable {ρ κ : Type} [LinearOrder κ]

def under (key : ρ → κ) (rows : List ρ) : Option κ → List ρ
  | none => rows
  | some k => rows.filter (fun r => key r < k)

/-- What is answered below each key: all that is there, in some order that does not go up. -/
structure Answers (key : ρ → κ) (rows : List ρ) where
  answer : Option κ → List ρ
  perm : ∀ after, (answer after).Perm (under key rows after)
  sorted : ∀ after, (answer after).Pairwise (fun a b => key b ≤ key a)

def resume (key : ρ → κ) (read : List ρ) : Option κ := read.getLast?.map key

def upTo (shown : ρ → Bool) : ℕ → List ρ → List ρ
  | 0, _ => []
  | _ + 1, [] => []
  | room + 1, r :: rows => r :: upTo shown (if shown r then room else room + 1) rows

section
variable {key : ρ → κ} {rows : List ρ} (db : Answers key rows) (shown : ρ → Bool)

/-- The readings of pages of `limit` shown rows, `chunk` rows a batch, when the page begun has
room for `room` more; `fuel` bounds their number. -/
def readings (chunk limit : ℕ) : ℕ → Option κ → ℕ → List (List ρ)
  | 0, _, _ => []
  | fuel + 1, after, room =>
    let batch := (db.answer after).take chunk
    let read := upTo shown room batch
    let left := room - (read.filter shown).length
    if batch = [] then [[]]
    else if left = 0 then read :: readings chunk limit fuel (resume key read) limit
    else if batch.length < chunk then [read]
    else read :: readings chunk limit fuel (resume key read) left

def Unbroken : Option κ → List (List ρ) → Prop
  | after, read :: next :: reads =>
    (∀ r ∈ (db.answer after).drop read.length, shown r → resume key read ≠ some (key r)) ∧
      Unbroken (resume key read) (next :: reads)
  | _, _ => True

/-- Every reading is a first part of its answer, and the last one is all of it. -/
inductive Reading : Option κ → List (List ρ) → Prop
  | done (after : Option κ) : Reading after [db.answer after]
  | next {after : Option κ} {read rest : List ρ} {k : κ} {reads : List (List ρ)}
      (hpart : db.answer after = read ++ rest) (hlast : resume key read = some k)
      (tail : Reading (some k) reads) : Reading after (read :: reads)

end

variable {key : ρ → κ} {rows : List ρ} {db : Answers key rows} {shown : ρ → Bool}
  {after : Option κ} {reads : List (List ρ)}

theorem mem_answer {r : ρ} : r ∈ db.answer after ↔ r ∈ rows ∧ ∀ k ∈ after, key r < k := by
  rw [(db.perm after).mem_iff]
  cases after with
  | none => simp [under]
  | some k => simp [under]

omit [LinearOrder κ] in
theorem resume_eq_some {read : List ρ} {k : κ} (h : resume key read = some k) :
    ∃ init last, read = init ++ [last] ∧ key last = k := by
  unfold resume at h
  obtain ⟨last, hlast, hkey⟩ := Option.map_eq_some_iff.1 h
  obtain ⟨init, hinit⟩ := List.getLast?_eq_some_iff.1 hlast
  exact ⟨init, last, hinit, hkey⟩

/-! ## What one reading leaves -/

section
variable {read rest : List ρ} {k : κ}

theorem le_of_mem_read (hpart : db.answer after = read ++ rest)
    (hlast : resume key read = some k) {r : ρ} (hr : r ∈ read) : k ≤ key r := by
  obtain ⟨init, last, rfl, rfl⟩ := resume_eq_some hlast
  have hsorted := db.sorted after
  rw [hpart, List.pairwise_append, List.pairwise_append] at hsorted
  rcases List.mem_append.1 hr with hr | hr
  · exact hsorted.1.2.2 r hr last List.mem_cons_self
  · rw [List.mem_singleton.1 hr]

theorem le_of_mem_rest (hpart : db.answer after = read ++ rest)
    (hlast : resume key read = some k) {r : ρ} (hr : r ∈ rest) : key r ≤ k := by
  obtain ⟨init, last, rfl, rfl⟩ := resume_eq_some hlast
  have hsorted := db.sorted after
  rw [hpart, List.pairwise_append] at hsorted
  exact hsorted.2.2 last (List.mem_append_right _ List.mem_cons_self) r hr

theorem key_lt_after (hpart : db.answer after = read ++ rest)
    (hlast : resume key read = some k) : ∀ top ∈ after, k < top := by
  obtain ⟨init, last, rfl, rfl⟩ := resume_eq_some hlast
  have hmem : last ∈ db.answer after := by
    rw [hpart]
    exact List.mem_append_left _ (List.mem_append_right _ List.mem_cons_self)
  exact (mem_answer.1 hmem).2

theorem under_resume (hpart : db.answer after = read ++ rest)
    (hlast : resume key read = some k) :
    (under key rows (some k)).Perm (rest.filter (fun r => key r < k)) := by
  have hnone : read.filter (fun r => decide (key r < k)) = [] := by
    rw [List.filter_eq_nil_iff]
    intro r hr
    simpa using le_of_mem_read hpart hlast hr
  have hunder : under key rows (some k) =
      (under key rows after).filter (fun r => decide (key r < k)) := by
    cases after with
    | none => rfl
    | some top =>
      have htop := key_lt_after hpart hlast top rfl
      unfold under
      rw [List.filter_filter]
      refine List.filter_congr (fun r _ => ?_)
      have himp : key r < k → key r < top := fun q => q.trans htop
      by_cases hr : key r < k <;> simp [hr, himp]
  rw [hunder]
  refine ((db.perm after).symm.filter _).trans (List.Perm.of_eq ?_)
  rw [hpart, List.filter_append, hnone, List.nil_append]

theorem rest_perm (hpart : db.answer after = read ++ rest) (hlast : resume key read = some k) :
    (rest.filter shown).Perm ((under key rows (some k)).filter shown ++
      rest.filter (fun r => shown r && decide (key r = k))) := by
  have hsplit := (List.filter_append_perm (fun r => decide (key r < k)) (rest.filter shown)).symm
  refine hsplit.trans (List.Perm.append ?_ (List.Perm.of_eq ?_))
  · rw [List.filter_comm]
    exact (under_resume hpart hlast).symm.filter _
  · rw [List.filter_filter]
    refine List.filter_congr (fun r hr => ?_)
    have hle := le_of_mem_rest hpart hlast hr
    rcases hle.lt_or_eq with hlt | heq
    · simp [hlt, hlt.ne]
    · simp [heq]

omit [LinearOrder κ] in
theorem tied_eq_nil [DecidableEq κ] (h : ∀ r ∈ rest, shown r → some k ≠ some (key r)) :
    rest.filter (fun r => shown r && decide (key r = k)) = [] := by
  rw [List.filter_eq_nil_iff]
  intro r hr
  simp only [Bool.and_eq_true, decide_eq_true_eq, not_and]
  exact fun hshown heq => h r hr hshown (congrArg some heq.symm)

end

/-! ## Whole readings -/

theorem Reading.mem_under (h : Reading db after reads) {r : ρ} (hr : r ∈ reads.flatten) :
    r ∈ rows ∧ ∀ top ∈ after, key r < top := by
  induction h with
  | done after =>
    rw [List.flatten_singleton] at hr
    exact mem_answer.1 hr
  | @next after read rest k reads hpart hlast _ ih =>
    rw [List.flatten_cons, List.mem_append] at hr
    rcases hr with hr | hr
    · exact mem_answer.1 (hpart ▸ List.mem_append_left _ hr)
    · obtain ⟨hrow, hlt⟩ := ih hr
      exact ⟨hrow, fun top htop => (hlt k rfl).trans (key_lt_after hpart hlast top htop)⟩

theorem Reading.sorted (h : Reading db after reads) :
    reads.flatten.Pairwise (fun a b => key b ≤ key a) := by
  induction h with
  | done after =>
    rw [List.flatten_singleton]
    exact db.sorted after
  | @next after read rest k reads hpart hlast tail ih =>
    rw [List.flatten_cons, List.pairwise_append]
    refine ⟨?_, ih, ?_⟩
    · have hsorted := db.sorted after
      rw [hpart] at hsorted
      exact (List.pairwise_append.1 hsorted).1
    · intro a ha b hb
      exact ((tail.mem_under hb).2 k rfl).le.trans (le_of_mem_read hpart hlast ha)

theorem Reading.ne_nil (h : Reading db after reads) : reads ≠ [] := by
  cases h <;> exact List.cons_ne_nil _ _

theorem unbroken_cons {read : List ρ} (h : reads ≠ []) : Unbroken db shown after (read :: reads) ↔
    (∀ r ∈ (db.answer after).drop read.length, shown r → resume key read ≠ some (key r)) ∧
      Unbroken db shown (resume key read) reads := by
  obtain ⟨next, reads, rfl⟩ := List.exists_cons_of_ne_nil h
  rfl

theorem Reading.subperm (h : Reading db after reads) :
    List.Subperm reads.flatten (under key rows after) := by
  induction h with
  | done after =>
    rw [List.flatten_singleton]
    exact (db.perm after).subperm
  | @next after read rest k reads hpart hlast _ ih =>
    rw [List.flatten_cons]
    have hrest : List.Subperm reads.flatten rest :=
      (ih.trans (under_resume hpart hlast).subperm).trans List.filter_sublist.subperm
    have hread : List.Subperm (read ++ reads.flatten) (read ++ rest) :=
      (List.subperm_append_left read).2 hrest
    rw [← hpart] at hread
    exact hread.trans (db.perm after).subperm

/-- Everything shown has been read, and read once, exactly where the reading is unbroken. -/
theorem Reading.complete_iff (h : Reading db after reads) :
    (reads.flatten.filter shown).Perm ((under key rows after).filter shown) ↔
      Unbroken db shown after reads := by
  induction h with
  | done after =>
    rw [List.flatten_singleton]
    exact iff_of_true ((db.perm after).filter _) trivial
  | @next after read rest k reads hpart hlast tail ih =>
    have hwhole : ((under key rows after).filter shown).Perm
        (read.filter shown ++ rest.filter shown) := by
      rw [← List.filter_append, ← hpart]
      exact ((db.perm after).symm).filter _
    have hdrop : (db.answer after).drop read.length = rest := by
      rw [hpart, List.drop_left]
    rw [unbroken_cons tail.ne_nil, hdrop, hlast, ← ih, List.flatten_cons, List.filter_append,
      hwhole.congr_right, List.perm_append_left_iff, (rest_perm hpart hlast).congr_right]
    constructor
    · intro hperm
      -- what is tied is not below, and only what is below is read
      have htied : ∀ r ∈ rest, shown r → some k ≠ some (key r) := by
        intro r hr hshown heq
        have hmem : r ∈ reads.flatten.filter shown := by
          refine hperm.symm.subset (List.mem_append_right _ (List.mem_filter.2 ⟨hr, ?_⟩))
          simp [hshown, (Option.some.inj heq).symm]
        have hlt := (tail.mem_under (List.mem_filter.1 hmem).1).2 k rfl
        exact hlt.ne' (Option.some.inj heq)
      refine ⟨htied, ?_⟩
      rwa [tied_eq_nil htied, List.append_nil] at hperm
    · rintro ⟨htied, hperm⟩
      rw [tied_eq_nil htied, List.append_nil]
      exact hperm

/-! ## Batches and pages -/

section
variable {chunk limit fuel room : ℕ}

theorem upTo_first (shown : ρ → Bool) (room : ℕ) (rows : List ρ) :
    upTo shown room rows <+: rows := by
  induction rows generalizing room with
  | nil => cases room <;> exact List.prefix_refl _
  | cons r rows ih =>
    cases room with
    | zero => exact List.nil_prefix
    | succ room => exact List.prefix_cons_inj r |>.2 (ih _)

theorem filter_upTo_le (room : ℕ) (rows : List ρ) :
    ((upTo shown room rows).filter shown).length ≤ room := by
  induction rows generalizing room with
  | nil => cases room <;> exact Nat.zero_le _
  | cons r rows ih =>
    cases room with
    | zero => exact le_rfl
    | succ room =>
      unfold upTo
      by_cases hr : shown r
      · rw [if_pos hr, List.filter_cons_of_pos hr, List.length_cons]
        exact Nat.succ_le_succ (ih room)
      · rw [if_neg hr, List.filter_cons_of_neg hr]
        exact ih (room + 1)

theorem upTo_eq_self {rows : List ρ} (h : ((upTo shown room rows).filter shown).length < room) :
    upTo shown room rows = rows := by
  induction rows generalizing room with
  | nil => cases room <;> rfl
  | cons r rows ih =>
    cases room with
    | zero => exact absurd h (Nat.not_lt_zero _)
    | succ room =>
      unfold upTo at h ⊢
      by_cases hr : shown r
      · rw [if_pos hr, List.filter_cons_of_pos hr, List.length_cons] at h
        rw [if_pos hr, ih (Nat.lt_of_succ_lt_succ h)]
      · rw [if_neg hr, List.filter_cons_of_neg hr] at h
        rw [if_neg hr, ih h]

theorem upTo_ne_nil {rows : List ρ} (hroom : 0 < room) (h : rows ≠ []) :
    upTo shown room rows ≠ [] := by
  obtain ⟨r, rows, rfl⟩ := List.exists_cons_of_ne_nil h
  obtain ⟨room, rfl⟩ := Nat.exists_eq_add_of_lt hroom
  rw [Nat.zero_add]
  exact List.cons_ne_nil _ _

omit [LinearOrder κ] in
theorem exists_resume {read : List ρ} (h : read ≠ []) : ∃ k, resume key read = some k := by
  unfold resume
  rw [List.getLast?_eq_some_getLast h]
  exact ⟨_, rfl⟩

theorem length_under_lt {read rest : List ρ} {k : κ} (hpart : db.answer after = read ++ rest)
    (hlast : resume key read = some k) :
    (under key rows (some k)).length < (under key rows after).length := by
  have hwhole := (db.perm after).length_eq
  have hleft := (under_resume hpart hlast).length_eq
  have hrest := List.length_filter_le (fun r => decide (key r < k)) rest
  obtain ⟨init, last, rfl, _⟩ := resume_eq_some hlast
  rw [hpart, List.length_append, List.length_append, List.length_singleton] at hwhole
  omega

theorem exists_read (shown : ρ → Bool) (hroom : 0 < room)
    (hbatch : (db.answer after).take chunk ≠ []) :
    ∃ k rest, resume key (upTo shown room ((db.answer after).take chunk)) = some k ∧
      db.answer after = upTo shown room ((db.answer after).take chunk) ++ rest := by
  have hne : upTo shown room ((db.answer after).take chunk) ≠ [] := upTo_ne_nil hroom hbatch
  obtain ⟨k, hk⟩ : ∃ k, resume key (upTo shown room ((db.answer after).take chunk)) = some k :=
    exists_resume hne
  obtain ⟨rest, hrest⟩ : upTo shown room ((db.answer after).take chunk) <+: db.answer after :=
    (upTo_first _ _ _).trans (List.take_prefix _ _)
  exact ⟨k, rest, hk, hrest.symm⟩

theorem readings_fuel (hlimit : 0 < limit) (hroom : 0 < room) {fuel' : ℕ}
    (h : (under key rows after).length < fuel) (h' : (under key rows after).length < fuel') :
    readings db shown chunk limit fuel after room =
      readings db shown chunk limit fuel' after room := by
  induction fuel generalizing after room fuel' with
  | zero => exact absurd h (Nat.not_lt_zero _)
  | succ fuel ih =>
    cases fuel' with
    | zero => exact absurd h' (Nat.not_lt_zero _)
    | succ fuel' =>
      unfold readings
      by_cases hbatch : (db.answer after).take chunk = []
      · rw [if_pos hbatch, if_pos hbatch]
      · obtain ⟨k, rest, hk, hrest⟩ := exists_read shown hroom hbatch
        have hless := length_under_lt hrest hk
        simp only [if_neg hbatch, hk]
        split
        · rw [ih hlimit (by omega) (by omega : (under key rows (some k)).length < fuel')]
        · split
          · rfl
          · rw [ih (by omega) (by omega) (by omega : (under key rows (some k)).length < fuel')]

theorem reading_readings (hchunk : 0 < chunk) (hlimit : 0 < limit) (hroom : 0 < room)
    (hfuel : (under key rows after).length < fuel) :
    Reading db after (readings db shown chunk limit fuel after room) := by
  induction fuel generalizing after room with
  | zero => exact absurd hfuel (Nat.not_lt_zero _)
  | succ fuel ih =>
    unfold readings
    by_cases hbatch : (db.answer after).take chunk = []
    · rw [if_pos hbatch]
      have hnil : db.answer after = [] := by
        rcases List.take_eq_nil_iff.1 hbatch with h | h
        · omega
        · exact h
      rw [← hnil]
      exact .done after
    · rw [if_neg hbatch]
      obtain ⟨k, rest, hk, hrest⟩ := exists_read shown hroom hbatch
      have hless := length_under_lt hrest hk
      have hle : ((upTo shown room ((db.answer after).take chunk)).filter shown).length ≤ room :=
        filter_upTo_le _ _
      split
      · next hfull =>
        rw [hk]
        exact .next hrest hk (ih hlimit (by omega))
      · next hopen =>
        have hself : upTo shown room ((db.answer after).take chunk) =
            (db.answer after).take chunk := upTo_eq_self (by omega)
        split
        · next hshort =>
          rw [hself, List.take_of_length_le (by rw [List.length_take] at hshort; omega)]
          exact .done after
        · rw [hk]
          exact .next hrest hk (ih (by omega) (by omega))

end

end IeltsHub.ResumedReading
