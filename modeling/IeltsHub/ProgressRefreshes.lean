import IeltsHub.GuardedRuns
import IeltsHub.UserProgress

set_option autoImplicit false

/-!
# Refreshed progress

Attempts are submitted, regraded and voided between refreshes, and each refresh visits the users
with news. A table that is refreshed so is the table a refresh from nothing would make, as long as
no row's attempts are all voided away and no user's are voided without other news.
-/
namespace IeltsHub.ProgressRefreshes
open PyTime RowTable UpsertTables UserProgress GuardedRuns
open ExamModels (AttemptMode AttemptStatus)

/-! ## One refresh -/

/-- What the table shows under a key, but for `computed_at`. -/
def shown (t : ProgressTable) (k : Key) : Option Aggregates := (t.get? k).map ProgressRow.aggregates

def progressOf (z : Setting) (attempts : Attempts) (k : Key) : Aggregates :=
  aggregate attempts ((joined z attempts (fun _ => true)).filter (fun j => j.key = k)) k.userId

def expected (z : Setting) (attempts : Attempts) (k : Key) : Option Aggregates :=
  if attemptsOn z attempts k = [] then none else some (progressOf z attempts k)

section
variable {z : Setting} {k : Key} {attempts : Attempts} {scope : ℕ → Bool} {now : Time}
  {t : ProgressTable} {userId : Option ℕ}

theorem scope_of_joined {j : Joined} (hj : j ∈ joined z attempts scope) :
    scope j.key.userId = true := by
  unfold joined at hj
  obtain ⟨a, ha, hj⟩ := List.mem_flatMap.1 hj
  have hscope := (List.mem_filter.1 ha).2
  by_cases hon : On z j.key a
  · exact hon.2.2.2.1 ▸ hscope
  · have hmem : j ∈ (rowsOf z a).filter (fun j' => j'.key = j.key) :=
      List.mem_filter.2 ⟨hj, decide_eq_true rfl⟩
    rw [rowsOf_at_off hon] at hmem
    cases hmem

theorem mem_selectGroups {p : ProgressRow} : p ∈ selectGroups z now attempts scope ↔
    scope p.key.userId = true ∧ attemptsOn z attempts p.key ≠ [] ∧
      p = ⟨p.key, progressOf z attempts p.key, now⟩ := by
  have hsame : ∀ k : Key, scope k.userId = true →
      (joined z attempts scope).filter (fun j => j.key = k) =
        (joined z attempts (fun _ => true)).filter (fun j => j.key = k) := by
    intro k hscope
    have hall : (fun _ : ℕ => true) k.userId = true := rfl
    rw [members_eq hscope, members_eq hall]
  unfold selectGroups
  rw [List.mem_map]
  constructor
  · rintro ⟨k, hk, rfl⟩
    rw [List.mem_dedup] at hk
    obtain ⟨j, hj, hkey⟩ := List.mem_map.1 hk
    have hscope : scope k.userId = true := hkey ▸ scope_of_joined hj
    refine ⟨hscope, (members_ne_nil hscope).1 hk, ?_⟩
    unfold progressOf
    rw [hsame k hscope]
  · rintro ⟨hscope, hne, hp⟩
    refine ⟨p.key, List.mem_dedup.2 ((members_ne_nil hscope).2 hne), ?_⟩
    rw [hsame p.key hscope]
    exact hp.symm

theorem shown_refresh : shown (refreshUserProgress z now userId attempts t) k =
    if inScope attempts t userId k.userId = true ∧ attemptsOn z attempts k ≠ [] then
      some (progressOf z attempts k)
    else shown t k := by
  unfold shown refreshUserProgress
  cases hlast : progressUpsert.lastOf
      (selectGroups z now attempts (inScope attempts t userId)) k with
  | none =>
    rw [Upsert.get?_writes_of_none hlast, if_neg]
    rintro ⟨hscope, hne⟩
    have hmem : (⟨k, progressOf z attempts k, now⟩ : ProgressRow) ∈
        selectGroups z now attempts (inScope attempts t userId) :=
      mem_selectGroups.2 ⟨hscope, hne, rfl⟩
    exact Upsert.lastOf_eq_none.1 hlast _ hmem rfl
  | some p =>
    obtain ⟨hp, hkey⟩ := Upsert.lastOf_mem hlast
    obtain ⟨old, hold⟩ := Upsert.get?_writes_of_some (t := t) hlast
    have hkey : p.key = k := hkey
    obtain ⟨hscope, hne, hrow⟩ := mem_selectGroups.1 hp
    rw [hkey] at hscope hne hrow
    have haggregates : (progressUpsert.row old p).aggregates = p.aggregates := by
      cases old <;> rfl
    rw [if_pos ⟨hscope, hne⟩, hold, Option.map_some, haggregates, hrow]

theorem shown_fresh :
    shown (refreshUserProgress z now none attempts .empty) k = expected z attempts k := by
  have hscope : inScope attempts .empty none k.userId = true := rfl
  unfold expected
  rw [shown_refresh]
  by_cases hnil : attemptsOn z attempts k = []
  · rw [if_neg (fun h => h.2 hnil), if_pos hnil]
    rfl
  · rw [if_pos ⟨hscope, hnil⟩, if_neg hnil]

theorem computed_refresh {r : ProgressRow}
    (hr : r ∈ (refreshUserProgress z now userId attempts t).rows) :
    r ∈ t.rows ∨ r.computedAt = now := by
  have hget := Table.get?_eq_some.2 ⟨hr, rfl⟩
  unfold refreshUserProgress at hget
  cases hlast : progressUpsert.lastOf
      (selectGroups z now attempts (inScope attempts t userId)) r.key with
  | none =>
    rw [Upsert.get?_writes_of_none hlast] at hget
    exact .inl (Table.get?_eq_some.1 hget).1
  | some p =>
    obtain ⟨hp, hkey⟩ := Upsert.lastOf_mem hlast
    obtain ⟨old, hold⟩ := Upsert.get?_writes_of_some (t := t) hlast
    obtain ⟨-, -, hrow⟩ := mem_selectGroups.1 hp
    have hcomputed : (progressUpsert.row old p).computedAt = p.computedAt := by
      cases old <;> rfl
    have hsame : r = progressUpsert.row old p := Option.some.inj (hget.symm.trans hold)
    refine .inr ?_
    rw [hsame, hcomputed, hrow]

end

/-! ## The history -/

/-- The tables, when the last refresh ran, and whose scored attempts were voided since; the last
two are history that no function reads. -/
structure World where
  attempts : Attempts := .empty
  table : ProgressTable := .empty
  ran : Time
  voids : List ℕ := []

inductive Event where
  | issue (id userId testVersionId : ℕ) (mode : AttemptMode)
  | submit (id : ℕ) (submittedAt scoredAt : Time) (run : ScoreRun)
  | regrade (id : ℕ) (now : Time) (run : ScoreRun)
  | void (id : ℕ)
  | refresh (now : Time)

/-- `submit` refuses a voided attempt and answers a scored one with the run it has. -/
def Submits (a : Attempt) : Prop :=
  a.status ≠ .voided ∧ ¬ ((a.status = .submitted ∨ a.status = .scored) ∧ a.run.isSome)

instance (a : Attempt) : Decidable (Submits a) := inferInstanceAs (Decidable (_ ∧ _))

/-- The planner's `_affected`. -/
def Regrades (a : Attempt) : Prop :=
  a.mode ≠ .preview ∧ (a.status = .submitted ∨ a.status = .scored)

instance (a : Attempt) : Decidable (Regrades a) := inferInstanceAs (Decidable (_ ∧ _))

def Live (a : Attempt) : Prop :=
  a.status = .scored ∧ a.mode ≠ .preview ∧ a.run.isSome ∧ a.submittedAt.isSome

instance (a : Attempt) : Decidable (Live a) := inferInstanceAs (Decidable (_ ∧ _))

def World.update (w : World) (id : ℕ) (p : Attempt → Prop) [DecidablePred p]
    (f : Attempt → Attempt) : World :=
  ((w.attempts.get? id).filter (p ·)).elim w (fun a => { w with attempts := w.attempts.put (f a) })

def World.after (z : Setting) (w : World) : Event → World
  | .issue id userId testVersionId mode =>
    if w.attempts.get? id = none then
      { w with attempts := w.attempts.put { id, userId, testVersionId, mode } }
    else w
  | .submit id submittedAt scoredAt run => w.update id Submits (fun a =>
      { a with
        status := .scored, submittedAt := some submittedAt, scoredAt := some scoredAt,
        run := some run })
  | .regrade id now run => w.update id Regrades (fun a =>
      { a with run := some run, scoredAt := some now })
  | .void id =>
    let lost := ((w.attempts.get? id).filter (Live ·)).toList.map Attempt.userId
    { w.update id (fun _ => True) (fun a => { a with status := .voided }) with
      voids := lost ++ w.voids }
  | .refresh now =>
    { w with
      table := refreshUserProgress z now none w.attempts w.table, ran := now, voids := [] }

/-- Refreshes come in order, and no score is more than the overlap behind the last of them. -/
def Timely (w : World) : Event → Prop
  | .submit _ _ scoredAt _ => w.ran - overlap ≤ scoredAt
  | .regrade _ now _ => w.ran - overlap ≤ now
  | .refresh now => w.ran ≤ now
  | _ => True

instance (w : World) (e : Event) : Decidable (Timely w e) :=
  match e with
  | .submit _ _ scoredAt _ => inferInstanceAs (Decidable (w.ran - overlap ≤ scoredAt))
  | .regrade _ now _ => inferInstanceAs (Decidable (w.ran - overlap ≤ now))
  | .refresh now => inferInstanceAs (Decidable (w.ran ≤ now))
  | .issue .. => inferInstanceAs (Decidable True)
  | .void _ => inferInstanceAs (Decidable True)

def Step (z : Setting) (w : World) (e : Event) (w' : World) : Prop :=
  Timely w e ∧ w' = w.after z e

/-! ## What a change leaves alone -/

def Recent (w : World) (a : Attempt) : Prop := ∃ s ∈ a.scoredAt, w.ran - overlap ≤ s

section
variable {z : Setting} {k : Key} {a b : Attempt} {attempts : Attempts}

theorem live_of_on (h : On z k a) : Live a := by
  obtain ⟨hscored, hmode, hrun, -, -, hday⟩ := h
  obtain ⟨submitted, hsubmitted, -⟩ := Option.map_eq_some_iff.1 hday
  exact ⟨hscored, hmode, hrun, hsubmitted ▸ rfl⟩

theorem expected_put (hnew : ¬ On z k b)
    (hold : ∀ a, attempts.get? b.id = some a →
      ¬ On z k a ∧ itemsOf k.userId a = itemsOf k.userId b)
    (hnone : attempts.get? b.id = none → itemsOf k.userId b = []) :
    expected z (attempts.put b) k = expected z attempts k := by
  have hon : attemptsOn z (attempts.put b) k = attemptsOn z attempts k :=
    Table.select_put (decide_eq_false hnew) (fun a ha => decide_eq_false (hold a ha).1)
  have hitems : (attempts.put b).rows.flatMap (itemsOf k.userId) =
      attempts.rows.flatMap (itemsOf k.userId) := by
    refine flatMap_putRow (fun a ha hid => (hold a (Table.get?_eq_some.2 ⟨ha, hid⟩)).2) ?_
    intro habsent
    refine hnone (Table.get?_eq_none.2 (fun a ha hid => habsent ?_))
    exact hid ▸ List.mem_map_of_mem ha
  have hweak : weakTypes (attempts.put b) k.userId = weakTypes attempts k.userId := by
    unfold weakTypes
    rw [hitems]
  have hall : (fun _ : ℕ => true) k.userId = true := rfl
  unfold expected progressOf
  rw [hon, members_eq hall, members_eq hall, hon]
  unfold aggregate
  rw [hweak]

theorem expected_put_of_other (hget : attempts.get? b.id = some a) (huser : b.userId = a.userId)
    (hother : b.userId ≠ k.userId) : expected z (attempts.put b) k = expected z attempts k := by
  have hitems : ∀ c : Attempt, c.userId = b.userId → ¬ On z k c ∧ itemsOf k.userId c = [] := by
    intro c hc
    refine ⟨fun h => hother (hc.symm.trans h.2.2.2.1), if_neg (fun h => hother ?_)⟩
    exact hc.symm.trans h.1
  refine expected_put (hitems b rfl).1 (fun c hc => ?_) (fun hnone => ?_)
  · have hsame : c = a := Option.some.inj (hc.symm.trans hget)
    subst hsame
    exact ⟨(hitems c huser.symm).1, (hitems c huser.symm).2.trans (hitems b rfl).2.symm⟩
  · rw [hget] at hnone
    cases hnone

end

/-! ## The invariant -/

def Settled (a : Attempt) : Prop :=
  a.status ≠ .submitted ∧ (a.status = .scored → a.run.isSome ∧ a.submittedAt.isSome)

structure Inv (z : Setting) (w : World) : Prop where
  settled : ∀ a ∈ w.attempts.rows, Settled a
  computed : ∀ r ∈ w.table.rows, r.computedAt ≤ w.ran
  present : ∀ a ∈ w.attempts.rows, Live a → Recent w a ∨
    ∀ k, On z k a → w.table.get? k ≠ none
  agrees : ∀ k : Key, (∃ a ∈ w.attempts.rows, a.userId = k.userId ∧ Live a ∧ Recent w a) ∨
    k.userId ∈ w.voids ∨ shown w.table k = expected z w.attempts k

section
variable {z : Setting} {w w' : World} {k : Key} {a b : Attempt} {id : ℕ} {e : Event}

theorem itemsOf_of_preview {u : ℕ} (h : a.mode = .preview) : itemsOf u a = [] :=
  if_neg (fun h' => h'.2 h)

theorem update_cases (w : World) (id : ℕ) (p : Attempt → Prop) [DecidablePred p]
    (f : Attempt → Attempt) : w.update id p f = w ∨ ∃ a, w.attempts.get? a.id = some a ∧ p a ∧
      w.update id p f = { w with attempts := w.attempts.put (f a) } := by
  unfold World.update
  cases hget : w.attempts.get? id with
  | none => exact .inl rfl
  | some a =>
    by_cases hp : p a
    · refine .inr ⟨a, (Table.get?_key hget).symm ▸ hget, hp, ?_⟩
      rw [Option.filter_some_pos (by simpa using hp)]
      rfl
    · refine .inl ?_
      rw [Option.filter_some_neg (by simpa using hp)]
      rfl

theorem settled_of_unscored (h : a.status = .issued ∨ a.status = .voided) : Settled a := by
  unfold Settled
  rcases h with h | h
  · rw [h]
    exact ⟨by decide, fun h => by cases h⟩
  · rw [h]
    exact ⟨by decide, fun h => by cases h⟩

theorem Inv.put (hi : Inv z w) (hget : w.attempts.get? b.id = some a) (huser : b.userId = a.userId)
    (hsettled : Settled b) (hnews : Live b ∧ Recent w b ∨
      ¬ Live a ∧ ¬ Live b ∧ ∀ u, itemsOf u a = itemsOf u b) :
    Inv z { w with attempts := w.attempts.put b } where
  settled c hc := by
    rcases Table.mem_put.1 hc with rfl | ⟨hc, -⟩
    · exact hsettled
    · exact hi.settled c hc
  computed := hi.computed
  present c hc hlive := by
    rcases Table.mem_put.1 hc with rfl | ⟨hc, -⟩
    · rcases hnews with ⟨-, hrecent⟩ | ⟨-, hdead, -⟩
      · exact .inl hrecent
      · exact absurd hlive hdead
    · exact hi.present c hc hlive
  agrees k := by
    -- A row of the table other than the one that is written stays.
    have hstays : ∀ c ∈ w.attempts.rows, c ≠ a → c ∈ (w.attempts.put b).rows := by
      intro c hc hne
      refine Table.mem_put.2 (.inr ⟨hc, fun hid => hne ?_⟩)
      have hget' := Table.get?_eq_some.2 ⟨hc, hid⟩
      exact Option.some.inj (hget'.symm.trans hget)
    rcases hnews with ⟨hlive, hrecent⟩ | ⟨ha, hb, hitems⟩
    · by_cases hother : b.userId = k.userId
      · exact .inl ⟨b, Table.mem_put.2 (.inl rfl), hother, hlive, hrecent⟩
      · rcases hi.agrees k with ⟨c, hc, hcuser, hclive⟩ | hvoid | hsame
        · refine .inl ⟨c, hstays c hc (fun heq => hother ?_), hcuser, hclive⟩
          exact huser.trans (heq ▸ hcuser)
        · exact .inr (.inl hvoid)
        · exact .inr (.inr (hsame.trans (expected_put_of_other hget huser hother).symm))
    · rcases hi.agrees k with ⟨c, hc, hcuser, hclive⟩ | hvoid | hsame
      · exact .inl ⟨c, hstays c hc (fun heq => ha (heq ▸ hclive.1)), hcuser, hclive⟩
      · exact .inr (.inl hvoid)
      · refine .inr (.inr (hsame.trans (expected_put (fun h => hb (live_of_on h)) ?_ ?_).symm))
        · intro c hc
          have heq : c = a := Option.some.inj (hc.symm.trans hget)
          exact heq ▸ ⟨fun h => ha (live_of_on h), hitems k.userId⟩
        · intro hnone
          rw [hget] at hnone
          cases hnone

theorem Inv.issue (hi : Inv z w) (hget : w.attempts.get? b.id = none) (hrun : b.run = none)
    (hstatus : b.status = .issued) : Inv z { w with attempts := w.attempts.put b } := by
  have hdead : ¬ Live b := by
    intro h
    cases hstatus.symm.trans h.1
  have hitems : ∀ u, itemsOf u b = [] := by
    intro u
    unfold itemsOf
    rw [hrun]
    exact ite_self []
  refine ⟨fun c hc => ?_, hi.computed, fun c hc hlive => ?_, fun k => ?_⟩
  · rcases Table.mem_put.1 hc with rfl | ⟨hc, -⟩
    · exact settled_of_unscored (.inl hstatus)
    · exact hi.settled c hc
  · rcases Table.mem_put.1 hc with rfl | ⟨hc, -⟩
    · exact absurd hlive hdead
    · exact hi.present c hc hlive
  · rcases hi.agrees k with ⟨c, hc, hcuser, hclive⟩ | hvoid | hsame
    · refine .inl ⟨c, Table.mem_put.2 (.inr ⟨hc, Table.get?_eq_none.1 hget c hc⟩), hcuser, hclive⟩
    · exact .inr (.inl hvoid)
    · refine .inr (.inr (hsame.trans (expected_put (fun h => hdead (live_of_on h)) ?_ ?_).symm))
      · intro c hc
        rw [hget] at hc
        cases hc
      · exact fun _ => hitems k.userId

theorem Inv.void (hi : Inv z w) (hget : w.attempts.get? id = some a) :
    Inv z { w with
      attempts := w.attempts.put { a with status := .voided }
      voids := ((some a).filter (Live ·)).toList.map Attempt.userId ++ w.voids } := by
  have hid : a.id = id := Table.get?_key hget
  have hget : w.attempts.get? a.id = some a := hid ▸ hget
  by_cases hlive : Live a
  · have hlost : ((some a).filter (Live ·)).toList.map Attempt.userId = [a.userId] := by
      rw [Option.filter_some_pos (by simpa using hlive)]
      rfl
    rw [hlost]
    refine ⟨fun c hc => ?_, hi.computed, fun c hc hclive => ?_, fun k => ?_⟩
    · rcases Table.mem_put.1 hc with rfl | ⟨hc, -⟩
      · exact settled_of_unscored (.inr rfl)
      · exact hi.settled c hc
    · rcases Table.mem_put.1 hc with rfl | ⟨hc, -⟩
      · cases hclive.1
      · exact hi.present c hc hclive
    · by_cases hother : a.userId = k.userId
      · exact .inr (.inl (hother ▸ List.mem_cons_self))
      · rcases hi.agrees k with ⟨c, hc, hcuser, hclive⟩ | hvoid | hsame
        · refine .inl ⟨c, Table.mem_put.2 (.inr ⟨hc, fun heq => hother ?_⟩), hcuser, hclive⟩
          have hget' := Table.get?_eq_some.2 ⟨hc, heq⟩
          have hsame : c = a := Option.some.inj (hget'.symm.trans hget)
          exact hsame ▸ hcuser
        · exact .inr (.inl (List.mem_cons_of_mem _ hvoid))
        · have hexpected := expected_put_of_other (z := z) (b := { a with status := .voided })
            hget rfl hother
          exact .inr (.inr (hsame.trans hexpected.symm))
  · have hlost : ((some a).filter (Live ·)).toList.map Attempt.userId = [] := by
      rw [Option.filter_some_neg (by simpa using hlive)]
      rfl
    rw [hlost]
    have hdead : ¬ Live { a with status := .voided } := by
      intro h
      cases h.1
    exact hi.put (b := { a with status := .voided }) hget rfl
      (settled_of_unscored (.inr rfl)) (.inr ⟨hlive, hdead, fun _ => rfl⟩)

/-! ## The step that keeps it -/

/-- Every row's group still has an attempt, a user of whom scored attempts were voided since has
other news or no row, and the attempts of a group are weighted alike. -/
structure Refreshable (z : Setting) (w : World) : Prop where
  alive : ∀ r ∈ w.table.rows, attemptsOn z w.attempts r.key ≠ []
  news : ∀ u ∈ w.voids, hasNews w.attempts w.table u = true ∨ ∀ r ∈ w.table.rows, r.key.userId ≠ u
  even : ∀ k, EvenlyWeighted z w.attempts k

def Keeps (z : Setting) (w : World) : Event → Prop
  | .refresh _ => Refreshable z w
  | _ => True

theorem hasNews_of_recent (hi : Inv z w) (ha : a ∈ w.attempts.rows) (hlive : Live a)
    (hrecent : Recent w a) : hasNews w.attempts w.table a.userId = true := by
  obtain ⟨s, hs, hle⟩ := hrecent
  unfold hasNews
  cases hlast : lastComputed w.table with
  | none => rfl
  | some since =>
    have hmem := (List.max?_eq_some_iff.1 hlast).1
    obtain ⟨r, hr, hcomputed⟩ := List.mem_map.1 hmem
    have hsince : since ≤ w.ran := hcomputed ▸ hi.computed r hr
    rw [Option.all_some, List.any_eq_true]
    refine ⟨a, ha, ?_⟩
    rw [decide_eq_true_iff]
    refine ⟨rfl, hlive.1, ?_⟩
    rw [Option.mem_def.1 hs, Option.any_some, decide_eq_true_iff]
    exact le_trans (sub_le_sub_right hsince overlap) hle

theorem shown_after (hi : Inv z w) (hkeeps : Refreshable z w) (now : Time) :
    shown (refreshUserProgress z now none w.attempts w.table) k = expected z w.attempts k := by
  have habsent : ∀ k, (∀ r ∈ w.table.rows, r.key ≠ k) → shown w.table k = none := by
    intro k h
    unfold shown
    rw [Table.get?_eq_none.2 h]
    rfl
  have hscope : inScope w.attempts w.table none k.userId =
      hasNews w.attempts w.table k.userId := rfl
  rw [shown_refresh, hscope]
  by_cases hnil : attemptsOn z w.attempts k = []
  · have hrow : ∀ r ∈ w.table.rows, r.key ≠ k :=
      fun r hr heq => hkeeps.alive r hr (heq ▸ hnil)
    rw [if_neg (fun h => h.2 hnil), habsent k hrow]
    unfold expected
    rw [if_pos hnil]
  · by_cases hnews : hasNews w.attempts w.table k.userId = true
    · unfold expected
      rw [if_pos ⟨hnews, hnil⟩, if_neg hnil]
    · rw [if_neg (fun h => hnews h.1)]
      rcases hi.agrees k with ⟨a, ha, huser, hlive, hrecent⟩ | hvoid | hsame
      · exact absurd (huser ▸ hasNews_of_recent hi ha hlive hrecent) hnews
      · -- No row of the user, so no attempt of theirs was ever in a refresh.
        have hnone := (hkeeps.news _ hvoid).resolve_left hnews
        obtain ⟨a, ha⟩ := List.exists_mem_of_ne_nil _ hnil
        obtain ⟨hmem, hon⟩ := mem_attemptsOn.1 ha
        rcases hi.present a hmem (live_of_on hon) with hrecent | hpresent
        · have huser : a.userId = k.userId := hon.2.2.2.1
          exact absurd (huser ▸ hasNews_of_recent hi hmem (live_of_on hon) hrecent) hnews
        · refine absurd (Table.get?_eq_none.2 (fun r hr heq => ?_)) (hpresent k hon)
          exact hnone r hr (congrArg Key.userId heq)
      · exact hsame

theorem Inv.refresh (hi : Inv z w) (hkeeps : Refreshable z w) {now : Time} (hran : w.ran ≤ now) :
    Inv z (w.after z (.refresh now)) where
  settled := hi.settled
  computed r hr := by
    rcases computed_refresh hr with hold | hnow
    · exact (hi.computed r hold).trans hran
    · exact hnow.le
  present a ha _ := by
    refine .inr (fun k hon hnone => ?_)
    have hshown := shown_after (k := k) hi hkeeps now
    have hnil : attemptsOn z w.attempts k ≠ [] :=
      List.ne_nil_of_mem (mem_attemptsOn.2 ⟨ha, hon⟩)
    unfold shown expected at hshown
    rw [if_neg hnil] at hshown
    change (refreshUserProgress z now none w.attempts w.table).get? k = none at hnone
    rw [hnone] at hshown
    cases hshown
  agrees k := .inr (.inr (shown_after hi hkeeps now))

theorem inv_step (hi : Inv z w) (hkeeps : Keeps z w e) (h : Step z w e w') : Inv z w' := by
  obtain ⟨htimely, rfl⟩ := h
  cases e with
  | issue id userId testVersionId mode =>
    unfold World.after
    dsimp only
    split
    · rename_i hget
      exact hi.issue hget rfl rfl
    · exact hi
  | submit id submittedAt scoredAt run =>
    unfold World.after
    dsimp only
    rcases update_cases w id Submits (fun a => { a with
      status := .scored, submittedAt := some submittedAt, scoredAt := some scoredAt,
      run := some run }) with hsame | ⟨a, hget, hsubmits, hput⟩
    · rw [hsame]
      exact hi
    · rw [hput]
      have hsettled : Settled { a with
          status := .scored, submittedAt := some submittedAt, scoredAt := some scoredAt,
          run := some run } := by
        exact ⟨(fun h => by cases h), fun _ => ⟨rfl, rfl⟩⟩
      refine hi.put hget rfl hsettled ?_
      by_cases hmode : a.mode = .preview
      · refine .inr ⟨fun h => h.2.1 hmode, fun h => h.2.1 hmode, fun u => ?_⟩
        rw [itemsOf_of_preview hmode]
        refine (itemsOf_of_preview ?_).symm
        exact hmode
      · exact .inl ⟨⟨rfl, hmode, rfl, rfl⟩, scoredAt, rfl, htimely⟩
  | regrade id now run =>
    unfold World.after
    dsimp only
    rcases update_cases w id Regrades (fun a => { a with
      run := some run, scoredAt := some now }) with hsame | ⟨a, hget, hregrades, hput⟩
    · rw [hsame]
      exact hi
    · rw [hput]
      have hsettled := hi.settled a (Table.get?_eq_some.1 hget).1
      have hscored : a.status = .scored := hregrades.2.resolve_left hsettled.1
      have hsubmitted := (hsettled.2 hscored).2
      refine hi.put hget rfl ⟨hsettled.1, fun _ => ⟨rfl, hsubmitted⟩⟩ ?_
      exact .inl ⟨⟨hscored, hregrades.1, rfl, hsubmitted⟩, now, rfl, htimely⟩
  | void id =>
    unfold World.after
    dsimp only
    unfold World.update
    cases hget : w.attempts.get? id with
    | none => exact hi
    | some a => exact hi.void hget
  | refresh now => exact hi.refresh hkeeps htimely

end

/-! ## Runs -/

def start (t : Time) : World := { ran := t }

theorem inv_start (z : Setting) (t : Time) : Inv z (start t) where
  settled _ ha := by cases ha
  computed _ hr := by cases hr
  present _ ha := by cases ha
  agrees _ := .inr (.inr rfl)

/-- The table is the one a refresh from nothing makes, but for `computed_at`. -/
def Recomputed (z : Setting) (now : Time) (w : World) : Prop :=
  ∀ k, shown w.table k = shown (refreshUserProgress z now none w.attempts .empty) k

def CountedOnce (z : Setting) (w : World) : Prop :=
  ∀ r ∈ w.table.rows, Faithful z w.attempts r.key r.aggregates

/-- After every refresh of a run whose refreshes find the table refreshable. -/
theorem progress_converges (z : Setting) (t now : Time) (es : List Event) (w : World)
    (h : Runs (Step z) (Keeps z) (start t) (es ++ [.refresh now]) w) :
    Recomputed z now w ∧ CountedOnce z w := by
  obtain ⟨v, hv, hlast⟩ := h.split
  have hi : Inv z v :=
    Runs.invariant (I := Inv z) (fun _ _ _ hi hk hs => inv_step hi hk hs) hv (inv_start z t)
  cases hlast with
  | next hkeeps hstep htail =>
  obtain ⟨-, rfl⟩ := hstep
  cases htail
  have hshown : ∀ k, shown (v.after z (.refresh now)).table k = expected z v.attempts k :=
    fun k => shown_after hi hkeeps now
  refine ⟨fun k => (hshown k).trans shown_fresh.symm, fun r hr => ?_⟩
  have hrow := hshown r.key
  unfold shown expected at hrow
  rw [Table.get?_eq_some.2 ⟨hr, rfl⟩, Option.map_some] at hrow
  split at hrow
  · cases hrow
  · rw [Option.some.inj hrow]
    exact faithful_aggregate rfl (hkeeps.even r.key)

def sampleSetting : Setting where
  sections version := if version = 1 then [.reading, .reading, .reading] else [.reading]
  dayOf t :=
    CivilCalendar.Date.ofDays ((t + seconds 18000 + CivilCalendar.epoch).toNat / CivilCalendar.day)

def banded (band : ℚ) : ScoreRun := { band := some band, items := [("mcq", .correct)] }

def reached (es : List Event) : World := es.foldl (World.after sampleSetting) (start 0)

def mended : List Event :=
  [.issue 1 11 2 .exam, .submit 1 (seconds 10) (seconds 11) (banded 6), .issue 2 11 2 .exam,
    .submit 2 (seconds 20) (seconds 21) (banded 7), .refresh (seconds 900), .void 1,
    .regrade 2 (seconds 1000) (banded 8)]

theorem evenlyWeighted_of_version {z : Setting} {attempts : Attempts} {n : ℕ}
    (h : ∀ a ∈ attempts.rows, a.testVersionId = n) (k : Key) : EvenlyWeighted z attempts k := by
  intro a ha b hb _ _ _ _
  refine .inr ?_
  unfold weight
  rw [h a (mem_attemptsOn.1 ha).1, h b (mem_attemptsOn.1 hb).1]

theorem runs_mended : Runs (Step sampleSetting) (Keeps sampleSetting) (start 0)
    (mended ++ [.refresh (seconds 1800)]) (reached (mended ++ [.refresh (seconds 1800)])) := by
  have heven : ∀ k, EvenlyWeighted sampleSetting (reached (mended.take 4)).attempts k :=
    evenlyWeighted_of_version (n := 2) (by decide +kernel)
  have heven' : ∀ k, EvenlyWeighted sampleSetting (reached mended).attempts k :=
    evenlyWeighted_of_version (n := 2) (by decide +kernel)
  refine .next trivial ⟨trivial, rfl⟩ (.next trivial ⟨by decide +kernel, rfl⟩
    (.next trivial ⟨trivial, rfl⟩ (.next trivial ⟨by decide +kernel, rfl⟩
    (.next ⟨by decide +kernel, by decide +kernel, heven⟩ ⟨by decide +kernel, rfl⟩
    (.next trivial ⟨trivial, rfl⟩ (.next trivial ⟨by decide +kernel, rfl⟩
    (.next ⟨by decide +kernel, by decide +kernel, heven'⟩ ⟨by decide +kernel, rfl⟩
    (.refl _))))))))

theorem progress_converges_on_mended :
    Recomputed sampleSetting (seconds 1800) (reached (mended ++ [.refresh (seconds 1800)])) ∧
      CountedOnce sampleSetting (reached (mended ++ [.refresh (seconds 1800)])) :=
  progress_converges sampleSetting 0 (seconds 1800) mended _ runs_mended

/-! ## Where it fails -/

theorem alive_of_recomputed {z : Setting} {w : World} {now : Time}
    (h : Recomputed z now (w.after z (.refresh now))) :
    ∀ r ∈ w.table.rows, attemptsOn z w.attempts r.key ≠ [] := by
  intro r hr hnil
  have hkey := h r.key
  have hkept : shown (w.after z (.refresh now)).table r.key = some r.aggregates := by
    change shown (refreshUserProgress z now none w.attempts w.table) r.key = _
    rw [shown_refresh, if_neg (fun hne => hne.2 hnil)]
    unfold shown
    rw [Table.get?_eq_some.2 ⟨hr, rfl⟩]
    rfl
  rw [hkept, shown_fresh] at hkey
  change some r.aggregates = expected z w.attempts r.key at hkey
  unfold expected at hkey
  rw [if_pos hnil] at hkey
  cases hkey

def voided : List Event :=
  [.issue 1 11 2 .exam, .submit 1 (seconds 10) (seconds 11) (banded 6), .refresh (seconds 900),
    .void 1]

theorem voided_attempt_still_counted :
    Any (Step sampleSetting) (start 0) (voided ++ [.refresh (seconds 1800)])
      (reached (voided ++ [.refresh (seconds 1800)])) ∧
    ¬ Recomputed sampleSetting (seconds 1800) (reached (voided ++ [.refresh (seconds 1800)])) := by
  constructor
  · exact .next trivial ⟨trivial, rfl⟩ (.next trivial ⟨by decide +kernel, rfl⟩
      (.next trivial ⟨by decide +kernel, rfl⟩ (.next trivial ⟨trivial, rfl⟩
      (.next trivial ⟨by decide +kernel, rfl⟩ (.refl _)))))
  · intro h
    have halive := alive_of_recomputed (w := reached voided) h
    have hdead : ¬ ∀ r ∈ (reached voided).table.rows,
        attemptsOn sampleSetting (reached voided).attempts r.key ≠ [] := by decide +kernel
    exact hdead halive

end IeltsHub.ProgressRefreshes
