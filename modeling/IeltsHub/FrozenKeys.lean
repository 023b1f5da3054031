import IeltsHub.ContestScoring
import IeltsHub.PagingWalk

set_option autoImplicit false

/-!
# The keys of a contest

What a contest recorded is what its entrants are scored from, as long as no key of the paper is
fixed while an entrant is still to be scored, and none is released a paper whose keys were fixed.
-/
namespace IeltsHub.FrozenKeys
open PyExc PyText PyValue PyDict PyTime QtypesRegistry RowTable GuardedRuns ContentModels ExamModels
  ExamScoring ExamScoringInputs ExamSession SessionScores RegradeSpec EqualAnswers KeyFixes
  ContestScoring
open AuthoringEdits hiding Act
open ContestRequests hiding Act releaseKey

/-! ## A run and the keys it is made from -/

section
variable {scorer : Scorer} {keys : Dict String KeyVersion} {responses : Dict String Json}

theorem usedKeys_foldlM {items : List ItemInput} {t t' : Tally}
    (h : items.foldlM (scoreStep scorer keys responses) t = .ok t') (x : String) :
    t'.usedKeys.get? x =
      if x ∈ items.map ItemInput.questionVersionXid ∧ (keys.get? x).isSome then
        (keys.get? x).map KeyVersion.xid
      else t.usedKeys.get? x := by
  induction items generalizing t with
  | nil =>
    cases h
    simp
  | cons item items ih =>
    rw [List.foldlM_cons] at h
    obtain ⟨u, hu, h⟩ := bind_eq_ok.1 h
    rw [ih h]
    unfold scoreStep at hu
    cases hk : keys.get? item.questionVersionXid with
    | none =>
      simp only [hk] at hu
      cases hu
      by_cases hx : x = item.questionVersionXid
      · simp [hx, hk]
      · simp [hx]
    | some kv =>
      simp only [hk] at hu
      obtain ⟨score, _, hu⟩ := bind_eq_ok.1 hu
      cases hu
      by_cases hx : x = item.questionVersionXid
      · simp [hx, hk]
      · have hx' : ¬ item.questionVersionXid = x := fun q => hx q.symm
        simp [hx, Dict.get?_put, hx']

end

section
variable {c c' : ContentStore} {v : ℕ}

/-- What a paper is scored from: its questions, their current keys, its band map. -/
structure InputsOf (c : ContentStore) (v : ℕ) (i : ScoringInputs) : Prop where
  items : ∀ x, x ∈ i.items.map ItemInput.questionVersionXid ↔ ∃ n ∈ questionIds c v, x = str n
  kinds : ∀ item ∈ i.items, ∃ p ∈ placed c v, item.questionVersionXid = str p.questionVersion.id ∧
    item.typeKey = p.questionVersion.typeKey ∧ item.typeVersion = p.questionVersion.typeVersion
  keys : ∀ n ∈ questionIds c v, i.keys.get? (str n) = currentKeyOf c n
  bandMap : i.bandMap.map BandMap.xid = (bandMapVersion c v).map (fun b => str b.id)

theorem inputsOf_scoringInputs {i : ScoringInputs} (h : scoringInputs c v = .ok i) :
    InputsOf c v i := by
  unfold scoringInputs at h
  obtain ⟨items, hitems, h⟩ := bind_eq_ok.1 h
  obtain ⟨bandMap, hband, h⟩ := bind_eq_ok.1 h
  cases h
  have hrows : ∀ p, p ∈ (placed c v).insertionSort Placed.before ↔ p ∈ placed c v :=
    fun p => (List.perm_insertionSort _ _).mem_iff
  have hkinds : ∀ item ∈ items, ∃ p ∈ placed c v,
      item.questionVersionXid = str p.questionVersion.id ∧
        item.typeKey = p.questionVersion.typeKey ∧
          item.typeVersion = p.questionVersion.typeVersion := by
    intro item hitem
    obtain ⟨p, hp, hpi⟩ := exists_input_of_mapM hitems hitem
    obtain ⟨group, _, rfl⟩ := map_eq_ok.1 hpi
    exact ⟨p, (hrows p).1 hp, rfl, rfl, rfl⟩
  constructor
  · intro x
    constructor
    · intro hx
      obtain ⟨item, hitem, rfl⟩ := List.mem_map.1 hx
      obtain ⟨p, hp, hxid, _⟩ := hkinds item hitem
      exact ⟨p.questionVersion.id, List.mem_map_of_mem hp, hxid⟩
    · rintro ⟨n, hn, rfl⟩
      obtain ⟨p, hp, rfl⟩ := List.mem_map.1 hn
      obtain ⟨item, hitem, hpi⟩ := exists_of_mapM hitems ((hrows p).2 hp)
      obtain ⟨group, _, rfl⟩ := map_eq_ok.1 hpi
      exact List.mem_map_of_mem hitem
  · exact hkinds
  · intro n hn
    obtain ⟨p, hp, rfl⟩ := List.mem_map.1 hn
    dsimp only
    rw [get?_currentKeys, if_pos (List.mem_map_of_mem ((hrows p).2 hp))]
  · dsimp only
    cases hb : bandMapVersion c v with
    | none =>
      rw [hb] at hband
      cases hband
      rfl
    | some b =>
      rw [hb] at hband
      obtain ⟨m, hm, hband⟩ := bind_eq_ok.1 hband
      cases hband
      obtain ⟨rows, _, rfl⟩ := map_eq_ok.1 hm
      rfl

theorem scoringInputs_rekeyed (h : Rekeyed c c')
    (hkeys : ∀ n ∈ questionIds c v, currentKeyOf c' n = currentKeyOf c n) {i' : ScoringInputs}
    (hi : scoringInputs c' v = .ok i') : ∃ i, scoringInputs c v = .ok i ∧ i.items = i'.items ∧
      i.bandMap = i'.bandMap ∧ ∀ item ∈ i.items,
        i'.keys.get? item.questionVersionXid = i.keys.get? item.questionVersionXid := by
  have hof' := inputsOf_scoringInputs hi
  have hids : questionIds c' v = questionIds c v := by
    unfold questionIds
    rw [h.placed]
  have hreturns : ∃ i, scoringInputs c v = .ok i ∧ i.items = i'.items ∧ i.bandMap = i'.bandMap := by
    unfold scoringInputs at hi ⊢
    obtain ⟨items, hitems, hi⟩ := bind_eq_ok.1 hi
    obtain ⟨bandMap, hband, hi⟩ := bind_eq_ok.1 hi
    cases hi
    rw [h.placed] at hitems
    rw [h.bandMapVersion] at hband
    exact ⟨_, bind_eq_ok.2 ⟨items, hitems, bind_eq_ok.2 ⟨bandMap, hband, rfl⟩⟩, rfl, rfl⟩
  obtain ⟨i, hi', hitems, hband⟩ := hreturns
  have hof := inputsOf_scoringInputs hi'
  refine ⟨i, hi', hitems, hband, ?_⟩
  intro item hitem
  obtain ⟨n, hn, hxid⟩ := (hof.items _).1 (List.mem_map_of_mem hitem)
  rw [hxid, hof.keys n hn, hof'.keys n (hids ▸ hn), hkeys n hn]

theorem computeRun_rekeyed (h : Rekeyed c c') {s : ExamModels.Store} {r : Attempt}
    (hkeys : ∀ n ∈ questionIds c r.testVersionId, currentKeyOf c' n = currentKeyOf c n)
    {scorer : Scorer} {reason : String} {run : ScoreRun}
    (hrun : computeRun scorer { s with content := c' } r reason = .ok run) :
    computeRun scorer { s with content := c } r reason = .ok run := by
  obtain ⟨i', hi', hscore⟩ := bind_eq_ok.1 hrun
  obtain ⟨i, hi, hitems, hband, hkeys'⟩ := scoringInputs_rekeyed h hkeys hi'
  refine bind_eq_ok.2 ⟨i, hi, ?_⟩
  rw [← hscore, hitems, hband]
  symm
  apply scoreAttempt_congr
  rw [← hitems]
  exact hkeys'

/-! ## A run and what was recorded -/

def Banded (c : ContentStore) (v : ℕ) : Prop :=
  ∀ tv, c.testVersions.get? v = some tv → ∀ id, tv.bandMapVersionId = some id →
    id ≠ 0 ∧ (c.bandMaps.get? id).isSome

theorem bandMapVersion_id (h : Banded c v) : (bandMapVersion c v).map BandMapVersion.id =
    (c.testVersions.get? v).bind TestVersion.bandMapVersionId := by
  unfold bandMapVersion
  cases htv : c.testVersions.get? v with
  | none => rfl
  | some tv =>
    change Option.map _ (tv.bandMapVersionId >>= _) = tv.bandMapVersionId
    cases hid : tv.bandMapVersionId with
    | none => rfl
    | some id =>
      obtain ⟨hne, hsome⟩ := h tv htv id hid
      obtain ⟨b, hb⟩ := Option.isSome_iff_exists.1 hsome
      change Option.map _ (if id = 0 then none else c.bandMaps.get? id) = _
      rw [if_neg hne, hb, Option.map_some, Table.get?_key hb]

theorem eq_of_intOfText_str {n : ℕ} {m : ℤ}
    (h : (intOfText (str n) : Except PlatformErrors.Raised ℤ) = .ok m) : m = n := by
  have hdigits : ∀ c ∈ Nat.toDigits 10 n, c.isDigit = true :=
    fun c hc => Nat.isDigit_of_mem_toDigits (by decide) (by decide) hc
  have hisdigit : isdigit (toString n) = true := by
    unfold isdigit
    rw [PagingWalk.toList_toString, Bool.and_eq_true, List.all_eq_true]
    refine ⟨by simp [Nat.toDigits_ne_nil], fun c hc => ?_⟩
    exact decimal?_isDigitChar (PagingWalk.decimal?_of_isDigit (hdigits c hc))
  unfold str at h
  rw [intOfText_of_isdigit hisdigit, PagingWalk.toList_toString,
    PagingWalk.mapM_decimal hdigits] at h
  dsimp only at h
  split at h
  · cases h
    rw [PagingWalk.ofDigits_map, Nat.ofDigitChars_ten_toDigits]
  · cases h

theorem runRow_columns {run : ScoreRun} {id attempt : ℕ} {job initiator : Option ℕ} {now : Time}
    {row : ScoreRunRow} (h : runRow run id attempt job initiator now = .ok row) :
    row.keyVersions = run.keyVersions ∧
      (run.bandMapXid.mapM intOfText : Except PlatformErrors.Raised _) = .ok row.bandMapVersionId ∧
        numeric 7 2 run.rawScore = .ok row.rawScore := by
  unfold runRow at h
  obtain ⟨_, hband, h⟩ := bind_eq_ok.1 h
  obtain ⟨_, hraw, h⟩ := bind_eq_ok.1 h
  obtain ⟨_, _, h⟩ := bind_eq_ok.1 h
  obtain ⟨_, _, h⟩ := bind_eq_ok.1 h
  cases h
  exact ⟨rfl, hband, hraw⟩

theorem scoredFrom_of_run {s : ExamModels.Store} {r : Attempt} {scorer : Scorer} {reason : String}
    {run : ScoreRun} {row : ScoreRunRow} {id attempt : ℕ} {job initiator : Option ℕ} {now t : Time}
    (hbanded : Banded c r.testVersionId)
    (hrun : computeRun scorer { s with content := c } r reason = .ok run)
    (hrow : runRow run id attempt job initiator now = .ok row) :
    ScoredFrom (frozen c r.testVersionId t) row := by
  obtain ⟨i, hi, hscore⟩ := bind_eq_ok.1 hrun
  have hof := inputsOf_scoringInputs hi
  obtain ⟨tally, htally, rfl⟩ := map_eq_ok.1 hscore
  obtain ⟨hkeys, hband, _⟩ := runRow_columns hrow
  constructor
  · intro x
    rw [hkeys]
    change tally.usedKeys.get? x = _
    rw [usedKeys_foldlM htally x]
    apply Option.ext
    intro y
    rw [get?_recorded_frozen]
    by_cases hx : x ∈ i.items.map ItemInput.questionVersionXid
    · obtain ⟨n, hn, rfl⟩ := (hof.items x).1 hx
      have hcurrent : (i.keys.get? (str n)).map KeyVersion.xid = currentXid c n := by
        rw [hof.keys n hn]
        rfl
      constructor
      · intro h
        split at h
        · exact ⟨n, hn, rfl, hcurrent ▸ h⟩
        · cases h
      · rintro ⟨m, _, hm, hy⟩
        have hsame : n = m := str_injective hm
        subst hsame
        rw [← hcurrent] at hy
        obtain ⟨kv, hkv, hxid⟩ := Option.map_eq_some_iff.1 hy
        rw [if_pos ⟨hx, by rw [hkv]; rfl⟩, hkv, Option.map_some, hxid]
    · rw [if_neg (fun h => hx h.1)]
      constructor
      · intro h
        cases h
      · rintro ⟨m, hm, rfl, _⟩
        exact absurd ((hof.items _).2 ⟨m, hm, rfl⟩) hx
  · change (i.bandMap.map BandMap.xid).mapM intOfText = _ at hband
    rw [hof.bandMap] at hband
    change row.bandMapVersionId = ((c.testVersions.get? _).bind _).map Nat.cast
    rw [← bandMapVersion_id hbanded]
    cases hb : bandMapVersion c r.testVersionId with
    | none =>
      rw [hb] at hband
      exact (Except.ok.inj hband).symm
    | some b =>
      rw [hb] at hband
      obtain ⟨m, hm, hband⟩ := bind_eq_ok.1 hband
      rw [← Except.ok.inj hband, eq_of_intOfText_str hm]
      rfl

end

/-! ## Steps -/

theorem frozen_congr {c c' : ContentStore} {v : ℕ} {t : Time} (h : Rekeyed c c')
    (hkeys : ∀ n ∈ questionIds c v, currentKeyOf c' n = currentKeyOf c n) :
    frozen c' v t = frozen c v t := by
  have hentry : ∀ p ∈ placed c v,
      (c'.answerKeys.select (fun k =>
        k.questionVersionId = p.questionVersion.id && k.isCurrent)).head?.map AnswerKeyVersion.id =
      (c.answerKeys.select (fun k =>
        k.questionVersionId = p.questionVersion.id && k.isCurrent)).head?.map
          AnswerKeyVersion.id := by
    intro p hp
    apply Option.map_injective (fun _ _ => str_injective)
    rw [frozen_entry, frozen_entry]
    unfold currentXid
    rw [hkeys _ (List.mem_map_of_mem hp)]
  unfold frozen
  rw [h.placed, h.testVersions]
  congr 1
  apply List.map_congr_left
  intro p hp
  rw [hentry p hp]

/-- What a request that is let through must find: a fix of a key of the paper, every entrant with
their run on record; a release that starts an attempt, the keys as they were recorded. -/
def Meets (s : State) : Act → Prop
  | .session _ => True
  | .fixKey id r _ _ => s.contest.keyFreeze ≠ none → r.access = .ok () →
    id ∈ questionIds s.library.content s.paperId → ∀ x ∈ s.entrants, Settled s.exam.store x.id
  | .releaseKey actor _ _ => ∀ f, s.contest.keyFreeze = some f →
    ∀ entry, entryOf s.view actor.userId = some entry → entry.attemptId = none →
      frozen s.library.content s.paperId f.frozenAt = f

/-- `c` is the content when the contest was frozen: every run of an entrant is made from it, and
the keys are as they were then until all entrants are settled. -/
structure Held (ses : ExamSession) (s : State) (f : KeyFreeze) (c : ContentStore) : Prop where
  frozen : frozen c s.paperId f.frozenAt = f
  rekeyed : Rekeyed c s.library.content
  made : ∀ x ∈ s.entrants, ∀ row ∈ s.exam.store.runsOf x.id, Closed s.exam.store x.id ∧
    Computed ses { s.exam.store with content := c } x.id row
  current : ContestRequests.frozen s.library.content s.paperId f.frozenAt = f ∨
    ∀ x ∈ s.entrants, Settled s.exam.store x.id

structure Inv (ses : ExamSession) (s : State) : Prop where
  content : s.exam.store.content = s.library.content
  banded : Banded s.library.content s.paperId
  owned : ∀ row ∈ s.exam.store.scoreRuns.rows,
    (s.exam.store.attempts.get? row.attemptId).isSome
  paper : ∀ x ∈ s.entrants, x.testVersionId = s.paperId
  held : s.contest.keyFreeze = none ∧ s.entrants = [] ∨
    ∃ f c, s.contest.keyFreeze = some f ∧ Held ses s f c

section
variable {ses : ExamSession} {s t : State} {f : KeyFreeze} {c : ContentStore}

theorem mem_entrants {x : Attempt} : x ∈ s.entrants ↔
    s.exam.store.attempts.get? x.id = some x ∧ x.competitionId = some s.contestId := by
  unfold State.entrants Table.select
  rw [List.mem_filter, Table.get?_eq_some, decide_eq_true_eq]
  simp

theorem sitter_columns {x y : Attempt} (h : sitter x = sitter y) :
    x.id = y.id ∧ x.testVersionId = y.testVersionId ∧ x.competitionId = y.competitionId := by
  simp only [sitter, Prod.mk.injEq] at h
  exact ⟨h.1, h.2.2.2.1, h.2.2.2.2.1⟩

theorem Held.keys (h : Held ses s f c) {x : Attempt} (hx : x ∈ s.entrants)
    (hunsettled : ¬ Settled s.exam.store x.id) :
    ∀ n ∈ questionIds c s.paperId, currentKeyOf s.library.content n = currentKeyOf c n := by
  intro n hn
  rcases h.current with hcurrent | hsettled
  · apply currentKeyOf_congr h.rekeyed
    exact currentXid_of_frozen h.rekeyed (hcurrent.trans h.frozen.symm) hn
  · exact absurd (hsettled x hx) hunsettled

theorem computed_recast (h : Rekeyed c s.library.content) {x : Attempt} {row : ScoreRunRow}
    (hkeys : ∀ n ∈ questionIds c s.paperId, currentKeyOf s.library.content n = currentKeyOf c n)
    {u : ExamModels.Store} (hcontent : u.content = s.library.content)
    (hpaper : ∀ r, u.attempts.get? x.id = some r → r.testVersionId = s.paperId)
    (hcomputed : Computed ses u x.id row) : Computed ses { u with content := c } x.id row := by
  obtain ⟨r, run, now, row', hr, hrun, hrow, hsame⟩ := hcomputed
  refine ⟨r, run, now, row', hr, ?_, hrow, hsame⟩
  apply computeRun_rekeyed h
  · rw [hpaper r hr]
    exact hkeys
  · rw [← hcontent]
    exact hrun

/-- What is held stays so while the content stays, every attempt goes along, and those that are
new have no run and find the keys as they were. -/
theorem Held.along (h : Held ses s f c) (hs : s.exam.store.content = s.library.content)
    (hpaper : ∀ x ∈ s.entrants, x.testVersionId = s.paperId)
    (hlibrary : t.library = s.library) (hpaperId : t.paperId = s.paperId)
    (hentrants : ∀ y ∈ t.entrants,
      (∃ x ∈ s.entrants, sitter x = sitter y ∧ Along ses x.id s.exam t.exam) ∨
        t.exam.store.runsOf y.id = [] ∧
          ContestRequests.frozen s.library.content s.paperId f.frozenAt = f) :
    Held ses t f c where
  frozen := by
    rw [hpaperId]
    exact h.frozen
  rekeyed := by
    rw [hlibrary]
    exact h.rekeyed
  made := by
    intro y hy row hrow
    rcases hentrants y hy with ⟨x, hx, hsitter, halong⟩ | ⟨hnone, _⟩
    · have hid := (sitter_columns hsitter).1
      rw [← hid] at hrow ⊢
      rcases halong.runs row hrow with ⟨row₀, hrow₀, hsame⟩ | ⟨hunsettled, hclosed, hcomputed⟩
      · obtain ⟨hclosed, hcomputed⟩ := h.made x hx row₀ hrow₀
        obtain ⟨hclosed', hanswers⟩ := halong.closed hclosed
        obtain ⟨r, run, now, row', hr, hrun, hrow', hsame'⟩ :=
          @Computed.transfer ses x.id { s.exam.store with content := c }
            { t.exam.store with content := c } row₀ hcomputed halong.sits rfl hanswers
        exact ⟨hclosed', r, run, now, row', hr, hrun, hrow', hsame.trans hsame'⟩
      · refine ⟨hclosed, computed_recast h.rekeyed (h.keys hx hunsettled) ?_ ?_ hcomputed⟩
        · exact halong.content.trans hs
        · intro r hr
          have hget := (mem_entrants.1 hx).1
          have hsits := halong.sits
          rw [hr, hget] at hsits
          rw [(sitter_columns (Option.some.inj hsits)).2.1, hpaper x hx]
    · rw [hnone] at hrow
      cases hrow
  current := by
    rw [hlibrary, hpaperId]
    rcases h.current with hcurrent | hsettled
    · exact .inl hcurrent
    · by_cases hnew : ∃ y ∈ t.entrants, t.exam.store.runsOf y.id = [] ∧
          ContestRequests.frozen s.library.content s.paperId f.frozenAt = f
      · obtain ⟨_, _, _, hcurrent⟩ := hnew
        exact .inl hcurrent
      · right
        intro y hy
        rcases hentrants y hy with ⟨x, hx, hsitter, halong⟩ | hno
        · rw [← (sitter_columns hsitter).1]
          exact halong.settled (hsettled x hx)
        · exact absurd ⟨y, hy, hno⟩ hnew

/-! ### Calls of the exam session -/

theorem entrants_session {w : World} (halong : ∀ a, Along ses a s.exam w) {y : Attempt}
    (hy : y ∈ ({ s with exam := w } : State).entrants) : ∃ x ∈ s.entrants, sitter x = sitter y := by
  obtain ⟨hget, hcompetition⟩ := mem_entrants.1 hy
  have hsits := (halong y.id).sits
  change w.store.attempts.get? y.id = some y at hget
  rw [hget, Option.map_some] at hsits
  obtain ⟨x, hx, hsitter⟩ := Option.map_eq_some_iff.1 hsits.symm
  obtain ⟨hid, _, hsame⟩ := sitter_columns hsitter
  refine ⟨x, mem_entrants.2 ⟨?_, hsame.trans hcompetition⟩, hsitter⟩
  rw [hid]
  exact hx

theorem owned_along {w w' : World} (halong : ∀ a, Along ses a w w')
    (h : ∀ row ∈ w.store.scoreRuns.rows, (w.store.attempts.get? row.attemptId).isSome) :
    ∀ row ∈ w'.store.scoreRuns.rows, (w'.store.attempts.get? row.attemptId).isSome := by
  intro row hrow
  have hof : row ∈ w'.store.runsOf row.attemptId :=
    List.mem_filter.2 ⟨hrow, decide_eq_true rfl⟩
  rcases (halong row.attemptId).runs row hof with ⟨row₀, hrow₀, _⟩ | ⟨_, ⟨r, hr, _⟩, _⟩
  · obtain ⟨hrow₀, hattempt⟩ := List.mem_filter.1 hrow₀
    have hsome := h row₀ hrow₀
    rw [of_decide_eq_true hattempt] at hsome
    have hsits := congrArg Option.isSome (halong row.attemptId).sits
    rw [Option.isSome_map, Option.isSome_map] at hsits
    rw [hsits]
    exact hsome
  · rw [hr]
    rfl

theorem inv_session (h : Inv ses s) {call : SessionRuns.Call} {w : World}
    (hstep : SessionRuns.Step ses s.exam call w) : Inv ses { s with exam := w } := by
  have halong : ∀ a, Along ses a s.exam w := fun a => along_step a hstep
  constructor
  · exact (halong 0).content.trans h.content
  · exact h.banded
  · exact owned_along halong h.owned
  · intro y hy
    obtain ⟨x, hx, hsitter⟩ := entrants_session halong hy
    rw [← (sitter_columns hsitter).2.1]
    exact h.paper x hx
  · rcases h.held with ⟨hnone, hempty⟩ | ⟨f, c, hf, hheld⟩
    · refine .inl ⟨hnone, List.eq_nil_iff_forall_not_mem.2 ?_⟩
      intro y hy
      obtain ⟨x, hx, _⟩ := entrants_session halong hy
      rw [hempty] at hx
      cases hx
    · refine .inr ⟨f, c, hf, hheld.along h.content h.paper rfl rfl ?_⟩
      intro y hy
      obtain ⟨x, hx, hsitter⟩ := entrants_session halong hy
      exact .inl ⟨x, hx, hsitter, halong x.id⟩

/-! ### Fixes -/

theorem inv_fixKey (h : Inv ses s) {id : ℕ} {r : Reach} {b : AnswerKeyBody} {xid : String}
    (hmeets : Meets s (.fixKey id r b xid)) (hfix : fixKey s id r b xid = .ok t) : Inv ses t := by
  obtain ⟨l, hl, hfix⟩ := bind_eq_ok.1 hfix
  cases hfix
  obtain ⟨haccess, _⟩ := fixAnswerKey_eq_ok hl
  obtain ⟨hrekeyed, hkeys⟩ := fixAnswerKey_content hl
  constructor
  · rfl
  · intro tv htv i hi
    change l.content.testVersions.get? s.paperId = some tv at htv
    rw [hrekeyed.testVersions] at htv
    change i ≠ 0 ∧ (l.content.bandMaps.get? i).isSome
    rw [hrekeyed.bandMaps]
    exact h.banded tv htv i hi
  · exact h.owned
  · exact h.paper
  · rcases h.held with hnone | ⟨f, c, hf, hheld⟩
    · exact .inl hnone
    · refine .inr ⟨f, c, hf, ?_⟩
      constructor
      · exact hheld.frozen
      · exact hheld.rekeyed.trans hrekeyed
      · exact hheld.made
      · rcases hheld.current with hcurrent | hsettled
        · by_cases hon : id ∈ questionIds s.library.content s.paperId
          · exact .inr (hmeets (by rw [hf]; simp) haccess hon)
          · left
            refine Eq.trans ?_ hcurrent
            apply frozen_congr hrekeyed
            intro n hn
            apply hkeys
            intro heq
            exact hon (heq ▸ hn)
        · exact .inr hsettled

/-! ### Releases -/

theorem releaseKey_cases {actor : Actor} {xid : String} {now : Time}
    (h : releaseKey ses s actor xid now = .ok t) : t = s ∨
      ∃ entry, entryOf s.view actor.userId = some entry ∧ entry.attemptId = none ∧
        t = started ses s actor xid entry now := by
  unfold releaseKey at h
  split at h
  · cases h
  split at h
  · cases h
  split at h
  · cases h
  cases hentry : entryOf s.view actor.userId with
  | none =>
    rw [hentry] at h
    cases h
  | some entry =>
    rw [hentry] at h
    dsimp only at h
    split at h
    · cases h
    split at h
    · cases h
      exact .inl rfl
    rename_i hattempt
    cases htv : s.library.content.testVersions.get? s.paperId with
    | none =>
      rw [htv] at h
      cases h
    | some tv =>
      rw [htv] at h
      dsimp only at h
      split at h
      · cases h
      · cases h
        exact .inr ⟨entry, rfl, not_not.1 hattempt, rfl⟩

section
variable {actor : Actor} {xid : String} {entry : Entry} {now : Time}

theorem get?_started (a : ℕ) :
    (started ses s actor xid entry now).exam.store.attempts.get? a =
      if (entrantAttempt s actor xid).id = a then some (entrantAttempt s actor xid)
      else s.exam.store.attempts.get? a :=
  Table.get?_put _ _ _

theorem along_started {a : ℕ} (ha : (entrantAttempt s actor xid).id ≠ a) :
    Along ses a s.exam (started ses s actor xid entry now).exam := by
  apply along_of_same
  · rfl
  · rw [get?_started, if_neg ha]
  · intro _
    rfl
  · rfl

theorem runsOf_started (h : ∀ row ∈ s.exam.store.scoreRuns.rows,
    (s.exam.store.attempts.get? row.attemptId).isSome) :
    s.exam.store.runsOf (entrantAttempt s actor xid).id = [] := by
  rw [List.eq_nil_iff_forall_not_mem]
  intro row hrow
  obtain ⟨hrow, hattempt⟩ := List.mem_filter.1 hrow
  have hsome := h row hrow
  have hnone : s.exam.store.attempts.get? (entrantAttempt s actor xid).id = none :=
    Table.get?_nextId _
  rw [of_decide_eq_true hattempt, hnone] at hsome
  cases hsome

theorem paperId_freezeKeys (s : State) (now : Time) :
    ((freezeKeys s.view now).getD s.contest).testVersionId = s.paperId := by
  unfold freezeKeys
  split <;> rfl

theorem entrants_started {y : Attempt}
    (hy : y ∈ (started ses s actor xid entry now).entrants) :
    y = entrantAttempt s actor xid ∨ y ∈ s.entrants ∧ (entrantAttempt s actor xid).id ≠ y.id := by
  obtain ⟨hget, hcompetition⟩ := mem_entrants.1 hy
  rw [get?_started] at hget
  split at hget
  · exact .inl (Option.some.inj hget).symm
  · next hne => exact .inr ⟨mem_entrants.2 ⟨hget, hcompetition⟩, hne⟩

theorem inv_started (h : Inv ses s)
    (hmeets : ∀ f, s.contest.keyFreeze = some f →
      ContestRequests.frozen s.library.content s.paperId f.frozenAt = f) :
    Inv ses (started ses s actor xid entry now) := by
  have hpaperId : (started ses s actor xid entry now).paperId = s.paperId :=
    paperId_freezeKeys s now
  constructor
  · exact h.content
  · rw [hpaperId]
    exact h.banded
  · intro row hrow
    rw [get?_started]
    split
    · rfl
    · exact h.owned row hrow
  · intro y hy
    rw [hpaperId]
    rcases entrants_started hy with rfl | ⟨hold, _⟩
    · rfl
    · exact h.paper y hold
  · right
    have hentrants : ∀ f, ContestRequests.frozen s.library.content s.paperId f.frozenAt = f →
        ∀ y ∈ (started ses s actor xid entry now).entrants,
          (∃ x ∈ s.entrants, sitter x = sitter y ∧
            Along ses x.id s.exam (started ses s actor xid entry now).exam) ∨
          s.exam.store.runsOf y.id = [] ∧
            ContestRequests.frozen s.library.content s.paperId f.frozenAt = f := by
      intro f hf y hy
      rcases entrants_started hy with rfl | ⟨hold, hne⟩
      · exact .inr ⟨runsOf_started h.owned, hf⟩
      · exact .inl ⟨y, hold, rfl, along_started hne⟩
    rcases h.held with ⟨hnone, hempty⟩ | ⟨f, c, hf, hheld⟩
    · -- the first release: the freeze is taken of the content as it is
      have hfreeze : (started ses s actor xid entry now).contest.keyFreeze =
          some (ContestRequests.frozen s.library.content s.paperId now) := by
        change ((freezeKeys s.view now).getD s.contest).keyFreeze = _
        unfold freezeKeys
        have hunfrozen : s.view.contest.keyFreeze = none := hnone
        rw [if_pos hunfrozen]
        rfl
      refine ⟨_, s.library.content, hfreeze, ?_⟩
      have hheld : Held ses s (ContestRequests.frozen s.library.content s.paperId now)
          s.library.content := by
        constructor
        · rfl
        · exact Rekeyed.refl _
        · rw [hempty]
          intro x hx
          cases hx
        · exact .inl rfl
      exact hheld.along h.content h.paper rfl hpaperId (hentrants _ rfl)
    · have hfreeze : (started ses s actor xid entry now).contest.keyFreeze = some f := by
        change ((freezeKeys s.view now).getD s.contest).keyFreeze = _
        unfold freezeKeys
        have hfrozen : ¬ s.view.contest.keyFreeze = none := by
          change ¬ s.contest.keyFreeze = none
          rw [hf]
          simp
        rw [if_neg hfrozen]
        exact hf
      exact ⟨f, c, hfreeze, hheld.along h.content h.paper rfl hpaperId
        (hentrants f (hmeets f hf))⟩

end

theorem inv_step {a : Act} (h : Inv ses s) (hmeets : Meets s a) (hstep : Step ses s a t) :
    Inv ses t := by
  cases hstep with
  | session hcall => exact inv_session h hcall
  | fixKey hfix => exact inv_fixKey h hmeets hfix
  | releaseKey hrelease =>
    rcases releaseKey_cases hrelease with rfl | ⟨entry, hentry, hattempt, rfl⟩
    · exact h
    · exact inv_started h (fun f hf => hmeets f hf entry hentry hattempt)
  | rolledBack a => exact h

/-! ## Runs -/

/-- Before the first release: no freeze and no entrant's attempt. -/
structure Start (s : State) : Prop where
  content : s.exam.store.content = s.library.content
  banded : Banded s.library.content s.paperId
  owned : ∀ row ∈ s.exam.store.scoreRuns.rows,
    (s.exam.store.attempts.get? row.attemptId).isSome
  unfrozen : s.contest.keyFreeze = none
  unstarted : s.entrants = []

theorem Start.inv (h : Start s) (ses : ExamSession) : Inv ses s where
  content := h.content
  banded := h.banded
  owned := h.owned
  paper := by
    rw [h.unstarted]
    intro x hx
    cases hx
  held := .inl ⟨h.unfrozen, h.unstarted⟩

theorem Inv.made (h : Inv ses s) {x : Attempt} (hx : x ∈ s.entrants) {row : ScoreRunRow}
    (hrow : row ∈ s.initialRuns x.id) : ∃ f c, s.contest.keyFreeze = some f ∧ Held ses s f c ∧
      Computed ses { s.exam.store with content := c } x.id row := by
  rcases h.held with ⟨_, hempty⟩ | ⟨f, c, hf, hheld⟩
  · rw [hempty] at hx
    cases hx
  · exact ⟨f, c, hf, hheld, (hheld.made x hx row (List.mem_filter.1 hrow).1).2⟩

theorem Held.banded (h : Held ses s f c) (hbanded : Banded s.library.content s.paperId) :
    Banded c s.paperId := by
  intro tv htv i hi
  rw [← h.rekeyed.testVersions] at htv
  rw [← h.rekeyed.bandMaps]
  exact hbanded tv htv i hi

theorem computed_entrant {x : Attempt} (hx : x ∈ s.entrants) {row : ScoreRunRow}
    (h : Computed ses { s.exam.store with content := c } x.id row) :
    ∃ run now row', computeRun ses.scorer { s.exam.store with content := c } x "initial" = .ok run ∧
      runRow run row'.id x.id none none now = .ok row' ∧ marks row = marks row' := by
  obtain ⟨r, run, now, row', hr, hrun, hrow, hsame⟩ := h
  have hget : s.exam.store.attempts.get? x.id = some r := hr
  rw [(mem_entrants.1 hx).1] at hget
  cases hget
  exact ⟨run, now, row', hrun, hrow, hsame⟩

theorem marks_columns {row row' : ScoreRunRow} (h : marks row = marks row') :
    row.keyVersions = row'.keyVersions ∧ row.bandMapVersionId = row'.bandMapVersionId ∧
      row.rawScore = row'.rawScore := by
  simp only [marks, Prod.mk.injEq] at h
  exact ⟨h.2.2.1, h.2.2.2.1, h.2.2.2.2⟩

theorem Inv.recorded (h : Inv ses s) : Recorded s := by
  intro x hx row hrow
  obtain ⟨f, c, hf, hheld, hcomputed⟩ := h.made hx hrow
  obtain ⟨run, now, row', hrun, hrow', hsame⟩ := computed_entrant hx hcomputed
  have hpaper := h.paper x hx
  have hscored : ScoredFrom (ContestRequests.frozen c x.testVersionId f.frozenAt) row' := by
    apply scoredFrom_of_run ?_ hrun hrow'
    rw [hpaper]
    exact hheld.banded h.banded
  rw [hpaper, hheld.frozen] at hscored
  obtain ⟨hkeys, hband, _⟩ := marks_columns hsame
  refine ⟨f, hf, ?_, ?_⟩
  · rw [hkeys]
    exact hscored.1
  · rw [hband]
    exact hscored.2

theorem Inv.evenHanded (h : Inv ses s) : EvenHanded ses.scorer s := by
  intro x hx y hy hsame hpicks rx hrx ry hry
  obtain ⟨f, c, hf, hheld, hcomputed⟩ := h.made hx hrx
  obtain ⟨f', c', hf', hheld', hcomputed'⟩ := h.made hy hry
  have hff' : f = f' := Option.some.inj (hf.symm.trans hf')
  subst hff'
  -- both runs are made from the content of the one freeze
  have hmade := (hheld.made y hy ry (List.mem_filter.1 hry).1).2
  obtain ⟨run, now, row, hrun, hrow, hmarks⟩ := computed_entrant hx hcomputed
  obtain ⟨run', now', row', hrun', hrow', hmarks'⟩ := computed_entrant hy hmade
  obtain ⟨i, hi, hscore⟩ := bind_eq_ok.1 hrun
  obtain ⟨i', hi', hscore'⟩ := bind_eq_ok.1 hrun'
  have hversion : y.testVersionId = x.testVersionId := (h.paper y hy).trans (h.paper x hx).symm
  rw [hversion] at hi'
  have hii' : i = i' := Except.ok.inj (hi.symm.trans hi')
  subst hii'
  have hof := inputsOf_scoringInputs hi
  have hraw : run.rawScore = run'.rawScore := by
    apply @rawScore_eq { s.exam.store with content := c } ses.scorer i.keys i.items i.bandMap
      i.bandMap "initial" x y run run' ?_ hsame hscore hscore'
    intro item hitem
    obtain ⟨p, hp, hxid, hkey, hversion⟩ := hof.kinds item hitem
    refine ⟨p.questionVersion.id, hxid, fun hselects => ?_⟩
    rw [hkey, hversion] at hselects
    apply hpicks p ?_ hselects
    rw [hheld.rekeyed.placed, ← h.paper x hx]
    exact hp
  have hnumeric := (runRow_columns hrow).2.2
  rw [hraw, (runRow_columns hrow').2.2] at hnumeric
  rw [(marks_columns hmarks).2.2, (marks_columns hmarks').2.2]
  exact (Except.ok.inj hnumeric).symm

/-- In a run whose requests all meet their condition every entrant is scored from what the contest
recorded, and equal responses have equal raw scores. -/
theorem scored_from_freeze (ses : ExamSession) {s t : State} {acts : List Act} (hs : Start s)
    (h : Runs (Step ses) Meets s acts t) : Recorded t ∧ EvenHanded ses.scorer t := by
  have ht : Inv ses t :=
    h.invariant (fun _ _ _ hi hmeets hstep => inv_step hi hmeets hstep) (hs.inv ses)
  exact ⟨ht.recorded, ht.evenHanded⟩

end

/-! ## Two entrants of one blank -/

def next (ses : ExamSession) (s : State) : Act → State
  | .session call => { s with exam := SessionRuns.settle ses s.exam call }
  | .fixKey id r b xid =>
    match fixKey s id r b xid with
    | .ok t => t
    | .error _ => s
  | .releaseKey actor xid now =>
    match releaseKey ses s actor xid now with
    | .ok t => t
    | .error _ => s

theorem step_next (ses : ExamSession) (s : State) (a : Act) : Step ses s a (next ses s a) := by
  cases a with
  | session call => exact .session (SessionRuns.step_settle ses s.exam call)
  | fixKey id r b xid =>
    unfold next
    dsimp only
    split
    · next t h => exact .fixKey h
    · exact .rolledBack _
  | releaseKey actor xid now =>
    unfold next
    dsimp only
    split
    · next t h => exact .releaseKey h
    · exact .rolledBack _

theorem any_next (ses : ExamSession) (s : State) (acts : List Act) :
    Any (Step ses) s acts (acts.foldl (next ses) s) := by
  induction acts generalizing s with
  | nil => exact .refl s
  | cons a acts ih => exact .next trivial (step_next ses s a) (ih _)

open FrozenPaper (sampleSession sampleLibrary sampleVersion)

def sampleState : State where
  contestId := 1
  contest :=
    { testVersionId := 1, lobbyOpensAt := 0, startsAt := 100, endsAt := seconds 3600
      durationSeconds := 1800 }
  entries := (Table.put .empty { userId := 1, registeredAt := 0 }).put
    { userId := 2, registeredAt := 0 }
  library := sampleLibrary.publish sampleVersion
  exam := { store := { content := (sampleLibrary.publish sampleVersion).content } }

theorem start_sample : Start sampleState where
  content := rfl
  banded := by
    intro tv htv id hid
    have hnone : (sampleState.library.content.testVersions.get? sampleState.paperId).bind
        TestVersion.bandMapVersionId = none := by decide +kernel
    rw [htv, Option.bind_some, hid] at hnone
    cases hnone
  owned := by
    intro row hrow
    cases hrow
  unfrozen := rfl
  unstarted := rfl

def carPark : List AnswerDelta :=
  [{ questionVersionXid := "q1", slotKey := "s1", response := .str "car park", clientSeq := 1 }]

def fixToGarage : Act :=
  .fixKey 1 {}
    { key := Dict.ofList [("slots", .obj [("s1", .obj [("accept", .arr [.str "garage"])])])] } "k2"

def scoredThenFixed : List Act :=
  [.releaseKey { userId := 1 } "a1" 200, .session (.submit 1 .user carPark), fixToGarage]

theorem scored_from_freeze_then_fixed :
    Recorded (scoredThenFixed.foldl (next sampleSession) sampleState) := by
  let scored := (scoredThenFixed.take 2).foldl (next sampleSession) sampleState
  have hrecorded : ∀ x ∈ scored.entrants, recordedRun scored.exam.store x ≠ none := by
    decide +kernel
  have hrun : Runs (Step sampleSession) Meets sampleState scoredThenFixed
      (scoredThenFixed.foldl (next sampleSession) sampleState) := by
    refine .next ?_ (step_next _ _ _) (.next trivial (step_next _ _ _)
      (.next ?_ (step_next _ _ _) (.refl _)))
    · intro f hf
      cases hf
    · intro _ _ _ x hx
      exact ⟨x, (mem_entrants.1 hx).1, .inr (hrecorded x hx)⟩
  exact (scored_from_freeze sampleSession start_sample hrun).1

def fixedBetween : List Act := [
  .releaseKey { userId := 1 } "a1" 200, .releaseKey { userId := 2 } "a2" 200,
  .session (.submit 1 .user carPark), fixToGarage, .session (.submit 2 .user carPark)]

def divided : State := fixedBetween.foldl (next sampleSession) sampleState

theorem sameResponses_divided : SameResponses divided.exam.store 1 2 := by
  intro n slot
  have hrows : divided.exam.store.answers.rows.map (fun r => (r.key, r.response)) =
      [((1, 1, "s1"), .str "car park"), ((2, 1, "s1"), .str "car park")] := by decide +kernel
  have hget : ∀ a, answerTo divided.exam.store a n slot =
      (((divided.exam.store.answers.rows.map (fun r => (r.key, r.response))).find?
        (fun e => e.1 = (a, n, slot))).map Prod.snd).getD .null := by
    intro a
    unfold answerTo Table.get?
    rw [List.find?_map, Option.map_map]
    rfl
  rw [hget, hget, hrows]
  by_cases hslot : (1, "s1") = (n, slot)
  · obtain ⟨rfl, rfl⟩ := Prod.mk.inj hslot
    rfl
  · have hne : ∀ a b : ℕ, ¬ (a, 1, "s1") = (b, n, slot) := fun a b h => hslot (Prod.mk.inj h).2
    simp [hne]

/-- The second entrant is scored from the key that was fixed meanwhile, and gets another mark for
the same answer. -/
theorem key_fix_divides_entrants : Start sampleState ∧
    ∃ t, Any (Step sampleSession) sampleState fixedBetween t ∧ ¬ Recorded t ∧
      ¬ EvenHanded sampleSession.scorer t := by
  refine ⟨start_sample, divided, any_next _ _ _, ?_, ?_⟩
  · intro h
    have hkeys : ∀ x ∈ divided.entrants, ∀ row ∈ divided.initialRuns x.id,
        divided.contest.keyFreeze.map (fun f => (recorded f).get? "1") =
          some (row.keyVersions.get? "1") := by
      intro x hx row hrow
      obtain ⟨f, hf, hscored⟩ := h x hx row hrow
      rw [hf, hscored.1]
      rfl
    revert hkeys
    decide +kernel
  · intro h
    have hpicks : SamePicks sampleSession.scorer divided 1 2 := by
      have hall : ∀ p ∈ placed divided.library.content divided.paperId,
          QtypesPrimitives.firstSelection (answersTo divided.exam.store 1 p.questionVersion.id) =
            QtypesPrimitives.firstSelection
              (answersTo divided.exam.store 2 p.questionVersion.id) := by decide +kernel
      exact fun p hp _ => hall p hp
    have hmarks : ∀ x ∈ divided.entrants, ∀ y ∈ divided.entrants, x.id = 1 → y.id = 2 →
        ∀ rx ∈ divided.initialRuns x.id, ∀ ry ∈ divided.initialRuns y.id,
          rx.rawScore = ry.rawScore := by
      intro x hx y hy hone htwo
      apply h x hx y hy
      · rw [hone, htwo]
        exact sameResponses_divided
      · rw [hone, htwo]
        exact hpicks
    revert hmarks
    decide +kernel

end IeltsHub.FrozenKeys
