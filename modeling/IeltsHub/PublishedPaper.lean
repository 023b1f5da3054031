import IeltsHub.KeySoundness

set_option autoImplicit false

/-!
# What a published paper is worth

The gate counts the declared slots, the scorer sums what each item is worth. Where the two agree
item by item, every student of the paper has a band; and they must, for a key that is removed
leaves its item counting one mark for each slot.
-/
namespace IeltsHub.PublishedPaper
open PyExc PyText PyValue PyDict PlatformErrors PlatformFindings QtypesSchemas QtypesPrimitives
  QtypesRegistry ContentComposition ContentPublishGate PublishGatePasses ScoringTotality
  ScoringMarks ExamScoring KeySoundness

def paperRun (scorer : Scorer) (c : TestComposition) (keys : Dict String KeyVersion)
    (responses : Dict String Json) : Except Raised ScoreRun := do
  let items ← c.questions.mapM itemOf
  let bandMap ← c.bandMap.mapM BandMapRef.toBandMap
  scoreAttempt { attemptXid := c.xid, userXid := "", items, responses } keys scorer bandMap
    "initial"

/-- The student has a band, and the maximum is the paper's whatever keys are removed. -/
structure Bands (scorer : Scorer) (c : TestComposition) (responses : Dict String Json)
    (run : ScoreRun) : Prop where
  scored : paperRun scorer c c.keys responses = .ok run
  maximum : run.maxRaw = c.totalSlots
  nonneg : 0 ≤ run.rawScore
  bounded : run.rawScore ≤ run.maxRaw
  banded : run.band.isSome = true
  removable : ∀ keys : Dict String KeyVersion,
    (∀ x k, keys.get? x = some k → c.keys.get? x = some k) →
      ∃ run', paperRun scorer c keys responses = .ok run' ∧ run'.maxRaw = run.maxRaw

/-- The question is scored without raising, and is worth its slots. -/
def WorthItsSlots (scorer : Scorer) (responses : Dict String Json)
    (p : SectionNode × GroupNode × QuestionNode) : Prop :=
  ∃ rules d key, p.2.1.rules = .ok rules ∧
    scorer.registry.defs.get? (p.2.2.typeKey, p.2.2.typeVersion) = some d ∧
    p.2.2.key = some key ∧
    Scorable scorer (requestOf p.2.2 key rules ((responses.get? p.2.2.xid).getD .null)) ∧
    worth d.scoring key = .ok p.2.2.slotKeys.length

/-- The paper can be banded: every question is worth its slots, and the band map can be read. -/
structure Bandable (scorer : Scorer) (c : TestComposition) (responses : Dict String Json) :
    Prop where
  questions : ∀ p ∈ c.questions, WorthItsSlots scorer responses p
  bandMap : ∃ m, c.bandMap = some m ∧ Returns m.toBandMap

def NoOverpay (scorer : Scorer) (c : TestComposition) : Prop :=
  ∀ p ∈ c.questions, ∀ d key,
    scorer.registry.defs.get? (p.2.2.typeKey, p.2.2.typeVersion) = some d →
    p.2.2.key = some key → NeverOverpays d.scoring key

/-! ## The keys of the paper -/

section
variable {scorer : Scorer} {c : TestComposition} {responses : Dict String Json}
  {keys : Dict String KeyVersion} {p : SectionNode × GroupNode × QuestionNode}

theorem mem_keyEntries (hp : p ∈ c.questions) {k : KeyVersion} :
    (p.2.2.xid, k) ∈ c.questions.filterMap (fun p' =>
      p'.2.2.keyVersion.map (fun k => (p'.2.2.xid, k))) ↔ p.2.2.keyVersion = some k := by
  constructor
  · intro hk
    obtain ⟨p', hp', hk⟩ := List.mem_filterMap.1 hk
    obtain ⟨k', hk', hpair⟩ := Option.map_eq_some_iff.1 hk
    have hx : p'.2.2.xid = p.2.2.xid := congrArg Prod.fst hpair
    have hkk : k' = k := congrArg Prod.snd hpair
    rw [c.coherent p hp p' hp' hx.symm, hk', hkk]
  · intro hk
    exact List.mem_filterMap.2 ⟨p, hp, by rw [hk]; rfl⟩

theorem get?_keys (hp : p ∈ c.questions) : c.keys.get? p.2.2.xid = p.2.2.keyVersion := by
  unfold TestComposition.keys
  cases hkv : p.2.2.keyVersion with
  | none =>
    have hno : ∀ w, (p.2.2.xid, w) ∉ c.questions.filterMap (fun p' =>
        p'.2.2.keyVersion.map (fun k => (p'.2.2.xid, k))) := by
      intro w hw
      rw [mem_keyEntries hp, hkv] at hw
      cases hw
    rw [Dict.get?_ofList (v := ⟨"", Dict.empty, Dict.empty⟩) (fun w hw => absurd hw (hno w)),
      if_neg]
    intro hm
    obtain ⟨⟨x, w⟩, hw, hx⟩ := List.mem_map.1 hm
    cases hx
    exact hno w hw
  | some kv =>
    have hall : ∀ w, (p.2.2.xid, w) ∈ c.questions.filterMap (fun p' =>
        p'.2.2.keyVersion.map (fun k => (p'.2.2.xid, k))) → w = kv := by
      intro w hw
      rw [mem_keyEntries hp, hkv] at hw
      exact (Option.some.inj hw).symm
    rw [Dict.get?_ofList hall, if_pos]
    exact List.mem_map.2 ⟨(p.2.2.xid, kv), (mem_keyEntries hp).2 hkv, rfl⟩

/-! ## One question of the paper -/

def nodeScore (scorer : Scorer) (keys : Dict String KeyVersion) (responses : Dict String Json)
    (p : SectionNode × GroupNode × QuestionNode) : Except Raised ItemScore :=
  itemOf p >>= scoreOne scorer keys responses

theorem mapM_comp {ε α β γ : Type} {f : α → Except ε β} {g : β → Except ε γ} {as : List α}
    {bs : List β} (h : as.mapM f = .ok bs) : as.mapM (fun a => f a >>= g) = bs.mapM g := by
  induction as generalizing bs with
  | nil =>
    cases h
    rfl
  | cons a as ih =>
    obtain ⟨b, bs', hb, hbs, rfl⟩ := mapM_cons_eq_ok.1 h
    rw [List.mapM_cons, List.mapM_cons, ih hbs, hb]
    rfl

theorem paperRun_eq_ok {run : ScoreRun} (h : paperRun scorer c keys responses = .ok run) :
    ∃ scores bandMap, c.questions.mapM (nodeScore scorer keys responses) = .ok scores ∧
      c.bandMap.mapM BandMapRef.toBandMap = .ok bandMap ∧
      run.rawScore = (scores.map ItemScore.awarded).sum ∧
      run.maxRaw = (scores.map ItemScore.maxPoints).sum ∧
      run.band = bandOf bandMap run.rawScore := by
  unfold paperRun at h
  obtain ⟨items, hitems, h⟩ := bind_eq_ok.1 h
  obtain ⟨bandMap, hband, h⟩ := bind_eq_ok.1 h
  obtain ⟨scores, hscores, hraw, hmax, hb⟩ := scoreAttempt_eq_ok h
  exact ⟨scores, bandMap, (mapM_comp hitems).trans hscores, hband, hraw, hmax, hb⟩

theorem returns_paperRun : Returns (paperRun scorer c keys responses) ↔
    (∀ p ∈ c.questions, Returns (nodeScore scorer keys responses p)) ∧
      Returns (c.bandMap.mapM BandMapRef.toBandMap) := by
  rw [← returns_mapM]
  constructor
  · rintro ⟨run, h⟩
    obtain ⟨scores, bandMap, hscores, hband, _⟩ := paperRun_eq_ok h
    exact ⟨⟨scores, hscores⟩, bandMap, hband⟩
  · rintro ⟨⟨scores, hscores⟩, bandMap, hband⟩
    have hitems : Returns (c.questions.mapM itemOf) := by
      rw [returns_mapM]
      intro p hp
      obtain ⟨score, _, hp⟩ := exists_of_mapM hscores hp
      obtain ⟨item, hitem, _⟩ := bind_eq_ok.1 hp
      exact ⟨item, hitem⟩
    obtain ⟨items, hitems⟩ := hitems
    have hscored : items.mapM (scoreOne scorer keys responses) = .ok scores :=
      (mapM_comp hitems).symm.trans hscores
    unfold paperRun
    rw [hitems, hband]
    exact returns_scoreAttempt.2 (returns_mapM.1 ⟨scores, hscored⟩)

theorem itemOf_eq_ok {item : ItemInput} (h : itemOf p = .ok item) :
    ∃ rules, p.2.1.rules = .ok rules ∧ item.questionVersionXid = p.2.2.xid ∧
      item.slotKeys = p.2.2.slotKeys ∧
      ∀ kv response, kv.tolerance = p.2.2.tolerance →
        scoreRequest item kv response = requestOf p.2.2 kv.key rules response := by
  unfold itemOf at h
  obtain ⟨rules, hrules, rfl⟩ := map_eq_ok.1 h
  refine ⟨rules, hrules, rfl, rfl, ?_⟩
  intro kv response htol
  unfold scoreRequest requestOf
  rw [htol]

theorem itemOf_of_rules {rules : GroupRules} (h : p.2.1.rules = .ok rules) :
    Returns (itemOf p) := by
  unfold itemOf
  rw [h]
  exact ⟨_, rfl⟩

theorem nodeScore_void (scorer : Scorer) (responses : Dict String Json)
    (hk : keys.get? p.2.2.xid = none) :
    (Returns (nodeScore scorer keys responses p) ↔ Returns p.2.1.rules) ∧
      ∀ score, nodeScore scorer keys responses p = .ok score →
        score.maxPoints = p.2.2.slotKeys.length := by
  have hvoid : ∀ item, itemOf p = .ok item →
      scoreOne scorer keys responses item = .ok (voidScore item) := by
    intro item hitem
    obtain ⟨rules, _, hx, _⟩ := itemOf_eq_ok hitem
    unfold scoreOne
    rw [hx, hk]
  constructor
  · constructor
    · rintro ⟨score, h⟩
      obtain ⟨item, hitem, _⟩ := bind_eq_ok.1 h
      obtain ⟨rules, hrules, _⟩ := itemOf_eq_ok hitem
      exact ⟨rules, hrules⟩
    · rintro ⟨rules, hrules⟩
      obtain ⟨item, hitem⟩ := itemOf_of_rules hrules
      exact ⟨_, bind_eq_ok.2 ⟨item, hitem, hvoid item hitem⟩⟩
  · intro score h
    obtain ⟨item, hitem, h⟩ := bind_eq_ok.1 h
    obtain ⟨rules, _, _, hslots, _⟩ := itemOf_eq_ok hitem
    rw [hvoid item hitem] at h
    cases h
    rw [voidScore_maxPoints, hslots]

theorem nodeScore_keyed {kv : KeyVersion} (hk : keys.get? p.2.2.xid = some kv)
    (htol : kv.tolerance = p.2.2.tolerance) {score : ItemScore} :
    nodeScore scorer keys responses p = .ok score ↔ ∃ rules, p.2.1.rules = .ok rules ∧
      scorer.scoreItem (requestOf p.2.2 kv.key rules ((responses.get? p.2.2.xid).getD .null)) =
        .ok score := by
  constructor
  · intro h
    obtain ⟨item, hitem, h⟩ := bind_eq_ok.1 h
    obtain ⟨rules, hrules, hx, _, hreq⟩ := itemOf_eq_ok hitem
    unfold scoreOne at h
    rw [hx, hk] at h
    refine ⟨rules, hrules, ?_⟩
    rw [← hreq kv _ htol]
    exact h
  · rintro ⟨rules, hrules, h⟩
    obtain ⟨item, hitem⟩ := itemOf_of_rules hrules
    obtain ⟨rules', hrules', hx, _, hreq⟩ := itemOf_eq_ok hitem
    have hr : rules' = rules := Except.ok.inj (hrules'.symm.trans hrules)
    subst hr
    refine bind_eq_ok.2 ⟨item, hitem, ?_⟩
    unfold scoreOne
    rw [hx, hk]
    rw [← hreq kv _ htol] at h
    exact h

theorem worth_of_scoreItem {req : ScoreRequest} {score : ItemScore}
    (h : scorer.scoreItem req = .ok score) :
    ∃ d, scorer.registry.defs.get? (req.typeKey, req.typeVersion) = some d ∧
      worth d.scoring req.key = .ok score.maxPoints := by
  obtain ⟨d, hd, _, _, h⟩ := scoreItem_eq_ok.1 h
  exact ⟨d, hd, @worth_of_score (contextOf scorer d.scoring req) _ _ _ h⟩

/-! ## The maximum, question by question -/

def nodeMax (scorer : Scorer) (keys : Dict String KeyVersion) (responses : Dict String Json)
    (p : SectionNode × GroupNode × QuestionNode) : ℚ :=
  match nodeScore scorer keys responses p with
  | .ok score => score.maxPoints
  | .error _ => 0

theorem sum_nodeMax {ps : List (SectionNode × GroupNode × QuestionNode)} {scores : List ItemScore}
    (h : ps.mapM (nodeScore scorer keys responses) = .ok scores) :
    (scores.map ItemScore.maxPoints).sum = (ps.map (nodeMax scorer keys responses)).sum := by
  have hall := mapM_eq_ok.1 h
  clear h
  induction hall with
  | nil => rfl
  | cons hp _ ih =>
    rw [List.map_cons, List.map_cons, List.sum_cons, List.sum_cons, ih]
    unfold nodeMax
    rw [hp]

theorem sum_sub_of_node {ps : List (SectionNode × GroupNode × QuestionNode)}
    {f g : SectionNode × GroupNode × QuestionNode → ℚ} {x : String} {δ : ℚ}
    (h : ∀ p ∈ ps, f p - g p = if p.2.2.xid = x then δ else 0) :
    (ps.map f).sum - (ps.map g).sum = (ps.countP (fun p => p.2.2.xid = x)) * δ := by
  induction ps with
  | nil => simp
  | cons p ps ih =>
    have hp := h p List.mem_cons_self
    have ih := ih (fun p' hp' => h p' (List.mem_cons_of_mem p hp'))
    rw [List.map_cons, List.map_cons, List.sum_cons, List.sum_cons, List.countP_cons]
    by_cases hx : p.2.2.xid = x
    · simp only [hx, if_true, decide_true] at hp ⊢
      push_cast
      linarith
    · simp only [hx, if_false, decide_false, Bool.false_eq_true] at hp ⊢
      push_cast
      linarith

theorem worthItsSlots_of_bands {run : ScoreRun} (h : Bands scorer c responses run)
    (hkey : ∀ p ∈ c.questions, p.2.2.key.isSome = true) (hp : p ∈ c.questions) :
    WorthItsSlots scorer responses p := by
  obtain ⟨key, hk⟩ := Option.isSome_iff_exists.1 (hkey p hp)
  obtain ⟨scores, bandMap, hscores, _, _, hmax, _⟩ := paperRun_eq_ok h.scored
  have hkv : c.keys.get? p.2.2.xid = some
      { xid := p.2.2.keyVersionXid.getD "", key, tolerance := p.2.2.tolerance } := by
    rw [get?_keys hp]
    unfold QuestionNode.keyVersion
    rw [hk]
    rfl
  obtain ⟨score, _, hscore⟩ := exists_of_mapM hscores hp
  obtain ⟨rules, hrules, hitem⟩ := (nodeScore_keyed hkv rfl).1 hscore
  obtain ⟨d, hd, hworth⟩ := worth_of_scoreItem hitem
  refine ⟨rules, d, key, hrules, hd, hk, (returns_scoreItem _ _).1 ⟨score, hitem⟩, ?_⟩
  -- without its key the question counts its slots, and no other question changes
  obtain ⟨run', hrun', hmax'⟩ := h.removable (c.keys.erase p.2.2.xid) (by
    intro x k hx
    rw [Dict.get?_erase] at hx
    split at hx
    · cases hx
    · exact hx)
  obtain ⟨scores', _, hscores', _, _, hsum', _⟩ := paperRun_eq_ok hrun'
  have hdiff : ∀ p' ∈ c.questions, nodeMax scorer c.keys responses p' -
      nodeMax scorer (c.keys.erase p.2.2.xid) responses p' =
        if p'.2.2.xid = p.2.2.xid then score.maxPoints - p.2.2.slotKeys.length else 0 := by
    intro p' hp'
    by_cases hx : p'.2.2.xid = p.2.2.xid
    · rw [if_pos hx]
      have hq : p'.2.2 = p.2.2 := c.coherent p' hp' p hp hx
      obtain ⟨s1, _, hs1⟩ := exists_of_mapM hscores hp'
      obtain ⟨s2, _, hs2⟩ := exists_of_mapM hscores' hp'
      have hkv' : c.keys.get? p'.2.2.xid = some
          { xid := p.2.2.keyVersionXid.getD "", key, tolerance := p.2.2.tolerance } := by
        rw [hx]
        exact hkv
      obtain ⟨_, _, hitem'⟩ := (nodeScore_keyed hkv' (by rw [hq])).1 hs1
      obtain ⟨d', hd', hworth'⟩ := worth_of_scoreItem hitem'
      have hdd : d' = d := by
        have hreg : scorer.registry.defs.get? (p'.2.2.typeKey, p'.2.2.typeVersion) = some d' := hd'
        rw [hq] at hreg
        exact Option.some.inj (hreg.symm.trans hd)
      subst hdd
      have hw : s1.maxPoints = score.maxPoints := Except.ok.inj (hworth'.symm.trans hworth)
      have hnone : (c.keys.erase p.2.2.xid).get? p'.2.2.xid = none := by
        rw [Dict.get?_erase, if_pos hx]
      have hl := (nodeScore_void scorer responses hnone).2 s2 hs2
      unfold nodeMax
      rw [hs1, hs2]
      dsimp only
      rw [hw, hl, hq]
    · rw [if_neg hx]
      have hsame : nodeScore scorer (c.keys.erase p.2.2.xid) responses p' =
          nodeScore scorer c.keys responses p' := by
        obtain ⟨s1, _, hs1⟩ := exists_of_mapM hscores hp'
        obtain ⟨item, hitem, _⟩ := bind_eq_ok.1 hs1
        obtain ⟨_, _, hxid, _⟩ := itemOf_eq_ok hitem
        unfold nodeScore
        rw [hitem]
        change scoreOne _ _ _ item = scoreOne _ _ _ item
        unfold scoreOne
        rw [hxid, Dict.get?_erase, if_neg hx]
      unfold nodeMax
      rw [hsame, sub_self]
  have hsum := sum_sub_of_node hdiff
  rw [← sum_nodeMax hscores, ← sum_nodeMax hscores', ← hmax, ← hsum', hmax', sub_self] at hsum
  have hcount : ((c.questions.countP (fun p' => p'.2.2.xid = p.2.2.xid) : ℕ) : ℚ) ≠ 0 := by
    rw [Nat.cast_ne_zero, ← Nat.pos_iff_ne_zero, List.countP_pos_iff]
    exact ⟨p, hp, by simp⟩
  have hzero := (mul_eq_zero.1 hsum.symm).resolve_left hcount
  rw [sub_eq_zero] at hzero
  rw [← hzero]
  exact hworth

/-! ## The band -/

theorem roundHalfUp_bounds {q : ℚ} {n : ℕ} (h0 : 0 ≤ q) (hn : q ≤ n) :
    0 ≤ roundHalfUp q ∧ roundHalfUp q ≤ n := by
  unfold roundHalfUp
  rw [if_pos h0]
  constructor
  · exact Int.floor_nonneg.2 (by linarith)
  · have hlt : ⌊q + 1 / 2⌋ < (n : ℤ) + 1 := by
      rw [Int.floor_lt]
      push_cast
      linarith
    omega

theorem coveredRange_of_bandRow {row : Json} {lo hi : ℤ} {band : ℚ}
    (h : bandRow row = .ok (lo, hi, band)) : coveredRange row = .ok (lo, hi) := by
  unfold bandRow at h
  obtain ⟨a, ha, h⟩ := bind_eq_ok.1 h
  obtain ⟨lo', hlo, h⟩ := bind_eq_ok.1 h
  obtain ⟨b, hb, h⟩ := bind_eq_ok.1 h
  obtain ⟨hi', hhi, h⟩ := bind_eq_ok.1 h
  obtain ⟨w, _, h⟩ := bind_eq_ok.1 h
  obtain ⟨band', _, h⟩ := bind_eq_ok.1 h
  cases h
  exact bind_eq_ok.2 ⟨a, ha, bind_eq_ok.2 ⟨lo, hlo, bind_eq_ok.2 ⟨b, hb, bind_eq_ok.2 ⟨hi, hhi,
    rfl⟩⟩⟩⟩

theorem coveredRange_rows {rows : List Json} {bands : List (ℤ × ℤ × ℚ)}
    (h : rows.mapM bandRow = .ok bands) :
    rows.mapM coveredRange = .ok (bands.map (fun r => (r.1, r.2.1))) := by
  rw [mapM_eq_ok] at h ⊢
  induction h with
  | nil => exact .nil
  | cons hr _ ih => exact .cons (coveredRange_of_bandRow hr) ih

theorem covered_of_passes {validator : Validator} (hpass : Passes validator scorer.registry c)
    {m : BandMapRef} (hm : c.bandMap = some m) {bandMap : BandMap}
    (hb : m.toBandMap = .ok bandMap) {raw : ℚ} (h0 : 0 ≤ raw) (hn : raw ≤ c.totalSlots) :
    (bandMap.bandFor raw).isSome = true := by
  obtain ⟨report, hrun, hr⟩ := hpass
  obtain ⟨bands, hbands, hrun⟩ := bind_eq_ok.1 hrun
  obtain ⟨sections, _, hrun⟩ := bind_eq_ok.1 hrun
  cases hrun
  rw [passed_append, passed_append, passed_append] at hr
  have hpassed := hr.1.1.2
  unfold checkBandMap at hbands
  rw [hm] at hbands
  obtain ⟨rows, hrows, hbands⟩ := bind_eq_ok.1 hbands
  cases hbands
  rw [passed_append, passed_findIf (by rfl), passed_findIf (by rfl)] at hpassed
  obtain ⟨hlong, hcover⟩ := hpassed
  rw [decide_eq_false_iff_not, not_lt] at hlong
  rw [min_eq_left hlong] at hcover
  unfold BandMapRef.toBandMap at hb
  obtain ⟨brows, hbrows, rfl⟩ := map_eq_ok.1 hb
  rw [coveredRange_rows hbrows] at hrows
  cases hrows
  have hwhole := roundHalfUp_bounds h0 hn
  have hnone : uncovered (brows.map (fun r => (r.1, r.2.1))) c.totalSlots = [] := by
    simpa using hcover
  have hin : roundHalfUp raw ∈ range ((c.totalSlots : ℤ) + 1) := by
    unfold range
    refine List.mem_map.2 ⟨(roundHalfUp raw).toNat, List.mem_range.2 (by omega), ?_⟩
    exact Int.toNat_of_nonneg hwhole.1
  have hrow := List.filter_eq_nil_iff.1 hnone _ hin
  simp only [Bool.not_eq_true, Bool.not_eq_false', List.any_map, List.any_eq_true,
    Function.comp_apply, decide_eq_true_eq] at hrow
  obtain ⟨row, hmem, hrow⟩ := hrow
  unfold BandMap.bandFor
  rw [Option.isSome_map, List.find?_isSome]
  exact ⟨row, hmem, by simpa using hrow⟩

/-! ## A paper worth its slots -/

theorem nodeScore_of_worth (hw : WorthItsSlots scorer responses p) (hp : p ∈ c.questions)
    (hsub : ∀ x k, keys.get? x = some k → c.keys.get? x = some k) :
    ∃ score, nodeScore scorer keys responses p = .ok score ∧
      score.maxPoints = p.2.2.slotKeys.length := by
  obtain ⟨rules, d, key, hrules, hd, hkey, hscorable, hworth⟩ := hw
  cases hk : keys.get? p.2.2.xid with
  | none =>
    obtain ⟨hret, hmax⟩ := nodeScore_void scorer responses hk
    obtain ⟨score, hscore⟩ := hret.2 ⟨rules, hrules⟩
    exact ⟨score, hscore, hmax score hscore⟩
  | some kv =>
    have hown := hsub _ kv hk
    rw [get?_keys hp] at hown
    unfold QuestionNode.keyVersion at hown
    rw [hkey] at hown
    have hkv : kv.key = key ∧ kv.tolerance = p.2.2.tolerance := by
      cases hown
      exact ⟨rfl, rfl⟩
    obtain ⟨score, hscore⟩ := (returns_scoreItem _ _).2 hscorable
    rw [← hkv.1] at hscore
    refine ⟨score, (nodeScore_keyed hk hkv.2).2 ⟨rules, hrules, hscore⟩, ?_⟩
    obtain ⟨d', hd', hworth'⟩ := worth_of_scoreItem hscore
    have hdd : d' = d := Option.some.inj (hd'.symm.trans hd)
    subst hdd
    change worth d'.scoring kv.key = .ok score.maxPoints at hworth'
    rw [hkv.1, hworth] at hworth'
    exact (Except.ok.inj hworth').symm

theorem nodeScore_bounds (hpay : NoOverpay scorer c) (hp : p ∈ c.questions) {score : ItemScore}
    (hscore : nodeScore scorer c.keys responses p = .ok score) (hpos : 0 ≤ score.maxPoints) :
    0 ≤ score.awarded ∧ score.awarded ≤ score.maxPoints := by
  cases hkey : p.2.2.key with
  | none =>
    have hk : c.keys.get? p.2.2.xid = none := by
      rw [get?_keys hp]
      unfold QuestionNode.keyVersion
      rw [hkey]
      rfl
    obtain ⟨item, hitem, hone⟩ := bind_eq_ok.1 hscore
    obtain ⟨_, _, hx, _⟩ := itemOf_eq_ok hitem
    unfold scoreOne at hone
    rw [hx, hk] at hone
    cases hone
    rw [voidScore_awarded]
    exact ⟨le_refl 0, hpos⟩
  | some key =>
    have hk : c.keys.get? p.2.2.xid = some
        { xid := p.2.2.keyVersionXid.getD "", key, tolerance := p.2.2.tolerance } := by
      rw [get?_keys hp]
      unfold QuestionNode.keyVersion
      rw [hkey]
      rfl
    obtain ⟨rules, _, hitem⟩ := (nodeScore_keyed hk rfl).1 hscore
    obtain ⟨d, hd, _, _, h⟩ := scoreItem_eq_ok.1 hitem
    exact @awarded_bounds (contextOf scorer d.scoring _) _ _ _ h hpos (hpay p hp d key hd hkey)

theorem sum_bounds (scores : List ItemScore)
    (h : ∀ s ∈ scores, 0 ≤ s.awarded ∧ s.awarded ≤ s.maxPoints) :
    0 ≤ (scores.map ItemScore.awarded).sum ∧
      (scores.map ItemScore.awarded).sum ≤ (scores.map ItemScore.maxPoints).sum := by
  induction scores with
  | nil => simp
  | cons s ss ih =>
    have hs := h s List.mem_cons_self
    have ih := ih (fun t ht => h t (List.mem_cons_of_mem s ht))
    rw [List.map_cons, List.map_cons, List.sum_cons, List.sum_cons]
    exact ⟨add_nonneg hs.1 ih.1, add_le_add hs.2 ih.2⟩

theorem paperRun_of_worth (hb : Bandable scorer c responses)
    (hsub : ∀ x k, keys.get? x = some k → c.keys.get? x = some k) :
    ∃ run, paperRun scorer c keys responses = .ok run ∧ run.maxRaw = c.totalSlots := by
  obtain ⟨m, hm, bandMap, hbm⟩ := hb.bandMap
  have hret : Returns (paperRun scorer c keys responses) := by
    rw [returns_paperRun]
    constructor
    · intro p hp
      obtain ⟨score, hscore, _⟩ := nodeScore_of_worth (hb.questions p hp) hp hsub
      exact ⟨score, hscore⟩
    · rw [hm]
      exact ⟨some bandMap, map_eq_ok.2 ⟨bandMap, hbm, rfl⟩⟩
  obtain ⟨run, hrun⟩ := hret
  refine ⟨run, hrun, ?_⟩
  obtain ⟨scores, _, hscores, _, _, hmax, _⟩ := paperRun_eq_ok hrun
  rw [hmax, sum_nodeMax hscores]
  have hnode : c.questions.map (nodeMax scorer keys responses) =
      c.questions.map (fun p => (p.2.2.slotKeys.length : ℚ)) := by
    apply List.map_congr_left
    intro p hp
    obtain ⟨score, hscore, hslots⟩ := nodeScore_of_worth (hb.questions p hp) hp hsub
    unfold nodeMax
    rw [hscore]
    exact hslots
  rw [hnode]
  unfold TestComposition.totalSlots
  rw [Nat.cast_list_sum, List.map_map]
  rfl

theorem bands_of_bandable {validator : Validator} (hpass : Passes validator scorer.registry c)
    (hpay : NoOverpay scorer c) (hb : Bandable scorer c responses) :
    ∃ run, Bands scorer c responses run := by
  obtain ⟨run, hrun, hmax⟩ := paperRun_of_worth hb (fun _ _ h => h)
  obtain ⟨scores, bandMap, hscores, hband, hraw, hmaxSum, hbanded⟩ := paperRun_eq_ok hrun
  have hbounds := sum_bounds scores (by
    intro s hs
    obtain ⟨i, hi, rfl⟩ := List.mem_iff_getElem.1 hs
    have hlen := mapM_length hscores
    have hi' : i < c.questions.length := by omega
    have hnode := (List.forall₂_iff_get.1 (mapM_eq_ok.1 hscores)).2 i hi' hi
    simp only [List.get_eq_getElem] at hnode
    obtain ⟨score, hscore, hslots⟩ := nodeScore_of_worth
      (hb.questions _ (List.getElem_mem hi')) (List.getElem_mem hi') (fun _ _ h => h)
    have hsame : score = scores[i] := Except.ok.inj (hscore.symm.trans hnode)
    apply nodeScore_bounds hpay (List.getElem_mem hi') hnode
    rw [← hsame, hslots]
    exact Nat.cast_nonneg _)
  rw [← hraw, ← hmaxSum] at hbounds
  obtain ⟨m, hm, bm, hbm⟩ := hb.bandMap
  have hmap : bandMap = some bm := by
    rw [hm] at hband
    obtain ⟨bm', hbm', hsome⟩ := map_eq_ok.1 hband
    rw [hbm] at hbm'
    cases hbm'
    exact hsome.symm
  refine ⟨run, hrun, hmax, hbounds.1, hbounds.2, ?_, ?_⟩
  · rw [hbanded, hmap]
    exact covered_of_passes hpass hm hbm hbounds.1 (hmax ▸ hbounds.2)
  · intro keys' hsub
    obtain ⟨run', hrun', hmax'⟩ := paperRun_of_worth hb hsub
    exact ⟨run', hrun', hmax'.trans hmax.symm⟩

theorem bandable_of_bands {validator : Validator} (hpass : Passes validator scorer.registry c)
    {run : ScoreRun} (h : Bands scorer c responses run) : Bandable scorer c responses := by
  constructor
  · intro p hp
    apply worthItsSlots_of_bands h _ hp
    intro p' hp'
    obtain ⟨d, key, hgate⟩ := hpass.question hp'
    rw [hgate.keyed]
    rfl
  · obtain ⟨report, hrun, hr⟩ := hpass
    obtain ⟨bands, hbands, hrun⟩ := bind_eq_ok.1 hrun
    obtain ⟨sections, _, hrun⟩ := bind_eq_ok.1 hrun
    cases hrun
    rw [passed_append, passed_append, passed_append] at hr
    cases hm : c.bandMap with
    | none =>
      unfold checkBandMap at hbands
      rw [hm] at hbands
      cases hbands
      exact absurd rfl (passed_iff.1 hr.1.1.2 _ (List.mem_singleton_self _))
    | some m =>
      obtain ⟨_, bandMap, _, hband, _⟩ := paperRun_eq_ok h.scored
      rw [hm] at hband
      obtain ⟨bm, hbm, _⟩ := map_eq_ok.1 hband
      exact ⟨m, rfl, bm, hbm⟩

end

def multiType : QuestionTypeDef where
  key := "mcq_multi"
  version := 1
  title := "Multiple choice"
  skills := ["reading"]
  scoring :=
    { primitive := .setSelection
      options := Dict.ofList
        [("select_count", .str "from_key"), ("points_per_correct", .int 1),
          ("over_selection", .str "score_zero")] }

def multiScorer : Scorer where
  registry := ⟨Dict.empty.put ("mcq_multi", 1) multiType⟩
  lexicon := {}
  frames := 900

def multiOption (id : String) : Json := .obj [("id", .str id), ("text", .str id)]

def multiQuestion : QuestionNode where
  xid := "q1"
  typeKey := "mcq_multi"
  typeVersion := 1
  payload := Dict.ofList
    [("stem", .str "Which two?"), ("select_count", .int 2),
      ("options", .arr [multiOption "A", multiOption "B", multiOption "C"])]
  slotKeys := ["s1"]
  key := some (Dict.ofList [("correct", .arr [.str "A", .str "B"])])

def multiSection : SectionNode where
  position := 1
  skill := "reading"
  title := "Passage 1"
  groups := [{ xid := "g1", numberStart := 1, questions := [multiQuestion] }]
  passage := some { xid := "p1", title := "Bees" }
  timeLimitSeconds := some 1200

def multiPaper : TestComposition where
  xid := "t1"
  title := "One selection"
  sections := [multiSection]
  bandMap := some
    { xid := "b1", maxRaw := 1
      mapping := [.obj [("raw_min", .int 0), ("raw_max", .int 1), ("band", .int 5)]] }
  coherent := by
    intro p hp p' hp' _
    simp only [questionsOf, multiSection, List.flatMap_cons, List.flatMap_nil, List.append_nil,
      List.map_cons, List.map_nil, List.mem_singleton] at hp hp'
    rw [hp, hp']

def multiAnswers : Dict String Json :=
  Dict.ofList [("q1", assembled (Dict.ofList [("s1", .arr [.str "A", .str "B"])]))]

end IeltsHub.PublishedPaper
