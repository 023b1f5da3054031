import IeltsHub.KeySoundness
import IeltsHub.ReviewGate

set_option autoImplicit false

/-!
# What was approved is what is published

Every decided row of the table is a decision that was taken, and every approval taken is still in
the table. From that, a version is published over its last decision wherever the last decision is
the approval the gate finds.
-/
namespace IeltsHub.ApprovedContent
open PyExc PyValue PyDict PyTime RowTable ContentModels ContentDrafts ContentFingerprint GuardedRuns
  ReviewGate

/-! ## What the handlers do -/

section
variable {centre : Centre} {v v' : Version} {r : Request} {outcome : Outcome} {row : Review}

theorem submitReview_eq_ok (h : submitReview centre v r = .ok v') :
    v' = { v with
      status := .inReview
      reviews := v.reviews.put
        { id := v.reviews.nextId, requestedBy := r.actor, createdAt := r.now, notes := r.notes } } := by
  obtain ⟨_, _, h⟩ := bind_eq_ok.1 h
  obtain ⟨_, _, h⟩ := bind_eq_ok.1 h
  obtain ⟨_, _, h⟩ := bind_eq_ok.1 h
  cases h
  rfl

theorem openRequest_eq_some (h : openRequest v = some row) :
    v.reviews.get? row.id = some row ∧ row.state = .requested := by
  have hmem := List.mem_of_head? h
  rw [List.mem_insertionSort, Table.select, List.mem_filter] at hmem
  exact ⟨Table.get?_eq_some.2 ⟨hmem.1, rfl⟩, of_decide_eq_true hmem.2⟩

def decidedRow (row : Review) (r : Request) (outcome : Outcome) (checksum : Option String) :
    Review :=
  { row with
    state := .decided outcome
    notes := r.notes.or row.notes
    reviewerId := some r.actor
    decidedAt := some r.now
    contentChecksum := checksum }

def decisionOf (v : Version) (row : Review) (r : Request) (outcome : Outcome) : Decision :=
  ⟨row.id, outcome, row.requestedBy, r.actor, r.now, v.content⟩

theorem decideReview_eq_ok (h : decideReview v r outcome = .ok v') :
    ∃ row checksum, openRequest v = some row ∧
      decisionChecksum v r row outcome = .ok checksum ∧
      v' = { v with
        status := if outcome = .changesRequested then .draft else .inReview
        reviews := v.reviews.put (decidedRow row r outcome checksum)
        decisions := v.decisions ++ [decisionOf v row r outcome] } := by
  obtain ⟨_, _, h⟩ := bind_eq_ok.1 h
  split at h
  · cases h
  · split at h
    · cases h
    · next row hopen =>
      obtain ⟨checksum, hsum, h⟩ := bind_eq_ok.1 h
      cases h
      exact ⟨row, checksum, hopen, hsum, rfl⟩

theorem publishVersion_eq_ok (h : publishVersion centre v r = .ok v') :
    (∃ approval, requireApproval v centre.settings = .ok approval) ∧
      v' = publish v r.actor r.now := by
  obtain ⟨_, _, h⟩ := bind_eq_ok.1 h
  split at h
  · cases h
  · obtain ⟨_, _, h⟩ := bind_eq_ok.1 h
    obtain ⟨approval, happroval, h⟩ := bind_eq_ok.1 h
    cases h
    exact ⟨⟨approval, happroval⟩, rfl⟩

theorem decisionChecksum_approved {checksum : Option String}
    (h : decisionChecksum v r row .approved = .ok checksum) :
    r.actor ≠ row.requestedBy ∧ r.actor ≠ v.createdBy ∧
      checksum = some (fingerprint v.content.composition) := by
  obtain ⟨_, hself, h⟩ := bind_eq_ok.1 h
  cases h
  unfold refuseSelfApproval at hself
  split at hself
  · cases hself
  · next hother =>
    rw [not_or] at hother
    exact ⟨hother.1, hother.2, rfl⟩

/-! ## The approval the gate finds -/

instance : Std.Total Review.later := ⟨fun a b => le_total b.rank a.rank⟩

instance : IsTrans Review Review.later := ⟨fun _ _ _ h h' => le_trans h' h⟩

theorem latestApproval_eq_some {approval : Review} (h : latestApproval v = some approval) :
    v.reviews.get? approval.id = some approval ∧ approval.state = .decided .approved ∧
      ∀ b, v.reviews.get? b.id = some b → b.state = .decided .approved → b.rank ≤ approval.rank := by
  have hmem := List.mem_of_head? h
  rw [List.mem_insertionSort, Table.select, List.mem_filter] at hmem
  refine ⟨Table.get?_eq_some.2 ⟨hmem.1, rfl⟩, of_decide_eq_true hmem.2, fun b hb happroved => ?_⟩
  have hsorted := List.pairwise_insertionSort Review.later
    (v.reviews.select (fun r => r.state = .decided .approved))
  unfold latestApproval at h
  have hb : b ∈ (v.reviews.select (fun r => r.state = .decided .approved)).insertionSort
      Review.later := by
    rw [List.mem_insertionSort, Table.select, List.mem_filter]
    exact ⟨(Table.get?_eq_some.1 hb).1, decide_eq_true happroved⟩
  cases hl : (v.reviews.select (fun r => r.state = .decided .approved)).insertionSort
      Review.later with
  | nil =>
    rw [hl] at hb
    cases hb
  | cons a rest =>
    rw [hl] at h hb hsorted
    cases h
    rcases List.mem_cons.1 hb with rfl | hrest
    · exact le_refl _
    · exact List.rel_of_pairwise_cons hsorted hrest

theorem requireApproval_eq_ok {settings : Obj} {found : Option Review}
    (hon : requiredBy settings = true) (h : requireApproval v settings = .ok found) :
    ∃ approval, latestApproval v = some approval ∧
      approval.contentChecksum = some (fingerprint v.content.composition) := by
  unfold requireApproval at h
  rw [hon] at h
  simp only [Bool.not_true, Bool.false_eq_true, if_false] at h
  split at h
  · cases h
  · next approval hlatest =>
    split at h
    · cases h
    · next hsame => exact ⟨approval, hlatest, not_not.1 hsame⟩

end

/-! ## The record -/

/-- The row is what the decision left of it. -/
structure RowOf (row : Review) (d : Decision) : Prop where
  id : row.id = d.review
  state : row.state = .decided d.outcome
  decidedAt : row.decidedAt = some d.moment

/-- The table and the record of decisions agree. -/
structure Traced (v : Version) : Prop where
  rows : ∀ row outcome, v.reviews.get? row.id = some row → row.state = .decided outcome →
    ∃ d ∈ v.decisions, RowOf row d
  kept : ∀ d ∈ v.decisions, ∃ row, v.reviews.get? row.id = some row ∧ RowOf row d
  bound : ∀ d ∈ v.decisions, ∀ row, v.reviews.get? row.id = some row → RowOf row d →
    d.outcome = .approved → row.contentChecksum = some (fingerprint d.content.composition)
  apart : ∀ d ∈ v.decisions, d.outcome = .approved →
    d.reviewer ≠ d.requestedBy ∧ d.reviewer ≠ v.createdBy
  ordered : v.decisions.Pairwise (fun d d' => d.moment < d'.moment)

def Meets (v : Version) : Act → Prop
  /- The clock the decisions are stamped with goes forward. -/
  | .decide r _ => ∀ d ∈ v.decisions, d.moment < r.now
  | .publish _ => ∀ d, v.decisions.getLast? = some d →
    match d.outcome with
    /- After a rejection no earlier approval matches what is there now. -/
    | .changesRequested => ∀ a, latestApproval v = some a →
      a.contentChecksum ≠ some (fingerprint v.content.composition)
    /- After an approval the time limit of the test stands, and the digest tells contents apart. -/
    | .approved => testLimit d.content.config = testLimit v.content.config ∧
      (fingerprint d.content.composition = fingerprint v.content.composition →
        seen d.content.composition = seen v.content.composition)
  | _ => True

section
variable {centre : Centre} {v v' : Version}

theorem traced_fresh (createdBy : ℕ) (content : Content) : Traced (fresh createdBy content) where
  rows := by
    intro row outcome h
    cases h
  kept := by simp [fresh]
  bound := by simp [fresh]
  apart := by simp [fresh]
  ordered := List.Pairwise.nil

theorem traced_of_rows (hv : Traced v) (hdecisions : v'.decisions = v.decisions)
    (hby : v'.createdBy = v.createdBy)
    (hrows : ∀ row outcome, row.state = .decided outcome →
      (v'.reviews.get? row.id = some row ↔ v.reviews.get? row.id = some row)) : Traced v' where
  rows := by
    intro row outcome h hs
    rw [hdecisions]
    exact hv.rows row outcome ((hrows row outcome hs).1 h) hs
  kept := by
    intro d hd
    rw [hdecisions] at hd
    obtain ⟨row, hrow, hof⟩ := hv.kept d hd
    exact ⟨row, (hrows row _ hof.state).2 hrow, hof⟩
  bound := by
    intro d hd row h hof
    rw [hdecisions] at hd
    exact hv.bound d hd row ((hrows row _ hof.state).1 h) hof
  apart := by
    intro d hd
    rw [hdecisions] at hd
    rw [hby]
    exact hv.apart d hd
  ordered := by
    rw [hdecisions]
    exact hv.ordered

theorem traced_submit {r : Request} (hv : Traced v) (h : submitReview centre v r = .ok v') :
    Traced v' := by
  rw [submitReview_eq_ok h]
  refine traced_of_rows hv rfl rfl (fun row outcome hs => ?_)
  have hnew : v.reviews.get? v.reviews.nextId = none := Table.get?_nextId v.reviews
  rw [Table.get?_put]
  split
  · next hid =>
    change v.reviews.nextId = row.id at hid
    constructor
    · intro heq
      cases heq
      cases hs
    · intro heq
      rw [← hid, hnew] at heq
      cases heq
  · exact Iff.rfl

theorem ne_of_decided {row opened : Review} {outcome : Outcome}
    (hrow : v.reviews.get? row.id = some row) (hs : row.state = .decided outcome)
    (hopen : v.reviews.get? opened.id = some opened) (hrequested : opened.state = .requested) :
    opened.id ≠ row.id := by
  intro hid
  rw [hid, hrow] at hopen
  cases hopen
  rw [hrequested] at hs
  cases hs

theorem traced_decide {r : Request} {outcome : Outcome} (hv : Traced v)
    (hclock : ∀ d ∈ v.decisions, d.moment < r.now) (h : decideReview v r outcome = .ok v') :
    Traced v' := by
  obtain ⟨opened, checksum, hopen, hsum, rfl⟩ := decideReview_eq_ok h
  obtain ⟨hopened, hrequested⟩ := openRequest_eq_some hopen
  have hdecided : (v.reviews.put (decidedRow opened r outcome checksum)).get? opened.id =
      some (decidedRow opened r outcome checksum) := Table.get?_put_self v.reviews _
  have hother : ∀ {id}, opened.id ≠ id →
      (v.reviews.put (decidedRow opened r outcome checksum)).get? id = v.reviews.get? id :=
    fun hne => Table.get?_put_of_ne v.reviews hne
  have hnew : RowOf (decidedRow opened r outcome checksum) (decisionOf v opened r outcome) :=
    ⟨rfl, rfl, rfl⟩
  have hold : ∀ d ∈ v.decisions, opened.id ≠ d.review := by
    intro d hd
    obtain ⟨row, hrow, hof⟩ := hv.kept d hd
    rw [← hof.id]
    exact ne_of_decided hrow hof.state hopened hrequested
  constructor
  case rows =>
    intro row outcome' hrow hs
    by_cases hid : opened.id = row.id
    · rw [← hid, hdecided] at hrow
      cases hrow
      exact ⟨_, List.mem_append_right _ List.mem_cons_self, hnew⟩
    · rw [hother hid] at hrow
      obtain ⟨d, hd, hof⟩ := hv.rows row outcome' hrow hs
      exact ⟨d, List.mem_append_left _ hd, hof⟩
  case kept =>
    intro d hd
    rcases List.mem_append.1 hd with hd | hd
    · obtain ⟨row, hrow, hof⟩ := hv.kept d hd
      refine ⟨row, ?_, hof⟩
      rw [hother (hof.id ▸ hold d hd)]
      exact hrow
    · rw [List.mem_singleton.1 hd]
      exact ⟨_, hdecided, hnew⟩
  case bound =>
    intro d hd row hrow hof happroved
    rcases List.mem_append.1 hd with hd | hd
    · rw [hother (hof.id ▸ hold d hd)] at hrow
      exact hv.bound d hd row hrow hof happroved
    · rw [List.mem_singleton.1 hd] at hof happroved ⊢
      have hid : row.id = opened.id := hof.id
      rw [hid, hdecided] at hrow
      cases hrow
      change outcome = .approved at happroved
      subst happroved
      exact (decisionChecksum_approved hsum).2.2
  case apart =>
    intro d hd happroved
    rcases List.mem_append.1 hd with hd | hd
    · exact hv.apart d hd happroved
    · rw [List.mem_singleton.1 hd] at happroved ⊢
      change outcome = .approved at happroved
      subst happroved
      obtain ⟨hasked, hwrote, _⟩ := decisionChecksum_approved hsum
      exact ⟨hasked, hwrote⟩
  case ordered =>
    refine List.pairwise_append.2 ⟨hv.ordered, List.pairwise_singleton _ _, ?_⟩
    intro d hd d' hd'
    rw [List.mem_singleton.1 hd']
    exact hclock d hd

theorem traced_settled (hv : Traced v) {x : Except Raised Version}
    (h : ∀ v', x = .ok v' → Traced v') : Traced (settled v x) := by
  cases x with
  | ok v' => exact h v' rfl
  | error e => exact hv

theorem traced_act (hv : Traced v) {a : Act} (ha : Meets v a) : Traced (act centre v a) := by
  cases a with
  | edit content => exact traced_of_rows hv rfl rfl (fun _ _ _ => Iff.rfl)
  | submit r => exact traced_settled hv (fun _ h => traced_submit hv h)
  | decide r outcome => exact traced_settled hv (fun _ h => traced_decide hv ha h)
  | publish r =>
    refine traced_settled hv (fun v' h => ?_)
    rw [(publishVersion_eq_ok h).2]
    exact traced_of_rows hv rfl rfl (fun _ _ _ => Iff.rfl)

/-! ## An honest publish -/

/-- The last decision is an approval by somebody else, over what is published. -/
def Approved (v v' : Version) : Prop :=
  ∃ d, v.decisions.getLast? = some d ∧ d.outcome = .approved ∧
    d.reviewer ≠ d.requestedBy ∧ d.reviewer ≠ v.createdBy ∧
    seen d.content.composition = seen v.content.composition ∧
    testLimit d.content.config = testLimit v.content.config ∧
    v'.published.map Published.snapshot = some (seen d.content.composition).snapshot

theorem last_of_ordered {ds : List Decision} {d last : Decision}
    (hordered : ds.Pairwise (fun d d' => d.moment < d'.moment)) (hlast : ds.getLast? = some last)
    (hd : d ∈ ds) : d = last ∨ d.moment < last.moment := by
  obtain ⟨front, rfl⟩ := List.getLast?_eq_some_iff.1 hlast
  rcases List.mem_append.1 hd with hd | hd
  · exact .inr ((List.pairwise_append.1 hordered).2.2 d hd last List.mem_cons_self)
  · exact .inl (List.mem_singleton.1 hd)

theorem latest_is_last (hv : Traced v) {approval : Review} {last : Decision}
    (hlatest : latestApproval v = some approval) (hlast : v.decisions.getLast? = some last)
    (happroved : last.outcome = .approved) :
    approval.contentChecksum = some (fingerprint last.content.composition) := by
  obtain ⟨happroval, hstate, hhighest⟩ := latestApproval_eq_some hlatest
  obtain ⟨d, hd, hof⟩ := hv.rows approval _ happroval hstate
  have hmem : last ∈ v.decisions := List.mem_of_getLast? hlast
  obtain ⟨row, hrow, hrowof⟩ := hv.kept last hmem
  have hrank := hhighest row hrow (by rw [hrowof.state, happroved])
  have hd' : d = last := by
    rcases last_of_ordered hv.ordered hlast hd with heq | hlt
    · exact heq
    · exfalso
      unfold Review.rank at hrank
      rw [hof.decidedAt, hrowof.decidedAt, Prod.Lex.toLex_le_toLex] at hrank
      rcases hrank with hrank | ⟨heq, -⟩
      · exact absurd (WithBot.coe_lt_coe.1 hrank) (not_lt.2 hlt.le)
      · exact absurd (WithBot.coe_inj.1 heq) hlt.ne'
  subst hd'
  exact hv.bound d hmem approval happroval hof happroved

end

/-- In a centre that requires reviews, whatever the history: a publish that goes through comes
after an approval of this very content by somebody else, and no decision came between. -/
theorem published_is_approved (centre : Centre) (hon : requiredBy centre.settings = true)
    (createdBy : ℕ) (content : Content) (acts : List Act) (v : Version)
    (hrun : Runs (fun v a v' => act centre v a = v') Meets (fresh createdBy content) acts v)
    (r : Request) (hmeets : Meets v (.publish r)) (v' : Version)
    (hpublish : publishVersion centre v r = .ok v') : Approved v v' := by
  have hv : Traced v := by
    refine Runs.invariant ?_ hrun (traced_fresh createdBy content)
    intro s a t hs ha hstep
    rw [← hstep]
    exact traced_act hs ha
  obtain ⟨⟨found, hfound⟩, rfl⟩ := publishVersion_eq_ok hpublish
  obtain ⟨approval, hlatest, hsum⟩ := requireApproval_eq_ok hon hfound
  obtain ⟨happroval, hstate, -⟩ := latestApproval_eq_some hlatest
  obtain ⟨d₀, hd₀, -⟩ := hv.rows approval _ happroval hstate
  obtain ⟨last, hlast⟩ : ∃ last, v.decisions.getLast? = some last := by
    cases hl : v.decisions.getLast? with
    | some last => exact ⟨last, rfl⟩
    | none =>
      rw [List.getLast?_eq_none_iff.1 hl] at hd₀
      cases hd₀
  have hcase := hmeets last hlast
  cases hout : last.outcome with
  | changesRequested =>
    rw [hout] at hcase
    exact absurd hsum (hcase approval hlatest)
  | approved =>
    rw [hout] at hcase
    have hbound := latest_is_last hv hlatest hlast hout
    have hseen := hcase.2 (Option.some.inj (hbound.symm.trans hsum))
    obtain ⟨hasked, hwrote⟩ := hv.apart last (List.mem_of_getLast? hlast) hout
    refine ⟨last, hlast, hout, hasked, hwrote, hseen, hcase.1, ?_⟩
    rw [hseen]
    rfl

/-! ## A centre that requires reviews -/

def sampleCentre : Centre where
  validator := ScoringTotality.typeValidator
  registry := KeySoundness.completionScorer.registry
  settings := Dict.ofList [("require_review", .bool true)]

def sampleQuestion : ContentFingerprint.Question := { KeySoundness.completionQuestion Dict.empty with }

def sampleSection : Section where
  position := 1
  skill := "reading"
  title := "Passage 1"
  groups := [{
    xid := "g1", numberStart := 1, questions := [sampleQuestion]
    wordLimit := .obj [("max_words", .int 2)] }]
  passage := some { xid := "p1", title := "Parking" }
  timeLimitSeconds := some 1200

def sampleComposition : Composition where
  xid := "t1"
  title := "One blank"
  sections := [sampleSection]
  bandMap := some
    { xid := "b1", maxRaw := 1
      mapping := [.obj [("raw_min", .int 0), ("raw_max", .int 1), ("band", .int 5)]] }
  coherent := (KeySoundness.completionPaper Dict.empty).coherent

def sampleContent : Content := { composition := sampleComposition }

theorem sample_passes (refusal : String) :
    passGate sampleCentre sampleComposition refusal = .ok () := by
  have hcore : sampleComposition.core = KeySoundness.completionPaper Dict.empty := rfl
  unfold passGate gateReport
  rw [hcore]
  rfl

def askedBy (actor : ℕ) (now : Time) : Request := { actor, now }

def approvedHistory : List Act := [.submit (askedBy 1 10), .decide (askedBy 2 20) .approved]

def sampleApproved : Version := runAll sampleCentre (fresh 1 sampleContent) approvedHistory

theorem submit_sample {v : Version} {r : Request}
    (hcontent : v.content.composition = sampleComposition) (hstatus : mutable v.status = .ok ())
    (haccess : r.access = .ok ()) :
    act sampleCentre v (.submit r) =
      { v with
        status := .inReview
        reviews := v.reviews.put
          { id := v.reviews.nextId, requestedBy := r.actor, createdAt := r.now
            notes := r.notes } } := by
  change settled v (submitReview sampleCentre v r) = _
  unfold submitReview
  rw [haccess, hstatus, hcontent, sample_passes]
  rfl

theorem sampleSubmitted_eq : act sampleCentre (fresh 1 sampleContent) (.submit (askedBy 1 10)) =
    { fresh 1 sampleContent with
      status := .inReview
      reviews := Table.empty.put { id := 1, requestedBy := 1, createdAt := 10 } } :=
  submit_sample rfl rfl rfl

theorem sampleApproved_eq : sampleApproved =
    { fresh 1 sampleContent with
      status := .inReview
      reviews := Table.empty.put
        { id := 1, requestedBy := 1, createdAt := 10, state := .decided .approved
          reviewerId := some 2, decidedAt := some 20
          contentChecksum := some (fingerprint sampleComposition) }
      decisions := [⟨1, .approved, 1, 2, 20, sampleContent⟩] } := by
  unfold sampleApproved runAll approvedHistory
  rw [List.foldl_cons, sampleSubmitted_eq]
  rfl

theorem publish_of_approval {v : Version} {approval : Review} {r : Request}
    (hcontent : v.content.composition = sampleComposition) (hstatus : v.status ≠ .published)
    (hlatest : latestApproval v = some approval)
    (hsum : approval.contentChecksum = some (fingerprint sampleComposition))
    (haccess : r.access = .ok ()) :
    publishVersion sampleCentre v r = .ok (publish v r.actor r.now) := by
  have hrequire : requireApproval v sampleCentre.settings = .ok (some approval) := by
    have hon : requiredBy sampleCentre.settings = true := rfl
    unfold requireApproval
    simp only [hon, Bool.not_true, Bool.false_eq_true, if_false, hlatest, hsum, hcontent,
      ne_eq, not_true_eq_false]
  unfold publishVersion
  rw [haccess, if_neg hstatus, hcontent, sample_passes, hrequire]
  rfl

theorem published_is_approved_on_sample :
    Approved sampleApproved (publish sampleApproved 2 30) := by
  refine published_is_approved sampleCentre rfl 1 sampleContent approvedHistory sampleApproved
    (.next trivial rfl (.next ?_ rfl (.refl _))) (askedBy 2 30) ?_ _ ?_
  · rw [sampleSubmitted_eq]
    intro d hd
    cases hd
  · rw [sampleApproved_eq]
    intro d hd
    cases hd
    exact ⟨rfl, fun _ => rfl⟩
  · rw [sampleApproved_eq]
    exact publish_of_approval rfl (by decide) rfl rfl rfl

def sampleRejected : Version :=
  [.submit (askedBy 1 30), .decide (askedBy 2 40) .changesRequested].foldl (act sampleCentre)
    sampleApproved

def sampleRetimed : Version :=
  act sampleCentre sampleApproved
    (.edit { sampleContent with config := Dict.ofList [("time_limit_seconds", .int 60)] })

theorem sampleRejected_eq : sampleRejected =
    { sampleApproved with
      status := .draft
      reviews := (sampleApproved.reviews.put
        { id := 2, requestedBy := 1, createdAt := 30 }).put
        { id := 2, requestedBy := 1, createdAt := 30, state := .decided .changesRequested
          reviewerId := some 2, decidedAt := some 40 }
      decisions := sampleApproved.decisions ++ [⟨2, .changesRequested, 1, 2, 40, sampleContent⟩] } := by
  unfold sampleRejected
  have hsubmit : act sampleCentre sampleApproved (.submit (askedBy 1 30)) =
      { sampleApproved with
        status := .inReview
        reviews := sampleApproved.reviews.put { id := 2, requestedBy := 1, createdAt := 30 } } := by
    rw [sampleApproved_eq]
    exact submit_sample rfl rfl rfl
  rw [List.foldl_cons, hsubmit, sampleApproved_eq]
  rfl

/-- A version goes out after its last reviewer rejected it, over an approval that came before; and
one goes out with another time limit than was approved. -/
theorem rejected_version_is_published :
    (∃ v', publishVersion sampleCentre sampleRejected (askedBy 2 50) = .ok v' ∧
      ¬ Approved sampleRejected v') ∧
    ∃ v', publishVersion sampleCentre sampleRetimed (askedBy 2 50) = .ok v' ∧
      ¬ Approved sampleRetimed v' := by
  constructor
  · refine ⟨publish sampleRejected 2 50, ?_, ?_⟩
    · rw [sampleRejected_eq, sampleApproved_eq]
      exact publish_of_approval rfl (by decide) rfl rfl rfl
    · rintro ⟨d, hlast, happroved, -⟩
      rw [sampleRejected_eq, sampleApproved_eq] at hlast
      cases hlast
      cases happroved
  · refine ⟨publish sampleRetimed 2 50, ?_, ?_⟩
    · unfold sampleRetimed
      rw [sampleApproved_eq]
      exact publish_of_approval rfl (by decide) rfl rfl rfl
    · rintro ⟨d, hlast, -, -, -, -, hlimit, -⟩
      unfold sampleRetimed at hlast hlimit
      rw [sampleApproved_eq] at hlast hlimit
      cases hlast
      revert hlimit
      decide

end IeltsHub.ApprovedContent
