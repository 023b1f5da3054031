import IeltsHub.SweeperJobs
import IeltsHub.ScoreOnce

set_option autoImplicit false

/-!
# What a failing job costs the others

Each job of a sweep has tables of its own, so each could be kept or undone by itself. They share a
transaction instead: one that raises undoes the attempts that were scored before it.
-/
namespace IeltsHub.SweepIsolation
open PyExc PyTime PlatformErrors ExamModels ExamSession JobBatches SweeperJobs
open RaisingState (Effect)

def isolated (p : Process) (now : Time) (db : Db) : Db := apart (jobs.map (job p now)) db

def Isolates (p : Process) (now : Time) (acquired : Bool) (db : Db) : Prop :=
  acquired = true → sweep p now acquired db = isolated p now db

/-! ## The tables of each job -/

def Same : JobName → Db → Db → Prop
  | .autoSubmit, s, t => s.store = t.store ∧ s.types = t.types
  | .ensurePartitions, s, t => s.partitions = t.partitions
  | .abandonUploads, s, t => s.uploads = t.uploads
  | .expireIdempotency, s, t => s.idempotency = t.idempotency
  | .purgeOutbox, s, t => s.dispatched = t.dispatched
  | .expireOtp, s, t => s.challenges = t.challenges

theorem same_equivalence (k : JobName) : Equivalence (Same k) := by
  cases k with
  | autoSubmit =>
    exact ⟨fun _ => ⟨rfl, rfl⟩, fun h => ⟨h.1.symm, h.2.symm⟩,
      fun h h' => ⟨h.1.trans h'.1, h.2.trans h'.2⟩⟩
  | _ => exact ⟨fun _ => rfl, Eq.symm, Eq.trans⟩

theorem ext_of_same {s t : Db} (h : ∀ k, Same k s t) : s = t := by
  obtain ⟨hstore, htypes⟩ := h .autoSubmit
  have hpartitions : s.partitions = t.partitions := h .ensurePartitions
  have huploads : s.uploads = t.uploads := h .abandonUploads
  have hkeys : s.idempotency = t.idempotency := h .expireIdempotency
  have hrows : s.dispatched = t.dispatched := h .purgeOutbox
  have hcodes : s.challenges = t.challenges := h .expireOtp
  cases s
  cases t
  simp only [Db.mk.injEq]
  exact ⟨hstore, htypes, hpartitions, huploads, hkeys, hrows, hcodes⟩

section
variable {p : Process} {now : Time} {db : Db}

/-! ### The submits raise nothing -/

theorem returns_sweepOne (ses : ExamSession) (id : ℕ) (w : World) :
    ∃ o w', ses.sweepOne id w = (.ok o, w') := by
  unfold sweepOne
  rw [Effect.bind_run]
  unfold Effect.guarded
  rcases ses.submitPlain id .autoExpiry w with ⟨e | row, w'⟩
  · exact ⟨none, _, rfl⟩
  · exact ⟨some id, _, rfl⟩

theorem returns_mapM {α β : Type} {f : α → Tx β} (hf : ∀ a w, ∃ b w', f a w = (.ok b, w'))
    (as : List α) (w : World) : ∃ bs w', as.mapM f w = (.ok bs, w') := by
  induction as generalizing w with
  | nil => exact ⟨[], w, rfl⟩
  | cons a as ih =>
    obtain ⟨b, u, hb⟩ := hf a w
    obtain ⟨bs, v, hbs⟩ := ih u
    rw [List.mapM_cons, Effect.bind_run_ok hb, Effect.bind_run_ok hbs]
    exact ⟨b :: bs, v, rfl⟩

theorem returns_autoSubmitExpired (ses : ExamSession) (limit : ℕ) (w : World) :
    ∃ ids w', ses.autoSubmitExpired limit w = (.ok ids, w') := by
  unfold autoSubmitExpired
  rw [Effect.bind_run_ok (m := ses.now) rfl, Effect.gets_bind_run]
  obtain ⟨swept, u, hswept⟩ := returns_mapM (returns_sweepOne ses)
    (((ses.due w.store (ses.clock w.ticks)).take limit).map Attempt.id)
    { w with ticks := w.ticks + 1 }
  rw [Effect.bind_run_ok hswept]
  exact ⟨_, u, rfl⟩

/-! ### What each job does -/

def refreshed (p : Process) (db : Db) : Except Raised (Bool × RegistryCache.Worker) :=
  RegistryCache.refreshFromDb p.files db.types false p.monotonic p.worker

theorem execute_none {j : JobName} (h : p.fault j = none) : p.execute j = .ok () := by
  unfold Process.execute
  rw [h]

theorem execute_some {j : JobName} {e : Raised} (h : p.fault j = some e) :
    p.execute j = .error e := by
  unfold Process.execute
  rw [h]

theorem autoSubmit_ok {fresh : Bool × RegistryCache.Worker} (hf : p.fault .autoSubmit = none)
    (hr : refreshed p db = .ok fresh) : ∃ n, autoSubmit p db = .ok (n, { db with
      store := ((session p fresh.2).autoSubmitExpired 200 { store := db.store }).2.store }) := by
  obtain ⟨ids, w, hw⟩ := returns_autoSubmitExpired (session p fresh.2) 200 { store := db.store }
  unfold refreshed at hr
  unfold autoSubmit
  rw [execute_none hf, hr]
  dsimp only [bind, Except.bind]
  rw [hw]
  exact ⟨ids.length, rfl⟩

theorem autoSubmit_breaks : Breaks (autoSubmit p) db ↔
    p.fault .autoSubmit ≠ none ∨ ∃ e, refreshed p db = .error e := by
  cases hf : p.fault .autoSubmit with
  | some e =>
    refine iff_of_true ⟨e, ?_⟩ (.inl (Option.some_ne_none e))
    unfold autoSubmit
    rw [execute_some hf]
    rfl
  | none =>
    cases hr : refreshed p db with
    | error e =>
      refine iff_of_true ⟨e, ?_⟩ (.inr ⟨e, rfl⟩)
      unfold refreshed at hr
      unfold autoSubmit
      rw [execute_none hf, hr]
      rfl
    | ok fresh =>
      obtain ⟨n, hok⟩ := autoSubmit_ok hf hr
      refine iff_of_false (not_breaks_of_ok hok) ?_
      rintro (hno | ⟨e, he⟩)
      · exact hno rfl
      · cases he

/-! ### The partitions of the months ahead -/

def Fileable (ps : Partitions) (table : PartitionedTable) (month : Month) : Prop :=
  (table, month) ∈ ps.created ∨ unfiledIn table month ps = false

def MonthReady (now : Time) (ps : Partitions) (offset : ℕ) : Prop :=
  (∃ e, monthStart now (offset + 1) = .ok e) ∧
    ∃ m, monthStart now offset = .ok m ∧ ∀ table ∈ partitioned, Fileable ps table m

theorem ensurePartition_ok {month : Month} {acc acc' : ℕ × Partitions} {table : PartitionedTable}
    (h : ensurePartition month acc table = .ok acc') : Fileable acc.2 table month ∧
      ∀ t m, Fileable acc'.2 t m ↔ Fileable acc.2 t m := by
  unfold ensurePartition at h
  split at h
  · rename_i hmem
    cases h
    exact ⟨.inl hmem, fun _ _ => Iff.rfl⟩
  · obtain ⟨ps, hps, rfl⟩ := map_eq_ok.1 h
    unfold createPartition at hps
    split at hps
    · cases hps
    · rename_i hfree
      cases hps
      rw [Bool.not_eq_true] at hfree
      refine ⟨.inr hfree, fun t m => ?_⟩
      unfold Fileable
      constructor
      · rintro (hmem | hnone)
        · rcases List.mem_append.1 hmem with hmem | hmem
          · exact .inl hmem
          · cases List.mem_singleton.1 hmem
            exact .inr hfree
        · exact .inr hnone
      · rintro (hmem | hnone)
        · exact .inl (List.mem_append_left _ hmem)
        · exact .inr hnone

theorem returns_ensurePartition {month : Month} {acc : ℕ × Partitions} {table : PartitionedTable}
    (h : Fileable acc.2 table month) : ∃ acc', ensurePartition month acc table = .ok acc' := by
  unfold ensurePartition
  by_cases hmem : (table, month) ∈ acc.2.created
  · rw [if_pos hmem]
    exact ⟨acc, rfl⟩
  · have hfree := h.resolve_left hmem
    rw [if_neg hmem]
    unfold createPartition
    rw [hfree]
    exact ⟨_, rfl⟩

theorem ensureTables_iff {month : Month} {acc : ℕ × Partitions} (tables : List PartitionedTable) :
    (Returns (tables.foldlM (ensurePartition month) acc) ↔
      ∀ table ∈ tables, Fileable acc.2 table month) ∧
    ∀ acc', tables.foldlM (ensurePartition month) acc = .ok acc' →
      ∀ t m, Fileable acc'.2 t m ↔ Fileable acc.2 t m := by
  induction tables generalizing acc with
  | nil =>
    refine ⟨iff_of_true ⟨acc, rfl⟩ (fun _ h => by cases h), ?_⟩
    intro acc' h
    cases h
    exact fun _ _ => Iff.rfl
  | cons table tables ih =>
    rw [List.foldlM_cons]
    cases hstep : ensurePartition month acc table with
    | error e =>
      refine ⟨iff_of_false ?_ ?_, ?_⟩
      · rintro ⟨acc', h⟩
        cases h
      · intro h
        obtain ⟨acc', hok⟩ := returns_ensurePartition (h table List.mem_cons_self)
        rw [hstep] at hok
        cases hok
      · intro acc' h
        cases h
    | ok next =>
      obtain ⟨hfile, hkeep⟩ := ensurePartition_ok hstep
      obtain ⟨hreturns, hlater⟩ := @ih next
      refine ⟨?_, fun acc' h t m => (hlater acc' h t m).trans (hkeep t m)⟩
      change Returns (tables.foldlM (ensurePartition month) next) ↔ _
      rw [hreturns, List.forall_mem_cons]
      simp only [hkeep, hfile, true_and]

theorem ensureMonth_iff {acc : ℕ × Partitions} (offset : ℕ) :
    (Returns (ensureMonth now acc offset) ↔ MonthReady now acc.2 offset) ∧
    ∀ acc', ensureMonth now acc offset = .ok acc' →
      ∀ t m, Fileable acc'.2 t m ↔ Fileable acc.2 t m := by
  unfold ensureMonth MonthReady
  cases hstart : monthStart now offset with
  | error e =>
    refine ⟨iff_of_false ?_ ?_, ?_⟩
    · rintro ⟨acc', h⟩
      cases h
    · rintro ⟨_, m, h, _⟩
      cases h
    · intro acc' h
      cases h
  | ok m =>
    cases hend : monthStart now (offset + 1) with
    | error e =>
      refine ⟨iff_of_false ?_ ?_, ?_⟩
      · rintro ⟨acc', h⟩
        cases h
      · rintro ⟨⟨m', h⟩, _⟩
        cases h
      · intro acc' h
        cases h
    | ok m' =>
      obtain ⟨hreturns, hkeep⟩ := @ensureTables_iff m acc partitioned
      refine ⟨?_, hkeep⟩
      change Returns (partitioned.foldlM (ensurePartition m) acc) ↔ _
      rw [hreturns]
      constructor
      · exact fun h => ⟨⟨m', rfl⟩, m, rfl, h⟩
      · rintro ⟨_, m'', hm, h⟩
        cases hm
        exact h

theorem ensureMonths_iff {acc : ℕ × Partitions} (offsets : List ℕ) :
    Returns (offsets.foldlM (ensureMonth now) acc) ↔
      ∀ offset ∈ offsets, MonthReady now acc.2 offset := by
  induction offsets generalizing acc with
  | nil => exact iff_of_true ⟨acc, rfl⟩ (fun _ h => by cases h)
  | cons offset offsets ih =>
    obtain ⟨hreturns, hkeep⟩ := @ensureMonth_iff now acc offset
    rw [List.foldlM_cons, List.forall_mem_cons, ← hreturns]
    cases hstep : ensureMonth now acc offset with
    | error e =>
      refine iff_of_false ?_ ?_
      · rintro ⟨acc', h⟩
        cases h
      · rintro ⟨⟨acc', h⟩, _⟩
        cases h
    | ok next =>
      have hready : ∀ offset, MonthReady now next.2 offset ↔ MonthReady now acc.2 offset := by
        intro offset
        unfold MonthReady
        simp only [hkeep next hstep]
      change Returns (offsets.foldlM (ensureMonth now) next) ↔ _
      rw [ih]
      simp only [hready]
      exact ⟨fun h => ⟨⟨next, rfl⟩, h⟩, fun h => h.2⟩

/-- The months a sweep looks ahead can all be given their partitions. -/
def MonthsReady (now : Time) (ps : Partitions) : Prop :=
  ∀ offset ∈ List.range (partitionLead + 1), MonthReady now ps offset

theorem ensurePartitions_breaks : Breaks (ensurePartitions p now) db ↔
    p.fault .ensurePartitions ≠ none ∨ ¬ MonthsReady now db.partitions := by
  have hmonths := @ensureMonths_iff now (0, db.partitions) (List.range (partitionLead + 1))
  cases hf : p.fault .ensurePartitions with
  | some e =>
    refine iff_of_true ⟨e, ?_⟩ (.inl (Option.some_ne_none e))
    unfold ensurePartitions
    rw [execute_some hf]
    rfl
  | none =>
    unfold MonthsReady
    rw [← hmonths]
    unfold ensurePartitions Breaks
    rw [execute_none hf]
    dsimp only [bind, Except.bind]
    cases hfold : (List.range (partitionLead + 1)).foldlM (ensureMonth now) (0, db.partitions) with
    | error e =>
      refine iff_of_true ⟨e, rfl⟩ (.inr ?_)
      rintro ⟨acc, h⟩
      cases h
    | ok acc =>
      refine iff_of_false ?_ ?_
      · rintro ⟨e, h⟩
        cases h
      · rintro (hno | hno)
        · exact hno rfl
        · exact hno ⟨acc, rfl⟩

/-! ### The rest -/

theorem statement_spec {m : Job Raised Db ℕ} {j : JobName} {f : Db → ℕ × Db}
    (hm : ∀ db, m db = p.execute j >>= fun _ => .ok (f db)) (db : Db) :
    (Breaks m db ↔ p.fault j ≠ none) ∧
      settle m db = if p.fault j = none then (f db).2 else db := by
  cases hf : p.fault j with
  | some e =>
    have hbreaks : Breaks m db := ⟨e, by rw [hm, execute_some hf]; rfl⟩
    exact ⟨iff_of_true hbreaks (Option.some_ne_none e), settle_error hbreaks⟩
  | none =>
    have hok : m db = .ok (f db) := by
      rw [hm, execute_none hf]
      rfl
    exact ⟨iff_of_false (not_breaks_of_ok hok) (fun h => h rfl), settle_ok hok⟩

theorem settle_autoSubmit (p : Process) (db : Db) : settle (autoSubmit p) db = { db with
    store := (settle (autoSubmit p) { store := db.store, types := db.types }).store } := by
  by_cases hbreaks : Breaks (autoSubmit p) db
  · have hbreaks' : Breaks (autoSubmit p) { store := db.store, types := db.types } :=
      autoSubmit_breaks.2 ((@autoSubmit_breaks p db).1 hbreaks)
    rw [settle_error hbreaks, settle_error hbreaks']
  · have hparts := mt autoSubmit_breaks.2 hbreaks
    rw [not_or, not_not] at hparts
    cases hr : refreshed p db with
    | error e => exact absurd ⟨e, hr⟩ hparts.2
    | ok fresh =>
      obtain ⟨n, hok⟩ := autoSubmit_ok hparts.1 hr
      have hr' : refreshed p { store := db.store, types := db.types } = .ok fresh := hr
      obtain ⟨n', hok'⟩ := autoSubmit_ok hparts.1 hr'
      rw [settle_ok hok, settle_ok hok']

theorem settle_ensurePartitions (p : Process) (now : Time) (db : Db) :
    settle (ensurePartitions p now) db = { db with partitions :=
      (settle (ensurePartitions p now) { store := {}, partitions := db.partitions }).partitions }
    := by
  unfold settle ensurePartitions
  cases hf : p.fault .ensurePartitions with
  | some e =>
    rw [execute_some hf]
    rfl
  | none =>
    rw [execute_none hf]
    dsimp only [bind, Except.bind]
    cases (List.range (partitionLead + 1)).foldlM (ensureMonth now) (0, db.partitions) with
    | error e => rfl
    | ok acc => rfl

/-- A job keeps to its tables: it changes no other, and acts by what they hold. -/
structure Keeps (j : JobName) (m : Job Raised Db ℕ) : Prop where
  frame : ∀ k db, k ≠ j → Same k (settle m db) db
  own : ∀ s t, Same j s t → Same j (settle m s) (settle m t)
  breaks : ∀ s t, Same j s t → (Breaks m s ↔ Breaks m t)

theorem keeps_statement {m : Job Raised Db ℕ} {j : JobName} {f : Db → ℕ × Db}
    (hm : ∀ db, m db = p.execute j >>= fun _ => .ok (f db))
    (hframe : ∀ k db, k ≠ j → Same k (f db).2 db)
    (hown : ∀ s t, Same j s t → Same j (f s).2 (f t).2) : Keeps j m where
  frame := by
    intro k db hk
    rw [(statement_spec hm db).2]
    split
    · exact hframe k db hk
    · exact (same_equivalence k).refl db
  own := by
    intro s t h
    rw [(statement_spec hm s).2, (statement_spec hm t).2]
    split
    · exact hown s t h
    · exact h
  breaks := fun s t _ => (statement_spec hm s).1.trans (statement_spec hm t).1.symm

theorem keeps_autoSubmit (p : Process) : Keeps .autoSubmit (autoSubmit p) where
  frame := by
    intro k db hk
    rw [settle_autoSubmit]
    cases k with
    | autoSubmit => exact absurd rfl hk
    | _ => rfl
  own := by
    intro s t h
    rw [settle_autoSubmit p s, settle_autoSubmit p t, h.1, h.2]
    exact ⟨rfl, rfl⟩
  breaks := by
    intro s t h
    have hfresh : refreshed p s = refreshed p t := by
      unfold refreshed
      rw [h.2]
    rw [autoSubmit_breaks, autoSubmit_breaks, hfresh]

theorem keeps_ensurePartitions (p : Process) (now : Time) :
    Keeps .ensurePartitions (ensurePartitions p now) where
  frame := by
    intro k db hk
    rw [settle_ensurePartitions]
    cases k with
    | ensurePartitions => exact absurd rfl hk
    | autoSubmit => exact ⟨rfl, rfl⟩
    | _ => rfl
  own := by
    intro s t h
    have h : s.partitions = t.partitions := h
    rw [settle_ensurePartitions p now s, settle_ensurePartitions p now t, h]
    rfl
  breaks := by
    intro s t h
    have h : s.partitions = t.partitions := h
    rw [ensurePartitions_breaks, ensurePartitions_breaks, h]

theorem keeps_job (p : Process) (now : Time) (j : JobName) : Keeps j (job p now j) := by
  cases j with
  | autoSubmit => exact keeps_autoSubmit p
  | ensurePartitions => exact keeps_ensurePartitions p now
  | abandonUploads =>
    refine keeps_statement (fun _ => rfl) ?_ (fun s t h => congrArg (List.map (aborted now)) h)
    intro k db hk
    cases k with
    | abandonUploads => exact absurd rfl hk
    | autoSubmit => exact ⟨rfl, rfl⟩
    | _ => rfl
  | expireIdempotency =>
    refine keeps_statement (fun _ => rfl) ?_
      (fun s t h => congrArg (fun rows => (purge _ rows).2) h)
    intro k db hk
    cases k with
    | expireIdempotency => exact absurd rfl hk
    | autoSubmit => exact ⟨rfl, rfl⟩
    | _ => rfl
  | purgeOutbox =>
    refine keeps_statement (fun _ => rfl) ?_
      (fun s t h => congrArg (fun rows => (purge _ rows).2) h)
    intro k db hk
    cases k with
    | purgeOutbox => exact absurd rfl hk
    | autoSubmit => exact ⟨rfl, rfl⟩
    | _ => rfl
  | expireOtp =>
    refine keeps_statement (fun _ => rfl) ?_
      (fun s t h => congrArg (fun rows => (purge _ rows).2) h)
    intro k db hk
    cases k with
    | expireOtp => exact absurd rfl hk
    | autoSubmit => exact ⟨rfl, rfl⟩
    | _ => rfl

theorem jobs_local (p : Process) (now : Time) : Local Same (job p now) where
  same := same_equivalence
  ext := ext_of_same
  frame := fun hk => (keeps_job p now _).frame _ _ hk
  own := fun h => (keeps_job p now _).own _ _ h
  breaks := fun h => (keeps_job p now _).breaks _ _ h

end

/-! ## When nothing is lost -/

/-- No job raises: the database refuses no statement outside a savepoint, the registry compiles,
and each partition of the months ahead is there or has no row waiting in the DEFAULT one. -/
structure Smooth (p : Process) (now : Time) (db : Db) : Prop where
  statements : ∀ j, p.fault j = none
  registry : ∃ fresh, refreshed p db = .ok fresh
  months : MonthsReady now db.partitions

theorem smooth_iff (p : Process) (now : Time) (db : Db) :
    Smooth p now db ↔ ∀ j, ¬ Breaks (job p now j) db := by
  have hregistry : (∃ fresh, refreshed p db = .ok fresh) ↔ ¬ ∃ e, refreshed p db = .error e := by
    cases refreshed p db with
    | error e => exact iff_of_false (by rintro ⟨_, h⟩; cases h) (fun h => h ⟨e, rfl⟩)
    | ok fresh => exact iff_of_true ⟨fresh, rfl⟩ (by rintro ⟨_, h⟩; cases h)
  have hsubmit : Breaks (job p now .autoSubmit) db ↔ _ := autoSubmit_breaks
  have hmonths : Breaks (job p now .ensurePartitions) db ↔ _ := ensurePartitions_breaks
  have hstatement : ∀ j, j ≠ .autoSubmit → j ≠ .ensurePartitions →
      (Breaks (job p now j) db ↔ p.fault j ≠ none) := by
    intro j hj hj'
    cases j with
    | autoSubmit => exact absurd rfl hj
    | ensurePartitions => exact absurd rfl hj'
    | abandonUploads => exact (statement_spec (fun _ => rfl) db).1
    | expireIdempotency => exact (statement_spec (fun _ => rfl) db).1
    | purgeOutbox => exact (statement_spec (fun _ => rfl) db).1
    | expireOtp => exact (statement_spec (fun _ => rfl) db).1
  constructor
  · intro h j hbreaks
    by_cases hj : j = .autoSubmit
    · subst hj
      rcases hsubmit.1 hbreaks with hno | hno
      · exact hno (h.statements _)
      · exact hregistry.1 h.registry hno
    · by_cases hj' : j = .ensurePartitions
      · subst hj'
        rcases hmonths.1 hbreaks with hno | hno
        · exact hno (h.statements _)
        · exact hno h.months
      · exact (hstatement j hj hj').1 hbreaks (h.statements j)
  · intro h
    refine ⟨fun j => ?_, ?_, ?_⟩
    · by_contra hfault
      by_cases hj : j = .autoSubmit
      · subst hj
        exact h _ (hsubmit.2 (.inl hfault))
      · by_cases hj' : j = .ensurePartitions
        · subst hj'
          exact h _ (hmonths.2 (.inl hfault))
        · exact h j ((hstatement j hj hj').2 hfault)
    · exact hregistry.2 (fun hno => h _ (hsubmit.2 (.inr hno)))
    · by_contra hno
      exact h _ (hmonths.2 (.inr hno))

theorem sweep_eq (p : Process) (now : Time) (db : Db) :
    sweep p now true db = settle (together (jobs.map (job p now))) db := by
  unfold sweep run
  rcases breaks_or_ok (together (jobs.map (job p now))) db with ⟨e, he⟩ | ⟨counts, db', hok⟩
  · rw [settle_error ⟨e, he⟩]
    apply settle_error
    refine ⟨e, ?_⟩
    dsimp only
    rw [if_pos rfl, he]
    rfl
  · rw [settle_ok hok]
    apply settle_ok (a := jobs.map JobName.count |>.zip counts)
    dsimp only
    rw [if_pos rfl, hok]
    rfl

/-- A sweep that runs keeps what each job did exactly when no job raises or none does anything. -/
theorem sweep_isolates_iff (p : Process) (now : Time) (acquired : Bool) (db : Db) :
    Isolates p now acquired db ↔ acquired = false ∨ Smooth p now db ∨
      ∀ j, settle (job p now j) db = db := by
  cases acquired with
  | false => exact iff_of_true (fun h => absurd h Bool.false_ne_true) (.inl rfl)
  | true =>
    have hnodup : jobs.Nodup := by decide
    have hall : ∀ j, j ∈ jobs := by
      intro j
      cases j <;> decide
    have hjobs := (jobs_local p now).settle_together_iff hnodup hall (s := db)
    rw [smooth_iff, Bool.true_eq_false, false_or, ← hjobs]
    unfold Isolates isolated
    rw [sweep_eq]
    exact ⟨fun h => h rfl, fun h _ => h⟩

/-- Failures that last leave every attempt as it was, however often the sweep runs. -/
theorem sweeps_undone {ticks : List (Process × Time)} {db : Db}
    (h : ∀ tick ∈ ticks, ¬ Smooth tick.1 tick.2 db) :
    ticks.foldl (fun db tick => sweep tick.1 tick.2 true db) db = db := by
  induction ticks with
  | nil => rfl
  | cons tick ticks ih =>
    have hbreaks : Breaks (together (jobs.map (job tick.1 tick.2))) db := by
      rw [(jobs_local tick.1 tick.2).breaks_together_iff (by decide)]
      have hno := h tick List.mem_cons_self
      rw [smooth_iff, not_forall] at hno
      obtain ⟨j, hj⟩ := hno
      rw [not_not] at hj
      exact ⟨j, by cases j <;> decide, hj⟩
    rw [List.foldl_cons, sweep_eq, settle_error hbreaks]
    exact ih (fun t ht => h t (List.mem_cons_of_mem tick ht))

/-! ## A sweep of December -/

def sampleNow : Time := seconds 1796904000

def sampleProcess : Process where
  files := RegistryCache.sampleFiles
  worker :=
    { registry := AutosaveConvergence.sampleSession.scorer.registry
      lexicon := AutosaveConvergence.sampleSession.scorer.lexicon
      generation := some (0, 0) }
  monotonic := 0
  frames := AutosaveConvergence.sampleSession.scorer.frames
  validator := AutosaveConvergence.sampleSession.validator
  sign := AutosaveConvergence.sampleSession.sign
  clock := fun _ => sampleNow
  began := sampleNow

/-- An attempt an hour overdue. There are the partitions the migrations created, and the audit log
was written to this month before any sweep looked ahead. -/
def lateDb : Db where
  store := { AutosaveConvergence.sampleStore with
    attempts := .put .empty { AutosaveConvergence.sampleAttempt with
      expiresAt := some (sampleNow - seconds 3600) } }
  partitions :=
    { created := partitioned.flatMap (fun table =>
        [(table, ⟨2026, 7⟩), (table, ⟨2026, 8⟩), (table, ⟨2026, 9⟩)])
      unfiled := [(.auditLog, sampleNow - seconds 86400)] }

theorem sweeps_undone_december :
    [(sampleProcess, sampleNow), (sampleProcess, sampleNow + 1)].foldl
      (fun db tick => sweep tick.1 tick.2 true db) lateDb = lateDb := by
  refine sweeps_undone (fun tick htick hsmooth => ?_)
  have hstops : ∀ now ∈ [sampleNow, sampleNow + 1], ((List.range (partitionLead + 1)).foldlM
      (ensureMonth now) (0, lateDb.partitions)).toOption.isSome = false := by decide +kernel
  have hnow : tick.2 ∈ [sampleNow, sampleNow + 1] := by
    rcases List.mem_pair.1 htick with rfl | rfl <;> simp
  obtain ⟨acc, hgoes⟩ := (@ensureMonths_iff tick.2 (0, lateDb.partitions) _).2 hsmooth.months
  have hstop := hstops _ hnow
  rw [hgoes] at hstop
  cases hstop

def statusOf (db : Db) (attempt : ℕ) : Option AttemptStatus :=
  (db.store.attempts.get? attempt).map Attempt.status

/-- The attempt would be scored, and is not. -/
theorem default_partition_undoes_scores :
    statusOf (isolated sampleProcess sampleNow lateDb) 1 = some .scored ∧
      statusOf (sweep sampleProcess sampleNow true lateDb) 1 = some .inProgress ∧
      ¬ Isolates sampleProcess sampleNow true lateDb := by
  have hscored : statusOf (isolated sampleProcess sampleNow lateDb) 1 = some .scored := by
    decide +kernel
  have hleft : statusOf (sweep sampleProcess sampleNow true lateDb) 1 = some .inProgress := by
    decide +kernel
  refine ⟨hscored, hleft, fun h => ?_⟩
  rw [← h rfl, hleft] at hscored
  cases hscored

end IeltsHub.SweepIsolation
