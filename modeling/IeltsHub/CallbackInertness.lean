import IeltsHub.ClickCallbacks

set_option autoImplicit false

/-!
# Callbacks that nobody signed

Two runs over one list of callbacks are compared, one of them without the callbacks whose
signature does not verify. The first may hold answers to those under keys that the second
leaves free; apart from them the two are the same.
-/
namespace IeltsHub.CallbackInertness
open PyTime BillingModels ClickCallbacks

structure Callback where
  now : Time
  phase : Phase
  body : ClickCallback
  deriving DecidableEq

def Callback.key (c : Callback) : String := idempotencyKey c.phase c.body

def verifies (cfg : Settings) (c : Callback) : Bool :=
  match signatureOk cfg c.body c.phase with
  | .ok ok => ok
  | .error _ => false

def deliver (cal : Calendar) (cfg : Settings) (db : Db) (c : Callback) : Option ClickResponse × Db :=
  match clickPhase cal cfg c.now db c.phase c.body with
  | .ok (response, next) => (some response, next)
  | .error _ => (none, db)

def answered (cal : Calendar) (cfg : Settings) :
    Db → List Callback → List (Callback × Option ClickResponse)
  | _, [] => []
  | db, c :: rest => (c, (deliver cal cfg db c).1) :: answered cal cfg (deliver cal cfg db c).2 rest

def after (cal : Calendar) (cfg : Settings) : Db → List Callback → Db
  | db, [] => db
  | db, c :: rest => after cal cfg (deliver cal cfg db c).2 rest

def succeeded (answer : Option ClickResponse) : Prop := ∃ r, answer = some r ∧ r.error = 0

/-- Without the callbacks that do not verify, every other one is answered as it was, orders,
payments and entitlements end as they did; and none of those was answered with success. -/
structure Inert (cal : Calendar) (cfg : Settings) (db : Db) (cs : List Callback) : Prop where
  answers : (answered cal cfg db cs).filter (fun x => verifies cfg x.1) =
    answered cal cfg db (cs.filter (verifies cfg))
  ledger : (after cal cfg db cs).ledger = (after cal cfg db (cs.filter (verifies cfg))).ledger
  refused : ∀ x ∈ answered cal cfg db cs, verifies cfg x.1 = false → ¬ succeeded x.2

/-- What a callback finds under its key: one that verifies no refusal stored since `base`, one
that does not verify no success. -/
def FindsOwn (cfg : Settings) (base db : Db) (c : Callback) : Prop :=
  if verifies cfg c then stored base c.key = none → stored db c.key ≠ some signCheckFailed
  else ¬ succeeded (stored db c.key)

def Clean (cal : Calendar) (cfg : Settings) (base : Db) : Db → List Callback → Prop
  | _, [] => True
  | db, c :: rest => FindsOwn cfg base db c ∧ Clean cal cfg base (deliver cal cfg db c).2 rest

/-! ## One callback -/

variable {cal : Calendar} {cfg : Settings} {db base full kept : Db} {c : Callback}

theorem deliver_of_stored {r : ClickResponse} (h : stored db c.key = some r) :
    deliver cal cfg db c = (some r, db) := by
  unfold deliver clickPhase
  rw [Callback.key] at h
  rw [h]

theorem deliver_forged (cal : Calendar) (h : stored db c.key = none) (hbad : verifies cfg c = false) :
    (deliver cal cfg db c).2.ledger = db.ledger ∧ ¬ succeeded (deliver cal cfg db c).1 ∧
      ∀ key, stored (deliver cal cfg db c).2 key = stored db key ∨
        (c.key = key ∧ stored (deliver cal cfg db c).2 key = some signCheckFailed) := by
  rw [Callback.key] at h
  unfold verifies at hbad
  cases hsig : signatureOk cfg c.body c.phase with
  | error e =>
    have heq : deliver cal cfg db c = (none, db) := by
      unfold deliver clickPhase
      rw [h, hsig]
      rfl
    rw [heq]
    refine ⟨rfl, ?_, fun key => .inl rfl⟩
    rintro ⟨r, hr, _⟩
    cases hr
  | ok ok =>
    rw [hsig] at hbad
    change ok = false at hbad
    subst hbad
    unfold deliver
    rw [clickPhase_refused h hsig]
    refine ⟨ledger_recordClick _ _ _, ?_, ?_⟩
    · rintro ⟨r, hr, herror⟩
      cases hr
      cases herror
    · intro key
      by_cases hkey : idempotencyKey c.phase c.body = key
      · exact .inr ⟨hkey, (stored_recordClick h _ _ _ key).trans (if_pos hkey)⟩
      · exact .inl ((stored_recordClick h _ _ _ key).trans (if_neg hkey))

theorem deliver_genuine (cal : Calendar) (h : stored db c.key = none) (hgood : verifies cfg c = true) :
    (deliver cal cfg db c).1 = some (execute cal c.now db.ledger c.phase c.body).1 ∧
      (deliver cal cfg db c).2.ledger = (execute cal c.now db.ledger c.phase c.body).2 ∧
      ∀ key, stored (deliver cal cfg db c).2 key =
        if c.key = key then some (execute cal c.now db.ledger c.phase c.body).1
        else stored db key := by
  rw [Callback.key] at h
  unfold verifies at hgood
  cases hsig : signatureOk cfg c.body c.phase with
  | error e =>
    rw [hsig] at hgood
    cases hgood
  | ok ok =>
    rw [hsig] at hgood
    change ok = true at hgood
    subst hgood
    unfold deliver
    rw [clickPhase_executed h hsig]
    refine ⟨rfl, ledger_recordClick _ _ _, ?_⟩
    intro key
    have hfree : stored { db with ledger := (execute cal c.now db.ledger c.phase c.body).2 }
        (idempotencyKey c.phase c.body) = none := h
    exact stored_recordClick hfree _ _ _ key

theorem execute_ne_signCheckFailed (now : Time) (l : Ledger) (phase : Phase)
    (body : ClickCallback) : (execute cal now l phase body).1 ≠ signCheckFailed := by
  intro q
  have herror := congrArg ClickResponse.error q
  unfold execute at herror
  split at herror
  · cases herror
  · split at herror <;> cases herror

/-! ## The two runs side by side -/

/-- `full` went through all callbacks since `base`, `kept` through those that verify. -/
structure Related (base full kept : Db) : Prop where
  ledger : full.ledger = kept.ledger
  stored : ∀ key, stored full key = stored kept key ∨
    (stored base key = none ∧ stored full key = some signCheckFailed ∧ stored kept key = none)
  unrefused : ∀ key, ClickCallbacks.stored base key = none →
    ClickCallbacks.stored kept key ≠ some signCheckFailed
  grows : ∀ key, ClickCallbacks.stored kept key = none → ClickCallbacks.stored base key = none

theorem Related.refl (base : Db) : Related base base base where
  ledger := rfl
  stored := fun _ => .inl rfl
  unrefused := fun key h => by rw [h]; exact fun q => nomatch q
  grows := fun _ h => h

theorem Related.forged (h : Related base full kept) (hbad : verifies cfg c = false) :
    Related base (deliver cal cfg full c).2 kept := by
  cases hs : ClickCallbacks.stored full c.key with
  | some r =>
    rw [deliver_of_stored hs]
    exact h
  | none =>
    obtain ⟨hledger, _, hstored⟩ := deliver_forged cal hs hbad
    refine ⟨hledger.trans h.ledger, ?_, h.unrefused, h.grows⟩
    intro key
    rcases hstored key with hsame | ⟨rfl, hfailed⟩
    · rw [hsame]
      exact h.stored key
    · have hkept : ClickCallbacks.stored kept c.key = none := by
        rcases h.stored c.key with heq | ⟨_, hfull, _⟩
        · rw [← heq, hs]
        · rw [hs] at hfull
          cases hfull
      exact .inr ⟨h.grows _ hkept, hfailed, hkept⟩

theorem Related.genuine (cal : Calendar) (h : Related base full kept) (hgood : verifies cfg c = true)
    (hs : ClickCallbacks.stored full c.key = ClickCallbacks.stored kept c.key) :
    (deliver cal cfg full c).1 = (deliver cal cfg kept c).1 ∧
      Related base (deliver cal cfg full c).2 (deliver cal cfg kept c).2 := by
  cases hk : ClickCallbacks.stored kept c.key with
  | some r =>
    rw [deliver_of_stored hk, deliver_of_stored (hs.trans hk)]
    exact ⟨rfl, h⟩
  | none =>
    obtain ⟨hanswer, hledger, hstored⟩ := deliver_genuine cal (hs.trans hk) hgood
    obtain ⟨hanswer', hledger', hstored'⟩ := deliver_genuine cal hk hgood
    rw [h.ledger] at hanswer hledger hstored
    refine ⟨hanswer.trans hanswer'.symm, hledger.trans hledger'.symm, ?_, ?_, ?_⟩
    · intro key
      rw [hstored, hstored']
      split
      · exact .inl rfl
      · exact h.stored key
    · intro key hbase
      rw [hstored']
      split
      · exact fun q => execute_ne_signCheckFailed _ _ _ _ (Option.some.inj q)
      · exact h.unrefused key hbase
    · intro key
      rw [hstored']
      split
      · exact fun q => nomatch q
      · exact h.grows key

theorem Related.poisoned (h : Related base full kept) (hgood : verifies cfg c = true)
    (hbase : ClickCallbacks.stored base c.key = none)
    (hfull : ClickCallbacks.stored full c.key = some signCheckFailed) :
    (deliver cal cfg full c).1 ≠ (deliver cal cfg kept c).1 := by
  have hkept : ClickCallbacks.stored kept c.key = none := by
    rcases h.stored c.key with heq | ⟨_, _, hnone⟩
    · rw [hfull] at heq
      exact absurd heq.symm (h.unrefused _ hbase)
    · exact hnone
  rw [deliver_of_stored hfull, (deliver_genuine cal hkept hgood).1]
  exact fun q => execute_ne_signCheckFailed _ _ _ _ (Option.some.inj q).symm

theorem Related.sameStored (h : Related base full kept) (hgood : verifies cfg c = true)
    (hown : FindsOwn cfg base full c) :
    ClickCallbacks.stored full c.key = ClickCallbacks.stored kept c.key := by
  rcases h.stored c.key with heq | ⟨hbase, hfull, _⟩
  · exact heq
  · rw [FindsOwn, if_pos hgood] at hown
    exact absurd hfull (hown hbase)

theorem succeeded_forged (hbad : verifies cfg c = false) :
    succeeded (deliver cal cfg db c).1 ↔ succeeded (stored db c.key) := by
  cases hs : stored db c.key with
  | some r => rw [deliver_of_stored hs]
  | none =>
    constructor
    · exact fun q => absurd q (deliver_forged cal hs hbad).2.1
    · rintro ⟨r, hr, _⟩
      cases hr

/-! ## The whole run -/

/-- `Inert`, of two runs already under way. -/
structure Agree (cal : Calendar) (cfg : Settings) (full kept : Db) (cs : List Callback) : Prop where
  answers : (answered cal cfg full cs).filter (fun x => verifies cfg x.1) =
    answered cal cfg kept (cs.filter (verifies cfg))
  ledger : (after cal cfg full cs).ledger = (after cal cfg kept (cs.filter (verifies cfg))).ledger
  refused : ∀ x ∈ answered cal cfg full cs, verifies cfg x.1 = false → ¬ succeeded x.2

theorem agree_cons_forged (base : Db) {cs : List Callback} (hbad : verifies cfg c = false) :
    Agree cal cfg full kept (c :: cs) ↔
      FindsOwn cfg base full c ∧ Agree cal cfg (deliver cal cfg full c).2 kept cs := by
  have hneg : ¬ verifies cfg c = true := by simp [hbad]
  have hown : FindsOwn cfg base full c ↔ ¬ succeeded (deliver cal cfg full c).1 := by
    rw [FindsOwn, if_neg hneg, succeeded_forged hbad]
  rw [hown]
  constructor
  · intro h
    have hanswers := h.answers
    have hledger := h.ledger
    simp only [answered, List.filter_cons, hbad, Bool.false_eq_true, if_false] at hanswers
    rw [after, List.filter_cons_of_neg hneg] at hledger
    exact ⟨h.refused _ List.mem_cons_self hbad, hanswers, hledger,
      fun x hx => h.refused x (List.mem_cons_of_mem _ hx)⟩
  · rintro ⟨hrefused, h⟩
    refine ⟨?_, ?_, ?_⟩
    · simpa only [answered, List.filter_cons, hbad, Bool.false_eq_true, if_false] using h.answers
    · rw [after, List.filter_cons_of_neg hneg]
      exact h.ledger
    · intro x hx
      rcases List.mem_cons.1 hx with rfl | hx
      · exact fun _ => hrefused
      · exact h.refused x hx

theorem agree_cons_genuine {cs : List Callback} (hgood : verifies cfg c = true) :
    Agree cal cfg full kept (c :: cs) ↔
      (deliver cal cfg full c).1 = (deliver cal cfg kept c).1 ∧
        Agree cal cfg (deliver cal cfg full c).2 (deliver cal cfg kept c).2 cs := by
  constructor
  · intro h
    have hanswers := h.answers
    have hledger := h.ledger
    simp only [answered, List.filter_cons, hgood, if_true] at hanswers
    rw [after, List.filter_cons_of_pos hgood, after] at hledger
    obtain ⟨hhead, htail⟩ := List.cons.inj hanswers
    exact ⟨(Prod.mk.inj hhead).2, htail, hledger,
      fun x hx => h.refused x (List.mem_cons_of_mem _ hx)⟩
  · rintro ⟨hanswer, h⟩
    refine ⟨?_, ?_, ?_⟩
    · simp only [answered, List.filter_cons, hgood, if_true]
      rw [hanswer, h.answers]
    · rw [after, List.filter_cons_of_pos hgood, after]
      exact h.ledger
    · intro x hx
      rcases List.mem_cons.1 hx with rfl | hx
      · intro hbad
        rw [hgood] at hbad
        cases hbad
      · exact h.refused x hx

theorem agree_iff {cs : List Callback} (h : Related base full kept) :
    Agree cal cfg full kept cs ↔ Clean cal cfg base full cs := by
  induction cs generalizing full kept with
  | nil => exact ⟨fun _ => trivial, fun _ => ⟨rfl, h.ledger, fun x hx => nomatch hx⟩⟩
  | cons c cs ih =>
    rw [Clean]
    cases hsig : verifies cfg c with
    | false => rw [agree_cons_forged base hsig, ih (h.forged hsig)]
    | true =>
      rw [agree_cons_genuine hsig]
      constructor
      · rintro ⟨hanswer, hagree⟩
        have hown : FindsOwn cfg base full c := by
          rw [FindsOwn, if_pos hsig]
          exact fun hbase hfull => h.poisoned hsig hbase hfull hanswer
        have hnext := (h.genuine cal hsig (h.sameStored hsig hown)).2
        exact ⟨hown, (ih hnext).1 hagree⟩
      · rintro ⟨hown, hclean⟩
        obtain ⟨hanswer, hnext⟩ := h.genuine cal hsig (h.sameStored hsig hown)
        exact ⟨hanswer, (ih hnext).2 hclean⟩

/-- Deleting the callbacks that do not verify changes nothing exactly when no callback that
verifies finds a refusal under its key that was stored on the way, and none that does not finds a
success. -/
theorem inert_iff (cal : Calendar) (cfg : Settings) (db : Db) (cs : List Callback) :
    Inert cal cfg db cs ↔ Clean cal cfg db db cs := by
  rw [← agree_iff (Related.refl db)]
  exact ⟨fun h => ⟨h.answers, h.ledger, h.refused⟩, fun h => ⟨h.answers, h.ledger, h.refused⟩⟩

/-- A prepare anybody can send: the genuine one that follows it is answered `-1`. -/
theorem forged_prepare_blocks_the_genuine : ¬ Inert sampleCalendar sampleSettings sampleDb
    [⟨0, .prepare, sampleForm "click-1" "50000.00"⟩,
      ⟨1, .prepare, signed .prepare (sampleForm "click-1" "50000.00")⟩] := by
  intro h
  have hanswers := h.answers
  revert hanswers
  decide +kernel

end IeltsHub.CallbackInertness
