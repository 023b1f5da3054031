import IeltsHub.WorkersRelay

set_option autoImplicit false

/-!
# The outbox delivers at least once

A pass is described by what it leaves of each row: a claimed row is settled by its own trial alone,
every other row stands. The invariants of a run follow from that.
-/
namespace IeltsHub.AtLeastOnce
open PyTime RowTable WorkersActors WorkersRelay

/-! ## What a pass leaves of a row -/

def raisedBy (p : Pass) (row : Row) : Option Failure :=
  match (trial p row).1 with
  | .error e => some e
  | .ok () => none

def settle (p : Pass) (row : Row) : Row :=
  match raisedBy p row with
  | some e => reschedule row e p.now row
  | none => markDispatched p.now row

def trialOf (p : Pass) (row : Row) : Trial := ⟨row.id, p.now, raisedBy p row⟩

def sentFor (p : Pass) (row : Row) : List (ℕ × Message) :=
  (trial p row).2.queue.map (fun m => (row.id, m))

section
variable {p : Pass} {w : World} {s : World × ℕ} {row r : Row} {rows : List Row} {id : ℕ}

theorem relayRow_queue : (relayRow p s row).1.queue = s.1.queue ++ sentFor p row := by
  unfold relayRow sentFor
  rcases trial p row with ⟨e | u, wire⟩ <;> rfl

theorem relayRow_history : (relayRow p s row).1.history = s.1.history ++ [trialOf p row] := by
  unfold relayRow trialOf raisedBy
  rcases trial p row with ⟨e | u, wire⟩ <;> rfl

theorem relayRow_nextId : (relayRow p s row).1.outbox.nextId = s.1.outbox.nextId := by
  unfold relayRow
  rcases trial p row with ⟨e | u, wire⟩ <;> rfl

theorem relayRow_get?_self (h : s.1.outbox.get? row.id = some row) :
    (relayRow p s row).1.outbox.get? row.id = some (settle p row) := by
  unfold relayRow settle raisedBy
  rcases trial p row with ⟨e | u, wire⟩
  · exact (Outbox.get?_update row.id (reschedule_id row e p.now)).trans (by rw [h]; rfl)
  · exact (Outbox.get?_update row.id (markDispatched_id p.now)).trans (by rw [h]; rfl)

theorem relayRow_get?_of_ne (h : id ≠ row.id) :
    (relayRow p s row).1.outbox.get? id = s.1.outbox.get? id := by
  unfold relayRow
  rcases trial p row with ⟨e | u, wire⟩
  · exact Outbox.get?_update_of_ne (reschedule_id row e p.now) h
  · exact Outbox.get?_update_of_ne (markDispatched_id p.now) h

theorem loop_queue : (rows.foldl (relayRow p) s).1.queue = s.1.queue ++ rows.flatMap (sentFor p) := by
  induction rows generalizing s with
  | nil => simp
  | cons row rows ih => rw [List.foldl_cons, ih, relayRow_queue, List.flatMap_cons, List.append_assoc]

theorem loop_history :
    (rows.foldl (relayRow p) s).1.history = s.1.history ++ rows.map (trialOf p) := by
  induction rows generalizing s with
  | nil => simp
  | cons row rows ih =>
    rw [List.foldl_cons, ih, relayRow_history, List.map_cons, List.append_assoc, List.singleton_append]

theorem loop_nextId : (rows.foldl (relayRow p) s).1.outbox.nextId = s.1.outbox.nextId := by
  induction rows generalizing s with
  | nil => rfl
  | cons row rows ih => rw [List.foldl_cons, ih, relayRow_nextId]

theorem loop_get?_of_not_mem (h : id ∉ rows.map Row.id) :
    (rows.foldl (relayRow p) s).1.outbox.get? id = s.1.outbox.get? id := by
  induction rows generalizing s with
  | nil => rfl
  | cons row rows ih =>
    rw [List.map_cons, List.mem_cons, not_or] at h
    rw [List.foldl_cons, ih h.2, relayRow_get?_of_ne h.1]

theorem loop_get?_of_mem (hnodup : (rows.map Row.id).Nodup)
    (hread : ∀ r ∈ rows, s.1.outbox.get? r.id = some r) (h : row ∈ rows) :
    (rows.foldl (relayRow p) s).1.outbox.get? row.id = some (settle p row) := by
  induction rows generalizing s with
  | nil => cases h
  | cons first rows ih =>
    rw [List.map_cons, List.nodup_cons] at hnodup
    rw [List.foldl_cons]
    rcases List.mem_cons.1 h with rfl | h
    · rw [loop_get?_of_not_mem hnodup.1]
      exact relayRow_get?_self (hread row List.mem_cons_self)
    · refine ih hnodup.2 (fun r hr => ?_) h
      have hne : r.id ≠ first.id := by
        intro heq
        exact hnodup.1 (heq ▸ List.mem_map_of_mem hr)
      rw [relayRow_get?_of_ne hne]
      exact hread r (List.mem_cons_of_mem first hr)

theorem claimed_read {o : Outbox} (h : r ∈ claimed p o) : o.get? r.id = some r :=
  Outbox.get?_eq_some.2 ⟨(mem_claimed h).1, rfl⟩

theorem drain_get?_of_mem (h : row ∈ claimed p w.outbox) :
    (drain p w).1.outbox.get? row.id = some (settle p row) :=
  loop_get?_of_mem (claimed_nodup p w.outbox) (fun _ hr => claimed_read hr) h

theorem drain_get?_of_not_mem (h : id ∉ (claimed p w.outbox).map Row.id) :
    (drain p w).1.outbox.get? id = w.outbox.get? id :=
  loop_get?_of_not_mem h

end

/-! ## What an act leaves -/

def trialsOf (w : World) (id : ℕ) : List Trial := w.history.filter (fun t => t.row = id)

section
variable {p : Pass} {w : World} {row : Row} {id : ℕ}

theorem filter_id_of_mem {rows : List Row} (hnodup : (rows.map Row.id).Nodup) (h : row ∈ rows) :
    rows.filter (fun r => r.id = row.id) = [row] := by
  induction rows with
  | nil => cases h
  | cons first rows ih =>
    rw [List.map_cons, List.nodup_cons] at hnodup
    rcases List.mem_cons.1 h with rfl | h
    · have hrest : rows.filter (fun r => r.id = row.id) = [] := by
        rw [List.filter_eq_nil_iff]
        intro r hr heq
        exact hnodup.1 (of_decide_eq_true heq ▸ List.mem_map_of_mem hr)
      simp [hrest]
    · have hne : first.id ≠ row.id := by
        intro heq
        exact hnodup.1 (heq ▸ List.mem_map_of_mem h)
      simp [hne, ih hnodup.2 h]

theorem trialsOf_drain : trialsOf (drain p w).1 id =
    trialsOf w id ++ ((claimed p w.outbox).filter (fun r => r.id = id)).map (trialOf p) := by
  unfold trialsOf drain
  rw [loop_history, List.filter_append, List.filter_map]
  rfl

theorem trialsOf_drain_of_mem (h : row ∈ claimed p w.outbox) :
    trialsOf (drain p w).1 row.id = trialsOf w row.id ++ [trialOf p row] := by
  rw [trialsOf_drain, filter_id_of_mem (claimed_nodup p w.outbox) h]
  rfl

theorem trialsOf_drain_of_not_mem (h : id ∉ (claimed p w.outbox).map Row.id) :
    trialsOf (drain p w).1 id = trialsOf w id := by
  have hnone : (claimed p w.outbox).filter (fun r => r.id = id) = [] := by
    rw [List.filter_eq_nil_iff]
    intro r hr heq
    exact h (of_decide_eq_true heq ▸ List.mem_map_of_mem hr)
  rw [trialsOf_drain, hnone]
  simp

theorem act_cases {a : Act} (h : w.outbox.get? id = some row) :
    ((act w a).outbox.get? id = some row ∧ trialsOf (act w a) id = trialsOf w id) ∨
    (∃ p, a = .drain p ∧ row ∈ claimed p w.outbox ∧
      (act w a).outbox.get? id = some (settle p row) ∧
      trialsOf (act w a) id = trialsOf w id ++ [trialOf p row]) ∨
    (row.pending = false ∧ (act w a).outbox.get? id = none ∧
      trialsOf (act w a) id = trialsOf w id) := by
  have hid : row.id = id := (Outbox.get?_eq_some.1 h).2
  cases a with
  | drain p =>
    by_cases hc : id ∈ (claimed p w.outbox).map Row.id
    · obtain ⟨r, hr, hrid⟩ := List.mem_map.1 hc
      have hrow : r = row := by
        have := claimed_read hr
        rw [hrid, h] at this
        exact (Option.some.inj this).symm
      subst hrow
      subst hrid
      exact .inr (.inl ⟨p, rfl, hr, drain_get?_of_mem hr, trialsOf_drain_of_mem hr⟩)
    · refine .inl ⟨?_, trialsOf_drain_of_not_mem hc⟩
      rw [← h]
      exact drain_get?_of_not_mem hc
  | died p sent => exact .inl ⟨h, rfl⟩
  | emit event now =>
    refine .inl ⟨?_, rfl⟩
    have hne : w.outbox.nextId ≠ id := (Outbox.lt_nextId h).ne'
    change (w.outbox.insert event now).get? id = some row
    rw [Outbox.get?_insert, if_neg hne, h]
  | purge cutoff =>
    by_cases hkept : ∀ t, row.dispatchedAt = some t → cutoff ≤ t
    · exact .inl ⟨Outbox.get?_purge.2 ⟨h, hkept⟩, rfl⟩
    · refine .inr (.inr ⟨?_, ?_, rfl⟩)
      · cases hd : row.dispatchedAt with
        | none => exact absurd (fun t ht => by rw [hd] at ht; cases ht) hkept
        | some t => simp [Row.pending, hd]
      · change (w.outbox.purge cutoff).get? id = none
        rw [Option.eq_none_iff_forall_ne_some]
        intro r hr
        obtain ⟨hr, hk⟩ := Outbox.get?_purge.1 hr
        rw [h] at hr
        cases hr
        exact hkept hk

theorem not_claimed_of_none (h : w.outbox.get? id = none) :
    id ∉ (claimed p w.outbox).map Row.id := by
  intro hc
  obtain ⟨r, hr, rfl⟩ := List.mem_map.1 hc
  have hread := claimed_read hr
  rw [h] at hread
  cases hread

theorem trialsOf_act_of_none {a : Act} (h : w.outbox.get? id = none) :
    trialsOf (act w a) id = trialsOf w id := by
  cases a with
  | drain p => exact trialsOf_drain_of_not_mem (not_claimed_of_none h)
  | died p sent => rfl
  | emit event now => rfl
  | purge cutoff => rfl

theorem act_origin {a : Act} (h : (act w a).outbox.get? id = some row) :
    (∃ r, w.outbox.get? id = some r) ∨
    (w.outbox.nextId ≤ id ∧ row.pending = true ∧ row.attempts = 0 ∧
      trialsOf (act w a) id = trialsOf w id) := by
  cases hw : w.outbox.get? id with
  | some r => exact .inl ⟨r, rfl⟩
  | none =>
    cases a with
    | drain p =>
      change (drain p w).1.outbox.get? id = some row at h
      rw [drain_get?_of_not_mem (not_claimed_of_none hw), hw] at h
      cases h
    | died p sent =>
      change w.outbox.get? id = some row at h
      rw [hw] at h
      cases h
    | emit event now =>
      change (w.outbox.insert event now).get? id = some row at h
      rw [Outbox.get?_insert] at h
      split at h
      · next hid =>
        cases h
        exact .inr ⟨hid.le, rfl, rfl, rfl⟩
      · rw [hw] at h
        cases h
    | purge cutoff =>
      have hkept := (Outbox.get?_purge.1 h).1
      rw [hw] at hkept
      cases hkept

theorem queue_prefix (w : World) (a : Act) : w.queue <+: (act w a).queue := by
  cases a with
  | drain p =>
    change w.queue <+: (drain p w).1.queue
    unfold drain
    rw [loop_queue]
    exact List.prefix_append ..
  | died p sent => exact List.prefix_append ..
  | emit event now => exact List.prefix_refl _
  | purge cutoff => exact List.prefix_refl _

theorem nextId_le_act (w : World) (a : Act) : w.outbox.nextId ≤ (act w a).outbox.nextId := by
  cases a with
  | drain p => exact (loop_nextId (p := p) (s := (w, 0))).ge
  | died p sent => exact le_refl _
  | emit event now => exact Nat.le_succ _
  | purge cutoff => exact le_refl _

end

/-! ## Delivery -/

/-- Every message the row's event routes to has been queued for it. -/
def Delivered (w : World) (row : Row) : Prop :=
  ∃ ms, messagesOf row.event.eventType row.payload = .ok ms ∧ ∀ m ∈ ms, (row.id, m) ∈ w.queue

def Poison (t : Trial) : Prop := ∃ e, t.raised = some e ∧ transient e = false

instance (t : Trial) : Decidable (Poison t) :=
  decidable_of_iff (t.raised.any (fun e => !transient e) = true) (by
    unfold Poison
    cases t.raised <;> simp)

def poisons (ts : List Trial) : ℕ := ts.countP (fun t => Poison t)

def Transient (t : Trial) : Prop := ∃ e, t.raised = some e ∧ transient e = true

def startAttempts (o : Outbox) (id : ℕ) : ℕ := ((o.get? id).map Row.attempts).getD 0

section
variable {p : Pass} {o : Outbox} {w : World} {row : Row} {id : ℕ} {a : Act}

theorem delivered_of_trial (h : raisedBy p row = none) (hrow : row ∈ claimed p w.outbox) :
    Delivered (drain p w).1 (settle p row) := by
  have hok : (trial p row).1 = .ok () := by
    unfold raisedBy at h
    split at h
    · cases h
    · next hok => exact hok
  have hrun : dispatchAll (p.broker row.id) row.event.eventType row.payload row.event.aggregateId {}
      = (.ok (), (trial p row).2) := by
    rw [← hok]
    rfl
  obtain ⟨ms, hms, hqueue⟩ := dispatchAll_eq_ok hrun
  have hsettled : settle p row = markDispatched p.now row := by
    unfold settle
    rw [h]
  rw [hsettled]
  refine ⟨ms, hms, fun m hm => ?_⟩
  have hsent : (row.id, m) ∈ sentFor p row := by
    unfold sentFor
    rw [hqueue]
    exact List.mem_map_of_mem (List.mem_append_right _ hm)
  unfold drain
  rw [loop_queue]
  exact List.mem_append_right _ (List.mem_flatMap.2 ⟨row, hrow, hsent⟩)

theorem delivered_mono (h : Delivered w row) (hq : w.queue ⊆ (act w a).queue) :
    Delivered (act w a) row := by
  obtain ⟨ms, hms, hqueue⟩ := h
  exact ⟨ms, hms, fun m hm => hq (hqueue m hm)⟩

theorem settle_attempts : (settle p row).attempts = row.attempts + poisons [trialOf p row] := by
  unfold settle poisons
  cases h : raisedBy p row with
  | none => simp [trialOf, h, Poison, markDispatched]
  | some e => cases ht : transient e <;> simp [trialOf, h, Poison, reschedule, ht]

theorem settle_pending (h : row.pending = true) :
    (settle p row).pending = (raisedBy p row).isSome := by
  unfold settle
  cases hr : raisedBy p row with
  | none => rfl
  | some e => exact h

theorem claimed_pending (h : row ∈ claimed p w.outbox) :
    row.pending = true ∧ row.attempts < maxAttempts := by
  obtain ⟨hp, -, ha⟩ := selectable_iff.1 (mem_claimed h).2.1
  exact ⟨hp, ha⟩

/-! ## The invariant of a run -/

structure Kept (o : Outbox) (w : World) : Prop where
  nextId : o.nextId ≤ w.outbox.nextId
  known : ∀ t ∈ w.history, t.row < w.outbox.nextId
  delivered : ∀ row, w.outbox.get? row.id = some row → row.pending = false →
    (∃ r, o.get? row.id = some r ∧ r.pending = false) ∨ Delivered w row
  charged : ∀ id row, w.outbox.get? id = some row →
    row.attempts = startAttempts o id + poisons (trialsOf w id)
  bounded : ∀ id,
    startAttempts o id + poisons (trialsOf w id) ≤ max maxAttempts (startAttempts o id)

theorem kept_start (o : Outbox) : Kept o { outbox := o } where
  nextId := le_refl _
  known := by simp
  delivered := fun row h hp => .inl ⟨row, h, hp⟩
  charged := by
    intro id row h
    simp only at h
    simp [startAttempts, h, trialsOf, poisons]
  bounded := by simp [trialsOf, poisons]

theorem startAttempts_of_le (h : o.nextId ≤ id) : startAttempts o id = 0 := by
  unfold startAttempts
  cases hr : o.get? id with
  | none => rfl
  | some r => exact absurd (Outbox.lt_nextId hr) (by omega)

theorem Kept.trialsOf_of_le (hw : Kept o w) (h : w.outbox.nextId ≤ id) : trialsOf w id = [] := by
  unfold trialsOf
  rw [List.filter_eq_nil_iff]
  intro t ht heq
  have hlt := hw.known t ht
  have hid : t.row = id := of_decide_eq_true heq
  omega

theorem poisons_append (ts us : List Trial) : poisons (ts ++ us) = poisons ts + poisons us :=
  List.countP_append

theorem kept_act (hw : Kept o w) (a : Act) : Kept o (act w a) where
  nextId := hw.nextId.trans (nextId_le_act w a)
  known := by
    intro t ht
    refine Nat.lt_of_lt_of_le ?_ (nextId_le_act w a)
    cases a with
    | drain p =>
      change t ∈ (drain p w).1.history at ht
      unfold drain at ht
      rw [loop_history, List.mem_append] at ht
      rcases ht with ht | ht
      · exact hw.known t ht
      · obtain ⟨r, hr, rfl⟩ := List.mem_map.1 ht
        exact Outbox.lt_nextId (claimed_read hr)
    | died p sent => exact hw.known t ht
    | emit event now => exact hw.known t ht
    | purge cutoff => exact hw.known t ht
  delivered := by
    intro row' h hp
    rcases act_origin h with ⟨row, hrow⟩ | ⟨-, hpending, -⟩
    · rcases act_cases (a := a) hrow with ⟨hsame, -⟩ | ⟨p, rfl, hc, hset, -⟩ | ⟨-, hgone, -⟩
      · have heq : row' = row := Option.some.inj (h.symm.trans hsame)
        subst heq
        rcases hw.delivered row' hrow hp with hold | hdel
        · exact .inl hold
        · exact .inr (delivered_mono hdel ( queue_prefix w a).subset)
      · have heq : row' = settle p row := Option.some.inj (h.symm.trans hset)
        subst heq
        have hnone : raisedBy p row = none := by
          rw [settle_pending (claimed_pending hc).1] at hp
          simpa using hp
        exact .inr (delivered_of_trial hnone hc)
      · rw [hgone] at h
        cases h
    · rw [hpending] at hp
      cases hp
  charged := by
    intro id row' h
    rcases act_origin h with ⟨row, hrow⟩ | ⟨hid, -, hzero, htrials⟩
    · have hold := hw.charged id row hrow
      rcases act_cases (a := a) hrow with ⟨hsame, ht⟩ | ⟨p, rfl, hc, hset, ht⟩ | ⟨-, hgone, -⟩
      · rw [ht, Option.some.inj (h.symm.trans hsame), hold]
      · rw [ht, Option.some.inj (h.symm.trans hset), settle_attempts, hold, poisons_append,
          Nat.add_assoc]
      · rw [hgone] at h
        cases h
    · rw [htrials, hw.trialsOf_of_le hid, hzero, startAttempts_of_le (hw.nextId.trans hid)]
      rfl
  bounded := by
    intro id
    have hold := hw.bounded id
    cases hrow : w.outbox.get? id with
    | none => rwa [trialsOf_act_of_none hrow]
    | some row =>
      rcases act_cases (a := a) hrow with ⟨-, ht⟩ | ⟨p, rfl, hc, -, ht⟩ | ⟨-, -, ht⟩
      · rwa [ht]
      · have hspent := hw.charged id row hrow
        have hleft := (claimed_pending hc).2
        have hone : poisons [trialOf p row] ≤ 1 := List.countP_le_length
        rw [ht, poisons_append]
        omega
      · rwa [ht]

theorem kept_run (hw : Kept o w) (acts : List Act) : Kept o (runAll w acts) := by
  induction acts generalizing w with
  | nil => exact hw
  | cons a acts ih => exact ih (kept_act hw a)

/-! ## A row that is given up, a row that is not -/

theorem trialsOf_prefix (w : World) (a : Act) (id : ℕ) : trialsOf w id <+: trialsOf (act w a) id := by
  cases a with
  | drain p =>
    change trialsOf w id <+: trialsOf (drain p w).1 id
    rw [trialsOf_drain]
    exact List.prefix_append ..
  | died p sent => exact List.prefix_refl _
  | emit event now => exact List.prefix_refl _
  | purge cutoff => exact List.prefix_refl _

theorem trialsOf_prefix_run (w : World) (acts : List Act) (id : ℕ) :
    trialsOf w id <+: trialsOf (runAll w acts) id := by
  induction acts generalizing w with
  | nil => exact List.prefix_refl _
  | cons a acts ih => exact ( trialsOf_prefix w a id).trans (ih (act w a))

theorem exhausted_act (h : w.outbox.get? id = some row) (hp : row.pending = true)
    (hspent : maxAttempts ≤ row.attempts) (a : Act) :
    (act w a).outbox.get? id = some row ∧ trialsOf (act w a) id = trialsOf w id := by
  rcases act_cases (a := a) h with hsame | ⟨p, -, hc, -⟩ | ⟨hnot, -⟩
  · exact hsame
  · have hleft := (claimed_pending hc).2
    omega
  · rw [hp] at hnot
    cases hnot

theorem exhausted_run (h : w.outbox.get? id = some row) (hp : row.pending = true)
    (hspent : maxAttempts ≤ row.attempts) (acts : List Act) :
    (runAll w acts).outbox.get? id = some row ∧
      trialsOf (runAll w acts) id = trialsOf w id := by
  induction acts generalizing w with
  | nil => exact ⟨h, rfl⟩
  | cons a acts ih =>
    obtain ⟨hsame, ht⟩ := exhausted_act h hp hspent a
    obtain ⟨hrun, htrials⟩ := ih hsame
    exact ⟨hrun, htrials.trans ht⟩

def dueAfter (attempts : ℕ) (due : Time) (ts : List Trial) : Time :=
  ts.foldl (fun _ t => t.moment + backoff attempts) due

theorem transient_run {acts : List Act} {ts : List Trial} (h : w.outbox.get? id = some row)
    (hp : row.pending = true) (hts : trialsOf (runAll w acts) id = trialsOf w id ++ ts)
    (hall : ∀ t ∈ ts, Transient t) :
    ∃ row', (runAll w acts).outbox.get? id = some row' ∧ row'.pending = true ∧
      row'.attempts = row.attempts ∧
      row'.availableAt = dueAfter row.attempts row.availableAt ts := by
  induction acts generalizing w row ts with
  | nil =>
    have hnil : ts = [] := by simpa [runAll] using hts
    subst hnil
    exact ⟨row, h, hp, rfl, rfl⟩
  | cons a acts ih =>
    rcases act_cases (a := a) h with ⟨hsame, ht⟩ | ⟨p, rfl, hc, hset, ht⟩ | ⟨hnot, -⟩
    · exact ih hsame hp (by rw [ht]; exact hts) hall
    · obtain ⟨us, hus⟩ := trialsOf_prefix_run (act w (.drain p)) acts id
      have hsplit : ts = trialOf p row :: us := by
        have hboth : trialsOf w id ++ ts = trialsOf w id ++ (trialOf p row :: us) :=
          calc trialsOf w id ++ ts = trialsOf (act w (.drain p)) id ++ us := hts.symm.trans hus.symm
            _ = trialsOf w id ++ (trialOf p row :: us) := by rw [ht, List.append_assoc]; rfl
        exact List.append_cancel_left hboth
      subst hsplit
      obtain ⟨e, he, htransient⟩ := hall _ List.mem_cons_self
      have he : raisedBy p row = some e := he
      have hresched : settle p row = reschedule row e p.now row := by
        unfold settle
        rw [he]
      rw [hresched] at hset
      obtain ⟨row', hrow', hp', hattempts, hdue⟩ := ih hset hp hus.symm
        (fun t ht => hall t (List.mem_cons_of_mem _ ht))
      have hsame : (reschedule row e p.now row).attempts = row.attempts := by
        simp [reschedule, htransient]
      rw [hsame] at hattempts hdue
      exact ⟨row', hrow', hp', hattempts, hdue⟩
    · rw [hp] at hnot
      cases hnot

theorem claimed_of_selectable (hrow : w.outbox.get? id = some row)
    (hs : selectable p.now row = true) (hfree : p.locked id = false)
    (hroom : (w.outbox.rows.select (selectable p.now)).length ≤ p.batch) :
    row ∈ claimed p w.outbox := by
  obtain ⟨hmem, rfl⟩ := Outbox.get?_eq_some.1 hrow
  unfold claimed
  rw [List.take_of_length_le]
  · rw [List.mem_insertionSort, List.mem_filter, Table.select, List.mem_filter]
    exact ⟨⟨hmem, hs⟩, by simp [hfree]⟩
  · rw [List.length_insertionSort]
    exact (List.length_filter_le ..).trans hroom

end

/-! ## The relay's promise -/

/-- What the relay promises of an outbox `o`, of a world `w` it comes to, and of a later one. -/
structure Promise (o : Outbox) (w later : World) : Prop where
  /-- A row the run marked has every message its event routes to on the queue. -/
  delivered : ∀ id row, w.outbox.get? id = some row → row.pending = false →
    (∃ r, o.get? id = some r ∧ r.pending = false) ∨ Delivered w row
  /-- Attempts count the failures that were not the broker's, and nothing else. -/
  charged : ∀ id row, w.outbox.get? id = some row →
    row.attempts = startAttempts o id + poisons (trialsOf w id)
  bounded : ∀ id,
    startAttempts o id + poisons (trialsOf w id) ≤ max maxAttempts (startAttempts o id)
  /-- A row whose budget is spent is kept as it is, pending, and tried no more. -/
  givenUp : ∀ id row, w.outbox.get? id = some row → row.pending = true →
    maxAttempts ≤ row.attempts →
    later.outbox.get? id = some row ∧ trialsOf later id = trialsOf w id
  /-- A row that has since failed only at the broker can be selected from the moment it is due,
  and a pass with room for what is due takes it. -/
  selectable : ∀ id row ts, w.outbox.get? id = some row → row.pending = true →
    row.attempts < maxAttempts → trialsOf later id = trialsOf w id ++ ts →
    (∀ t ∈ ts, Transient t) →
    ∃ row', later.outbox.get? id = some row' ∧ row'.attempts = row.attempts ∧
      row'.availableAt = dueAfter row.attempts row.availableAt ts ∧
      (∀ now, row'.availableAt ≤ now → WorkersRelay.selectable now row' = true) ∧
      ∀ p, row'.availableAt ≤ p.now → p.locked id = false →
        (later.outbox.rows.select (WorkersRelay.selectable p.now)).length ≤ p.batch →
        row' ∈ claimed p later.outbox
  /-- What a pass leaves of a row depends on the row's own dispatch. -/
  apart : ∀ p q row, row ∈ claimed p w.outbox → row ∈ claimed q w.outbox → p.now = q.now →
    p.broker row.id = q.broker row.id →
    (drain p w).1.outbox.get? row.id = (drain q w).1.outbox.get? row.id
  marked : ∀ p row, row ∈ claimed p w.outbox → (trial p row).1 = .ok () →
    (drain p w).1.outbox.get? row.id = some (markDispatched p.now row)
  untouched : ∀ p row, w.outbox.get? row.id = some row → row ∉ claimed p w.outbox →
    (drain p w).1.outbox.get? row.id = some row

/-- Whatever the outbox holds and whatever the relays, the broker and the other writers do. -/
theorem at_least_once (o : Outbox) (acts more : List Act) :
    Promise o (runAll { outbox := o } acts) (runAll (runAll { outbox := o } acts) more) := by
  have hkept := kept_run (kept_start o) acts
  generalize runAll { outbox := o } acts = w at hkept ⊢
  constructor
  case delivered =>
    intro id row h hp
    have hid : row.id = id := (Outbox.get?_eq_some.1 h).2
    subst hid
    exact hkept.delivered row h hp
  case charged => exact hkept.charged
  case bounded => exact hkept.bounded
  case givenUp =>
    intro id row h hp hspent
    exact exhausted_run h hp hspent more
  case selectable =>
    intro id row ts h hp hleft hts hall
    obtain ⟨row', h', hp', hattempts, hdue⟩ := transient_run h hp hts hall
    have hsel : ∀ now, row'.availableAt ≤ now → WorkersRelay.selectable now row' = true :=
      fun now hnow => selectable_iff.2 ⟨hp', hnow, hattempts ▸ hleft⟩
    exact ⟨row', h', hattempts, hdue, hsel,
      fun p hnow hfree hroom => claimed_of_selectable h' (hsel p.now hnow) hfree hroom⟩
  case apart =>
    intro p q row hp hq hnow hbroker
    have hsame : trial p row = trial q row := by
      unfold trial
      rw [hbroker]
    rw [drain_get?_of_mem hp, drain_get?_of_mem hq]
    unfold settle raisedBy
    rw [hsame, hnow]
  case marked =>
    intro p row hp hok
    rw [drain_get?_of_mem hp]
    unfold settle raisedBy
    rw [hok]
  case untouched =>
    intro p row h hnot
    rw [drain_get?_of_not_mem, h]
    intro hmem
    obtain ⟨r, hr, hid⟩ := List.mem_map.1 hmem
    have hread := claimed_read hr
    rw [hid, h] at hread
    exact hnot (Option.some.inj hread ▸ hr)

end IeltsHub.AtLeastOnce
