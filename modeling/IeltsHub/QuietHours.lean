import IeltsHub.NotificationQueue

set_option autoImplicit false

/-!
# Quiet hours and attempts

The quiet hours are looked at once, when a message is queued; what a pass finds due it hands over
at any hour. Along every run a row is handed over as often as it has attempts, up to three times,
once with success, and holds no secret when it has been sent or has failed.
-/
namespace IeltsHub.QuietHours
open PyValue PyDict PyTime RowTable GuardedRuns NotificationQueue

variable {zones : Zones} {db t : Db} {z : Zone} {now : Time} {r : Notification}
  {rows : List Notification} {send : Recipient → Notification → Outcome}
  {acc : Db × Delivered} {users : Users} {es : List Event}

theorem insert_fst (db : Db) (n : Notification) :
    (db.insert n).1 = db ∨ (db.insert n).1 =
      { db with rows := db.rows.put { n with id := db.rows.nextId } } ∧
      (n.dedupeKey ≠ none → ∀ r ∈ db.rows.rows, r.dedupeKey ≠ n.dedupeKey) := by
  unfold Db.insert
  split
  · exact .inl rfl
  · next h =>
    refine .inr ⟨rfl, fun hkey r hr heq => h ?_⟩
    rw [Bool.and_eq_true, Option.isSome_iff_ne_none, List.any_eq_true]
    exact ⟨hkey, r, hr, decide_eq_true heq⟩

theorem insert_frame (db : Db) (n : Notification) : (db.insert n).1.users = db.users ∧
    (db.insert n).1.handed = db.handed ∧ (db.insert n).1.scheduled = db.scheduled := by
  rcases insert_fst db n with h | ⟨h, -⟩ <;> rw [h] <;> exact ⟨rfl, rfl, rfl⟩

/-! ## What a pass hands over -/

def handing (users : Users) (now : Time) (send : Recipient → Notification → Outcome)
    (r : Notification) : Option Handing :=
  (recipient users r.userId).map (fun whom => ⟨r.id, whom, r.template, now, send whom r⟩)

theorem deliverRow_frame (acc : Db × Delivered) (r : Notification) :
    (deliverRow now send acc r).1.users = acc.1.users ∧
    (deliverRow now send acc r).1.scheduled = acc.1.scheduled ∧
    (deliverRow now send acc r).1.handed =
      acc.1.handed ++ (handing acc.1.users now send r).toList := by
  unfold deliverRow handing
  split
  · next h => simp [h]
  · next h => simp [h]

theorem fold_frame (rows : List Notification) (acc : Db × Delivered) :
    (rows.foldl (deliverRow now send) acc).1.users = acc.1.users ∧
    (rows.foldl (deliverRow now send) acc).1.scheduled = acc.1.scheduled ∧
    (rows.foldl (deliverRow now send) acc).1.handed =
      acc.1.handed ++ rows.filterMap (handing acc.1.users now send) := by
  induction rows generalizing acc with
  | nil => exact ⟨rfl, rfl, (List.append_nil _).symm⟩
  | cons r rows ih =>
    obtain ⟨husers, hscheduled, hhanded⟩ := @deliverRow_frame now send acc r
    obtain ⟨husers', hscheduled', hhanded'⟩ := ih (deliverRow now send acc r)
    rw [List.foldl_cons]
    refine ⟨husers'.trans husers, hscheduled'.trans hscheduled, ?_⟩
    rw [hhanded', hhanded, husers, List.append_assoc, List.filterMap_cons]
    cases handing acc.1.users now send r <;> rfl

/-! ## Quiet hours -/

/-- Nothing that can wait is handed over in the quiet hours of its recipient, and the first moment
it is due lies between its queueing and the end of that night. -/
structure Quiet (zones : Zones) (db : Db) : Prop where
  handed : ∀ h ∈ db.handed, h.template ∉ URGENT → waking (zones.of h.recipient) h.moment = true
  scheduled : ∀ s ∈ db.scheduled, s.template ∉ URGENT →
    s.now ≤ s.due ∧ ∀ u, s.now ≤ u → u < s.due → waking (zones.of s.recipient) u = false

/-- The clock comes to 08:00 of the morning that is meant, at the reading that the fold means, and
is in the quiet hours until then. -/
def Morning (z : Zone) (now : Time) : Prop :=
  ∃ t, now ≤ t ∧ z.wall t = (z.target now).1 ∧
    (∀ u, z.wall u = z.wall t → if (z.target now).2 then u ≤ t else t ≤ u) ∧
    ∀ u, now ≤ u → u < t → waking z u = false

/-- No row that can wait is come upon in the quiet hours of its recipient. -/
def Daytime (zones : Zones) (db : Db) (now : Time) (rows : List Notification) : Prop :=
  ∀ r ∈ rows, ∀ whom, recipient db.users r.userId = some whom → r.template ∉ URGENT →
    waking (zones.of whom) now = true

def Meets (zones : Zones) (db : Db) : Event → Prop
  | .queue m _ now => ∀ whom, recipient db.users m.userId = some whom → m.template ∉ URGENT →
    waking (zones.of whom) now = false → Morning (zones.of whom) now
  | .deliver now _ _ rows _ => Daytime zones db now rows
  | _ => True

theorem instant_of_morning {m : Time} (hwall : z.wall m = (z.target now).1)
    (hread : ∀ u, z.wall u = z.wall m → if (z.target now).2 then u ≤ m else m ≤ u) :
    z.instant (z.target now).1 (z.target now).2 = m := by
  rw [← hwall]
  cases hfold : (z.target now).2 with
  | false =>
    simp only [hfold, Bool.false_eq_true, if_false] at hread
    exact z.earlier m hread
  | true =>
    simp only [hfold, if_true] at hread
    exact z.later m hread

theorem schedule_bounds {whom : Recipient} {template : String} (hurgent : template ∉ URGENT)
    (h : waking (zones.of whom) now = false → Morning (zones.of whom) now) :
    now ≤ schedule zones whom template now ∧
      ∀ u, now ≤ u → u < schedule zones whom template now → waking (zones.of whom) u = false := by
  unfold schedule
  rw [if_neg hurgent]
  dsimp only
  split
  · exact ⟨le_rfl, fun u hu hlt => absurd hu (not_le.2 hlt)⟩
  · next hquiet =>
    obtain ⟨m, hm, hwall, hread, hnight⟩ := h (Bool.not_eq_true _ ▸ hquiet)
    rw [instant_of_morning hwall hread]
    exact ⟨hm, hnight⟩

theorem quiet_of_same (h : Quiet zones db) (hhanded : t.handed = db.handed)
    (hscheduled : t.scheduled = db.scheduled) : Quiet zones t :=
  ⟨hhanded ▸ h.handed, hscheduled ▸ h.scheduled⟩

theorem quiet_queue {m : Message} {channel : Option Channel} (h : Quiet zones db)
    (hm : Meets zones db (.queue m channel now)) :
    Quiet zones (queue zones db m channel now).1 := by
  unfold queue
  cases hto : recipient db.users m.userId with
  | none => exact h
  | some whom =>
    dsimp only
    obtain ⟨-, hhanded, hscheduled⟩ := insert_frame
      { db with
        scheduled :=
          db.scheduled ++ [⟨whom, m.template, now, schedule zones whom m.template now⟩] }
      { userId := m.userId, channel := channel.getD (channelOf whom m.template)
        template := m.template, params := m.params, locale := whom.locale
        dedupeKey := m.dedupeKey, scheduledAt := schedule zones whom m.template now }
    refine ⟨by rw [hhanded]; exact h.handed, ?_⟩
    rw [hscheduled]
    intro s hs hurgent
    rcases List.mem_append.1 hs with hs | hs
    · exact h.scheduled s hs hurgent
    · rw [List.mem_singleton.1 hs] at hurgent ⊢
      exact schedule_bounds hurgent (hm whom hto hurgent)

theorem quiet_deliver (h : Quiet zones db) :
    Quiet zones (deliver now send db rows).1 ↔ Daytime zones db now rows := by
  obtain ⟨-, hscheduled, hhanded⟩ := @fold_frame now send rows (db, {})
  constructor
  · intro hquiet r hr whom hto hurgent
    refine hquiet.handed ⟨r.id, whom, r.template, now, send whom r⟩ ?_ hurgent
    unfold deliver
    rw [hhanded]
    exact List.mem_append_right _ (List.mem_filterMap.2 ⟨r, hr, by simp [handing, hto]⟩)
  · intro hday
    refine ⟨?_, ?_⟩
    · unfold deliver
      rw [hhanded]
      intro x hx hurgent
      rcases List.mem_append.1 hx with hx | hx
      · exact h.handed x hx hurgent
      · obtain ⟨r, hr, hx⟩ := List.mem_filterMap.1 hx
        obtain ⟨whom, hto, rfl⟩ := Option.map_eq_some_iff.1 hx
        exact hday r hr whom hto hurgent
    · unfold deliver
      rw [hscheduled]
      exact h.scheduled

theorem quiet_step {e : Event} (h : Quiet zones db) (hm : Meets zones db e)
    (hstep : Step zones db e t) : Quiet zones t := by
  cases e with
  | queue m channel now =>
    rw [show t = _ from hstep]
    exact quiet_queue h hm
  | notice m now =>
    obtain ⟨-, hhanded, hscheduled⟩ := insert_frame db
      { userId := m.userId, channel := .inApp, template := m.template, params := m.params
        dedupeKey := m.dedupeKey, scheduledAt := now }
    rw [show t = _ from hstep]
    exact quiet_of_same h hhanded hscheduled
  | account u =>
    rw [show t = _ from hstep]
    exact quiet_of_same h rfl rfl
  | deliver now limit locked rows send =>
    rw [hstep.2]
    exact (quiet_deliver h).2 hm

theorem quiet_start (zones : Zones) (users : Users) : Quiet zones (start users) where
  handed _ hx := by cases hx
  scheduled _ hs := by cases hs

def tashkent : Zone where
  utcoffset _ := hours 5
  fold _ := false
  instant wall _ := wall - hours 5
  earlier t _ := add_sub_cancel_right t (hours 5)
  later t _ := add_sub_cancel_right t (hours 5)

def sampleZones : Zones where
  named name := if name = "Asia/Tashkent" then some tashkent else none
  tashkent := tashkent

def students : Users := { rows := [{ id := 1 }], nodup := by decide }

def scored : Message := { userId := 1, template := "attempt.scored", params := Dict.empty }

def clock (h m : ℤ) : Time := seconds (3600 * h + 60 * m) - hours 5

def queuedAt (now : Time) : Db := (queue sampleZones (start students) scored none now).1

def sampleRun (now later : Time) : List Event :=
  [.queue scored none now,
    .deliver later 1 [] (queuedAt now).rows.rows (fun _ _ => .sent)]

def sampleEnd (now later : Time) : Db :=
  (deliver later (fun _ _ => .sent) (queuedAt now) (queuedAt now).rows.rows).1

@[simp] theorem settle_id (r : Notification) (o : Outcome) : (r.settle now o).id = r.id := by
  rcases o with _ | ⟨_ | _, _, _⟩ <;> rfl

@[simp] theorem settle_dedupeKey (r : Notification) (o : Outcome) :
    (r.settle now o).dedupeKey = r.dedupeKey := by
  rcases o with _ | ⟨_ | _, _, _⟩ <;> rfl

@[simp] theorem settle_attempts (r : Notification) (o : Outcome) :
    (r.settle now o).attempts = r.attempts + 1 := by
  rcases o with _ | ⟨_ | _, _, _⟩ <;> rfl

theorem settle_sent (r : Notification) (o : Outcome) :
    (r.settle now o).status = .sent ↔ o = .sent := by
  rcases o with _ | ⟨_ | _, _, _⟩
  · exact iff_of_true rfl rfl
  · unfold Notification.settle
    dsimp only
    split <;> simp
  · exact iff_of_false Status.noConfusion Outcome.noConfusion

def Transient (o : Outcome) : Prop := ∃ kind text, o = .raised false kind text

theorem settle_queued {o : Outcome} (h : (r.settle now o).status = .queued) :
    r.attempts + 1 < MAX_ATTEMPTS ∧ Transient o ∧
      (r.settle now o).scheduledAt = now + seconds (300 * (r.attempts + 1)) := by
  rcases o with _ | ⟨_ | _, kind, text⟩
  · cases h
  · refine ⟨?_, ⟨kind, text, rfl⟩, rfl⟩
    unfold Notification.settle at h
    dsimp only at h
    split at h
    · cases h
    · next hmore => exact not_le.1 hmore
  · cases h

theorem get?_strip (params : Obj) {k : String} (hk : k ∈ SECRET_PARAMS) :
    (strip params).get? k = none := by
  rw [List.mem_singleton.1 hk]
  simp [strip, SECRET_PARAMS, Dict.get?_erase]

theorem settle_secret {o : Outcome} (h : (r.settle now o).status ≠ .queued) {k : String}
    (hk : k ∈ SECRET_PARAMS) : (r.settle now o).params.get? k = none := by
  rcases o with _ | ⟨_ | _, _, _⟩
  · exact get?_strip _ hk
  · unfold Notification.settle at h ⊢
    dsimp only at h ⊢
    split at h
    · next hover =>
      rw [if_pos hover]
      exact get?_strip _ hk
    · exact absurd rfl h
  · exact get?_strip _ hk

/-- A row has an attempt for each time it was handed over, three at most and one success; while it
waits every one of them was to be tried again, and sent or failed it holds no secret. -/
structure Accounted (handed : List Handing) (r : Notification) : Prop where
  tried : handed.countP (fun h => h.id = r.id) = r.attempts
  few : r.attempts ≤ MAX_ATTEMPTS
  waits : r.status = .queued → r.attempts < MAX_ATTEMPTS
  again : r.status = .queued → ∀ h ∈ handed, h.id = r.id → Transient h.outcome
  once : handed.countP (fun h => h.id = r.id ∧ h.outcome = .sent) =
    if r.status = .sent then 1 else 0
  secret : r.status = .sent ∨ r.status = .failed → ∀ k ∈ SECRET_PARAMS, r.params.get? k = none

/-- Every row is accounted for and handed over again only after a failure that is tried again, and
no two rows have one key. -/
structure Kept (db : Db) : Prop where
  accounted : ∀ r ∈ db.rows.rows, Accounted db.handed r
  known : ∀ h ∈ db.handed, ∃ r ∈ db.rows.rows, r.id = h.id
  last : db.handed.Pairwise (fun h h' => h.id = h'.id → Transient h.outcome)
  single : ∀ r ∈ db.rows.rows, ∀ r' ∈ db.rows.rows, r.dedupeKey ≠ none →
    r.dedupeKey = r'.dedupeKey → r = r'

def Over (db t : Db) : Prop := ∀ r ∈ db.rows.rows, r.status ≠ .queued → r ∈ t.rows.rows

theorem accounted_other {handed : List Handing} {x : Handing} (h : Accounted handed r)
    (hx : x.id ≠ r.id) : Accounted (handed ++ [x]) r where
  tried := by simp [List.countP_append, hx, h.tried]
  few := h.few
  waits := h.waits
  again hq y hy hid := by
    rcases List.mem_append.1 hy with hy | hy
    · exact h.again hq y hy hid
    · exact absurd (List.mem_singleton.1 hy ▸ hid) hx
  once := by
    have honce := h.once
    simp only [List.countP_append, List.countP_singleton, hx, false_and, decide_false,
      Bool.false_eq_true, if_false, Nat.add_zero]
    exact honce
  secret := h.secret

theorem accounted_settle {handed : List Handing} {x : Handing} (h : Accounted handed r)
    (hq : r.status = .queued) (hx : x.id = r.id) :
    Accounted (handed ++ [x]) (r.settle now x.outcome) where
  tried := by simp [List.countP_append, hx, h.tried]
  few := by
    have := h.waits hq
    simp only [settle_attempts]
    omega
  waits hs := by
    rw [settle_attempts]
    exact (settle_queued hs).1
  again hs y hy hid := by
    rw [settle_id] at hid
    rcases List.mem_append.1 hy with hy | hy
    · exact h.again hq y hy hid
    · rw [List.mem_singleton.1 hy]
      exact (settle_queued hs).2.1
  once := by
    have honce := h.once
    rw [hq, if_neg Status.noConfusion] at honce
    simp only [List.countP_append, settle_id, honce, Nat.zero_add, List.countP_singleton, hx,
      true_and, settle_sent, decide_eq_true_eq]
  secret hs _ hk := by
    refine settle_secret ?_ hk
    rcases hs with hs | hs <;> rw [hs] <;> exact Status.noConfusion

theorem kept_put {x : Notification} {handed : List Handing} (h : Kept db) (hr : r ∈ db.rows.rows)
    (hid : x.id = r.id) (hkey : x.dedupeKey = r.dedupeKey) (hx : Accounted handed x)
    (hothers : ∀ y ∈ db.rows.rows, y.id ≠ r.id → Accounted handed y)
    (hhanded : ∀ y ∈ handed, y ∈ db.handed ∨ y.id = r.id)
    (hlast : handed.Pairwise (fun h h' => h.id = h'.id → Transient h.outcome)) :
    Kept { db with rows := db.rows.put x, handed } where
  last := hlast
  accounted y hy := by
    rcases Table.mem_put.1 hy with rfl | ⟨hy, hne⟩
    · exact hx
    · exact hothers y hy (hid ▸ hne)
  known y hy := by
    rcases hhanded y hy with hold | hnew
    · obtain ⟨s, hs, hsame⟩ := h.known y hold
      by_cases hrow : s.id = x.id
      · exact ⟨x, Table.mem_put.2 (.inl rfl), hrow.symm.trans hsame⟩
      · exact ⟨s, Table.mem_put.2 (.inr ⟨hs, hrow⟩), hsame⟩
    · exact ⟨x, Table.mem_put.2 (.inl rfl), hid.trans hnew.symm⟩
  single y hy y' hy' hsome hsame := by
    rcases Table.mem_put.1 hy with rfl | ⟨hold, hne⟩ <;>
      rcases Table.mem_put.1 hy' with rfl | ⟨hold', hne'⟩
    · rfl
    · rw [hkey] at hsome hsame
      exact absurd (h.single r hr y' hold' hsome hsame ▸ hid.symm) hne'
    · rw [hkey] at hsame
      exact absurd (h.single y hold r hr hsome hsame ▸ hid.symm) hne
    · exact h.single y hold y' hold' hsome hsame

theorem over_put {x : Notification} {handed : List Handing} (hr : r ∈ db.rows.rows)
    (hq : r.status = .queued) (hid : x.id = r.id) :
    Over db { db with rows := db.rows.put x, handed } := by
  intro y hy hdone
  refine Table.mem_put.2 (.inr ⟨hy, fun hsame => hdone ?_⟩)
  have hrow := Table.get?_eq_some.2 ⟨hy, hsame.trans hid⟩
  rw [Table.get?_eq_some.2 ⟨hr, rfl⟩] at hrow
  rw [← Option.some.inj hrow]
  exact hq

theorem deliverRow_kept (h : Kept acc.1) (hr : r ∈ acc.1.rows.rows) (hq : r.status = .queued) :
    Kept (deliverRow now send acc r).1 ∧ Over acc.1 (deliverRow now send acc r).1 ∧
      ∀ y ∈ acc.1.rows.rows, y.id ≠ r.id → y ∈ (deliverRow now send acc r).1.rows.rows := by
  unfold deliverRow
  split
  · have hold := h.accounted r hr
    refine ⟨kept_put h hr rfl rfl ⟨hold.tried, hold.few, fun hs => ?_, fun hs => ?_, ?_,
      fun hs => ?_⟩ (fun y hy _ => h.accounted y hy) (fun y hy => .inl hy) h.last,
      over_put hr hq rfl, fun y hy hne => Table.mem_put.2 (.inr ⟨hy, hne⟩)⟩
    · cases hs
    · cases hs
    · rw [hold.once, hq]
      rfl
    · rcases hs with hs | hs <;> cases hs
  · next whom _ =>
    refine ⟨kept_put h hr (settle_id r _) (settle_dedupeKey r _)
      (accounted_settle (x := ⟨r.id, whom, r.template, now, send whom r⟩) (h.accounted r hr) hq rfl)
      (fun y hy hne => accounted_other (h.accounted y hy) hne.symm) (fun y hy => ?_) ?_,
      over_put hr hq (settle_id r _),
      fun y hy hne => Table.mem_put.2 (.inr ⟨hy, by rwa [settle_id]⟩)⟩
    · rcases List.mem_append.1 hy with hy | hy
      · exact .inl hy
      · rw [List.mem_singleton.1 hy]
        exact .inr rfl
    · refine List.pairwise_append.2 ⟨h.last, List.pairwise_singleton _ _, ?_⟩
      intro y hy y' hy' hid
      rw [List.mem_singleton.1 hy'] at hid
      exact (h.accounted r hr).again hq y hy hid

theorem fold_kept (h : Kept acc.1) (hrows : ∀ r ∈ rows, r ∈ acc.1.rows.rows ∧ r.status = .queued)
    (hn : (rows.map Notification.id).Nodup) :
    Kept (rows.foldl (deliverRow now send) acc).1 ∧
      Over acc.1 (rows.foldl (deliverRow now send) acc).1 := by
  induction rows generalizing acc with
  | nil => exact ⟨h, fun r hr _ => hr⟩
  | cons r rows ih =>
    obtain ⟨hr, hq⟩ := hrows r List.mem_cons_self
    rw [List.map_cons, List.nodup_cons] at hn
    obtain ⟨hkept, hover, hothers⟩ := @deliverRow_kept now r send acc h hr hq
    obtain ⟨hfold, hlater⟩ := ih hkept (fun y hy => by
      obtain ⟨hy', hwaits⟩ := hrows y (List.mem_cons_of_mem r hy)
      exact ⟨hothers y hy' (fun heq => hn.1 (heq ▸ List.mem_map_of_mem hy)), hwaits⟩) hn.2
    exact ⟨hfold, fun y hy hdone => hlater y (hover y hy hdone) hdone⟩

theorem selects_queued {limit : ℕ} {locked : List ℕ} (h : Selects db now limit locked rows) :
    (∀ r ∈ rows, r ∈ db.rows.rows ∧ r.status = .queued) ∧ (rows.map Notification.id).Nodup := by
  obtain ⟨ordered, hperm, -, rfl⟩ := h
  constructor
  · intro r hr
    obtain ⟨hrow, hdue⟩ := List.mem_filter.1 (hperm.mem_iff.1 (List.mem_of_mem_take hr))
    exact ⟨hrow, (of_decide_eq_true hdue).1⟩
  · have hids : (ordered.map Notification.id).Nodup :=
      (hperm.map Notification.id).nodup_iff.2
        ((List.filter_sublist.map Notification.id).nodup db.rows.nodup)
    exact ((List.take_sublist limit ordered).map Notification.id).nodup hids

theorem kept_insert {n : Notification} (h : Kept db) (hq : n.status = .queued)
    (hn : n.attempts = 0) : Kept (db.insert n).1 ∧ Over db (db.insert n).1 := by
  rcases insert_fst db n with hsame | ⟨hput, hkeys⟩
  · rw [hsame]
    exact ⟨h, fun r hr _ => hr⟩
  rw [hput]
  have hfree : ∀ r ∈ db.rows.rows, r.id ≠ db.rows.nextId :=
    Table.get?_eq_none.1 (Table.get?_nextId db.rows)
  have hnone : ∀ p : Handing → Bool,
      db.handed.countP (fun x => decide (x.id = db.rows.nextId) && p x) = 0 := by
    intro p
    refine List.countP_eq_zero.2 (fun x hx => ?_)
    obtain ⟨r, hr, hid⟩ := h.known x hx
    simp [← hid, hfree r hr]
  refine ⟨⟨fun r hr => ?_, fun x hx => ?_, h.last, fun r hr r' hr' hsome hsame => ?_⟩,
    fun r hr _ => Table.mem_put.2 (.inr ⟨hr, hfree r hr⟩)⟩
  · rcases Table.mem_put.1 hr with rfl | ⟨hr, -⟩
    · refine ⟨?_, by simp [hn], fun _ => by simp [hn, MAX_ATTEMPTS], fun _ x hx hid => ?_, ?_,
        fun hs => ?_⟩
      · rw [hn]
        simpa using hnone (fun _ => true)
      · obtain ⟨r, hr, hsame⟩ := h.known x hx
        exact absurd (hsame.trans hid) (hfree r hr)
      · rw [if_neg (by simp [hq])]
        simpa using hnone (fun x => x.outcome = .sent)
      · rcases hs with hs | hs <;> cases hq.symm.trans hs
    · exact h.accounted r hr
  · obtain ⟨r, hr, hid⟩ := h.known x hx
    exact ⟨r, Table.mem_put.2 (.inr ⟨hr, hfree r hr⟩), hid⟩
  · rcases Table.mem_put.1 hr with rfl | ⟨hr, hne⟩ <;>
      rcases Table.mem_put.1 hr' with rfl | ⟨hr', hne'⟩
    · rfl
    · exact absurd hsame.symm (hkeys hsome r' hr')
    · exact absurd hsame (hkeys (hsame ▸ hsome) r hr)
    · exact h.single r hr r' hr' hsome hsame

theorem kept_step {e : Event} (h : Kept db) (hstep : Step zones db e t) : Kept t ∧ Over db t := by
  cases e with
  | queue m channel now =>
    rw [show t = _ from hstep]
    unfold queue
    split
    · exact ⟨h, fun r hr _ => hr⟩
    · exact @kept_insert { db with scheduled := _ } _ ⟨h.accounted, h.known, h.last, h.single⟩
        rfl rfl
  | notice m now =>
    rw [show t = _ from hstep]
    exact kept_insert h rfl rfl
  | account u =>
    rw [show t = _ from hstep]
    exact ⟨⟨h.accounted, h.known, h.last, h.single⟩, fun r hr _ => hr⟩
  | deliver now limit locked rows send =>
    obtain ⟨hrows, hn⟩ := selects_queued hstep.1
    rw [hstep.2]
    exact @fold_kept now rows send (db, {}) h hrows hn

theorem kept_start (users : Users) : Kept (start users) where
  accounted _ hr := by cases hr
  known _ hx := by cases hx
  last := .nil
  single _ hr := by cases hr

theorem kept_runs {fs : List Event} (h : Kept db) (hruns : Any (Step zones) db fs t) :
    Kept t ∧ Over db t := by
  refine ⟨@Runs.invariant _ _ _ _ Kept (fun _ _ _ hs _ hstep => (kept_step hs hstep).1) _ _ _
    hruns h, ?_⟩
  exact hruns.related (I := Kept) (fun s r hr _ => hr)
    (fun s t u hst htu r hr hdone => htu r (hst r hr hdone) hdone)
    (fun _ _ _ hs _ hstep => kept_step hs hstep) h

def settled (users : Users) (now : Time) (send : Recipient → Notification → Outcome)
    (r : Notification) : Notification :=
  match recipient users r.userId with
  | none => { r with status := .suppressed }
  | some whom => r.settle now (send whom r)

@[simp] theorem settled_id : (settled users now send r).id = r.id := by
  unfold settled
  split
  · rfl
  · exact settle_id r _

theorem deliverRow_rows (acc : Db × Delivered) (r : Notification) :
    (deliverRow now send acc r).1.rows = acc.1.rows.put (settled acc.1.users now send r) := by
  unfold deliverRow settled
  cases recipient acc.1.users r.userId <;> rfl

theorem mem_fold (hn : (rows.map Notification.id).Nodup) {y : Notification} :
    y ∈ (rows.foldl (deliverRow now send) acc).1.rows.rows ↔
      (y ∈ acc.1.rows.rows ∧ ∀ r ∈ rows, r.id ≠ y.id) ∨
        ∃ r ∈ rows, y = settled acc.1.users now send r := by
  induction rows generalizing acc with
  | nil => simp
  | cons x rows ih =>
    rw [List.map_cons, List.nodup_cons] at hn
    obtain ⟨husers, -, -⟩ := @deliverRow_frame now send acc x
    rw [List.foldl_cons, ih hn.2, husers, deliverRow_rows, Table.mem_put, settled_id]
    simp only [List.forall_mem_cons, List.exists_mem_cons_iff]
    constructor
    · rintro (⟨rfl | ⟨hy, hne⟩, hrows⟩ | hsettled)
      · exact .inr (.inl rfl)
      · exact .inl ⟨hy, fun heq => hne heq.symm, hrows⟩
      · exact .inr (.inr hsettled)
    · rintro (⟨hy, hne, hrows⟩ | rfl | hsettled)
      · exact .inl ⟨.inr ⟨hy, fun heq => hne heq.symm⟩, hrows⟩
      · refine .inl ⟨.inl rfl, fun r hr heq => hn.1 ?_⟩
        rw [settled_id] at heq
        exact heq ▸ List.mem_map_of_mem hr
      · exact .inr hsettled

def Scrubbed (db : Db) : Prop :=
  ∀ r ∈ db.rows.rows, r.status ≠ .queued → ∀ k ∈ SECRET_PARAMS, r.params.get? k = none

/-- No row with a secret is come upon whose account is suspended or closed. -/
def Addressed (db : Db) (rows : List Notification) : Prop :=
  ∀ r ∈ rows, recipient db.users r.userId = none → ∀ k ∈ SECRET_PARAMS, r.params.get? k = none

def Clear (db : Db) : Event → Prop
  | .deliver _ _ _ rows _ => Addressed db rows
  | _ => True

theorem scrubbed_deliver (h : Scrubbed db) (hn : (rows.map Notification.id).Nodup) :
    Scrubbed (deliver now send db rows).1 ↔ Addressed db rows := by
  constructor
  · intro hs r hr hnone
    have hrow := hs (settled db.users now send r) ((mem_fold hn).2 (.inr ⟨r, hr, rfl⟩))
    unfold settled at hrow
    rw [hnone] at hrow
    exact hrow Status.noConfusion
  · intro haddressed y hy hdone k hk
    rcases (mem_fold hn).1 hy with ⟨hy, -⟩ | ⟨r, hr, rfl⟩
    · exact h y hy hdone k hk
    · unfold settled at hdone ⊢
      cases hto : recipient db.users r.userId with
      | none => exact haddressed r hr hto k hk
      | some whom =>
        simp only [hto] at hdone
        exact settle_secret hdone hk

theorem scrubbed_insert {n : Notification} (h : Scrubbed db) (hq : n.status = .queued) :
    Scrubbed (db.insert n).1 := by
  rcases insert_fst db n with hsame | ⟨hput, -⟩
  · rw [hsame]
    exact h
  · rw [hput]
    intro r hr hdone
    rcases Table.mem_put.1 hr with rfl | ⟨hr, -⟩
    · exact absurd hq hdone
    · exact h r hr hdone

theorem scrubbed_step {e : Event} (h : Scrubbed db) (hc : Clear db e) (hstep : Step zones db e t) :
    Scrubbed t := by
  cases e with
  | queue m channel now =>
    rw [show t = _ from hstep]
    unfold queue
    split
    · exact h
    · exact @scrubbed_insert { db with scheduled := _ } _ h rfl
  | notice m now =>
    rw [show t = _ from hstep]
    exact scrubbed_insert h rfl
  | account u =>
    rw [show t = _ from hstep]
    exact h
  | deliver now limit locked rows send =>
    rw [hstep.2]
    exact (scrubbed_deliver h (selects_queued hstep.1).2).2 hc

/-! ## A tick -/

/-- What others do while a tick runs: a message is due after it began, and so begins a pass. -/
def Later (zones : Zones) (begun : Time) (db : Db) : Event → Prop
  | .queue m _ now => ∀ whom, recipient db.users m.userId = some whom →
    begun < schedule zones whom m.template now
  | .notice _ now => begun < now
  | .account _ => True
  | .deliver now .. => begun ≤ now

/-- `deliver_notifications`: passes over one row each until one finds none, `limit` at most, among
what others do. The list is of the rows that others had locked at one of them. -/
inductive DeliverNotifications (zones : Zones) (begun : Time) : ℕ → List ℕ → Db → Db → Prop where
  | spent (s : Db) : DeliverNotifications zones begun 0 [] s s
  | idle {limit : ℕ} {locked : List ℕ} {es : List Event} {s u t : Db} {now : Time}
      {send : Recipient → Notification → Outcome}
      (others : Runs (Step zones) (Later zones begun) s es u) (hnow : begun ≤ now)
      (pass : Step zones u (.deliver now 1 locked [] send) t) :
      DeliverNotifications zones begun (limit + 1) locked s t
  | more {limit : ℕ} {locked held : List ℕ} {es : List Event} {s u v t : Db} {now : Time}
      {r : Notification} {send : Recipient → Notification → Outcome}
      (others : Runs (Step zones) (Later zones begun) s es u) (hnow : begun ≤ now)
      (pass : Step zones u (.deliver now 1 locked [r] send) v)
      (rest : DeliverNotifications zones begun limit held v t) :
      DeliverNotifications zones begun (limit + 1) (locked ++ held) s t

def Handled (r y : Notification) : Prop :=
  r.attempts ≤ y.attempts ∧ (y.status = .suppressed ∨ r.attempts < y.attempts)

theorem handled_settled (r : Notification) : Handled r (settled users now send r) := by
  unfold settled Handled
  split
  · exact ⟨le_rfl, .inl rfl⟩
  · rw [settle_attempts]
    exact ⟨Nat.le_succ _, .inr (Nat.lt_succ_self _)⟩

theorem fate_step {e : Event} (hstep : Step zones db e t) {y : Notification}
    (hy : y ∈ db.rows.rows) : ∃ z ∈ t.rows.rows, z.id = y.id ∧
      (z = y ∨ y.status = .queued ∧ Handled y z) := by
  have hinsert : ∀ (d : Db) n, d.rows = db.rows → ∃ z ∈ (d.insert n).1.rows.rows, z.id = y.id ∧
      (z = y ∨ y.status = .queued ∧ Handled y z) := by
    intro d n hd
    refine ⟨y, ?_, rfl, .inl rfl⟩
    rcases insert_fst d n with hsame | ⟨hput, -⟩
    · rw [hsame, hd]
      exact hy
    · rw [hput]
      refine Table.mem_put.2 (.inr ⟨hd ▸ hy, ?_⟩)
      exact Table.get?_eq_none.1 (Table.get?_nextId d.rows) y (hd ▸ hy)
  cases e with
  | queue m channel now =>
    rw [show t = _ from hstep]
    unfold queue
    split
    · exact ⟨y, hy, rfl, .inl rfl⟩
    · exact hinsert _ _ rfl
  | notice m now =>
    rw [show t = _ from hstep]
    exact hinsert db _ rfl
  | account u =>
    rw [show t = _ from hstep]
    exact ⟨y, hy, rfl, .inl rfl⟩
  | deliver now limit locked rows send =>
    obtain ⟨hrows, hn⟩ := selects_queued hstep.1
    rw [hstep.2]
    by_cases hsel : ∃ r ∈ rows, r.id = y.id
    · obtain ⟨r, hr, hid⟩ := hsel
      have hsame := Table.get?_eq_some.2 ⟨(hrows r hr).1, hid⟩
      rw [Table.get?_eq_some.2 ⟨hy, rfl⟩] at hsame
      cases Option.some.inj hsame
      exact ⟨_, (mem_fold hn).2 (.inr ⟨y, hr, rfl⟩), settled_id, .inr ⟨(hrows y hr).2,
        handled_settled y⟩⟩
    · exact ⟨y, (mem_fold hn).2 (.inl ⟨hy, fun r hr hid => hsel ⟨r, hr, hid⟩⟩), rfl, .inl rfl⟩

def HandledIn (r : Notification) (db : Db) : Prop := ∃ y ∈ db.rows.rows, y.id = r.id ∧ Handled r y

theorem handled_step {e : Event} (h : HandledIn r db) (hstep : Step zones db e t) :
    HandledIn r t := by
  obtain ⟨y, hy, hid, hattempts, hdone⟩ := h
  obtain ⟨z, hz, hsame, rfl | ⟨hq, hmore, -⟩⟩ := fate_step hstep hy
  · exact ⟨z, hz, hid, hattempts, hdone⟩
  · have hlt := hdone.resolve_left (fun hs => by cases hq.symm.trans hs)
    exact ⟨z, hz, hsame.trans hid, hattempts.trans hmore, .inr (hlt.trans_le hmore)⟩

theorem due_settled {moment : Time} (hm : moment ≤ now) :
    isDue moment [] (settled users now send r) = false := by
  refine Bool.eq_false_iff.2 (fun hdue => ?_)
  obtain ⟨hq, hle, -⟩ := of_decide_eq_true hdue
  unfold settled at hq hle
  cases hto : recipient users r.userId with
  | none =>
    rw [hto] at hq
    cases hq
  | some whom =>
    simp only [hto] at hq hle
    rw [(settle_queued hq).2.2] at hle
    have hpos : 0 < seconds (300 * ((r.attempts : ℤ) + 1)) := by
      unfold seconds
      positivity
    exact absurd (hle.trans hm) (not_le.2 (lt_add_of_pos_right now hpos))

theorem due_deliver {moment : Time} (hn : (rows.map Notification.id).Nodup) (hm : moment ≤ now)
    {y : Notification} (hy : y ∈ (deliver now send db rows).1.rows.rows)
    (hdue : isDue moment [] y = true) : y ∈ db.rows.rows ∧ ∀ r ∈ rows, r.id ≠ y.id := by
  rcases (mem_fold hn).1 hy with hold | ⟨r, -, rfl⟩
  · exact hold
  · rw [due_settled hm] at hdue
    cases hdue

theorem due_step {e : Event} {moment begun : Time} (hm : moment ≤ begun)
    (hlater : Later zones begun db e) (hstep : Step zones db e t) {y : Notification}
    (hy : y ∈ t.rows.rows) (hdue : isDue moment [] y = true) : y ∈ db.rows.rows := by
  have hinsert : ∀ (d : Db) n, d.rows = db.rows → begun < n.scheduledAt →
      y ∈ (d.insert n).1.rows.rows → y ∈ db.rows.rows := by
    intro d n hd hafter hy
    rcases insert_fst d n with hsame | ⟨hput, -⟩
    · rw [hsame, hd] at hy
      exact hy
    · rw [hput] at hy
      rcases Table.mem_put.1 hy with rfl | ⟨hy, -⟩
      · have hle := (of_decide_eq_true hdue).2.1
        exact absurd (hle.trans hm) (not_le.2 hafter)
      · exact hd ▸ hy
  cases e with
  | queue m channel now =>
    rw [show t = _ from hstep] at hy
    unfold queue at hy
    cases hto : recipient db.users m.userId with
    | none =>
      rw [hto] at hy
      exact hy
    | some whom =>
      simp only [hto] at hy
      refine hinsert _ _ ?_ ?_ hy
      · rfl
      · exact hlater whom hto
  | notice m now =>
    rw [show t = _ from hstep] at hy
    refine hinsert db _ rfl ?_ hy
    exact hlater
  | account u =>
    rw [show t = _ from hstep] at hy
    exact hy
  | deliver now limit locked rows send =>
    rw [hstep.2] at hy
    exact (due_deliver (selects_queued hstep.1).2 (hm.trans hlater) hy hdue).1

def dueBy (db : Db) (moment : Time) : Finset ℕ :=
  ((db.rows.select (isDue moment [])).map Notification.id).toFinset

theorem mem_dueBy {moment : Time} {id : ℕ} : id ∈ dueBy db moment ↔
    ∃ y ∈ db.rows.rows, isDue moment [] y = true ∧ y.id = id := by
  unfold dueBy Table.select
  simp only [List.mem_toFinset, List.mem_map, List.mem_filter, and_assoc]

/-- The row is handled, or still as it was and within the first `limit`. -/
def InReach (r : Notification) (limit : ℕ) (db : Db) : Prop :=
  HandledIn r db ∨ r ∈ db.rows.rows ∧ (dueBy db r.scheduledAt).card ≤ limit

theorem inReach_runs {begun : Time} {limit : ℕ} (hm : r.scheduledAt ≤ begun)
    (h : Runs (Step zones) (Later zones begun) db es t) (hr : InReach r limit db) :
    InReach r limit t := by
  refine h.invariant (fun s e u hs hlater hstep => ?_) hr
  rcases hs with hdone | ⟨hrow, hcard⟩
  · exact .inl (handled_step hdone hstep)
  obtain ⟨z, hz, hid, rfl | ⟨-, hhandled⟩⟩ := fate_step hstep hrow
  · refine .inr ⟨hz, (Finset.card_le_card (fun id hin => ?_)).trans hcard⟩
    obtain ⟨y, hy, hdue, rfl⟩ := mem_dueBy.1 hin
    exact mem_dueBy.2 ⟨y, due_step hm hlater hstep hy hdue, hdue, rfl⟩
  · exact .inl ⟨z, hz, hid, hhandled⟩

theorem selects_one {locked : List ℕ} (h : Selects db now 1 locked rows) (hr : r ∈ db.rows.rows)
    (hdue : isDue now locked r = true) :
    ∃ x ∈ db.rows.rows, rows = [x] ∧ isDue now locked x = true ∧ x.scheduledAt ≤ r.scheduledAt := by
  obtain ⟨ordered, hperm, hsorted, rfl⟩ := h
  have hin : r ∈ ordered := hperm.mem_iff.2 (List.mem_filter.2 ⟨hr, hdue⟩)
  cases ordered with
  | nil => cases hin
  | cons x rest =>
    obtain ⟨hx, hxdue⟩ := List.mem_filter.1 (hperm.mem_iff.1 List.mem_cons_self)
    refine ⟨x, hx, rfl, hxdue, ?_⟩
    rcases List.mem_cons.1 hin with rfl | hrest
    · exact le_rfl
    · exact (List.pairwise_cons.1 hsorted).1 r hrest

theorem handled_of_tick {begun : Time} {limit : ℕ} {held : List ℕ}
    (h : DeliverNotifications zones begun limit held db t) (hdue : isDue begun [] r = true)
    (hfree : r.id ∉ held) (hr : InReach r limit db) : HandledIn r t := by
  obtain ⟨hq, hle, hfew, -⟩ := of_decide_eq_true hdue
  have hnow : ∀ {now : Time} {locked : List ℕ}, begun ≤ now → r.id ∉ locked →
      isDue now locked r = true := fun hbegun hlocked =>
    decide_eq_true ⟨hq, hle.trans hbegun, hfew, hlocked⟩
  have hown : isDue r.scheduledAt [] r = true := decide_eq_true ⟨hq, le_rfl, hfew, by simp⟩
  induction h with
  | spent s =>
    rcases hr with hdone | ⟨hrow, hcard⟩
    · exact hdone
    · exact absurd (Finset.card_pos.2 ⟨r.id, mem_dueBy.2 ⟨r, hrow, hown, rfl⟩⟩)
        (not_lt.2 hcard)
  | idle others hbegun pass =>
    rcases inReach_runs hle others hr with hdone | ⟨hrow, -⟩
    · exact handled_step hdone pass
    · obtain ⟨x, -, hrows, -⟩ := selects_one pass.1 hrow (hnow hbegun hfree)
      cases hrows
  | @more limit locked held es s u v t now x send others hbegun pass rest ih =>
    rw [List.mem_append, not_or] at hfree
    rcases inReach_runs hle others hr with hdone | ⟨hrow, hcard⟩
    · exact ih hfree.2 (.inl (handled_step hdone pass))
    obtain ⟨x', hx, hrows, hxdue, hfirst⟩ := selects_one pass.1 hrow (hnow hbegun hfree.1)
    cases hrows
    obtain ⟨hxq, -, hxfew, -⟩ := of_decide_eq_true hxdue
    obtain ⟨-, hn⟩ := selects_queued pass.1
    obtain ⟨z, hz, hid, rfl | ⟨-, hhandled⟩⟩ := fate_step pass hrow
    · refine ih hfree.2 (.inr ⟨hz, Nat.lt_succ_iff.1 (lt_of_lt_of_le ?_ hcard)⟩)
      have hlost : ∀ y ∈ v.rows.rows, isDue z.scheduledAt [] y = true →
          y ∈ u.rows.rows ∧ x.id ≠ y.id := by
        intro y hy hydue
        rw [pass.2] at hy
        obtain ⟨hold, hother⟩ := due_deliver hn (hle.trans hbegun) hy hydue
        exact ⟨hold, hother x List.mem_cons_self⟩
      refine Finset.card_lt_card (Finset.ssubset_iff_of_subset (fun id hin => ?_) |>.2
        ⟨x.id, mem_dueBy.2 ⟨x, hx, decide_eq_true ⟨hxq, hfirst, hxfew, by simp⟩, rfl⟩, ?_⟩)
      · obtain ⟨y, hy, hydue, rfl⟩ := mem_dueBy.1 hin
        exact mem_dueBy.2 ⟨y, (hlost y hy hydue).1, hydue, rfl⟩
      · intro hin
        obtain ⟨y, hy, hydue, hsame⟩ := mem_dueBy.1 hin
        exact (hlost y hy hydue).2 hsame.symm
    · exact ih hfree.2 (.inl ⟨z, hz, hid, hhandled⟩)

/-- What is promised of a state: three attempts at most and none after one that is not tried
again, no secret in a row that was settled, which stays and is handed over no more, and a tick that
comes to every row within its first `limit` that nobody else had locked. -/
structure Ledger (zones : Zones) (db : Db) : Prop where
  few : ∀ id, db.handed.countP (fun h => h.id = id) ≤ MAX_ATTEMPTS
  last : db.handed.Pairwise (fun h h' => h.id = h'.id → Transient h.outcome)
  scrubbed : Scrubbed db
  stays : ∀ fs t, Any (Step zones) db fs t → ∀ r ∈ db.rows.rows, r.status ≠ .queued →
    r ∈ t.rows.rows ∧
      t.handed.countP (fun h => h.id = r.id) = db.handed.countP (fun h => h.id = r.id)
  tick : ∀ begun limit held t, DeliverNotifications zones begun limit held db t →
    ∀ r ∈ db.rows.rows, isDue begun [] r = true →
      (db.rows.select (isDue r.scheduledAt [])).length ≤ limit → r.id ∉ held →
        ∃ y ∈ t.rows.rows, y.id = r.id ∧ Handled r y

theorem ledger_of_kept (h : Kept db) (hs : Scrubbed db) : Ledger zones db where
  few id := by
    by_cases hrow : ∃ r ∈ db.rows.rows, r.id = id
    · obtain ⟨r, hr, rfl⟩ := hrow
      rw [(h.accounted r hr).tried]
      exact (h.accounted r hr).few
    · rw [List.countP_eq_zero.2]
      · exact Nat.zero_le _
      · intro x hx hid
        obtain ⟨r, hr, hsame⟩ := h.known x hx
        exact hrow ⟨r, hr, hsame.trans (of_decide_eq_true hid)⟩
  last := h.last
  scrubbed := hs
  stays fs t hruns r hr hdone := by
    obtain ⟨hkept, hover⟩ := kept_runs h hruns
    have hlater := hover r hr hdone
    exact ⟨hlater, (hkept.accounted r hlater).tried.trans (h.accounted r hr).tried.symm⟩
  tick begun limit held t htick r hr hdue hfirst hfree := by
    refine handled_of_tick htick hdue hfree (.inr ⟨hr, ?_⟩)
    unfold dueBy
    refine (List.toFinset_card_le _).trans ?_
    rw [List.length_map]
    exact hfirst

def login : Message where
  userId := 1
  template := "auth.otp"
  params := Dict.ofList [("code", .str "123456")]

def suspendedDb : Db :=
  let db := (queue sampleZones (start students) login none (clock 12 0)).1
  { db with users := db.users.put { id := 1, active := false } }

def codeLeft : Db :=
  (deliver (clock 12 1) (fun _ _ => .sent) suspendedDb suspendedDb.rows.rows).1

theorem code_stays : ¬ ∀ (zones : Zones) (users : Users) (es : List Event) (db : Db),
    Any (Step zones) (start users) es db → Ledger zones db := by
  intro h
  have hrun : Any (Step sampleZones) (start students)
      [.queue login none (clock 12 0), .account { id := 1, active := false },
        .deliver (clock 12 1) 1 [] suspendedDb.rows.rows (fun _ _ => .sent)] codeLeft :=
    .next trivial rfl (.next trivial rfl (.next trivial
      ⟨⟨_, .refl _, List.pairwise_singleton _ _, rfl⟩, rfl⟩ (.refl _)))
  have hsecret := (h _ _ _ _ hrun).scrubbed _ List.mem_cons_self (by decide) "code" (by decide)
  revert hsecret
  decide

end IeltsHub.QuietHours
