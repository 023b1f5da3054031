import IeltsHub.SubmitFlow

set_option autoImplicit false

/-!
# What leaves the outbox, and what is marked refused

Keystrokes and flushes, overlapping, losing replies and sending again. A row that leaves the disk
was stored; a row is marked for its slot, and the guard says when the mark is no false alarm.
-/
namespace IeltsHub.OutboxAlarms
open PyDict PyValue LatestWins GuardedRuns AnswerOutbox SubmitFlow

/-! ## Rows of one slot -/

def Ascending (rows : List Row) : Prop :=
  rows.Pairwise (fun a b => a.slot = b.slot → a.clientSeq < b.clientSeq)

theorem Ascending.collapse (rows : List Row) : Ascending (collapse rows) := by
  have hvalues : (rows.foldl keepNewest Dict.empty).values.Pairwise
      (fun a b => a.slot ≠ b.slot) := by
    have hkeys := (rows.foldl keepNewest Dict.empty).nodup
    unfold Dict.values
    rw [List.pairwise_map]
    rw [List.nodup_iff_pairwise_ne, List.pairwise_map] at hkeys
    refine hkeys.imp_of_mem (fun {a b} ha hb hne => ?_)
    have hown := (newest_foldl rows).own
    rw [(hown a.1 a.2 (Dict.get?_eq_some.2 ha)).1, (hown b.1 b.2 (Dict.get?_eq_some.2 hb)).1]
    exact hne
  unfold Ascending AnswerOutbox.collapse
  have hsorted := (List.mergeSort_perm (rows.foldl keepNewest Dict.empty).values
    (fun a b => decide (a.id ≤ b.id))).symm.pairwise hvalues (fun h => h.symm)
  exact hsorted.imp (fun hne heq => absurd heq hne)

theorem Ascending.bodyOf {rows : List Row} (h : Ascending rows) : Ascending (bodyOf rows) := by
  unfold AnswerOutbox.bodyOf AnswerOutbox.batch
  split
  · exact (Ascending.collapse rows).sublist (List.take_sublist _ _)
  · exact h.sublist (List.take_sublist _ _)

/-! ## One batch -/

/-- The server declines the row as the batch comes in: on its merits, or it holds the number. -/
def Declines (merits : Delta → Option String) (server : Server) (r : Row) : Prop :=
  merits r.toDelta ≠ none ∨ Stale server.answers (writeOf r.toDelta)

instance (merits : Delta → Option String) (server : Server) (r : Row) :
    Decidable (Declines merits server r) := inferInstanceAs (Decidable (_ ∨ _))

theorem declines_saveOne {merits : Delta → Option String} {a : Server × List Rejection} {x r : Row}
    (h : x.slot = r.slot → x.clientSeq < r.clientSeq) :
    Declines merits (saveOne merits a x).1 r ↔ Declines merits a.1 r := by
  have hanswers : (saveOne merits a x).1.answers r.slot = a.1.answers r.slot ∨
      (x.slot = r.slot ∧ ¬ Stale a.1.answers (writeOf x.toDelta) ∧
        (saveOne merits a x).1.answers r.slot = some (x.clientSeq, x.response)) := by
    unfold saveOne
    split
    · exact .inl rfl
    · split
      · exact .inl rfl
      · next hstale =>
        by_cases hslot : r.slot = x.slot
        · right
          refine ⟨hslot.symm, hstale, ?_⟩
          unfold offer
          rw [if_neg hstale, hslot]
          exact Function.update_self _ _ _
        · left
          unfold offer
          rw [if_neg hstale]
          exact Function.update_of_ne hslot _ _
  unfold Declines
  refine or_congr Iff.rfl ?_
  unfold Stale
  change (∃ p ∈ (saveOne merits a x).1.answers r.slot, _) ↔ ∃ p ∈ a.1.answers r.slot, _
  rcases hanswers with hsame | ⟨hslot, hfresh, hnew⟩
  · rw [hsame]
  · rw [hnew]
    have hlt := h hslot
    refine iff_of_false ?_ ?_
    · rintro ⟨p, hp, hle⟩
      cases hp
      exact absurd hle (not_le.2 hlt)
    · rintro ⟨p, hp, hle⟩
      refine hfresh ⟨p, ?_, ?_⟩
      · change p ∈ a.1.answers x.slot
        rw [hslot]
        exact hp
      · exact hlt.le.trans hle

theorem saveOne_adds (merits : Delta → Option String) (a : Server × List Rejection) (x : Row) :
    (∀ i ∈ (saveOne merits a x).1.stored, i ∈ a.1.stored ∨
      i = x.id ∧ ¬ Declines merits a.1 x) ∧
    ∀ k ∈ (saveOne merits a x).2.map Rejection.slot, k ∈ a.2.map Rejection.slot ∨
      k = x.slot ∧ Declines merits a.1 x := by
  have hnamed : ∀ reason, ∀ k ∈ (a.2 ++ [x.rejection reason]).map Rejection.slot,
      k ∈ a.2.map Rejection.slot ∨ k = x.slot := by
    intro reason k hk
    rw [List.map_append, List.mem_append] at hk
    exact hk.imp_right (fun h => List.mem_singleton.1 h)
  unfold saveOne
  cases hm : merits x.toDelta with
  | some reason =>
    have hdeclines : Declines merits a.1 x := .inl (by rw [hm]; exact fun h => by cases h)
    exact ⟨fun i hi => .inl hi,
      fun k hk => (hnamed reason k hk).imp_right (fun h => ⟨h, hdeclines⟩)⟩
  | none =>
    dsimp only
    split
    · next hstale =>
      exact ⟨fun i hi => .inl hi,
        fun k hk => (hnamed "stale_seq" k hk).imp_right (fun h => ⟨h, .inr hstale⟩)⟩
    · next hstale =>
      refine ⟨fun i hi => ?_, fun k hk => .inl hk⟩
      rcases List.mem_cons.1 hi with rfl | hi
      · refine .inr ⟨rfl, ?_⟩
        rintro (hmerits | h)
        · exact hmerits hm
        · exact hstale h
      · exact .inl hi

/-- A batch in ascending order stores what is not declined as it comes in, and names the slots of
what is. -/
theorem foldl_saveOne_adds {merits : Delta → Option String} {rows : List Row}
    (h : Ascending rows) (a : Server × List Rejection) :
    (∀ i ∈ (rows.foldl (saveOne merits) a).1.stored, i ∈ a.1.stored ∨
      ∃ r ∈ rows, i = r.id ∧ ¬ Declines merits a.1 r) ∧
    ∀ k ∈ (rows.foldl (saveOne merits) a).2.map Rejection.slot, k ∈ a.2.map Rejection.slot ∨
      ∃ r ∈ rows, k = r.slot ∧ Declines merits a.1 r := by
  induction rows generalizing a with
  | nil => exact ⟨fun i hi => .inl hi, fun k hk => .inl hk⟩
  | cons x rows ih =>
    obtain ⟨hx, hrest⟩ := List.pairwise_cons.1 h
    obtain ⟨hstored, hnamed⟩ := ih hrest (saveOne merits a x)
    obtain ⟨hone, hone'⟩ := saveOne_adds merits a x
    rw [List.foldl_cons]
    constructor
    · intro i hi
      rcases hstored i hi with hi | ⟨r, hr, hri, hnot⟩
      · rcases hone i hi with hi | ⟨hi, hnot⟩
        · exact .inl hi
        · exact .inr ⟨x, List.mem_cons_self, hi, hnot⟩
      · rw [declines_saveOne (hx r hr)] at hnot
        exact .inr ⟨r, List.mem_cons_of_mem _ hr, hri, hnot⟩
    · intro k hk
      rcases hnamed k hk with hk | ⟨r, hr, hrk, hdeclines⟩
      · rcases hone' k hk with hk | ⟨hk, hdeclines⟩
        · exact .inl hk
        · exact .inr ⟨x, List.mem_cons_self, hk, hdeclines⟩
      · rw [declines_saveOne (hx r hr)] at hdeclines
        exact .inr ⟨r, List.mem_cons_of_mem _ hr, hrk, hdeclines⟩

/-! ## What the server holds of a row -/

/-- The server stored the row's value, and holds it or a value of a higher number. -/
def Held (server : Server) (x : Row) : Prop :=
  ∃ p, server.answers x.slot = some p ∧ (x.clientSeq < p.1 ∨ p = (x.clientSeq, x.response))

theorem Held.offer {server : Server} {x : Row} (h : Held server x)
    (w : Write (String × String) ℤ Json) {server' : Server} (hs : server'.answers = offer server.answers w) : Held server' x := by
  obtain ⟨p, hp, hor⟩ := h
  unfold Held
  rw [hs]
  unfold LatestWins.offer
  split
  · exact ⟨p, hp, hor⟩
  · next hstale =>
    by_cases hk : x.slot = w.key
    · rw [hk, Function.update_self]
      refine ⟨_, rfl, .inl ?_⟩
      have hlt : p.1 < w.stamp := by
        by_contra hle
        refine hstale ⟨p, ?_, not_lt.1 hle⟩
        rw [← hk]
        exact hp
      rcases hor with hor | hor
      · exact hor.trans hlt
      · rw [hor] at hlt
        exact hlt
    · rw [Function.update_of_ne hk]
      exact ⟨p, hp, hor⟩

def AllHeld (queued : List Row) (server : Server) : Prop :=
  ∀ q ∈ queued, q.id ∈ server.stored → Held server q

theorem allHeld_saveOne {queued : List Row} {a : Server × List Rejection}
    (h : AllHeld queued a.1) (hids : (queued.map Row.id).Nodup) (merits : Delta → Option String)
    {r : Row} (hr : ∃ q ∈ queued, Same q r) : AllHeld queued (saveOne merits a r).1 := by
  unfold saveOne
  split
  · exact h
  · split
    · exact h
    · next hstale =>
      intro q hq hi
      rcases List.mem_cons.1 hi with hi | hi
      · obtain ⟨q', hq', hid, hdelta⟩ := hr
        have hsame : q = q' := List.inj_on_of_nodup_map hids hq hq' (hi.trans hid.symm)
        subst hsame
        refine ⟨(q.clientSeq, q.response), ?_, .inr rfl⟩
        change LatestWins.offer a.1.answers (writeOf r.toDelta) q.toDelta.slot = _
        rw [hdelta]
        unfold LatestWins.offer
        rw [if_neg hstale]
        exact Function.update_self _ _ _
      · exact (h q hq hi).offer (writeOf r.toDelta) rfl

theorem allHeld_foldl {queued : List Row} (hids : (queued.map Row.id).Nodup)
    (merits : Delta → Option String) {rows : List Row} (hrows : ∀ r ∈ rows, ∃ q ∈ queued, Same q r)
    {a : Server × List Rejection} (h : AllHeld queued a.1) :
    AllHeld queued (rows.foldl (saveOne merits) a).1 := by
  induction rows generalizing a with
  | nil => exact h
  | cons r rows ih =>
    rw [List.forall_mem_cons] at hrows
    exact ih hrows.2 (allHeld_saveOne h hids merits hrows.1)

/-! ## The runs -/

/-- The server stored a row of this device for the slot, of this number or a higher one. -/
def HeldFromDevice (s : State) (x : Row) : Prop :=
  ∃ q ∈ s.queued, q.id ∈ s.server.stored ∧ q.slot = x.slot ∧ x.clientSeq ≤ q.clientSeq

def Cycle (s : State) : Event → Prop
  | .queue d => ∀ q ∈ s.queued, q.slot = d.slot → q.clientSeq < d.clientSeq
  | .freeze | .flush _ | .read _ _ | .land _ _ | .lose _ | .forget _ _ | .refuse _ _
  | .readBack _ _ => True
  | _ => False

instance (s : State) : (e : Event) → Decidable (Cycle s e)
  | .queue d => inferInstanceAs (Decidable (∀ q ∈ s.queued, q.slot = d.slot → _))
  | .freeze | .flush _ | .read _ _ | .land _ _ | .lose _ | .forget _ _ | .refuse _ _
  | .readBack _ _ => isTrue trivial
  | .press _ | .flushed _ | .left _ | .submit _ | .fail | .reply | .rows _ | .clear _ =>
    isFalse False.elim

def cycle (s : State) (e : Event) : Option State := if Cycle s e then step s e else none

def dues : Flush → List ℕ
  | .answered rows _ rejected => (partition rows rejected).2.map Prod.fst
  | .refusing marks => marks.map Prod.fst
  | _ => []

/-- A batch that comes in. Of a slot the server declines a row of, it declines every row, and has
none of this device that outranks one; and it takes no row that outranks one a flush is to mark.
A reply that is sent again names no slot whose rows it has. -/
def CleanReply (s : State) (rows : List Row) (key : ℕ) (merits : Delta → Option String) : Prop :=
  match s.server.replies key with
  | some (sent, rejected) => sent.map Row.toDelta = rows.map Row.toDelta →
    ∀ r ∈ rows, r.slot ∈ rejected.map Rejection.slot → ¬ HeldFromDevice s r
  | none => s.server.isOpen = true →
    (∀ r ∈ rows, ∀ r' ∈ rows, r.slot = r'.slot → Declines merits s.server r' →
      Declines merits s.server r ∧ ¬ HeldFromDevice s r) ∧
    ∀ u f, s.flushes u = some f → ∀ q ∈ s.queued, q.id ∈ dues f →
      ∀ r ∈ rows, r.slot = q.slot → q.clientSeq ≤ r.clientSeq → Declines merits s.server r

def Clean (s : State) : Event → Prop
  | .land t merits => ∀ rows carrying, s.flushes t = some (.sending rows carrying) →
      CleanReply s rows carrying.key merits
  | _ => True

/-- A device as a page finds it: rows of earlier sessions, on its disk or not any more, and no call
under way. -/
structure Opened (s : State) : Prop where
  ids : (s.queued.map Row.id).Nodup
  fresh : ∀ q ∈ s.queued, q.id < s.nextId
  disk : ∀ x ∈ s.disk, ∃ q ∈ s.queued, Same q x
  ascending : Ascending s.disk
  marks : ∀ x ∈ s.disk, x.refused ≠ none → Judged s.server x.id
  stored : ∀ i ∈ s.server.stored, i < s.nextId
  held : AllHeld s.queued s.server
  replies : ∀ k, s.server.replies k = none
  flushes : ∀ t, s.flushes t = none
  inFlight : s.inFlight = none

theorem Opened.base {s : State} (h : Opened s) : Base s where
  ids := h.ids
  fresh := h.fresh
  disk := h.disk
  marks := h.marks
  inFlight := by
    intro c hc
    rw [h.inFlight] at hc
    cases hc
  replies := by
    intro k rows rejected hk
    rw [h.replies] at hk
    cases hk
  flushes := by
    intro t f ht
    rw [h.flushes] at ht
    cases ht

/-! ### What holds in every run -/

def Carries (s : State) : Flush → Prop
  | .sending rows _ => Ascending rows ∧ ∀ r ∈ rows, ∃ q ∈ s.queued, Same q r
  | .answered rows _ _ => ∀ r ∈ rows, ∃ q ∈ s.queued, Same q r
  | .refusing marks => ∀ m ∈ marks, ∃ q ∈ s.queued, q.id = m.1
  | _ => True

structure Tracked (s : State) : Prop where
  base : Base s
  ascending : Ascending s.disk
  stored : ∀ i ∈ s.server.stored, i < s.nextId
  held : AllHeld s.queued s.server
  carries : ∀ t f, s.flushes t = some f → Carries s f

/-! ### One step -/

/-- A step that types nothing and tells the server of no row. -/
structure Calm (s t : State) : Prop where
  queued : t.queued = s.queued
  nextId : t.nextId = s.nextId
  stored : t.server.stored = s.server.stored
  answers : t.server.answers = s.server.answers
  ascending : Ascending s.disk → Ascending t.disk
  flushes : ∀ u f, t.flushes u = some f → s.flushes u = some f ∨
    Carries s f ∧ ∀ i ∈ dues f, ∃ g, s.flushes u = some g ∧ i ∈ dues g
  marked : ∀ x ∈ t.disk, x.refused ≠ none → ∃ y ∈ s.disk, Same y x ∧
    (y.refused ≠ none ∨ ∃ u g, s.flushes u = some g ∧ x.id ∈ dues g)

theorem marked_kept (s : State) : ∀ x ∈ s.disk, x.refused ≠ none → ∃ y ∈ s.disk, Same y x ∧
    (y.refused ≠ none ∨ ∃ u g, s.flushes u = some g ∧ x.id ∈ dues g) :=
  fun x hx hm => ⟨x, hx, same_refl x, .inl hm⟩

theorem put_dues {s t : State} {u : ℕ} {f : Flush} (hf : Carries s f)
    (hdues : ∀ i ∈ dues f, ∃ g, s.flushes u = some g ∧ i ∈ dues g)
    (ht : t.flushes = Function.update s.flushes u (some f)) :
    ∀ v f', t.flushes v = some f' → s.flushes v = some f' ∨
      Carries s f' ∧ ∀ i ∈ dues f', ∃ g, s.flushes v = some g ∧ i ∈ dues g := by
  intro v f' hv
  rw [ht] at hv
  by_cases huv : v = u
  · rw [huv, Function.update_self] at hv
    cases hv
    rw [huv]
    exact .inr ⟨hf, hdues⟩
  · rw [Function.update_of_ne huv] at hv
    exact .inl hv

theorem calm_put {s : State} (u : ℕ) (f : Flush) (c : Option InFlight) (minted : ℕ)
    (boundTo : ℕ → List ℕ) (hf : Carries s f) (hdues : dues f = []) :
    Calm s { s.put u f with inFlight := c, minted := minted, boundTo := boundTo } where
  queued := rfl
  nextId := rfl
  stored := rfl
  answers := rfl
  ascending := fun h => h
  flushes := by
    apply put_dues hf _ rfl
    rw [hdues]
    intro i hi
    cases hi
  marked := marked_kept s

theorem readWaiting_calm {s : State} (hs : Tracked s) (u : ℕ) (c : Option InFlight) (ok : Bool) :
    Calm s (readWaiting s u c ok) := by
  unfold readWaiting
  split
  · split
    · exact calm_put u (.done true) c s.minted s.boundTo trivial rfl
    · refine calm_put u (.sending _ _) s.inFlight _ _ ⟨?_, ?_⟩ rfl
      · exact Ascending.bodyOf (hs.ascending.sublist List.filter_sublist)
      · intro r hr
        exact hs.base.disk r (List.mem_of_mem_filter (mem_of_mem_bodyOf hr))
  · exact calm_put u (.done false) s.inFlight s.minted s.boundTo trivial rfl

theorem mem_partition {rows : List Row} {rejected : List Rejection} {m : ℕ × String}
    (h : m ∈ (partition rows rejected).2) :
    ∃ r ∈ rows, r.id = m.1 ∧ r.slot ∈ rejected.map Rejection.slot := by
  obtain ⟨r, hr, hmark⟩ := List.mem_filterMap.1 h
  obtain ⟨why, hwhy, rfl⟩ := Option.map_eq_some_iff.1 hmark
  refine ⟨r, hr, rfl, ?_⟩
  by_contra hnot
  have hnone := get?_refusedSlots.2 hnot
  rw [hwhy] at hnone
  cases hnone

theorem forgetTaken_calm {s : State} (hs : Tracked s) {u : ℕ} {rows : List Row} {c : InFlight}
    {rejected : List Rejection} (hf : s.flushes u = some (.answered rows c rejected)) (ok : Bool) :
    Calm s (forgetTaken s u rows rejected ok) := by
  have hcarries : Carries s (.refusing (partition rows rejected).2) := by
    intro m hm
    obtain ⟨r, hr, hrm, _⟩ := mem_partition hm
    obtain ⟨q, hq, hid, _⟩ := hs.carries u _ hf r hr
    exact ⟨q, hq, hid.trans hrm⟩
  unfold forgetTaken
  split
  · exact
      { queued := rfl
        nextId := rfl
        stored := rfl
        answers := rfl
        ascending := fun h => h.sublist List.filter_sublist
        flushes := put_dues (f := .refusing _) hcarries (fun i hi => ⟨_, hf, hi⟩) rfl
        marked := fun x hx hm => ⟨x, (mem_forget.1 hx).1, same_refl x, .inl hm⟩ }
  · exact calm_put u (.done false) s.inFlight s.minted s.boundTo trivial rfl

theorem Ascending.refuse {disk : List Row} (h : Ascending disk) (marks : List (ℕ × String)) :
    Ascending (refuse marks disk) := by
  unfold AnswerOutbox.refuse
  induction marks generalizing disk with
  | nil => exact h
  | cons m marks ih =>
    rw [List.foldl_cons]
    apply ih
    unfold Ascending refuseOne
    rw [List.pairwise_map]
    refine h.imp (fun {a b} hab => ?_)
    split <;> split <;> exact hab

theorem refuse_calm {s : State} {u : ℕ} {marks : List (ℕ × String)}
    (hf : s.flushes u = some (.refusing marks)) :
    Calm s { s.put u .readingBack with disk := refuse marks s.disk } where
  queued := rfl
  nextId := rfl
  stored := rfl
  answers := rfl
  ascending := fun h => h.refuse marks
  flushes := put_dues (f := .readingBack) trivial (fun i hi => by cases hi) rfl
  marked := by
    intro x hx hm
    obtain ⟨y, hy, hyx, hmarked⟩ := (refuse_spec marks s.disk).1 x hx
    exact ⟨y, hy, hyx, (hmarked hm).imp_right (fun hi => ⟨u, _, hf, hi⟩)⟩

def Lands (s t : State) (e : Event) : Prop :=
  ∃ u rows carrying merits server rejected, e = .land u merits ∧
    s.flushes u = some (.sending rows carrying) ∧
    postAnswers merits s.server carrying.key rows = some (server, rejected) ∧
    t = { s.put u (.answered rows carrying rejected) with server := server }

theorem stepFlush_turn {s t : State} (hs : Tracked s) {u : ℕ} {e : Event}
    (hland : ∀ v merits, e = .land v merits → v = u) (h : stepFlush s u e = some t) :
    Calm s t ∨ Lands s t e := by
  have hdone : ∀ drained c, Calm s { s.put u (.done drained) with inFlight := c } :=
    fun drained c => calm_put u (.done drained) c s.minted s.boundTo trivial rfl
  unfold stepFlush at h
  split at h
  · cases h
    exact .inl (readWaiting_calm hs u _ _)
  · next rows carrying v merits hf =>
    cases hland v merits rfl
    split at h
    · next server rejected hpost =>
      cases h
      exact .inr ⟨u, rows, carrying, merits, server, rejected, rfl, hf, hpost, rfl⟩
    · cases h
      exact .inl (hdone _ _)
  · cases h
    exact .inl (hdone _ _)
  · cases h
    exact .inl (hdone _ _)
  · next hf =>
    cases h
    exact .inl (forgetTaken_calm hs hf _)
  · next hf =>
    split at h
    · cases h
      exact .inl (refuse_calm hf)
    · cases h
      exact .inl (hdone _ _)
  · split at h
    · cases h
      exact .inl (hdone _ _)
    · cases h
      exact .inl (hdone _ _)
  · cases h

theorem cycle_eq_some {s t : State} {e : Event} (h : cycle s e = some t) :
    Cycle s e ∧ step s e = some t := by
  unfold cycle at h
  split at h
  · next hcycle => exact ⟨hcycle, h⟩
  · cases h

theorem cycle_turn {s t : State} (hs : Tracked s) {e : Event} (h : cycle s e = some t) :
    (∃ d, e = .queue d ∧ Cycle s (.queue d) ∧ t = queue s d) ∨ Calm s t ∨ Lands s t e := by
  obtain ⟨hcycle, h⟩ := cycle_eq_some h
  cases e with
  | queue d =>
    cases h
    exact .inl ⟨d, rfl, hcycle, rfl⟩
  | freeze =>
    cases h
    exact .inr (.inl ⟨rfl, rfl, rfl, rfl, fun h => h, fun _ _ h => .inl h, marked_kept s⟩)
  | flush u =>
    right
    left
    change start s u = some t at h
    unfold start at h
    split at h
    · cases h
      exact calm_put u (.starting s.inFlight) s.inFlight s.minted s.boundTo trivial rfl
    · cases h
  | land u merits => exact .inr (stepFlush_turn hs (fun v m hv => by cases hv; rfl) h)
  | read | lose | forget | refuse | readBack =>
    exact .inr (stepFlush_turn hs (fun v m hv => by cases hv) h)
  | _ => exact hcycle.elim

/-! ### What a step keeps -/

theorem Carries.mono {s t : State} {f : Flush} (h : Carries s f)
    (hqueued : ∀ q ∈ s.queued, q ∈ t.queued) : Carries t f := by
  have hrows : ∀ r, (∃ q ∈ s.queued, Same q r) → ∃ q ∈ t.queued, Same q r :=
    fun r ⟨q, hq, hqr⟩ => ⟨q, hqueued q hq, hqr⟩
  cases f with
  | sending rows carrying => exact ⟨h.1, fun r hr => hrows r (h.2 r hr)⟩
  | answered rows carrying rejected => exact fun r hr => hrows r (h r hr)
  | refusing marks =>
    intro m hm
    obtain ⟨q, hq, hid⟩ := h m hm
    exact ⟨q, hqueued q hq, hid⟩
  | _ => trivial

theorem Calm.tracked {s t : State} (h : Calm s t) (hs : Tracked s) (hb : Base t) : Tracked t where
  base := hb
  ascending := h.ascending hs.ascending
  stored := by
    rw [h.stored, h.nextId]
    exact hs.stored
  held := by
    intro q hq hi
    rw [h.queued] at hq
    rw [h.stored] at hi
    obtain ⟨p, hp, hor⟩ := hs.held q hq hi
    refine ⟨p, ?_, hor⟩
    rw [h.answers]
    exact hp
  carries := by
    intro u f hf
    have hqueued : ∀ q ∈ s.queued, q ∈ t.queued := by
      rw [h.queued]
      exact fun q hq => hq
    rcases h.flushes u f hf with hf | ⟨hf, _⟩
    · exact (hs.carries u f hf).mono hqueued
    · exact hf.mono hqueued

theorem queue_tracked {s : State} (hs : Tracked s) {d : Delta} (hd : Cycle s (.queue d)) :
    Tracked (queue s d) where
  base := base_queue hs.base d
  ascending := by
    change (s.disk ++ [_]).Pairwise _
    rw [List.pairwise_append]
    refine ⟨hs.ascending, List.pairwise_singleton _ _, ?_⟩
    intro x hx y hy hslot
    rw [List.mem_singleton.1 hy] at hslot ⊢
    obtain ⟨q, hq, _, hdelta⟩ := hs.base.disk x hx
    have hlt := hd q hq
    rw [hdelta] at hlt
    exact hlt hslot
  stored := fun i hi => Nat.lt_succ_of_lt (hs.stored i hi)
  held := by
    intro q hq hi
    rcases List.mem_append.1 hq with hq | hq
    · exact hs.held q hq hi
    · rw [List.mem_singleton.1 hq] at hi
      exact absurd (hs.stored _ hi) (lt_irrefl _)
  carries := fun u f hf => (hs.carries u f hf).mono (fun q hq => List.mem_append_left _ hq)

theorem postAnswers_turn {merits : Delta → Option String} {server server' : Server} {key : ℕ}
    {rows : List Row} {rejected : List Rejection}
    (h : postAnswers merits server key rows = some (server', rejected)) :
    (server' = server ∧ ∃ sent, server.replies key = some (sent, rejected) ∧
      sent.map Row.toDelta = rows.map Row.toDelta) ∨
    (server.replies key = none ∧ server.isOpen = true ∧
      server'.stored = (saveAnswers merits server rows).1.stored ∧
      server'.answers = (saveAnswers merits server rows).1.answers ∧
      rejected = (saveAnswers merits server rows).2) := by
  unfold postAnswers at h
  split at h
  · next sent named hk =>
    split at h
    · next hbody =>
      cases h
      exact .inl ⟨rfl, sent, hk, hbody⟩
    · cases h
  · next hk =>
    split at h
    · next hopen =>
      cases h
      exact .inr ⟨hk, hopen, rfl, rfl, rfl⟩
    · cases h

theorem saveAnswers_held {s : State} (hs : Tracked s) (merits : Delta → Option String)
    {rows : List Row} (hrows : ∀ r ∈ rows, ∃ q ∈ s.queued, Same q r) :
    AllHeld s.queued (saveAnswers merits s.server rows).1 :=
  allHeld_foldl (a := (s.server, [])) hs.base.ids merits hrows hs.held

theorem land_tracked {s t : State} (hs : Tracked s) {e : Event} (h : Lands s t e) (hb : Base t) :
    Tracked t := by
  obtain ⟨u, rows, carrying, merits, server, rejected, _, hf, hpost, rfl⟩ := h
  obtain ⟨hascending, hrows⟩ := hs.carries u _ hf
  have hserver : (∀ i ∈ server.stored, i < s.nextId) ∧ AllHeld s.queued server := by
    rcases postAnswers_turn hpost with ⟨rfl, _⟩ | ⟨_, _, hstored, hanswers, _⟩
    · exact ⟨hs.stored, hs.held⟩
    · constructor
      · intro i hi
        rw [hstored] at hi
        rcases (foldl_saveOne_adds hascending (s.server, [])).1 i hi with hi | ⟨r, hr, rfl, _⟩
        · exact hs.stored i hi
        · obtain ⟨q, hq, hid, _⟩ := hrows r hr
          rw [← hid]
          exact hs.base.fresh q hq
      · intro q hq hi
        rw [hstored] at hi
        obtain ⟨p, hp, hor⟩ := saveAnswers_held hs merits hrows q hq hi
        refine ⟨p, ?_, hor⟩
        rw [hanswers]
        exact hp
  refine ⟨hb, hs.ascending, hserver.1, hserver.2, ?_⟩
  intro v f hv
  change Function.update s.flushes u (some (.answered rows carrying rejected)) v = some f at hv
  by_cases huv : v = u
  · rw [huv, Function.update_self] at hv
    cases hv
    exact hrows
  · rw [Function.update_of_ne huv] at hv
    exact (hs.carries v f hv).mono (fun q hq => hq)

theorem step_tracked {s t : State} (hs : Tracked s) {e : Event} (h : cycle s e = some t) :
    Tracked t := by
  have hb : Base t := step_base hs.base (cycle_eq_some h).2
  rcases cycle_turn hs h with ⟨d, rfl, hd, rfl⟩ | hcalm | hland
  · exact queue_tracked hs hd
  · exact hcalm.tracked hs hb
  · exact land_tracked hs hland hb

/-! ### Marks that are due -/

/-- No flush is to mark a row that the server has, or that it has outranked. -/
def Quiet (s : State) : Prop :=
  ∀ u f, s.flushes u = some f → ∀ q ∈ s.queued, q.id ∈ dues f → ¬ HeldFromDevice s q

theorem Calm.heldFromDevice {s t : State} (h : Calm s t) (x : Row) :
    HeldFromDevice t x ↔ HeldFromDevice s x := by
  unfold HeldFromDevice
  rw [h.queued, h.stored]

theorem Calm.quiet {s t : State} (h : Calm s t) (hquiet : Quiet s) : Quiet t := by
  intro u f hf q hq hi
  rw [h.heldFromDevice]
  rw [h.queued] at hq
  rcases h.flushes u f hf with hf | ⟨_, hdues⟩
  · exact hquiet u f hf q hq hi
  · obtain ⟨g, hg, hi⟩ := hdues q.id hi
    exact hquiet u g hg q hq hi

theorem dues_queued {s : State} {f : Flush} (hf : Carries s f) :
    ∀ i ∈ dues f, ∃ q ∈ s.queued, q.id = i := by
  intro i hi
  cases f with
  | answered rows carrying rejected =>
    obtain ⟨m, hm, rfl⟩ := List.mem_map.1 hi
    obtain ⟨r, hr, hrm, _⟩ := mem_partition hm
    obtain ⟨q, hq, hid, _⟩ := hf r hr
    exact ⟨q, hq, hid.trans hrm⟩
  | refusing marks =>
    obtain ⟨m, hm, rfl⟩ := List.mem_map.1 hi
    exact hf m hm
  | _ => cases hi

theorem queue_quiet {s : State} (hs : Tracked s) (hquiet : Quiet s) (d : Delta) :
    Quiet (queue s d) := by
  intro u f hf q hq hi hheld
  have hold : q ∈ s.queued := by
    obtain ⟨q', hq', hid⟩ := dues_queued (hs.carries u f hf) q.id hi
    rcases List.mem_append.1 hq with hq | hq
    · exact hq
    · rw [List.mem_singleton.1 hq] at hid
      exact absurd (hs.base.fresh q' hq') (by rw [hid]; exact lt_irrefl _)
  refine hquiet u f hf q hold hi ?_
  obtain ⟨x, hx, hstored, hrest⟩ := hheld
  rcases List.mem_append.1 hx with hx | hx
  · exact ⟨x, hx, hstored, hrest⟩
  · rw [List.mem_singleton.1 hx] at hstored
    exact absurd (hs.stored _ hstored) (lt_irrefl _)

theorem heldFromDevice_land {s t : State} (hs : Tracked s) {merits : Delta → Option String}
    {rows : List Row} (hrows : ∀ r ∈ rows, ∃ q ∈ s.queued, Same q r) (hascending : Ascending rows)
    (hqueued : t.queued = s.queued)
    (hstored : t.server.stored = (saveAnswers merits s.server rows).1.stored) {x : Row}
    (h : HeldFromDevice t x) : HeldFromDevice s x ∨
      ∃ r ∈ rows, r.slot = x.slot ∧ x.clientSeq ≤ r.clientSeq ∧ ¬ Declines merits s.server r := by
  obtain ⟨q, hq, hi, hslot, hle⟩ := h
  rw [hqueued] at hq
  rw [hstored] at hi
  rcases (foldl_saveOne_adds hascending (s.server, [])).1 q.id hi with hi | ⟨r, hr, hid, hnot⟩
  · exact .inl ⟨q, hq, hi, hslot, hle⟩
  · obtain ⟨q', hq', hsame⟩ := hrows r hr
    have hqq : q = q' := List.inj_on_of_nodup_map hs.base.ids hq hq' (hid.trans hsame.1.symm)
    subst hqq
    rw [hsame.2] at hslot hle
    exact .inr ⟨r, hr, hslot, hle, hnot⟩

theorem land_quiet {s t : State} (hs : Tracked s) (hquiet : Quiet s) {e : Event}
    (hclean : Clean s e) (h : Lands s t e) : Quiet t := by
  obtain ⟨u, rows, carrying, merits, server, rejected, rfl, hf, hpost, rfl⟩ := h
  obtain ⟨hascending, hrows⟩ := hs.carries u _ hf
  have hreply : CleanReply s rows carrying.key merits := hclean rows carrying hf
  unfold CleanReply at hreply
  intro v f hv q hq hi hheld
  change Function.update s.flushes u (some (.answered rows carrying rejected)) v = some f at hv
  -- a row this flush is to mark is one of the batch, and of a slot the reply names
  have hnamed : v = u → ∃ r ∈ rows, Same q r ∧ r.slot ∈ rejected.map Rejection.slot := by
    intro huv
    rw [huv, Function.update_self] at hv
    cases hv
    obtain ⟨m, hm, hmq⟩ := List.mem_map.1 hi
    obtain ⟨r, hr, hrm, hslot⟩ := mem_partition hm
    obtain ⟨q', hq', hsame⟩ := hrows r hr
    have hqq : q = q' :=
      List.inj_on_of_nodup_map hs.base.ids hq hq' (hmq.symm.trans (hrm.symm.trans hsame.1.symm))
    subst hqq
    exact ⟨r, hr, hsame, hslot⟩
  have hother : v ≠ u → s.flushes v = some f := by
    intro huv
    rw [Function.update_of_ne huv] at hv
    exact hv
  rcases postAnswers_turn hpost with ⟨rfl, sent, hk, hbody⟩ | ⟨hk, hopen, hstored, _, hrejected⟩
  · rw [hk] at hreply
    replace hheld : HeldFromDevice s q := hheld
    by_cases huv : v = u
    · obtain ⟨r, hr, hsame, hslot⟩ := hnamed huv
      refine hreply hbody r hr hslot ?_
      unfold HeldFromDevice at hheld ⊢
      rw [← hsame.2]
      exact hheld
    · exact hquiet v f (hother huv) q hq hi hheld
  · rw [hk] at hreply
    obtain ⟨hslots, hdues⟩ := hreply hopen
    replace hheld := heldFromDevice_land
      (t := { s.put u (.answered rows carrying rejected) with server := server })
      hs hrows hascending rfl hstored hheld
    by_cases huv : v = u
    · obtain ⟨r, hr, hsame, hslot⟩ := hnamed huv
      rw [hrejected] at hslot
      rcases (foldl_saveOne_adds hascending (s.server, [])).2 r.slot hslot with hnil | hdeclined
      · cases hnil
      · obtain ⟨r', hr', hslot', hdeclines⟩ := hdeclined
        rcases hheld with hheld | ⟨r₂, hr₂, hslot₂, _, hnot⟩
        · refine (hslots r hr r' hr' hslot' hdeclines).2 ?_
          unfold HeldFromDevice at hheld ⊢
          rw [← hsame.2]
          exact hheld
        · rw [hsame.2] at hslot₂
          exact hnot (hslots r₂ hr₂ r' hr' (hslot₂.trans hslot') hdeclines).1
    · rcases hheld with hheld | ⟨r, hr, hslot, hle, hnot⟩
      · exact hquiet v f (hother huv) q hq hi hheld
      · exact hnot (hdues v f (hother huv) q hq hi r hr hslot hle)

theorem step_quiet {s t : State} (hs : Tracked s) (hquiet : Quiet s) {e : Event}
    (hclean : Clean s e) (h : cycle s e = some t) : Quiet t := by
  rcases cycle_turn hs h with ⟨d, rfl, _, rfl⟩ | hcalm | hland
  · exact queue_quiet hs hquiet d
  · exact hcalm.quiet hquiet
  · exact land_quiet hs hquiet hclean hland

/-! ## What a flush deletes and what it marks -/

theorem Opened.tracked {s : State} (h : Opened s) : Tracked s where
  base := h.base
  ascending := h.ascending
  stored := h.stored
  held := h.held
  carries := by
    intro t f ht
    rw [h.flushes] at ht
    cases ht

theorem Opened.quiet {s : State} (h : Opened s) : Quiet s := by
  intro u f hf
  rw [h.flushes] at hf
  cases hf

theorem deleted_held {s t : State} (hs : Tracked s) {e : Event} (h : cycle s e = some t) {x : Row}
    (hx : x ∈ s.disk) (hgone : ∀ y ∈ t.disk, ¬ Same x y) : Held t.server x := by
  have ht := step_tracked hs h
  obtain ⟨hcycle, h⟩ := cycle_eq_some h
  by_cases hq : ∃ d, e = .queue d
  · obtain ⟨d, rfl⟩ := hq
    cases h
    exact absurd (same_refl x) (hgone x (List.mem_append_left _ hx))
  · have hmoves : Moves s t := by
      apply step_moves hs.base h (fun d hd => hq ⟨d, hd⟩)
      rintro ok rfl
      exact hcycle
    rcases hmoves.kept x hx with ⟨y, hy, hxy⟩ | hstored
    · exact absurd hxy (hgone y hy)
    · obtain ⟨q, hq, hid, hdelta⟩ := hs.base.disk x hx
      rw [← hmoves.queued] at hq
      obtain ⟨p, hp, hor⟩ := ht.held q hq (by rw [hid]; exact hstored)
      rw [hdelta] at hp hor
      exact ⟨p, hp, hor⟩

theorem marked_unheld {s t : State} (hs : Tracked s) (hquiet : Quiet s) {e : Event}
    (h : cycle s e = some t) {x : Row} (hx : x ∈ t.disk) (hm : x.refused ≠ none)
    (hnew : ∀ y ∈ s.disk, Same y x → y.refused = none) : ¬ HeldFromDevice t x := by
  have hfresh : ∀ y ∈ s.disk, Same y x → y.refused ≠ none → False :=
    fun y hy hyx hy' => hy' (hnew y hy hyx)
  rcases cycle_turn hs h with ⟨d, rfl, _, rfl⟩ | hcalm | hland
  · rcases List.mem_append.1 hx with hx | hx
    · exact (hfresh x hx (same_refl x) hm).elim
    · rw [List.mem_singleton.1 hx] at hm
      exact absurd rfl hm
  · obtain ⟨y, hy, hyx, hmarked⟩ := hcalm.marked x hx hm
    rcases hmarked with hy' | ⟨u, g, hg, hi⟩
    · exact (hfresh y hy hyx hy').elim
    · rw [hcalm.heldFromDevice]
      obtain ⟨q, hq, hid, hdelta⟩ := hs.base.disk y hy
      intro hheld
      refine hquiet u g hg q hq ?_ ?_
      · rw [hid, hyx.1]
        exact hi
      · unfold HeldFromDevice at hheld ⊢
        rw [hdelta, hyx.2]
        exact hheld
  · obtain ⟨u, rows, carrying, merits, server, rejected, _, _, _, rfl⟩ := hland
    exact (hfresh x hx (same_refl x) hm).elim

/-- In every run a deletion costs nothing; and while every batch comes in clean, every mark is
true. -/
theorem outbox_loses_nothing (s₀ : State) (hopened : Opened s₀) (is : List Event) (s : State) :
    (Any (fun s e t => cycle s e = some t) s₀ is s → ∀ e t, cycle s e = some t →
      ∀ x ∈ s.disk, (∀ y ∈ t.disk, ¬ Same x y) → Held t.server x) ∧
    (Runs (fun s e t => cycle s e = some t) Clean s₀ is s → ∀ e t, cycle s e = some t →
      ∀ x ∈ t.disk, x.refused ≠ none → (∀ y ∈ s.disk, Same y x → y.refused = none) →
        ¬ HeldFromDevice t x) := by
  constructor
  · intro h e t ht x hx hgone
    have hs : Tracked s :=
      h.invariant (fun _ _ _ hs _ hst => step_tracked hs hst) hopened.tracked
    exact deleted_held hs ht hx hgone
  · intro h e t ht x hx hm hnew
    have hs : Tracked s ∧ Quiet s := by
      apply h.invariant
      · exact fun _ _ _ hs hclean hst =>
          ⟨step_tracked hs.1 hst, step_quiet hs.1 hs.2 hclean hst⟩
      · exact ⟨hopened.tracked, hopened.quiet⟩
    exact marked_unheld hs.1 hs.2 ht hx hm hnew

/-! ## Runs of one row, and of two -/

theorem opened_blank : Opened blank where
  ids := List.nodup_nil
  fresh := by
    intro q hq
    cases hq
  disk := by
    intro x hx
    cases hx
  ascending := List.Pairwise.nil
  marks := by
    intro x hx
    cases hx
  stored := by
    intro i hi
    cases hi
  held := by
    intro q hq
    cases hq
  replies := fun _ => rfl
  flushes := fun _ => rfl
  inFlight := rfl

instance (y x : Row) : Decidable (Same y x) := inferInstanceAs (Decidable (_ ∧ _))

instance (s : State) (x : Row) : Decidable (HeldFromDevice s x) :=
  inferInstanceAs (Decidable (∃ q ∈ s.queued, _))

def after (is : List Event) : State := (follow cycle (fun _ _ => True) is blank).getD blank

theorem any_after {is : List Event} (h : (follow cycle (fun _ _ => True) is blank).isSome) :
    Any (fun s e t => cycle s e = some t) blank is (after is) := by
  obtain ⟨t, ht⟩ := Option.isSome_iff_exists.1 h
  unfold after
  rw [ht]
  exact runs_of_follow ht

def declining : Delta → Option String := fun _ => some "no_such_slot"

def sentOnce (merits : Delta → Option String) : List Event :=
  [.queue (typed 1), .flush 0, .read 0 true, .land 0 merits]

theorem clean_sent : CleanReply (after [.queue (typed 1), .flush 0, .read 0 true])
    [⟨typed 1, 1, none⟩] 0 declining := by
  have hreplies :
      (after [.queue (typed 1), .flush 0, .read 0 true]).server.replies 0 = none := rfl
  have hdeclines : ∀ server r, Declines declining server r := fun _ _ => .inl (fun h => by cases h)
  unfold CleanReply
  rw [hreplies]
  intro _
  constructor
  · intro r hr r' _ _ _
    refine ⟨hdeclines _ _, ?_⟩
    rintro ⟨q, _, hstored, _⟩
    cases hstored
  · exact fun _ _ _ _ _ _ r _ _ _ => hdeclines _ r

theorem runs_declined : Runs (fun s e t => cycle s e = some t) Clean blank
    (sentOnce declining ++ [.forget 0 true]) (after (sentOnce declining ++ [.forget 0 true])) := by
  refine .next trivial (t := after [.queue (typed 1)]) rfl ?_
  refine .next trivial (t := after [.queue (typed 1), .flush 0]) rfl ?_
  refine .next trivial (t := after [.queue (typed 1), .flush 0, .read 0 true]) rfl ?_
  refine .next ?_ (t := after (sentOnce declining)) rfl ?_
  · intro rows carrying h
    have hsending : (after [.queue (typed 1), .flush 0, .read 0 true]).flushes 0 =
        some (.sending [⟨typed 1, 1, none⟩] ⟨0, [1]⟩) := rfl
    rw [hsending] at h
    cases h
    exact clean_sent
  · exact .next trivial rfl (.refl _)

theorem outbox_loses_nothing_on_sample :
    Held (after (sentOnce noMerits ++ [.forget 0 true])).server ⟨typed 1, 1, none⟩ ∧
    ¬ HeldFromDevice (after (sentOnce declining ++ [.forget 0 true, .refuse 0 true]))
      ⟨typed 1, 1, some "no_such_slot"⟩ := by
  constructor
  · refine (outbox_loses_nothing blank opened_blank (sentOnce noMerits) _).1
      (any_after (by decide +kernel)) (.forget 0 true) _ rfl _ ?_ ?_
    · decide +kernel
    · decide +kernel
  · refine (outbox_loses_nothing blank opened_blank (sentOnce declining ++ [.forget 0 true]) _).2
      runs_declined (.refuse 0 true) _ rfl _ ?_ ?_ ?_
    · decide +kernel
    · decide +kernel
    · decide +kernel

def lostReply : List Event :=
  [.queue (typed 1), .flush 0, .read 0 true, .land 0 noMerits, .lose 0, .queue (typed 2),
    .flush 1, .read 1 true, .land 1 noMerits, .forget 1 true]

/-- The server holds the second keystroke, and the device marks it refused. -/
theorem stored_row_is_marked : ∃ is s e t x,
    Any (fun s e t => cycle s e = some t) blank is s ∧ cycle s e = some t ∧ x ∈ t.disk ∧
      x.refused = some "stale_seq" ∧ (∀ y ∈ s.disk, Same y x → y.refused = none) ∧
      t.server.answers x.slot = some (x.clientSeq, x.response) ∧ HeldFromDevice t x := by
  refine ⟨lostReply, after lostReply, .refuse 1 true, after (lostReply ++ [.refuse 1 true]),
    ⟨typed 2, 2, some "stale_seq"⟩, any_after ?_, rfl, ?_, rfl, ?_, ?_, ?_⟩
  · decide +kernel
  · decide +kernel
  · decide +kernel
  · decide +kernel
  · decide +kernel

end IeltsHub.OutboxAlarms
