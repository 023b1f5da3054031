import IeltsHub.AnswerOutbox
import IeltsHub.GuardedRuns

set_option autoImplicit false

/-!
# Nothing is dropped undelivered

What a flush deletes the server has stored. The clear-down after a submit deletes whatever is on
the disk, so it is safe exactly where the flow's last read found every waiting row and the server
took the body that carried them.
-/
namespace IeltsHub.SubmitFlow
open PyDict PyValue LatestWins AnswerOutbox GuardedRuns

/-! ## What one request carries -/

/-- The newest rows of the slots met so far. -/
structure Newest (newest : Dict (String × String) Row) (met : List Row) : Prop where
  own : ∀ k t, newest.get? k = some t → t.slot = k ∧ t ∈ met
  covers : ∀ x ∈ met, ∃ t, newest.get? x.slot = some t ∧ x.clientSeq ≤ t.clientSeq

theorem newest_empty : Newest Dict.empty [] where
  own := by
    intro k t h
    cases h
  covers := by
    intro x hx
    cases hx

theorem get?_keepNewest (newest : Dict (String × String) Row) (row : Row)
    (k : String × String) :
    (keepNewest newest row).get? k =
      if k = row.slot ∧ ∀ held ∈ newest.get? k, held.clientSeq < row.clientSeq then some row
      else newest.get? k := by
  unfold keepNewest
  by_cases hk : k = row.slot
  · subst hk
    cases h : newest.get? row.slot with
    | none => simp
    | some held =>
      by_cases hlt : held.clientSeq < row.clientSeq
      · simp [hlt]
      · simp [hlt, h]
  · have hne : row.slot ≠ k := fun q => hk q.symm
    cases h : newest.get? row.slot with
    | none => simp [hk, Dict.get?_put_of_ne _ _ hne]
    | some held =>
      by_cases hlt : held.clientSeq < row.clientSeq
      · simp [hk, hlt, Dict.get?_put_of_ne _ _ hne]
      · simp [hk, hlt]

theorem Newest.step {newest : Dict (String × String) Row} {met : List Row}
    (h : Newest newest met) (row : Row) : Newest (keepNewest newest row) (met ++ [row]) where
  own := by
    intro k t ht
    rw [get?_keepNewest] at ht
    split at ht
    · next hk =>
      cases ht
      exact ⟨hk.1.symm, by simp⟩
    · obtain ⟨hslot, hmem⟩ := h.own k t ht
      exact ⟨hslot, by simp [hmem]⟩
  covers := by
    intro x hx
    rw [get?_keepNewest]
    split
    · next hk =>
      refine ⟨row, rfl, ?_⟩
      rcases List.mem_append.1 hx with hx | hx
      · obtain ⟨t, ht, hle⟩ := h.covers x hx
        have := hk.2 t ht
        omega
      · rw [List.mem_singleton.1 hx]
    · next hk =>
      rcases List.mem_append.1 hx with hx | hx
      · exact h.covers x hx
      · rw [List.mem_singleton.1 hx] at hk ⊢
        rw [not_and] at hk
        have hk := hk rfl
        push Not at hk
        obtain ⟨held, hheld, hle⟩ := hk
        exact ⟨held, hheld, hle⟩

theorem newest_foldl (rows : List Row) : Newest (rows.foldl keepNewest Dict.empty) rows := by
  induction rows using List.reverseRecOn with
  | nil => exact newest_empty
  | append_singleton rows row ih =>
    rw [List.foldl_append]
    exact ih.step row

theorem mem_collapse {rows : List Row} {t : Row} :
    t ∈ collapse rows ↔ (rows.foldl keepNewest Dict.empty).get? t.slot = some t := by
  unfold collapse
  rw [List.mem_mergeSort, Dict.values, List.mem_map]
  constructor
  · rintro ⟨⟨k, u⟩, hu, rfl⟩
    have hget := Dict.get?_eq_some.2 hu
    rw [((newest_foldl rows).own k u hget).1]
    exact hget
  · intro h
    exact ⟨(t.slot, t), Dict.get?_eq_some.1 h, rfl⟩

theorem length_collapse {rows : List Row} {paper : List (String × String)}
    (h : ∀ x ∈ rows, x.slot ∈ paper) : (collapse rows).length ≤ paper.length := by
  unfold collapse
  rw [List.length_mergeSort, Dict.values, List.length_map, ← Dict.length_keys]
  apply (List.subperm_of_subset (Dict.keys_nodup _) _).length_le
  intro k hk
  obtain ⟨t, ht⟩ := Dict.mem_keys.1 hk
  obtain ⟨hslot, hmem⟩ := (newest_foldl rows).own k t ht
  rw [← hslot]
  exact h t hmem

theorem mem_of_mem_bodyOf {rows : List Row} {t : Row} (h : t ∈ bodyOf rows) : t ∈ rows := by
  have h := List.mem_of_mem_take h
  split at h
  · exact ((newest_foldl rows).own _ t (mem_collapse.1 h)).2
  · exact h

theorem bodyOf_covers {rows : List Row} {paper : List (String × String)}
    (hpaper : paper.length ≤ maxBatch) (h : ∀ x ∈ rows, x.slot ∈ paper) {x : Row}
    (hx : x ∈ rows) : ∃ t ∈ bodyOf rows, t.slot = x.slot ∧ x.clientSeq ≤ t.clientSeq := by
  unfold bodyOf batch
  split
  · rw [List.take_of_length_le ((length_collapse h).trans hpaper)]
    obtain ⟨t, ht, hle⟩ := (newest_foldl rows).covers x hx
    have hslot := ((newest_foldl rows).own _ t ht).1
    exact ⟨t, mem_collapse.2 (by rw [hslot]; exact ht), hslot, hle⟩
  · next hlen =>
    rw [List.take_of_length_le (by omega)]
    exact ⟨x, hx, rfl, le_rfl⟩

/-! ## What the server has judged -/

/-- The server took the row up, and stored it or declined it. -/
def Judged (server : Server) (id : ℕ) : Prop := id ∈ server.stored ∨ id ∈ server.declined

/-- Stored, declined, or superseded by a stored row of a higher number for its slot. -/
def Settled (server : Server) (x : Row) : Prop :=
  Judged server x.id ∨ ∃ p ∈ server.answers x.slot, x.clientSeq < p.1

structure Grows (a b : Server) : Prop where
  stored : a.stored ⊆ b.stored
  declined : a.declined ⊆ b.declined
  answers : ∀ k p, a.answers k = some p → ∃ q, b.answers k = some q ∧ p.1 ≤ q.1

theorem Grows.refl (a : Server) : Grows a a := ⟨fun _ h => h, fun _ h => h, fun _ p h => ⟨p, h, le_rfl⟩⟩

theorem Grows.trans {a b c : Server} (h : Grows a b) (h' : Grows b c) : Grows a c where
  stored := fun _ hi => h'.stored (h.stored hi)
  declined := fun _ hi => h'.declined (h.declined hi)
  answers := by
    intro k p hp
    obtain ⟨q, hq, hpq⟩ := h.answers k p hp
    obtain ⟨r, hr, hqr⟩ := h'.answers k q hq
    exact ⟨r, hr, hpq.trans hqr⟩

theorem Judged.grows {a b : Server} {id : ℕ} (h : Judged a id) (hab : Grows a b) : Judged b id :=
  h.imp (fun h => hab.stored h) (fun h => hab.declined h)

theorem Settled.grows {a b : Server} {x : Row} (h : Settled a x) (hab : Grows a b) :
    Settled b x := by
  rcases h with h | ⟨p, hp, hlt⟩
  · exact .inl (h.grows hab)
  · obtain ⟨q, hq, hle⟩ := hab.answers _ p hp
    exact .inr ⟨q, hq, by omega⟩

/-- A reply tells of every row it is about: judged, and stored unless its slot is named. -/
def Answers (server : Server) (rows : List Row) (rejected : List Rejection) : Prop :=
  ∀ r ∈ rows, Judged server r.id ∧
    (r.slot ∉ rejected.map Rejection.slot → r.id ∈ server.stored)

theorem Answers.grows {a b : Server} {rows : List Row} {rejected : List Rejection}
    (h : Answers a rows rejected) (hab : Grows a b) : Answers b rows rejected :=
  fun r hr => ⟨(h r hr).1.grows hab, fun hn => hab.stored ((h r hr).2 hn)⟩

/-- What the server does with one delta. -/
structure SavedOne (merits : Delta → Option String) (r : Row) (a b : Server × List Rejection) :
    Prop where
  grows : Grows a.1 b.1
  rejected : a.2 <+: b.2
  judged : Judged b.1 r.id
  named : r.slot ∉ b.2.map Rejection.slot → r.id ∈ b.1.stored
  held : merits r.toDelta = none → ∃ p, b.1.answers r.slot = some p ∧ r.clientSeq ≤ p.1

theorem grows_declined (a : Server) (id : ℕ) :
    Grows a { a with declined := id :: a.declined } :=
  ⟨fun _ h => h, fun _ h => List.mem_cons_of_mem _ h, fun _ p h => ⟨p, h, le_rfl⟩⟩

theorem grows_stored (a : Server) (r : Row) :
    Grows a { a with
      answers := offer a.answers (writeOf r.toDelta)
      stored := r.id :: a.stored } :=
  ⟨fun _ h => List.mem_cons_of_mem _ h, fun _ h => h,
    fun _ _ h => offer_mono a.answers (writeOf r.toDelta) h⟩

theorem saveOne_saved (merits : Delta → Option String) (a : Server × List Rejection) (r : Row) :
    SavedOne merits r a (saveOne merits a r) := by
  have hnamed : ∀ reason, r.slot ∈ (a.2 ++ [r.rejection reason]).map Rejection.slot := by
    intro reason
    simp [Row.rejection, Rejection.slot, Delta.slot]
  unfold saveOne
  cases hm : merits r.toDelta with
  | some reason =>
    exact ⟨grows_declined a.1 r.id, List.prefix_append _ _, .inr List.mem_cons_self,
      fun h => absurd (hnamed reason) h, fun h => by rw [hm] at h; cases h⟩
  | none =>
    by_cases hs : Stale a.1.answers (writeOf r.toDelta)
    · simp only [if_pos hs]
      refine ⟨grows_declined a.1 r.id, List.prefix_append _ _, .inr List.mem_cons_self,
        fun h => absurd (hnamed "stale_seq") h, fun _ => ?_⟩
      obtain ⟨p, hp, hle⟩ := hs
      exact ⟨p, hp, hle⟩
    · simp only [if_neg hs]
      refine ⟨grows_stored a.1 r, List.prefix_rfl, .inl List.mem_cons_self,
        fun _ => List.mem_cons_self, fun _ => ⟨(r.clientSeq, r.response), ?_, le_rfl⟩⟩
      unfold offer
      rw [if_neg hs]
      exact Function.update_self _ _ _

theorem saveOne_same (merits : Delta → Option String) (a : Server × List Rejection) (r : Row) :
    (saveOne merits a r).1.replies = a.1.replies ∧ (saveOne merits a r).1.isOpen = a.1.isOpen := by
  unfold saveOne
  split
  · exact ⟨rfl, rfl⟩
  · split <;> exact ⟨rfl, rfl⟩

theorem foldl_saveOne (merits : Delta → Option String) (rows : List Row)
    (a : Server × List Rejection) :
    Grows a.1 (rows.foldl (saveOne merits) a).1 ∧
      a.2 <+: (rows.foldl (saveOne merits) a).2 ∧
      (rows.foldl (saveOne merits) a).1.replies = a.1.replies ∧
      ∀ r ∈ rows, SavedOne merits r a (rows.foldl (saveOne merits) a) := by
  induction rows generalizing a with
  | nil => exact ⟨.refl _, List.prefix_rfl, rfl, fun r hr => by cases hr⟩
  | cons x rows ih =>
    have hx := saveOne_saved merits a x
    obtain ⟨hgrows, hrejected, hreplies, hrows⟩ := ih (saveOne merits a x)
    refine ⟨hx.grows.trans hgrows, hx.rejected.trans hrejected,
      hreplies.trans (saveOne_same merits a x).1, ?_⟩
    intro r hr
    rcases List.mem_cons.1 hr with rfl | hr
    · refine ⟨hx.grows.trans hgrows, hx.rejected.trans hrejected, hx.judged.grows hgrows, ?_, ?_⟩
      · intro hn
        apply hgrows.stored
        apply hx.named
        intro hm
        exact hn ((hrejected.map Rejection.slot).subset hm)
      · intro hm
        obtain ⟨p, hp, hle⟩ := hx.held hm
        obtain ⟨q, hq, hpq⟩ := hgrows.answers _ p hp
        exact ⟨q, hq, by omega⟩
    · have hr := hrows r hr
      exact ⟨hx.grows.trans hr.grows, hx.rejected.trans hr.rejected, hr.judged, hr.named, hr.held⟩

theorem saveAnswers_spec (merits : Delta → Option String) (server : Server) (rows : List Row) :
    Grows server (saveAnswers merits server rows).1 ∧
      (saveAnswers merits server rows).1.replies = server.replies ∧
      ∀ r ∈ rows, SavedOne merits r (server, []) (saveAnswers merits server rows) := by
  obtain ⟨hgrows, _, hreplies, hrows⟩ := foldl_saveOne merits rows (server, [])
  exact ⟨hgrows, hreplies, hrows⟩

theorem saveAnswers_answers (merits : Delta → Option String) (server : Server)
    (rows : List Row) :
    Answers (saveAnswers merits server rows).1 rows (saveAnswers merits server rows).2 :=
  fun r hr => ⟨((saveAnswers_spec merits server rows).2.2 r hr).judged,
    ((saveAnswers_spec merits server rows).2.2 r hr).named⟩

/-! ## What holds in every run -/

/-- Two readings of one row: the mark apart, a row never changes. -/
def Same (y x : Row) : Prop := y.id = x.id ∧ y.toDelta = x.toDelta

theorem Settled.same {server : Server} {x y : Row} (h : Settled server y) (hxy : Same y x) :
    Settled server x := by
  unfold Settled at *
  rw [← hxy.1, ← hxy.2]
  exact h

def Bound (s : State) (c : InFlight) : Prop := c.key < s.minted ∧ s.boundTo c.key = c.ids

def FlushOk (s : State) : Flush → Prop
  | .starting inFlight => ∀ c ∈ inFlight, Bound s c
  | .sending rows carrying => Bound s carrying ∧ rows.map Row.id = carrying.ids
  | .answered rows carrying rejected => Bound s carrying ∧ Answers s.server rows rejected
  | .refusing marks => ∀ m ∈ marks, Judged s.server m.1
  | .readingBack | .done _ => True

theorem FlushOk.mono {s t : State} {f : Flush} (h : FlushOk s f)
    (hkeys : ∀ c, Bound s c → Bound t c) (hgrows : Grows s.server t.server) : FlushOk t f := by
  cases f with
  | starting inFlight => exact fun c hc => hkeys c (h c hc)
  | sending rows carrying => exact ⟨hkeys carrying h.1, h.2⟩
  | answered rows carrying rejected => exact ⟨hkeys carrying h.1, h.2.grows hgrows⟩
  | refusing marks => exact fun m hm => (h m hm).grows hgrows
  | readingBack => trivial
  | done drained => trivial

structure Base (s : State) : Prop where
  ids : (s.queued.map Row.id).Nodup
  fresh : ∀ q ∈ s.queued, q.id < s.nextId
  disk : ∀ x ∈ s.disk, ∃ q ∈ s.queued, Same q x
  marks : ∀ x ∈ s.disk, x.refused ≠ none → Judged s.server x.id
  inFlight : ∀ c ∈ s.inFlight, Bound s c
  replies : ∀ k rows rejected, s.server.replies k = some (rows, rejected) →
    Bound s ⟨k, rows.map Row.id⟩ ∧ Answers s.server rows rejected
  flushes : ∀ t f, s.flushes t = some f → FlushOk s f

/-- What a step that queues nothing and is not the clear-down does. -/
structure Moves (s t : State) : Prop where
  queued : t.queued = s.queued
  nextId : t.nextId = s.nextId
  keys : ∀ c, Bound s c → Bound t c
  server : Grows s.server t.server
  disk : ∀ x ∈ t.disk, ∃ y ∈ s.disk, Same y x ∧
    (x.refused ≠ none → y.refused ≠ none ∨ Judged t.server x.id)
  kept : ∀ y ∈ s.disk, (∃ x ∈ t.disk, Same y x) ∨ y.id ∈ t.server.stored
  inFlight : ∀ c ∈ t.inFlight, Bound t c
  replies : ∀ k rows rejected, t.server.replies k = some (rows, rejected) →
    s.server.replies k = some (rows, rejected) ∨
      Bound t ⟨k, rows.map Row.id⟩ ∧ Answers t.server rows rejected
  flushes : ∀ u f, t.flushes u = some f → s.flushes u = some f ∨ FlushOk t f

theorem Moves.base {s t : State} (h : Moves s t) (hs : Base s) : Base t where
  ids := by
    rw [h.queued]
    exact hs.ids
  fresh := by
    rw [h.queued, h.nextId]
    exact hs.fresh
  disk := by
    intro x hx
    obtain ⟨y, hy, hyx, _⟩ := h.disk x hx
    obtain ⟨q, hq, hqy⟩ := hs.disk y hy
    rw [h.queued]
    exact ⟨q, hq, hqy.1.trans hyx.1, hqy.2.trans hyx.2⟩
  marks := by
    intro x hx hm
    obtain ⟨y, hy, hyx, hmarked⟩ := h.disk x hx
    rcases hmarked hm with hy' | hj
    · rw [← hyx.1]
      exact (hs.marks y hy hy').grows h.server
    · exact hj
  inFlight := h.inFlight
  replies := by
    intro k rows rejected hk
    rcases h.replies k rows rejected hk with hk | hk
    · obtain ⟨hb, ha⟩ := hs.replies k rows rejected hk
      exact ⟨h.keys _ hb, ha.grows h.server⟩
    · exact hk
  flushes := by
    intro u f hu
    rcases h.flushes u f hu with hu | hu
    · exact (hs.flushes u f hu).mono h.keys h.server
    · exact hu

theorem same_refl (x : Row) : Same x x := ⟨rfl, rfl⟩

theorem disk_kept (s : State) (server : Server) :
    (∀ x ∈ s.disk, ∃ y ∈ s.disk, Same y x ∧
      (x.refused ≠ none → y.refused ≠ none ∨ Judged server x.id)) ∧
    ∀ y ∈ s.disk, (∃ x ∈ s.disk, Same y x) ∨ y.id ∈ server.stored :=
  ⟨fun x hx => ⟨x, hx, same_refl x, fun h => .inl h⟩, fun y hy => .inl ⟨y, hy, same_refl y⟩⟩

theorem put_flushes {s t : State} {u : ℕ} {f : Flush} (hf : FlushOk t f)
    (ht : t.flushes = Function.update s.flushes u (some f)) :
    ∀ v g, t.flushes v = some g → s.flushes v = some g ∨ FlushOk t g := by
  intro v g hv
  rw [ht] at hv
  by_cases huv : v = u
  · rw [huv, Function.update_self] at hv
    cases hv
    exact .inr hf
  · rw [Function.update_of_ne huv] at hv
    exact .inl hv

theorem moves_put {s : State} (u : ℕ) (f : Flush) (c : Option InFlight)
    (flow : Flow) (hf : FlushOk s f) (hc : ∀ d ∈ c, Bound s d) :
    Moves s { s.put u f with inFlight := c, flow := flow } where
  queued := rfl
  nextId := rfl
  keys := fun _ h => h
  server := .refl _
  disk := (disk_kept s s.server).1
  kept := (disk_kept s s.server).2
  inFlight := hc
  replies := fun _ _ _ h => .inl h
  flushes := put_flushes (t := { s.put u f with inFlight := c, flow := flow })
    (hf.mono (fun _ h => h) (.refl _)) rfl

theorem flushKey_cases (previous : Option InFlight) (ids : List ℕ) (mint : ℕ) :
    (flushKey previous ids mint).1.ids = ids ∧
      (((flushKey previous ids mint).1 ∈ previous ∧ (flushKey previous ids mint).2 = mint) ∨
        ((flushKey previous ids mint).1.key = mint ∧
          (flushKey previous ids mint).2 = mint + 1)) := by
  unfold flushKey
  cases previous with
  | none => exact ⟨rfl, .inr ⟨rfl, rfl⟩⟩
  | some held =>
    by_cases h : held.ids = ids
    · simp [h]
    · simp [h]

theorem moves_sending {s : State} (hs : Base s) (u : ℕ) (c : Option InFlight) (rows : List Row)
    (hc : ∀ d ∈ c, Bound s d) :
    Moves s { s.put u (.sending rows (flushKey c (rows.map Row.id) s.minted).1) with
      minted := (flushKey c (rows.map Row.id) s.minted).2
      boundTo := Function.update s.boundTo (flushKey c (rows.map Row.id) s.minted).1.key
        (rows.map Row.id) } := by
  obtain ⟨hids, hkey⟩ := flushKey_cases c (rows.map Row.id) s.minted
  generalize flushKey c (rows.map Row.id) s.minted = key at hids hkey ⊢
  have hkeys : ∀ d, Bound s d → Bound { s.put u (.sending rows key.1) with
      minted := key.2, boundTo := Function.update s.boundTo key.1.key (rows.map Row.id) } d := by
    intro d hd
    rcases hkey with ⟨hmem, hmint⟩ | ⟨hnew, hmint⟩
    · refine ⟨by rw [hmint]; exact hd.1, ?_⟩
      change Function.update s.boundTo key.1.key (rows.map Row.id) d.key = d.ids
      by_cases hdk : d.key = key.1.key
      · rw [hdk, Function.update_self, ← hd.2, hdk, (hc _ hmem).2, hids]
      · rw [Function.update_of_ne hdk]
        exact hd.2
    · have hlt := hd.1
      refine ⟨?_, ?_⟩
      · change d.key < key.2
        omega
      · change Function.update s.boundTo key.1.key (rows.map Row.id) d.key = d.ids
        rw [Function.update_of_ne (by omega)]
        exact hd.2
  have hbound : Bound { s.put u (.sending rows key.1) with
      minted := key.2, boundTo := Function.update s.boundTo key.1.key (rows.map Row.id) }
      key.1 := by
    refine ⟨?_, ?_⟩
    · change key.1.key < key.2
      rcases hkey with ⟨hmem, hmint⟩ | ⟨hnew, hmint⟩
      · have := (hc _ hmem).1
        omega
      · omega
    · change Function.update s.boundTo key.1.key (rows.map Row.id) key.1.key = key.1.ids
      rw [Function.update_self, hids]
  exact
    { queued := rfl
      nextId := rfl
      keys := hkeys
      server := .refl _
      disk := (disk_kept s s.server).1
      kept := (disk_kept s s.server).2
      inFlight := fun d hd => hkeys d (hs.inFlight d hd)
      replies := fun _ _ _ h => .inl h
      flushes := put_flushes (f := .sending rows key.1) ⟨hbound, hids.symm⟩ rfl }

theorem same_rows {rows sent : List Row} (hids : sent.map Row.id = rows.map Row.id)
    (hbody : sent.map Row.toDelta = rows.map Row.toDelta) :
    ∀ r ∈ rows, ∃ r' ∈ sent, Same r' r := by
  intro r hr
  obtain ⟨i, hi, rfl⟩ := List.mem_iff_getElem.1 hr
  have hlen : sent.length = rows.length := by
    have := congrArg List.length hids
    simpa using this
  have hi' : i < sent.length := by omega
  refine ⟨sent[i], List.getElem_mem hi', ?_, ?_⟩
  · have := congrArg (fun l => l[i]?) hids
    simpa [List.getElem?_eq_getElem hi, List.getElem?_eq_getElem hi'] using this
  · have := congrArg (fun l => l[i]?) hbody
    simpa [List.getElem?_eq_getElem hi, List.getElem?_eq_getElem hi'] using this

theorem postAnswers_spec {s : State} (hs : Base s) {merits : Delta → Option String}
    {rows : List Row} {c : InFlight} {server : Server} {rejected : List Rejection}
    (hc : Bound s c) (hids : rows.map Row.id = c.ids)
    (h : postAnswers merits s.server c.key rows = some (server, rejected)) :
    Grows s.server server ∧ Answers server rows rejected ∧
      ∀ k sent named, server.replies k = some (sent, named) →
        s.server.replies k = some (sent, named) ∨
          Bound s ⟨k, sent.map Row.id⟩ ∧ Answers server sent named := by
  unfold postAnswers at h
  cases hk : s.server.replies c.key with
  | some reply =>
    obtain ⟨sent, named⟩ := reply
    rw [hk] at h
    simp only at h
    split at h
    · next hbody =>
      cases h
      obtain ⟨hb, ha⟩ := hs.replies c.key sent rejected hk
      refine ⟨.refl _, ?_, fun k sent named hr => .inl hr⟩
      intro r hr
      have hsame : sent.map Row.id = rows.map Row.id := by
        rw [hids, ← hc.2]
        exact hb.2.symm
      obtain ⟨r', hr', hid, hdelta⟩ := same_rows hsame hbody r hr
      obtain ⟨hj, hn⟩ := ha r' hr'
      rw [hid] at hj hn
      rw [hdelta] at hn
      exact ⟨hj, hn⟩
    · cases h
  | none =>
    rw [hk] at h
    simp only at h
    split at h
    · cases h
      obtain ⟨hgrows, hreplies, _⟩ := saveAnswers_spec merits s.server rows
      have ha := saveAnswers_answers merits s.server rows
      have hsame : Grows (saveAnswers merits s.server rows).1
          { (saveAnswers merits s.server rows).1 with
            replies := Function.update (saveAnswers merits s.server rows).1.replies c.key
              (some (rows, (saveAnswers merits s.server rows).2)) } :=
        ⟨fun _ h => h, fun _ h => h, fun _ p h => ⟨p, h, le_rfl⟩⟩
      refine ⟨hgrows.trans hsame, ha.grows hsame, ?_⟩
      intro k sent named hr
      change Function.update (saveAnswers merits s.server rows).1.replies c.key
        (some (rows, (saveAnswers merits s.server rows).2)) k = some (sent, named) at hr
      by_cases hkc : k = c.key
      · rw [hkc, Function.update_self] at hr
        cases hr
        refine .inr ⟨?_, ha.grows hsame⟩
        rw [hkc, hids]
        exact hc
      · rw [Function.update_of_ne hkc, hreplies] at hr
        exact .inl hr
    · cases h

theorem moves_land {s : State} (hs : Base s) {u : ℕ} {merits : Delta → Option String}
    {rows : List Row} {c : InFlight} {server : Server} {rejected : List Rejection}
    (hc : Bound s c) (hids : rows.map Row.id = c.ids)
    (h : postAnswers merits s.server c.key rows = some (server, rejected)) :
    Moves s { s.put u (.answered rows c rejected) with server := server } := by
  obtain ⟨hgrows, ha, hreplies⟩ := postAnswers_spec hs hc hids h
  exact
    { queued := rfl
      nextId := rfl
      keys := fun _ h => h
      server := hgrows
      disk := (disk_kept s server).1
      kept := (disk_kept s server).2
      inFlight := hs.inFlight
      replies := hreplies
      flushes := put_flushes (f := .answered rows c rejected) ⟨hc, ha⟩ rfl }

/-! ### What a flush does to the disk -/

theorem mem_forget {ids : List ℕ} {disk : List Row} {x : Row} :
    x ∈ forget ids disk ↔ x ∈ disk ∧ x.id ∉ ids := by
  unfold forget
  rw [List.mem_filter, decide_eq_true_eq]

theorem get?_refusedSlots {rejected : List Rejection} {slot : String × String} :
    ((refusedSlots rejected).get? slot).isNone ↔ slot ∉ rejected.map Rejection.slot := by
  rw [Option.isNone_iff_eq_none, ← Option.not_isSome_iff_eq_none, refusedSlots,
    Dict.isSome_get?_ofList, List.map_map]
  rfl

theorem partition_spec {server : Server} {rows : List Row} {rejected : List Rejection}
    (h : Answers server rows rejected) :
    (∀ i ∈ (partition rows rejected).1, i ∈ server.stored) ∧
      ∀ m ∈ (partition rows rejected).2, Judged server m.1 := by
  constructor
  · intro i hi
    obtain ⟨r, hr, rfl⟩ := List.mem_map.1 hi
    obtain ⟨hr, hnone⟩ := List.mem_filter.1 hr
    exact (h r hr).2 (get?_refusedSlots.1 hnone)
  · intro m hm
    obtain ⟨r, hr, hmark⟩ := List.mem_filterMap.1 hm
    obtain ⟨why, _, rfl⟩ := Option.map_eq_some_iff.1 hmark
    exact (h r hr).1

theorem moves_forget {s : State} (hs : Base s) {u : ℕ} {rows : List Row}
    {rejected : List Rejection} (ha : Answers s.server rows rejected) :
    Moves s { s.put u (.refusing (partition rows rejected).2) with
      disk := forget (partition rows rejected).1 s.disk } where
  queued := rfl
  nextId := rfl
  keys := fun _ h => h
  server := .refl _
  disk := fun x hx => ⟨x, (mem_forget.1 hx).1, same_refl x, fun h => .inl h⟩
  kept := by
    intro y hy
    by_cases hi : y.id ∈ (partition rows rejected).1
    · exact .inr ((partition_spec ha).1 y.id hi)
    · exact .inl ⟨y, mem_forget.2 ⟨hy, hi⟩, same_refl y⟩
  inFlight := hs.inFlight
  replies := fun _ _ _ h => .inl h
  flushes := put_flushes (f := .refusing (partition rows rejected).2) (partition_spec ha).2 rfl

theorem refuse_spec (marks : List (ℕ × String)) (disk : List Row) :
    (∀ x ∈ refuse marks disk, ∃ y ∈ disk, Same y x ∧
      (x.refused ≠ none → y.refused ≠ none ∨ x.id ∈ marks.map Prod.fst)) ∧
    ∀ y ∈ disk, ∃ x ∈ refuse marks disk, Same y x := by
  unfold refuse
  induction marks generalizing disk with
  | nil =>
    exact ⟨fun x hx => ⟨x, hx, same_refl x, fun h => .inl h⟩, fun y hy => ⟨y, hy, same_refl y⟩⟩
  | cons m marks ih =>
    obtain ⟨hback, hforth⟩ := ih (refuseOne m disk)
    rw [List.foldl_cons]
    constructor
    · intro x hx
      obtain ⟨y, hy, hyx, hmarked⟩ := hback x hx
      obtain ⟨z, hz, rfl⟩ := List.mem_map.1 hy
      by_cases hid : z.id = m.1
      · rw [if_pos hid] at hyx
        exact ⟨z, hz, hyx, fun _ => .inr (by simp [← hyx.1, hid])⟩
      · rw [if_neg hid] at hyx hmarked
        refine ⟨z, hz, hyx, fun h => (hmarked h).imp_right (fun hm => ?_)⟩
        exact List.mem_cons_of_mem _ hm
    · intro y hy
      obtain ⟨x, hx, hyx⟩ := hforth (if y.id = m.1 then { y with refused := some m.2 } else y)
        (List.mem_map.2 ⟨y, hy, rfl⟩)
      refine ⟨x, hx, ?_⟩
      split at hyx <;> exact hyx

theorem moves_refuse {s : State} (hs : Base s) {u : ℕ} {marks : List (ℕ × String)}
    (hm : ∀ m ∈ marks, Judged s.server m.1) :
    Moves s { s.put u .readingBack with disk := refuse marks s.disk } where
  queued := rfl
  nextId := rfl
  keys := fun _ h => h
  server := .refl _
  disk := by
    intro x hx
    obtain ⟨y, hy, hyx, hmarked⟩ := (refuse_spec marks s.disk).1 x hx
    refine ⟨y, hy, hyx, fun h => (hmarked h).imp_right (fun hi => ?_)⟩
    obtain ⟨m, hmem, hid⟩ := List.mem_map.1 hi
    rw [← hid]
    exact hm m hmem
  kept := fun y hy => .inl ((refuse_spec marks s.disk).2 y hy)
  inFlight := hs.inFlight
  replies := fun _ _ _ h => .inl h
  flushes := put_flushes (f := .readingBack) trivial rfl

/-! ### One step -/

theorem readWaiting_moves {s : State} (hs : Base s) {u : ℕ} {c : Option InFlight} (ok : Bool)
    (hc : ∀ d ∈ c, Bound s d) : Moves s (readWaiting s u c ok) := by
  unfold readWaiting
  split
  · split
    · exact moves_put u (.done true) c s.flow trivial hc
    · exact moves_sending hs u c _ hc
  · exact moves_put u (.done false) s.inFlight s.flow trivial hs.inFlight

theorem stepFlush_moves {s t : State} (hs : Base s) {u : ℕ} {e : Event}
    (h : stepFlush s u e = some t) : Moves s t := by
  have hdone : ∀ drained, Moves s (s.put u (.done drained)) := fun drained =>
    moves_put u (.done drained) s.inFlight s.flow trivial hs.inFlight
  have hlost : ∀ c, Bound s c → Moves s { s.put u (.done false) with inFlight := some c } := by
    intro c hc
    refine moves_put u (.done false) (some c) s.flow trivial ?_
    intro d hd
    cases hd
    exact hc
  unfold stepFlush at h
  split at h
  · next inFlight v ok hf =>
    cases h
    exact readWaiting_moves hs ok (hs.flushes u _ hf)
  · next rows carrying v merits hf =>
    have hok : FlushOk s (.sending rows carrying) := hs.flushes u _ hf
    split at h
    · next server rejected hpost =>
      cases h
      exact moves_land hs hok.1 hok.2 hpost
    · cases h
      exact hlost carrying hok.1
  · next rows carrying v hf =>
    have hok : FlushOk s (.sending rows carrying) := hs.flushes u _ hf
    cases h
    exact hlost carrying hok.1
  · next rows carrying rejected v hf =>
    have hok : FlushOk s (.answered rows carrying rejected) := hs.flushes u _ hf
    cases h
    exact hlost carrying hok.1
  · next rows carrying rejected v ok hf =>
    have hok : FlushOk s (.answered rows carrying rejected) := hs.flushes u _ hf
    cases h
    unfold forgetTaken
    split
    · exact moves_forget hs hok.2
    · exact hdone false
  · next marks v ok hf =>
    split at h
    · cases h
      exact moves_refuse hs (hs.flushes u _ hf)
    · cases h
      exact hdone false
  · next v ok hf =>
    split at h
    · cases h
      exact moves_put u (.done _) none s.flow trivial (fun c hc => by cases hc)
    · cases h
      exact hdone false
  · cases h

theorem readWaiting_flow (s : State) (u : ℕ) (c : Option InFlight) (ok : Bool) :
    (readWaiting s u c ok).flow = s.flow := by
  unfold readWaiting
  split
  · split <;> rfl
  · rfl

theorem forgetTaken_flow (s : State) (u : ℕ) (rows : List Row) (rejected : List Rejection)
    (ok : Bool) : (forgetTaken s u rows rejected ok).flow = s.flow := by
  unfold forgetTaken
  split <;> rfl

theorem stepFlush_flow {s t : State} {u : ℕ} {e : Event} (h : stepFlush s u e = some t) :
    t.flow = s.flow := by
  unfold stepFlush at h
  split at h
  · cases h
    exact readWaiting_flow s u _ _
  · split at h <;> cases h <;> rfl
  · cases h
    rfl
  · cases h
    rfl
  · cases h
    exact forgetTaken_flow s u _ _ _
  · split at h <;> cases h <;> rfl
  · split at h <;> cases h <;> rfl
  · cases h

theorem start_moves {s t : State} (hs : Base s) {u : ℕ} (flow : Flow) (h : start s u = some t) :
    Moves s { t with flow := flow } ∧ t.flow = s.flow := by
  unfold start at h
  split at h
  · cases h
    exact ⟨moves_put u (.starting s.inFlight) s.inFlight flow hs.inFlight hs.inFlight, rfl⟩
  · cases h

theorem moves_server {s : State} (hs : Base s) {server : Server} (flow : Flow)
    (hgrows : Grows s.server server) (hreplies : server.replies = s.server.replies) :
    Moves s { s with server := server, flow := flow } where
  queued := rfl
  nextId := rfl
  keys := fun _ h => h
  server := hgrows
  disk := (disk_kept s server).1
  kept := (disk_kept s server).2
  inFlight := hs.inFlight
  replies := by
    intro k rows rejected h
    change server.replies k = some (rows, rejected) at h
    rw [hreplies] at h
    exact .inl h
  flushes := fun _ _ h => .inl h

theorem postSubmit_grows (merits : Delta → Option String) (server : Server) (body : List Row) :
    Grows server (postSubmit merits server body) ∧
      (postSubmit merits server body).replies = server.replies := by
  unfold postSubmit
  split
  · obtain ⟨hgrows, hreplies, _⟩ := saveAnswers_spec merits server body
    refine ⟨hgrows.trans ⟨fun _ h => h, fun _ h => h, fun _ p h => ⟨p, h, le_rfl⟩⟩, hreplies⟩
  · exact ⟨.refl _, rfl⟩

theorem stepFlow_moves {s t : State} (hs : Base s) {e : Event} (h : stepFlow s e = some t)
    (hclear : ∀ ok, e ≠ .clear ok) : Moves s t := by
  have hflow : ∀ flow, Moves s { s with flow := flow } := fun flow =>
    moves_server hs flow (.refl _) rfl
  unfold stepFlow at h
  split at h
  · next u _ =>
    obtain ⟨v, hv, rfl⟩ := Option.map_eq_some_iff.1 h
    exact (start_moves hs (.first u) hv).1
  · next u v _ =>
    split at h
    · cases h
      exact hflow _
    · obtain ⟨w, hw, rfl⟩ := Option.map_eq_some_iff.1 h
      exact (start_moves hs (.second v) hw).1
    · cases h
  · split at h
    · cases h
      exact hflow _
    · cases h
      exact hflow _
    · cases h
  · cases h
    exact hflow _
  · next left body merits _ =>
    cases h
    obtain ⟨hgrows, hreplies⟩ := postSubmit_grows merits s.server body
    exact moves_server hs _ hgrows hreplies
  · cases h
    exact hflow _
  · cases h
    exact hflow _
  · cases h
    exact hflow _
  · cases h
    exact hflow _
  · next ids ok _ => exact absurd rfl (hclear ok)
  · cases h

theorem step_moves {s t : State} (hs : Base s) {e : Event} (h : step s e = some t)
    (hqueue : ∀ d, e ≠ .queue d) (hclear : ∀ ok, e ≠ .clear ok) : Moves s t := by
  unfold step at h
  split at h
  · next d => exact absurd rfl (hqueue d)
  · cases h
    exact moves_server hs s.flow ⟨fun _ h => h, fun _ h => h, fun _ p h => ⟨p, h, le_rfl⟩⟩ rfl
  · next u =>
    obtain ⟨hm, hflow⟩ := start_moves hs s.flow h
    rw [← hflow] at hm
    exact hm
  all_goals first
    | exact stepFlush_moves hs h
    | exact stepFlow_moves hs h hclear

theorem base_queue {s : State} (hs : Base s) (d : Delta) : Base (queue s d) where
  ids := by
    change ((s.queued ++ [_]).map Row.id).Nodup
    rw [List.map_append, List.nodup_append]
    refine ⟨hs.ids, List.nodup_singleton _, ?_⟩
    intro i hi j hj
    obtain ⟨q, hq, rfl⟩ := List.mem_map.1 hi
    have hj : j = s.nextId := List.mem_singleton.1 hj
    have := hs.fresh q hq
    omega
  fresh := by
    intro q hq
    rcases List.mem_append.1 hq with hq | hq
    · exact Nat.lt_succ_of_lt (hs.fresh q hq)
    · rw [List.mem_singleton.1 hq]
      exact Nat.lt_succ_self _
  disk := by
    intro x hx
    rcases List.mem_append.1 hx with hx | hx
    · obtain ⟨q, hq, hqx⟩ := hs.disk x hx
      exact ⟨q, List.mem_append_left _ hq, hqx⟩
    · rw [List.mem_singleton.1 hx]
      exact ⟨_, List.mem_append_right _ (List.mem_singleton.2 rfl), same_refl _⟩
  marks := by
    intro x hx hm
    rcases List.mem_append.1 hx with hx | hx
    · exact hs.marks x hx hm
    · rw [List.mem_singleton.1 hx] at hm
      exact absurd rfl hm
  inFlight := hs.inFlight
  replies := hs.replies
  flushes := fun t f h => (hs.flushes t f h).mono (fun _ h => h) (.refl _)

theorem base_clear {s : State} (hs : Base s) (ids : List ℕ) (flow : Flow) :
    Base { s with disk := forget ids s.disk, flow := flow } where
  ids := hs.ids
  fresh := hs.fresh
  disk := fun x hx => hs.disk x (mem_forget.1 hx).1
  marks := fun x hx => hs.marks x (mem_forget.1 hx).1
  inFlight := hs.inFlight
  replies := hs.replies
  flushes := fun t f h => (hs.flushes t f h).mono (fun _ h => h) (.refl _)

theorem stepFlow_clear {s t : State} {ok : Bool} (h : stepFlow s (.clear ok) = some t) :
    ∃ ids, s.flow = .dropping ids ∧
      t = { s with disk := if ok then forget ids s.disk else s.disk, flow := .submitted } := by
  unfold stepFlow at h
  split at h <;> simp_all

theorem step_base {s t : State} (hs : Base s) {e : Event} (h : step s e = some t) : Base t := by
  by_cases hq : ∃ d, e = .queue d
  · obtain ⟨d, rfl⟩ := hq
    cases h
    exact base_queue hs d
  · by_cases hc : ∃ ok, e = .clear ok
    · obtain ⟨ok, rfl⟩ := hc
      obtain ⟨ids, _, rfl⟩ := stepFlow_clear h
      cases ok with
      | true => exact base_clear hs ids .submitted
      | false => exact (moves_server hs .submitted (.refl _) rfl).base hs
    · exact (step_moves hs h (fun d hd => hq ⟨d, hd⟩) (fun ok hok => hc ⟨ok, hok⟩)).base hs

/-! ## Before the clear-down -/

def OnDisk (s : State) (q : Row) : Prop := ∃ x ∈ s.disk, Same q x

def Cleared : Flow → Prop
  | .dropping _ | .submitted => True
  | _ => False

theorem cleared_step {s t : State} {e : Event} (h : step s e = some t) (hs : Cleared s.flow) :
    Cleared t.flow := by
  have hflow : stepFlow s e = some t → Cleared t.flow := by
    intro h
    unfold stepFlow at h
    split at h <;> simp_all [Cleared]
    rw [← h]
    trivial
  unfold step at h
  split at h
  · cases h
    exact hs
  · cases h
    exact hs
  · next u =>
    unfold start at h
    split at h
    · cases h
      exact hs
    · cases h
  all_goals first
    | exact hflow h
    | rw [stepFlush_flow h]
      exact hs

theorem Moves.onDisk {s t : State} (h : Moves s t) {q : Row} (hq : OnDisk s q) :
    OnDisk t q ∨ q.id ∈ t.server.stored := by
  obtain ⟨y, hy, hqy⟩ := hq
  rcases h.kept y hy with ⟨x, hx, hyx⟩ | hstored
  · exact .inl ⟨x, hx, hqy.1.trans hyx.1, hqy.2.trans hyx.2⟩
  · rw [← hqy.1] at hstored
    exact .inr hstored

theorem onDisk_queue {s : State} (d : Delta) {q : Row} :
    q ∈ (queue s d).queued → (q ∈ s.queued ∧ (OnDisk s q → OnDisk (queue s d) q)) ∨
      OnDisk (queue s d) q := by
  intro hq
  rcases List.mem_append.1 hq with hq | hq
  · refine .inl ⟨hq, ?_⟩
    rintro ⟨x, hx, hqx⟩
    exact ⟨x, List.mem_append_left _ hx, hqx⟩
  · rw [List.mem_singleton.1 hq]
    exact .inr ⟨_, List.mem_append_right _ (List.mem_singleton.2 rfl), same_refl _⟩

/-- Until the clear-down only what the server stored has left the disk. -/
def Kept (s : State) : Prop :=
  ¬ Cleared s.flow → ∀ q ∈ s.queued, OnDisk s q ∨ q.id ∈ s.server.stored

theorem step_kept {s t : State} (hb : Base s) (hs : Kept s) {e : Event}
    (h : step s e = some t) : Kept t := by
  intro hnot
  have hs := hs (fun hc => hnot (cleared_step h hc))
  by_cases hq : ∃ d, e = .queue d
  · obtain ⟨d, rfl⟩ := hq
    cases h
    intro q hq
    rcases onDisk_queue d hq with ⟨hold, hkept⟩ | hnew
    · exact (hs q hold).imp_left hkept
    · exact .inl hnew
  · by_cases hc : ∃ ok, e = .clear ok
    · obtain ⟨ok, rfl⟩ := hc
      obtain ⟨ids, _, rfl⟩ := stepFlow_clear h
      exact absurd trivial hnot
    · have hm := step_moves hb h (fun d hd => hq ⟨d, hd⟩) (fun ok hok => hc ⟨ok, hok⟩)
      intro q hq
      rw [hm.queued] at hq
      rcases hs q hq with hq | hq
      · exact hm.onDisk hq
      · exact .inr (hm.server.stored hq)

/-! ## The clear-down -/

def Fits (paper : List (String × String)) : Event → Prop
  | .queue d => d.slot ∈ paper
  | _ => True

instance (paper : List (String × String)) (e : Event) : Decidable (Fits paper e) := by
  unfold Fits
  split <;> infer_instance

def next (paper : List (String × String)) (s : State) (e : Event) : Option State :=
  if Fits paper e then step s e else none

theorem next_eq_some {paper : List (String × String)} {s t : State} {e : Event}
    (h : next paper s e = some t) : Fits paper e ∧ step s e = some t := by
  unfold next at h
  split at h
  · next hfits => exact ⟨hfits, h⟩
  · cases h

/-- The submit that lands takes the flow's rows up: where the attempt no longer takes answers they
were judged before, and a row that stands for older ones is not declined. The clear-down finds
waiting only rows the flow's last read found, or that a flush has carried since. -/
def Guard (s : State) (e : Event) : Prop :=
  match s.flow, e with
  | .sending left body, .submit merits =>
    if s.server.isOpen then
      ∀ x ∈ left, x ∈ body ∨ Judged s.server x.id ∨
        ∀ t ∈ body, t.slot = x.slot → merits t.toDelta = none ∧ t.clientSeq ≠ x.clientSeq
    else ∀ x ∈ left, Judged s.server x.id
  | .clearing left, .rows ok =>
    ok = true → ∀ x ∈ s.disk, x.refused = none → x ∈ left ∨ Judged s.server x.id
  | _, _ => True

instance (s : State) (e : Event) : Decidable (Guard s e) := by
  unfold Guard Judged
  split <;> infer_instance

def FlowOk (paper : List (String × String)) (s : State) : Flow → Prop
  | .sending left body => body = bodyOf left ∧ ∀ x ∈ left, x.slot ∈ paper
  | .answered left | .clearing left => ∀ x ∈ left, Settled s.server x
  | .dropping ids =>
    (∀ i ∈ ids, i < s.nextId) ∧ ∀ q ∈ s.queued, q.id ∈ ids → Settled s.server q
  | _ => True

structure Safe (paper : List (String × String)) (s : State) : Prop where
  base : Base s
  slots : ∀ q ∈ s.queued, q.slot ∈ paper
  delivered : ∀ q ∈ s.queued, OnDisk s q ∨ Settled s.server q
  flow : FlowOk paper s s.flow

theorem FlowOk.mono {paper : List (String × String)} {s t : State} {f : Flow}
    (h : FlowOk paper s f) (hgrows : Grows s.server t.server) (hnext : s.nextId ≤ t.nextId)
    (hqueued : ∀ q ∈ t.queued, q ∈ s.queued ∨ s.nextId ≤ q.id) : FlowOk paper t f := by
  cases f with
  | sending left body => exact h
  | answered left => exact fun x hx => (h x hx).grows hgrows
  | clearing left => exact fun x hx => (h x hx).grows hgrows
  | dropping ids =>
    refine ⟨fun i hi => (h.1 i hi).trans_le hnext, ?_⟩
    intro q hq hid
    rcases hqueued q hq with hq | hq
    · exact (h.2 q hq hid).grows hgrows
    · have := h.1 q.id hid
      omega
  | _ => trivial

theorem slots_disk {paper : List (String × String)} {s : State} (hb : Base s)
    (hs : ∀ q ∈ s.queued, q.slot ∈ paper) : ∀ x ∈ s.disk, x.slot ∈ paper := by
  intro x hx
  obtain ⟨q, hq, hqx⟩ := hb.disk x hx
  have hslot := hs q hq
  rw [hqx.2] at hslot
  exact hslot

theorem submit_settles {paper : List (String × String)} (hpaper : paper.length ≤ maxBatch)
    {s : State} {left body : List Row} {merits : Delta → Option String}
    (hflow : s.flow = .sending left body) (hok : FlowOk paper s s.flow)
    (hguard : Guard s (.submit merits)) :
    ∀ x ∈ left, Settled (postSubmit merits s.server body) x := by
  rw [hflow] at hok
  obtain ⟨hbody, hslots⟩ := hok
  unfold Guard at hguard
  rw [hflow] at hguard
  simp only at hguard
  intro x hx
  unfold postSubmit
  split
  · next hopen =>
    rw [if_pos hopen] at hguard
    obtain ⟨hgrows, _, hsaved⟩ := saveAnswers_spec merits s.server body
    suffices h : Settled (saveAnswers merits s.server body).1 x from h
    rcases hguard x hx with hin | hj | hstands
    · exact .inl (hsaved x hin).judged
    · exact .inl (hj.grows hgrows)
    · obtain ⟨t, ht, hslot, hle⟩ := bodyOf_covers hpaper hslots hx
      rw [← hbody] at ht
      obtain ⟨hmerits, hne⟩ := hstands t ht hslot
      obtain ⟨p, hp, hheld⟩ := (hsaved t ht).held hmerits
      rw [hslot] at hp
      exact .inr ⟨p, hp, by omega⟩
  · next hclosed =>
    rw [if_neg hclosed] at hguard
    exact .inl (hguard x hx)

theorem rows_settled {s : State} {left : List Row} (hb : Base s)
    (hleft : ∀ x ∈ left, Settled s.server x)
    (hguard : ∀ x ∈ s.disk, x.refused = none → x ∈ left ∨ Judged s.server x.id) :
    ∀ q ∈ s.queued, q.id ∈ s.disk.map Row.id → Settled s.server q := by
  intro q hq hid
  obtain ⟨x, hx, hxq⟩ := List.mem_map.1 hid
  obtain ⟨q', hq', hsame⟩ := hb.disk x hx
  have hqq : q' = q := List.inj_on_of_nodup_map hb.ids hq' hq (hsame.1.trans hxq)
  rw [hqq] at hsame
  have hsettled : Settled s.server x := by
    by_cases hm : x.refused = none
    · rcases hguard x hx hm with hl | hj
      · exact hleft x hl
      · exact .inl hj
    · exact .inl (hb.marks x hx hm)
  exact hsettled.same ⟨hsame.1.symm, hsame.2.symm⟩

theorem stepFlow_ok {paper : List (String × String)} (hpaper : paper.length ≤ maxBatch)
    {s t : State} (hs : Safe paper s) {e : Event} (hguard : Guard s e)
    (h : stepFlow s e = some t) : FlowOk paper t t.flow := by
  have hok := hs.flow
  unfold stepFlow at h
  split at h
  · obtain ⟨v, _, rfl⟩ := Option.map_eq_some_iff.1 h
    trivial
  · split at h
    · cases h
      exact ⟨rfl, fun x hx => by cases hx⟩
    · obtain ⟨v, _, rfl⟩ := Option.map_eq_some_iff.1 h
      trivial
    · cases h
  · split at h
    · cases h
      exact ⟨rfl, fun x hx => by cases hx⟩
    · cases h
      trivial
    · cases h
  · next ok _ =>
    cases h
    refine ⟨rfl, ?_⟩
    intro x hx
    cases ok with
    | true => exact slots_disk hs.base hs.slots x (List.mem_of_mem_filter hx)
    | false => cases hx
  · next left body merits hflow =>
    cases h
    exact submit_settles hpaper hflow hok hguard
  · cases h
    trivial
  · cases h
    trivial
  · next left hflow =>
    cases h
    rw [hflow] at hok
    exact hok
  · next left ok hflow =>
    cases h
    cases ok with
    | false => trivial
    | true =>
      rw [hflow] at hok
      unfold Guard at hguard
      rw [hflow] at hguard
      refine ⟨?_, fun q hq hid => rows_settled hs.base hok (hguard rfl) q hq hid⟩
      intro i hi
      obtain ⟨x, hx, rfl⟩ := List.mem_map.1 hi
      obtain ⟨q, hq, hqx⟩ := hs.base.disk x hx
      rw [← hqx.1]
      exact hs.base.fresh q hq
  · cases h
    trivial
  · cases h

theorem step_safe {paper : List (String × String)} (hpaper : paper.length ≤ maxBatch)
    {s t : State} (hs : Safe paper s) {e : Event} (hguard : Guard s e)
    (h : next paper s e = some t) : Safe paper t := by
  replace h := next_eq_some h
  obtain ⟨hfits, h⟩ := h
  have hb := step_base hs.base h
  by_cases hq : ∃ d, e = .queue d
  · obtain ⟨d, rfl⟩ := hq
    cases h
    refine ⟨hb, ?_, ?_, hs.flow.mono (.refl _) (Nat.le_succ _) ?_⟩
    · intro q hq
      rcases List.mem_append.1 hq with hq | hq
      · exact hs.slots q hq
      · rw [List.mem_singleton.1 hq]
        exact hfits
    · intro q hq
      rcases onDisk_queue d hq with ⟨hold, hkept⟩ | hnew
      · exact (hs.delivered q hold).imp_left hkept
      · exact .inl hnew
    · intro q hq
      rcases List.mem_append.1 hq with hq | hq
      · exact .inl hq
      · rw [List.mem_singleton.1 hq]
        exact .inr le_rfl
  · by_cases hc : ∃ ok, e = .clear ok
    · obtain ⟨ok, rfl⟩ := hc
      obtain ⟨ids, hflow, rfl⟩ := stepFlow_clear h
      refine ⟨hb, hs.slots, ?_, trivial⟩
      intro q hq
      rcases hs.delivered q hq with ⟨x, hx, hqx⟩ | hsettled
      · have hok := hs.flow
        rw [hflow] at hok
        cases ok with
        | false => exact .inl ⟨x, hx, hqx⟩
        | true =>
          by_cases hid : x.id ∈ ids
          · exact .inr (hok.2 q hq (by rw [hqx.1]; exact hid))
          · exact .inl ⟨x, mem_forget.2 ⟨hx, hid⟩, hqx⟩
      · exact .inr hsettled
    · have hm := step_moves hs.base h (fun d hd => hq ⟨d, hd⟩) (fun ok hok => hc ⟨ok, hok⟩)
      refine ⟨hb, ?_, ?_, ?_⟩
      · rw [hm.queued]
        exact hs.slots
      · intro q hq
        rw [hm.queued] at hq
        rcases hs.delivered q hq with hq | hq
        · exact (hm.onDisk hq).imp_right (fun h => .inl (.inl h))
        · exact .inr (hq.grows hm.server)
      · have hkeep : t.flow = s.flow → FlowOk paper t t.flow := by
          intro hflow
          rw [hflow]
          refine hs.flow.mono hm.server (by rw [hm.nextId]) ?_
          rw [hm.queued]
          exact fun q hq => .inl hq
        unfold step at h
        split at h
        · next d => exact absurd ⟨d, rfl⟩ hq
        · cases h
          exact hkeep rfl
        · exact hkeep (start_moves hs.base s.flow h).2
        all_goals first
          | exact hkeep (stepFlush_flow h)
          | exact stepFlow_ok hpaper hs hguard h

/-- A device as a page finds it: some rows on its disk, the marked ones judged by the server, and
no call under way. -/
structure Start (paper : List (String × String)) (s : State) : Prop where
  queued : s.queued = s.disk
  ids : (s.disk.map Row.id).Nodup
  fresh : ∀ x ∈ s.disk, x.id < s.nextId
  slots : ∀ x ∈ s.disk, x.slot ∈ paper
  marks : ∀ x ∈ s.disk, x.refused ≠ none → Judged s.server x.id
  replies : ∀ k, s.server.replies k = none
  flushes : ∀ t, s.flushes t = none
  inFlight : s.inFlight = none
  flow : s.flow = .idle

theorem Start.base {paper : List (String × String)} {s : State} (h : Start paper s) : Base s where
  ids := by
    rw [h.queued]
    exact h.ids
  fresh := by
    rw [h.queued]
    exact h.fresh
  disk := by
    intro x hx
    rw [h.queued]
    exact ⟨x, hx, same_refl x⟩
  marks := h.marks
  inFlight := by
    intro c hc
    rw [h.inFlight] at hc
    cases hc
  replies := by
    intro k rows rejected hk
    rw [h.replies] at hk
    cases hk
  flushes := by
    intro t f ht
    rw [h.flushes] at ht
    cases ht

theorem Start.onDisk {paper : List (String × String)} {s : State} (h : Start paper s) :
    ∀ q ∈ s.queued, OnDisk s q := by
  intro q hq
  rw [h.queued] at hq
  exact ⟨q, hq, same_refl q⟩

/-- In a run within the guard every row ever queued is on the disk, or was stored, declined or
superseded; and in any run at all, until the flow's clear-down, whatever left the disk was stored,
so a submit that is refused has cost no row. -/
theorem nothing_dropped_undelivered (paper : List (String × String))
    (hpaper : paper.length ≤ maxBatch) (s₀ : State) (hstart : Start paper s₀)
    (is : List Event) (s : State) :
    (Runs (fun s e t => next paper s e = some t) Guard s₀ is s →
      ∀ q ∈ s.queued, OnDisk s q ∨ Settled s.server q) ∧
    (Any (fun s e t => next paper s e = some t) s₀ is s → ¬ Cleared s.flow →
      ∀ q ∈ s.queued, OnDisk s q ∨ q.id ∈ s.server.stored) := by
  constructor
  · intro h
    have hs : Safe paper s := by
      apply h.invariant
      · exact fun s e t hs hg ht => step_safe hpaper hs hg ht
      · refine ⟨hstart.base, ?_, fun q hq => .inl (hstart.onDisk q hq), ?_⟩
        · rw [hstart.queued]
          exact hstart.slots
        · rw [hstart.flow]
          trivial
    exact hs.delivered
  · intro h
    have hs : Base s ∧ Kept s := by
      apply h.invariant
      · exact fun s e t hs _ ht =>
        ⟨step_base hs.1 (next_eq_some ht).2, step_kept hs.1 hs.2 (next_eq_some ht).2⟩
      · exact ⟨hstart.base, fun _ q hq => .inl (hstart.onDisk q hq)⟩
    exact hs.2

/-! ## Papers of one slot -/

def onePaper : List (String × String) := [("q1", "s1")]

def typed (seq : ℤ) : Delta := ⟨"q1", "s1", .str "car park", seq⟩

def blank : State where
  disk := []
  nextId := 1
  queued := []

theorem start_blank : Start onePaper blank where
  queued := rfl
  ids := List.nodup_nil
  fresh := by
    intro x hx
    cases hx
  slots := by
    intro x hx
    cases hx
  marks := by
    intro x hx
    cases hx
  replies := fun _ => rfl
  flushes := fun _ => rfl
  inFlight := rfl
  flow := rfl

def noMerits : Delta → Option String := fun _ => none

/-- A flush loses its reply, the flow's own flush replays it, and the last keystroke rides in the
submit. -/
def carriedBody : List Event :=
  [.queue (typed 1), .flush 0, .read 0 true, .land 0 noMerits, .lose 0, .press 1, .read 1 true,
    .land 1 noMerits, .forget 1 true, .refuse 1 true, .queue (typed 2), .readBack 1 true,
    .flushed 2, .read 2 true, .lose 2, .flushed 3, .left true, .submit noMerits, .reply,
    .rows true, .clear true]

def reached (g : State → Event → Prop) [∀ s e, Decidable (g s e)] (is : List Event) : State :=
  (follow (next onePaper) g is blank).getD blank

theorem runs_reached {g : State → Event → Prop} [∀ s e, Decidable (g s e)] {is : List Event}
    (h : (follow (next onePaper) g is blank).isSome) :
    Runs (fun s e t => next onePaper s e = some t) g blank is (reached g is) := by
  obtain ⟨t, ht⟩ := Option.isSome_iff_exists.1 h
  unfold reached
  rw [ht]
  exact runs_of_follow ht

theorem nothing_dropped_undelivered_blank :
    (reached Guard carriedBody).queued.length = 2 ∧ (reached Guard carriedBody).disk = [] ∧
      ∀ q ∈ (reached Guard carriedBody).queued,
        OnDisk (reached Guard carriedBody) q ∨ Settled (reached Guard carriedBody).server q := by
  refine ⟨by decide +kernel, by decide +kernel, ?_⟩
  exact (nothing_dropped_undelivered onePaper (by decide) blank start_blank carriedBody _).1
    (runs_reached (by decide +kernel))

def lost (s : State) : Bool :=
  match s.flow, s.disk, s.queued with
  | .submitted, [], [q] =>
    q.id ∉ s.server.stored && q.id ∉ s.server.declined && (s.server.answers q.slot).isNone
  | _, _, _ => false

theorem lost_spec {s : State} (h : lost s = true) :
    s.flow = .submitted ∧ ∃ q ∈ s.queued, ¬ OnDisk s q ∧ ¬ Settled s.server q := by
  unfold lost at h
  split at h
  · next q hflow hdisk hqueued =>
    simp only [Bool.and_eq_true, decide_eq_true_eq, Option.isNone_iff_eq_none] at h
    obtain ⟨⟨hstored, hdeclined⟩, hnone⟩ := h
    refine ⟨hflow, q, by simp [hqueued], ?_, ?_⟩
    · rintro ⟨x, hx, _⟩
      rw [hdisk] at hx
      cases hx
    · rintro ((h | h) | ⟨p, hp, _⟩)
      · exact hstored h
      · exact hdeclined h
      · rw [hnone] at hp
        cases hp
  · cases h

def typedWhileSubmitting : List Event :=
  [.press 0, .read 0 true, .flushed 1, .queue (typed 1), .submit noMerits, .reply, .rows true,
    .clear true]

def unreadable : List Event :=
  [.queue (typed 1), .press 0, .read 0 false, .flushed 1, .read 1 false, .flushed 2, .left false,
    .submit noMerits, .reply, .rows true, .clear true]

def turnedAway : List Event :=
  [.queue (typed 1), .freeze, .press 0, .read 0 true, .land 0 noMerits, .flushed 1, .read 1 true,
    .land 1 noMerits, .flushed 2, .left true, .submit noMerits, .reply, .rows true, .clear true]

/-- The run submits, and a row it queued is neither on the disk nor settled. -/
def LosesRow (is : List Event) : Prop :=
  ∃ s, Any (fun s e t => next onePaper s e = some t) blank is s ∧ s.flow = .submitted ∧
    ∃ q ∈ s.queued, ¬ OnDisk s q ∧ ¬ Settled s.server q

theorem losesRow_of_lost {is : List Event}
    (h : (follow (next onePaper) (fun _ _ => True) is blank).isSome ∧
      lost (reached (fun _ _ => True) is)) : LosesRow is :=
  ⟨_, runs_reached h.1, lost_spec h.2⟩

theorem rows_are_lost :
    LosesRow typedWhileSubmitting ∧ LosesRow unreadable ∧ LosesRow turnedAway := by
  refine ⟨losesRow_of_lost ?_, losesRow_of_lost ?_, losesRow_of_lost ?_⟩
  · decide +kernel
  · decide +kernel
  · decide +kernel

end IeltsHub.SubmitFlow
