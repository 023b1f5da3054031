import IeltsHub.RealtimeBus
import IeltsHub.GuardedRuns

set_option autoImplicit false

/-!
# Publishers and a resuming subscriber

Any number of `publish` calls on one channel, each an `INCR`, an `EXPIRE` and then one atomic
pipeline, interleave with a subscriber that subscribes, replays from `since` and then forwards
what arrives live. Frames reach the log and the subscription in the same pipeline.
-/
namespace IeltsHub.RealtimeReplay
open PyTime PyValue RealtimeBus GuardedRuns

inductive Publisher where
  | idle
  | counted (seq : ℕ)
  | ready (frame : Frame)

inductive Phase where
  | idle
  | subscribed
  | unread
  | answered (complete : Bool)
  deriving DecidableEq

structure Subscriber where
  phase : Phase := .idle
  waiting : List Frame := []
  received : List Frame := []

/-- `published` is every frame fanned out so far, oldest first, and `last` the number of the latest
since the counter last started over. -/
structure System where
  now : Time := 0
  topic : Topic := {}
  publishers : ℕ → Publisher := fun _ => .idle
  published : List Frame := []
  last : ℕ := 0
  subscriber : Subscriber := {}

inductive Action where
  | wait (span : ℕ)
  | allocate (p : ℕ)
  | prepare (p : ℕ) (event : String) (data : Json)
  | append (p : ℕ)
  | abandon (p : ℕ)
  | subscribe
  | lrange
  | get
  | deliver

def setPublisher (s : System) (p : ℕ) (x : Publisher) : ℕ → Publisher :=
  Function.update s.publishers p x

def Subscriber.hear (u : Subscriber) (f : Frame) : Subscriber :=
  if u.phase = .idle then u else { u with waiting := u.waiting ++ [f] }

def Subscriber.answer (u : Subscriber) (reply : List Frame × Bool) : Subscriber :=
  { u with phase := .answered reply.2, received := if reply.2 then reply.1 else [] }

/-- `channel` is the channel's name and `since` the number the client last saw. -/
def step (channel : String) (since : ℕ) (s : System) : Action → Option System
  | .wait span => some { s with now := s.now + span }
  | .allocate p =>
    match s.publishers p with
    | .idle =>
      let (topic, seq) := s.topic.allocate s.now
      some { s with
        topic
        publishers := setPublisher s p (.counted seq)
        last := if live s.topic.counter s.now = none then 0 else s.last }
    | _ => none
  | .prepare p event data =>
    match s.publishers p with
    | .counted seq =>
      some { s with
        topic := s.topic.keepCounter s.now
        publishers := setPublisher s p (.ready { type := event, channel, seq, ts := s.now, data }) }
    | _ => none
  | .append p =>
    match s.publishers p with
    | .ready frame =>
      some { s with
        topic := s.topic.append frame s.now
        publishers := setPublisher s p .idle
        published := s.published ++ [frame]
        last := frame.seq
        subscriber := s.subscriber.hear frame }
    | _ => none
  | .abandon p => some { s with publishers := setPublisher s p .idle }
  | .subscribe =>
    match s.subscriber.phase with
    | .idle => some { s with subscriber := { s.subscriber with phase := .subscribed } }
    | _ => none
  | .lrange =>
    match s.subscriber.phase with
    | .subscribed =>
      if s.topic.lrange s.now = [] then
        some { s with subscriber := { s.subscriber with phase := .unread } }
      else some { s with subscriber := s.subscriber.answer (replayed (s.topic.lrange s.now) since) }
    | _ => none
  | .get =>
    match s.subscriber.phase with
    | .unread => some { s with
        subscriber := s.subscriber.answer (replayedNothing (s.topic.current s.now) since) }
    | _ => none
  | .deliver =>
    match s.subscriber.phase, s.subscriber.waiting with
    | .answered _, f :: rest => some { s with
        subscriber := { s.subscriber with waiting := rest, received := s.subscriber.received ++ [f] } }
    | _, _ => none

abbrev Step (channel : String) (since : ℕ) (s : System) (a : Action) (t : System) : Prop :=
  step channel since s a = some t

/-- The numbers above `since` in a list of frames. -/
def above (since : ℕ) (frames : List Frame) : List ℕ :=
  (frames.map Frame.seq).filter (fun n => since < n)

/-- A complete answer and what came live afterwards are every number above `since`, once each and in
order; and a frame is fanned out only after the one numbered before it was logged. -/
structure ReplayLaw (since : ℕ) (s : System) : Prop where
  resumed : s.subscriber.phase = .answered true →
    ∃ n, above since s.subscriber.received = List.range' (since + 1) n
  preceded : ∀ before f after, s.published = before ++ f :: after →
    f.seq ≤ 1 ∨ ∃ g ∈ before, g.seq + 1 = f.seq

/-- Pipelines run in the order their numbers were allocated and while the counter that gave them
lives; nothing the replay returns is already waiting on the subscription; the numbers do not start
over beneath a log or a resumed subscription that holds some. -/
def InTurn (since : ℕ) (s : System) : Action → Prop
  | .allocate _ => live s.topic.counter s.now = none →
      s.topic.lrange s.now = [] ∧
      (s.subscriber.phase = .answered true →
        above since (s.subscriber.received ++ s.subscriber.waiting) = [])
  | .append p => ∀ frame, s.publishers p = .ready frame →
      frame.seq = s.last + 1 ∧ frame.seq ≤ s.topic.current s.now
  | .lrange => s.topic.lrange s.now ≠ [] → (replayed (s.topic.lrange s.now) since).2 = true →
      above since s.subscriber.waiting = []
  | .get => (replayedNothing (s.topic.current s.now) since).2 = true →
      above since s.subscriber.waiting = []
  | _ => True

/-! ## The log holds the latest numbers -/

/-- The `k` latest numbers up to `last`, the latest first. -/
def latest (last k : ℕ) : List ℕ := (List.range k).map (fun i => last - i)

theorem latest_succ (last k : ℕ) : (last + 1) :: latest last k = latest (last + 1) (k + 1) := by
  unfold latest
  rw [List.range_succ_eq_map, List.map_cons, List.map_map]
  congr 1
  refine List.map_congr_left ?_
  intro i _
  simp

theorem take_latest (last k n : ℕ) : (latest last k).take n = latest last (min n k) := by
  unfold latest
  rw [← List.map_take, List.take_range]

theorem reverse_latest {last k : ℕ} (h : k ≤ last) :
    (latest last k).reverse = List.range' (last + 1 - k) k := by
  induction k with
  | zero => rfl
  | succ k ih =>
    have hk := ih (by omega)
    have hcons : latest last (k + 1) = latest last k ++ [last - k] := by
      unfold latest
      rw [List.range_succ, List.map_append]
      rfl
    rw [hcons, List.reverse_append, hk, List.range'_succ]
    have hfirst : last + 1 - (k + 1) = last - k := by omega
    have hnext : last - k + 1 = last + 1 - k := by omega
    rw [hfirst, hnext]
    rfl

theorem filter_range' {since a k : ℕ} (ha : a ≤ since + 1) :
    (List.range' a k).filter (fun n => since < n) = List.range' (since + 1) (a + k - (since + 1)) := by
  induction k generalizing a with
  | zero =>
    have hzero : a + 0 - (since + 1) = 0 := by omega
    rw [hzero]
    rfl
  | succ k ih =>
    rw [List.range'_succ]
    by_cases h : since < a
    · have hae : a = since + 1 := by omega
      have hall : ∀ n ∈ List.range' (since + 1) (k + 1), since < n := by
        intro n hn
        have hn := (List.mem_range'_1.1 hn).1
        omega
      have hlen : since + 1 + (k + 1) - (since + 1) = k + 1 := by omega
      rw [hae, hlen, ← List.range'_succ]
      refine List.filter_eq_self.2 ?_
      intro n hn
      exact decide_eq_true (hall n hn)
    · rw [List.filter_cons_of_neg (by simpa using h), ih (by omega)]
      congr 1
      omega

theorem above_replayed {raw : List Frame} {since last k : ℕ} (hk : k ≤ last)
    (hraw : raw.map Frame.seq = latest last k) (hne : raw ≠ [])
    (hcomplete : (replayed raw since).2 = true) :
    above since (replayed raw since).1 = List.range' (since + 1) (last - since) := by
  have hseqs : raw.reverse.map Frame.seq = List.range' (last + 1 - k) k := by
    rw [List.map_reverse, hraw, reverse_latest hk]
  have hpos : 0 < k := by
    rcases Nat.eq_zero_or_pos k with h0 | hpos
    · rw [h0] at hraw
      exact absurd (List.map_eq_nil_iff.1 hraw) hne
    · exact hpos
  have holdest : (raw.reverse.head?.map Frame.seq).getD 0 = last + 1 - k := by
    rw [← List.head?_map, hseqs]
    obtain ⟨j, rfl⟩ : ∃ j, k = j + 1 := ⟨k - 1, by omega⟩
    rw [List.range'_succ]
    rfl
  have hle : last + 1 - k ≤ since + 1 := by
    have h := of_decide_eq_true hcomplete
    rw [holdest] at h
    exact h
  have hfilter : above since (replayed raw since).1 =
      (raw.reverse.map Frame.seq).filter (fun n => since < n) := by
    unfold above replayed
    simp only [List.filter_map, List.filter_filter, Function.comp_def, Bool.and_self]
  rw [hfilter, hseqs, filter_range' hle]
  congr 1
  omega

/-! ## One step -/

theorem above_append (since : ℕ) (xs ys : List Frame) :
    above since (xs ++ ys) = above since xs ++ above since ys := by
  unfold above
  rw [List.map_append, List.filter_append]

/-- What holds within the guard: the log holds the latest numbers, and a resumed subscription has
or awaits every number above `since`. -/
structure Inv (since : ℕ) (s : System) : Prop where
  log : ∃ k ≤ s.last, (s.topic.lrange s.now).map Frame.seq = latest s.last k
  counter : live s.topic.counter s.now ≠ none → s.last ≤ s.topic.current s.now
  logged : s.last = 0 ∨ ∃ g ∈ s.published, g.seq = s.last
  preceded : ∀ before f after, s.published = before ++ f :: after →
    f.seq ≤ 1 ∨ ∃ g ∈ before, g.seq + 1 = f.seq
  resumed : s.subscriber.phase = .answered true →
    above since (s.subscriber.received ++ s.subscriber.waiting) =
        List.range' (since + 1) (s.last - since) ∨
      live s.topic.counter s.now = none ∧
        above since (s.subscriber.received ++ s.subscriber.waiting) = []

variable {channel : String} {since : ℕ} {s t : System}

theorem inv_initial : Inv since {} := by
  constructor
  · exact ⟨0, Nat.le_refl 0, rfl⟩
  · intro h
    exact absurd rfl h
  · exact .inl rfl
  · intro before f after h
    cases before <;> cases h
  · intro h
    cases h

theorem inv_wait {span : ℕ} (hi : Inv since s) : Inv since { s with now := s.now + span } := by
  have hlive : live s.topic.counter (s.now + span) ≠ none → live s.topic.counter s.now ≠ none := by
    intro h hdead
    exact h (live_later hdead span)
  constructor
  · rcases lrange_later s.topic s.now span with h | h
    · obtain ⟨k, hk, hlog⟩ := hi.log
      exact ⟨k, hk, by rw [h, hlog]⟩
    · exact ⟨0, Nat.zero_le _, by rw [h]; rfl⟩
  · intro h
    have hle := hi.counter (hlive h)
    rcases valueAt_later s.topic.counter s.now span with hv | hv
    · unfold Topic.current at hle ⊢
      rw [hv]
      exact hle
    · exact absurd (live_of_valueAt.2 hv) h
  · exact hi.logged
  · exact hi.preceded
  · intro h
    rcases hi.resumed h with hall | ⟨hdead, hnone⟩
    · exact .inl hall
    · exact .inr ⟨live_later hdead span, hnone⟩

theorem inv_allocate {p : ℕ} (hi : Inv since s) (hguard : InTurn since s (.allocate p))
    (h : step channel since s (.allocate p) = some t) : Inv since t := by
  simp only [step] at h
  split at h
  · cases h
    have hcurrent : (s.topic.allocate s.now).1.current s.now = s.topic.current s.now + 1 := by
      unfold Topic.allocate Topic.current
      rw [valueAt_incr]
      rfl
    cases hdead : live s.topic.counter s.now with
    | none =>
      obtain ⟨hempty, hnothing⟩ := hguard hdead
      constructor
      · exact ⟨0, Nat.zero_le _, by
          change (s.topic.lrange s.now).map Frame.seq = _
          rw [hempty]
          rfl⟩
      · intro _
        exact Nat.zero_le _
      · exact .inl rfl
      · exact hi.preceded
      · intro hphase
        have hnil : List.range' (since + 1) (0 - since) = [] := by
          rw [Nat.zero_sub]
          rfl
        exact .inl ((hnothing hphase).trans hnil.symm)
    | some c =>
      have hlive : live s.topic.counter s.now ≠ none := by
        rw [hdead]
        exact Option.some_ne_none c
      constructor
      · exact hi.log
      · intro _
        have hle := hi.counter hlive
        change s.last ≤ (s.topic.allocate s.now).1.current s.now
        omega
      · exact hi.logged
      · exact hi.preceded
      · intro hphase
        rcases hi.resumed hphase with hall | ⟨hnone, _⟩
        · exact .inl hall
        · exact absurd hnone hlive
  · cases h

theorem inv_prepare {p : ℕ} {event : String} {data : Json} (hi : Inv since s)
    (h : step channel since s (.prepare p event data) = some t) : Inv since t := by
  simp only [step] at h
  split at h
  · cases h
    have hvalue : valueAt (s.topic.keepCounter s.now).counter s.now =
        valueAt s.topic.counter s.now := valueAt_expire (by decide)
    have hlive : live (s.topic.keepCounter s.now).counter s.now = none ↔
        live s.topic.counter s.now = none := by
      rw [live_of_valueAt, live_of_valueAt, hvalue]
    constructor
    · exact hi.log
    · intro hne
      have hle := hi.counter (fun hnone => hne (hlive.2 hnone))
      unfold Topic.current at hle ⊢
      rw [hvalue]
      exact hle
    · exact hi.logged
    · exact hi.preceded
    · intro hphase
      rcases hi.resumed hphase with hall | ⟨hnone, hnothing⟩
      · exact .inl hall
      · exact .inr ⟨hlive.2 hnone, hnothing⟩
  · cases h

theorem split_concat {frames before after : List Frame} {x f : Frame}
    (h : frames ++ [x] = before ++ f :: after) :
    before = frames ∧ f = x ∨ ∃ rest, frames = before ++ f :: rest := by
  rcases List.eq_nil_or_concat after with rfl | ⟨rest, y, rfl⟩
  · obtain ⟨hbefore, hf⟩ := List.append_inj' h rfl
    cases hf
    exact .inl ⟨hbefore.symm, rfl⟩
  · have h' : frames ++ [x] = (before ++ f :: rest) ++ [y] := by simpa using h
    exact .inr ⟨rest, (List.append_inj' h' rfl).1⟩

theorem hear_phase (u : Subscriber) (f : Frame) : (u.hear f).phase = u.phase := by
  unfold Subscriber.hear
  split
  · rfl
  · rfl

theorem inv_append {p : ℕ} (hi : Inv since s) (hguard : InTurn since s (.append p))
    (h : step channel since s (.append p) = some t) : Inv since t := by
  simp only [step] at h
  split at h
  · next frame hready =>
    obtain ⟨hseq, hcurrent⟩ := hguard frame hready
    cases h
    have hlive : live s.topic.counter s.now ≠ none := by
      intro hnone
      have hzero : s.topic.current s.now = 0 := by
        unfold Topic.current
        rw [live_of_valueAt.1 hnone]
        rfl
      omega
    constructor
    · obtain ⟨k, hk, hlog⟩ := hi.log
      refine ⟨min replayFrames (k + 1), ?_, ?_⟩
      · change min replayFrames (k + 1) ≤ frame.seq
        omega
      · change ((s.topic.append frame s.now).lrange s.now).map Frame.seq = latest frame.seq _
        rw [lrange_append, List.map_take, List.map_cons, hlog, hseq, latest_succ, take_latest]
    · intro _
      exact hcurrent
    · exact .inr ⟨frame, List.mem_append_right _ List.mem_cons_self, rfl⟩
    · intro before f after hsplit
      rcases split_concat hsplit with ⟨rfl, rfl⟩ | ⟨rest, hrest⟩
      · rcases hi.logged with hzero | ⟨g, hg, hlast⟩
        · left
          omega
        · right
          exact ⟨g, hg, by omega⟩
      · exact hi.preceded before f rest hrest
    · intro hphase
      have hanswered : s.subscriber.phase = .answered true := (hear_phase _ _).symm.trans hphase
      rcases hi.resumed hanswered with hall | ⟨hnone, _⟩
      · left
        have hwaiting : (s.subscriber.hear frame).waiting = s.subscriber.waiting ++ [frame] := by
          unfold Subscriber.hear
          rw [if_neg (by rw [hanswered]; decide)]
        have hreceived : (s.subscriber.hear frame).received = s.subscriber.received := by
          unfold Subscriber.hear
          rw [if_neg (by rw [hanswered]; decide)]
        change above since ((s.subscriber.hear frame).received ++
          (s.subscriber.hear frame).waiting) = List.range' (since + 1) (frame.seq - since)
        rw [hwaiting, hreceived, ← List.append_assoc, above_append, hall]
        by_cases habove : since < frame.seq
        · have hone : above since [frame] = [frame.seq] := by simp [above, habove]
          have hlen : frame.seq - since = s.last - since + 1 := by omega
          rw [hone, hlen, List.range'_concat]
          congr 2
          omega
        · have hnone : above since [frame] = [] := by simp [above, habove]
          have hlen : frame.seq - since = s.last - since := by omega
          rw [hnone, hlen, List.append_nil]
      · exact absurd hnone hlive
  · cases h

theorem inv_abandon {p : ℕ} (hi : Inv since s)
    (h : step channel since s (.abandon p) = some t) : Inv since t := by
  simp only [step] at h
  cases h
  exact ⟨hi.log, hi.counter, hi.logged, hi.preceded, hi.resumed⟩

theorem inv_subscribe (hi : Inv since s) (h : step channel since s .subscribe = some t) :
    Inv since t := by
  simp only [step] at h
  split at h
  · cases h
    refine ⟨hi.log, hi.counter, hi.logged, hi.preceded, ?_⟩
    intro hphase
    cases hphase
  · cases h

theorem inv_lrange (hi : Inv since s) (hguard : InTurn since s .lrange)
    (h : step channel since s .lrange = some t) : Inv since t := by
  simp only [step] at h
  split at h
  · split at h
    · cases h
      refine ⟨hi.log, hi.counter, hi.logged, hi.preceded, ?_⟩
      intro hphase
      cases hphase
    · next hne =>
      cases h
      refine ⟨hi.log, hi.counter, hi.logged, hi.preceded, ?_⟩
      intro hphase
      have hcomplete : (replayed (s.topic.lrange s.now) since).2 = true := Phase.answered.inj hphase
      obtain ⟨k, hk, hlog⟩ := hi.log
      left
      change above since ((if (replayed (s.topic.lrange s.now) since).2 = true then
        (replayed (s.topic.lrange s.now) since).1 else []) ++ s.subscriber.waiting) = _
      rw [if_pos hcomplete, above_append, hguard hne hcomplete, List.append_nil]
      exact above_replayed hk hlog hne hcomplete
  · cases h

theorem inv_get (hi : Inv since s) (hguard : InTurn since s .get)
    (h : step channel since s .get = some t) : Inv since t := by
  simp only [step] at h
  split at h
  · cases h
    refine ⟨hi.log, hi.counter, hi.logged, hi.preceded, ?_⟩
    intro hphase
    have hcomplete : (replayedNothing (s.topic.current s.now) since).2 = true :=
      Phase.answered.inj hphase
    have hwaiting := hguard hcomplete
    have hnothing : above since ((if (replayedNothing (s.topic.current s.now) since).2 = true then
        (replayedNothing (s.topic.current s.now) since).1 else []) ++ s.subscriber.waiting) = [] := by
      rw [if_pos hcomplete]
      exact hwaiting
    by_cases hlive : live s.topic.counter s.now = none
    · exact .inr ⟨hlive, hnothing⟩
    · left
      have hle : s.topic.current s.now ≤ since := of_decide_eq_true hcomplete
      have hlast := hi.counter hlive
      have hzero : s.last - since = 0 := by omega
      change _ = List.range' (since + 1) (s.last - since)
      rw [hzero]
      exact hnothing
  · cases h

theorem inv_deliver (hi : Inv since s) (h : step channel since s .deliver = some t) :
    Inv since t := by
  simp only [step] at h
  split at h
  · next complete f rest hphase hwaiting =>
    cases h
    refine ⟨hi.log, hi.counter, hi.logged, hi.preceded, ?_⟩
    intro h
    have hresumed := hi.resumed h
    rw [hwaiting] at hresumed
    change above since ((s.subscriber.received ++ [f]) ++ rest) = _ ∨
      _ ∧ above since ((s.subscriber.received ++ [f]) ++ rest) = []
    rw [List.append_assoc]
    exact hresumed
  · cases h

theorem inv_step {a : Action} (hi : Inv since s) (hguard : InTurn since s a)
    (h : Step channel since s a t) : Inv since t := by
  cases a with
  | wait span =>
    cases h
    exact inv_wait hi
  | allocate p => exact inv_allocate hi hguard h
  | prepare p event data => exact inv_prepare hi h
  | append p => exact inv_append hi hguard h
  | abandon p => exact inv_abandon hi h
  | subscribe => exact inv_subscribe hi h
  | lrange => exact inv_lrange hi hguard h
  | get => exact inv_get hi hguard h
  | deliver => exact inv_deliver hi h

theorem Inv.law (hi : Inv since s) : ReplayLaw since s := by
  constructor
  · intro hphase
    have hprefix : ∃ n, above since s.subscriber.received ++ above since s.subscriber.waiting =
        List.range' (since + 1) n := by
      rw [← above_append]
      rcases hi.resumed hphase with hall | ⟨_, hnothing⟩
      · exact ⟨_, hall⟩
      · exact ⟨0, hnothing⟩
    obtain ⟨n, hn⟩ := hprefix
    obtain ⟨k, _, hk, _⟩ := List.range'_eq_append_iff.1 hn.symm
    exact ⟨k, hk⟩
  · exact hi.preceded

/-- In every run within the guard a complete replay and the live frames after it have no hole and
no repetition, and each frame comes after its predecessor was logged. -/
theorem replay_resumes_in_order (channel : String) (since : ℕ) {as : List Action} {s : System}
    (h : Runs (Step channel since) (InTurn since) {} as s) : ReplayLaw since s := by
  have hinv := h.invariant (I := Inv since) (fun _ _ _ => inv_step) inv_initial
  exact hinv.law

instance (since : ℕ) (s : System) (a : Action) : Decidable (InTurn since s a) :=
  match a with
  | .allocate _ => inferInstanceAs (Decidable (_ → _))
  | .append p =>
    match h : s.publishers p with
    | .ready frame =>
      decidable_of_iff (frame.seq = s.last + 1 ∧ frame.seq ≤ s.topic.current s.now) (by
        simp [InTurn, h])
    | .idle => .isTrue (by simp [InTurn, h])
    | .counted _ => .isTrue (by simp [InTurn, h])
  | .lrange => inferInstanceAs (Decidable (_ → _))
  | .get => inferInstanceAs (Decidable (_ → _))
  | .wait _ | .prepare _ _ _ | .abandon _ | .subscribe | .deliver => .isTrue trivial

def publishing (p : ℕ) : List Action :=
  [.allocate p, .prepare p "leaderboard.delta" .null, .append p]

def resume : List Action :=
  publishing 0 ++ publishing 1 ++ [.subscribe, .lrange] ++ publishing 2 ++ [.deliver]

/-- The second frame is replayed, the third comes live. -/
theorem replay_resumes_on_sample :
    ∃ s, follow (step "competition:c" 1) (InTurn 1) resume {} = some s ∧
      s.subscriber.received.map Frame.seq = [2, 3] ∧ ReplayLaw 1 s := by
  have hrun : (follow (step "competition:c" 1) (InTurn 1) resume {}).map
      (fun s => s.subscriber.received.map Frame.seq) = some [2, 3] := by decide
  obtain ⟨s, hs, hreceived⟩ := Option.map_eq_some_iff.1 hrun
  exact ⟨s, hs, hreceived, replay_resumes_in_order "competition:c" 1 (runs_of_follow hs)⟩

def overtaking : List Action :=
  [.subscribe, .allocate 0, .allocate 1, .prepare 1 "leaderboard.delta" .null, .append 1]

/-- A frame published between `SUBSCRIBE` and `LRANGE`. -/
def overlapping : List Action :=
  publishing 0 ++ [.subscribe] ++ publishing 1 ++ [.lrange, .deliver]

/-- A frame goes out before its predecessor is logged, and a frame is delivered twice. -/
theorem replay_overtaken_and_repeated :
    (∃ acts s, Any (Step "competition:c" 1) {} acts s ∧
      s.published.map Frame.seq = [2] ∧ s.subscriber.waiting = s.published ∧ ¬ ReplayLaw 1 s) ∧
    ∃ acts s, Any (Step "competition:c" 1) {} acts s ∧ s.subscriber.phase = .answered true ∧
      s.subscriber.received.map Frame.seq = [2, 2] ∧ ¬ ReplayLaw 1 s := by
  constructor
  · have hrun : (follow (step "competition:c" 1) (fun _ _ => True) overtaking {}).map
        (fun s => (s.published.map Frame.seq, decide (s.subscriber.waiting = s.published))) =
        some ([2], true) := by decide
    obtain ⟨s, hs, hboth⟩ := Option.map_eq_some_iff.1 hrun
    obtain ⟨hpublished, hwaiting⟩ := Prod.mk.inj hboth
    refine ⟨overtaking, s, runs_of_follow hs, hpublished, of_decide_eq_true hwaiting, ?_⟩
    obtain ⟨f, rest, hcons, hseq, hrest⟩ := List.map_eq_cons_iff.1 hpublished
    intro h
    rcases h.preceded [] f rest hcons with hle | ⟨g, hg, _⟩
    · omega
    · cases hg
  · have hrun : (follow (step "competition:c" 1) (fun _ _ => True) overlapping {}).map
        (fun s => (s.subscriber.phase, s.subscriber.received.map Frame.seq)) =
        some (.answered true, [2, 2]) := by decide
    obtain ⟨s, hs, hboth⟩ := Option.map_eq_some_iff.1 hrun
    obtain ⟨hphase, hreceived⟩ := Prod.mk.inj hboth
    refine ⟨overlapping, s, runs_of_follow hs, hphase, hreceived, ?_⟩
    intro h
    obtain ⟨n, hn⟩ := h.resumed hphase
    have hnodup : ([2, 2] : List ℕ).Nodup := by
      unfold above at hn
      rw [hreceived] at hn
      have hrange : ([2, 2] : List ℕ) = List.range' 2 n := hn
      rw [hrange]
      exact List.nodup_range'
    exact absurd hnodup (by decide)

end IeltsHub.RealtimeReplay
