import IeltsHub.PyTime
import IeltsHub.PyValue

set_option autoImplicit false

/-!
# The fan-out bus

`app/platform/realtime.py`: what `publish` and `replay` do to the two Redis keys of a channel, one
command at a time. A key past its expiry reads as missing.
-/
namespace IeltsHub.RealtimeBus
open PyTime PyValue

structure Key (α : Type) where
  value : α
  expiresAt : Option Time := none
  deriving DecidableEq

variable {α : Type}

def live (key : Option (Key α)) (now : Time) : Option (Key α) :=
  key.filter (fun k => k.expiresAt.all (fun t => now < t))

def valueAt (key : Option (Key α)) (now : Time) : Option α := (live key now).map Key.value

/-- `EXPIRE`; on a missing key it does nothing. -/
def expire (key : Option (Key α)) (ttl : ℤ) (now : Time) : Option (Key α) :=
  (live key now).map (fun k => { k with expiresAt := some (now + seconds ttl) })

/-- `INCR`; a missing key counts from zero and has no expiry. -/
def incr (key : Option (Key ℕ)) (now : Time) : Key ℕ :=
  match live key now with
  | some k => { k with value := k.value + 1 }
  | none => { value := 1 }

def lpush (key : Option (Key (List α))) (item : α) (now : Time) : Key (List α) :=
  match live key now with
  | some k => { k with value := item :: k.value }
  | none => { value := [item] }

def ltrim (key : Key (List α)) (kept : ℕ) : Key (List α) := { key with value := key.value.take kept }

def replayFrames : ℕ := 100
def replayTtlSeconds : ℤ := 300
def seqTtlSeconds : ℤ := 86400

/-- `RtEnvelope`, the only shape on the wire. -/
structure Frame where
  type : String
  channel : String
  seq : ℕ
  ts : Time
  data : Json
  deriving DecidableEq

/-- The keys of one channel: the counter, and the log with its newest frame first. -/
structure Topic where
  counter : Option (Key ℕ) := none
  log : Option (Key (List Frame)) := none
  deriving DecidableEq

def Topic.allocate (t : Topic) (now : Time) : Topic × ℕ :=
  ({ t with counter := some (incr t.counter now) }, (incr t.counter now).value)

def Topic.keepCounter (t : Topic) (now : Time) : Topic :=
  { t with counter := expire t.counter seqTtlSeconds now }

/-- The pipeline of `publish`, less its `PUBLISH`. -/
def Topic.append (t : Topic) (frame : Frame) (now : Time) : Topic :=
  { t with log := expire (some (ltrim (lpush t.log frame now) replayFrames)) replayTtlSeconds now }

/-- `LRANGE 0 -1`. -/
def Topic.lrange (t : Topic) (now : Time) : List Frame := (valueAt t.log now).getD []

/-- `int(current or 0)`. -/
def Topic.current (t : Topic) (now : Time) : ℕ := (valueAt t.counter now).getD 0

/-- What `replay` returns where the log is not empty. -/
def replayed (raw : List Frame) (sinceSeq : ℕ) : List Frame × Bool :=
  let frames := raw.reverse
  (frames.filter (fun f => sinceSeq < f.seq), (frames.head?.map Frame.seq).getD 0 ≤ sinceSeq + 1)

/-- What `replay` returns where it is, from the counter. -/
def replayedNothing (current sinceSeq : ℕ) : List Frame × Bool := ([], current ≤ sinceSeq)

/-! ## What the commands leave -/

section
variable {key : Option (Key α)} {now : Time}

theorem live_eq_some {k : Key α} : live key now = some k ↔
    key = some k ∧ k.expiresAt.all (fun t => now < t) = true := by
  unfold live
  rw [Option.filter_eq_some_iff]

theorem live_later (h : live key now = none) (span : ℕ) : live key (now + span) = none := by
  cases hlater : live key (now + span) with
  | none => rfl
  | some k =>
    obtain ⟨hkey, hexp⟩ := live_eq_some.1 hlater
    have hnow : live key now = some k := by
      refine live_eq_some.2 ⟨hkey, ?_⟩
      cases ht : k.expiresAt with
      | none => rfl
      | some t =>
        rw [ht] at hexp
        have hlt : now + span < t := by simpa using hexp
        have hle : now ≤ now + span := le_add_of_nonneg_right (Int.natCast_nonneg span)
        exact decide_eq_true (lt_of_le_of_lt hle hlt)
    rw [h] at hnow
    cases hnow

theorem valueAt_later (key : Option (Key α)) (now : Time) (span : ℕ) :
    valueAt key (now + span) = valueAt key now ∨ valueAt key (now + span) = none := by
  unfold valueAt
  cases hlater : live key (now + span) with
  | none => exact .inr rfl
  | some k =>
    left
    cases hnow : live key now with
    | none =>
      rw [live_later hnow span] at hlater
      cases hlater
    | some l =>
      have hk := (live_eq_some.1 hlater).1
      have hl := (live_eq_some.1 hnow).1
      rw [hk] at hl
      rw [Option.some.inj hl]

theorem valueAt_expire {ttl : ℤ} (hpos : 0 < ttl) :
    valueAt (expire key ttl now) now = valueAt key now := by
  unfold valueAt expire
  cases hkey : live key now with
  | none => rfl
  | some k =>
    have hlt : now < now + seconds ttl :=
      lt_add_of_pos_right now (Int.mul_pos hpos (by decide))
    have hlive : live (some { k with expiresAt := some (now + seconds ttl) }) now =
        some { k with expiresAt := some (now + seconds ttl) } := by
      refine live_eq_some.2 ⟨rfl, ?_⟩
      simpa using hlt
    rw [Option.map_some, hlive]
    rfl

theorem live_of_valueAt : live key now = none ↔ valueAt key now = none := by
  unfold valueAt
  rw [Option.map_eq_none_iff]

end

theorem valueAt_incr (key : Option (Key ℕ)) (now : Time) :
    valueAt (some (incr key now)) now = some ((valueAt key now).getD 0 + 1) := by
  unfold incr valueAt
  cases hkey : live key now with
  | none => rfl
  | some k =>
    have hlive : live (some { k with value := k.value + 1 }) now =
        some { k with value := k.value + 1 } :=
      live_eq_some.2 ⟨rfl, (live_eq_some.1 hkey).2⟩
    simp only [hlive]
    rfl

theorem valueAt_lpush (key : Option (Key (List α))) (item : α) (kept : ℕ) (now : Time) :
    valueAt (some (ltrim (lpush key item now) kept)) now =
      some ((item :: (valueAt key now).getD []).take kept) := by
  unfold lpush valueAt
  cases hkey : live key now with
  | none => rfl
  | some k =>
    have hlive : live (some (ltrim { k with value := item :: k.value } kept)) now =
        some (ltrim { k with value := item :: k.value } kept) :=
      live_eq_some.2 ⟨rfl, (live_eq_some.1 hkey).2⟩
    simp only [hlive]
    rfl

variable {t : Topic} {now : Time}

theorem lrange_append {f : Frame} :
    (t.append f now).lrange now = (f :: t.lrange now).take replayFrames := by
  unfold Topic.append Topic.lrange
  rw [valueAt_expire (by decide), valueAt_lpush]
  rfl

theorem lrange_later (t : Topic) (now : Time) (span : ℕ) :
    t.lrange (now + span) = t.lrange now ∨ t.lrange (now + span) = [] := by
  unfold Topic.lrange
  rcases valueAt_later t.log now span with h | h
  · exact .inl (by rw [h])
  · exact .inr (by rw [h]; rfl)

theorem mem_append_log {f g : Frame} {k : Key (List Frame)} (h : (t.append f now).log = some k)
    (hg : g ∈ k.value) : g = f ∨ ∃ k', t.log = some k' ∧ g ∈ k'.value := by
  unfold Topic.append expire at h
  obtain ⟨l, hl, rfl⟩ := Option.map_eq_some_iff.1 h
  have hl := (live_eq_some.1 hl).1
  have hmem : g ∈ (lpush t.log f now).value := by
    rw [← Option.some.inj hl] at hg
    exact List.mem_of_mem_take hg
  unfold lpush at hmem
  cases hlog : live t.log now with
  | none =>
    rw [hlog] at hmem
    exact .inl (List.mem_singleton.1 hmem)
  | some k' =>
    rw [hlog] at hmem
    rcases List.mem_cons.1 hmem with hgf | hold
    · exact .inl hgf
    · exact .inr ⟨k', (live_eq_some.1 hlog).1, hold⟩

/-- Every channel's keys; a log holds only the frames of its own channel. -/
structure Bus where
  topic : String → Topic
  addressed : ∀ channel k f, (topic channel).log = some k → f ∈ k.value → f.channel = channel

namespace Bus

def empty : Bus := ⟨fun _ => {}, by
  intro channel k f h
  cases h⟩

def allocate (b : Bus) (channel : String) (now : Time) : Bus where
  topic := Function.update b.topic channel ((b.topic channel).allocate now).1
  addressed := by
    intro c k f h hf
    by_cases hc : c = channel
    · rw [hc, Function.update_self] at h
      rw [hc]
      exact b.addressed channel k f h hf
    · rw [Function.update_of_ne hc] at h
      exact b.addressed c k f h hf

def keepCounter (b : Bus) (channel : String) (now : Time) : Bus where
  topic := Function.update b.topic channel ((b.topic channel).keepCounter now)
  addressed := by
    intro c k f h hf
    by_cases hc : c = channel
    · rw [hc, Function.update_self] at h
      rw [hc]
      exact b.addressed channel k f h hf
    · rw [Function.update_of_ne hc] at h
      exact b.addressed c k f h hf

def append (b : Bus) (frame : Frame) (now : Time) : Bus where
  topic := Function.update b.topic frame.channel ((b.topic frame.channel).append frame now)
  addressed := by
    intro c k f h hf
    by_cases hc : c = frame.channel
    · rw [hc, Function.update_self] at h
      rcases mem_append_log h hf with hnew | ⟨k', hk', hold⟩
      · rw [hnew, hc]
      · rw [hc]
        exact b.addressed frame.channel k' f hk' hold
    · rw [Function.update_of_ne hc] at h
      exact b.addressed c k f h hf

theorem channel_of_lrange {b : Bus} {channel : String} {f : Frame}
    (h : f ∈ (b.topic channel).lrange now) : f.channel = channel := by
  unfold Topic.lrange valueAt at h
  cases hlog : live (b.topic channel).log now with
  | none =>
    rw [hlog] at h
    cases h
  | some k =>
    rw [hlog] at h
    exact b.addressed channel k f (live_eq_some.1 hlog).1 h

end Bus

end IeltsHub.RealtimeBus
