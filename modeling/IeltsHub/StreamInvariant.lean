import IeltsHub.ConsoleStream

set_option autoImplicit false

/-!
# What the console's stream promises

What may be done after what has been done, and the invariant that carries it: who holds the socket,
who waits for a ticket, which timers run. Each function of `connect` keeps it, also where the
caller closes the stream from inside a report.
-/
namespace IeltsHub.StreamSafety
open ConsoleStream

/-! ## What is promised -/

def newest : List Act → Option ℕ
  | [] => none
  | .mint id :: _ => some id
  | _ :: log => newest log

def Allowed (options : StreamOptions) (earlier : List Act) : Act → Prop
  | .mint id => .called ∉ earlier ∧ .mint id ∉ earlier
  | .opened id url => .called ∉ earlier ∧ .mint id ∈ earlier ∧ (∀ url', .opened id url' ∉ earlier) ∧
      ∃ ticket, .resolved id ticket ∈ earlier ∧ url = address options ticket
  | .frame id _ => .called ∉ earlier ∧ newest earlier = some id ∧ ∃ url, .opened id url ∈ earlier
  | _ => True

def Lawful (options : StreamOptions) : List Act → Prop
  | [] => True
  | a :: earlier => Allowed options earlier a ∧ Lawful options earlier

def held (w : World) : List Conn := w.sockets.filter (fun c => !c.shut && !c.ended)

structure Sound (options : StreamOptions) (w : World) : Prop where
  oneSocket : (held w).length ≤ 1
  oneRetry : w.retries.length ≤ 1
  lawful : Lawful options w.log
  wayOn : w.stopped ∨ held w ≠ [] ∨ w.retries ≠ [] ∨ ∃ m ∈ w.minting, m.mine = w.generation

/-- Where the connection stands; it is live from `hello` on. -/
def phase (w : World) : StreamState :=
  if w.stopped then .closed
  else if w.retryTimer.isSome then .retrying
  else if w.heartbeatTimer.isSome then .live
  else .connecting

def lastStatus : List Act → Option StreamState
  | [] => none
  | .status s :: _ => some s.state
  | _ :: log => lastStatus log

def Reports (w w' : World) : Prop :=
  ∃ news, w'.log = news ++ w.log ∧ (phase w' = phase w ∨ lastStatus news = some (phase w'))

/-- `close` is not called while a new attempt or a refusal is reported. -/
def Meets (w : World) (i : Input) : Prop :=
  match i.event with
  | .retry _ => w.stopped ∨ i.reaction.onStatus = 0
  | .message c _ parsed => ∀ f ∈ parseFrame parsed, c.mine = w.generation →
      refusal f w ≠ none → i.reaction.onStatus = 0
  | _ => True

/-! ## The invariant -/

structure Core (options : StreamOptions) (w : World) : Prop where
  ids : (w.minting.map Mint.id ++ w.sockets.map Conn.id).Nodup
  mines : (w.minting.map Mint.mine).Nodup
  mintingOld : ∀ m ∈ w.minting, m.id < w.fresh ∧ m.mine ≤ w.generation ∧ .mint m.id ∈ w.log
  socketsOld : ∀ c ∈ w.sockets, c.id < w.fresh ∧ c.mine ≤ w.generation ∧
    ∃ url, .opened c.id url ∈ w.log
  held : ∀ c ∈ w.sockets, c.shut = false → c.ended = false → w.socket = some c.id
  current : ∀ c ∈ w.sockets, c.mine = w.generation → c.ended = false → w.socket = some c.id
  socket : ∀ id ∈ w.socket, ∃ c ∈ w.sockets, c.id = id ∧ c.mine = w.generation ∧
    c.shut = false ∧ c.ended = false
  retries : w.retries = w.retryTimer.toList
  beats : w.beats = w.heartbeatTimer.toList
  asking : ∀ m ∈ w.minting, m.mine = w.generation →
    w.socket = none ∧ w.retryTimer = none ∧ w.heartbeatTimer = none
  holding : w.socket ≠ none → w.retryTimer = none
  beating : w.heartbeatTimer ≠ none → w.socket ≠ none ∨ w.stopped
  stopped : w.stopped → (∀ m ∈ w.minting, m.mine < w.generation) ∧
    ∀ c ∈ w.sockets, c.mine < w.generation
  running : .called ∈ w.log → w.stopped
  logOld : ∀ id, .mint id ∈ w.log → id < w.fresh
  openedOld : ∀ id url, .opened id url ∈ w.log → ∃ c ∈ w.sockets, c.id = id
  newestMint : ∀ m ∈ w.minting, m.mine = w.generation → newest w.log = some m.id
  newestSocket : ∀ c ∈ w.sockets, c.mine = w.generation → newest w.log = some c.id
  lawful : Lawful options w.log

def Settled (w : World) : Prop :=
  w.stopped ∨ w.socket ≠ none ∨ w.retryTimer ≠ none ∨ ∃ m ∈ w.minting, m.mine = w.generation

variable {options : StreamOptions} {w w' : World}

/-! ## What has been done -/

/-- Neither a call of `close` nor anything that it forbids. -/
def Plain : Act → Prop
  | .called | .mint _ | .opened _ _ | .frame _ _ => False
  | _ => True

theorem newest_append {news log : List Act} (h : ∀ a ∈ news, ∀ id, a ≠ .mint id) :
    newest (news ++ log) = newest log := by
  induction news with
  | nil => rfl
  | cons a news ih =>
    have ha := h a List.mem_cons_self
    rw [List.cons_append, ← ih (fun b hb => h b (List.mem_cons_of_mem a hb))]
    cases a with
    | mint id => exact absurd rfl (ha id)
    | _ => rfl

theorem lastStatus_append {news log : List Act} {state : StreamState}
    (h : lastStatus news = some state) : lastStatus (news ++ log) = some state := by
  induction news with
  | nil => cases h
  | cons a news ih =>
    cases a with
    | status s => exact h
    | _ => exact ih h

theorem Lawful.earlier {news log : List Act} (h : Lawful options (news ++ log)) :
    Lawful options log := by
  induction news with
  | nil => exact h
  | cons a news ih => exact ih h.2

theorem Lawful.append {news log : List Act} (h : Lawful options log)
    (hnews : ∀ a ∈ news, ∀ earlier, Allowed options earlier a) : Lawful options (news ++ log) := by
  induction news with
  | nil => exact h
  | cons a news ih =>
    exact ⟨hnews a List.mem_cons_self _, ih (fun b hb => hnews b (List.mem_cons_of_mem a hb))⟩

theorem plain_singleton (a : Act) (h : Plain a) : ∀ b ∈ [a], Plain b := by
  intro b hb
  rw [List.mem_singleton.1 hb]
  exact h

theorem Plain.allowed {a : Act} (h : Plain a) (earlier : List Act) : Allowed options earlier a := by
  cases a with
  | called => exact trivial
  | mint id => exact h.elim
  | opened id url => exact h.elim
  | frame id f => exact h.elim
  | _ => exact trivial

/-! ## What keeps the invariant -/

theorem mem_news {news log : List Act} (a : Act) (hnews : ∀ b ∈ news, Plain b ∨ b = .called)
    (ha : ¬ Plain a) (hcalled : a ≠ .called) : a ∈ news ++ log ↔ a ∈ log := by
  rw [List.mem_append]
  constructor
  · rintro (hmem | hmem)
    · rcases hnews a hmem with h | h
      · exact absurd h ha
      · exact absurd h hcalled
    · exact hmem
  · exact .inr

theorem Core.logged (h : Core options w) {news : List Act} (hplain : ∀ a ∈ news, Plain a) :
    Core options { w with log := news ++ w.log } := by
  have hnews : ∀ a ∈ news, Plain a ∨ a = .called := fun a ha => .inl (hplain a ha)
  have hnewest : newest (news ++ w.log) = newest w.log := by
    refine newest_append (fun a ha id heq => ?_)
    subst heq
    exact hplain _ ha
  exact {
    h with
    mintingOld := fun m hm => by
      obtain ⟨hid, hmine, hlog⟩ := h.mintingOld m hm
      exact ⟨hid, hmine, List.mem_append_right _ hlog⟩
    socketsOld := fun c hc => by
      obtain ⟨hid, hmine, url, hlog⟩ := h.socketsOld c hc
      exact ⟨hid, hmine, url, List.mem_append_right _ hlog⟩
    running := fun hcalled => by
      rcases List.mem_append.1 hcalled with hmem | hmem
      · exact (hplain _ hmem).elim
      · exact h.running hmem
    logOld := fun id hmem => h.logOld id ((mem_news (.mint id) hnews (fun q => q) (by simp)).1 hmem)
    openedOld := fun id url hmem =>
      h.openedOld id url ((mem_news (.opened id url) hnews (fun q => q) (by simp)).1 hmem)
    newestMint := fun m hm hmine => hnewest.trans (h.newestMint m hm hmine)
    newestSocket := fun c hc hmine => hnewest.trans (h.newestSocket c hc hmine)
    lawful := h.lawful.append (fun a ha => (hplain a ha).allowed) }

theorem filter_own (timer : Option ℕ) :
    timer.toList.filter (fun t => decide (some t ≠ timer)) = [] := by
  cases timer with
  | none => rfl
  | some t => simp

theorem Core.beats_cleared (h : Core options w) :
    w.beats.filter (fun t => decide (some t ≠ w.heartbeatTimer)) = [] := by
  rw [h.beats]
  exact filter_own _

theorem Core.stopHeartbeat (h : Core options w) : Core options (stopHeartbeat w) := {
  h with
  beats := h.beats_cleared
  asking := fun m hm hmine =>
    ⟨(h.asking m hm hmine).1, (h.asking m hm hmine).2.1, rfl⟩
  beating := fun hbeat => absurd rfl hbeat }

theorem Core.bumped (h : Core options w) {news : List Act} {stopped : Bool} {retryTimer : Option ℕ}
    (hstopped : w.stopped → stopped) (hnews : ∀ a ∈ news, Plain a ∨ a = .called)
    (hcalled : .called ∈ news → stopped) :
    Core options { w with
      stopped := stopped
      generation := w.generation + 1
      retryTimer := retryTimer
      retries := retryTimer.toList
      heartbeatTimer := none
      beats := []
      socket := none
      sockets := w.sockets.map (fun c =>
        if w.socket = some c.id then { c with shut := true } else c)
      log := news ++ w.log } := by
  have hsame : ∀ d ∈ w.sockets.map (fun c => if w.socket = some c.id then { c with shut := true }
      else c), ∃ c ∈ w.sockets, d.id = c.id ∧ d.mine = c.mine ∧
        (d.shut = false → c.shut = false ∧ w.socket ≠ some c.id) ∧ d.ended = c.ended := by
    intro d hd
    obtain ⟨c, hc, rfl⟩ := List.mem_map.1 hd
    refine ⟨c, hc, ?_⟩
    split
    · exact ⟨rfl, rfl, fun q => Bool.noConfusion q, rfl⟩
    · next hother => exact ⟨rfl, rfl, fun q => ⟨q, hother⟩, rfl⟩
  have hids : (w.sockets.map (fun c => if w.socket = some c.id then { c with shut := true }
      else c)).map Conn.id = w.sockets.map Conn.id := by
    rw [List.map_map]
    refine List.map_congr_left (fun c _ => ?_)
    simp only [Function.comp_apply]
    split <;> rfl
  have hallowed : ∀ a ∈ news, ∀ earlier, Allowed options earlier a := by
    intro a ha earlier
    rcases hnews a ha with hplain | rfl
    · exact hplain.allowed earlier
    · exact trivial
  have hlt : ∀ {n : ℕ}, n ≤ w.generation → n < w.generation + 1 := Nat.lt_succ_of_le
  exact {
    ids := by
      simp only [hids]
      exact h.ids
    mines := h.mines
    mintingOld := fun m hm => by
      obtain ⟨hid, hmine, hlog⟩ := h.mintingOld m hm
      exact ⟨hid, (hlt hmine).le, List.mem_append_right _ hlog⟩
    socketsOld := fun d hd => by
      obtain ⟨c, hc, hid, hmine, _, _⟩ := hsame d hd
      obtain ⟨hold, hle, url, hlog⟩ := h.socketsOld c hc
      rw [hid, hmine]
      exact ⟨hold, (hlt hle).le, url, List.mem_append_right _ hlog⟩
    held := fun d hd hshut hended => by
      obtain ⟨c, hc, _, _, hopen, hend⟩ := hsame d hd
      exact absurd (h.held c hc (hopen hshut).1 (hend ▸ hended)) (hopen hshut).2
    current := fun d hd hmine _ => by
      obtain ⟨c, hc, _, hm, _, _⟩ := hsame d hd
      have hle := hlt (h.socketsOld c hc).2.1
      rw [← hm, hmine] at hle
      exact absurd hle (lt_irrefl _)
    socket := fun id hid => by cases hid
    retries := rfl
    beats := rfl
    asking := fun m hm hmine => by
      have hle := hlt (h.mintingOld m hm).2.1
      rw [hmine] at hle
      exact absurd hle (lt_irrefl _)
    holding := fun hsocket => absurd rfl hsocket
    beating := fun hbeat => absurd rfl hbeat
    stopped := fun _ => ⟨fun m hm => hlt (h.mintingOld m hm).2.1, fun d hd => by
      obtain ⟨c, hc, _, hm, _, _⟩ := hsame d hd
      rw [hm]
      exact hlt (h.socketsOld c hc).2.1⟩
    running := fun hmem => by
      rcases List.mem_append.1 hmem with hmem | hmem
      · exact hcalled hmem
      · exact hstopped (h.running hmem)
    logOld := fun id hmem => h.logOld id ((mem_news (.mint id) hnews (fun q => q) (by simp)).1 hmem)
    openedOld := fun id url hmem => by
      obtain ⟨c, hc, hid⟩ := h.openedOld id url
        ((mem_news (.opened id url) hnews (fun q => q) (by simp)).1 hmem)
      have hmap : id ∈ w.sockets.map Conn.id := List.mem_map.2 ⟨c, hc, hid⟩
      rw [← hids] at hmap
      exact List.mem_map.1 hmap
    newestMint := fun m hm hmine => by
      have hle := hlt (h.mintingOld m hm).2.1
      rw [hmine] at hle
      exact absurd hle (lt_irrefl _)
    newestSocket := fun d hd hmine => by
      obtain ⟨c, hc, _, hm, _, _⟩ := hsame d hd
      have hle := hlt (h.socketsOld c hc).2.1
      rw [← hm, hmine] at hle
      exact absurd hle (lt_irrefl _)
    lawful := h.lawful.append hallowed }

/-! ## Closing -/

theorem closeOnce_eq (h : Core options w) : ∃ news, closeOnce w = { w with
      stopped := true
      generation := w.generation + 1
      retryTimer := none
      retries := (none : Option ℕ).toList
      heartbeatTimer := none
      beats := []
      socket := none
      sockets := w.sockets.map (fun c =>
        if w.socket = some c.id then { c with shut := true } else c)
      log := news ++ w.log } ∧ (∀ a ∈ news, Plain a ∨ a = .called) ∧ .called ∈ news ∧
      lastStatus news = some .closed := by
  refine ⟨.status ⟨.closed, w.attempt, w.refused⟩ :: (w.socket.toList.map .shut ++ [.called]), ?_,
    ?_, ?_, rfl⟩
  · have hbeats := h.beats_cleared
    have hretries : w.retries.filter (fun t => decide (some t ≠ w.retryTimer)) = [] := by
      rw [h.retries]
      exact filter_own _
    unfold closeOnce ConsoleStream.tell drop clearRetry ConsoleStream.stopHeartbeat did
    simp only [hbeats, hretries, List.cons_append, List.append_assoc, List.nil_append,
      Option.toList_none]
  · intro a ha
    rcases List.mem_cons.1 ha with rfl | ha
    · exact .inl trivial
    · rcases List.mem_append.1 ha with ha | ha
      · obtain ⟨id, _, rfl⟩ := List.mem_map.1 ha
        exact .inl trivial
      · exact .inr (List.mem_singleton.1 ha)
  · simp

theorem Core.closeOnce (h : Core options w) : Core options (closeOnce w) := by
  obtain ⟨news, heq, hnews, _, _⟩ := closeOnce_eq h
  rw [heq]
  exact h.bumped (fun _ => rfl) hnews (fun _ => rfl)

theorem Core.close (h : Core options w) (times : ℕ) : Core options (close times w) := by
  induction times generalizing w with
  | zero => exact h
  | succ times ih => exact ih h.closeOnce

theorem close_of_stopped (h : w.stopped) (times : ℕ) : (close times w).stopped := by
  induction times generalizing w with
  | zero => exact h
  | succ times ih => exact ih rfl

theorem close_cases (times : ℕ) (w : World) :
    (times = 0 ∧ close times w = w) ∨ (0 < times ∧ (close times w).stopped) := by
  cases times with
  | zero => exact .inl ⟨rfl, rfl⟩
  | succ times => exact .inr ⟨Nat.succ_pos _, close_of_stopped rfl times⟩

theorem closeOnce_log (w : World) : (closeOnce w).log =
    .status ⟨.closed, w.attempt, w.refused⟩ :: w.socket.toList.map .shut ++ .called :: w.log := rfl

theorem close_log (times : ℕ) (w : World) : ∃ news, (close times w).log = news ++ w.log ∧
    (times = 0 → news = []) ∧ (0 < times → lastStatus news = some .closed ∧ .called ∈ news) := by
  induction times generalizing w with
  | zero => exact ⟨[], rfl, fun _ => rfl, fun h => absurd h (lt_irrefl 0)⟩
  | succ times ih =>
    obtain ⟨news, hlog, hnil, hsome⟩ := ih (closeOnce w)
    refine ⟨news ++ (.status ⟨.closed, w.attempt, w.refused⟩ :: w.socket.toList.map .shut ++
      [.called]), ?_, fun h => absurd h (Nat.succ_ne_zero _), fun _ => ⟨?_, by simp⟩⟩
    · change (ConsoleStream.close times (ConsoleStream.closeOnce w)).log = _
      rw [hlog, closeOnce_log]
      simp
    · rcases Nat.eq_zero_or_pos times with rfl | hpos
      · rw [hnil rfl]
        rfl
      · exact lastStatus_append (hsome hpos).1

/-! ## Announcing -/

theorem Core.vars (h : Core options w) (attempt : ℕ) (refused : List String) (seconds : ℚ)
    (heard : ℤ) : Core options { w with
      attempt := attempt, refused := refused, heartbeatSeconds := seconds, lastHeard := heard } :=
  { h with }

theorem Core.tell (h : Core options w) (state : StreamState) : Core options (tell state w) := by
  exact h.logged (plain_singleton (.status ⟨state, w.attempt, w.refused⟩) trivial)

theorem Core.announce (h : Core options w) (state : StreamState) (times : ℕ) :
    Core options (announce state times w) := (h.tell state).close times

theorem announce_log (state : StreamState) (times : ℕ) (w : World) :
    ∃ news, (announce state times w).log = news ++ w.log ∧
      lastStatus news = some (if times = 0 then state else .closed) := by
  obtain ⟨news, hlog, hnil, hsome⟩ := close_log times (ConsoleStream.tell state w)
  refine ⟨news ++ [.status ⟨state, w.attempt, w.refused⟩], ?_, ?_⟩
  · unfold ConsoleStream.announce
    rw [hlog, List.append_assoc]
    rfl
  · rcases Nat.eq_zero_or_pos times with rfl | hpos
    · rw [hnil rfl]
      rfl
    · rw [if_neg hpos.ne', lastStatus_append (hsome hpos).1]

def Idle (w : World) : Prop := w.socket = none ∧ ∀ m ∈ w.minting, m.mine ≠ w.generation

theorem Core.idle_of_stopped (h : Core options w) (hstopped : w.stopped) : Idle w := by
  obtain ⟨hminting, hsockets⟩ := h.stopped hstopped
  refine ⟨?_, fun m hm => (hminting m hm).ne⟩
  rw [Option.eq_none_iff_forall_ne_some]
  intro id hid
  obtain ⟨c, hc, _, hmine, _⟩ := h.socket id hid
  exact (hsockets c hc).ne hmine

theorem Core.idle_announce (h : Core options w) (hidle : Idle w) (state : StreamState)
    (times : ℕ) : Idle (ConsoleStream.announce state times w) := by
  rcases close_cases times (ConsoleStream.tell state w) with ⟨_, heq⟩ | ⟨_, hstopped⟩
  · unfold ConsoleStream.announce
    rw [heq]
    exact hidle
  · exact (h.announce state times).idle_of_stopped hstopped

/-! ## Trying again -/

theorem Core.setRetryTimer (h : Core options w) (hidle : Idle w) (hnone : w.retryTimer = none)
    (random : ℚ) : Core options (setRetryTimer random w) := by
  have hafter : Core options { w with
      retryTimer := some w.fresh, retries := w.fresh :: w.retries, fresh := w.fresh + 1 } := {
    h with
    mintingOld := fun m hm => by
      obtain ⟨hid, hrest⟩ := h.mintingOld m hm
      exact ⟨Nat.lt_succ_of_lt hid, hrest⟩
    socketsOld := fun c hc => by
      obtain ⟨hid, hrest⟩ := h.socketsOld c hc
      exact ⟨Nat.lt_succ_of_lt hid, hrest⟩
    retries := by
      rw [h.retries, hnone]
      rfl
    asking := fun m hm hmine => absurd hmine (hidle.2 m hm)
    holding := fun hsocket => absurd hidle.1 hsocket
    logOld := fun id hid => Nat.lt_succ_of_lt (h.logOld id hid) }
  exact hafter.logged (plain_singleton (.wait (backoffDelay w.attempt random)) trivial)

theorem close_retryTimer (h : w.retryTimer = none) (times : ℕ) :
    (close times w).retryTimer = none := by
  induction times generalizing w with
  | zero => exact h
  | succ times ih => exact ih rfl

theorem phase_closed (h : w.stopped) : phase w = .closed := by
  unfold phase
  rw [if_pos h]

theorem phase_retrying (h : w.stopped = false) (hretry : w.retryTimer.isSome) :
    phase w = .retrying := by
  unfold phase
  rw [h, if_neg (by decide), if_pos hretry]

theorem phase_live (h : w.stopped = false) (hretry : w.retryTimer = none)
    (hbeat : w.heartbeatTimer.isSome) : phase w = .live := by
  unfold phase
  rw [h, if_neg (by decide), hretry, if_neg (by decide), if_pos hbeat]

theorem phase_connecting (h : w.stopped = false) (hretry : w.retryTimer = none)
    (hbeat : w.heartbeatTimer = none) : phase w = .connecting := by
  unfold phase
  rw [h, if_neg (by decide), hretry, if_neg (by decide), hbeat, if_neg (by decide)]

theorem announce_zero (state : StreamState) (w : World) :
    announce state 0 w = ConsoleStream.tell state w := rfl

theorem announce_of_pos {times : ℕ} (h : 0 < times) (state : StreamState) (w : World) :
    (announce state times w).stopped := by
  rcases close_cases times (ConsoleStream.tell state w) with ⟨hzero, _⟩ | ⟨_, hstopped⟩
  · exact absurd hzero h.ne'
  · exact hstopped

theorem Core.scheduleRetry (h : Core options w)
    (hfree : w.stopped = false → Idle w ∧ w.retryTimer = none) (random : ℚ) (r : Reaction) :
    Core options (scheduleRetry random r w) ∧ Settled (scheduleRetry random r w) := by
  unfold ConsoleStream.scheduleRetry
  by_cases hstopped : w.stopped
  · rw [if_pos hstopped]
    exact ⟨h, .inl hstopped⟩
  · rw [if_neg hstopped]
    obtain ⟨hidle, hnone⟩ := hfree (by simpa using hstopped)
    have hvars := h.vars (w.attempt + 1) w.refused w.heartbeatSeconds w.lastHeard
    have hnone' : (ConsoleStream.tell .retrying { w with attempt := w.attempt + 1 }).retryTimer =
        none := hnone
    refine ⟨(hvars.announce .retrying r.onStatus).setRetryTimer
      (hvars.idle_announce hidle .retrying r.onStatus) (close_retryTimer hnone' _) random, ?_⟩
    exact .inr (.inr (.inl (Option.some_ne_none _)))

theorem scheduleRetry_log (random : ℚ) (r : Reaction) (w : World) :
    ∃ news, (scheduleRetry random r w).log = news ++ w.log ∧
      (w.stopped = false → lastStatus news = some (phase (scheduleRetry random r w))) := by
  unfold ConsoleStream.scheduleRetry
  by_cases hstopped : w.stopped
  · rw [if_pos hstopped]
    exact ⟨[], rfl, fun q => by rw [hstopped] at q; cases q⟩
  · rw [if_neg hstopped]
    have hopen : w.stopped = false := by simpa using hstopped
    obtain ⟨news, hlog, hlast⟩ := announce_log .retrying r.onStatus
      { w with attempt := w.attempt + 1 }
    have hphase : phase (ConsoleStream.setRetryTimer random (ConsoleStream.announce .retrying
        r.onStatus { w with attempt := w.attempt + 1 })) =
        if r.onStatus = 0 then .retrying else .closed := by
      by_cases hzero : r.onStatus = 0
      · rw [if_pos hzero, hzero]
        exact phase_retrying hopen rfl
      · rw [if_neg hzero]
        exact phase_closed (announce_of_pos (Nat.pos_of_ne_zero hzero) _ _)
    rw [hphase]
    exact ⟨.wait _ :: news, congrArg (List.cons _) hlog, fun _ => hlast⟩

end IeltsHub.StreamSafety
