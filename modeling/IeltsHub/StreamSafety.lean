import IeltsHub.GuardedRuns
import IeltsHub.StreamInvariant

set_option autoImplicit false

/-!
# One stream at a time

Whatever happens, and in whatever order, `connect` holds one socket at most and is never left
without a way on. `close` is final except from inside two reports that `connect` makes before it is
done: of a new attempt, after which it asks for a ticket, and of a refusal, after which it hands
the frame on.
-/
namespace IeltsHub.StreamSafety
open GuardedRuns ConsoleStream PyValue

variable {options : StreamOptions} {w w' : World}

/-! ## One event -/

/-- What an event has to leave behind. -/
structure Kept (options : StreamOptions) (w w' : World) : Prop where
  core : Core options w'
  settled : Settled w'
  reports : Reports w w'

theorem Reports.of_eq {news : List Act} (hlog : w'.log = news ++ w.log)
    (hstopped : w'.stopped = w.stopped) (hretry : w'.retryTimer = w.retryTimer)
    (hbeat : w'.heartbeatTimer = w.heartbeatTimer) : Reports w w' := by
  refine ⟨news, hlog, .inl ?_⟩
  unfold phase
  rw [hstopped, hretry, hbeat]

theorem Core.not_called (h : Core options w) (hopen : w.stopped = false) : .called ∉ w.log := by
  intro hcalled
  rw [h.running hcalled] at hopen
  cases hopen

/-! ### Tickets -/

theorem Core.without (h : Core options w) (m : Mint) : Core options (without m w) := {
  h with
  ids := h.ids.sublist ((List.filter_sublist.map Mint.id).append (List.Sublist.refl _))
  mines := h.mines.sublist (List.filter_sublist.map Mint.mine)
  mintingOld := fun n hn => h.mintingOld n (List.mem_filter.1 hn).1
  asking := fun n hn => h.asking n (List.mem_filter.1 hn).1
  stopped := fun hstopped => ⟨fun n hn => (h.stopped hstopped).1 n (List.mem_filter.1 hn).1,
    (h.stopped hstopped).2⟩
  newestMint := fun n hn => h.newestMint n (List.mem_filter.1 hn).1 }

theorem Core.without_idle (h : Core options w) {m : Mint} (hm : m ∈ w.minting)
    (hmine : m.mine = w.generation) : Idle (ConsoleStream.without m w) := by
  refine ⟨(h.asking m hm hmine).1, fun n hn hcurrent => ?_⟩
  obtain ⟨hmem, hother⟩ := List.mem_filter.1 hn
  have hsame : n = m := List.inj_on_of_nodup_map h.mines hmem hm (hcurrent.trans hmine.symm)
  rw [hsame] at hother
  simp at hother

theorem Settled.without (hs : Settled w) (h : Core options w) {m : Mint} (hm : m ∈ w.minting)
    (hstale : w.stopped ∨ m.mine ≠ w.generation) : Settled (without m w) := by
  rcases hs with hstopped | hsocket | hretry | ⟨n, hn, hcurrent⟩
  · exact .inl hstopped
  · exact .inr (.inl hsocket)
  · exact .inr (.inr (.inl hretry))
  · rcases hstale with hstopped | hstale
    · exact .inl hstopped
    · refine .inr (.inr (.inr ⟨n, List.mem_filter.2 ⟨hn, ?_⟩, hcurrent⟩))
      have hids : (w.minting.map Mint.id).Nodup := (List.nodup_append.1 h.ids).1
      have hne : n.id ≠ m.id := by
        intro heq
        rw [List.inj_on_of_nodup_map hids hn hm heq] at hcurrent
        exact hstale hcurrent
      simpa using hne

theorem Core.open_of_minting (h : Core options w) {m : Mint} (hm : m ∈ w.minting)
    (hmine : m.mine = w.generation) : w.stopped = false := by
  by_contra hstopped
  exact ((h.stopped (by simpa using hstopped)).1 m hm).ne hmine

theorem mintFailed_kept (h : Core options w) (hs : Settled w) {m : Mint} (hm : m ∈ w.minting)
    (random : ℚ) (r : Reaction) :
    Kept options w (react options ⟨.mintFailed m random, r⟩ w) := by
  unfold react
  by_cases hmine : m.mine = w.generation
  · have hkept := (h.without m).scheduleRetry
      (fun _ => ⟨h.without_idle hm hmine, (h.asking m hm hmine).2.1⟩) random r
    obtain ⟨news, hlog, hlast⟩ := scheduleRetry_log random r (without m w)
    have hopen := h.open_of_minting hm hmine
    simp only [show m.mine = (without m w).generation from hmine, if_true]
    exact ⟨hkept.1, hkept.2, news, hlog, .inr (hlast hopen)⟩
  · simp only [show m.mine ≠ (without m w).generation from hmine, if_false]
    exact ⟨h.without m, hs.without h hm (.inr hmine), .of_eq (List.nil_append _).symm rfl rfl rfl⟩

theorem Core.resolved (h : Core options w) (m : Mint) (ticket : String) :
    Core options (did (.resolved m.id ticket) (ConsoleStream.without m w)) := by
  exact (h.without m).logged (plain_singleton (.resolved m.id ticket) trivial)

theorem Core.opens (h : Core options w) {m : Mint} (hm : m ∈ w.minting)
    (hmine : m.mine = w.generation) (ticket : String) :
    Core options (did (.opened m.id (address options ticket))
      { did (.resolved m.id ticket) (ConsoleStream.without m w) with
        socket := some m.id
        sockets := ⟨m.id, m.mine, false, false⟩ :: w.sockets }) := by
  have hw := h.resolved m ticket
  have hidle := h.without_idle hm hmine
  obtain ⟨hnone, hretry, hbeat⟩ := h.asking m hm hmine
  obtain ⟨hid, hle, hlog⟩ := h.mintingOld m hm
  have hopen := h.open_of_minting hm hmine
  have hnew : ∀ c ∈ w.sockets, c.id ≠ m.id := by
    intro c hc heq
    exact (List.nodup_append.1 h.ids).2.2 m.id (List.mem_map_of_mem hm) c.id
      (List.mem_map_of_mem hc) heq.symm
  have hnewest : newest w.log = some m.id := h.newestMint m hm hmine
  exact {
    ids := by
      change ((w.minting.filter (fun n => n.id ≠ m.id)).map Mint.id ++
        m.id :: w.sockets.map Conn.id).Nodup
      rw [List.perm_middle.nodup_iff, List.nodup_cons, List.mem_append, not_or]
      refine ⟨⟨?_, ?_⟩, hw.ids⟩
      · intro hmem
        obtain ⟨n, hn, heq⟩ := List.mem_map.1 hmem
        simp [heq] at hn
      · intro hmem
        obtain ⟨c, hc, heq⟩ := List.mem_map.1 hmem
        exact hnew c hc heq
    mines := hw.mines
    mintingOld := fun n hn => by
      obtain ⟨hold, hle, hmem⟩ := hw.mintingOld n hn
      exact ⟨hold, hle, List.mem_cons_of_mem _ hmem⟩
    socketsOld := fun c hc => by
      rcases List.mem_cons.1 hc with rfl | hc
      · exact ⟨hid, hle, _, List.mem_cons_self⟩
      · obtain ⟨hold, hle, url, hmem⟩ := hw.socketsOld c hc
        exact ⟨hold, hle, url, List.mem_cons_of_mem _ hmem⟩
    held := fun c hc hshut hended => by
      rcases List.mem_cons.1 hc with rfl | hc
      · rfl
      · rw [h.held c hc hshut hended] at hnone
        cases hnone
    current := fun c hc hcurrent hended => by
      rcases List.mem_cons.1 hc with rfl | hc
      · rfl
      · rw [h.current c hc hcurrent hended] at hnone
        cases hnone
    socket := fun id heq => by
      cases heq
      exact ⟨_, List.mem_cons_self, rfl, hmine, rfl, rfl⟩
    retries := hw.retries
    beats := hw.beats
    asking := fun n hn hcurrent => absurd hcurrent (hidle.2 n hn)
    holding := fun _ => hretry
    beating := fun hne => absurd hbeat hne
    stopped := fun hstopped => by
      rw [show w.stopped = true from hstopped] at hopen
      cases hopen
    running := fun hmem => by
      rcases List.mem_cons.1 hmem with hmem | hmem
      · cases hmem
      · exact hw.running hmem
    logOld := fun id hmem => by
      rcases List.mem_cons.1 hmem with hmem | hmem
      · cases hmem
      · exact hw.logOld id hmem
    openedOld := fun id url hmem => by
      rcases List.mem_cons.1 hmem with hmem | hmem
      · cases hmem
        exact ⟨_, List.mem_cons_self, rfl⟩
      · obtain ⟨c, hc, heq⟩ := hw.openedOld id url hmem
        exact ⟨c, List.mem_cons_of_mem _ hc, heq⟩
    newestMint := fun n hn hcurrent => absurd hcurrent (hidle.2 n hn)
    newestSocket := fun c hc hcurrent => by
      rcases List.mem_cons.1 hc with rfl | hc
      · exact hnewest
      · exact hw.newestSocket c hc hcurrent
    lawful := by
      refine ⟨⟨?_, List.mem_cons_of_mem _ hlog, ?_, ticket, List.mem_cons_self, rfl⟩, hw.lawful⟩
      · intro hcalled
        rw [show w.stopped = true from hw.running hcalled] at hopen
        cases hopen
      · intro url hmem
        obtain ⟨c, hc, heq⟩ := hw.openedOld m.id url hmem
        exact hnew c hc heq }

theorem minted_kept (h : Core options w) (hs : Settled w) {m : Mint} (hm : m ∈ w.minting)
    (ticket : String) (r : Reaction) :
    Kept options w (react options ⟨.minted m ticket, r⟩ w) := by
  unfold react onTicket
  by_cases hstale : w.stopped ∨ m.mine ≠ w.generation
  · simp only [show (did (.resolved m.id ticket) (without m w)).stopped ∨
      m.mine ≠ (did (.resolved m.id ticket) (without m w)).generation from hstale, if_true]
    exact ⟨h.resolved m ticket, hs.without h hm hstale,
      .of_eq (List.singleton_append).symm rfl rfl rfl⟩
  · have hmine : m.mine = w.generation := not_not.1 (fun q => hstale (.inr q))
    simp only [show ¬ ((did (.resolved m.id ticket) (without m w)).stopped ∨
      m.mine ≠ (did (.resolved m.id ticket) (without m w)).generation) from hstale, if_false]
    exact ⟨h.opens hm hmine ticket, .inr (.inl (Option.some_ne_none _)),
      @Reports.of_eq w _ [.opened m.id _, .resolved m.id ticket] rfl rfl rfl rfl⟩

/-! ### Sockets -/

theorem Core.same (h : Core options w) {c d : Conn} (hc : c ∈ w.sockets) (hd : d ∈ w.sockets)
    (hid : d.id = c.id) : d = c :=
  List.inj_on_of_nodup_map (List.nodup_append.1 h.ids).2.1 hd hc hid

theorem Core.open_of_socket (h : Core options w) {c : Conn} (hc : c ∈ w.sockets)
    (hmine : c.mine = w.generation) : w.stopped = false := by
  by_contra hstopped
  exact ((h.stopped (by simpa using hstopped)).2 c hc).ne hmine

def ending (c : Conn) (sockets : List Conn) : List Conn :=
  sockets.map (fun d => if d.id = c.id then { d with ended := true } else d)

theorem mem_ending {c d : Conn} {sockets : List Conn} (hd : d ∈ ending c sockets) :
    ∃ e ∈ sockets, d.id = e.id ∧ d.mine = e.mine ∧ d.shut = e.shut ∧
      (d.ended = false → e.ended = false ∧ e.id ≠ c.id) := by
  obtain ⟨e, he, rfl⟩ := List.mem_map.1 hd
  refine ⟨e, he, ?_⟩
  split
  · exact ⟨rfl, rfl, rfl, fun q => Bool.noConfusion q⟩
  · next hother => exact ⟨rfl, rfl, rfl, fun q => ⟨q, hother⟩⟩

theorem ids_ending (c : Conn) (sockets : List Conn) :
    (ending c sockets).map Conn.id = sockets.map Conn.id := by
  unfold ending
  rw [List.map_map]
  refine List.map_congr_left (fun d _ => ?_)
  simp only [Function.comp_apply]
  split <;> rfl

theorem Core.ended (h : Core options w) {c : Conn} (hc : c ∈ w.sockets) {socket : Option ℕ}
    {heartbeatTimer : Option ℕ}
    (hcases : (c.mine ≠ w.generation ∧ socket = w.socket ∧ heartbeatTimer = w.heartbeatTimer) ∨
      (w.socket = some c.id ∧ socket = none ∧ heartbeatTimer = none)) :
    Core options { w with
      sockets := ending c w.sockets
      socket := socket
      heartbeatTimer := heartbeatTimer
      beats := heartbeatTimer.toList } := by
  have hother : ∀ id, w.socket = some id → id ≠ c.id → socket = some id := by
    intro id hid hne
    rcases hcases with ⟨_, rfl, _⟩ | ⟨hown, _, _⟩
    · exact hid
    · rw [hown] at hid
      exact absurd (Option.some.inj hid).symm hne
  have hold : socket ≠ none → socket = w.socket := by
    intro hne
    rcases hcases with ⟨_, hsame, _⟩ | ⟨_, hnone, _⟩
    · exact hsame
    · exact absurd hnone hne
  exact {
    ids := by
      simp only [ids_ending]
      exact h.ids
    mines := h.mines
    mintingOld := h.mintingOld
    socketsOld := fun d hd => by
      obtain ⟨e, he, hid, hmine, _, _⟩ := mem_ending hd
      rw [hid, hmine]
      exact h.socketsOld e he
    held := fun d hd hshut hended => by
      obtain ⟨e, he, hid, _, hs, hend⟩ := mem_ending hd
      rw [hid]
      exact hother e.id (h.held e he (hs ▸ hshut) (hend hended).1) (hend hended).2
    current := fun d hd hmine hended => by
      obtain ⟨e, he, hid, hm, _, hend⟩ := mem_ending hd
      rw [hid]
      exact hother e.id (h.current e he (hm ▸ hmine) (hend hended).1) (hend hended).2
    socket := fun id hid => by
      have hsocket : socket = w.socket := hold (by rw [show socket = some id from hid]; simp)
      obtain ⟨e, he, heid, hmine, hshut, hended⟩ := h.socket id (hsocket ▸ hid)
      refine ⟨e, List.mem_map.2 ⟨e, he, ?_⟩, heid, hmine, hshut, hended⟩
      rw [if_neg]
      intro hsame
      rcases hcases with ⟨hstale, _, _⟩ | ⟨_, hnone, _⟩
      · rw [h.same hc he hsame] at hmine
        exact hstale hmine
      · rw [show socket = some id from hid] at hnone
        cases hnone
    retries := h.retries
    beats := rfl
    asking := fun m hm hmine => by
      obtain ⟨hnone, hretry, hbeat⟩ := h.asking m hm hmine
      rcases hcases with ⟨_, rfl, rfl⟩ | ⟨_, rfl, rfl⟩
      · exact ⟨hnone, hretry, hbeat⟩
      · exact ⟨rfl, hretry, rfl⟩
    holding := fun hne => h.holding (hold hne ▸ hne)
    beating := fun hbeat => by
      rcases hcases with ⟨_, rfl, rfl⟩ | ⟨_, _, hnone⟩
      · exact h.beating hbeat
      · exact absurd hnone hbeat
    stopped := fun hstopped => ⟨(h.stopped hstopped).1, fun d hd => by
      obtain ⟨e, he, _, hm, _, _⟩ := mem_ending hd
      rw [hm]
      exact (h.stopped hstopped).2 e he⟩
    running := h.running
    logOld := h.logOld
    openedOld := fun id url hmem => by
      obtain ⟨e, he, hid⟩ := h.openedOld id url hmem
      have hmap : id ∈ w.sockets.map Conn.id := List.mem_map.2 ⟨e, he, hid⟩
      rw [← ids_ending c] at hmap
      exact List.mem_map.1 hmap
    newestMint := h.newestMint
    newestSocket := fun d hd hmine => by
      obtain ⟨e, he, hid, hm, _, _⟩ := mem_ending hd
      rw [hid]
      exact h.newestSocket e he (hm ▸ hmine)
    lawful := h.lawful }

theorem closed_kept (h : Core options w) (hs : Settled w) {c : Conn} (hc : c ∈ w.sockets)
    (hended : c.ended = false) (random : ℚ) (r : Reaction) :
    Kept options w (react options ⟨.closed c random, r⟩ w) := by
  unfold react onClosed
  by_cases hmine : c.mine = w.generation
  · have hsocket := h.current c hc hmine hended
    have hopen := h.open_of_socket hc hmine
    have hretry := h.holding (by rw [hsocket]; exact Option.some_ne_none _)
    have hbeats := h.beats_cleared
    have hcore := h.ended hc (.inr ⟨hsocket, rfl, rfl⟩)
    have hidle : Idle { w with
        sockets := ending c w.sockets
        socket := none
        heartbeatTimer := none
        beats := (none : Option ℕ).toList } := by
      refine ⟨rfl, fun m hm hcurrent => ?_⟩
      have hnone := (h.asking m hm hcurrent).1
      rw [hsocket] at hnone
      cases hnone
    have hkept := hcore.scheduleRetry (fun _ => ⟨hidle, hretry⟩) random r
    obtain ⟨news, hlog, hlast⟩ := scheduleRetry_log random r { w with
        sockets := ending c w.sockets
        socket := none
        heartbeatTimer := none
        beats := (none : Option ℕ).toList }
    simp only [hmine, ne_eq, not_true_eq_false, if_false, ConsoleStream.stopHeartbeat]
    simp only [ne_eq] at hbeats
    rw [hbeats]
    exact ⟨hkept.1, hkept.2, news, hlog, .inr (hlast hopen)⟩
  · simp only [ne_eq, hmine, not_false_eq_true, if_true]
    have hcore := h.ended hc (.inl ⟨hmine, rfl, rfl⟩)
    rw [← h.beats] at hcore
    exact ⟨hcore, hs, .of_eq (List.nil_append _).symm rfl rfl rfl⟩

/-! ### Timers and calls -/

theorem Core.send (h : Core options w) (payload : Outgoing) : Core options (send payload w) := by
  have hplain : ∀ a ∈ w.socket.toList.map (fun id => Act.sent id payload), Plain a := by
    intro a ha
    obtain ⟨id, _, rfl⟩ := List.mem_map.1 ha
    exact trivial
  exact h.logged hplain

theorem Core.abandon (h : Core options w) : Core options
    (drop { w with generation := w.generation + 1 }) := by
  have hnews : ∀ a ∈ w.socket.toList.map Act.shut, Plain a ∨ a = .called := by
    intro a ha
    obtain ⟨id, _, rfl⟩ := List.mem_map.1 ha
    exact .inl trivial
  have hcalled : Act.called ∈ w.socket.toList.map Act.shut → w.stopped := by
    intro hmem
    obtain ⟨id, _, heq⟩ := List.mem_map.1 hmem
    cases heq
  have hbumped := @Core.bumped _ _ h _ w.stopped w.retryTimer (fun q => q) hnews hcalled
  rw [← h.retries] at hbumped
  have hbeats := h.beats_cleared
  unfold drop ConsoleStream.stopHeartbeat
  simp only [hbeats]
  exact hbumped

theorem beat_kept (h : Core options w) (hs : Settled w) {timer : ℕ} (ht : timer ∈ w.beats)
    (now : ℤ) (random : ℚ) (r : Reaction) :
    Kept options w (react options ⟨.beat timer now random, r⟩ w) := by
  have hbeat : w.heartbeatTimer ≠ none := by
    intro hnone
    rw [h.beats, hnone] at ht
    cases ht
  unfold react onBeat
  dsimp only
  split
  · have hfree : (drop { w with generation := w.generation + 1 }).stopped = false →
        Idle (drop { w with generation := w.generation + 1 }) ∧
          (drop { w with generation := w.generation + 1 }).retryTimer = none := by
      intro hopen
      refine ⟨⟨rfl, fun m hm => (Nat.lt_succ_of_le (h.mintingOld m hm).2.1).ne⟩, ?_⟩
      refine h.holding ((h.beating hbeat).resolve_right ?_)
      rw [show w.stopped = false from hopen]
      decide
    have hkept := h.abandon.scheduleRetry hfree random r
    obtain ⟨news, hlog, hlast⟩ :=
      scheduleRetry_log random r (drop { w with generation := w.generation + 1 })
    refine ⟨hkept.1, hkept.2, news ++ w.socket.toList.map .shut, ?_, ?_⟩
    · rw [hlog, List.append_assoc]
      rfl
    · by_cases hopen : w.stopped = false
      · exact .inr (lastStatus_append (hlast hopen))
      · have hstopped : w.stopped = true := by simpa using hopen
        unfold ConsoleStream.scheduleRetry
        rw [if_pos (show (drop { w with generation := w.generation + 1 }).stopped = true from
          hstopped), phase_closed hstopped]
        exact .inl (phase_closed hstopped)
  · exact ⟨h.send .ping, hs,
      @Reports.of_eq w _ (w.socket.toList.map (fun id => .sent id .ping)) rfl rfl rfl rfl⟩

theorem close_kept (h : Core options w) (r : Reaction) :
    Kept options w (react options ⟨.close, r⟩ w) := by
  obtain ⟨news, hlog, _, hsome⟩ := close_log (r.onStatus + 1) w
  have hstopped : (close (r.onStatus + 1) w).stopped := close_of_stopped rfl r.onStatus
  refine ⟨h.close (r.onStatus + 1), .inl hstopped, news, hlog, .inr ?_⟩
  change lastStatus news = some (phase (ConsoleStream.close (r.onStatus + 1) w))
  rw [phase_closed hstopped]
  exact (hsome (Nat.succ_pos _)).1

def asked (w : World) : World :=
  did (.mint w.fresh) (tell .connecting { w with
    generation := w.generation + 1
    refused := []
    minting := ⟨w.fresh, w.generation + 1⟩ :: w.minting
    fresh := w.fresh + 1 })

theorem Core.asked (h : Core options w) (hopen : w.stopped = false) (hsocket : w.socket = none)
    (hretry : w.retryTimer = none) (hbeat : w.heartbeatTimer = none) :
    Core options (asked w) := by
  have hlt : ∀ {n : ℕ}, n ≤ w.generation → n ≠ w.generation + 1 := fun hn =>
    (Nat.lt_succ_of_le hn).ne
  have hnew : ∀ a : Act, a ∈ Act.mint w.fresh :: .status ⟨.connecting, w.attempt, []⟩ :: w.log →
      a = .mint w.fresh ∨ a = .status ⟨.connecting, w.attempt, []⟩ ∨ a ∈ w.log := by
    intro a ha
    rcases List.mem_cons.1 ha with ha | ha
    · exact .inl ha
    · exact .inr (List.mem_cons.1 ha)
  have hmem : ∀ {a : Act}, a ∈ w.log →
      a ∈ Act.mint w.fresh :: .status ⟨.connecting, w.attempt, []⟩ :: w.log :=
    fun ha => List.mem_cons_of_mem _ (List.mem_cons_of_mem _ ha)
  exact {
    ids := by
      change (w.fresh :: (w.minting.map Mint.id ++ w.sockets.map Conn.id)).Nodup
      rw [List.nodup_cons, List.mem_append, not_or]
      refine ⟨⟨?_, ?_⟩, h.ids⟩
      · intro hid
        obtain ⟨m, hm, heq⟩ := List.mem_map.1 hid
        exact (h.mintingOld m hm).1.ne heq
      · intro hid
        obtain ⟨c, hc, heq⟩ := List.mem_map.1 hid
        exact (h.socketsOld c hc).1.ne heq
    mines := by
      refine List.nodup_cons.2 ⟨fun hmine => ?_, h.mines⟩
      obtain ⟨m, hm, heq⟩ := List.mem_map.1 hmine
      exact hlt (h.mintingOld m hm).2.1 heq
    mintingOld := fun m hm => by
      rcases List.mem_cons.1 hm with rfl | hm
      · exact ⟨Nat.lt_succ_self _, le_rfl, List.mem_cons_self⟩
      · obtain ⟨hid, hmine, hlog⟩ := h.mintingOld m hm
        exact ⟨Nat.lt_succ_of_lt hid, Nat.le_succ_of_le hmine, hmem hlog⟩
    socketsOld := fun c hc => by
      obtain ⟨hid, hmine, url, hlog⟩ := h.socketsOld c hc
      exact ⟨Nat.lt_succ_of_lt hid, Nat.le_succ_of_le hmine, url, hmem hlog⟩
    held := h.held
    current := fun c hc hmine _ => absurd hmine (hlt (h.socketsOld c hc).2.1)
    socket := fun id hid => by
      rw [show w.socket = some id from hid] at hsocket
      cases hsocket
    retries := h.retries
    beats := h.beats
    asking := fun _ _ _ => ⟨hsocket, hretry, hbeat⟩
    holding := h.holding
    beating := h.beating
    stopped := fun hstopped => by
      rw [show w.stopped = true from hstopped] at hopen
      cases hopen
    running := fun hcalled => by
      rcases hnew _ hcalled with heq | heq | hlog
      · cases heq
      · cases heq
      · exact h.running hlog
    logOld := fun id hid => by
      rcases hnew _ hid with heq | heq | hlog
      · cases heq
        exact Nat.lt_succ_self _
      · cases heq
      · exact Nat.lt_succ_of_lt (h.logOld id hlog)
    openedOld := fun id url hopened => by
      rcases hnew _ hopened with heq | heq | hlog
      · cases heq
      · cases heq
      · exact h.openedOld id url hlog
    newestMint := fun m hm hmine => by
      rcases List.mem_cons.1 hm with rfl | hm
      · rfl
      · exact absurd hmine (hlt (h.mintingOld m hm).2.1)
    newestSocket := fun c hc hmine => absurd hmine (hlt (h.socketsOld c hc).2.1)
    lawful := by
      refine ⟨⟨?_, ?_⟩, trivial, h.lawful⟩
      · intro hcalled
        rcases List.mem_cons.1 hcalled with heq | hlog
        · cases heq
        · exact h.not_called hopen hlog
      · intro hminted
        rcases List.mem_cons.1 hminted with heq | hlog
        · cases heq
        · exact (h.logOld _ hlog).false }

theorem Core.fired (h : Core options w) :
    Core options { w with retryTimer := none, retries := [] } :=
  { h with
    retries := rfl
    asking := fun m hm hmine => ⟨(h.asking m hm hmine).1, rfl, (h.asking m hm hmine).2.2⟩
    holding := fun _ => rfl }

theorem start_eq (hopen : w.stopped = false) {r : Reaction} (hzero : r.onStatus = 0) :
    start r w = close r.mintTicket (asked w) := by
  unfold start
  rw [if_neg (by rw [hopen]; decide), hzero]
  rfl

theorem start_kept (h : Core options w) (hretry : w.retryTimer = none)
    (hfree : w.stopped = false → w.socket = none) (r : Reaction)
    (hmeets : w.stopped ∨ r.onStatus = 0) :
    Core options (start r w) ∧ Settled (start r w) ∧ ∃ news, (start r w).log = news ++ w.log ∧
      (w.stopped = false → lastStatus news = some (phase (start r w))) := by
  by_cases hstopped : w.stopped
  · have hsame : start r w = w := by
      unfold start
      rw [if_pos hstopped]
    rw [hsame]
    exact ⟨h, .inl hstopped, [], rfl, fun q => by rw [hstopped] at q; cases q⟩
  · have hopen : w.stopped = false := by simpa using hstopped
    have hbeat : w.heartbeatTimer = none := by
      by_contra hbeat
      rcases h.beating hbeat with hsocket | hclosed
      · exact hsocket (hfree hopen)
      · exact hstopped hclosed
    have hcore := h.asked hopen (hfree hopen) hretry hbeat
    rw [start_eq hopen (hmeets.resolve_left hstopped)]
    obtain ⟨news, hlog, hnil, hsome⟩ := close_log r.mintTicket (asked w)
    have hphase : phase (asked w) = .connecting := phase_connecting hopen hretry hbeat
    refine ⟨hcore.close r.mintTicket, ?_,
      news ++ [.mint w.fresh, .status ⟨.connecting, w.attempt, []⟩], ?_, fun _ => ?_⟩
    · rcases close_cases r.mintTicket (asked w) with ⟨_, heq⟩ | ⟨_, hclosed⟩
      · rw [heq]
        exact .inr (.inr (.inr ⟨_, List.mem_cons_self, rfl⟩))
      · exact .inl hclosed
    · rw [hlog, List.append_assoc]
      rfl
    · rcases close_cases r.mintTicket (asked w) with ⟨hzero, heq⟩ | ⟨hpos, hclosed⟩
      · rw [heq, hphase, hnil hzero]
        rfl
      · rw [phase_closed hclosed]
        exact lastStatus_append (hsome hpos).1

theorem retry_kept (h : Core options w) {timer : ℕ} (ht : timer ∈ w.retries) (r : Reaction)
    (hmeets : Meets w ⟨.retry timer, r⟩) : Kept options w (react options ⟨.retry timer, r⟩ w) := by
  have hretry : w.retryTimer = some timer := by
    rw [h.retries] at ht
    exact Option.mem_toList.1 ht
  have hempty : w.retries.filter (fun t => decide (t ≠ timer)) = [] := by
    rw [h.retries, hretry]
    simp
  have hfree : w.stopped = false → w.socket = none := by
    intro _
    by_contra hsocket
    rw [h.holding hsocket] at hretry
    cases hretry
  obtain ⟨hcore, hsettled, news, hlog, hlast⟩ := start_kept h.fired rfl hfree r hmeets
  unfold react
  simp only [hempty]
  refine ⟨hcore, hsettled, news, hlog, ?_⟩
  by_cases hopen : w.stopped = false
  · exact .inr (hlast hopen)
  · have hstopped : w.stopped = true := by simpa using hopen
    refine .inl ?_
    unfold start
    rw [if_pos hstopped, phase_closed hstopped]
    exact phase_closed hstopped

/-! ### Messages -/

theorem Core.startHeartbeat (h : Core options w) (hsocket : w.socket ≠ none ∨ w.stopped)
    (now : ℤ) : Core options (startHeartbeat now w) := by
  have hidle : ∀ m ∈ w.minting, m.mine ≠ w.generation := by
    intro m hm hmine
    rcases hsocket with hsocket | hstopped
    · exact hsocket (h.asking m hm hmine).1
    · exact ((h.stopped hstopped).1 m hm).ne hmine
  have hstop := h.stopHeartbeat
  exact {
    hstop with
    mintingOld := fun m hm => by
      obtain ⟨hid, hrest⟩ := h.mintingOld m hm
      exact ⟨Nat.lt_succ_of_lt hid, hrest⟩
    socketsOld := fun c hc => by
      obtain ⟨hid, hrest⟩ := h.socketsOld c hc
      exact ⟨Nat.lt_succ_of_lt hid, hrest⟩
    beats := congrArg (List.cons w.fresh) hstop.beats
    asking := fun m hm hmine => absurd hmine (hidle m hm)
    beating := fun _ => hsocket
    logOld := fun id hid => Nat.lt_succ_of_lt (h.logOld id hid) }

theorem lastStatus_sent (ids : List ℕ) (payload : Outgoing) (log : List Act) :
    lastStatus (ids.map (fun id => .sent id payload) ++ log) = lastStatus log := by
  induction ids with
  | nil => rfl
  | cons id ids ih => exact ih

theorem alive_kept (h : Core options w) (hopen : w.stopped = false) (hsocket : w.socket ≠ none)
    (times : ℕ) (now : ℤ) (payload : Outgoing) :
    Kept options w (send payload (ConsoleStream.startHeartbeat now (announce .live times w))) := by
  have hannounced := h.announce .live times
  obtain ⟨news, hlog, hlast⟩ := announce_log .live times w
  have hheld : (ConsoleStream.announce .live times w).socket ≠ none ∨
      (ConsoleStream.announce .live times w).stopped := by
    rcases Nat.eq_zero_or_pos times with rfl | hpos
    · exact .inl hsocket
    · exact .inr (announce_of_pos hpos .live w)
  have hphase : phase (ConsoleStream.send payload (ConsoleStream.startHeartbeat now
      (ConsoleStream.announce .live times w))) = if times = 0 then .live else .closed := by
    rcases Nat.eq_zero_or_pos times with rfl | hpos
    · exact phase_live hopen (h.holding hsocket) rfl
    · rw [if_neg hpos.ne']
      exact phase_closed (announce_of_pos hpos .live w)
  refine ⟨(hannounced.startHeartbeat hheld now).send payload, ?_,
    (ConsoleStream.announce .live times w).socket.toList.map (fun id => .sent id payload) ++ news,
    ?_, .inr ?_⟩
  · rcases hheld with hheld | hheld
    · exact .inr (.inl hheld)
    · exact .inl hheld
  · rw [List.append_assoc, ← hlog]
    rfl
  · rw [lastStatus_sent, hlast, hphase]

theorem Core.framed (h : Core options w) {c : Conn} (hc : c ∈ w.sockets)
    (hmine : c.mine = w.generation) (f : Json) : Core options (did (.frame c.id f) w) := by
  have hopen := h.open_of_socket hc hmine
  obtain ⟨_, _, url, hopened⟩ := h.socketsOld c hc
  exact {
    h with
    mintingOld := fun m hm => by
      obtain ⟨hid, hle, hlog⟩ := h.mintingOld m hm
      exact ⟨hid, hle, List.mem_cons_of_mem _ hlog⟩
    socketsOld := fun d hd => by
      obtain ⟨hid, hle, url, hlog⟩ := h.socketsOld d hd
      exact ⟨hid, hle, url, List.mem_cons_of_mem _ hlog⟩
    running := fun hcalled => by
      rcases List.mem_cons.1 hcalled with heq | hlog
      · cases heq
      · exact h.running hlog
    logOld := fun id hid => by
      rcases List.mem_cons.1 hid with heq | hlog
      · cases heq
      · exact h.logOld id hlog
    openedOld := fun id url hopened => by
      rcases List.mem_cons.1 hopened with heq | hlog
      · cases heq
      · exact h.openedOld id url hlog
    newestMint := h.newestMint
    newestSocket := h.newestSocket
    lawful := ⟨⟨h.not_called hopen, h.newestSocket c hc hmine, url, hopened⟩, h.lawful⟩ }

theorem deliver_kept (h : Core options w) (hs : Settled w) {c : Conn} (hc : c ∈ w.sockets)
    (hmine : c.mine = w.generation) (f : Json) (times : ℕ) :
    Core options (close times (did (.frame c.id f) w)) ∧
      Settled (close times (did (.frame c.id f) w)) ∧
      ∃ news, (close times (did (.frame c.id f) w)).log = news ++ .frame c.id f :: w.log ∧
        (phase (close times (did (.frame c.id f) w)) = phase w ∨
          lastStatus news = some (phase (close times (did (.frame c.id f) w)))) := by
  have hframed := h.framed hc hmine f
  obtain ⟨news, hlog, _, hsome⟩ := close_log times (did (.frame c.id f) w)
  refine ⟨hframed.close times, ?_, news, hlog, ?_⟩
  · rcases close_cases times (did (.frame c.id f) w) with ⟨_, heq⟩ | ⟨_, hclosed⟩
    · rw [heq]
      exact hs
    · exact .inl hclosed
  · rcases close_cases times (did (.frame c.id f) w) with ⟨_, heq⟩ | ⟨hpos, hclosed⟩
    · rw [heq]
      exact .inl rfl
    · rw [phase_closed hclosed]
      exact .inr (hsome hpos).1

theorem handle_kept (h : Core options w) (hs : Settled w) {c : Conn} (hc : c ∈ w.sockets)
    (hended : c.ended = false) (f : Json) (now : ℤ) (r : Reaction)
    (hmeets : c.mine = w.generation → refusal f w ≠ none → r.onStatus = 0) :
    Kept options w (handle options f c now r w) := by
  unfold handle
  by_cases hmine : c.mine = w.generation
  · rw [if_neg (not_not.2 hmine)]
    have hopen := h.open_of_socket hc hmine
    have hsocket : w.socket ≠ none := by
      rw [h.current c hc hmine hended]
      exact Option.some_ne_none _
    dsimp only
    split
    · have hvars := h.vars 0 w.refused (((numberOf (dataOf "heartbeat_seconds" f)).filter
        (fun q => decide (0 < q))).getD w.heartbeatSeconds) now
      have hkept := alive_kept hvars hopen hsocket r.onStatus now (.subscribe options.channels)
      exact ⟨hkept.core, hkept.settled, hkept.reports⟩
    · have hvars := fun refused => h.vars w.attempt refused w.heartbeatSeconds now
      split
      · next channel hrefusal =>
        rw [hmeets hmine (by rw [show refusal f w = some channel from hrefusal]; simp)]
        obtain ⟨hcore, hsettled, news, hlog, hreports⟩ :=
          deliver_kept ((hvars (w.refused ++ [channel])).tell .live) hs hc hmine f r.onFrame
        refine ⟨hcore, hsettled, news ++ [.frame c.id f, .status ⟨.live, w.attempt,
          w.refused ++ [channel]⟩], ?_, ?_⟩
        · rw [announce_zero, hlog, List.append_assoc]
          rfl
        · rcases hreports with hsame | hlast
          · exact .inl hsame
          · exact .inr (lastStatus_append hlast)
      · obtain ⟨hcore, hsettled, news, hlog, hreports⟩ :=
          deliver_kept (hvars w.refused) hs hc hmine f r.onFrame
        refine ⟨hcore, hsettled, news ++ [.frame c.id f], ?_, ?_⟩
        · rw [hlog, List.append_assoc]
          rfl
        · rcases hreports with hsame | hlast
          · exact .inl hsame
          · exact .inr (lastStatus_append hlast)
  · rw [if_pos hmine]
    exact ⟨h, hs, .of_eq (List.nil_append _).symm rfl rfl rfl⟩

theorem react_kept (h : Core options w) (hs : Settled w) {i : Input}
    (hpossible : Possible w i.event) (hmeets : Meets w i) : Kept options w (react options i w) := by
  obtain ⟨event, r⟩ := i
  cases event with
  | minted m ticket => exact minted_kept h hs hpossible ticket r
  | mintFailed m random => exact mintFailed_kept h hs hpossible random r
  | open_ c => exact ⟨h, hs, .of_eq (List.nil_append _).symm rfl rfl rfl⟩
  | message c now parsed =>
    obtain ⟨hc, hended⟩ := hpossible
    unfold react
    cases hframe : parseFrame parsed with
    | none =>
      simp only [hframe]
      exact ⟨h, hs, .of_eq (List.nil_append _).symm rfl rfl rfl⟩
    | some f =>
      simp only [hframe]
      exact handle_kept h hs hc (by simpa using hended) f now r (hmeets f hframe)
  | closed c random => exact closed_kept h hs hpossible.1 (by simpa using hpossible.2) random r
  | retry timer => exact retry_kept h hpossible r hmeets
  | beat timer now random => exact beat_kept h hs hpossible now random r
  | close => exact close_kept h r

theorem Core.sound (h : Core options w) (hs : Settled w) : Sound options w where
  oneSocket := by
    have hall : ∀ c ∈ StreamSafety.held w, w.socket = some c.id := by
      intro c hc
      obtain ⟨hmem, hopen⟩ := List.mem_filter.1 hc
      simp only [Bool.and_eq_true, Bool.not_eq_true'] at hopen
      exact h.held c hmem hopen.1 hopen.2
    have hnodup : ((StreamSafety.held w).map Conn.id).Nodup :=
      (List.filter_sublist.map Conn.id).nodup (List.nodup_append.1 h.ids).2.1
    have hsub : (StreamSafety.held w).map Conn.id ⊆ w.socket.toList := by
      intro id hid
      obtain ⟨c, hc, rfl⟩ := List.mem_map.1 hid
      exact Option.mem_toList.2 (hall c hc)
    have hlength := (hnodup.subperm hsub).length_le
    rw [List.length_map] at hlength
    exact hlength.trans (by cases w.socket <;> simp)
  oneRetry := by
    rw [h.retries]
    cases w.retryTimer <;> simp
  lawful := h.lawful
  wayOn := by
    rcases hs with hstopped | hsocket | hretry | hminting
    · exact .inl hstopped
    · obtain ⟨id, hid⟩ := Option.ne_none_iff_exists'.1 hsocket
      obtain ⟨c, hc, _, _, hshut, hended⟩ := h.socket id hid
      refine .inr (.inl (List.ne_nil_of_mem (List.mem_filter.2 ⟨hc, ?_⟩)))
      rw [hshut, hended]
      rfl
    · obtain ⟨timer, htimer⟩ := Option.ne_none_iff_exists'.1 hretry
      refine .inr (.inr (.inl ?_))
      rw [h.retries, htimer]
      exact List.cons_ne_nil _ _
    · exact .inr (.inr (.inr hminting))

/-! ## What the condition leaves out -/

theorem announce_called {times : ℕ} (h : 0 < times) (state : StreamState) (w : World) :
    .called ∈ (announce state times w).log := by
  obtain ⟨news, hlog, _, hsome⟩ := close_log times (tell state w)
  unfold announce
  rw [hlog]
  exact List.mem_append_left _ (hsome h).2

theorem allowed_of_lawful {times : ℕ} {a : Act}
    (h : Lawful options (close times (did a w)).log) : Allowed options w.log a := by
  obtain ⟨news, hlog, _⟩ := close_log times (did a w)
  rw [hlog] at h
  exact h.earlier.1

theorem not_sound_of_not_meets {i : Input} (hmeets : ¬ Meets w i) :
    ¬ Sound options (react options i w) := by
  obtain ⟨event, r⟩ := i
  intro hsound
  cases event with
  | retry timer =>
    unfold Meets at hmeets
    rw [not_or] at hmeets
    have hlawful := hsound.lawful
    unfold react start at hlawful
    dsimp only at hlawful
    rw [if_neg hmeets.1] at hlawful
    exact (allowed_of_lawful hlawful).1 (announce_called (Nat.pos_of_ne_zero hmeets.2) _ _)
  | message c now parsed =>
    have hsome : ¬ ∀ f ∈ parseFrame parsed, c.mine = w.generation → refusal f w ≠ none →
        r.onStatus = 0 := hmeets
    push Not at hsome
    obtain ⟨f, hframe, hmine, hrefusal, htimes⟩ := hsome
    obtain ⟨channel, hchannel⟩ := Option.ne_none_iff_exists'.1 hrefusal
    have htype : stringOf (member "type" f) = some "error" := by
      by_contra hother
      unfold refusal at hchannel
      rw [if_neg hother] at hchannel
      cases hchannel
    have hlawful := hsound.lawful
    unfold react at hlawful
    simp only [Option.mem_def.1 hframe] at hlawful
    unfold handle at hlawful
    rw [if_neg (not_not.2 hmine)] at hlawful
    dsimp only at hlawful
    rw [if_neg (by rw [htype]; decide), show refusal f { w with lastHeard := now } = some channel
      from hchannel] at hlawful
    exact (allowed_of_lawful hlawful).1 (announce_called (Nat.pos_of_ne_zero htimes) _ _)
  | _ => exact hmeets trivial

/-! ## Every run -/

theorem connect_core (options : StreamOptions) : Core options connect ∧ Settled connect := by
  have hblank : Core options {} := by
    constructor <;> simp [Lawful]
  obtain ⟨hcore, hsettled, _⟩ := start_kept hblank rfl (fun _ => rfl) {} (.inr rfl)
  exact ⟨hcore, hsettled⟩

theorem runs_core {is : List Input} (h : Runs (Step options) Meets connect is w) :
    Core options w ∧ Settled w := by
  refine h.invariant (I := fun w => Core options w ∧ Settled w) ?_ (connect_core options)
  rintro w i _ ⟨hcore, hsettled⟩ hmeets ⟨hpossible, rfl⟩
  have hkept := react_kept hcore hsettled hpossible hmeets
  exact ⟨hkept.core, hkept.settled⟩

/-- Over every run within the condition what is promised holds, and a further event keeps it, with
every change reported, exactly where it is within the condition too. -/
theorem stream_sound (options : StreamOptions) (is : List Input) (w : World)
    (hrun : Runs (Step options) Meets connect is w) :
    Sound options w ∧ ∀ i w', Step options w i w' →
      (Sound options w' ∧ Reports w w' ↔ Meets w i) := by
  obtain ⟨hcore, hsettled⟩ := runs_core hrun
  refine ⟨hcore.sound hsettled, ?_⟩
  rintro i _ ⟨hpossible, rfl⟩
  constructor
  · rintro ⟨hsound, _⟩
    by_contra hmeets
    exact not_sound_of_not_meets hmeets hsound
  · intro hmeets
    have hkept := react_kept hcore hsettled hpossible hmeets
    exact ⟨hkept.core.sound hkept.settled, hkept.reports⟩

/-- The first ticket is refused, and before the second attempt the stream is closed. -/
theorem stream_sound_between : Sound ⟨"wss://host/realtime", ["safety"]⟩
    (react ⟨"wss://host/realtime", ["safety"]⟩ ⟨.close, {}⟩
      (react ⟨"wss://host/realtime", ["safety"]⟩ ⟨.mintFailed ⟨0, 1⟩ 0, {}⟩ connect)) :=
  And.left (stream_sound _ [⟨.mintFailed ⟨0, 1⟩ 0, {}⟩, ⟨.close, {}⟩] _
    (.next trivial ⟨List.mem_cons_self, rfl⟩ (.next trivial ⟨trivial, rfl⟩ (.refl _))))

/-- The caller closes when told of the second attempt, and a ticket is asked for all the same. -/
theorem ticket_after_close : ¬ ∀ options is w, Any (Step options) connect is w →
    Sound options w := by
  intro h
  have hsound := h ⟨"wss://host/realtime", ["safety"]⟩
    [⟨.mintFailed ⟨0, 1⟩ 0, {}⟩, ⟨.retry 1, { onStatus := 1 }⟩] _
    (.next trivial ⟨List.mem_cons_self, rfl⟩
      (.next trivial ⟨List.mem_cons_self, rfl⟩ (.refl _)))
  exact hsound.lawful.1.1 (List.mem_cons_of_mem _ List.mem_cons_self)

end IeltsHub.StreamSafety
