import IeltsHub.RealtimeGateway
import IeltsHub.GuardedRuns

set_option autoImplicit false

/-!
# A connection hears only its own channels

The set of held channels is the reader's: an `unsubscribe` takes effect at once, while commands that
name the channel may still wait for the pump. A live frame is checked against the set when it is
forwarded; a replayed one is not.
-/
namespace IeltsHub.RealtimeGateway
open PyExc PyTime PyValue AuthzPolicy RealtimeBus RealtimeChannels GuardedRuns

abbrev Step (g : Gateway) (a : Action) (g' : Gateway) : Prop := step g a = some g'

/-- `decide` allowed `channel` at one of the subscribes of a run. -/
def Granted (actor : Principal) (as : List Action) (channel : String) : Prop :=
  ∃ db, Action.authorized db ∈ as ∧ ∃ name ch verdict,
    decideChannel actor name db = .ok (some ch, verdict) ∧ verdict.allowed = true ∧
    ch.name = channel

/-- What a connection may hold and what may be put on its queue. -/
structure Isolated (actor : Principal) (as : List Action) (g : Gateway) : Prop where
  frames : ∀ p ∈ g.put, p.1.channel ∈ p.2
  channels : ∀ c ∈ g.connection.subscribed, c ∈ implicitChannels actor ∨ Granted actor as c
  bounded : g.connection.subscribed.card ≤ maxChannels

/-- Where the pump goes on with a complete replay that missed something, the channel is still
held. -/
def StillHeld (g : Gateway) (a : Action) : Prop :=
  (∃ now, a = .pump now) → ∀ channel missed todo ack,
    g.pump = .replied channel (some (missed, true)) todo ack → missed ≠ [] →
    channel ∈ g.connection.subscribed

/-! ## What leaves the set alone -/

variable {c c' : Connection} {g g' : Gateway}

/-- The set has lost channels at most. -/
structure Shrinks (c c' : Connection) : Prop where
  actor : c'.actor = c.actor
  subscribed : c'.subscribed ⊆ c.subscribed

theorem Shrinks.refl (c : Connection) : Shrinks c c := ⟨rfl, Finset.Subset.refl _⟩

theorem Shrinks.trans {c'' : Connection} (h : Shrinks c c') (h' : Shrinks c' c'') :
    Shrinks c c'' := ⟨h'.actor.trans h.actor, h'.subscribed.trans h.subscribed⟩

theorem offer_same (c : Connection) (frame : OutFrame) :
    (c.offer frame).1.actor = c.actor ∧ (c.offer frame).1.subscribed = c.subscribed := by
  unfold Connection.offer
  split
  · exact ⟨rfl, rfl⟩
  · exact ⟨rfl, rfl⟩

theorem shrinks_refuse (c : Connection) (code message : String) (channel : Option String)
    (id : Json) : Shrinks c (refuse c code message channel id) := by
  obtain ⟨hactor, hset⟩ := offer_same c (.error id channel code message)
  exact ⟨hactor, hset.subset⟩

theorem shrinks_stop (c : Connection) (code : ℕ) (reason : String) :
    Shrinks c (c.stop code reason) := by
  unfold Connection.stop
  split
  · exact ⟨rfl, Finset.Subset.refl _⟩
  · exact Shrinks.refl c

theorem shrinks_withinBudget (c : Connection) (now : Time) : Shrinks c (c.withinBudget now).1 := by
  unfold Connection.withinBudget
  split
  · exact ⟨rfl, Finset.Subset.refl _⟩
  · exact ⟨rfl, Finset.Subset.refl _⟩

/-! ## The reader -/

def claimed (g : Gateway) : ℕ :=
  g.connection.subscribed.card +
    match g.reader with
    | .receiving => 0
    | .authorizing wanted _ _ _ => wanted.length

/-- What the reader does with a frame before it awaits again. -/
structure Handled (g g' : Gateway) : Prop where
  shrinks : Shrinks g.connection g'.connection
  pump : g'.pump = g.pump
  put : g'.put = g.put
  claimed : claimed g' ≤ maxChannels

theorem claimed_of_shrinks (hreader : g.reader = .receiving) (h : Shrinks c g.connection) :
    claimed g ≤ c.subscribed.card := by
  unfold claimed
  rw [hreader]
  exact Finset.card_le_card h.subscribed

theorem handled_connection (hreader : g.reader = .receiving) (hbound : claimed g ≤ maxChannels)
    (h : Shrinks g.connection c) : Handled g { g with connection := c } := by
  refine ⟨h, rfl, rfl, ?_⟩
  have hle : claimed { g with connection := c } ≤ g.connection.subscribed.card :=
    claimed_of_shrinks hreader h
  have hcard : g.connection.subscribed.card ≤ claimed g := Nat.le_add_right _ _
  omega

theorem dropName_shrinks {s s' : Connection × List String} {name : Json}
    (h : dropName s name = .ok s') : Shrinks s.1 s'.1 := by
  unfold dropName at h
  obtain ⟨v, _, h⟩ := bind_eq_ok.1 h
  split at h
  · split at h
    · cases h
      exact ⟨rfl, Finset.erase_subset _ _⟩
    · cases h
      exact Shrinks.refl _
  · cases h
    exact Shrinks.refl _

theorem unsubscribe_shrinks {message : List (String × Json)} (h : unsubscribe c message = .ok c') :
    Shrinks c c' := by
  unfold unsubscribe at h
  split at h
  · next names _ =>
    obtain ⟨s, hs, h⟩ := bind_eq_ok.1 h
    cases h
    have hloop := foldlM_invariant (fun s : Connection × List String => Shrinks c s.1) hs
      (Shrinks.refl c) (fun _ hx _ _ _ hstep => hx.trans (dropName_shrinks hstep))
    exact ⟨hloop.actor, hloop.subscribed⟩
  · cases h
    exact shrinks_refuse _ _ _ _ _

theorem beginSubscribe_handled {message : List (String × Json)}
    (hbound : claimed g ≤ maxChannels) :
    Handled g { g with
      connection := (beginSubscribe g.connection message).1
      reader := (beginSubscribe g.connection message).2 } := by
  have hrefused : ∀ c, Shrinks g.connection c →
      Handled g { g with connection := c, reader := .receiving } := by
    intro c hc
    refine ⟨hc, rfl, rfl, ?_⟩
    exact (claimed_of_shrinks rfl hc).trans ((Nat.le_add_right _ _).trans hbound)
  unfold beginSubscribe
  split
  · exact hrefused _ (shrinks_refuse _ _ _ _ _)
  · next names _ =>
    dsimp only
    split
    · exact hrefused _ (shrinks_refuse _ _ _ _ _)
    · next hroom =>
      exact ⟨Shrinks.refl _, rfl, rfl, Nat.not_lt.1 hroom⟩

theorem signalOf_shrinks {message : List (String × Json)}
    (h : signalOf c message = .ok (.inl c')) : Shrinks c c' := by
  unfold signalOf at h
  split at h
  · split at h
    · cases h
      exact shrinks_refuse _ _ _ _ _
    · split at h
      · obtain ⟨kind, _, h⟩ := bind_eq_ok.1 h
        split at h
        · split at h
          · cases h
            exact shrinks_refuse _ _ _ _ _
          · split at h
            · cases h
              exact shrinks_refuse _ _ _ _ _
            · cases h
        · cases h
          exact shrinks_refuse _ _ _ _ _
      · cases h
        exact shrinks_refuse _ _ _ _ _
  · cases h
    exact shrinks_refuse _ _ _ _ _

theorem handleObject_handled {message : List (String × Json)} {busUp : Bool} {now : Time}
    (hreader : g.reader = .receiving) (hbound : claimed g ≤ maxChannels)
    (h : handleObject g message busUp now = .ok g') : Handled g g' := by
  have hconnection := fun c hc => handled_connection (c := c) hreader hbound hc
  unfold handleObject at h
  obtain ⟨kind, _, h⟩ := bind_eq_ok.1 h
  split at h
  · cases h
    exact hconnection _ (Shrinks.refl _)
  · cases h
    exact hconnection _ (Shrinks.refl _)
  · cases h
    exact beginSubscribe_handled hbound
  · obtain ⟨c, hc, h⟩ := bind_eq_ok.1 h
    cases h
    exact hconnection _ (unsubscribe_shrinks hc)
  · unfold handleSignal at h
    obtain ⟨outcome, houtcome, h⟩ := bind_eq_ok.1 h
    split at h
    · cases h
      exact hconnection _ (signalOf_shrinks houtcome)
    · split at h
      · cases h
        exact ⟨Shrinks.refl _, rfl, rfl, hbound⟩
      · cases h
        exact hconnection _ (shrinks_stop _ _ _)
  · cases h
    exact hconnection _ (shrinks_refuse _ _ _ _ _)

theorem handle_handled {body : Option Json} {busUp : Bool} {now : Time}
    (hreader : g.reader = .receiving) (hbound : claimed g ≤ maxChannels)
    (h : handle g body busUp now = .ok g') : Handled g g' := by
  have hconnection := fun c hc => handled_connection (c := c) hreader hbound hc
  unfold handle at h
  split at h
  · cases h
    exact hconnection _ (shrinks_refuse _ _ _ _ _)
  · exact handleObject_handled hreader hbound h
  · cases h
    exact hconnection _ (shrinks_refuse _ _ _ _ _)

theorem Handled.trans {g'' : Gateway} (h : Handled g g') (h' : Handled g' g'') : Handled g g'' :=
  ⟨h.shrinks.trans h'.shrinks, h'.pump.trans h.pump, h'.put.trans h.put, h'.claimed⟩

theorem receive_handled {r : Received} {busUp : Bool} {now : Time} (hreader : g.reader = .receiving)
    (hbound : claimed g ≤ maxChannels) : Handled g (receive g r busUp now) := by
  have hseen : Handled g { g with connection := { g.connection with lastSeen := now } } :=
    handled_connection hreader hbound ⟨rfl, Finset.Subset.refl _⟩
  have hmore : ∀ c, Shrinks { g.connection with lastSeen := now } c →
      Handled g { g with connection := c } := by
    intro c hc
    exact hseen.trans (handled_connection
      (g := { g with connection := { g.connection with lastSeen := now } }) hreader hseen.claimed hc)
  have hbudget := shrinks_withinBudget { g.connection with lastSeen := now } now
  unfold receive
  dsimp only
  split
  · exact hmore _ (shrinks_refuse _ _ _ _ _)
  · split
    · have hcounted := hmore _ hbudget
      split
      · next hhandle => exact hcounted.trans (handle_handled hreader hcounted.claimed hhandle)
      · exact ⟨hcounted.shrinks, hcounted.pump, hcounted.put, hcounted.claimed⟩
    · have hrefused := hbudget.trans ((shrinks_refuse _ "rate_limited"
        "Too many frames. Slow down." none .null).trans (shrinks_stop _ closePolicy
          "inbound_flood"))
      have hstopped := hmore _ hrefused
      exact ⟨hstopped.shrinks, hstopped.pump, hstopped.put, hstopped.claimed⟩

/-! ## The verdicts -/

theorem channel_of_allowed {actor : Principal} {name : String} {db : Directory}
    {channel : Option Channel} {verdict : Verdict}
    (h : decideChannel actor name db = .ok (channel, verdict)) (hallowed : verdict.allowed = true) :
    ∃ ch, channel = some ch := by
  unfold decideChannel at h
  split at h
  · cases h
    cases hallowed
  · split at h
    · cases h
    · split at h
      · obtain ⟨v, _, hv⟩ := map_eq_ok.1 h
        exact ⟨_, (congrArg Prod.fst hv).symm⟩
      · split at h
        · cases h
          exact ⟨_, rfl⟩
        · obtain ⟨v, _, hv⟩ := map_eq_ok.1 h
          exact ⟨_, (congrArg Prod.fst hv).symm⟩

theorem admitChannel_foldl {actor : Principal} {db : Directory} (id : Json)
    {vs : List (String × Option Channel × Verdict)} {s : Connection × List String}
    (hvs : ∀ v ∈ vs, decideChannel actor v.1 db = .ok (v.2.1, v.2.2)) :
    (vs.foldl (admitChannel id) s).1.actor = s.1.actor ∧
    (vs.foldl (admitChannel id) s).1.subscribed.card ≤ s.1.subscribed.card + vs.length ∧
    ∀ c ∈ (vs.foldl (admitChannel id) s).1.subscribed, c ∈ s.1.subscribed ∨
      ∃ name ch verdict, decideChannel actor name db = .ok (some ch, verdict) ∧
        verdict.allowed = true ∧ ch.name = c := by
  induction vs generalizing s with
  | nil => exact ⟨rfl, Nat.le_refl _, fun c hc => .inl hc⟩
  | cons v vs ih =>
    obtain ⟨hactor, hcard, hmem⟩ := ih (s := admitChannel id s v)
      (fun w hw => hvs w (List.mem_cons_of_mem _ hw))
    rw [List.foldl_cons]
    have hdecided := hvs v List.mem_cons_self
    obtain ⟨name, channel, verdict⟩ := v
    by_cases hallowed : verdict.allowed = true
    · obtain ⟨ch, rfl⟩ := channel_of_allowed hdecided hallowed
      have hone : (admitChannel id s (name, some ch, verdict)).1 =
          { s.1 with subscribed := insert ch.name s.1.subscribed } := by
        simp [admitChannel, hallowed]
      rw [hone] at hactor hcard hmem
      have hinsert := Finset.card_insert_le ch.name s.1.subscribed
      refine ⟨hactor, ?_, ?_⟩
      · rw [List.length_cons]
        dsimp only at hcard
        omega
      · intro c hc
        rcases hmem c hc with hold | hnew
        · rcases Finset.mem_insert.1 hold with rfl | hold
          · exact .inr ⟨name, ch, verdict, hdecided, hallowed, rfl⟩
          · exact .inl hold
        · exact .inr hnew
    · have hone : (admitChannel id s (name, channel, verdict)).1 =
          refuse s.1 verdict.code "You may not subscribe to that channel." (some name) id := by
        simp [admitChannel, hallowed]
      have hshrinks := shrinks_refuse s.1 verdict.code "You may not subscribe to that channel."
        (some name) id
      rw [hone] at hactor hcard hmem
      have hle := Finset.card_le_card hshrinks.subscribed
      refine ⟨hactor.trans hshrinks.actor, ?_, ?_⟩
      · rw [List.length_cons]
        omega
      · intro c hc
        rcases hmem c hc with hold | hnew
        · exact .inl (hshrinks.subscribed hold)
        · exact .inr hnew

/-! ## The other tasks -/

/-- What the pump, the writer and the bus do: the set is left alone, and a bus frame is put on the
queue only for a channel in it. -/
structure Carried (g g' : Gateway) : Prop where
  actor : g'.connection.actor = g.connection.actor
  subscribed : g'.connection.subscribed = g.connection.subscribed
  reader : g'.reader = g.reader
  put : ∀ p ∈ g'.put, p ∈ g.put ∨
    p.2 = g.connection.subscribed ∧ p.1.channel ∈ g.connection.subscribed

theorem Carried.refl (g : Gateway) : Carried g g := ⟨rfl, rfl, rfl, fun _ hp => .inl hp⟩

theorem Carried.trans {g'' : Gateway} (h : Carried g g') (h' : Carried g' g'') :
    Carried g g'' := by
  refine ⟨h'.actor.trans h.actor, h'.subscribed.trans h.subscribed, h'.reader.trans h.reader, ?_⟩
  intro p hp
  rcases h'.put p hp with hold | hnew
  · exact h.put p hold
  · rw [h.subscribed] at hnew
    exact .inr hnew

theorem carried_connection {c : Connection} (hactor : c.actor = g.connection.actor)
    (hset : c.subscribed = g.connection.subscribed) : Carried g { g with connection := c } :=
  ⟨hactor, hset, rfl, fun _ hp => .inl hp⟩

theorem carried_stop (code : ℕ) (reason : String) :
    Carried g { g with connection := g.connection.stop code reason } := by
  unfold Connection.stop
  split
  · exact carried_connection rfl rfl
  · exact Carried.refl g

theorem carried_offerFrame (frame : OutFrame) : Carried g (offerFrame g frame) :=
  carried_connection (offer_same _ frame).1 (offer_same _ frame).2

theorem carried_putEvent {frame : Frame} (h : frame.channel ∈ g.connection.subscribed) :
    Carried g (putEvent g frame).1 := by
  obtain ⟨hactor, hset⟩ := offer_same g.connection (.event frame)
  refine ⟨hactor, hset, rfl, ?_⟩
  intro p hp
  unfold putEvent at hp
  dsimp only at hp
  split at hp
  · rcases List.mem_append.1 hp with hold | hnew
    · exact .inl hold
    · rw [List.mem_singleton.1 hnew]
      exact .inr ⟨rfl, h⟩
  · exact .inl hp

theorem carried_putMissed {missed : List Frame}
    (h : ∀ f ∈ missed, f.channel ∈ g.connection.subscribed) : Carried g (putMissed g missed) := by
  induction missed generalizing g with
  | nil => exact Carried.refl g
  | cons f rest ih =>
    have hput := carried_putEvent (h f List.mem_cons_self)
    have hrest : ∀ f' ∈ rest, f'.channel ∈ (putEvent g f).1.connection.subscribed := by
      intro f' hf'
      rw [hput.subscribed]
      exact h f' (List.mem_cons_of_mem _ hf')
    unfold putMissed
    split
    · next hres =>
      rw [hres] at hput hrest
      exact hput.trans (ih hrest)
    · next hres =>
      rw [hres] at hput
      exact hput.trans (carried_stop _ _)

/-- The frames of an answer are of the channel it answers for. -/
def Answered (p : Pump) : Prop :=
  ∀ channel missed complete todo ack, p = .replied channel (some (missed, complete)) todo ack →
    ∀ f ∈ missed, f.channel = channel

theorem answered_of_ne {p : Pump} (h : ∀ channel reply todo ack, p ≠ .replied channel reply todo ack) :
    Answered p := by
  intro channel missed complete todo ack hp
  exact absurd hp (h _ _ _ _)

theorem answered_replayed {channel : String} {since : ℕ} {now : Time} {todo : List String}
    {ack : Ack} : Answered (.replied channel
      (some (replayed ((g.bus.topic channel).lrange now) since)) todo ack) := by
  intro c missed complete todo' ack' hp f hf
  cases hp
  have hmem : f ∈ (g.bus.topic channel).lrange now := by
    have hrev := (List.mem_filter.1 hf).1
    exact List.mem_reverse.1 hrev
  exact Bus.channel_of_lrange hmem

theorem forward_carried {frame : Frame} (hpump : Answered g.pump) :
    Carried g (forward g frame) ∧ Answered (forward g frame).pump := by
  have hdraining : Answered .draining := by
    refine answered_of_ne ?_
    intro _ _ _ _ h
    cases h
  unfold forward
  split
  · exact ⟨⟨rfl, rfl, rfl, fun _ hp => .inl hp⟩, hdraining⟩
  · next hheld =>
    have hput := carried_putEvent (not_not.1 hheld)
    split
    · next hres =>
      rw [hres] at hput
      exact ⟨⟨hput.actor, hput.subscribed, hput.reader, hput.put⟩, hdraining⟩
    · next g' hres =>
      have hsame : (putEvent g frame).1.pump = g.pump := rfl
      rw [hres] at hput hsame
      have hstop := hput.trans (carried_stop closeTooSlow "send_queue_full")
      have hpump' : Answered g'.pump := hsame ▸ hpump
      exact ⟨⟨hstop.actor, hstop.subscribed, hstop.reader, hstop.put⟩, hpump'⟩

theorem deliverReplay_carried {channel : String} {reply : Option (List Frame × Bool)}
    (hframes : ∀ missed complete, reply = some (missed, complete) → ∀ f ∈ missed, f.channel = channel)
    (hheld : ∀ missed, reply = some (missed, true) → missed ≠ [] →
      channel ∈ g.connection.subscribed) : Carried g (deliverReplay g channel reply) := by
  unfold deliverReplay
  split
  · next missed =>
    refine carried_putMissed ?_
    intro f hf
    rw [hframes missed true rfl f hf]
    exact hheld missed rfl (List.ne_nil_of_mem hf)
  · exact carried_offerFrame _
  · exact carried_offerFrame _

theorem pumpOn_carried {now : Time} (hpump : Answered g.pump) (hheld : StillHeld g (.pump now)) :
    Carried g (pumpOn g now) ∧ Answered (pumpOn g now).pump := by
  have hsame : ∀ p : Pump, (∀ channel reply todo ack, p ≠ .replied channel reply todo ack) →
      Carried g { g with pump := p } ∧ Answered p :=
    fun p hp => ⟨⟨rfl, rfl, rfl, fun _ hp => .inl hp⟩, answered_of_ne hp⟩
  have hdraining : Answered .draining := (hsame .draining (by intro _ _ _ _ h; cases h)).2
  have hoffered : ∀ frame, Carried g { offerFrame g frame with pump := .draining } := by
    intro frame
    have hoffer := carried_offerFrame (g := g) frame
    exact ⟨hoffer.actor, hoffer.subscribed, hoffer.reader, hoffer.put⟩
  unfold pumpOn
  split
  · split
    · exact hsame _ (by intro _ _ _ _ h; cases h)
    · exact ⟨⟨rfl, rfl, rfl, fun _ hp => .inl hp⟩, answered_of_ne (by intro _ _ _ _ h; cases h)⟩
    · exact ⟨⟨rfl, rfl, rfl, fun _ hp => .inl hp⟩, answered_of_ne (by intro _ _ _ _ h; cases h)⟩
  · split
    · exact ⟨⟨rfl, rfl, rfl, fun _ hp => .inl hp⟩, hdraining⟩
    · next rest _ =>
      have htaken : Carried g { g with inbox := rest } := ⟨rfl, rfl, rfl, fun _ hp => .inl hp⟩
      obtain ⟨hforward, hanswered⟩ := forward_carried (g := { g with inbox := rest }) hpump
      exact ⟨htaken.trans hforward, hanswered⟩
  · exact ⟨⟨rfl, rfl, rfl, fun _ hp => .inl hp⟩, answered_of_ne (by intro _ _ _ _ h; cases h)⟩
  · split
    · exact ⟨hoffered _, hdraining⟩
    · exact hsame _ (by intro _ _ _ _ h; cases h)
  · dsimp only
    split
    · exact hsame _ (by intro _ _ _ _ h; cases h)
    · exact ⟨⟨rfl, rfl, rfl, fun _ hp => .inl hp⟩, answered_replayed⟩
  · exact ⟨hoffered _, hdraining⟩
  · refine ⟨⟨rfl, rfl, rfl, fun _ hp => .inl hp⟩, ?_⟩
    intro c missed complete todo ack hp f hf
    cases hp
    cases hf
  · next channel reply todo ack hphase =>
    have hdeliver : Carried g (deliverReplay g channel reply) := by
      refine deliverReplay_carried ?_ ?_
      · intro missed complete hreply
        rw [hreply] at hphase
        exact hpump channel missed complete todo ack hphase
      · intro missed hreply hne
        rw [hreply] at hphase
        exact hheld ⟨now, rfl⟩ channel missed todo ack hphase hne
    exact ⟨⟨hdeliver.actor, hdeliver.subscribed, hdeliver.reader, hdeliver.put⟩,
      answered_of_ne (by intro _ _ _ _ h; cases h)⟩
  · exact ⟨⟨rfl, rfl, rfl, fun _ hp => .inl hp⟩, answered_of_ne (by intro _ _ _ _ h; cases h)⟩
  · exact ⟨hoffered _, hdraining⟩

theorem pumpFails_carried (hpump : Answered g.pump) :
    Carried g (pumpFails g) ∧ Answered (pumpFails g).pump := by
  have hnone : ∀ channel todo ack, Answered (.replied channel none todo ack) := by
    intro channel todo ack c missed complete todo' ack' hp
    cases hp
  unfold pumpFails
  split
  · have hstop := carried_stop (g := g) closeBusDown "bus_unavailable"
    exact ⟨⟨hstop.actor, hstop.subscribed, hstop.reader, hstop.put⟩, hpump⟩
  · exact ⟨⟨rfl, rfl, rfl, fun _ hp => .inl hp⟩, hnone _ _ _⟩
  · exact ⟨⟨rfl, rfl, rfl, fun _ hp => .inl hp⟩, hnone _ _ _⟩
  · exact ⟨⟨rfl, rfl, rfl, fun _ hp => .inl hp⟩, hpump⟩
  · exact ⟨⟨rfl, rfl, rfl, fun _ hp => .inl hp⟩, hpump⟩
  · exact ⟨Carried.refl g, hpump⟩

theorem write_carried {sent : Bool} (h : write g sent = some g') :
    Carried g g' ∧ g'.pump = g.pump := by
  unfold write at h
  split at h
  · cases h
  · next rest _ =>
    split at h
    · cases h
      exact ⟨⟨rfl, rfl, rfl, fun _ hp => .inl hp⟩, rfl⟩
    · cases h
      have htaken : Carried g { g with connection := { g.connection with outbound := rest } } :=
        carried_connection rfl rfl
      have hstop := htaken.trans (carried_stop closeTooSlow "send_timeout")
      exact ⟨⟨hstop.actor, hstop.subscribed, hstop.reader, hstop.put⟩, rfl⟩

theorem heartbeat_carried (now : Time) :
    Carried g (heartbeat g now) ∧ (heartbeat g now).pump = g.pump := by
  unfold heartbeat
  split
  · have hstop := carried_stop (g := g) closePolicy "heartbeat_timeout"
    exact ⟨⟨hstop.actor, hstop.subscribed, hstop.reader, hstop.put⟩, rfl⟩
  · exact ⟨⟨rfl, rfl, rfl, fun _ hp => .inl hp⟩, rfl⟩

/-! ## Every step -/

structure Inv (actor : Principal) (as : List Action) (g : Gateway) : Prop where
  isolated : Isolated actor as g
  actor : g.connection.actor = actor
  claimed : claimed g ≤ maxChannels
  answered : Answered g.pump

variable {actor : Principal} {as : List Action}

theorem Inv.of_carried (hi : Inv actor as g) (h : Carried g g') (hanswered : Answered g'.pump) :
    Inv actor as g' := by
  refine ⟨⟨?_, ?_, ?_⟩, h.actor.trans hi.actor, ?_, hanswered⟩
  · intro p hp
    rcases h.put p hp with hold | ⟨hset, hmem⟩
    · exact hi.isolated.frames p hold
    · rw [hset]
      exact hmem
  · intro c hc
    rw [h.subscribed] at hc
    exact hi.isolated.channels c hc
  · rw [h.subscribed]
    exact hi.isolated.bounded
  · have hclaimed := hi.claimed
    unfold RealtimeGateway.claimed at hclaimed ⊢
    rw [h.subscribed, h.reader]
    exact hclaimed

theorem Inv.of_handled (hi : Inv actor as g) (h : Handled g g') : Inv actor as g' := by
  refine ⟨⟨?_, ?_, ?_⟩, h.shrinks.actor.trans hi.actor, h.claimed, ?_⟩
  · rw [h.put]
    exact hi.isolated.frames
  · intro c hc
    exact hi.isolated.channels c (h.shrinks.subscribed hc)
  · exact (Finset.card_le_card h.shrinks.subscribed).trans hi.isolated.bounded
  · rw [h.pump]
    exact hi.answered

theorem inv_authorized {db : Directory} (hi : Inv actor as g) (hin : Action.authorized db ∈ as)
    (h : authorized g db = some g') : Inv actor as g' := by
  unfold authorized at h
  split at h
  · next wanted held id since hreader =>
    split at h
    · next verdicts hverdicts =>
      cases h
      have hpairs := List.forall₂_iff_zip.1 (mapM_eq_ok.1 hverdicts)
      have hdecided : ∀ v ∈ wanted.zip verdicts,
          decideChannel actor v.1 db = .ok (v.2.1, v.2.2) := by
        intro v hv
        rw [← hi.actor]
        exact hpairs.2 hv
      obtain ⟨hactor, hcard, hmem⟩ :=
        admitChannel_foldl id (s := (g.connection, held)) hdecided
      have hroom : g.connection.subscribed.card + wanted.length ≤ maxChannels := by
        have hclaimed := hi.claimed
        unfold claimed at hclaimed
        rw [hreader] at hclaimed
        exact hclaimed
      have hlength : (wanted.zip verdicts).length ≤ wanted.length := by
        rw [List.length_zip]
        exact Nat.min_le_left _ _
      have hbounded : ((wanted.zip verdicts).foldl (admitChannel id)
          (g.connection, held)).1.subscribed.card ≤ maxChannels := by
        dsimp only at hcard
        omega
      refine ⟨⟨hi.isolated.frames, ?_, hbounded⟩, hactor.trans hi.actor, hbounded, hi.answered⟩
      intro c hc
      rcases hmem c hc with hold | ⟨name, ch, verdict, hdecide, hallowed, hname⟩
      · exact hi.isolated.channels c hold
      · exact .inr ⟨db, hin, name, ch, verdict, hdecide, hallowed, hname⟩
    · cases h
      exact hi.of_carried ⟨rfl, rfl, rfl, fun _ hp => .inl hp⟩ hi.answered
  · cases h

theorem inv_step {a : Action} (hi : Inv actor as g) (hguard : StillHeld g a ∧ a ∈ as)
    (h : Step g a g') : Inv actor as g' := by
  unfold Step step at h
  split at h
  · cases h
  · cases a with
    | receive r busUp now =>
      dsimp only at h
      split at h
      · next hreader =>
        cases h
        exact hi.of_handled (receive_handled hreader hi.claimed)
      · cases h
    | disconnect =>
      cases h
      exact hi.of_carried ⟨rfl, rfl, rfl, fun _ hp => .inl hp⟩ hi.answered
    | authorized db => exact inv_authorized hi hguard.2 h
    | pump now =>
      cases h
      obtain ⟨hcarried, hanswered⟩ := pumpOn_carried hi.answered hguard.1
      exact hi.of_carried hcarried hanswered
    | pumpFails =>
      cases h
      obtain ⟨hcarried, hanswered⟩ := pumpFails_carried hi.answered
      exact hi.of_carried hcarried hanswered
    | write sent =>
      obtain ⟨hcarried, hpump⟩ := write_carried h
      exact hi.of_carried hcarried (hpump ▸ hi.answered)
    | heartbeat now =>
      cases h
      obtain ⟨hcarried, hpump⟩ := heartbeat_carried (g := g) now
      exact hi.of_carried hcarried (hpump ▸ hi.answered)
    | allocate channel now =>
      cases h
      exact hi.of_carried ⟨rfl, rfl, rfl, fun _ hp => .inl hp⟩ hi.answered
    | keepCounter channel now =>
      cases h
      exact hi.of_carried ⟨rfl, rfl, rfl, fun _ hp => .inl hp⟩ hi.answered
    | append frame now =>
      cases h
      exact hi.of_carried ⟨rfl, rfl, rfl, fun _ hp => .inl hp⟩ hi.answered

theorem implicitChannels_length (actor : Principal) : (implicitChannels actor).length ≤ 2 := by
  unfold implicitChannels
  split
  · exact Nat.le_refl 2
  · exact Nat.le_succ 1

theorem inv_start (actor : Principal) (now : Time) (bus : Bus) (as : List Action) :
    Inv actor as (start actor now bus) := by
  have hcard : (implicitChannels actor).toFinset.card ≤ maxChannels := by
    have hle := (implicitChannels actor).toFinset_card_le
    have hlength := implicitChannels_length actor
    unfold maxChannels
    omega
  refine ⟨⟨?_, ?_, hcard⟩, rfl, hcard, answered_of_ne (by intro _ _ _ _ h; cases h)⟩
  · intro p hp
    cases hp
  · intro c hc
    exact .inl (List.mem_toFinset.1 hc)

/-- In every run in which no replay is delivered for a channel dropped in the meantime, a connection
hears only channels it holds, and holds at most twenty, each of them implicit or allowed. -/
theorem connection_isolated (actor : Principal) (now : Time) (bus : Bus) {as : List Action}
    {g : Gateway} (h : Runs Step StillHeld (start actor now bus) as g) : Isolated actor as g := by
  have hrun := h.among (fun _ ha => ha)
  have hinv := hrun.invariant (I := Inv actor as) (fun _ _ _ hi hguard hstep =>
    inv_step hi hguard hstep) (inv_start actor now bus as)
  exact hinv.isolated

/-! ## A client that unsubscribes before its replay -/

instance (g : Gateway) (a : Action) : Decidable (StillHeld g a) :=
  match a with
  | .pump now =>
    match h : g.pump with
    | .replied channel (some (missed, true)) _ _ =>
      decidable_of_iff (missed ≠ [] → channel ∈ g.connection.subscribed) (by
        constructor
        · intro hheld _ c m todo ack hp
          rw [h] at hp
          cases hp
          exact hheld
        · intro hheld
          exact hheld ⟨now, rfl⟩ _ _ _ _ h)
    | .replied _ (some (_, false)) _ _ | .replied _ none _ _ | .draining | .listening
    | .adding _ _ | .replaying _ _ | .counting _ _ _ | .dropping _ _ _ => .isTrue (by
        intro _ c m todo ack hp
        rw [h] at hp
        cases hp)
  | .receive _ _ _ | .disconnect | .authorized _ | .pumpFails | .write _ | .heartbeat _
  | .allocate _ _ | .keepCounter _ _ | .append _ _ => .isTrue (by
      rintro ⟨_, h⟩
      cases h)

def sampleActor : Principal := { userId := 1, userXid := "018f1111-1111-7111-8111-111111111111" }

def samplePair : String := "pair:018f2222-2222-7222-8222-222222222222"

def sampleDirectory : Directory := { pairs := fun _ => some (1, 2) }

def sampleFrame (seq : ℕ) : Frame :=
  { type := "pair.peer_joined", channel := samplePair, seq, ts := 0, data := .null }

def sampleBus : Bus := (Bus.empty.append (sampleFrame 1) 0).append (sampleFrame 2) 0

def frameOf (message : List (String × Json)) : Action :=
  .receive { size := 100, body := some (.obj message) } true 0

def resuming : List Action :=
  [frameOf [("type", .str "subscribe"), ("channels", .arr [.str samplePair]), ("since_seq", .int 1)],
    .authorized sampleDirectory]

def leaving : List Action :=
  [frameOf [("type", .str "unsubscribe"), ("channels", .arr [.str samplePair])]]

def pumping : List Action := List.replicate 8 (.pump 0)

def putBy (g : Gateway → Action → Prop) [∀ s a, Decidable (g s a)] (acts : List Action) :
    Option (List (ℕ × Bool)) :=
  (follow step g acts (start sampleActor 0 sampleBus)).map
    (fun g => g.put.map (fun p => (p.1.seq, decide (p.1.channel ∈ p.2))))

theorem connection_isolated_on_sample :
    ∃ g, follow step StillHeld (resuming ++ pumping) (start sampleActor 0 sampleBus) = some g ∧
      g.put.map (fun p => (p.1.seq, decide (p.1.channel ∈ p.2))) = [(2, true)] ∧
      Isolated sampleActor (resuming ++ pumping) g := by
  have hrun : putBy StillHeld (resuming ++ pumping) = some [(2, true)] := by decide +kernel
  obtain ⟨g, hg, hput⟩ := Option.map_eq_some_iff.1 hrun
  exact ⟨g, hg, hput, connection_isolated sampleActor 0 sampleBus (runs_of_follow hg)⟩

/-- A replayed frame is put on the queue for a channel the client has dropped. -/
theorem replay_reaches_dropped_channel :
    ∃ as g, Any Step (start sampleActor 0 sampleBus) as g ∧ ¬ Isolated sampleActor as g := by
  have hrun : putBy (fun _ _ => True) (resuming ++ leaving ++ pumping) = some [(2, false)] := by
    decide +kernel
  obtain ⟨g, hg, hput⟩ := Option.map_eq_some_iff.1 hrun
  refine ⟨_, g, runs_of_follow hg, ?_⟩
  intro h
  have hmem : ((2 : ℕ), false) ∈ g.put.map (fun p => (p.1.seq, decide (p.1.channel ∈ p.2))) := by
    rw [hput]
    exact List.mem_cons_self
  obtain ⟨p, hp, heq⟩ := List.mem_map.1 hmem
  exact of_decide_eq_false (congrArg Prod.snd heq) (h.frames p hp)

end IeltsHub.RealtimeGateway
