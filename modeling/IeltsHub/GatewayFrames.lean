import IeltsHub.GatewayIsolation

set_option autoImplicit false

/-!
# Whatever a client sends

The frame handler against any text at all: it is to come back, to refuse what is malformed as a
`bad_frame`, and to touch the held channels for a subscribe or an unsubscribe only. The JSON
library is a parameter: the value of a text, or what it raises.
-/
namespace IeltsHub.RealtimeGateway
open PyDict PyExc PyTime PyValue PlatformErrors AuthzPolicy RealtimeChannels

/-- `_handle`: what is no JSON raises a `ValueError`, which is caught; nothing else is. -/
def handleText (loads : String → Except Raised Json) (g : Gateway) (raw : String) (busUp : Bool)
    (now : Time) : Except Raised Gateway :=
  match loads raw with
  | .ok value => handle g (some value) busUp now
  | .error .valueError => handle g none busUp now
  | .error e => .error e

/-! ## Frames -/

def signalKinds : List String := ["offer", "answer", "ice", "bye"]

/-- A frame of the protocol: its type, and the fields that type needs. -/
inductive WellFormed (message : List (String × Json)) : Prop
  | ping (h : fieldOf message "type" = .str "ping")
  | pong (h : fieldOf message "type" = .str "pong")
  | subscribe (names : List String) (h : fieldOf message "type" = .str "subscribe")
      (hchannels : textsOf (fieldOf message "channels") = some names)
  | unsubscribe (names : List String) (h : fieldOf message "type" = .str "unsubscribe")
      (hchannels : textsOf (fieldOf message "channels") = some names)
  | signal (channel : String) (data : List (String × Json)) (kind : String)
      (h : fieldOf message "type" = .str "signal")
      (hchannel : fieldOf message "channel" = .str channel)
      (hdata : fieldOf message "data" = .obj data) (hkind : fieldOf data "kind" = .str kind)
      (hknown : kind ∈ signalKinds)

def Malformed (loaded : Except Raised Json) : Prop :=
  ∀ message, loaded = .ok (.obj message) → ¬ WellFormed message

def Subscribes (loaded : Except Raised Json) : Prop :=
  ∃ message, loaded = .ok (.obj message) ∧ WellFormed message ∧
    (fieldOf message "type" = .str "subscribe" ∨ fieldOf message "type" = .str "unsubscribe")

/-- What the handler is to make of a frame: it comes back, from the worker thread too; what is
malformed is answered as a bad frame; the held channels stay, and none is being asked for. -/
structure Robust (loads : String → Except Raised Json) (g : Gateway) (raw : String) (busUp : Bool)
    (now : Time) : Prop where
  completes : ∃ g', handleText loads g raw busUp now = .ok g' ∧
    ∀ wanted held id since, g'.reader = .authorizing wanted held id since →
      ∀ db, Returns (authorize g' db wanted)
  answered : ∀ g', handleText loads g raw busUp now = .ok g' → Malformed (loads raw) →
    ∃ id channel message, g'.connection.outbound =
      g.connection.outbound ++ [.error id channel "bad_frame" message]
  unchanged : ∀ g', handleText loads g raw busUp now = .ok g' → ¬ Subscribes (loads raw) →
    g'.connection.subscribed = g.connection.subscribed ∧ g'.reader = g.reader

/-- The message stays clear of what is not checked: a type or a kind with no hash, an unsubscribe
of a list of anything but texts, a malformed signal that is not for a held channel. -/
structure Clear (message : List (String × Json)) (c : Connection) : Prop where
  kind : PyValue.hashable (fieldOf message "type") = true
  names : fieldOf message "type" = .str "unsubscribe" → ∀ names,
    fieldOf message "channels" = .arr names → ∃ texts, textsOf (.arr names) = some texts
  signal : fieldOf message "type" = .str "signal" →
    WellFormed message ∨ ∃ channel ∈ c.subscribed, fieldOf message "channel" = .str channel ∧
      ∀ data, fieldOf message "data" = .obj data → PyValue.hashable (fieldOf data "kind") = true

/-- The parser does not give up on the nesting, the message is clear, and there is room for the
answer to a malformed one. -/
structure Checked (loaded : Except Raised Json) (c : Connection) : Prop where
  caught : ∀ e, loaded = .error e → e = .valueError
  room : Malformed loaded → c.outbound.length < sendQueue
  clear : ∀ message, loaded = .ok (.obj message) → Clear message c

/-- Every membership names a role: a check of `org_memberships`. -/
def RolesNamed (actor : Principal) : Prop :=
  ∀ org raw, actor.roles.get? org = some raw → Returns (roleNamed raw)

/-! ## The verdicts come back -/

theorem returns_roleOf {actor : Principal} (h : RolesNamed actor) (org : Option ℤ) :
    Returns (roleOf actor org) := by
  unfold roleOf
  split
  · exact returns_ok _
  · split
    · exact returns_ok _
    · split
      · exact returns_ok _
      · rename_i raw hraw
        split
        · exact returns_ok _
        · exact returns_map.2 (h _ _ hraw)

theorem returns_centreStaff {actor : Principal} (h : RolesNamed actor) (subject : Subject) :
    Returns (centreStaff actor subject) := by
  have hrole := returns_roleOf h subject.orgId
  obtain ⟨role, hrole⟩ := hrole
  have hcheck : Returns (check actor .read
      { orgId := subject.orgId, visibility := "org_private" } Dict.empty) := by
    unfold check
    split
    · exact returns_ok _
    · rw [hrole]
      exact returns_ok _
  obtain ⟨decision, hcheck⟩ := hcheck
  unfold centreStaff
  split
  · exact returns_ok _
  · rw [hcheck, hrole]
    change Returns (if _ then _ else _)
    split
    · exact returns_ok _
    · change Returns (if _ then _ else _)
      split
      · exact returns_ok _
      · exact returns_ok _

theorem returns_rule {actor : Principal} (h : RolesNamed actor) {name : String} {f : Family}
    (hf : familyNamed name = some f) (subject : Subject) : Returns (f.rule actor subject) := by
  have hmem := List.mem_of_find?_eq_some hf
  simp only [families, List.mem_cons, List.not_mem_nil, or_false] at hmem
  rcases hmem with rfl | rfl | rfl | rfl | rfl | rfl | rfl | rfl
  case inr.inr.inr.inr.inr.inl => exact returns_centreStaff h subject
  all_goals exact returns_ok _

theorem family_of_parse {name : String} {channel : Channel} (h : parse name = some channel) :
    ∃ f, familyNamed channel.family = some f := by
  unfold parse at h
  split at h
  · cases h
  · dsimp only at h
    split at h
    · cases h
    · rename_i f hf
      split at h
      · obtain ⟨n, _, rfl⟩ := Option.map_eq_some_iff.1 h
        exact ⟨f, hf⟩
      · split at h
        · cases h
          exact ⟨f, hf⟩
        · cases h

theorem returns_decideChannel {actor : Principal} (h : RolesNamed actor) (name : String)
    (db : Directory) : Returns (decideChannel actor name db) := by
  unfold decideChannel
  cases hparse : parse name with
  | none => exact returns_ok _
  | some channel =>
    obtain ⟨f, hf⟩ := family_of_parse hparse
    dsimp only
    rw [hf]
    dsimp only
    split
    · exact returns_map.2 (returns_rule h hf _)
    · split
      · exact returns_ok _
      · exact returns_map.2 (returns_rule h hf _)

theorem returns_authorize {g : Gateway} (h : RolesNamed g.connection.actor) (db : Directory)
    (names : List String) : Returns (authorize g db names) := by
  unfold authorize
  exact returns_mapM.2 (fun name _ => returns_decideChannel h name db)

/-! ## One frame -/

variable {g : Gateway} {c : Connection} {message : List (String × Json)} {busUp : Bool} {now : Time}

theorem hashable_eq_ok {v w : Json} : hashable v = .ok w ↔ PyValue.hashable v = true ∧ v = w := by
  cases v <;> simp [hashable, PyValue.hashable]

theorem hashable_error {v : Json} (h : PyValue.hashable v = false) :
    hashable v = .error .typeError := by
  cases v with
  | arr es => rfl
  | obj ms => rfl
  | _ => cases h

theorem refuse_outbound {c : Connection} (hroom : c.outbound.length < sendQueue)
    (code text : String) (channel : Option String) (id : Json) :
    (refuse c code text channel id).outbound = c.outbound ++ [.error id channel code text] := by
  unfold refuse Connection.offer
  rw [if_pos hroom]

def Refused (code : String) (g g' : Gateway) : Prop :=
  ∃ id channel text, g' = { g with connection := refuse g.connection code text channel id }

/-- A step of the handler that asks for no channel and drops none. -/
structure Stays (g g' : Gateway) : Prop where
  actor : g'.connection.actor = g.connection.actor
  subscribed : g'.connection.subscribed = g.connection.subscribed
  reader : g'.reader = g.reader

theorem Refused.stays {code : String} {g' : Gateway} (h : Refused code g g') : Stays g g' := by
  obtain ⟨id, channel, text, rfl⟩ := h
  obtain ⟨hactor, hset⟩ := offer_same g.connection (.error id channel code text)
  exact ⟨hactor, hset, rfl⟩

theorem Refused.answers {code : String} {g' : Gateway} (h : Refused code g g')
    (hroom : g.connection.outbound.length < sendQueue) :
    ∃ id channel text, g'.connection.outbound =
      g.connection.outbound ++ [.error id channel code text] := by
  obtain ⟨id, channel, text, rfl⟩ := h
  exact ⟨id, channel, text, refuse_outbound hroom _ _ _ _⟩

theorem Refused.not_bad {code : String} {g' : Gateway} (h : Refused code g g')
    (hcode : code ≠ "bad_frame") : ¬ ∃ id channel text, g'.connection.outbound =
      g.connection.outbound ++ [.error id channel "bad_frame" text] := by
  obtain ⟨id, channel, text, rfl⟩ := h
  rintro ⟨id', channel', text', heq⟩
  by_cases hroom : g.connection.outbound.length < sendQueue
  · dsimp only at heq
    rw [refuse_outbound hroom] at heq
    have hlast := List.append_cancel_left heq
    simp only [List.cons.injEq, OutFrame.error.injEq, and_true] at hlast
    exact hcode hlast.2.2.1
  · dsimp only at heq
    unfold refuse Connection.offer at heq
    rw [if_neg hroom] at heq
    have hlength := congrArg List.length heq
    simp at hlength

/-! ### Signals -/

theorem signalOf_unheld (h : ∀ channel ∈ c.subscribed, fieldOf message "channel" ≠ .str channel) :
    ∃ id channel text, signalOf c message =
      .ok (.inl (refuse c "forbidden_channel" text channel id)) := by
  unfold signalOf
  cases hchannel : fieldOf message "channel" with
  | str channel =>
    have hout : channel ∉ c.subscribed := fun hin => h channel hin hchannel
    dsimp only
    rw [if_pos hout]
    exact ⟨_, _, _, rfl⟩
  | _ => exact ⟨_, _, _, rfl⟩

theorem signalOf_unhashable {channel : String} {data : List (String × Json)}
    (hin : channel ∈ c.subscribed) (hchannel : fieldOf message "channel" = .str channel)
    (hdata : fieldOf message "data" = .obj data)
    (hkind : PyValue.hashable (fieldOf data "kind") = false) :
    signalOf c message = .error .typeError := by
  unfold signalOf
  rw [hchannel]
  dsimp only
  rw [if_neg (not_not.2 hin), hdata]
  dsimp only
  rw [hashable_error hkind]
  rfl

theorem signalOf_bad {channel : String} (htype : fieldOf message "type" = .str "signal")
    (hin : channel ∈ c.subscribed) (hchannel : fieldOf message "channel" = .str channel)
    (hkind : ∀ data, fieldOf message "data" = .obj data →
      PyValue.hashable (fieldOf data "kind") = true)
    (hbad : ¬ WellFormed message) : ∃ id channel text, signalOf c message =
      .ok (.inl (refuse c "bad_frame" text channel id)) := by
  unfold signalOf
  rw [hchannel]
  dsimp only
  rw [if_neg (not_not.2 hin)]
  cases hdata : fieldOf message "data" with
  | obj data =>
    dsimp only
    rw [hashable_eq_ok.2 ⟨hkind data hdata, rfl⟩]
    simp only [bind, Except.bind]
    cases hk : fieldOf data "kind" with
    | str kind =>
      have hunknown : kind ∉ ["offer", "answer", "ice", "bye"] :=
        fun hknown => hbad (.signal channel data kind htype hchannel hdata hk hknown)
      dsimp only
      rw [if_pos hunknown]
      exact ⟨_, _, _, rfl⟩
    | _ => exact ⟨_, _, _, rfl⟩
  | _ => exact ⟨_, _, _, rfl⟩

theorem signalOf_returns {channel kind : String} {data : List (String × Json)}
    (hchannel : fieldOf message "channel" = .str channel)
    (hdata : fieldOf message "data" = .obj data) (hkind : fieldOf data "kind" = .str kind) :
    ∃ outcome, signalOf c message = .ok outcome := by
  unfold signalOf
  rw [hchannel, hdata]
  dsimp only
  rw [hkind]
  split
  · exact ⟨_, rfl⟩
  · change ∃ outcome, (if kind ∉ ["offer", "answer", "ice", "bye"] then _ else _ :
      Except Raised _) = .ok outcome
    split
    · exact ⟨_, rfl⟩
    · split
      · exact ⟨_, rfl⟩
      · exact ⟨_, rfl⟩

theorem signalOf_inl {c' : Connection} (h : signalOf c message = .ok (.inl c')) :
    c'.actor = c.actor ∧ c'.subscribed = c.subscribed := by
  unfold signalOf at h
  split at h
  · split at h
    · cases h
      exact offer_same _ _
    · split at h
      · obtain ⟨kind, _, h⟩ := bind_eq_ok.1 h
        split at h
        · split at h
          · cases h
            exact offer_same _ _
          · split at h
            · cases h
              exact offer_same _ _
            · cases h
        · cases h
          exact offer_same _ _
      · cases h
        exact offer_same _ _
  · cases h
    exact offer_same _ _

theorem handleSignal_refused {code text : String} {channel : Option String} {id : Json}
    (h : signalOf g.connection message =
      .ok (.inl (refuse g.connection code text channel id))) :
    ∃ g', handleSignal g message busUp now = .ok g' ∧ Refused code g g' := by
  unfold handleSignal
  rw [h]
  exact ⟨_, rfl, id, channel, text, rfl⟩

theorem handleSignal_stays {outcome : Connection ⊕ (String × String × Json)}
    (h : signalOf g.connection message = .ok outcome) :
    ∃ g', handleSignal g message busUp now = .ok g' ∧ Stays g g' := by
  unfold handleSignal
  rw [h]
  cases outcome with
  | inl c =>
    obtain ⟨hactor, hset⟩ := signalOf_inl h
    exact ⟨_, rfl, hactor, hset, rfl⟩
  | inr event =>
    obtain ⟨channel, kind, data⟩ := event
    change ∃ g', (if busUp = true then _ else _ : Except Raised Gateway) = .ok g' ∧ Stays g g'
    split
    · exact ⟨_, rfl, rfl, rfl, rfl⟩
    · refine ⟨_, rfl, ?_, ?_, rfl⟩
      · unfold Connection.stop
        split <;> rfl
      · unfold Connection.stop
        split <;> rfl

/-! ### Unsubscribing -/

theorem dropName_text (s : Connection × List String) (text : String) :
    ∃ s', dropName s (.str text) = .ok s' ∧ s'.1.actor = s.1.actor := by
  unfold dropName
  change ∃ s', (if canonical text ∈ s.1.subscribed then _ else _ : Except Raised _) = .ok s' ∧ _
  split
  · exact ⟨_, rfl, rfl⟩
  · exact ⟨_, rfl, rfl⟩

theorem foldlM_dropName {names : List Json} {texts : List String}
    (h : textsOf (.arr names) = some texts) (s : Connection × List String) :
    ∃ s', names.foldlM dropName s = .ok s' ∧ s'.1.actor = s.1.actor := by
  change List.mapM _ names = some texts at h
  induction names generalizing texts s with
  | nil => exact ⟨s, rfl, rfl⟩
  | cons name names ih =>
    rw [List.mapM_cons] at h
    obtain ⟨text, htext, h⟩ := Option.bind_eq_some_iff.1 h
    obtain ⟨rest, hrest, _⟩ := Option.bind_eq_some_iff.1 h
    cases name with
    | str t =>
      obtain ⟨s1, hs1, hactor1⟩ := dropName_text s t
      obtain ⟨s2, hs2, hactor2⟩ := ih s1 hrest
      refine ⟨s2, ?_, hactor2.trans hactor1⟩
      rw [List.foldlM_cons, hs1]
      exact hs2
    | _ => cases htext

theorem dropName_outbound {s s' : Connection × List String} {name : Json}
    (h : dropName s name = .ok s') : s'.1.outbound = s.1.outbound := by
  unfold dropName at h
  obtain ⟨v, _, h⟩ := bind_eq_ok.1 h
  split at h
  · split at h
    · cases h
      rfl
    · cases h
      rfl
  · cases h
    rfl

theorem unsubscribe_outbound {c' : Connection} {names : List Json}
    (hlist : fieldOf message "channels" = .arr names) (h : unsubscribe c message = .ok c') :
    c'.outbound = c.outbound := by
  unfold unsubscribe at h
  rw [hlist] at h
  obtain ⟨s, hs, h⟩ := bind_eq_ok.1 h
  cases h
  exact foldlM_invariant (fun s : Connection × List String => s.1.outbound = c.outbound) hs rfl
    (fun _ hx _ _ _ hstep => (dropName_outbound hstep).trans hx)

theorem unsubscribe_texts {texts : List String}
    (h : textsOf (fieldOf message "channels") = some texts) :
    ∃ c', unsubscribe c message = .ok c' ∧ c'.actor = c.actor := by
  unfold unsubscribe
  cases hlist : fieldOf message "channels" with
  | arr names =>
    rw [hlist] at h
    obtain ⟨s, hs, hactor⟩ := foldlM_dropName h (c, [])
    dsimp only
    rw [hs]
    exact ⟨_, rfl, hactor⟩
  | _ =>
    rw [hlist] at h
    cases h

theorem unsubscribe_refused (h : ∀ names, fieldOf message "channels" ≠ .arr names) :
    ∃ id channel text, unsubscribe c message = .ok (refuse c "bad_frame" text channel id) := by
  unfold unsubscribe
  cases hlist : fieldOf message "channels" with
  | arr names => exact absurd hlist (h names)
  | _ => exact ⟨_, _, _, rfl⟩

/-! ### The dispatch -/

theorem handleObject_unhashable (h : PyValue.hashable (fieldOf message "type") = false) :
    handleObject g message busUp now = .error .typeError := by
  unfold handleObject
  rw [hashable_error h]
  rfl

theorem handleObject_subscribe (h : fieldOf message "type" = .str "subscribe") :
    handleObject g message busUp now = .ok { g with
      connection := (beginSubscribe g.connection message).1
      reader := (beginSubscribe g.connection message).2 } := by
  unfold handleObject
  rw [h]
  rfl

theorem handleObject_unsubscribe (h : fieldOf message "type" = .str "unsubscribe") :
    handleObject g message busUp now =
      (fun c => { g with connection := c }) <$> unsubscribe g.connection message := by
  unfold handleObject
  rw [h]
  cases unsubscribe g.connection message with
  | ok c => rfl
  | error e => rfl

theorem handleObject_signal (h : fieldOf message "type" = .str "signal") :
    handleObject g message busUp now = handleSignal g message busUp now := by
  unfold handleObject
  rw [h]
  rfl

theorem handleObject_silent (h : fieldOf message "type" = .str "ping" ∨
    fieldOf message "type" = .str "pong") : handleObject g message busUp now = .ok g := by
  unfold handleObject
  rcases h with h | h
  · rw [h]
    rfl
  · rw [h]
    rfl

theorem handleObject_unknown (hhash : PyValue.hashable (fieldOf message "type") = true)
    (h : ∀ kind ∈ ["ping", "pong", "subscribe", "unsubscribe", "signal"],
      fieldOf message "type" ≠ .str kind) :
    ∃ g', handleObject g message busUp now = .ok g' ∧ Refused "bad_frame" g g' := by
  simp only [List.forall_mem_cons, List.not_mem_nil, false_implies, implies_true, and_true] at h
  obtain ⟨hping, hpong, hsubscribe, hunsubscribe, hsignal⟩ := h
  unfold handleObject
  rw [hashable_eq_ok.2 ⟨hhash, rfl⟩]
  simp only [bind, Except.bind]
  exact ⟨_, rfl, _, _, _, rfl⟩

theorem handleObject_malformed (hreader : g.reader = .receiving)
    (hclear : Clear message g.connection) (hbad : ¬ WellFormed message) :
    ∃ g', handleObject g message busUp now = .ok g' ∧ Refused "bad_frame" g g' := by
  by_cases hsubscribe : fieldOf message "type" = .str "subscribe"
  · have hnames : textsOf (fieldOf message "channels") = none := by
      rw [Option.eq_none_iff_forall_ne_some]
      intro names hnames
      exact hbad (.subscribe names hsubscribe hnames)
    rw [handleObject_subscribe hsubscribe]
    unfold beginSubscribe
    rw [hnames]
    refine ⟨_, rfl, fieldOf message "id", none, "`channels` must be a list of strings.", ?_⟩
    rw [← hreader]
  · by_cases hunsubscribe : fieldOf message "type" = .str "unsubscribe"
    · have hlist : ∀ names, fieldOf message "channels" ≠ .arr names := by
        intro names hnames
        obtain ⟨texts, htexts⟩ := hclear.names hunsubscribe names hnames
        exact hbad (.unsubscribe texts hunsubscribe (by rw [hnames]; exact htexts))
      obtain ⟨id, channel, text, hc⟩ := unsubscribe_refused (c := g.connection) hlist
      rw [handleObject_unsubscribe hunsubscribe, hc]
      exact ⟨_, rfl, id, channel, text, rfl⟩
    · by_cases hsignal : fieldOf message "type" = .str "signal"
      · rcases hclear.signal hsignal with hgood | ⟨channel, hin, hchannel, hkind⟩
        · exact absurd hgood hbad
        · obtain ⟨id, ch, text, hrefused⟩ := signalOf_bad hsignal hin hchannel hkind hbad
          rw [handleObject_signal hsignal]
          exact handleSignal_refused hrefused
      · have hping : fieldOf message "type" ≠ .str "ping" := fun h => hbad (.ping h)
        have hpong : fieldOf message "type" ≠ .str "pong" := fun h => hbad (.pong h)
        apply handleObject_unknown hclear.kind
        simp only [List.forall_mem_cons, List.not_mem_nil, false_implies, implies_true, and_true]
        exact ⟨hping, hpong, hsubscribe, hunsubscribe, hsignal⟩

theorem beginSubscribe_actor (c : Connection) (message : List (String × Json)) :
    (beginSubscribe c message).1.actor = c.actor := by
  unfold beginSubscribe
  split
  · exact (offer_same _ _).1
  · dsimp only
    split
    · exact (offer_same _ _).1
    · rfl

theorem handleObject_wellFormed (hgood : WellFormed message) :
    ∃ g', handleObject g message busUp now = .ok g' ∧
      g'.connection.actor = g.connection.actor ∧
      (¬ Subscribes (.ok (.obj message)) → Stays g g') := by
  cases hgood with
  | ping h => exact ⟨g, handleObject_silent (.inl h), rfl, fun _ => ⟨rfl, rfl, rfl⟩⟩
  | pong h => exact ⟨g, handleObject_silent (.inr h), rfl, fun _ => ⟨rfl, rfl, rfl⟩⟩
  | subscribe names h hchannels =>
    refine ⟨_, handleObject_subscribe h, beginSubscribe_actor _ _, fun hnot => ?_⟩
    exact absurd ⟨message, rfl, .subscribe names h hchannels, .inl h⟩ hnot
  | unsubscribe names h hchannels =>
    obtain ⟨c, hc, hactor⟩ := unsubscribe_texts (c := g.connection) hchannels
    rw [handleObject_unsubscribe h, hc]
    refine ⟨_, rfl, hactor, fun hnot => ?_⟩
    exact absurd ⟨message, rfl, .unsubscribe names h hchannels, .inr h⟩ hnot
  | signal channel data kind h hchannel hdata hkind _ =>
    obtain ⟨outcome, houtcome⟩ := signalOf_returns (c := g.connection) hchannel hdata hkind
    rw [handleObject_signal h]
    obtain ⟨g', hg', hstays⟩ := @handleSignal_stays g message busUp now _ houtcome
    exact ⟨g', hg', hstays.actor, fun _ => hstays⟩

theorem clear_of_wellFormed (h : WellFormed message) : Clear message c := by
  have htype : ∃ kind, fieldOf message "type" = .str kind := by
    cases h with
    | ping h => exact ⟨_, h⟩
    | pong h => exact ⟨_, h⟩
    | subscribe _ h _ => exact ⟨_, h⟩
    | unsubscribe _ h _ => exact ⟨_, h⟩
    | signal _ _ _ h _ _ _ _ => exact ⟨_, h⟩
  obtain ⟨kind, htype⟩ := htype
  refine ⟨by rw [htype]; rfl, ?_, fun _ => .inl h⟩
  intro hunsubscribe names hnames
  cases h with
  | unsubscribe texts _ hchannels =>
    rw [hnames] at hchannels
    exact ⟨texts, hchannels⟩
  | ping h =>
    rw [h] at hunsubscribe
    simp at hunsubscribe
  | pong h =>
    rw [h] at hunsubscribe
    simp at hunsubscribe
  | subscribe _ h _ =>
    rw [h] at hunsubscribe
    simp at hunsubscribe
  | signal _ _ _ h _ _ _ _ =>
    rw [h] at hunsubscribe
    simp at hunsubscribe

/-! ## Any text -/

section
variable {loads : String → Except Raised Json} {raw : String}

theorem handleText_other (hcaught : ∀ e, loads raw = .error e → e = .valueError)
    (h : ∀ message, loads raw ≠ .ok (.obj message)) :
    ∃ g', handleText loads g raw busUp now = .ok g' ∧ Refused "bad_frame" g g' := by
  unfold handleText
  cases hloads : loads raw with
  | error e =>
    rw [hcaught e hloads]
    exact ⟨_, rfl, _, _, _, rfl⟩
  | ok value =>
    cases value with
    | obj message => exact absurd hloads (h message)
    | _ => exact ⟨_, rfl, _, _, _, rfl⟩

theorem handleText_object (h : loads raw = .ok (.obj message)) :
    handleText loads g raw busUp now = handleObject g message busUp now := by
  unfold handleText
  rw [h]
  rfl

theorem malformed_object (h : loads raw = .ok (.obj message)) :
    Malformed (loads raw) ↔ ¬ WellFormed message := by
  rw [h]
  constructor
  · intro hbad
    exact hbad message rfl
  · intro hbad m heq
    cases heq
    exact hbad

theorem handleText_checked (hreader : g.reader = .receiving)
    (h : Checked (loads raw) g.connection) :
    ∃ g', handleText loads g raw busUp now = .ok g' ∧
      g'.connection.actor = g.connection.actor ∧
      (Malformed (loads raw) → Refused "bad_frame" g g') ∧
      (¬ Subscribes (loads raw) → Stays g g') := by
  by_cases hobject : ∃ message, loads raw = .ok (.obj message)
  · obtain ⟨message, hmessage⟩ := hobject
    rw [handleText_object hmessage, malformed_object hmessage, hmessage]
    by_cases hgood : WellFormed message
    · obtain ⟨g', hg', hactor, hstays⟩ := @handleObject_wellFormed g message busUp now hgood
      exact ⟨g', hg', hactor, fun hbad => absurd hgood hbad, hstays⟩
    · obtain ⟨g', hg', hrefused⟩ := @handleObject_malformed g message busUp now hreader
        (h.clear message hmessage) hgood
      exact ⟨g', hg', hrefused.stays.actor, fun _ => hrefused, fun _ => hrefused.stays⟩
  · have hother : ∀ message, loads raw ≠ .ok (.obj message) :=
      fun message hmessage => hobject ⟨message, hmessage⟩
    obtain ⟨g', hg', hrefused⟩ := @handleText_other g busUp now loads raw
      h.caught hother
    exact ⟨g', hg', hrefused.stays.actor, fun _ => hrefused, fun _ => hrefused.stays⟩

theorem robust_of_checked (hreader : g.reader = .receiving)
    (hroles : RolesNamed g.connection.actor) (h : Checked (loads raw) g.connection) :
    Robust loads g raw busUp now := by
  obtain ⟨g', hg', hactor, hmalformed, hstays⟩ := @handleText_checked g busUp now loads raw hreader h
  have hsame : ∀ g'', handleText loads g raw busUp now = .ok g'' → g'' = g' :=
    fun g'' hg'' => Except.ok.inj (hg''.symm.trans hg')
  constructor
  · refine ⟨g', hg', fun wanted _ _ _ _ db => ?_⟩
    apply returns_authorize
    rw [hactor]
    exact hroles
  · intro g'' hg'' hbad
    rw [hsame g'' hg'']
    exact (hmalformed hbad).answers (h.room hbad)
  · intro g'' hg'' hnot
    rw [hsame g'' hg'']
    exact ⟨(hstays hnot).subscribed, (hstays hnot).reader⟩

theorem clear_of_answered {g' : Gateway}
    (h : handleObject g message busUp now = .ok g')
    (hanswered : ∃ id channel text, g'.connection.outbound =
      g.connection.outbound ++ [.error id channel "bad_frame" text]) :
    Clear message g.connection := by
  have hkind : PyValue.hashable (fieldOf message "type") = true := by
    by_contra hnot
    rw [handleObject_unhashable (Bool.eq_false_iff.2 hnot)] at h
    cases h
  refine ⟨hkind, ?_, ?_⟩
  · intro hunsubscribe names hnames
    exfalso
    rw [handleObject_unsubscribe hunsubscribe] at h
    obtain ⟨c, hc, rfl⟩ := map_eq_ok.1 h
    obtain ⟨id, channel, text, heq⟩ := hanswered
    dsimp only at heq
    rw [unsubscribe_outbound hnames hc] at heq
    have hlength := congrArg List.length heq
    simp at hlength
  · intro hsignal
    rw [handleObject_signal hsignal] at h
    right
    by_contra hnone
    by_cases hheld : ∃ channel ∈ g.connection.subscribed,
        fieldOf message "channel" = .str channel
    · obtain ⟨channel, hin, hchannel⟩ := hheld
      apply hnone
      refine ⟨channel, hin, hchannel, fun data hdata => ?_⟩
      by_contra hnot
      unfold handleSignal at h
      rw [signalOf_unhashable hin hchannel hdata (Bool.eq_false_iff.2 hnot)] at h
      cases h
    · have hunheld : ∀ channel ∈ g.connection.subscribed,
          fieldOf message "channel" ≠ .str channel :=
        fun channel hin heq => hheld ⟨channel, hin, heq⟩
      obtain ⟨id, channel, text, hrefused⟩ := signalOf_unheld hunheld
      obtain ⟨g'', hg'', hforbidden⟩ := @handleSignal_refused g message busUp now _ _ _ _ hrefused
      have hsame : g' = g'' := Except.ok.inj (h.symm.trans hg'')
      rw [hsame] at hanswered
      exact hforbidden.not_bad (by decide) hanswered

theorem Refused.room {code : String} {g' : Gateway} (h : Refused code g g')
    (hanswered : ∃ id channel text, g'.connection.outbound =
      g.connection.outbound ++ [.error id channel "bad_frame" text]) :
    g.connection.outbound.length < sendQueue := by
  obtain ⟨id, channel, text, rfl⟩ := h
  obtain ⟨id', channel', text', heq⟩ := hanswered
  by_contra hfull
  dsimp only at heq
  unfold refuse Connection.offer at heq
  rw [if_neg hfull] at heq
  have hlength := congrArg List.length heq
  simp at hlength

theorem checked_of_robust (hreader : g.reader = .receiving)
    (h : Robust loads g raw busUp now) : Checked (loads raw) g.connection := by
  obtain ⟨g', hg', _⟩ := h.completes
  have hcaught : ∀ e, loads raw = .error e → e = .valueError := by
    intro e he
    unfold handleText at hg'
    rw [he] at hg'
    cases e with
    | valueError => rfl
    | _ => cases hg'
  have hclear : ∀ message, loads raw = .ok (.obj message) → ¬ WellFormed message →
      Clear message g.connection := by
    intro message hmessage hbad
    have hanswered := h.answered g' hg' ((malformed_object hmessage).2 hbad)
    rw [handleText_object hmessage] at hg'
    exact clear_of_answered hg' hanswered
  refine ⟨hcaught, ?_, ?_⟩
  · intro hbad
    have hanswered := h.answered g' hg' hbad
    by_cases hobject : ∃ message, loads raw = .ok (.obj message)
    · obtain ⟨message, hmessage⟩ := hobject
      have hnot := (malformed_object hmessage).1 hbad
      obtain ⟨g'', hg'', hrefused⟩ := @handleObject_malformed g message busUp now hreader
        (hclear message hmessage hnot) hnot
      rw [handleText_object hmessage] at hg'
      rw [Except.ok.inj (hg'.symm.trans hg'')] at hanswered
      exact hrefused.room hanswered
    · obtain ⟨g'', hg'', hrefused⟩ := @handleText_other g busUp now loads raw
        hcaught (fun message hmessage => hobject ⟨message, hmessage⟩)
      rw [Except.ok.inj (hg'.symm.trans hg'')] at hanswered
      exact hrefused.room hanswered
  · intro message hmessage
    by_cases hgood : WellFormed message
    · exact clear_of_wellFormed hgood
    · exact hclear message hmessage hgood

/-- Whatever text arrives, it is handled as it should be exactly when it is checked. -/
theorem robust_iff (hreader : g.reader = .receiving) (hroles : RolesNamed g.connection.actor) :
    Robust loads g raw busUp now ↔ Checked (loads raw) g.connection :=
  ⟨checked_of_robust hreader, robust_of_checked hreader hroles⟩

end

def listType : String := "\x7b\"type\": []\x7d"

def sampleLoads (raw : String) : Except Raised Json :=
  if raw = listType then .ok (.obj [("type", .arr [])]) else .error .valueError

theorem robust_on_sample :
    Robust sampleLoads (start sampleActor 0 sampleBus) "subscribe" true 0 ↔
      Checked (sampleLoads "subscribe") (start sampleActor 0 sampleBus).connection := by
  have hroles : RolesNamed (start sampleActor 0 sampleBus).connection.actor := by
    intro org raw hraw
    cases hraw
  exact robust_iff rfl hroles

/-- The handler raises on it: a list has no hash. -/
theorem list_type_raises :
    ¬ Robust sampleLoads (start sampleActor 0 sampleBus) listType true 0 := by
  intro h
  obtain ⟨g', hg', _⟩ := h.completes
  have hloads : sampleLoads listType = .ok (.obj [("type", .arr [])]) := if_pos rfl
  rw [handleText_object hloads, handleObject_unhashable rfl] at hg'
  cases hg'

end IeltsHub.RealtimeGateway
