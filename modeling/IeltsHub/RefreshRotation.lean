import IeltsHub.AuthSessions

set_option autoImplicit false

/-!
# Rotating refresh tokens

A refresh token names the session its hash is stored with. `Rotates` is what rotation promises of
one step of any of the requests: a token is exchanged once, presenting it again ends every session
of its user, presenting one that ended in another way ends none, and a session is there only where
somebody was answered with it.
-/
namespace IeltsHub.RefreshRotation
open PyTime PlatformRefusals GuardedRuns RowTable ReadCommitted AuthSessions

def Exchanged (s : Sys) (id : ℕ) : Prop :=
  ∃ r new raw, (s.requests r).phase = .done (.opened (some id) new raw)

def PresentsIn (d : Sessions) (call : Call) (row : AuthSession) : Prop :=
  ∃ token agent, call = .refresh (some token) agent ∧ token ≠ "" ∧ byToken d token = some row

def Presents (s : Sys) (r : ℕ) (row : AuthSession) : Prop :=
  PresentsIn s.store (s.requests r).call row

structure Rotates (s t : Sys) (i : ℕ × Act) : Prop where
  /-- A session is exchanged at most once. -/
  once : ∀ {r r' old new new' raw raw'},
    (t.requests r).phase = .done (.opened (some old) new raw) →
    (t.requests r').phase = .done (.opened (some old) new' raw') → r = r'
  /-- A token that was exchanged is recognised. -/
  detected : ∀ {now row}, (s.requests i.1).phase = .waiting → i.2 = .read now →
    Presents s i.1 row → Exchanged s row.id → (t.requests i.1).phase = .reused row
  /-- The answer that it was reused leaves its user without a session. -/
  reuse : ∀ {row}, (t.requests i.1).phase = .done (.refused tokenReuseDetected) →
    Presents s i.1 row → Exchanged s row.id →
    ∀ x ∈ t.store.rows, x.userId = row.userId → x.revokedAt ≠ none
  /-- Presenting any other token ends nothing but the session that it is exchanged for. -/
  others : ∀ {cookie agent}, (s.requests i.1).call = .refresh cookie agent →
    (∀ row, Presents s i.1 row → ¬ Exchanged s row.id) →
    ∀ id, Live s.store id → ¬ Live t.store id →
      ∃ new raw, (t.requests i.1).phase = .done (.opened (some id) new raw)
  /-- A request that is refused leaves no session behind. -/
  refused : ∀ {e}, (t.requests i.1).phase = .done (.refused e) →
    t.store.rows.map AuthSession.id = s.store.rows.map AuthSession.id
  opened : ∀ x ∈ t.store.rows, ∃ r old raw,
    (t.requests r).phase = .done (.opened old x.id raw)

/-- The sessions of a user have ended for good, and no successor comes of one any more. -/
def Over (s t : Sys) (userId : ℕ) : Prop :=
  ∀ x ∈ s.store.rows, x.userId = userId →
    Ended t.store x.id ∧ (Exchanged t x.id → Exchanged s x.id)

/-- The request has an UPDATE of a user's sessions under way, for a token that was reused. -/
def Ending (q : Request) (userId : ℕ) : Prop :=
  ∃ w : Sweep, w.reused ≠ none ∧ w.userId = userId ∧
    (q.phase = .sweeping w ∨ q.phase = .written ⟨.live w, none⟩)

/-- A session is exchanged that is still live when the exchange is written, the sessions of a user
are ended over a token that was exchanged, and none is opened while they are being ended. -/
def Meets (s : Sys) (i : ℕ × Act) : Prop :=
  match (s.requests i.1).phase, i.2 with
  | .live row, .write _ _ => Live s.store row.id
  | .reused row, .sweep _ => Exchanged s row.id
  | .written w, .commit =>
    ∀ o, w.opening = some o → ∀ r, ¬ Ending (s.requests r) o.row.userId
  | _, _ => True

/-! ## The invariant -/

def Named (d : Sessions) (call : Call) (id userId : ℕ) : Prop :=
  ∃ row, PresentsIn d call row ∧ row.id = id ∧ row.userId = userId

/-- What an UPDATE of live sessions relies on. -/
structure Sweeps (E : ℕ → Prop) (d : Sessions) (call : Call) (w : Sweep) : Prop where
  reused : ∀ id, w.reused = some id → Named d call id w.userId ∧ E id
  covers : w.reused ≠ none →
    ∀ x ∈ d.rows, x.userId = w.userId → x.revokedAt = none → x.id ∈ w.ids
  refresh : ∀ cookie agent, call = .refresh cookie agent → w.reused ≠ none

/-- What a request relies on in its phase. -/
inductive Fits (E : ℕ → Prop) (d : Sessions) (call : Call) : Phase → Prop where
  | waiting : Fits E d call .waiting
  | live {row : AuthSession} (named : Named d call row.id row.userId)
      (fresh : row.revokedAt = none) : Fits E d call (.live row)
  | reused {row : AuthSession} (named : Named d call row.id row.userId) : Fits E d call (.reused row)
  | device (row : AuthSession) (call' : ∀ cookie agent, call ≠ .refresh cookie agent) :
      Fits E d call (.device row)
  | sweeping {w : Sweep} (sweeps : Sweeps E d call w) : Fits E d call (.sweeping w)
  | ends {w : Sweep} (sweeps : Sweeps E d call w) : Fits E d call (.written ⟨.live w, none⟩)
  | exchanges {row : AuthSession} (o : Opening) (now : Time) (reason : String)
      (fresh : row.revokedAt = none) (live : Live d row.id) :
      Fits E d call (.written ⟨.row row now reason, some o⟩)
  | forgets (row : AuthSession) (now : Time) (reason : String)
      (call' : ∀ cookie agent, call ≠ .refresh cookie agent) :
      Fits E d call (.written ⟨.row row now reason, none⟩)
  | signs (o : Opening) (call' : ∀ cookie agent, call ≠ .refresh cookie agent) :
      Fits E d call (.written ⟨.nothing, some o⟩)
  | opened {old : Option ℕ} {new : ℕ} {raw : String} (ended : ∀ id, old = some id → Ended d id) :
      Fits E d call (.done (.opened old new raw))
  | noContent (call' : ∀ cookie agent, call ≠ .refresh cookie agent) : Fits E d call (.done .noContent)
  | refused (e : Refusal) : Fits E d call (.done (.refused e))

structure Inv (ttlDays : ℤ) (s : Sys) : Prop where
  locked : Locked (program ttlDays) s
  fits : ∀ r, Fits (Exchanged s) s.store (s.requests r).call (s.requests r).phase
  once : ∀ {r r' old new new' raw raw'},
    (s.requests r).phase = .done (.opened (some old) new raw) →
    (s.requests r').phase = .done (.opened (some old) new' raw') → r = r'
  opened : ∀ x ∈ s.store.rows, ∃ r old raw, (s.requests r).phase = .done (.opened old x.id raw)

variable {ttlDays : ℤ} {s t v : Sys} {i : ℕ × Act} {E E' : ℕ → Prop} {d : Sessions} {call : Call}
  {phase : Phase} {w : Write} {id userId : ℕ}

theorem inv_start (ttlDays : ℤ) (calls : ℕ → Call) : Inv ttlDays (start calls) where
  locked := locked_start (fun _ => rfl)
  fits _ := .waiting
  once h _ := by cases h
  opened x hx := by cases hx

theorem Named.land (h : Named d call id userId) : Named (w.land d) call id userId := by
  obtain ⟨row, ⟨token, agent, hcall, htoken, hrow⟩, hid, huser⟩ := h
  exact ⟨_, ⟨token, agent, hcall, htoken, byToken_land hrow⟩, by simpa using hid,
    by simpa using huser⟩

theorem Named.eq {row : AuthSession} (h : Named d call id userId) (hrow : PresentsIn d call row) :
    row.id = id ∧ row.userId = userId := by
  obtain ⟨row', ⟨token, _, hcall, _, hrow'⟩, hid, huser⟩ := h
  obtain ⟨token', _, hcall', _, hrow⟩ := hrow
  rw [hcall] at hcall'
  cases hcall'
  rw [hrow] at hrow'
  cases hrow'
  exact ⟨hid, huser⟩

theorem Sweeps.mono {u : Sweep} (hE : ∀ id, E id → E' id) (h : Sweeps E d call u) :
    Sweeps E' d call u where
  reused id hid := ⟨(h.reused id hid).1, hE id (h.reused id hid).2⟩
  covers := h.covers
  refresh := h.refresh

theorem Sweeps.land {u : Sweep} (h : Sweeps E d call u)
    (hopen : u.reused ≠ none → ∀ o, w.opening = some o → o.row.userId ≠ u.userId) :
    Sweeps E (w.land d) call u where
  reused id hid := ⟨(h.reused id hid).1.land, (h.reused id hid).2⟩
  refresh := h.refresh
  covers hreused x hx huser hlive := by
    rcases mem_land.1 hx with ⟨y, hy, rfl⟩ | ⟨o, ho, rfl⟩
    · obtain ⟨_, _, heq, hkeep, _⟩ := landRow_eq w.ending y
      rw [heq] at hlive huser ⊢
      by_cases hyended : y.revokedAt = none
      · exact h.covers hreused y hy huser hyended
      · exact absurd hlive (hkeep hyended)
    · exact absurd huser (hopen hreused o ho)

theorem Fits.mono (hE : ∀ id, E id → E' id) (h : Fits E d call phase) : Fits E' d call phase := by
  cases h with
  | waiting => exact .waiting
  | live h hfresh => exact .live h hfresh
  | reused h => exact .reused h
  | device _ h => exact .device _ h
  | sweeping h => exact .sweeping (h.mono hE)
  | ends h => exact .ends (h.mono hE)
  | exchanges _ _ _ hfresh h => exact .exchanges _ _ _ hfresh h
  | forgets _ _ _ h => exact .forgets _ _ _ h
  | signs _ h => exact .signs _ h
  | opened h => exact .opened h
  | noContent h => exact .noContent h
  | refused e => exact .refused e

/-- What a request relies on outlasts the commits of others: the row it exchanges is locked, and
nothing is opened for the user whose sessions it ends. -/
theorem Fits.land (h : Fits E d call phase)
    (hopen : ∀ o, w.opening = some o → ¬ Ending ⟨call, phase⟩ o.row.userId)
    (hlive : ∀ row now reason o, phase = .written ⟨.row row now reason, some o⟩ →
      Live d row.id → Live (w.land d) row.id) : Fits E (w.land d) call phase := by
  cases h with
  | waiting => exact .waiting
  | live h hfresh => exact .live h.land hfresh
  | reused h => exact .reused h.land
  | device _ h => exact .device _ h
  | sweeping h =>
    exact .sweeping (h.land (fun hr o ho huser => hopen o ho ⟨_, hr, huser.symm, .inl rfl⟩))
  | ends h => exact .ends (h.land (fun hr o ho huser => hopen o ho ⟨_, hr, huser.symm, .inr rfl⟩))
  | exchanges o now reason hfresh h => exact .exchanges _ _ _ hfresh (hlive _ _ _ _ rfl h)
  | forgets _ _ _ h => exact .forgets _ _ _ h
  | signs _ h => exact .signs _ h
  | opened h => exact .opened (fun id hid => ended_land (h id hid))
  | noContent h => exact .noContent h
  | refused e => exact .refused e

theorem done_step {r : ℕ} {a : Answer} (hi : Step (program ttlDays) s i t)
    (h : (s.requests r).phase = .done a) : (t.requests r).phase = .done a := by
  by_cases hr : r = i.1
  · subst hr
    obtain ⟨m, hnext, _⟩ := Option.bind_eq_some_iff.1 hi
    have hstuck : next ttlDays s.store (s.requests i.1) i.2 = none := by simp [next, h]
    exact absurd (hstuck.symm.trans hnext) (by simp)
  · rw [requests_of_ne hi hr, h]

theorem exchanged_step (hi : Step (program ttlDays) s i t) (h : Exchanged s id) :
    Exchanged t id := by
  obtain ⟨r, new, raw, hr⟩ := h
  exact ⟨r, new, raw, done_step hi hr⟩

/-! ## One step -/

theorem fits_refresh (d : Sessions) (cookie : Option String) (agent : String) (now : Time)
    (hcall : call = .refresh cookie agent) : Fits E d call (refresh d cookie now) := by
  unfold refresh
  cases htoken : cookie.filter (fun token => token ≠ "") with
  | none => exact .refused _
  | some token =>
    obtain ⟨hcookie, hne⟩ := Option.filter_eq_some_iff.1 htoken
    dsimp only
    cases hrow : byToken d token with
    | none => exact .refused _
    | some row =>
      have hnamed : Named d call row.id row.userId :=
        ⟨row, ⟨token, agent, by rw [hcall, hcookie], by simpa using hne, hrow⟩, rfl, rfl⟩
      dsimp only
      split
      · exact .reused hnamed
      · next hfresh =>
        split
        · exact .refused _
        · exact .live hnamed (not_not.1 hfresh)

theorem fits_forgetDevice (d : Sessions) (u id : ℕ) (hcall : call = .forgetDevice u id) :
    Fits E d call (forgetDevice d u id) := by
  unfold forgetDevice
  cases (d.get? id).filter (fun x => x.userId = u) with
  | none => exact .refused _
  | some row => exact .device row (by simp [hcall])

theorem mem_sweep {u : ℕ} {reason : String} {now : Time} {reused : Option ℕ} {x : AuthSession}
    (hx : x ∈ d.rows) (huser : x.userId = u) (hlive : x.revokedAt = none) :
    x.id ∈ (sweep d u reason now reused).ids :=
  List.mem_map_of_mem (List.mem_filter.2 ⟨hx, by simp [huser, hlive]⟩)

theorem ended_of_exchange {row : AuthSession} {now : Time} {reason : String} {o : Opening}
    (hfresh : row.revokedAt = none) (h : Live d row.id) :
    Ended (Write.land ⟨.row row now reason, some o⟩ d) row.id := by
  obtain ⟨x, hx, hid, hlive⟩ := h
  refine ⟨_, mem_land.2 (.inl ⟨x, hx, rfl⟩), by simp [hid], ?_⟩
  simp [AuthSessions.Ending.landRow, hid, hfresh, merged]

theorem fits_moved (hs : Inv ttlDays s) (hg : Meets s i) (hi : Step (program ttlDays) s i t) :
    (t.requests i.1).call = (s.requests i.1).call ∧
      Fits (Exchanged s) t.store (t.requests i.1).call (t.requests i.1).phase := by
  obtain ⟨r, act⟩ := i
  have hfits := hs.fits r
  unfold Meets at hg
  dsimp only at hg ⊢
  cases step_cases hi with
  | rolledBack p hnext hstore _ hrequests =>
    rw [hrequests, put_self]
    cases next_cases hnext with
    | refused act e => exact ⟨rfl, .refused _⟩
  | committed p hnext _ hrequests =>
    rw [hrequests, put_self]
    generalize htstore : t.store = d' at hnext
    cases next_cases hnext with
    | committed w hphase =>
      refine ⟨rfl, ?_⟩
      dsimp only
      rw [hphase] at hfits
      cases hfits with
      | ends h =>
        unfold Write.answer
        dsimp only
        split
        · exact .refused _
        · next hnone => exact .noContent (fun c a hcall => h.refresh c a hcall hnone)
      | exchanges o now reason hfresh h =>
        refine .opened (fun id hid => ?_)
        cases hid
        exact ended_of_exchange hfresh h
      | forgets _ _ _ h => exact .noContent h
      | signs _ h => exact .opened (fun _ h => by cases h)
  | went p keys hnext _ hstore _ hrequests =>
    rw [hrequests, put_self, hstore]
    cases next_cases hnext with
    | presented cookie agent now hphase hcall => exact ⟨rfl, fits_refresh _ _ _ _ hcall⟩
    | device u id now hphase hcall => exact ⟨rfl, fits_forgetDevice _ _ _ hcall⟩
    | ending u reason now hphase hcall =>
      exact ⟨rfl, .sweeping ⟨fun _ h => (by cases h), fun h => absurd rfl h, by simp [hcall]⟩⟩
    | reusing row cookie agent now hphase hcall =>
      rw [hphase] at hfits hg
      cases hfits with
      | reused hnamed =>
        refine ⟨rfl, .sweeping ⟨?_, fun _ x hx huser hlive => mem_sweep hx huser hlive,
          fun _ _ _ => Option.some_ne_none _⟩⟩
        intro id hid
        cases hid
        exact ⟨hnamed, hg⟩
    | signing u label agent now raw hphase hcall w hw =>
      subst hw
      exact ⟨rfl, .signs _ (by simp [hcall])⟩
    | exchanging row cookie agent now raw hphase hcall w hw =>
      subst hw
      rw [hphase] at hfits hg
      cases hfits with
      | live _ hfresh => exact ⟨rfl, .exchanges _ _ _ hfresh hg⟩
    | forgetting row u id now raw hphase hcall w hw =>
      subst hw
      exact ⟨rfl, .forgets _ _ _ (by simp [hcall])⟩
    | swept u now raw hphase w hw =>
      subst hw
      rw [hphase] at hfits
      cases hfits with
      | sweeping h =>
        refine ⟨rfl, .ends ⟨h.reused, fun hreused x hx huser hlive => ?_, h.refresh⟩⟩
        exact List.mem_filter.2
          ⟨h.covers hreused x hx huser hlive, isLive_iff.2 ⟨x, hx, rfl, hlive⟩⟩

theorem refresh_done {cookie : Option String} {now : Time} {a : Answer}
    (h : refresh d cookie now = .done a) : ∃ e, a = .refused e ∧ e ≠ tokenReuseDetected := by
  unfold refresh at h
  split at h
  · cases h
    exact ⟨_, rfl, by decide⟩
  · split at h
    · cases h
      exact ⟨_, rfl, by decide⟩
    · split at h
      · cases h
      · split at h
        · cases h
          exact ⟨_, rfl, by decide⟩
        · cases h

theorem answered (hi : Step (program ttlDays) s i t) {a : Answer}
    (h : (t.requests i.1).phase = .done a) :
    (∃ e, a = .refused e ∧ e ≠ tokenReuseDetected ∧ t.store = s.store) ∨
    ∃ w, (s.requests i.1).phase = .written w ∧ t.store = w.land s.store ∧ a = w.answer s.store := by
  obtain ⟨r, act⟩ := i
  dsimp only at h ⊢
  cases step_cases hi with
  | rolledBack p hnext hstore _ hrequests =>
    rw [hrequests, put_self] at h
    cases next_cases hnext with
    | refused act e =>
      cases h
      exact .inl ⟨_, rfl, by simp [tokenReuseDetected], hstore⟩
  | committed p hnext _ hrequests =>
    rw [hrequests, put_self] at h
    generalize htstore : t.store = d' at hnext
    cases next_cases hnext with
    | committed w hphase =>
      cases h
      exact .inr ⟨w, hphase, rfl, rfl⟩
  | went p keys hnext _ hstore _ hrequests =>
    rw [hrequests, put_self] at h
    cases next_cases hnext with
    | presented cookie agent now =>
      obtain ⟨e, ha, he⟩ := refresh_done h
      exact .inl ⟨e, ha, he, hstore⟩
    | device u id now =>
      dsimp only [forgetDevice] at h
      split at h
      · cases h
        exact .inl ⟨_, rfl, by decide, hstore⟩
      · cases h
    | ending => cases h
    | reusing => cases h
    | signing => cases h
    | exchanging => cases h
    | forgetting => cases h
    | swept => cases h

theorem live_of_exchange (hs : Inv ttlDays s) (hi : Step (program ttlDays) s i t) {old new : ℕ}
    {raw : String} (h : (t.requests i.1).phase = .done (.opened (some old) new raw)) :
    Live s.store old := by
  rcases answered hi h with ⟨e, ha, _⟩ | ⟨w, hphase, _, ha⟩
  · cases ha
  · have hfits := hs.fits i.1
    rw [hphase] at hfits
    cases hfits with
    | ends =>
      unfold Write.answer at ha
      dsimp only at ha
      split at ha <;> cases ha
    | exchanges _ _ _ _ hlive =>
      cases ha
      exact hlive
    | forgets => cases ha
    | signs => cases ha

theorem ended_of_exchanged (hs : Inv ttlDays s) (h : Exchanged s id) : Ended s.store id := by
  obtain ⟨r, new, raw, hr⟩ := h
  have hfits := hs.fits r
  rw [hr] at hfits
  cases hfits with
  | opened hended => exact hended id rfl

theorem once_step (hs : Inv ttlDays s) (hi : Step (program ttlDays) s i t)
    {r r' old new new' : ℕ} {raw raw' : String}
    (h : (t.requests r).phase = .done (.opened (some old) new raw))
    (h' : (t.requests r').phase = .done (.opened (some old) new' raw')) : r = r' := by
  have hclash : ∀ {a b new new' raw raw'}, a = i.1 → b ≠ i.1 →
      (t.requests a).phase = .done (.opened (some old) new raw) →
      (t.requests b).phase = .done (.opened (some old) new' raw') → False := by
    intro a b new new' raw raw' ha hb hexch hdone
    subst ha
    rw [requests_of_ne hi hb] at hdone
    exact (ended_of_exchanged hs ⟨_, _, _, hdone⟩).not_live (live_of_exchange hs hi hexch)
  by_cases hr : r = i.1 <;> by_cases hr' : r' = i.1
  · rw [hr, hr']
  · exact (hclash hr hr' h h').elim
  · exact (hclash hr' hr h' h).elim
  · rw [requests_of_ne hi hr] at h
    rw [requests_of_ne hi hr'] at h'
    exact hs.once h h'

theorem opened_step (hs : Inv ttlDays s) (hi : Step (program ttlDays) s i t) :
    ∀ x ∈ t.store.rows, ∃ r old raw, (t.requests r).phase = .done (.opened old x.id raw) := by
  intro x hx
  have hold : ∀ y ∈ s.store.rows, y.id = x.id →
      ∃ r old raw, (t.requests r).phase = .done (.opened old x.id raw) := by
    intro y hy hid
    obtain ⟨r, old, raw, hr⟩ := hs.opened y hy
    exact ⟨r, old, raw, done_step hi (hid ▸ hr)⟩
  obtain ⟨r, act⟩ := i
  obtain ⟨m, hnext, hmoved, hstore⟩ := step_moved hi
  rw [hstore] at hx
  cases next_cases hnext with
  | committed w hphase =>
    rcases mem_land.1 hx with ⟨y, hy, rfl⟩ | ⟨o, ho, rfl⟩
    · exact hold y hy (by simp)
    · obtain ⟨old, ha⟩ := answer_of_opening (d := s.store) ho
      exact ⟨r, old, o.raw, by rw [hmoved, ← ha]; rfl⟩
  | _ => exact hold x hx rfl

theorem inv_step (hs : Inv ttlDays s) (hg : Meets s i) (hi : Step (program ttlDays) s i t) :
    Inv ttlDays t where
  locked := locked_step hs.locked hi
  once h h' := once_step hs hi h h'
  opened := opened_step hs hi
  fits r := by
    by_cases hr : r = i.1
    · subst hr
      exact (fits_moved hs hg hi).2.mono (fun id h => exchanged_step hi h)
    · rw [requests_of_ne hi hr]
      have hfits := (hs.fits r).mono (fun id h => exchanged_step hi h)
      obtain ⟨r', act⟩ := i
      have hkept : ∀ row now reason o,
          (s.requests r).phase = .written ⟨.row row now reason, some o⟩ →
          Live s.store row.id → Live t.store row.id := by
        intro row now reason o hphase hlive
        refine (kept_live ttlDays).step hs.locked hi (k := .row row.id) ?_ hr ?_ _ rfl
        · simp [program, owned, hphase, Write.keys, AuthSessions.Ending.keys]
        · intro id hid
          cases hid
          exact hlive
      obtain ⟨m, hnext, -, hstore⟩ := step_moved hi
      rw [hstore] at hkept ⊢
      cases next_cases hnext with
      | committed w hphase =>
        simp only [Meets, hphase] at hg
        exact hfits.land (fun o ho => hg o ho r) hkept
      | _ => exact hfits

/-! ## What rotation promises -/

theorem rotates_step (hs : Inv ttlDays s) (hg : Meets s i) (hi : Step (program ttlDays) s i t) :
    Rotates s t i where
  once h h' := once_step hs hi h h'
  opened := opened_step hs hi
  detected := by
    intro now row hphase hread hpresents hexch
    obtain ⟨x, hx, hid, hended⟩ := ended_of_exchanged hs hexch
    obtain ⟨token, agent, hcall, htoken, hrow⟩ := hpresents
    have hmem : row ∈ s.store.rows := List.mem_of_find?_eq_some hrow
    rw [eq_of_id hx hmem hid] at hended
    have hrefresh : refresh s.store (some token) now = .reused row := by
      simp [refresh, Option.filter, htoken, hrow, hended]
    obtain ⟨r, act⟩ := i
    dsimp only at hphase hread hcall ⊢
    subst hread
    have hgoes : next ttlDays s.store (s.requests r) (.read now) =
        some (.goes ⟨(s.requests r).call, .reused row⟩ []) := by
      simp [next, hphase, hcall, hrefresh]
    rw [(moved_of_next hi hgoes).1]
    rfl
  reuse := by
    intro row hanswer hpresents _ x hx huser
    rcases answered hi hanswer with ⟨e, ha, he, _⟩ | ⟨w, hphase, hstore, ha⟩
    · cases ha
      exact absurd rfl he
    · have hfits := hs.fits i.1
      rw [hphase] at hfits
      cases hfits with
      | exchanges => cases ha
      | forgets => cases ha
      | signs => cases ha
      | @ends sweep hsweeps =>
        cases hreused : sweep.reused with
        | none => simp [Write.answer, hreused] at ha
        | some id =>
          obtain ⟨hid, hsame⟩ := (hsweeps.reused id hreused).1.eq hpresents
          rw [hstore] at hx
          rcases mem_land.1 hx with ⟨y, hy, rfl⟩ | ⟨o, ho, _⟩
          · simp only [landRow_userId] at huser
            obtain ⟨_, _, heq, hkeep, _⟩ := landRow_eq (.live sweep) y
            by_cases hlive : y.revokedAt = none
            · have hcovered := hsweeps.covers (by simp [hreused]) y hy (huser.trans hsame) hlive
              simp [AuthSessions.Ending.landRow, hcovered, hlive]
            · rw [heq]
              exact hkeep hlive
          · cases ho
  others := by
    intro cookie agent hcall hpresents id hlive hgone
    obtain ⟨r, act⟩ := i
    have hfits := hs.fits r
    obtain ⟨m, hnext, hmoved, hstore⟩ := step_moved hi
    rw [hstore] at hgone
    rw [hmoved]
    cases next_cases hnext with
    | committed w hphase =>
      have hkey : .row id ∈ w.keys := by
        by_contra hkey
        exact hgone (live_land hkey hlive)
      rw [hphase] at hfits
      cases hfits with
      | @ends sweep hsweeps =>
        cases hreused : sweep.reused with
        | none => exact absurd hreused (hsweeps.refresh _ _ hcall)
        | some old =>
          obtain ⟨⟨row, hrow, hid, _⟩, hexch⟩ := hsweeps.reused old hreused
          exact absurd (hid ▸ hexch) (hpresents row hrow)
      | @exchanges row o now reason =>
        have hid : id = row.id := by
          simpa [Write.keys, AuthSessions.Ending.keys] using hkey
        exact ⟨_, _, by rw [hid]; rfl⟩
      | forgets _ _ _ h => exact absurd hcall (h _ _)
      | signs _ h => exact absurd hcall (h _ _)
    | _ => exact absurd hlive hgone
  refused := by
    intro e hanswer
    rcases answered hi hanswer with ⟨_, _, _, hstore⟩ | ⟨w, _, hstore, ha⟩
    · rw [hstore]
    · rw [hstore, rows_land]
      cases ho : w.opening with
      | none => simp [Function.comp_def]
      | some o =>
        obtain ⟨old, ha'⟩ := answer_of_opening (d := s.store) ho
        rw [ha'] at ha
        cases ha

theorem over_step (hs : Inv ttlDays s) (hi : Step (program ttlDays) s i t) (h : Ended s.store id) :
    Ended t.store id ∧ (Exchanged t id → Exchanged s id) := by
  refine ⟨?_, ?_⟩
  · obtain ⟨r, act⟩ := i
    refine database_step (J := (Ended · id)) hi h (fun d p hnext => ?_)
    cases next_cases hnext with
    | committed w => exact ended_land h
  · rintro ⟨r, new, raw, hr⟩
    by_cases hmoved : r = i.1
    · subst hmoved
      exact absurd (live_of_exchange hs hi hr) h.not_live
    · rw [requests_of_ne hi hmoved] at hr
      exact ⟨r, new, raw, hr⟩

theorem over_runs (hs : Inv ttlDays s) {is : List (ℕ × Act)}
    (hrun : Runs (Step (program ttlDays)) Meets s is t) (h : Ended s.store id) :
    Ended t.store id ∧ (Exchanged t id → Exchanged s id) := by
  have hlast := hrun.invariant
    (I := fun u => Inv ttlDays u ∧ Ended u.store id ∧ (Exchanged u id → Exchanged s id))
    (by
      intro u i v hu hg hi
      have hover := over_step hu.1 hi hu.2.1
      exact ⟨inv_step hu.1 hg hi, hover.1, fun h => hu.2.2 (hover.2 h)⟩)
    ⟨hs, h, fun h => h⟩
  exact hlast.2

theorem inv_runs {calls : ℕ → Call} {is : List (ℕ × Act)}
    (hrun : Runs (Step (program ttlDays)) Meets (start calls) is s) : Inv ttlDays s :=
  hrun.invariant (fun _ _ _ hs hg hi => inv_step hs hg hi) (inv_start ttlDays calls)

/-- Rotation keeps its promise at every step of every run within the guard, and what the answer to
a reused token has ended stays so. -/
def Rotation (ttlDays : ℤ) (g : Sys → ℕ × Act → Prop) : Prop :=
  ∀ calls is s i t js v, Runs (Step (program ttlDays)) g (start calls) is s → g s i →
    Step (program ttlDays) s i t → Runs (Step (program ttlDays)) g t js v →
    Rotates s t i ∧
    ∀ row, (t.requests i.1).phase = .done (.refused tokenReuseDetected) → Presents s i.1 row →
      Exchanged s row.id → Over t v row.userId

theorem refresh_rotates (ttlDays : ℤ) : Rotation ttlDays Meets := by
  intro calls is s i t js v hrun hg hi hlater
  have hs := inv_runs hrun
  have hrotates := rotates_step hs hg hi
  refine ⟨hrotates, fun row hanswer hpresents hexch x hx huser => ?_⟩
  exact over_runs (inv_step hs hg hi) hlater
    ⟨x, hx, rfl, hrotates.reuse hanswer hpresents hexch x hx huser⟩

/-! ## Two refreshes of one token at once -/

def holders : ℕ → Call
  | 0 => .signIn 1 none "browser"
  | _ => .refresh (some "a") "browser"

def overlap : List (ℕ × Act) :=
  [(0, .write 0 "a"), (0, .commit), (1, .read 1), (2, .read 1), (1, .write 2 "b"), (1, .commit),
    (2, .write 3 "c")]

def exchangesFirst (q : Request) : Bool :=
  match q.phase with
  | .done (.opened (some 1) _ _) => true
  | _ => false

theorem exchangesFirst_iff {q : Request} (h : exchangesFirst q = true) :
    ∃ new raw, q.phase = .done (.opened (some 1) new raw) := by
  unfold exchangesFirst at h
  split at h
  · next hphase => exact ⟨_, _, hphase⟩
  · cases h

/-- Both refreshes come away with a successor of the one session. -/
theorem not_rotation_of_overlap : ¬ Rotation 90 (fun _ _ => True) := by
  intro h
  have hrun : ((follow (step (program 90)) (fun _ _ => True) overlap (start holders)).bind
      (fun s => (step (program 90) s (2, .commit)).map (fun t =>
        exchangesFirst (t.requests 1) && exchangesFirst (t.requests 2)))) = some true := by
    decide +kernel
  obtain ⟨s, hs, hlast⟩ := Option.bind_eq_some_iff.1 hrun
  obtain ⟨t, ht, hboth⟩ := Option.map_eq_some_iff.1 hlast
  rw [Bool.and_eq_true] at hboth
  obtain ⟨_, _, hfirst⟩ := exchangesFirst_iff hboth.1
  obtain ⟨_, _, hsecond⟩ := exchangesFirst_iff hboth.2
  have honce := (h _ _ _ _ _ _ _ (runs_of_follow hs) trivial ht (.refl t)).1.once hfirst hsecond
  cases honce

end IeltsHub.RefreshRotation
