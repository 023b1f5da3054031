import IeltsHub.RefreshRotation

set_option autoImplicit false

/-!
# One browser, one cookie

`student/src/api/session.ts` over the sessions of the server: the tabs of a browser share the refresh
cookie, and each lets one refresh of its own run at a time. What the server commits and what the
browser hears of it are two things.
-/
namespace IeltsHub.HonestBrowser
open PyTime PlatformRefusals GuardedRuns RowTable ReadCommitted AuthSessions RefreshRotation

/-- A request that has been sent and is not answered, with the tab whose refresh it is. -/
structure Flight where
  request : ℕ
  tab : Option ℕ
  deriving DecidableEq

structure World where
  server : Sys
  jar : Option String := none
  sent : ℕ := 0
  flights : List Flight := []

/-- A tab refreshes, the user signs in, the server takes a step of a request, and an answer arrives
or is lost. -/
inductive Event where
  | refreshSession (tab : ℕ)
  | signIn (userId : ℕ)
  | serve (request : ℕ) (act : Act)
  | deliver (request : ℕ)
  | lose (request : ℕ)

def userAgent : String := "browser"

def send (w : World) (call : Call) (tab : Option ℕ) : World where
  server := { w.server with requests := w.server.put w.sent ⟨call, .waiting⟩ }
  jar := w.jar
  sent := w.sent + 1
  flights := w.flights ++ [⟨w.sent, tab⟩]

def landed (w : World) (request : ℕ) : List Flight := w.flights.filter (fun f => f.request ≠ request)

def inFlight (w : World) (request : ℕ) : Bool := w.flights.any (fun f => f.request = request)

def setCookie (jar : Option String) : Phase → Option (Option String)
  | .done (.opened _ _ raw) => some (some raw)
  | .done _ => some jar
  | _ => none

/-- `if (refreshing) return refreshing`: a tab whose refresh is in flight sends no other. -/
def happen (ttlDays : ℤ) (w : World) : Event → Option World
  | .refreshSession tab =>
    if w.flights.any (fun f => f.tab = some tab) then some w
    else some (send w (.refresh w.jar userAgent) (some tab))
  | .signIn userId => some (send w (.signIn userId none userAgent) none)
  | .serve request act =>
    if request < w.sent then
      (step (program ttlDays) w.server (request, act)).map (fun server => { w with server })
    else none
  | .deliver request =>
    if inFlight w request then
      (setCookie w.jar (w.server.requests request).phase).map (fun jar =>
        { w with jar, flights := landed w request })
    else none
  | .lose request =>
    if inFlight w request then some { w with flights := landed w request } else none

abbrev Happens (ttlDays : ℤ) (w : World) (e : Event) (w' : World) : Prop :=
  happen ttlDays w e = some w'

def fresh : World where
  server := start (fun _ => .signIn 0 none userAgent)

/-! ## What goes well -/

/-- Nobody is taken for a thief. -/
structure Trusted (w : World) : Prop where
  answers : ∀ r, (w.server.requests r).phase ≠ .done (.refused tokenReuseDetected)
  reasons : ∀ x ∈ w.server.store.rows, x.revokedReason ≠ some "reuse_detected"

/-- The server looks a cookie up before any other refresh has exchanged the session it names. -/
def Unspent (w : World) : Event → Prop
  | .serve request (.read _) =>
    ∀ row, Presents w.server request row → ¬ Exchanged w.server row.id
  | _ => True

/-- What a request of the browser is at. -/
inductive Fair : Call → Phase → Prop where
  | waiting {call : Call} (h : ∀ u reason, call ≠ .endSessions u reason)
      (h' : ∀ u id, call ≠ .forgetDevice u id) : Fair call .waiting
  | live {call : Call} (row : AuthSession) (fresh : row.revokedAt = none)
      (reason : row.revokedReason ≠ some "reuse_detected") : Fair call (.live row)
  | exchanges {call : Call} (row : AuthSession) (now : Time) (o : Opening)
      (fresh : row.revokedAt = none) (opens : o.row.revokedAt = none ∧ o.row.revokedReason = none) :
      Fair call (.written ⟨.row row now "rotated", some o⟩)
  | signs {call : Call} (o : Opening) (opens : o.row.revokedAt = none ∧ o.row.revokedReason = none) :
      Fair call (.written ⟨.nothing, some o⟩)
  | opened {call : Call} (old : Option ℕ) (new : ℕ) (raw : String) :
      Fair call (.done (.opened old new raw))
  | refused {call : Call} (e : Refusal) (h : e ≠ tokenReuseDetected) : Fair call (.done (.refused e))

structure Inv (s : Sys) : Prop where
  fair : ∀ r, Fair (s.requests r).call (s.requests r).phase
  spent : ∀ x ∈ s.store.rows, x.revokedAt ≠ none → Exchanged s x.id
  reasons : ∀ x ∈ s.store.rows, x.revokedReason ≠ some "reuse_detected"

variable {ttlDays : ℤ} {s t : Sys} {i : ℕ × Act} {d : Sessions} {call : Call} {phase : Phase}

theorem not_reused_raised (e : PlatformErrors.Raised) : Refusal.raised e ≠ tokenReuseDetected :=
  fun h => by cases h

theorem fair_refresh {cookie : Option String} {now : Time}
    (hrows : ∀ x ∈ d.rows, x.revokedReason ≠ some "reuse_detected")
    (hlive : ∀ token row, cookie = some token → token ≠ "" → byToken d token = some row →
      row.revokedAt = none) : Fair call (refresh d cookie now) := by
  unfold refresh
  cases htoken : cookie.filter (fun token => token ≠ "") with
  | none => exact .refused _ (by decide)
  | some token =>
    obtain ⟨hcookie, hne⟩ := Option.filter_eq_some_iff.1 htoken
    dsimp only
    cases hrow : byToken d token with
    | none => exact .refused _ (by decide)
    | some row =>
      have hfresh := hlive token row hcookie (by simpa using hne) hrow
      dsimp only
      rw [if_neg (not_not.2 hfresh)]
      split
      · exact .refused _ (by decide)
      · exact .live row hfresh (hrows row (List.mem_of_find?_eq_some hrow))

theorem fair_step (hs : Inv s) (h : Step (program ttlDays) s i t)
    (hg : ∀ now, i.2 = .read now → ∀ row, Presents s i.1 row → ¬ Exchanged s row.id) (r : ℕ) :
    Fair (t.requests r).call (t.requests r).phase := by
  apply phase_step (C := fun q => Fair q.call q.phase) h (hs.fair r)
  intro hr m hnext
  subst hr
  have hfair := hs.fair i.1
  have hrows := hs.reasons
  have hspent : ∀ now, i.2 = .read now → ∀ row, Presents s i.1 row → row.revokedAt = none := by
    intro now hread row hrow
    have hexch := hg now hread row hrow
    by_contra hrevoked
    obtain ⟨_, _, _, _, hfind⟩ := hrow
    exact hexch (hs.spent row (List.mem_of_find?_eq_some hfind) hrevoked)
  unfold Presents at hspent
  have hn := next_cases hnext
  generalize s.requests i.1 = q at hn hfair hspent
  generalize i.2 = act at hn hspent
  cases hn with
  | refused act e => exact .refused _ (not_reused_raised e)
  | presented cookie agent now hphase hcall =>
    apply fair_refresh hrows
    intro token row hcookie hne hfind
    exact hspent now rfl row ⟨token, agent, by rw [hcall, hcookie], hne, hfind⟩
  | device u id now hphase hcall =>
    rw [hphase] at hfair
    cases hfair with
    | waiting _ h' => exact absurd hcall (h' u id)
  | ending u reason now hphase hcall =>
    rw [hphase] at hfair
    cases hfair with
    | waiting h _ => exact absurd hcall (h u reason)
  | reusing row cookie agent now hphase =>
    rw [hphase] at hfair
    cases hfair
  | signing u label agent now raw hphase hcall w hw =>
    rw [hw]
    exact .signs _ ⟨rfl, rfl⟩
  | exchanging row cookie agent now raw hphase hcall w hw =>
    rw [hphase] at hfair
    rw [hw]
    cases hfair with
    | live _ hfresh _ => exact .exchanges row now _ hfresh ⟨rfl, rfl⟩
  | forgetting row u id now raw hphase =>
    rw [hphase] at hfair
    cases hfair
  | swept sweep now raw hphase =>
    rw [hphase] at hfair
    cases hfair
  | committed w hphase =>
    rw [hphase] at hfair
    cases hfair with
    | exchanges row now o _ _ => exact .opened _ _ _
    | signs o _ => exact .opened _ _ _

/-- A row that a commit leaves is as it was, or it is the session that the request exchanges, or it
is the one that it opens. -/
theorem rows_step (hs : Inv s) (h : Step (program ttlDays) s i t) : ∀ x ∈ t.store.rows,
    x ∈ s.store.rows ∨ (Exchanged t x.id ∧ x.revokedReason ≠ some "reuse_detected") ∨
      x.revokedAt = none ∧ x.revokedReason = none := by
  intro x hx
  obtain ⟨m, hnext, hmoved, hstore⟩ := step_moved h
  rw [hstore] at hx
  have hfair := hs.fair i.1
  have hn := next_cases hnext
  generalize s.requests i.1 = q at hn hfair
  generalize i.2 = act at hn
  cases hn with
  | committed w hphase =>
    rw [hphase] at hfair
    rcases mem_land.1 hx with ⟨y, hy, rfl⟩ | ⟨o, ho, rfl⟩
    · cases hfair with
      | signs o _ => exact .inl hy
      | exchanges row now o _ _ =>
        have hreason := hs.reasons y hy
        unfold AuthSessions.Ending.landRow
        dsimp only
        split
        · next hid =>
          refine .inr (.inl ⟨⟨i.1, Table.nextId s.store, o.raw, ?_⟩, ?_⟩)
          · rw [hmoved]
            change Phase.done (.opened (some row.id) _ _) = _
            rw [← hid]
          · change merged row.revokedReason (some "rotated") y.revokedReason ≠ _
            unfold merged
            split
            · exact hreason
            · decide
        · exact .inl hy
    · cases hfair with
      | signs o' hopens =>
        cases ho
        exact .inr (.inr hopens)
      | exchanges row now o' _ hopens =>
        cases ho
        exact .inr (.inr hopens)
  | _ => exact .inl hx

theorem inv_step (hs : Inv s) (h : Step (program ttlDays) s i t)
    (hg : ∀ now, i.2 = .read now → ∀ row, Presents s i.1 row → ¬ Exchanged s row.id) : Inv t := by
  refine ⟨fair_step hs h hg, ?_, ?_⟩
  · intro x hx hrevoked
    rcases rows_step hs h x hx with hold | hexch | hnew
    · exact exchanged_step h (hs.spent x hold hrevoked)
    · exact hexch.1
    · exact absurd hnew.1 hrevoked
  · intro x hx
    rcases rows_step hs h x hx with hold | hexch | hnew
    · exact hs.reasons x hold
    · exact hexch.2
    · rw [hnew.2]
      decide

/-! ## Runs of the browser -/

variable {w w' : World} {e : Event} {es : List Event}

/-- The requests that are not sent yet have done nothing. -/
structure Browsing (w : World) : Prop where
  inv : Inv w.server
  unsent : ∀ r, w.sent ≤ r → (w.server.requests r).phase = .waiting

theorem browsing_fresh : Browsing fresh := by
  refine ⟨⟨fun r => ?_, fun x hx => ?_, fun x hx => ?_⟩, fun r _ => rfl⟩
  · exact .waiting (fun _ _ h => by cases h) (fun _ _ h => by cases h)
  · cases hx
  · cases hx

theorem browsing_send {call : Call} {tab : Option ℕ} (hw : Browsing w)
    (h : ∀ u reason, call ≠ .endSessions u reason) (h' : ∀ u id, call ≠ .forgetDevice u id) :
    Browsing (send w call tab) := by
  have hother : ∀ r, r ≠ w.sent →
      (send w call tab).server.requests r = w.server.requests r := fun r hr => put_of_ne _ _ hr
  have hself : (send w call tab).server.requests w.sent = ⟨call, .waiting⟩ := put_self _ _ _
  refine ⟨⟨?_, ?_, hw.inv.reasons⟩, ?_⟩
  · intro r
    by_cases hr : r = w.sent
    · rw [hr, hself]
      exact .waiting h h'
    · rw [hother r hr]
      exact hw.inv.fair r
  · intro x hx hrevoked
    obtain ⟨r, new, raw, hdone⟩ := hw.inv.spent x hx hrevoked
    refine ⟨r, new, raw, ?_⟩
    rw [hother r]
    · exact hdone
    · intro hr
      rw [hw.unsent r (le_of_eq hr.symm)] at hdone
      cases hdone
  · intro r hr
    have hr : w.sent + 1 ≤ r := hr
    rw [hother r (by omega)]
    exact hw.unsent r (by omega)

theorem browsing_step (hw : Browsing w) (hg : Unspent w e) (h : Happens ttlDays w e w') :
    Browsing w' := by
  unfold Happens happen at h
  cases e with
  | refreshSession tab =>
    dsimp only at h
    split at h
    · cases h
      exact hw
    · cases h
      exact browsing_send hw (fun _ _ h => by cases h) (fun _ _ h => by cases h)
  | signIn userId =>
    cases h
    exact browsing_send hw (fun _ _ h => by cases h) (fun _ _ h => by cases h)
  | serve request act =>
    dsimp only at h
    split at h
    · next hsent =>
      obtain ⟨server, hstep, rfl⟩ := Option.map_eq_some_iff.1 h
      refine ⟨inv_step hw.inv hstep ?_, ?_⟩
      · rintro now rfl
        exact hg
      · intro r hr
        have hr : w.sent ≤ r := hr
        have hne : r ≠ request := by omega
        exact (congrArg Request.phase (requests_of_ne hstep hne)).trans (hw.unsent r hr)
    · cases h
  | deliver request =>
    dsimp only at h
    split at h
    · obtain ⟨jar, _, rfl⟩ := Option.map_eq_some_iff.1 h
      exact ⟨hw.inv, hw.unsent⟩
    · cases h
  | lose request =>
    dsimp only at h
    split at h
    · cases h
      exact ⟨hw.inv, hw.unsent⟩
    · cases h

/-- Nobody is taken for a thief in a run in which no spent cookie is looked up. -/
theorem honest_browser_trusted (ttlDays : ℤ) (es : List Event) (w : World)
    (h : Runs (Happens ttlDays) Unspent fresh es w) : Trusted w := by
  have hw : Browsing w := h.invariant (fun _ _ _ hs hg hstep => browsing_step hs hg hstep)
    browsing_fresh
  refine ⟨?_, hw.inv.reasons⟩
  intro r hdone
  have hfair := hw.inv.fair r
  rw [hdone] at hfair
  cases hfair with
  | refused _ hne => exact hne rfl

def signingIn : List Event := [.signIn 1, .serve 0 (.write 0 "a"), .serve 0 .commit, .deliver 0]

def exchanging (r : ℕ) (now : Time) (raw : String) : List Event :=
  [.serve r (.read now), .serve r (.write now raw), .serve r .commit]

def exchanged (q : Request) : Bool :=
  match q.phase with
  | .done (.opened (some _) _ _) => true
  | _ => false

def reads : Event → Bool
  | .serve _ (.read _) => true
  | _ => false

theorem unspent_of_untouched (hw : Browsing w)
    (h : reads e = true → ∀ r < w.sent, exchanged (w.server.requests r) = false) : Unspent w e := by
  unfold Unspent
  split
  · rintro row _ ⟨r, new, raw, hdone⟩
    by_cases hr : r < w.sent
    · have hnot := h rfl r hr
      unfold exchanged at hnot
      rw [hdone] at hnot
      cases hnot
    · rw [hw.unsent r (not_lt.1 hr)] at hdone
      cases hdone
  · trivial

theorem honest_browser_trusted_once : ∃ w, w.jar = some "b" ∧ Trusted w := by
  have hrun : (follow (happen 90)
      (fun w e => reads e = true → ∀ r < w.sent, exchanged (w.server.requests r) = false)
      (signingIn ++ [.refreshSession 0] ++ exchanging 1 1 "b" ++ [.deliver 1]) fresh).map World.jar =
      some (some "b") := by
    decide +kernel
  obtain ⟨w, hw, hjar⟩ := Option.map_eq_some_iff.1 hrun
  have hguarded : Runs (Happens 90) Unspent fresh _ w :=
    (runs_of_follow hw).guarded (I := Browsing) (fun w e w' hb hg hstep =>
      ⟨unspent_of_untouched hb hg, browsing_step hb (unspent_of_untouched hb hg) hstep⟩) browsing_fresh
  exact ⟨w, hjar, honest_browser_trusted 90 _ w hguarded⟩

/-! ## Two tabs, and an answer that is lost -/

def alarmed (r : ℕ) (now : Time) : List Event :=
  [.serve r (.read now), .serve r (.sweep now), .serve r (.write now "x"), .serve r .commit]

def twoTabs : List Event :=
  signingIn ++ [.refreshSession 0, .refreshSession 1] ++ exchanging 1 1 "b" ++ alarmed 2 2

def lostAnswer : List Event :=
  signingIn ++ [.refreshSession 0] ++ exchanging 1 1 "b" ++ [.lose 1, .refreshSession 0] ++ alarmed 2 2

def accused (q : Request) : Bool :=
  match q.phase with
  | .done a => a = .refused tokenReuseDetected
  | _ => false

theorem not_trusted_of_accused {es : List Event}
    (h : (follow (happen 90) (fun _ _ => True) es fresh).map
      (fun w => accused (w.server.requests 2)) = some true) :
    ∃ w, Any (Happens 90) fresh es w ∧ ¬ Trusted w := by
  obtain ⟨w, hw, haccused⟩ := Option.map_eq_some_iff.1 h
  refine ⟨w, runs_of_follow hw, ?_⟩
  intro htrusted
  unfold accused at haccused
  split at haccused
  · next a hphase =>
    rw [decide_eq_true_eq] at haccused
    rw [haccused] at hphase
    exact htrusted.answers 2 hphase
  · cases haccused

theorem honest_browser_accused : (∃ w, Any (Happens 90) fresh twoTabs w ∧ ¬ Trusted w) ∧
    ∃ w, Any (Happens 90) fresh lostAnswer w ∧ ¬ Trusted w :=
  ⟨not_trusted_of_accused (by decide +kernel), not_trusted_of_accused (by decide +kernel)⟩

end IeltsHub.HonestBrowser
