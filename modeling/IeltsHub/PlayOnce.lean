import IeltsHub.AudioTransactions

set_option autoImplicit false

/-!
# A play-once section is played once

The lock of a section is checked on the row a request loaded and set on the row it commits. The
two are the same while no other play of the section commits in between; where one does, both
requests are granted.
-/
namespace IeltsHub.PlayOnce
open PlatformErrors RowTable GuardedRuns ExamModels ExamSession AudioTransactions
  AutosaveConvergence

/-- The request is for a play-once section of an exam. -/
def PlaysOnce (s : Store) (q : Request) : Prop :=
  ∃ a row, s.attempts.get? q.attempt = some a ∧ sectionAt s q.attempt q.position = some row ∧
    isPlayOnce (s.content.sections.get? row.sectionId) a = true

instance (s : Store) (q : Request) : Decidable (PlaysOnce s q) :=
  decidable_of_iff ((s.attempts.get? q.attempt).any (fun a =>
      (sectionAt s q.attempt q.position).any (fun row =>
        isPlayOnce (s.content.sections.get? row.sectionId) a)) = true)
    (by simp [PlaysOnce, Option.any_eq_true])

def Locked (s : Store) (q : Request) : Prop :=
  ∃ row, sectionAt s q.attempt q.position = some row ∧ row.audioLockedAt ≠ none

/-- Of the requests for a play-once section at most one is granted. -/
def AtMostOnce (s : Sys) : Prop :=
  ∀ r₁ r₂ g₁ g₂, (s.requests r₁).phase = .done (.ok g₁) → (s.requests r₂).phase = .done (.ok g₂) →
    (s.requests r₁).attempt = (s.requests r₂).attempt →
    (s.requests r₁).position = (s.requests r₂).position → PlaysOnce s.store (s.requests r₁) →
    r₁ = r₂

/-- No play of the section has committed since the request that commits one loaded its row. -/
def Undisturbed (s : Sys) (i : ℕ × Act) : Prop :=
  i.2 = .commit → PlaysOnce s.store (s.requests i.1) → ¬ Locked s.store (s.requests i.1)

/-! ## What a commit leaves of a section -/

variable {s : Store} {q : Request} {h : Held}

theorem sectionAt_land (id : ℕ) (position : ℤ) :
    sectionAt (h.land s) id position = (sectionAt s id position).map h.landRow := by
  have hattempt : ∀ r : AttemptSection, (h.landRow r).attemptId = r.attemptId := by
    intro r
    exact congrArg Prod.fst (h.landRow_key r)
  have hposition : ∀ r : AttemptSection, (h.landRow r).position = r.position := by
    intro r
    unfold Held.landRow
    split
    · rfl
    · split <;> rfl
  unfold sectionAt Store.sectionsOf Held.land
  rw [Table.select_mapRows (by simp [hattempt]), List.find?_map]
  simp [hposition]

theorem playsOnce_land : PlaysOnce (h.land s) q ↔ PlaysOnce s q := by
  have hsection : ∀ r : AttemptSection, (h.landRow r).sectionId = r.sectionId := by
    intro r
    exact congrArg Prod.snd (h.landRow_key r)
  unfold PlaysOnce
  simp only [sectionAt_land, Option.map_eq_some_iff]
  constructor
  · rintro ⟨a, _, ha, ⟨row, hrow, rfl⟩, hflag⟩
    rw [hsection] at hflag
    exact ⟨a, row, ha, hrow, hflag⟩
  · rintro ⟨a, row, ha, hrow, hflag⟩
    rw [← hsection row] at hflag
    exact ⟨a, h.landRow row, ha, ⟨row, hrow, rfl⟩, hflag⟩

def KeepsLock (h : Held) : Prop :=
  h.row.audioLockedAt = h.loaded.audioLockedAt ∨ h.row.audioLockedAt ≠ none

theorem locked_landRow (hk : KeepsLock h) {r : AttemptSection} (hr : r.audioLockedAt ≠ none) :
    (h.landRow r).audioLockedAt ≠ none := by
  unfold Held.landRow
  split
  · change merged _ _ _ ≠ none
    unfold merged
    split
    · exact hr
    · next hne => exact hk.resolve_left hne
  · split <;> exact hr

theorem locked_land (hk : KeepsLock h) (hl : Locked s q) : Locked (h.land s) q := by
  obtain ⟨row, hrow, hlocked⟩ := hl
  refine ⟨h.landRow row, ?_, locked_landRow hk hlocked⟩
  rw [sectionAt_land, hrow]
  rfl

/-! ## What every request holds -/

/-- The row a request loaded is the row of its section, and its lock has not been touched. -/
structure Holds (s : Store) (q : Request) (h : Held) : Prop where
  attempt : s.attempts.get? q.attempt = some h.attempt
  key : h.row.key = h.loaded.key
  found : (sectionAt s q.attempt q.position).map AttemptSection.key = some h.loaded.key

def Fits (s : Store) (q : Request) : Prop :=
  match q.phase with
  | .selected h | .entered h => Holds s q h ∧ h.row.audioLockedAt = h.loaded.audioLockedAt
  | .flushed h _ => Holds s q h ∧ KeepsLock h ∧
      (PlaysOnce s q → h.loaded.audioLockedAt = none ∧ h.row.audioLockedAt ≠ none)
  | .done (.ok _) => PlaysOnce s q → Locked s q
  | _ => True

theorem Holds.land {h' : Held} (hq : Holds s q h') : Holds (h.land s) q h' where
  attempt := hq.attempt
  key := hq.key
  found := by
    have hkey : (AttemptSection.key ∘ h.landRow) = AttemptSection.key := by
      funext r
      exact h.landRow_key r
    rw [sectionAt_land, Option.map_map, hkey]
    exact hq.found

theorem Fits.land (hk : KeepsLock h) (hq : Fits s q) : Fits (h.land s) q := by
  unfold Fits at hq ⊢
  split at hq
  · exact ⟨hq.1.land, hq.2⟩
  · exact ⟨hq.1.land, hq.2⟩
  · exact ⟨hq.1.land, hq.2.1, fun hp => hq.2.2 (playsOnce_land.1 hp)⟩
  · exact fun hp => locked_land hk (hq (playsOnce_land.1 hp))
  · trivial

theorem isPlayOnce_of_playsOnce (hq : Holds s q h) (hp : PlaysOnce s q) :
    isPlayOnce (s.content.sections.get? h.row.sectionId) h.attempt = true := by
  obtain ⟨a, row, ha, hrow, hflag⟩ := hp
  have hattempt : a = h.attempt := Option.some.inj (ha.symm.trans hq.attempt)
  have hkey : row.key = h.row.key := by
    have hfound := hq.found
    rw [hrow] at hfound
    exact (Option.some.inj hfound).trans hq.key.symm
  have hsection : row.sectionId = h.row.sectionId := congrArg Prod.snd hkey
  rw [← hattempt, ← hsection]
  exact hflag

theorem fits_next {t : Sys} {r : ℕ} {p : Phase} (hf : Fits t.store (t.requests r))
    (hn : Next t r p) : Fits t.store { t.requests r with phase := p } := by
  cases hn with
  | @selected a row now ha hrow =>
    exact ⟨⟨ha, rfl, by simp [hrow, Held.of]⟩, rfl⟩
  | @entered h hphase _ _ _ =>
    unfold Fits at hf
    rw [hphase] at hf
    exact ⟨⟨hf.1.attempt, hf.1.key, hf.1.found⟩, hf.2⟩
  | @flushed h hphase playOnce now g hflag hunlocked =>
    unfold Fits at hf
    rw [hphase] at hf
    obtain ⟨hholds, hsame⟩ := hf
    refine ⟨⟨hholds.attempt, hholds.key, hholds.found⟩, ?_, fun hp => ?_⟩
    · unfold KeepsLock played
      cases playOnce with
      | false => exact .inl hsame
      | true => exact .inr (by simp)
    · have honce : playOnce = true := hflag.trans (isPlayOnce_of_playsOnce hholds hp)
      rw [honce]
      exact ⟨hsame.symm.trans (hunlocked honce), by simp [played]⟩
  | raised e => trivial

/-! ## Every step of a guarded run -/

structure Inv (s : Sys) : Prop where
  fits : ∀ r, Fits s.store (s.requests r)
  once : AtMostOnce s

variable {ses : ExamSession} {u v : Sys} {i : ℕ × Act}

theorem inv_start (hstart : ∀ r, (u.requests r).phase = .waiting) : Inv u := by
  constructor
  · intro r
    unfold Fits
    rw [hstart r]
    trivial
  · intro r₁ r₂ g₁ g₂ h₁
    rw [hstart r₁] at h₁
    cases h₁

theorem inv_moved {r : ℕ} (hi : Inv u) (hm : Moved u r v) : Inv v := by
  obtain ⟨hstore, p, hnext, hrequests⟩ := hm
  have hgranted : ∀ r' g, (v.requests r').phase = .done (.ok g) →
      v.requests r' = u.requests r' := by
    intro r' g hdone
    rw [hrequests] at hdone ⊢
    by_cases hr : r' = r
    · subst hr
      simp only [Sys.put, Function.update_self] at hdone
      subst hdone
      cases hnext
    · simp [Sys.put, hr]
  constructor
  · intro r'
    rw [hstore, hrequests]
    by_cases hr : r' = r
    · subst hr
      simp only [Sys.put, Function.update_self]
      exact fits_next (hi.fits r') hnext
    · simpa [Sys.put, hr] using hi.fits r'
  · intro r₁ r₂ g₁ g₂ h₁ h₂ hattempt hposition hp
    have e₁ := hgranted r₁ g₁ h₁
    have e₂ := hgranted r₂ g₂ h₂
    rw [e₁] at h₁ hattempt hposition hp
    rw [e₂] at h₂ hattempt hposition
    rw [hstore] at hp
    exact hi.once r₁ r₂ g₁ g₂ h₁ h₂ hattempt hposition hp

theorem locked_of_same {q' : Request} (hattempt : q.attempt = q'.attempt)
    (hposition : q.position = q'.position) (hl : Locked s q) : Locked s q' := by
  unfold Locked at hl ⊢
  rw [← hattempt, ← hposition]
  exact hl

theorem playsOnce_of_same {q' : Request} (hattempt : q.attempt = q'.attempt)
    (hposition : q.position = q'.position) (hp : PlaysOnce s q) : PlaysOnce s q' := by
  unfold PlaysOnce at hp ⊢
  rw [← hattempt, ← hposition]
  exact hp

theorem locked_commit (hq : Holds s q h) (hloaded : h.loaded.audioLockedAt = none)
    (hrow : h.row.audioLockedAt ≠ none) : Locked (h.land s) q := by
  obtain ⟨c, hc, hkey⟩ := Option.map_eq_some_iff.1 hq.found
  refine ⟨h.landRow c, ?_, ?_⟩
  · rw [sectionAt_land, hc]
    rfl
  · unfold Held.landRow
    rw [if_pos hkey]
    change merged _ _ _ ≠ none
    rw [hloaded, merged, if_neg hrow]
    exact hrow

theorem inv_commit {r : ℕ} {g : MediaGrant} (hi : Inv u)
    (hfree : PlaysOnce u.store (u.requests r) → ¬ Locked u.store (u.requests r))
    (hphase : (u.requests r).phase = .flushed h g) (hstore : v.store = h.land u.store)
    (hrequests : v.requests = (u.put r (.done (.ok g))).requests) : Inv v := by
  have hfits := hi.fits r
  unfold Fits at hfits
  rw [hphase] at hfits
  obtain ⟨hholds, hkeeps, hplay⟩ := hfits
  have hself : v.requests r = { u.requests r with phase := .done (.ok g) } := by
    rw [hrequests]
    simp [Sys.put]
  have hother : ∀ r', r' ≠ r → v.requests r' = u.requests r' := by
    intro r' hr
    rw [hrequests]
    simp [Sys.put, hr]
  -- no other request for the section was granted: its lock would be set
  have hnone : ∀ r' g', r' ≠ r → (u.requests r').phase = .done (.ok g') →
      (u.requests r').attempt = (u.requests r).attempt →
      (u.requests r').position = (u.requests r).position →
      ¬ PlaysOnce u.store (u.requests r') := by
    intro r' g' hr hdone hattempt hposition hp
    have hgranted := hi.fits r'
    unfold Fits at hgranted
    rw [hdone] at hgranted
    exact hfree (playsOnce_of_same hattempt hposition hp)
      (locked_of_same hattempt hposition (hgranted hp))
  constructor
  · intro r'
    rw [hstore]
    by_cases hr : r' = r
    · rw [hr, hself]
      intro hp
      obtain ⟨hloaded, hrow⟩ := hplay (playsOnce_land.1 hp)
      exact locked_of_same (q := u.requests r) rfl rfl (locked_commit hholds hloaded hrow)
    · rw [hother r' hr]
      exact (hi.fits r').land hkeeps
  · intro r₁ r₂ g₁ g₂ h₁ h₂ hattempt hposition hp
    rw [hstore, playsOnce_land] at hp
    by_cases e₁ : r₁ = r
    · by_cases e₂ : r₂ = r
      · exact e₁.trans e₂.symm
      · rw [e₁, hself] at hattempt hposition hp
        rw [hother r₂ e₂] at h₂ hattempt hposition
        exact absurd (playsOnce_of_same hattempt hposition hp)
          (hnone r₂ g₂ e₂ h₂ hattempt.symm hposition.symm)
    · rw [hother r₁ e₁] at h₁ hattempt hposition hp
      by_cases e₂ : r₂ = r
      · rw [e₂, hself] at hattempt hposition
        exact absurd hp (hnone r₁ g₁ e₁ h₁ hattempt hposition)
      · rw [hother r₂ e₂] at h₂ hattempt hposition
        exact hi.once r₁ r₂ g₁ g₂ h₁ h₂ hattempt hposition hp

theorem inv_step (hi : Inv u) (hg : Undisturbed u i) (hs : Step ses u i v) : Inv v := by
  rcases step_cases hs with ⟨h, g, hphase, hact, hstore, hrequests⟩ | ⟨_, _, hmoved⟩
  · exact inv_commit hi (hg hact) hphase hstore hrequests
  · exact inv_moved hi hmoved

/-! ## A request that raises -/

theorem done_step {r : ℕ} {result : Except Raised MediaGrant} (hs : Step ses u i v)
    (hdone : (u.requests r).phase = .done result) : (v.requests r).phase = .done result := by
  have hkeep : ∀ p, (u.requests i.1).phase ≠ .done result →
      v.requests = (u.put i.1 p).requests → (v.requests r).phase = .done result := by
    intro p hne hrequests
    have hr : r ≠ i.1 := by
      rintro rfl
      exact hne hdone
    rw [hrequests]
    simpa [Sys.put, hr] using hdone
  rcases step_cases hs with ⟨h, g, hphase, _, _, hrequests⟩ | ⟨hlive, _, _, p, _, hrequests⟩
  · exact hkeep _ (by simp [hphase]) hrequests
  · exact hkeep p (hlive result) hrequests

theorem store_of_raises {is : List (ℕ × Act)} {w : Sys} {e : Raised} (hs : Step ses u i v)
    (htail : Any (Step ses) v is w) (hend : (w.requests i.1).phase = .done (.error e)) :
    v.store = u.store := by
  rcases step_cases hs with ⟨h, g, hphase, hact, hstore, hrequests⟩ | ⟨_, _, hmoved⟩
  · have hdone : (v.requests i.1).phase = .done (.ok g) := by
      rw [hrequests]
      simp [Sys.put]
    have hlast := htail.invariant (I := fun s => (s.requests i.1).phase = .done (.ok g))
      (fun _ _ _ hdone _ hs => done_step hs hdone) hdone
    rw [hend] at hlast
    cases hlast
  · exact hmoved.store

/-! ## One after another -/

def held? : Phase → Option Held
  | .selected h | .entered h | .flushed h _ => some h
  | _ => none

/-- No request starts while another is under way. -/
def Serial (s : Sys) (i : ℕ × Act) : Prop :=
  ∀ now, i.2 = .select now → ∀ r, held? (s.requests r).phase = none

structure SerialInv (s : Sys) : Prop where
  inv : Inv s
  alone : ∀ r₁ r₂ h₁ h₂, held? (s.requests r₁).phase = some h₁ →
    held? (s.requests r₂).phase = some h₂ → r₁ = r₂
  fresh : ∀ r h, held? (s.requests r).phase = some h →
    ∃ c, sectionAt s.store (s.requests r).attempt (s.requests r).position = some c ∧
      c.audioLockedAt = h.loaded.audioLockedAt

theorem serialInv_start (hstart : ∀ r, (u.requests r).phase = .waiting) : SerialInv u := by
  have hidle : ∀ r, held? (u.requests r).phase = none := by
    intro r
    rw [hstart r]
    rfl
  exact ⟨inv_start hstart, fun r₁ _ _ _ h₁ => by simp [hidle] at h₁,
    fun r _ h => by simp [hidle] at h⟩

theorem next_loaded {t : Sys} {r : ℕ} {p : Phase} {h' : Held} (hn : Next t r p)
    (hp : held? p = some h') :
    (∃ h, held? (t.requests r).phase = some h ∧ h.loaded = h'.loaded) ∨
      sectionAt t.store (t.requests r).attempt (t.requests r).position = some h'.loaded := by
  cases hn with
  | selected now ha hrow =>
    cases hp
    exact .inr hrow
  | @entered h hphase _ _ _ =>
    cases hp
    exact .inl ⟨h, by rw [hphase]; rfl, rfl⟩
  | @flushed h hphase _ _ _ _ _ =>
    cases hp
    exact .inl ⟨h, by rw [hphase]; rfl, rfl⟩
  | raised e => cases hp

theorem step_underway (hs : Step ses u i v) :
    (∃ now, i.2 = .select now) ∨ ∃ h, held? (u.requests i.1).phase = some h := by
  obtain ⟨r, act⟩ := i
  simp only [Step, step] at hs
  split at hs
  · exact .inl ⟨_, rfl⟩
  all_goals first
    | (next hphase => exact .inr ⟨_, by rw [hphase]; rfl⟩)
    | cases hs

theorem serialInv_commit {r : ℕ} {g : MediaGrant} (hi : SerialInv u) (hv : Inv v)
    (hphase : held? (u.requests r).phase = some h)
    (hrequests : v.requests = (u.put r (.done (.ok g))).requests) : SerialInv v := by
  have hidle : ∀ r', held? (v.requests r').phase = none := by
    intro r'
    rw [hrequests]
    by_cases hr : r' = r
    · rw [hr]
      simp [Sys.put, held?]
    · have hother : held? (u.requests r').phase = none := by
        by_contra hsome
        obtain ⟨h', hh'⟩ := Option.ne_none_iff_exists'.1 hsome
        exact hr (hi.alone r' r h' h hh' hphase)
      simpa [Sys.put, hr] using hother
  exact ⟨hv, fun r₁ _ _ _ h₁ => by simp [hidle] at h₁, fun r' _ h => by simp [hidle] at h⟩

theorem serialInv_moved (hi : SerialInv u) (hg : Serial u i) (hs : Step ses u i v)
    (hm : Moved u i.1 v) : SerialInv v := by
  have hv := inv_moved hi.inv hm
  obtain ⟨hstore, p, hnext, hrequests⟩ := hm
  have hother : ∀ r, r ≠ i.1 → v.requests r = u.requests r := by
    intro r hr
    rw [hrequests]
    simp [Sys.put, hr]
  have hself : v.requests i.1 = { u.requests i.1 with phase := p } := by
    rw [hrequests]
    simp [Sys.put]
  -- the request that moves is the one under way, or starts when none is
  have hsole : ∀ r h, r ≠ i.1 → held? (u.requests r).phase ≠ some h := by
    intro r h hr hh
    rcases step_underway hs with ⟨now, hact⟩ | ⟨h', hh'⟩
    · rw [hg now hact r] at hh
      cases hh
    · exact hr (hi.alone r i.1 h h' hh hh')
  have honly : ∀ r h, held? (v.requests r).phase = some h → r = i.1 := by
    intro r h hh
    by_contra hr
    rw [hother r hr] at hh
    exact hsole r h hr hh
  refine ⟨hv, fun r₁ r₂ h₁ h₂ hh₁ hh₂ => (honly r₁ h₁ hh₁).trans (honly r₂ h₂ hh₂).symm, ?_⟩
  intro r h hh
  have hr := honly r h hh
  subst hr
  rw [hself] at hh ⊢
  rw [hstore]
  rcases next_loaded hnext hh with ⟨h', hh', hloaded⟩ | hrow
  · rw [← hloaded]
    exact hi.fresh _ h' hh'
  · exact ⟨h.loaded, hrow, rfl⟩

theorem serialInv_step (hi : SerialInv u) (hg : Serial u i) (hs : Step ses u i v) :
    Undisturbed u i ∧ SerialInv v := by
  rcases step_cases hs with ⟨h, g, hphase, hact, hstore, hrequests⟩ | ⟨_, hact, hmoved⟩
  · have hheld : held? (u.requests i.1).phase = some h := by
      rw [hphase]
      rfl
    have hfree : PlaysOnce u.store (u.requests i.1) → ¬ Locked u.store (u.requests i.1) := by
      rintro hp ⟨row, hrow, hne⟩
      have hfits := hi.inv.fits i.1
      unfold Fits at hfits
      rw [hphase] at hfits
      obtain ⟨c, hc, hsame⟩ := hi.fresh i.1 h hheld
      rw [hc] at hrow
      cases hrow
      exact hne (hsame.trans (hfits.2.2 hp).1)
    exact ⟨fun _ => hfree,
      serialInv_commit hi (inv_commit hi.inv hfree hphase hstore hrequests) hheld hrequests⟩
  · exact ⟨fun h => absurd h hact, serialInv_moved hi hg hs hmoved⟩

/-- The grants of play-once sections. Where no play commits between another one's read and its
commit, as in every serial run, a section is granted once; a request that raises never writes. -/
theorem play_once (ses : ExamSession) {u : Sys} (hstart : ∀ r, (u.requests r).phase = .waiting) :
    (∀ is v, Runs (Step ses) Undisturbed u is v → AtMostOnce v) ∧
    (∀ is v, Runs (Step ses) Serial u is v → AtMostOnce v) ∧
    ∀ is i is' s t v e, Any (Step ses) u is s → Step ses s i t → Any (Step ses) t is' v →
      (v.requests i.1).phase = .done (.error e) → t.store = s.store := by
  have hundisturbed : ∀ is v, Runs (Step ses) Undisturbed u is v → AtMostOnce v := by
    intro is v h
    exact (h.invariant (I := Inv) (fun _ _ _ => inv_step) (inv_start hstart)).once
  refine ⟨hundisturbed, ?_, ?_⟩
  · intro is v h
    exact hundisturbed is v
      (h.guarded (I := SerialInv) (fun _ _ _ => serialInv_step) (serialInv_start hstart))
  · intro is i is' s t v e _ hs htail hend
    exact store_of_raises hs htail hend

def sampleSys : Sys where
  store := sampleStore
  requests _ := { attempt := 1, position := 1 }

theorem play_once_on_sample : PlaysOnce sampleStore (sampleSys.requests 0) ∧
    ∀ is v, Runs (Step sampleSession) Serial sampleSys is v → AtMostOnce v :=
  ⟨by decide, (play_once sampleSession (u := sampleSys) (fun _ => rfl)).2.1⟩

def overlapping : List (ℕ × Act) := [
  (0, .select 0), (1, .select 0), (0, .enter), (0, .grant 1), (0, .commit),
  (1, .enter), (1, .grant 2), (1, .commit)]

def granted? (s : Sys) (r : ℕ) : Option MediaGrant :=
  match (s.requests r).phase with
  | .done (.ok g) => some g
  | _ => none

theorem granted?_eq_some {s : Sys} {r : ℕ} {g : MediaGrant} (h : granted? s r = some g) :
    (s.requests r).phase = .done (.ok g) := by
  unfold granted? at h
  split at h
  · next hphase =>
    cases h
    exact hphase
  · cases h

/-- Both are granted the audio of an exam section that plays once. -/
theorem overlapping_requests_both_granted :
    ∃ v, Any (Step sampleSession) sampleSys overlapping v ∧ ¬ AtMostOnce v := by
  have hrun : (follow (step sampleSession) (fun _ _ => True) overlapping sampleSys).map
      (fun s => decide ((granted? s 0).isSome ∧ (granted? s 1).isSome ∧
        (s.requests 0).attempt = (s.requests 1).attempt ∧
        (s.requests 0).position = (s.requests 1).position ∧
        PlaysOnce s.store (s.requests 0))) = some true := by decide +kernel
  obtain ⟨v, hv, hseen⟩ := Option.map_eq_some_iff.1 hrun
  obtain ⟨h₀, h₁, hattempt, hposition, honce⟩ := of_decide_eq_true hseen
  obtain ⟨g₀, h₀⟩ := Option.isSome_iff_exists.1 h₀
  obtain ⟨g₁, h₁⟩ := Option.isSome_iff_exists.1 h₁
  refine ⟨v, runs_of_follow hv, fun hmost => ?_⟩
  have hsame := hmost 0 1 g₀ g₁ (granted?_eq_some h₀) (granted?_eq_some h₁)
    hattempt hposition honce
  cases hsame

end IeltsHub.PlayOnce
