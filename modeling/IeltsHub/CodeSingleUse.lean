import IeltsHub.OtpChallenges

set_option autoImplicit false

/-!
# One code, one session

Charges of one challenge are numbered, so only so many codes are compared as it has attempts. The
claim holds the row until the request ends, so the code of one request opens a session and no
other's does.
-/
namespace IeltsHub.CodeSingleUse
open PyTime PlatformRefusals RowTable ReadCommitted GuardedRuns OtpChallenges

abbrev Challenges := Table Challenge ℕ Challenge.id

def Compared (q : Request) (id : ℕ) : Prop :=
  q.verdict.isSome ∧ ∃ row, q.charged = some row ∧ row.id = id

def Judged (q : Request) (id : ℕ) : Prop :=
  (∃ v, q.verdict = some v ∧ v.correct = true) ∧ ∃ row, q.charged = some row ∧ row.id = id

/-- The request has signed somebody in on the strength of a challenge. -/
def Opened (q : Request) (id : ℕ) : Prop :=
  (∃ sessionId raw, q.phase = .done (.opened sessionId raw)) ∧
    ∃ row, q.charged = some row ∧ row.id = id

/-- What never changes in a challenge. -/
structure SameCode (c c' : Challenge) : Prop where
  id : c'.id = c.id
  xid : c'.xid = c.xid
  phone : c'.phone = c.phone
  codeHash : c'.codeHash = c.codeHash
  expiresAt : c'.expiresAt = c.expiresAt
  maxAttempts : c'.maxAttempts = c.maxAttempts

/-- What happens to a challenge: attempts are charged, and it is consumed for good. -/
structure Later (c c' : Challenge) : Prop extends SameCode c c' where
  attempts : c.attempts ≤ c'.attempts
  consumed : c.consumedAt ≠ none → c'.consumedAt ≠ none

theorem SameCode.refl (c : Challenge) : SameCode c c := ⟨rfl, rfl, rfl, rfl, rfl, rfl⟩

theorem Later.refl (c : Challenge) : Later c c := ⟨.refl c, le_rfl, id⟩

theorem SameCode.trans {a b c : Challenge} (h : SameCode a b) (h' : SameCode b c) :
    SameCode a c where
  id := h'.id.trans h.id
  xid := h'.xid.trans h.xid
  phone := h'.phone.trans h.phone
  codeHash := h'.codeHash.trans h.codeHash
  expiresAt := h'.expiresAt.trans h.expiresAt
  maxAttempts := h'.maxAttempts.trans h.maxAttempts

theorem Later.trans {a b c : Challenge} (h : Later a b) (h' : Later b c) : Later a c where
  toSameCode := h.toSameCode.trans h'.toSameCode
  attempts := h.attempts.trans h'.attempts
  consumed hc := h'.consumed (h.consumed hc)

/-- What a request relies on of the challenges. -/
structure Fits (d : Challenges) (q : Request) : Prop where
  early : q.phase = .waiting ∨ q.phase = .invited ∨ (∃ row, q.phase = .charging row) →
    q.charged = none
  fresh : q.charged = none ∨ q.phase = .charged → q.verdict = none
  charging : ∀ row, q.phase = .charging row →
    ∃ c, d.get? row.id = some c ∧ c.consumedAt = none ∧ row = { c with attempts := c.attempts + 1 }
  charged : ∀ row, q.charged = some row →
    ∃ c, d.get? row.id = some c ∧ SameCode row c ∧ 1 ≤ row.attempts ∧ row.attempts ≤ c.attempts
  verdict : ∀ v row, q.verdict = some v → q.charged = some row →
    row.attempts ≤ row.maxAttempts ∧ v.now ≤ row.expiresAt ∧
      (v.correct = true → row.codeHash = codeHash q.call.challengeXid q.call.code)
  judged : q.phase = .correct ∨ owned q ≠ [] ∧ q.charged ≠ none ∨
      (∃ sessionId raw, q.phase = .done (.opened sessionId raw)) →
    ∃ v, q.verdict = some v ∧ v.correct = true
  claimed : ∀ row, q.charged = some row → row.id ∈ owned q →
    ∃ c, d.get? row.id = some c ∧ c.consumedAt = none
  opened : ∀ sessionId raw row, q.phase = .done (.opened sessionId raw) → q.charged = some row →
    ∃ c, d.get? row.id = some c ∧ c.consumedAt ≠ none

structure Inv (ttlDays : ℤ) (s : Sys) : Prop where
  locked : Locked (program ttlDays) s
  fits : ∀ r, Fits s.store.challenges (s.requests r)
  numbered : ∀ r r' row row', (s.requests r).charged = some row →
    (s.requests r').charged = some row' → row.id = row'.id → row.attempts = row'.attempts → r = r'

variable {ttlDays : ℤ} {s t u : Sys} {i : ℕ × Act} {d d' : Challenges} {q q' : Request} {act : Act}
  {id : ℕ}

theorem fits_start (call : Call) : Fits d { call } where
  early _ := rfl
  fresh _ := rfl
  charging _ h := by cases h
  charged _ h := by cases h
  verdict _ _ h := by cases h
  judged h := by simp [owned] at h
  claimed _ h := by cases h
  opened _ _ _ h := by cases h

/-! ## Commits -/

def Grown (d d' : Challenges) : Prop :=
  ∀ id c, d.get? id = some c → ∃ c', d'.get? id = some c' ∧ Later c c'

theorem Grown.refl (d : Challenges) : Grown d d := fun _ c h => ⟨c, h, .refl c⟩

theorem Grown.trans {a b c : Challenges} (h : Grown a b) (h' : Grown b c) : Grown a c := by
  intro id x hx
  obtain ⟨y, hy, hxy⟩ := h id x hx
  obtain ⟨z, hz, hyz⟩ := h' id y hy
  exact ⟨z, hz, hxy.trans hyz⟩

theorem get?_charges (row : Challenge) (d : Database) (id : ℕ) :
    (charges row d).challenges.get? id = (d.challenges.get? id).map
      (fun c => if c.id = row.id then { c with attempts := row.attempts } else c) := by
  unfold charges
  rw [Table.get?_mapRows]

theorem get?_consumes (k : ℕ) (now : Time) (d : Database) (id : ℕ) :
    (consumes k now d).challenges.get? id = (d.challenges.get? id).map
      (fun c => if c.id = k then { c with consumedAt := some now } else c) := by
  unfold consumes
  rw [Table.get?_mapRows]

theorem get?_charges_of_ne {row : Challenge} {d : Database} (h : id ≠ row.id) :
    (charges row d).challenges.get? id = d.challenges.get? id := by
  rw [get?_charges]
  cases hc : d.challenges.get? id with
  | none => rfl
  | some c => simp [Table.get?_key hc, h]

theorem get?_consumes_of_ne {k : ℕ} {now : Time} {d : Database} (h : id ≠ k) :
    (consumes k now d).challenges.get? id = d.challenges.get? id := by
  rw [get?_consumes]
  cases hc : d.challenges.get? id with
  | none => rfl
  | some c => simp [Table.get?_key hc, h]

theorem grown_charges {d : Database} {c : Challenge} (hc : d.challenges.get? c.id = some c) :
    Grown d.challenges (charges { c with attempts := c.attempts + 1 } d).challenges := by
  intro id x hx
  by_cases hid : id = c.id
  · subst hid
    rw [hc] at hx
    cases hx
    refine ⟨{ c with attempts := c.attempts + 1 }, ?_, ⟨rfl, rfl, rfl, rfl, rfl, rfl⟩, ?_, fun h => h⟩
    · rw [get?_charges, hc]
      simp
    · exact Nat.le_succ _
  · rw [← @get?_charges_of_ne _ { c with attempts := c.attempts + 1 } _ hid] at hx
    exact ⟨x, hx, .refl x⟩

theorem grown_consumes (k : ℕ) (now : Time) (d : Database) :
    Grown d.challenges (consumes k now d).challenges := by
  intro id x hx
  by_cases hid : id = k
  · subst hid
    refine ⟨{ x with consumedAt := some now }, ?_, ⟨rfl, rfl, rfl, rfl, rfl, rfl⟩, le_rfl, ?_⟩
    · rw [get?_consumes, hx]
      simp [Table.get?_key hx]
    · simp
  · exact ⟨x, by rwa [get?_consumes_of_ne hid], .refl x⟩

theorem grown_commit {d d' : Database} (hq : Fits d.challenges q)
    (h : Next ttlDays d q act (.commits d' q')) : Grown d.challenges d'.challenges ∧
      ∀ id, id ∉ owned q → d'.challenges.get? id = d.challenges.get? id := by
  cases h with
  | settled row hphase =>
    obtain ⟨c, hc, _, hrow⟩ := hq.charging row hphase
    subst hrow
    refine ⟨grown_charges hc, ?_⟩
    intro id hid
    apply get?_charges_of_ne
    simpa [owned, hphase] using hid
  | opened row claimedAt now account raw xid roster sessions sessionId hphase hcharged =>
    refine ⟨grown_consumes row.id claimedAt d, ?_⟩
    intro id hid
    apply get?_consumes_of_ne (d := d)
    simpa [owned, hphase, hcharged] using hid

theorem Fits.grown (h : Fits d q) (hd : Grown d d') (hheld : ∀ id ∈ owned q, d'.get? id = d.get? id) :
    Fits d' q where
  early := h.early
  fresh := h.fresh
  charging row hphase := by
    rw [hheld row.id (by simp [owned, hphase])]
    exact h.charging row hphase
  charged row hrow := by
    obtain ⟨c, hc, hsame, hone, hle⟩ := h.charged row hrow
    obtain ⟨c', hc', hlater⟩ := hd _ c hc
    exact ⟨c', hc', hsame.trans hlater.toSameCode, hone, hle.trans hlater.attempts⟩
  verdict := h.verdict
  judged := h.judged
  claimed row hrow howned := by
    rw [hheld row.id howned]
    exact h.claimed row hrow howned
  opened sessionId raw row hphase hrow := by
    obtain ⟨c, hc, hconsumed⟩ := h.opened sessionId raw row hphase hrow
    obtain ⟨c', hc', hlater⟩ := hd _ c hc
    exact ⟨c', hc', hlater.consumed hconsumed⟩

/-! ## The statements of one request -/

theorem fits_refuse (h : Fits d q) (e : Refusal) :
    Fits d { q with phase := .done (.refused e) } where
  early hphase := by simp at hphase
  fresh hcharged := h.fresh (hcharged.imp_right (fun hphase => by cases hphase))
  charging _ hphase := by cases hphase
  charged := h.charged
  verdict := h.verdict
  judged hphase := by simp [owned] at hphase
  claimed row _ howned := by simp [owned] at howned
  opened _ _ _ hphase := by cases hphase

theorem fits_early (h : Fits d q) (hphase : q.phase = .waiting ∨ q.phase = .invited)
    (invite : Option OrgRoster.OrgInvite) (phase : Phase) (hp : phase = .invited ∨ phase = .charged) :
    Fits d { q with phase, invite } := by
  have hnone := h.early (hphase.imp_right .inl)
  have hfresh := h.fresh (.inl hnone)
  rcases hp with rfl | rfl <;>
    exact
      { early := fun _ => hnone
        fresh := fun _ => hfresh
        charging := fun _ hphase => by cases hphase
        charged := h.charged
        verdict := h.verdict
        judged := fun hphase => by simp [owned] at hphase
        claimed := fun _ _ howned => by simp [owned] at howned
        opened := fun _ _ _ hphase => by cases hphase }

theorem fits_goes {d : Database} {keys : List ℕ} (hq : Fits d.challenges q)
    (h : Next ttlDays d q act (.goes q' keys)) : Fits d.challenges q' := by
  cases h with
  | invited _ _ _ _ _ _ _ _ row hphase => exact fits_early hq (.inl hphase) _ _ (.inl rfl)
  | unmatched hphase => exact fits_early hq hphase q.invite _ (.inr rfl)
  | charging c hphase hmem hopen =>
    have hnone := hq.early (hphase.imp_right .inl)
    exact
      { early := fun _ => hnone
        fresh := fun _ => hq.fresh (.inl hnone)
        charging := by
          intro row hrow
          cases hrow
          exact ⟨c, Table.get?_eq_some.2 ⟨hmem, rfl⟩, hopen, rfl⟩
        charged := hq.charged
        verdict := hq.verdict
        judged := by simp [owned, hnone]
        claimed := fun row hrow => by simp [hnone] at hrow
        opened := fun _ _ _ hphase => by cases hphase }
  | right row now hphase hcharged hearly hfew hsame =>
    exact
      { early := by simp
        fresh := by simp [hcharged]
        charging := fun _ hphase => by cases hphase
        charged := hq.charged
        verdict := by
          intro v row' hv hrow
          cases hv
          cases hcharged.symm.trans hrow
          exact ⟨hfew, not_lt.1 hearly, fun _ => hsame⟩
        judged := fun _ => ⟨_, rfl, rfl⟩
        claimed := fun _ _ howned => by simp [owned] at howned
        opened := fun _ _ _ hphase => by cases hphase }
  | claimed row c now hphase hcharged hstored hopen =>
    exact
      { early := by simp
        fresh := by simp [hcharged]
        charging := fun _ hphase => by cases hphase
        charged := hq.charged
        verdict := hq.verdict
        judged := fun _ => hq.judged (.inl hphase)
        claimed := by
          intro row' hrow _
          cases hcharged.symm.trans hrow
          exact ⟨c, hstored, hopen⟩
        opened := fun _ _ _ hphase => by cases hphase }
  | identified row claimedAt now account hphase hcharged =>
    have howned : owned q = [row.id] := by simp [owned, hphase, hcharged]
    exact
      { early := by simp
        fresh := by simp [hcharged]
        charging := fun _ hphase => by cases hphase
        charged := hq.charged
        verdict := hq.verdict
        judged := fun _ => hq.judged (.inr (.inl (by simp [howned, hcharged])))
        claimed := by
          intro row' hrow _
          cases hcharged.symm.trans hrow
          exact hq.claimed row hcharged (by simp [howned])
        opened := fun _ _ _ hphase => by cases hphase }

theorem fits_rollsBack (hq : Fits d q) {d₀ : Database}
    (h : Next ttlDays d₀ q act (.rollsBack q')) : Fits d q' := by
  generalize hm : (Move.rollsBack q' : Moves) = m at h
  cases h with
  | refused _ e =>
    cases hm
    exact fits_refuse hq e
  | wrong row now hphase hcharged hearly hfew hdiffers =>
    cases hm
    have hrefused := fits_refuse hq invalidCode
    exact
      { early := by simp
        fresh := by simp [hcharged]
        charging := hrefused.charging
        charged := hq.charged
        verdict := by
          intro v row' hv hrow
          cases hv
          cases hcharged.symm.trans hrow
          exact ⟨hfew, not_lt.1 hearly, fun h => by cases h⟩
        judged := by simp [owned]
        claimed := fun _ _ howned => by simp [owned] at howned
        opened := fun _ _ _ hphase => by cases hphase }
  | _ => cases hm

theorem fits_commits {d d' : Database} (hq : Fits d.challenges q)
    (h : Next ttlDays d q act (.commits d' q')) : Fits d'.challenges q' := by
  obtain ⟨hgrown, -⟩ := grown_commit hq h
  cases h with
  | settled row hphase =>
    obtain ⟨c, hc, _, hrow⟩ := hq.charging row hphase
    have hid : row.id = c.id := by rw [hrow]
    exact
      { early := by simp
        fresh := fun _ => hq.fresh (.inl (hq.early (.inr (.inr ⟨row, hphase⟩))))
        charging := fun _ hphase => by cases hphase
        charged := by
          intro row' hrow'
          cases hrow'
          refine ⟨row, ?_, .refl row, by simp [hrow], le_rfl⟩
          rw [get?_charges, hc]
          simp [hrow]
        verdict := by
          intro v row' hv
          have hnone := hq.fresh (.inl (hq.early (.inr (.inr ⟨row, hphase⟩))))
          cases hnone.symm.trans hv
        judged := by simp [owned]
        claimed := fun _ _ howned => by simp [owned] at howned
        opened := fun _ _ _ hphase => by cases hphase }
  | opened row claimedAt now account raw xid roster sessions sessionId hphase hcharged =>
    have howned : owned q = [row.id] := by simp [owned, hphase, hcharged]
    exact
      { early := by simp
        fresh := by simp [hcharged]
        charging := fun _ hphase => by cases hphase
        charged := by
          intro row' hrow'
          obtain ⟨c, hc, hsame, hone, hle⟩ := hq.charged row' hrow'
          obtain ⟨c', hc', hlater⟩ := hgrown _ c hc
          exact ⟨c', hc', hsame.trans hlater.toSameCode, hone, hle.trans hlater.attempts⟩
        verdict := hq.verdict
        judged := fun _ => hq.judged (.inr (.inl (by simp [howned, hcharged])))
        claimed := fun _ _ howned => by simp [owned] at howned
        opened := by
          intro _ _ row' _ hrow
          cases hcharged.symm.trans hrow
          obtain ⟨c, hc, -⟩ := hq.charged row hcharged
          refine ⟨{ c with consumedAt := some claimedAt }, ?_, by simp⟩
          change (consumes row.id claimedAt d).challenges.get? row.id = _
          rw [get?_consumes, hc]
          simp [Table.get?_key hc] }

theorem charged_next {d : Database} {m : Moves} (h : Next ttlDays d q act m) :
    m.phase.charged = q.charged ∨
      ∃ row, q.phase = .charging row ∧ m.phase.charged = some row := by
  cases h with
  | settled row hphase => exact .inr ⟨row, hphase, rfl⟩
  | _ => exact .inl rfl

theorem charged_step (h : Step (program ttlDays) s i t) (r : ℕ) :
    (t.requests r).charged = (s.requests r).charged ∨
      ∃ row, r = i.1 ∧ (s.requests r).phase = .charging row ∧ (t.requests r).charged = some row := by
  apply phase_step (C := fun q => q.charged = (s.requests r).charged ∨
    ∃ row, r = i.1 ∧ (s.requests r).phase = .charging row ∧ q.charged = some row) h (.inl rfl)
  intro hr m hm
  rcases charged_next (next_cases hm) with hsame | ⟨row, hphase, hrow⟩
  · exact .inl hsame
  · exact .inr ⟨row, hr, hphase, hrow⟩

theorem grown_step (hs : Inv ttlDays s) (h : Step (program ttlDays) s i t) :
    Grown s.store.challenges t.store.challenges := by
  refine database_step h (.refl _) (fun d p hnext => ?_)
  exact (grown_commit (hs.fits i.1) (next_cases hnext)).1

theorem fits_step (hs : Inv ttlDays s) (h : Step (program ttlDays) s i t) (r : ℕ) :
    Fits t.store.challenges (t.requests r) := by
  by_cases hr : r = i.1
  · subst hr
    have hfits := hs.fits i.1
    cases step_cases h with
    | went p keys hnext _ hstore _ hrequests =>
      rw [hrequests, put_self, hstore]
      exact fits_goes hfits (next_cases hnext)
    | committed p hnext _ hrequests =>
      rw [hrequests, put_self]
      exact fits_commits hfits (next_cases hnext)
    | rolledBack p hnext hstore _ hrequests =>
      rw [hrequests, put_self, hstore]
      exact fits_rollsBack hfits (next_cases hnext)
  · rw [requests_of_ne h hr]
    apply (hs.fits r).grown (grown_step hs h)
    intro id hid
    refine database_step h rfl (fun d p hnext => ?_)
    apply (grown_commit (hs.fits i.1) (next_cases hnext)).2
    intro hid'
    exact hr (hs.locked.unique (P := program ttlDays) hid hid')

theorem numbered_of_charging (hs : Inv ttlDays s) {r r' : ℕ} {row row' : Challenge}
    (hphase : (s.requests r).phase = .charging row) (hrow' : (s.requests r').charged = some row')
    (hid : row.id = row'.id) : row'.attempts < row.attempts := by
  obtain ⟨c, hc, -, hrow⟩ := (hs.fits r).charging row hphase
  obtain ⟨c', hc', -, -, hle⟩ := (hs.fits r').charged row' hrow'
  rw [hid, hc'] at hc
  cases hc
  rw [hrow]
  exact Nat.lt_succ_of_le hle

theorem inv_step (hs : Inv ttlDays s) (h : Step (program ttlDays) s i t) : Inv ttlDays t where
  locked := locked_step hs.locked h
  fits := fits_step hs h
  numbered r r' row row' hrow hrow' hid hattempts := by
    rcases charged_step h r with hsame | ⟨x, hr, hphase, hx⟩ <;>
      rcases charged_step h r' with hsame' | ⟨x', hr', hphase', hx'⟩
    · exact hs.numbered r r' row row' (hsame ▸ hrow) (hsame' ▸ hrow') hid hattempts
    · cases hx'.symm.trans hrow'
      have hlt := numbered_of_charging hs hphase' (hsame ▸ hrow) hid.symm
      omega
    · cases hx.symm.trans hrow
      have hlt := numbered_of_charging hs hphase (hsame' ▸ hrow') hid
      omega
    · exact hr.trans hr'.symm

theorem inv_start (d : Database) (calls : ℕ → Call) : Inv ttlDays (start d calls) where
  locked := locked_start (fun _ => rfl)
  fits r := fits_start (calls r)
  numbered _ _ _ _ h := by cases h

theorem inv_runs {acts : List (ℕ × Act)} (h : Any (Step (program ttlDays)) s acts t)
    (hs : Inv ttlDays s) : Inv ttlDays t :=
  h.invariant (fun _ _ _ hs _ h => inv_step hs h) hs

theorem grown_runs {acts : List (ℕ × Act)} (h : Any (Step (program ttlDays)) s acts t)
    (hs : Inv ttlDays s) : Grown s.store.challenges t.store.challenges :=
  h.related (I := Inv ttlDays) (R := fun s t => Grown s.store.challenges t.store.challenges)
    (fun _ => .refl _) (fun _ _ _ h h' => h.trans h')
    (fun _ _ _ hs _ h => ⟨inv_step hs h, grown_step hs h⟩) hs

/-! ## Sessions and invitations -/

theorem opened_next {d : Database} {m : Moves} (h : Next ttlDays d q act m)
    (ho : Opened m.phase id) :
    Opened q id ∨ ∃ row, q.charged = some row ∧ row.id = id ∧ owned q = [row.id] := by
  obtain ⟨⟨sessionId, raw, hphase⟩, row, hrow, hid⟩ := ho
  cases h with
  | opened row' claimedAt now account raw xid roster sessions sessionId hphase' hcharged =>
    exact .inr ⟨row, hrow, hid, by simp [owned, hphase', show q.charged = some row from hrow]⟩
  | _ => cases hphase

theorem opened_step (h : Step (program ttlDays) s i t) (r : ℕ) (ho : Opened (t.requests r) id) :
    Opened (s.requests r) id ∨
      ∃ row, r = i.1 ∧ (s.requests r).charged = some row ∧ row.id = id ∧
        owned (s.requests r) = [row.id] := by
  revert ho
  apply phase_step (C := fun q => Opened q id → Opened (s.requests r) id ∨
      ∃ row, r = i.1 ∧ (s.requests r).charged = some row ∧ row.id = id ∧
        owned (s.requests r) = [row.id]) h .inl
  intro hr m hm ho
  rcases opened_next (next_cases hm) ho with ho | ⟨row, hrow, hid, howned⟩
  · exact .inl ho
  · exact .inr ⟨row, hr, hrow, hid, howned⟩

theorem opened_kept (h : Step (program ttlDays) s i t) (r : ℕ) (ho : Opened (s.requests r) id) :
    Opened (t.requests r) id := by
  apply phase_step (C := fun q => Opened q id) h ho
  intro hr m hm
  obtain ⟨⟨_, _, hphase⟩, _⟩ := ho
  change next ttlDays _ _ _ = _ at hm
  unfold next at hm
  rw [hphase] at hm
  cases hm

theorem Fits.consumed (h : Fits d q) (ho : Opened q id) :
    ∃ c, d.get? id = some c ∧ c.consumedAt ≠ none := by
  obtain ⟨⟨sessionId, raw, hphase⟩, row, hrow, rfl⟩ := ho
  exact h.opened sessionId raw row hphase hrow

theorem not_opened_of_owned (hs : Inv ttlDays s) {r r' : ℕ} {row : Challenge}
    (hrow : (s.requests r).charged = some row) (howned : owned (s.requests r) = [row.id]) :
    ¬ Opened (s.requests r') row.id := by
  intro ho
  obtain ⟨c, hc, hopen⟩ := (hs.fits r).claimed row hrow (by simp [howned])
  obtain ⟨c', hc', hconsumed⟩ := (hs.fits r').consumed ho
  rw [hc] at hc'
  cases hc'
  exact hconsumed hopen

def Once (s : Sys) : Prop :=
  ∀ r r' id, Opened (s.requests r) id → Opened (s.requests r') id → r = r'

theorem once_step (hs : Inv ttlDays s) (honce : Once s) (h : Step (program ttlDays) s i t) :
    Once t := by
  intro r r' id ho ho'
  rcases opened_step h r ho with ho | ⟨row, hr, hrow, hid, howned⟩ <;>
    rcases opened_step h r' ho' with ho' | ⟨row', hr', hrow', hid', howned'⟩
  · exact honce r r' id ho ho'
  · exact absurd (hid' ▸ ho) (not_opened_of_owned hs hrow' howned')
  · exact absurd (hid ▸ ho') (not_opened_of_owned hs hrow howned)
  · exact hr.trans hr'.symm

theorem once_runs {acts : List (ℕ × Act)} (h : Any (Step (program ttlDays)) s acts t)
    (hs : Inv ttlDays s) (honce : Once s) : Once t :=
  (h.invariant (I := fun s => Inv ttlDays s ∧ Once s)
    (fun _ _ _ hs _ h => ⟨inv_step hs.1 h, once_step hs.1 hs.2 h⟩) ⟨hs, honce⟩).2

theorem opened_runs {acts : List (ℕ × Act)} (h : Any (Step (program ttlDays)) s acts t) {r : ℕ}
    (ho : Opened (s.requests r) id) : Opened (t.requests r) id :=
  h.invariant (I := fun s => Opened (s.requests r) id) (fun _ _ _ ho _ h => opened_kept h r ho) ho

/-! ## Charges of a challenge that is consumed -/

def ChargedOn (q : Request) (id : ℕ) : Prop := ∃ row, q.charged = some row ∧ row.id = id

def Consumed (d : Challenges) (id : ℕ) : Prop := ∃ c, d.get? id = some c ∧ c.consumedAt ≠ none

theorem Consumed.grown (h : Consumed d id) (hd : Grown d d') : Consumed d' id := by
  obtain ⟨c, hc, hconsumed⟩ := h
  obtain ⟨c', hc', hlater⟩ := hd id c hc
  exact ⟨c', hc', hlater.consumed hconsumed⟩

theorem chargedOn_step (hs : Inv ttlDays s) (h : Step (program ttlDays) s i t)
    (hconsumed : Consumed s.store.challenges id) (r : ℕ) (hr : ChargedOn (t.requests r) id) :
    ChargedOn (s.requests r) id := by
  obtain ⟨row, hrow, rfl⟩ := hr
  rcases charged_step h r with hsame | ⟨x, _, hphase, hx⟩
  · exact ⟨row, hsame ▸ hrow, rfl⟩
  · cases hx.symm.trans hrow
    obtain ⟨c, hc, hopen, -⟩ := (hs.fits r).charging row hphase
    obtain ⟨c', hc', hconsumed⟩ := hconsumed
    rw [hc] at hc'
    cases hc'
    exact absurd hopen hconsumed

theorem chargedOn_runs {acts : List (ℕ × Act)} (h : Any (Step (program ttlDays)) s acts t)
    (hs : Inv ttlDays s) (hconsumed : Consumed s.store.challenges id) (r : ℕ)
    (hr : ChargedOn (t.requests r) id) : ChargedOn (s.requests r) id := by
  have hrel := h.related (I := fun s => Inv ttlDays s ∧ Consumed s.store.challenges id)
    (R := fun s t => ChargedOn (t.requests r) id → ChargedOn (s.requests r) id)
    (fun _ h => h) (fun _ _ _ h h' ht => h (h' ht))
    (fun _ _ _ hs _ h =>
      ⟨⟨inv_step hs.1 h, hs.2.grown (grown_step hs.1 h)⟩, chargedOn_step hs.1 h hs.2 r⟩)
    ⟨hs, hconsumed⟩
  exact hrel hr

/-! ## What a code is good for -/

/-- What the code of a challenge is good for, over all the requests that present one. `spends` says
of a request that the challenge has been used by it. -/
structure OneCode (ttlDays : ℤ) (spends : Request → ℕ → Prop) (c : Challenge) (s : Sys) :
    Prop where
  compared : ∀ rs : Finset ℕ, (∀ r ∈ rs, Compared (s.requests r) c.id) → rs.card ≤ c.maxAttempts
  once : ∀ r r', Opened (s.requests r) c.id → Opened (s.requests r') c.id → r = r'
  correct : ∀ r, Opened (s.requests r) c.id →
    ∃ v, (s.requests r).verdict = some v ∧ v.now ≤ c.expiresAt ∧
      c.codeHash = codeHash (s.requests r).call.challengeXid (s.requests r).call.code
  /-- Once it is used, no request is charged on it any more, and no other one opens a session. -/
  spent : ∀ r, spends (s.requests r) c.id → ∀ acts t, Any (Step (program ttlDays)) s acts t →
    ∀ r', (ChargedOn (t.requests r') c.id → ChargedOn (s.requests r') c.id) ∧
      (Opened (t.requests r') c.id → r' = r)
  /-- Accounts, rosters and sessions are written by the one who opens a session. -/
  written : ∀ i t, Step (program ttlDays) s i t →
    (t.store.roster ≠ s.store.roster ∨ t.store.sessions ≠ s.store.sessions) →
    ∃ id, Opened (t.requests i.1) id

theorem card_compared (hs : Inv ttlDays s) {c : Challenge}
    (hc : ∃ c', s.store.challenges.get? c.id = some c' ∧ Later c c') (rs : Finset ℕ)
    (hrs : ∀ r ∈ rs, Compared (s.requests r) c.id) : rs.card ≤ c.maxAttempts := by
  obtain ⟨c', hc', hlater⟩ := hc
  let number := fun r => ((s.requests r).charged.map Challenge.attempts).getD 0
  have hmaps : Set.MapsTo number rs (Finset.Icc 1 c.maxAttempts) := by
    intro r hr
    obtain ⟨hverdict, row, hrow, hid⟩ := hrs r hr
    obtain ⟨v, hv⟩ := Option.isSome_iff_exists.1 hverdict
    obtain ⟨x, hx, hsame, hone, -⟩ := (hs.fits r).charged row hrow
    obtain ⟨hle, -, -⟩ := (hs.fits r).verdict v row hv hrow
    rw [hid, hc'] at hx
    cases hx
    have hmax := hsame.maxAttempts.symm.trans hlater.maxAttempts
    simp only [number, hrow, Option.map_some, Option.getD_some, Finset.coe_Icc, Set.mem_Icc]
    omega
  have hinj : Set.InjOn number rs := by
    intro r hr r' hr' heq
    obtain ⟨-, row, hrow, hid⟩ := hrs r hr
    obtain ⟨-, row', hrow', hid'⟩ := hrs r' hr'
    simp only [number, hrow, hrow', Option.map_some, Option.getD_some] at heq
    exact hs.numbered r r' row row' hrow hrow' (hid.trans hid'.symm) heq
  calc rs.card ≤ (Finset.Icc 1 c.maxAttempts).card := Finset.card_le_card_of_injOn number hmaps hinj
    _ = c.maxAttempts := by simp

theorem correct_of_opened (hs : Inv ttlDays s) {c : Challenge}
    (hc : ∃ c', s.store.challenges.get? c.id = some c' ∧ Later c c') {r : ℕ}
    (ho : Opened (s.requests r) c.id) :
    ∃ v, (s.requests r).verdict = some v ∧ v.now ≤ c.expiresAt ∧
      c.codeHash = codeHash (s.requests r).call.challengeXid (s.requests r).call.code := by
  obtain ⟨c', hc', hlater⟩ := hc
  obtain ⟨hphase, row, hrow, hid⟩ := ho
  obtain ⟨v, hv, hcorrect⟩ := (hs.fits r).judged (.inr (.inr hphase))
  obtain ⟨x, hx, hsame, -, -⟩ := (hs.fits r).charged row hrow
  obtain ⟨-, hnow, hcode⟩ := (hs.fits r).verdict v row hv hrow
  rw [hid, hc'] at hx
  cases hx
  refine ⟨v, hv, ?_, ?_⟩
  · rw [← hlater.expiresAt, hsame.expiresAt]
    exact hnow
  · rw [← hlater.codeHash, hsame.codeHash]
    exact hcode hcorrect

theorem opened_of_written (h : Step (program ttlDays) s i t)
    (hw : t.store.roster ≠ s.store.roster ∨ t.store.sessions ≠ s.store.sessions) :
    ∃ id, Opened (t.requests i.1) id := by
  obtain ⟨m, hnext, hmoved, hstore⟩ := step_moved h
  rw [hstore] at hw
  rw [hmoved]
  have hn := next_cases hnext
  generalize s.requests i.1 = q at hn
  generalize i.2 = act at hn
  cases hn with
  | opened row claimedAt now account raw xid roster sessions sessionId hphase hcharged =>
    exact ⟨row.id, ⟨sessionId, raw, rfl⟩, row, hcharged, rfl⟩
  | _ => simp [Move.store, charges, Request.refuse] at hw

theorem oneCode_of_inv (hs : Inv ttlDays s) (honce : Once s) {c : Challenge}
    (hc : ∃ c', s.store.challenges.get? c.id = some c' ∧ Later c c') :
    OneCode ttlDays Opened c s where
  compared := card_compared hs hc
  once r r' := honce r r' c.id
  correct _ := correct_of_opened hs hc
  spent r ho acts t hrun r' := by
    refine ⟨chargedOn_runs hrun hs ((hs.fits r).consumed ho) r', ?_⟩
    intro ho'
    exact once_runs hrun hs honce r' r c.id ho' (opened_runs hrun ho)
  written i t h := opened_of_written h

/-- A request that is refused keeps nothing but the attempt that was charged. -/
def RefusedKeepsNothing (ttlDays : ℤ) (s : Sys) : Prop :=
  ∀ i t e, Step (program ttlDays) s i t → (t.requests i.1).phase = .done (.refused e) →
    t.store = s.store

theorem refusedKeepsNothing (ttlDays : ℤ) (s : Sys) : RefusedKeepsNothing ttlDays s := by
  intro i t e h hphase
  refine database_step h rfl (fun d p hnext => ?_)
  rw [(moved_of_next h hnext).1] at hphase
  have hn := next_cases hnext
  generalize s.requests i.1 = q at hn
  generalize i.2 = act at hn
  cases hn with
  | _ => cases hphase

theorem one_code_one_session (ttlDays : ℤ) (d : Database) (calls : ℕ → Call) (c : Challenge)
    (hc : d.challenges.get? c.id = some c) (acts : List (ℕ × Act)) (s : Sys)
    (h : Any (Step (program ttlDays)) (start d calls) acts s) :
    OneCode ttlDays Opened c s ∧ RefusedKeepsNothing ttlDays s := by
  have hs := inv_runs h (inv_start d calls)
  have honce : Once s := once_runs h (inv_start d calls) (fun r r' id ho _ => by
    obtain ⟨⟨_, _, hphase⟩, _⟩ := ho
    cases hphase)
  exact ⟨oneCode_of_inv hs honce (grown_runs h (inv_start d calls) c.id c hc),
    refusedKeepsNothing ttlDays s⟩

/-! ## A code that was right, of a request that is refused -/

def challengeXid : String := "00000000-0000-0000-0000-000000000001"

def issued : Challenge where
  id := 1
  xid := 1
  phone := "+998901111111"
  codeHash := codeHash challengeXid "123456"
  expiresAt := 300

def forwarded : Database where
  challenges := Table.empty.put issued
  roster :=
    { users := Table.empty.put { id := 1, xid := "u1", phone := "+998901111111", dateOfBirth := 0 }
      invites := Table.empty.put
        { id := 1, xid := 1, tokenHash := Sha256.ofText "t", orgId := 1, role := .student
          phone := "+998902222222", expiresAt := 300 } }

def presenters : ℕ → Call
  | 0 => .inviteRedeem "t" challengeXid "123456" none none "uz-Latn" "browser"
  | 1 => .otpVerify challengeXid "123456" none "browser"
  | _ => .otpVerify challengeXid "000000" none "browser"

def refusal : List (ℕ × Act) :=
  [(0, .read 0), (0, .charge), (0, .settle), (0, .check 1), (0, .claim 1), (0, .identify 1)]

def signingIn : List (ℕ × Act) :=
  [(1, .charge), (1, .settle), (1, .check 2), (1, .claim 2), (1, .identify 2), (1, .finish 2 "a" "u")]

def SingleUse (spends : Request → ℕ → Prop) : Prop :=
  ∀ ttlDays d calls c, d.challenges.get? c.id = some c → ∀ acts s,
    Any (Step (program ttlDays)) (start d calls) acts s → OneCode ttlDays spends c s

def judgedRight (q : Request) : Bool :=
  (q.verdict.any (fun v => v.correct)) && q.charged.any (fun row => row.id = 1)

def openedIt (q : Request) : Bool :=
  (match q.phase with
    | .done (.opened _ _) => true
    | _ => false) && q.charged.any (fun row => row.id = 1)

theorem judged_of_judgedRight {q : Request} (h : judgedRight q = true) : Judged q 1 := by
  unfold judgedRight at h
  rw [Bool.and_eq_true, Option.any_eq_true, Option.any_eq_true] at h
  obtain ⟨⟨v, hv, hcorrect⟩, row, hrow, hid⟩ := h
  exact ⟨⟨v, hv, hcorrect⟩, row, hrow, by simpa using hid⟩

theorem opened_of_openedIt {q : Request} (h : openedIt q = true) : Opened q 1 := by
  unfold openedIt at h
  rw [Bool.and_eq_true, Option.any_eq_true] at h
  obtain ⟨hphase, row, hrow, hid⟩ := h
  split at hphase
  · next sessionId raw hopened => exact ⟨⟨sessionId, raw, hopened⟩, row, hrow, by simpa using hid⟩
  · cases hphase

/-- The code is judged right for somebody else's invitation, and then opens a session. -/
theorem not_singleUse_of_refused : ¬ SingleUse Judged := by
  intro h
  have hrun : ((follow (step (program 90)) (fun _ _ => True) refusal
      (start forwarded presenters)).bind (fun s =>
        (follow (step (program 90)) (fun _ _ => True) signingIn s).map (fun t =>
          judgedRight (s.requests 0) && openedIt (t.requests 1)))) = some true := by
    decide +kernel
  obtain ⟨s, hs, hlast⟩ := Option.bind_eq_some_iff.1 hrun
  obtain ⟨t, ht, hboth⟩ := Option.map_eq_some_iff.1 hlast
  rw [Bool.and_eq_true] at hboth
  have hcode := h 90 forwarded presenters issued rfl refusal s (runs_of_follow hs)
  have hagain := (hcode.spent 0 (judged_of_judgedRight hboth.1) signingIn t (runs_of_follow ht) 1).2
    (opened_of_openedIt hboth.2)
  cases hagain

def guessed : List (ℕ × Act) :=
  [(2, .charge), (2, .settle), (1, .charge), (2, .check 1), (1, .settle), (1, .check 2),
    (1, .claim 2), (1, .identify 2), (1, .finish 2 "a" "u")]

theorem one_code_one_session_after_guess : ∃ s,
    Any (Step (program 90)) (start forwarded presenters) guessed s ∧
      OneCode 90 Opened issued s ∧ RefusedKeepsNothing 90 s := by
  have hrun : ((follow (step (program 90)) (fun _ _ => True) guessed
      (start forwarded presenters)).map (fun s => openedIt (s.requests 1))) = some true := by
    decide +kernel
  obtain ⟨s, hs, _⟩ := Option.map_eq_some_iff.1 hrun
  exact ⟨s, runs_of_follow hs, one_code_one_session 90 forwarded presenters issued rfl guessed s
    (runs_of_follow hs)⟩

end IeltsHub.CodeSingleUse
