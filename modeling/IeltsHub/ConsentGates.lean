import IeltsHub.SpeakingService

set_option autoImplicit false

/-!
# Parental consent at the two doors

A parent's word about strangers is the last one that was accepted: a grant, or a withdrawal. What
the doors look at is another thing: `book_slot` counts the grants that are not withdrawn, and
`join_queue` looks at none.
-/
namespace IeltsHub.ConsentGates
open PyExc PyTime RowTable SpeakingPools SpeakingService GuardedRuns

variable {d d' : Pools} {u : ℕ} {a : Actor} {now : Time} {e : Event} {es : List Event}

/-! ## What a history says -/

inductive Word where
  | granted | withdrawn
  deriving DecidableEq

def word (u : ℕ) (d : Pools) : Event → Option Word
  | .request userId (.recordConsent body) now =>
    if userId = u ∧ body.kind = .strangerMatching ∧ body.grantedByKind = .parent ∧
        (answer d userId (.recordConsent body) now).isOk then some .granted
    else none
  | .request userId (.revokeConsent kind) now =>
    if userId = u ∧ kind = ConsentKind.strangerMatching.value ∧
        (answer d userId (.revokeConsent kind) now).isOk then some .withdrawn
    else none
  | _ => none

def words (u : ℕ) : Pools → List Event → List Word
  | _, [] => []
  | d, e :: es => (word u d e).toList ++ words u (execute d e) es

def Standing (ws : List Word) : Prop := ws.getLast? = some .granted

instance (ws : List Word) : Decidable (Standing ws) := inferInstanceAs (Decidable (_ = _))

theorem not_standing_append_withdrawn (ws : List Word) : ¬ Standing (ws ++ [.withdrawn]) := by
  unfold Standing
  rw [List.getLast?_append]
  intro h
  cases h

/-! ## Growing up -/

def Young (d : Pools) (u : ℕ) (at_ : Time) : Prop :=
  ∀ account, d.users.get? u = some account → account.isMinor at_ = true

def NotAfter (at_ : Time) : Event → Prop
  | .request _ _ now => now ≤ at_
  | .matchSlot _ now => now ≤ at_
  | .matchQueue now => now ≤ at_
  | .register _ => True
  | .edit _ => True

theorem elders_execute (d : Pools) (e : Event) : Elders d.users (execute d e).users := by
  have hsame : ∀ d' : Pools, d'.users = d.users → Elders d.users d'.users := by
    intro d' h id account haccount
    rw [h]
    exact ⟨account, haccount, rfl⟩
  cases e with
  | request userId call now =>
    unfold execute
    dsimp only
    split
    · next d' h =>
      obtain ⟨a, _, h⟩ := bind_eq_ok.1 h
      cases touched_perform h with
      | accounts users around helders => exact helders
      | _ => exact hsame _ rfl
    · exact hsame d rfl
  | matchSlot slotId now =>
    unfold execute
    dsimp only
    split
    · next d' h => exact hsame d' (beside_matchSlot h).users
    · exact hsame d rfl
  | matchQueue now =>
    unfold execute
    dsimp only
    split
    · next d' h => exact hsame d' (beside_matchQueue h).users
    · exact hsame d rfl
  | register account =>
    intro id old hold
    refine ⟨old, ?_, rfl⟩
    refine (Table.get?_put_of_ne _ ?_).trans hold
    intro hid
    have hnone := Table.get?_nextId d.users
    rw [show d.users.nextId = id from hid, hold] at hnone
    cases hnone
  | edit around => exact hsame _ rfl

theorem Young.of_elders {at_ : Time} (h : Young d' u at_) (helders : Elders d.users d'.users) :
    Young d u at_ := by
  intro account haccount
  obtain ⟨later, hlater, hage⟩ := helders u account haccount
  have hminor := h later hlater
  unfold Account.isMinor at hminor ⊢
  rw [← hage]
  exact hminor

theorem elders_runs (h : Any Step d es d') : Elders d.users d'.users := by
  apply h.related (I := fun _ => True) (R := fun d d' => Elders d.users d'.users)
  · exact fun d id account haccount => ⟨account, haccount, rfl⟩
  · intro d₁ d₂ d₃ h h' id account haccount
    obtain ⟨mid, hmid, hage⟩ := h id account haccount
    obtain ⟨last, hlast, hage'⟩ := h' id mid hmid
    exact ⟨last, hlast, hage'.trans hage⟩
  · intro d e d' _ _ hstep
    cases hstep
    exact ⟨trivial, elders_execute d e⟩
  · trivial

theorem principal_eq_ok {userId : ℕ} (h : principal d userId now = .ok a) :
    ∃ account, d.users.get? userId = some account ∧ a.isMinor = account.isMinor now ∧
      a.userId = userId := by
  unfold principal at h
  split at h
  · cases h
  · next account haccount =>
    cases h
    exact ⟨account, (Option.filter_eq_some_iff.1 haccount).1, rfl, rfl⟩

theorem isMinor_of_principal {at_ : Time} (h : principal d u now = .ok a) (hyoung : Young d u at_)
    (hnow : now ≤ at_) : a.isMinor = true := by
  obtain ⟨account, haccount, hminor, _⟩ := principal_eq_ok h
  have hlater := hyoung account haccount
  have hday : dayOf now ≤ dayOf at_ := Int.ediv_le_ediv (by decide) hnow
  unfold Account.isMinor at hlater hminor
  rw [decide_eq_true_eq] at hlater
  rw [hminor, decide_eq_true_eq]
  omega

/-! ## The rows that are live -/

/-- The grants, the withdrawals and the rows agree. -/
structure Tallied (u : ℕ) (d : Pools) (ws : List Word) : Prop where
  parental : ∀ c ∈ d.consents.rows, c.userId = u → c.kind = .strangerMatching →
    c.grantedByKind = .parent
  balance : (liveConsents d u).length + ws.count .withdrawn = ws.count .granted
  standing : Standing ws → 0 < (liveConsents d u).length

theorem Tallied.of_same {ws : List Word} (hd : Tallied u d ws) (h : d'.consents = d.consents) :
    Tallied u d' ws := by
  have hlive : liveConsents d' u = liveConsents d u := by
    unfold liveConsents
    rw [h]
  exact ⟨by rw [h]; exact hd.parental, by rw [hlive]; exact hd.balance,
    by rw [hlive]; exact hd.standing⟩

def grantOf (u : ℕ) (a : Actor) (body : ConsentCreate) : List Word :=
  if a.userId = u ∧ body.kind = .strangerMatching ∧ body.grantedByKind = .parent then [.granted]
  else []

theorem rows_record {body : ConsentCreate} (h : recordConsent d a body now = .ok d') :
    ∃ row : Consent, row.userId = a.userId ∧ row.kind = body.kind ∧
      row.grantedByKind = body.grantedByKind ∧ row.revokedAt = none ∧
      d'.consents.rows = d.consents.rows ++ [row] := by
  obtain ⟨_, rfl⟩ := recordConsent_eq_ok.1 h
  refine ⟨{
    id := d.consents.nextId
    userId := a.userId
    kind := body.kind
    docVersion := body.docVersion
    docHash := Sha256.ofText body.docVersion
    grantedByKind := body.grantedByKind
    parentName := body.parentName
    parentPhone := body.parentPhone
    channel := body.channel
    grantedAt := now }, rfl, rfl, rfl, rfl, ?_⟩
  apply Table.rows_put_of_get?_eq_none
  exact Table.get?_nextId _

theorem live_record {body : ConsentCreate} (h : recordConsent d a body now = .ok d') :
    (liveConsents d' u).length = (liveConsents d u).length + (grantOf u a body).length := by
  obtain ⟨row, huser, hkind, hgrantor, hrevoked, hrows⟩ := rows_record h
  unfold liveConsents Table.select
  rw [hrows, List.filter_append, List.length_append]
  unfold grantOf
  split
  · next hcounts => simp [huser, hkind, hgrantor, hrevoked, hcounts]
  · next hother => simp [huser, hkind, hgrantor, hrevoked, hother]

theorem Tallied.record {ws : List Word} {body : ConsentCreate} (hd : Tallied u d ws)
    (h : recordConsent d a body now = .ok d') (hminor : a.userId = u → a.isMinor = true) :
    Tallied u d' (ws ++ grantOf u a body) := by
  have hlive := live_record (u := u) h
  constructor
  · intro c hc huser hkind
    obtain ⟨row, hrowUser, hrowKind, hgrantor, _, hrows⟩ := rows_record h
    rw [hrows, List.mem_append, List.mem_singleton] at hc
    rcases hc with hold | rfl
    · exact hd.parental c hold huser hkind
    · rw [hgrantor]
      exact ((recordConsent_eq_ok.1 h).1 (hrowKind.symm.trans hkind)
        (hminor (hrowUser.symm.trans huser))).1
  · have hbalance := hd.balance
    unfold grantOf at hlive ⊢
    split at hlive
    · next hcounts =>
      rw [if_pos hcounts, List.count_append, List.count_append, hlive]
      simp
      omega
    · next hother =>
      rw [if_neg hother, List.append_nil, hlive]
      exact hbalance
  · intro hstanding
    rw [hlive]
    unfold grantOf at hstanding ⊢
    split at hstanding
    · next hcounts =>
      rw [if_pos hcounts]
      simp
    · next hother =>
      rw [if_neg hother]
      rw [List.append_nil] at hstanding
      exact hd.standing hstanding

theorem foldl_picks {f : Option Consent → Consent → Option Consent} {row : Consent}
    (hf : ∀ last c, f last c = some c ∨ f last c = last) {cs : List Consent} {last : Option Consent}
    (h : cs.foldl f last = some row) : last = some row ∨ row ∈ cs := by
  induction cs generalizing last with
  | nil => exact .inl h
  | cons c cs ih =>
    rcases ih h with hnow | hmem
    · rcases hf last c with htaken | hkept
      · rw [htaken] at hnow
        cases hnow
        exact .inr List.mem_cons_self
      · exact .inl (hkept.symm.trans hnow)
    · exact .inr (List.mem_cons_of_mem _ hmem)

theorem lastConsent_mem {userId : ℕ} {kind : String} {row : Consent}
    (h : lastConsent d userId kind = some row) :
    row ∈ d.consents.rows ∧ row.userId = userId ∧ row.kind.value = kind ∧ row.revokedAt = none := by
  have hpicked := foldl_picks (fun last c => by
    cases last with
    | none => exact .inl rfl
    | some l =>
      dsimp only
      split
      · exact .inl rfl
      · exact .inr rfl) h
  rcases hpicked with hnone | hmem
  · cases hnone
  · obtain ⟨hrow, hcond⟩ := List.mem_filter.1 hmem
    rw [decide_eq_true_eq] at hcond
    exact ⟨hrow, hcond⟩

theorem filter_revoked {p : Consent → Bool}
    (hp : ∀ c : Consent, p { c with revokedAt := some now } = false) (id : ℕ) (rows : List Consent) :
    (rows.map (fun c => if c.id = id then { c with revokedAt := some now } else c)).filter p =
      (rows.filter p).filter (fun c => c.id ≠ id) := by
  induction rows with
  | nil => rfl
  | cons c rows ih =>
    rw [List.map_cons, List.filter_cons, List.filter_cons, ih]
    by_cases hid : c.id = id
    · rw [if_pos hid, hp]
      cases p c <;> simp [hid]
    · rw [if_neg hid]
      cases p c <;> simp [hid]

theorem live_revoke {kind : String} (h : revokeConsent d a kind now = .ok d') :
    ∃ row ∈ d.consents.rows, row.userId = a.userId ∧ row.kind.value = kind ∧ row.revokedAt = none ∧
      liveConsents d' u = (liveConsents d u).erase row := by
  unfold revokeConsent at h
  split at h
  · cases h
  · next row hrow =>
    cases h
    obtain ⟨hmem, huser, hkind, hunrevoked⟩ := lastConsent_mem hrow
    refine ⟨row, hmem, huser, hkind, hunrevoked, ?_⟩
    have hnodup : (liveConsents d u).Nodup := (List.Nodup.of_map _ d.consents.nodup).filter _
    rw [hnodup.erase_eq_filter]
    refine (filter_revoked (fun c => by simp) row.id d.consents.rows).trans ?_
    apply List.filter_congr
    intro c hc
    have hsame : c.id = row.id ↔ c = row := by
      constructor
      · exact List.inj_on_of_nodup_map d.consents.nodup (List.mem_filter.1 hc).1 hmem
      · exact congrArg Consent.id
    simp [hsame, bne, Bool.beq_eq_decide_eq]

def withdrawalOf (u : ℕ) (a : Actor) (kind : String) : List Word :=
  if a.userId = u ∧ kind = ConsentKind.strangerMatching.value then [.withdrawn] else []

theorem mem_live_iff {row : Consent} {ws : List Word} {kind : String} (hd : Tallied u d ws)
    (hmem : row ∈ d.consents.rows) (huser : row.userId = a.userId) (hkind : row.kind.value = kind)
    (hunrevoked : row.revokedAt = none) : row ∈ liveConsents d u ↔
      a.userId = u ∧ kind = ConsentKind.strangerMatching.value := by
  have hvalue : row.kind = .strangerMatching ↔ kind = ConsentKind.strangerMatching.value := by
    rw [← hkind]
    cases row.kind <;> decide
  unfold liveConsents Table.select
  rw [List.mem_filter, decide_eq_true_eq, huser, hvalue]
  constructor
  · intro h
    exact ⟨h.2.1, h.2.2.1⟩
  · intro h
    exact ⟨hmem, h.1, h.2, hd.parental row hmem (huser.trans h.1) (hvalue.2 h.2), hunrevoked⟩

theorem parental_revoke {ws : List Word} {kind : String} (hd : Tallied u d ws)
    (h : revokeConsent d a kind now = .ok d') : ∀ c ∈ d'.consents.rows, c.userId = u →
      c.kind = .strangerMatching → c.grantedByKind = .parent := by
  unfold revokeConsent at h
  split at h
  · cases h
  · next row _ =>
    cases h
    intro c hc
    obtain ⟨old, hold, rfl⟩ := List.mem_map.1 hc
    have hparental := hd.parental old hold
    by_cases hid : old.id = row.id
    · rw [if_pos hid]
      exact hparental
    · rw [if_neg hid]
      exact hparental

theorem Tallied.revoke {ws : List Word} {kind : String} (hd : Tallied u d ws)
    (h : revokeConsent d a kind now = .ok d') : Tallied u d' (ws ++ withdrawalOf u a kind) := by
  obtain ⟨row, hmem, huser, hkind, hunrevoked, hlive⟩ := live_revoke (u := u) h
  have hrow := mem_live_iff hd hmem huser hkind hunrevoked
  unfold withdrawalOf
  split
  · next hcounts =>
    have hlength := List.length_erase_of_mem (hrow.2 hcounts)
    have hpos := List.length_pos_of_mem (hrow.2 hcounts)
    have hbalance := hd.balance
    refine ⟨parental_revoke hd h, ?_, fun hs => absurd hs (not_standing_append_withdrawn ws)⟩
    rw [hlive, List.count_append, List.count_append, hlength]
    simp
    omega
  · next hother =>
    rw [List.erase_of_not_mem (fun hin => hother (hrow.1 hin))] at hlive
    rw [List.append_nil]
    refine ⟨parental_revoke hd h, ?_, ?_⟩
    · rw [hlive]
      exact hd.balance
    · rw [hlive]
      exact hd.standing

/-! ## A history -/

theorem Tallied.request {ws : List Word} {at_ : Time} {userId : ℕ} {call : Call}
    (hd : Tallied u d ws) (hyoung : Young d u at_) (hnow : now ≤ at_)
    (h : answer d userId call now = .ok d') :
    Tallied u d' (ws ++ (word u d (.request userId call now)).toList) := by
  obtain ⟨a, ha, hperform⟩ := bind_eq_ok.1 h
  obtain ⟨_, _, _, huser⟩ := principal_eq_ok ha
  cases call with
  | recordConsent body =>
    have hword : (word u d (.request userId (.recordConsent body) now)).toList = grantOf u a body := by
      simp only [word, grantOf, h, huser, Except.isOk, Except.toBool, and_true]
      split <;> rfl
    rw [hword]
    apply hd.record hperform
    intro hsame
    rw [huser] at hsame
    rw [hsame] at ha
    exact isMinor_of_principal ha hyoung hnow
  | revokeConsent kind =>
    have hword : (word u d (.request userId (.revokeConsent kind) now)).toList =
        withdrawalOf u a kind := by
      simp only [word, withdrawalOf, h, huser, Except.isOk, Except.toBool, and_true]
      split <;> rfl
    rw [hword]
    exact hd.revoke hperform
  | _ =>
    have hsame : d'.consents = d.consents := by
      cases touched_perform hperform with
      | _ => rfl
    simpa [word] using hd.of_same hsame

theorem Tallied.execute {ws : List Word} {at_ : Time} (hd : Tallied u d ws) (hyoung : Young d u at_)
    (hnow : NotAfter at_ e) : Tallied u (execute d e) (ws ++ (word u d e).toList) := by
  cases e with
  | request userId call now =>
    cases hanswer : answer d userId call now with
    | error refusal =>
      have hword : word u d (.request userId call now) = none := by
        cases call <;> simp [word, hanswer, Except.isOk, Except.toBool]
      rw [hword, execute_of_error hanswer]
      simpa using hd
    | ok d' =>
      rw [execute_of_ok hanswer]
      exact hd.request hyoung hnow hanswer
  | matchSlot slotId now =>
    rw [show (word u d (.matchSlot slotId now)).toList = [] from rfl, List.append_nil]
    unfold SpeakingService.execute
    dsimp only
    split
    · next d' h => exact hd.of_same (beside_matchSlot h).consents
    · exact hd
  | matchQueue now =>
    rw [show (word u d (.matchQueue now)).toList = [] from rfl, List.append_nil]
    unfold SpeakingService.execute
    dsimp only
    split
    · next d' h => exact hd.of_same (beside_matchQueue h).consents
    · exact hd
  | register account =>
    rw [show (word u d (.register account)).toList = [] from rfl, List.append_nil]
    exact hd.of_same rfl
  | edit around =>
    rw [show (word u d (.edit around)).toList = [] from rfl, List.append_nil]
    exact hd.of_same rfl

theorem tallied_runs {at_ : Time} {ws : List Word} (h : Any Step d es d') (hyoung : Young d' u at_)
    (hnow : ∀ e ∈ es, NotAfter at_ e) (hd : Tallied u d ws) :
    Tallied u d' (ws ++ words u d es) := by
  induction h generalizing ws with
  | refl d => simpa [words] using hd
  | @next d t d' e es _ hstep tail ih =>
    have hhere : Young d u at_ :=
      (hyoung.of_elders (elders_runs tail)).of_elders (by rw [← hstep]; exact elders_execute d e)
    have ht : Tallied u t (ws ++ (word u d e).toList) := by
      rw [← hstep]
      exact hd.execute hhere (hnow e List.mem_cons_self)
    have hrest := ih hyoung (fun e he => hnow e (List.mem_cons_of_mem _ he)) ht
    unfold words
    rw [← List.append_assoc, show execute d e = t from hstep]
    exact hrest

/-! ## The two doors -/

/-- A public slot that would take the user but for a parent's word. -/
structure OpenTo (d : Pools) (a : Actor) (slot : Slot) : Prop where
  audience : slot.audience = .public_
  band : slot.ageBand ∈ permittedBands a
  supervised : slot.ageBand = .mixedSupervised → inClass d slot a.userId ∨ slot.createdBy = a.userId
  level : bandFits slot (d.around.bands a.userId)
  opened : slot.status = .scheduled ∨ slot.status = .booking
  room : taken d slot < slot.capacity

def BookAdmits (d : Pools) (a : Actor) (xid : String) : Prop := ∃ d', bookSlot d a xid = .ok d'

def JoinAdmits (d : Pools) (a : Actor) (body : QueueJoin) (now : Time) : Prop :=
  ∃ d', joinQueue d a body now = .ok d'

/-- Both doors let the user in exactly when `P`, where nothing else is in the way. -/
def Gated (d : Pools) (a : Actor) (now : Time) (P : Prop) : Prop :=
  (∀ xid slot, slotByXid d xid = .ok slot → OpenTo d a slot → (BookAdmits d a xid ↔ P)) ∧
    ∀ body : QueueJoin, ¬ (body.orgOnly = true ∧ a.orgIds = []) → (JoinAdmits d a body now ↔ P)

theorem bookAdmits_iff {xid : String} {slot : Slot} (hslot : slotByXid d xid = .ok slot)
    (hopen : OpenTo d a slot) (hminor : a.isMinor = true) :
    BookAdmits d a xid ↔ 0 < (liveConsents d a.userId).length := by
  constructor
  · rintro ⟨d', h⟩
    obtain ⟨slot', hslot', hbookable, _⟩ := bookSlot_eq_ok.1 h
    rw [hslot] at hslot'
    cases hslot'
    exact hbookable.consent hminor hopen.audience
  · intro hlive
    exact ⟨_, bookSlot_eq_ok.2 ⟨slot, hslot, ⟨hopen.band, fun _ _ => hlive, hopen.supervised,
      hopen.level, hopen.opened, hopen.room⟩, rfl⟩⟩

theorem joinAdmits {body : QueueJoin} (h : ¬ (body.orgOnly = true ∧ a.orgIds = [])) :
    JoinAdmits d a body now := ⟨_, joinQueue_eq_ok.2 ⟨h, rfl⟩⟩

/-- After any history, booking follows a parent's last word exactly where that is a grant or as
many were withdrawn as were given, and both doors do exactly where it is a grant. -/
theorem doors_follow_consent (d₀ d : Pools) (u : ℕ) (es : List Event) (now : Time) (a : Actor)
    (hstart : ∀ c ∈ d₀.consents.rows, c.userId ≠ u) (h : Any Step d₀ es d)
    (hnow : ∀ e ∈ es, NotAfter now e) (ha : principal d u now = .ok a) (hminor : a.isMinor = true) :
    (∀ xid slot, slotByXid d xid = .ok slot → OpenTo d a slot →
      ((BookAdmits d a xid ↔ Standing (words u d₀ es)) ↔ Standing (words u d₀ es) ∨
        (words u d₀ es).count .withdrawn = (words u d₀ es).count .granted)) ∧
    (Gated d a now (Standing (words u d₀ es)) ↔ Standing (words u d₀ es)) := by
  obtain ⟨account, haccount, hage, huser⟩ := principal_eq_ok ha
  have hyoung : Young d u now := by
    intro other hother
    rw [haccount] at hother
    cases hother
    rw [← hage]
    exact hminor
  have hnone : liveConsents d₀ u = [] := by
    apply List.filter_eq_nil_iff.2
    intro c hc
    simp [hstart c hc]
  have hd₀ : Tallied u d₀ [] := by
    refine ⟨fun c hc huser => absurd huser (hstart c hc), ?_, ?_⟩
    · rw [hnone]
      rfl
    · intro hstanding
      cases hstanding
  have hd := tallied_runs h hyoung hnow hd₀
  rw [List.nil_append] at hd
  generalize words u d₀ es = ws at hd
  have hbook : ∀ xid slot, slotByXid d xid = .ok slot → OpenTo d a slot →
      (BookAdmits d a xid ↔ 0 < (liveConsents d u).length) := by
    intro xid slot hslot hopen
    rw [← huser]
    exact bookAdmits_iff hslot hopen hminor
  constructor
  · intro xid slot hslot hopen
    have hbalance := hd.balance
    have hstanding := hd.standing
    rw [hbook xid slot hslot hopen]
    by_cases hs : Standing ws
    · simp [hs, hstanding hs]
    · simp only [hs, iff_false, false_or]
      omega
  · constructor
    · intro hgated
      have hfree : ¬ ((({} : QueueJoin)).orgOnly = true ∧ a.orgIds = []) := by simp
      exact (hgated.2 {} hfree).1 (joinAdmits hfree)
    · intro hs
      constructor
      · intro xid slot hslot hopen
        rw [hbook xid slot hslot hopen]
        exact iff_of_true (hd.standing hs) hs
      · intro body hbody
        exact iff_of_true (joinAdmits hbody) hs

/-! ## Two grants and one withdrawal -/

def afternoon : Pools where
  users := (Table.empty.put { id := 1, xid := "admin", adultAt := 0 }).put
    { id := 2, xid := "sevara", adultAt := 1000 }
  around := { platformAdmins := [1] }
  slots := Table.empty.put
    { id := 1, xid := "pupils", orgId := none, startsAt := 1000000000, status := .booking
      ageBand := .minor, createdBy := 1 }

def agreement (docVersion : String) : ConsentCreate where
  kind := .strangerMatching
  docVersion
  grantedByKind := .parent
  parentPhone := some "+998901112233"

def agreedTwice : List Event := [
  .request 2 (.recordConsent (agreement "2026-01")) 1,
  .request 2 (.recordConsent (agreement "2026-02")) 2]

def takenBack : List Event :=
  agreedTwice ++ [.request 2 (.revokeConsent "stranger_matching") 3]

theorem any_foldl (es : List Event) (d : Pools) : Any Step d es (es.foldl execute d) := by
  induction es generalizing d with
  | nil => exact .refl d
  | cons e es ih => exact .next trivial rfl (ih (execute d e))

def pupil : Actor where
  userId := 2
  isMinor := true
  orgIds := []
  roles := []
  isPlatformAdmin := false

/-- The one withdrawal is answered 204, and both doors still let the pupil in. -/
theorem doors_stay_open : ∃ d, Any Step afternoon takenBack d ∧ principal d 2 4 = .ok pupil ∧
    ¬ Standing (words 2 afternoon takenBack) ∧ BookAdmits d pupil "pupils" ∧
    ¬ Gated d pupil 4 (Standing (words 2 afternoon takenBack)) := by
  have hover : ¬ Standing (words 2 afternoon takenBack) := by decide +kernel
  have hbook : (bookSlot (takenBack.foldl execute afternoon) pupil "pupils").isOk = true := by
    decide +kernel
  refine ⟨_, any_foldl takenBack afternoon, rfl, hover, ?_, ?_⟩
  · unfold BookAdmits
    cases hres : bookSlot (takenBack.foldl execute afternoon) pupil "pupils" with
    | ok d' => exact ⟨d', rfl⟩
    | error e =>
      rw [hres] at hbook
      cases hbook
  · intro hgated
    have hfree : ¬ ((({} : QueueJoin)).orgOnly = true ∧ pupil.orgIds = []) := by simp
    exact hover ((hgated.2 {} hfree).1 (joinAdmits hfree))

theorem doors_follow_consent_agreed :
    Gated (agreedTwice.foldl execute afternoon) pupil 4 (Standing (words 2 afternoon agreedTwice)) := by
  refine (doors_follow_consent afternoon _ 2 agreedTwice 4 pupil ?_ (any_foldl agreedTwice afternoon)
    ?_ ?_ rfl).2.2 ?_
  · simp [afternoon, Table.empty, Table.put]
  · simp [agreedTwice, NotAfter]
  · rfl
  · decide +kernel

end IeltsHub.ConsentGates
