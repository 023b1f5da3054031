import Mathlib

set_option autoImplicit false

/-!
# Optimistic locks

A resource is read together with a tag, and a write names the tag of the reading it was made over.
A write is a request in two steps: it loads the resource, and where nothing refuses it what it
made of it is committed later, beside whatever others have committed since. `Lock` is a handler of
such writes with the proof that it looks at the tag and at nothing else of the reading.
-/
namespace IeltsHub.OptimisticLock

structure Lock (δ τ ρ ε : Type) [DecidableEq τ] where
  tag : δ → τ
  /-- The handler of a write, with the tag it names if it names one. -/
  patch : δ → Option τ → ρ → Except ε δ
  /-- What refuses a write before the tag is looked at. -/
  gate : δ → ρ → Except ε Unit
  write : δ → ρ → Except ε δ
  stale : ε
  /-- What is stored by a commit: what was loaded, what was made of it, what is stored by then. -/
  merge : δ → δ → δ → δ
  patch_bare : ∀ d r, patch d none r = gate d r >>= fun _ => write d r
  patch_held : ∀ d d' r, patch d (some (tag d')) r =
    gate d r >>= fun _ => if tag d' = tag d then write d r else .error stale
  write_ne_stale : ∀ d r, write d r ≠ .error stale
  merge_loaded : ∀ loaded mine, merge loaded mine loaded = mine

variable {δ τ ρ ε : Type} [DecidableEq τ]

structure Pending (δ : Type) where
  read : δ
  loaded : δ
  mine : δ

structure State (δ τ : Type) where
  stored : δ
  kept : ℕ → Option (δ × τ) := fun _ => none
  pending : ℕ → Option (Pending δ) := fun _ => none

inductive Act (ρ : Type) where
  | read (editor : ℕ)
  | send (editor : ℕ) (request : ρ)
  | commit (editor : ℕ)
  | abandon (editor : ℕ)

def act (L : Lock δ τ ρ ε) (s : State δ τ) : Act ρ → State δ τ
  | .read e => { s with kept := Function.update s.kept e (some (s.stored, L.tag s.stored)) }
  | .send e r =>
    match s.kept e, s.pending e with
    | some (read, held), none =>
      match L.patch s.stored (some held) r with
      | .ok mine => { s with pending := Function.update s.pending e (some ⟨read, s.stored, mine⟩) }
      | .error _ => s
    | _, _ => s
  | .commit e =>
    match s.pending e with
    | some p => { s with
        stored := L.merge p.loaded p.mine s.stored
        pending := Function.update s.pending e none }
    | none => s
  | .abandon e => { s with pending := Function.update s.pending e none }

/-- Every act of the run satisfies `P` in the state it meets. -/
def Along (L : Lock δ τ ρ ε) (P : State δ τ → Act ρ → Prop) : State δ τ → List (Act ρ) → Prop
  | _, [] => True
  | s, a :: acts => P s a ∧ Along L P (act L s a) acts

/-- The lock keeps its promise at one act. A write over a reading that is no longer what is stored
is refused and changes nothing; one over what is stored is answered as if it named no tag; and
what is committed was made over what is stored. -/
def Honoured (L : Lock δ τ ρ ε) (s : State δ τ) : Act ρ → Prop
  | .send e r => ∀ read held, s.kept e = some (read, held) → s.pending e = none →
    (s.stored ≠ read → act L s (.send e r) = s ∧
      (L.gate s.stored r = .ok () → L.patch s.stored (some held) r = .error L.stale)) ∧
    (s.stored = read → L.patch s.stored (some held) r = L.patch s.stored none r)
  | .commit e => ∀ p, s.pending e = some p →
    s.stored = p.read ∧ (act L s (.commit e)).stored = p.mine
  | _ => True

/-- What the lock needs of an act: a stale reading shows in the tag, and nobody commits between
the loading of a write and its commit. -/
def Meets (L : Lock δ τ ρ ε) (s : State δ τ) : Act ρ → Prop
  | .send e r => ∀ read held, s.kept e = some (read, held) → s.pending e = none →
    s.stored = read ∨ L.gate s.stored r ≠ .ok () ∨ L.tag read ≠ L.tag s.stored
  | .commit e => ∀ p, s.pending e = some p → s.stored = p.loaded
  | _ => True

/-- What holds of every reading that is kept and of every write that is open. -/
structure Entries (P : δ → τ → Prop) (Q : Pending δ → Prop) (s : State δ τ) : Prop where
  kept : ∀ e read held, s.kept e = some (read, held) → P read held
  pending : ∀ e p, s.pending e = some p → Q p

abbrev Inv (L : Lock δ τ ρ ε) : State δ τ → Prop :=
  Entries (fun read held => held = L.tag read) (fun p => p.loaded = p.read)

section
variable {L : Lock δ τ ρ ε} {s : State δ τ} {a : Act ρ} {d d' mine : δ} {r : ρ} {e : ℕ}

omit [DecidableEq τ] in
theorem entries_start {P : δ → τ → Prop} {Q : Pending δ → Prop} (d : δ) :
    Entries P Q { stored := d } where
  kept := by simp
  pending := by simp

theorem entries_act {P : δ → τ → Prop} {Q : Pending δ → Prop} (hs : Entries P Q s)
    (hread : P s.stored (L.tag s.stored))
    (hsend : ∀ e r read held mine, a = .send e r → s.kept e = some (read, held) →
      s.pending e = none → L.patch s.stored (some held) r = .ok mine →
      Q ⟨read, s.stored, mine⟩) :
    Entries P Q (act L s a) := by
  cases a with
  | read e =>
    refine ⟨fun e' read held hk => ?_, hs.pending⟩
    by_cases he : e' = e
    · subst he
      simp only [act, Function.update_self, Option.some.injEq, Prod.mk.injEq] at hk
      rw [← hk.1, ← hk.2]
      exact hread
    · simp only [act, Function.update_of_ne he] at hk
      exact hs.kept e' read held hk
  | abandon e =>
    refine ⟨hs.kept, fun e' p hp => ?_⟩
    by_cases he : e' = e
    · subst he
      simp [act] at hp
    · simp only [act, Function.update_of_ne he] at hp
      exact hs.pending e' p hp
  | commit e =>
    cases hpe : s.pending e with
    | none => simpa only [act, hpe] using hs
    | some q =>
      simp only [act, hpe]
      refine ⟨hs.kept, fun e' p hp => ?_⟩
      by_cases he : e' = e
      · subst he
        simp at hp
      · simp only [Function.update_of_ne he] at hp
        exact hs.pending e' p hp
  | send e r =>
    rcases hk : s.kept e with _ | ⟨read, held⟩
    · simpa only [act, hk] using hs
    rcases hp : s.pending e with _ | q
    · rcases hpatch : L.patch s.stored (some held) r with err | mine
      · simpa only [act, hk, hp, hpatch] using hs
      · simp only [act, hk, hp, hpatch]
        refine ⟨hs.kept, fun e' p hp' => ?_⟩
        by_cases he : e' = e
        · subst he
          simp only [Function.update_self, Option.some.injEq] at hp'
          subst hp'
          exact hsend e' r read held mine rfl hk hp hpatch
        · simp only [Function.update_of_ne he] at hp'
          exact hs.pending e' p hp'
    · simpa only [act, hk, hp] using hs

theorem gate_of_patch (h : L.patch d (some (L.tag d')) r = .ok mine) :
    L.gate d r = .ok () ∧ L.tag d' = L.tag d := by
  rw [L.patch_held] at h
  cases hg : L.gate d r with
  | error err =>
    rw [hg] at h
    cases h
  | ok u =>
    rw [hg] at h
    change (if L.tag d' = L.tag d then L.write d r else .error L.stale) = .ok mine at h
    split at h
    · next ht => exact ⟨rfl, ht⟩
    · cases h

theorem patch_of_tag (h : L.tag d' = L.tag d) :
    L.patch d (some (L.tag d')) r = L.patch d none r := by
  rw [L.patch_held, L.patch_bare, if_pos h]

theorem patch_of_tag_ne (hg : L.gate d r = .ok ()) (h : L.tag d' ≠ L.tag d) :
    L.patch d (some (L.tag d')) r = .error L.stale := by
  rw [L.patch_held, hg, if_neg h]
  rfl

theorem patch_eq_stale (hg : L.gate d r = .ok ())
    (h : L.patch d (some (L.tag d')) r = .error L.stale) : L.tag d' ≠ L.tag d := by
  intro ht
  rw [L.patch_held, hg, if_pos ht] at h
  exact L.write_ne_stale d r h

theorem patch_of_gate (hg : L.gate d r ≠ .ok ()) (held : δ) :
    ∃ err, L.patch d (some (L.tag held)) r = .error err := by
  rw [L.patch_held]
  cases h : L.gate d r with
  | error err => exact ⟨err, rfl⟩
  | ok u => exact absurd h hg

theorem act_send_error {read : δ} {held : τ} {err : ε} (hk : s.kept e = some (read, held))
    (hp : s.pending e = none) (h : L.patch s.stored (some held) r = .error err) :
    act L s (.send e r) = s := by
  simp only [act, hk, hp, h]

theorem honoured_iff (hs : Inv L s) : Honoured L s a ↔ Meets L s a := by
  cases a with
  | read e => exact Iff.rfl
  | abandon e => exact Iff.rfl
  | send e r =>
    constructor
    · intro h read held hk hp
      by_cases hsame : s.stored = read
      · exact .inl hsame
      · by_cases hg : L.gate s.stored r = .ok ()
        · have hstale := ((h read held hk hp).1 hsame).2 hg
          rw [hs.kept e read held hk] at hstale
          exact .inr (.inr (patch_eq_stale hg hstale))
        · exact .inr (.inl hg)
    · intro h read held hk hp
      have htag := hs.kept e read held hk
      subst htag
      refine ⟨fun hne => ?_, fun hsame => ?_⟩
      · rcases h read _ hk hp with hsame | hg | ht
        · exact absurd hsame hne
        · obtain ⟨err, herr⟩ := patch_of_gate hg read
          exact ⟨act_send_error hk hp herr, fun hok => absurd hok hg⟩
        · by_cases hg : L.gate s.stored r = .ok ()
          · have hstale := patch_of_tag_ne hg ht
            exact ⟨act_send_error hk hp hstale, fun _ => hstale⟩
          · obtain ⟨err, herr⟩ := patch_of_gate hg read
            exact ⟨act_send_error hk hp herr, fun hok => absurd hok hg⟩
      · exact patch_of_tag (by rw [hsame])
  | commit e =>
    constructor
    · intro h p hp
      rw [hs.pending e p hp]
      exact (h p hp).1
    · intro h p hp
      have hloaded := h p hp
      refine ⟨hloaded.trans (hs.pending e p hp), ?_⟩
      simp only [act, hp, hloaded]
      exact L.merge_loaded p.loaded p.mine

theorem inv_act (hs : Inv L s) (h : Meets L s a) : Inv L (act L s a) := by
  refine entries_act hs rfl ?_
  intro e r read held mine ha hk hp hpatch
  subst ha
  rw [hs.kept e read held hk] at hpatch
  obtain ⟨hg, ht⟩ := gate_of_patch hpatch
  rcases h read held hk hp with hsame | hno | hne
  · exact hsame
  · exact absurd hg hno
  · exact absurd ht hne

theorem along_honoured_iff (hs : Inv L s) (acts : List (Act ρ)) :
    Along L (Honoured L) s acts ↔ Along L (Meets L) s acts := by
  induction acts generalizing s with
  | nil => exact Iff.rfl
  | cons a acts ih =>
    constructor
    · intro h
      have hmeets := (honoured_iff hs).1 h.1
      exact ⟨hmeets, (ih (inv_act hs hmeets)).1 h.2⟩
    · intro h
      exact ⟨(honoured_iff hs).2 h.1, (ih (inv_act hs h.1)).2 h.2⟩

end

/-! ## A tag that no write moves -/

def Unmoved (L : Lock δ τ ρ ε) (s : State δ τ) : Act ρ → Prop
  | .send e r => ∀ read held, s.kept e = some (read, held) → s.pending e = none →
    s.stored = read ∨ L.gate s.stored r ≠ .ok ()
  | .commit e => ∀ p, s.pending e = some p → s.stored = p.loaded
  | _ => True

/-- The tag is made of what no write moves. -/
structure Pinned {κ : Type} (L : Lock δ τ ρ ε) (pin : δ → κ) : Prop where
  tag : ∀ {d d'}, pin d = pin d' → L.tag d = L.tag d'
  patch : ∀ {d held r mine}, L.patch d held r = .ok mine → pin mine = pin d
  merge : ∀ {loaded mine stored}, pin mine = pin stored →
    pin (L.merge loaded mine stored) = pin stored

/-- Everything in sight is of one pin. -/
structure Fixed {κ : Type} (pin : δ → κ) (k : κ) (s : State δ τ) : Prop where
  stored : pin s.stored = k
  entries : Entries (fun read _ => pin read = k) (fun p => pin p.mine = k) s

section
variable {κ : Type} {L : Lock δ τ ρ ε} {pin : δ → κ} {k : κ} {s : State δ τ} {a : Act ρ}

theorem fixed_act (hL : Pinned L pin) (hs : Fixed pin k s) : Fixed pin k (act L s a) where
  stored := by
    cases a with
    | read e => exact hs.stored
    | abandon e => exact hs.stored
    | commit e =>
      cases hp : s.pending e with
      | none => simpa only [act, hp] using hs.stored
      | some q =>
        simp only [act, hp]
        rw [hL.merge ((hs.entries.pending e q hp).trans hs.stored.symm), hs.stored]
    | send e r =>
      simp only [act]
      split
      · split <;> exact hs.stored
      · exact hs.stored
  entries := entries_act hs.entries hs.stored
    (fun _ _ _ _ _ _ _ _ hpatch => (hL.patch hpatch).trans hs.stored)

theorem meets_iff_unmoved (hL : Pinned L pin) (hs : Fixed pin k s) :
    Meets L s a ↔ Unmoved L s a := by
  cases a with
  | read e => exact Iff.rfl
  | abandon e => exact Iff.rfl
  | commit e => exact Iff.rfl
  | send e r =>
    constructor
    · intro h read held hk hp
      rcases h read held hk hp with hsame | hg | hne
      · exact .inl hsame
      · exact .inr hg
      · exact absurd (hL.tag ((hs.entries.kept e read held hk).trans hs.stored.symm)) hne
    · intro h read held hk hp
      rcases h read held hk hp with hsame | hg
      · exact .inl hsame
      · exact .inr (.inl hg)

theorem along_meets_iff_unmoved (hL : Pinned L pin) (hs : Fixed pin k s) (acts : List (Act ρ)) :
    Along L (Meets L) s acts ↔ Along L (Unmoved L) s acts := by
  induction acts generalizing s with
  | nil => exact Iff.rfl
  | cons a acts ih => exact and_congr (meets_iff_unmoved hL hs) (ih (fixed_act hL hs))

theorem along_honoured_iff_unmoved (hL : Pinned L pin) (d : δ) (acts : List (Act ρ)) :
    Along L (Honoured L) { stored := d } acts ↔ Along L (Unmoved L) { stored := d } acts := by
  rw [along_honoured_iff (entries_start d)]
  exact along_meets_iff_unmoved hL ⟨rfl, entries_start d⟩ acts

end

end IeltsHub.OptimisticLock
