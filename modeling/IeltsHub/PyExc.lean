import Mathlib

set_option autoImplicit false

/-!
# Raising computations

A Python call either returns a value or raises, so a function of the source is a term of
`Except (Exc δ) α`. The built-in exception classes are named here and `δ` is the type of the
exceptions the program declares itself. `Returns` says that a call does not raise, and its
lemmas take a computation apart one bind at a time.
-/
namespace IeltsHub.PyExc

/-- The built-in exceptions, and `domain` for those the program declares. -/
inductive Exc (δ : Type) where
  | keyError (key : String)
  | typeError
  | valueError
  | attributeError
  | indexError
  | recursionError
  | invalidOperation
  | domain (error : δ)
  deriving DecidableEq, Repr

variable {ε α β γ : Type}

def Returns (x : Except ε α) : Prop := ∃ a, x = .ok a

instance (x : Except ε α) : Decidable (Returns x) :=
  match x with
  | .ok a => .isTrue ⟨a, rfl⟩
  | .error _ => .isFalse (by rintro ⟨a, h⟩; cases h)

@[simp] theorem returns_ok (a : α) : Returns (.ok a : Except ε α) := ⟨a, rfl⟩

@[simp] theorem returns_pure (a : α) : Returns (pure a : Except ε α) := ⟨a, rfl⟩

@[simp] theorem returns_error (e : ε) : ¬ Returns (.error e : Except ε α) := by
  rintro ⟨a, h⟩
  cases h

@[simp] theorem returns_throw (e : ε) : ¬ Returns (throw e : Except ε α) := returns_error e

/-- A bind returns exactly when its first half does and the continuation does on that value. -/
theorem bind_eq_ok {x : Except ε α} {f : α → Except ε β} {b : β} :
    x >>= f = .ok b ↔ ∃ a, x = .ok a ∧ f a = .ok b := by
  cases x with
  | ok a => simp [bind, Except.bind]
  | error e => simp [bind, Except.bind]

theorem returns_bind {x : Except ε α} {f : α → Except ε β} :
    Returns (x >>= f) ↔ ∃ a, x = .ok a ∧ Returns (f a) := by
  unfold Returns
  simp only [bind_eq_ok]
  constructor
  · rintro ⟨b, a, ha, hb⟩
    exact ⟨a, ha, b, hb⟩
  · rintro ⟨a, ha, b, hb⟩
    exact ⟨b, a, ha, hb⟩

theorem returns_bind_of_ok {x : Except ε α} {f : α → Except ε β} {a : α} (h : x = .ok a) :
    Returns (x >>= f) ↔ Returns (f a) := by
  subst h
  rfl

theorem map_eq_ok {x : Except ε α} {f : α → β} {b : β} :
    f <$> x = .ok b ↔ ∃ a, x = .ok a ∧ f a = b := by
  cases x with
  | ok a => simp [Functor.map, Except.map]
  | error e => simp [Functor.map, Except.map]

theorem returns_map {x : Except ε α} {f : α → β} : Returns (f <$> x) ↔ Returns x := by
  cases x with
  | ok a => exact ⟨fun _ => ⟨a, rfl⟩, fun _ => ⟨f a, rfl⟩⟩
  | error e => exact iff_of_false (returns_error e) (returns_error e)

theorem mapM_nil (f : α → Except ε β) : ([] : List α).mapM f = .ok [] := rfl

theorem mapM_cons_eq_ok {f : α → Except ε β} {a : α} {as : List α} {bs : List β} :
    (a :: as).mapM f = .ok bs ↔ ∃ b bs', f a = .ok b ∧ as.mapM f = .ok bs' ∧ bs = b :: bs' := by
  rw [List.mapM_cons, bind_eq_ok]
  constructor
  · rintro ⟨b, hb, h⟩
    obtain ⟨bs', hbs, h⟩ := bind_eq_ok.1 h
    exact ⟨b, bs', hb, hbs, by cases h; rfl⟩
  · rintro ⟨b, bs', hb, hbs, rfl⟩
    exact ⟨b, hb, bind_eq_ok.2 ⟨bs', hbs, rfl⟩⟩

/-- A loop that collects results relates the inputs to the outputs element by element. -/
theorem mapM_eq_ok {f : α → Except ε β} {as : List α} {bs : List β} :
    as.mapM f = .ok bs ↔ List.Forall₂ (fun a b => f a = .ok b) as bs := by
  induction as generalizing bs with
  | nil =>
    rw [mapM_nil]
    constructor
    · intro h
      cases h
      exact .nil
    · intro h
      cases h
      rfl
  | cons a as ih =>
    rw [mapM_cons_eq_ok]
    constructor
    · rintro ⟨b, bs', hb, hbs, rfl⟩
      exact .cons hb (ih.1 hbs)
    · intro h
      cases h with
      | cons hb hbs => exact ⟨_, _, hb, ih.2 hbs, rfl⟩

theorem returns_mapM {f : α → Except ε β} {as : List α} :
    Returns (as.mapM f) ↔ ∀ a ∈ as, Returns (f a) := by
  induction as with
  | nil => exact iff_of_true ⟨[], rfl⟩ (by simp)
  | cons a as ih =>
    rw [List.forall_mem_cons, ← ih]
    constructor
    · rintro ⟨bs, h⟩
      obtain ⟨b, bs', hb, hbs, _⟩ := mapM_cons_eq_ok.1 h
      exact ⟨⟨b, hb⟩, bs', hbs⟩
    · rintro ⟨⟨b, hb⟩, bs', hbs⟩
      exact ⟨b :: bs', mapM_cons_eq_ok.2 ⟨b, bs', hb, hbs, rfl⟩⟩

theorem exists_of_mapM {f : α → Except ε β} {as : List α} {bs : List β}
    (h : as.mapM f = .ok bs) {a : α} (ha : a ∈ as) : ∃ b ∈ bs, f a = .ok b := by
  have hall := mapM_eq_ok.1 h
  clear h
  induction hall with
  | nil => cases ha
  | @cons x y xs ys hxy _ ih =>
    rcases List.mem_cons.1 ha with rfl | ha
    · exact ⟨y, List.mem_cons_self, hxy⟩
    · obtain ⟨b, hb, hab⟩ := ih ha
      exact ⟨b, List.mem_cons_of_mem y hb, hab⟩

theorem foldlM_semiconj {g : β → γ} {f : β → α → Except ε β} {f' : γ → α → Except ε γ}
    (h : ∀ b a, f' (g b) a = g <$> f b a) (as : List α) (b : β) :
    as.foldlM f' (g b) = g <$> as.foldlM f b := by
  induction as generalizing b with
  | nil => rfl
  | cons a as ih =>
    rw [List.foldlM_cons, List.foldlM_cons, h, map_bind, bind_map_left]
    exact bind_congr (fun c => ih c)

theorem exists_input_of_mapM {f : α → Except ε β} {as : List α} {bs : List β}
    (h : as.mapM f = .ok bs) {b : β} (hb : b ∈ bs) : ∃ a ∈ as, f a = .ok b := by
  have hall := mapM_eq_ok.1 h
  clear h
  induction hall with
  | nil => cases hb
  | @cons x y xs ys hxy _ ih =>
    rcases List.mem_cons.1 hb with rfl | hb
    · exact ⟨x, List.mem_cons_self, hxy⟩
    · obtain ⟨a, ha, hab⟩ := ih hb
      exact ⟨a, List.mem_cons_of_mem x ha, hab⟩

theorem mapM_length {f : α → Except ε β} {as : List α} {bs : List β}
    (h : as.mapM f = .ok bs) : bs.length = as.length :=
  (mapM_eq_ok.1 h).length_eq.symm

theorem foldlM_invariant {f : β → α → Except ε β} (I : β → Prop) {as : List α} {b b' : β}
    (h : as.foldlM f b = .ok b') (hb : I b)
    (step : ∀ x, I x → ∀ a ∈ as, ∀ y, f x a = .ok y → I y) : I b' := by
  induction as generalizing b with
  | nil =>
    cases h
    exact hb
  | cons a as ih =>
    rw [List.foldlM_cons] at h
    obtain ⟨x, hx, h⟩ := bind_eq_ok.1 h
    exact ih h (step b hb a (by simp) x hx)
      (fun y hy c hc z hz => step y hy c (by simp [hc]) z hz)

/-! ## What a call can raise -/

/-- Whatever the call raises satisfies `P`. -/
def Raises (P : ε → Prop) (x : Except ε α) : Prop := ∀ e, x = .error e → P e

variable {P : ε → Prop}

theorem raises_ok (a : α) : Raises P (.ok a : Except ε α) := by
  intro e h
  cases h

theorem raises_error {e : ε} (h : P e) : Raises P (.error e : Except ε α) := by
  intro e' he
  cases he
  exact h

theorem raises_bind {x : Except ε α} {f : α → Except ε β} (hx : Raises P x)
    (hf : ∀ a, Raises P (f a)) : Raises P (x >>= f) := by
  cases x with
  | ok a => exact hf a
  | error e => exact raises_error (hx e rfl)

theorem raises_map {x : Except ε α} {f : α → β} (hx : Raises P x) : Raises P (f <$> x) := by
  cases x with
  | ok a => exact raises_ok (f a)
  | error e => exact raises_error (hx e rfl)

theorem raises_mapM {f : α → Except ε β} {as : List α} (hf : ∀ a, Raises P (f a)) :
    Raises P (as.mapM f) := by
  induction as with
  | nil => exact raises_ok []
  | cons a as ih =>
    rw [List.mapM_cons]
    exact raises_bind (hf a) (fun b => raises_bind ih (fun bs => raises_ok (b :: bs)))

theorem raises_option_mapM {f : α → Except ε β} {o : Option α} (hf : ∀ a, Raises P (f a)) :
    Raises P (o.mapM f) := by
  cases o with
  | none => exact raises_ok none
  | some a => exact raises_map (hf a)

theorem raises_foldlM {f : β → α → Except ε β} {as : List α} {b : β}
    (hf : ∀ b a, Raises P (f b a)) : Raises P (as.foldlM f b) := by
  induction as generalizing b with
  | nil => exact raises_ok b
  | cons a as ih =>
    rw [List.foldlM_cons]
    exact raises_bind (hf b a) (fun c => ih)

end IeltsHub.PyExc
