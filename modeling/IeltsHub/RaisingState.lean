import Mathlib

set_option autoImplicit false

/-!
# Computations over a state that may raise

An `Effect` reads and writes a state and returns or raises. What it wrote before it raised stays
written until someone restores it: `guarded` runs an effect and restores on a raise. `Keeps R`
says that an effect takes every state to an `R`-related one, whatever comes back; for a
reflexive and transitive `R` it composes.
-/
namespace IeltsHub.RaisingState

def Effect (ε σ α : Type) : Type := σ → Except ε α × σ

variable {ε σ α β : Type}

namespace Effect

protected def bind (m : Effect ε σ α) (f : α → Effect ε σ β) : Effect ε σ β := fun s =>
  match m s with
  | (.ok a, s') => f a s'
  | (.error e, s') => (.error e, s')

instance : Monad (Effect ε σ) where
  pure a := fun s => (.ok a, s)
  bind := Effect.bind

def raise (e : ε) : Effect ε σ α := fun s => (.error e, s)

def lift (x : Except ε α) : Effect ε σ α := fun s => (x, s)

def gets (f : σ → α) : Effect ε σ α := fun s => (.ok (f s), s)

def update (f : σ → σ) : Effect ε σ Unit := fun s => (.ok (), f s)

/-- `try m except h`. -/
def handle (m : Effect ε σ α) (h : ε → Effect ε σ α) : Effect ε σ α := fun s =>
  match m s with
  | (.ok a, s') => (.ok a, s')
  | (.error e, s') => h e s'

/-- Run `m`; on a raise go back by `restore before after` and carry on with what was raised. -/
def guarded (restore : σ → σ → σ) (m : Effect ε σ α) : Effect ε σ (Except ε α) := fun s =>
  match m s with
  | (.ok a, s') => (.ok (.ok a), s')
  | (.error e, s') => (.ok (.error e), restore s s')

variable {s s' : σ}

@[simp] theorem pure_run (a : α) (s : σ) : (pure a : Effect ε σ α) s = (.ok a, s) := rfl

@[simp] theorem raise_run (e : ε) (s : σ) : (raise e : Effect ε σ α) s = (.error e, s) := rfl

@[simp] theorem lift_run (x : Except ε α) (s : σ) : (lift x : Effect ε σ α) s = (x, s) := rfl

@[simp] theorem gets_run (f : σ → α) (s : σ) : (gets f : Effect ε σ α) s = (.ok (f s), s) := rfl

@[simp] theorem update_run (f : σ → σ) (s : σ) : (update f : Effect ε σ Unit) s = (.ok (), f s) :=
  rfl

theorem bind_run (m : Effect ε σ α) (f : α → Effect ε σ β) (s : σ) :
    (m >>= f) s = match m s with
      | (.ok a, s') => f a s'
      | (.error e, s') => (.error e, s') := rfl

theorem bind_run_ok {m : Effect ε σ α} {f : α → Effect ε σ β} {a : α} (h : m s = (.ok a, s')) :
    (m >>= f) s = f a s' := by
  rw [bind_run, h]

theorem bind_run_error {m : Effect ε σ α} {f : α → Effect ε σ β} {e : ε}
    (h : m s = (.error e, s')) : (m >>= f) s = (.error e, s') := by
  rw [bind_run, h]

@[simp] theorem gets_bind_run (g : σ → α) (f : α → Effect ε σ β) (s : σ) :
    (gets g >>= f) s = f (g s) s := rfl

@[simp] theorem update_bind_run (g : σ → σ) (f : Unit → Effect ε σ β) (s : σ) :
    (update g >>= f) s = f () (g s) := rfl

@[simp] theorem raise_bind_run (e : ε) (f : α → Effect ε σ β) (s : σ) :
    (raise e >>= f) s = (.error e, s) := rfl

theorem lift_bind_run_ok {x : Except ε α} {f : α → Effect ε σ β} {a : α} (h : x = .ok a) :
    (lift x >>= f) s = f a s := by
  rw [h]
  rfl

theorem bind_pure_run (m : Effect ε σ α) : (m >>= fun a => pure a) = m := by
  funext s
  rw [bind_run]
  rcases m s with ⟨a | e, u⟩ <;> rfl

theorem bind_assoc_run {γ : Type} (m : Effect ε σ α) (f : α → Effect ε σ β)
    (g : β → Effect ε σ γ) : (m >>= f) >>= g = m >>= fun a => f a >>= g := by
  funext s
  simp only [bind_run]
  rcases m s with ⟨a | e, u⟩ <;> rfl

instance : LawfulMonad (Effect ε σ) :=
  LawfulMonad.mk' _ bind_pure_run (fun _ _ => rfl) bind_assoc_run

theorem bind_eq_ok {m : Effect ε σ α} {f : α → Effect ε σ β} {b : β} :
    (m >>= f) s = (.ok b, s') ↔ ∃ a u, m s = (.ok a, u) ∧ f a u = (.ok b, s') := by
  rw [bind_run]
  rcases hm : m s with ⟨a | e, u⟩
  · simp
  · simp

theorem bind_eq_error {m : Effect ε σ α} {f : α → Effect ε σ β} {e : ε} :
    (m >>= f) s = (.error e, s') ↔
      m s = (.error e, s') ∨ ∃ a u, m s = (.ok a, u) ∧ f a u = (.error e, s') := by
  rw [bind_run]
  rcases hm : m s with ⟨a | e, u⟩
  · simp
  · simp

end Effect

open Effect

/-! ## Frames -/

/-- The relations an effect can keep step by step. -/
structure Frame (R : σ → σ → Prop) : Prop where
  refl : ∀ s, R s s
  trans : ∀ {s t u}, R s t → R t u → R s u

def Keeps (R : σ → σ → Prop) (m : Effect ε σ α) : Prop := ∀ s, R s (m s).2

def Yields (m : Effect ε σ α) (Q : α → Prop) : Prop := ∀ s a s', m s = (.ok a, s') → Q a

variable {R : σ → σ → Prop}

theorem keeps_of_run {m : Effect ε σ α} (h : ∀ s, (m s).2 = s) (hR : Frame R) : Keeps R m :=
  fun s => (h s).symm ▸ hR.refl s

theorem keeps_pure (hR : Frame R) (a : α) : Keeps R (pure a : Effect ε σ α) :=
  keeps_of_run (fun _ => rfl) hR

theorem keeps_raise (hR : Frame R) (e : ε) : Keeps R (raise e : Effect ε σ α) :=
  keeps_of_run (fun _ => rfl) hR

theorem keeps_lift (hR : Frame R) (x : Except ε α) : Keeps R (lift x : Effect ε σ α) :=
  keeps_of_run (fun _ => rfl) hR

theorem keeps_gets (hR : Frame R) (f : σ → α) : Keeps R (gets f : Effect ε σ α) :=
  keeps_of_run (fun _ => rfl) hR

theorem keeps_update {f : σ → σ} (h : ∀ s, R s (f s)) : Keeps R (update f : Effect ε σ Unit) := h

theorem keeps_bind_of (hR : Frame R) {m : Effect ε σ α} {f : α → Effect ε σ β} {Q : α → Prop}
    (hm : Keeps R m) (hQ : Yields m Q) (hf : ∀ a, Q a → Keeps R (f a)) : Keeps R (m >>= f) := by
  intro s
  have hs := hm s
  rw [bind_run]
  rcases h : m s with ⟨e | a, u⟩
  · rw [h] at hs
    exact hs
  · rw [h] at hs
    exact hR.trans hs (hf a (hQ s a u h) u)

theorem keeps_bind (hR : Frame R) {m : Effect ε σ α} {f : α → Effect ε σ β}
    (hm : Keeps R m) (hf : ∀ a, Keeps R (f a)) : Keeps R (m >>= f) :=
  keeps_bind_of hR hm (Q := fun _ => True) (fun _ _ _ _ => trivial) (fun a _ => hf a)

theorem keeps_handle (hR : Frame R) {m : Effect ε σ α} {h : ε → Effect ε σ α}
    (hm : Keeps R m) (hh : ∀ e, Keeps R (h e)) : Keeps R (handle m h) := by
  intro s
  have hs := hm s
  unfold handle
  rcases hr : m s with ⟨e | a, u⟩
  · rw [hr] at hs
    exact hR.trans hs (hh e u)
  · rw [hr] at hs
    exact hs

theorem keeps_guarded {restore : σ → σ → σ} {m : Effect ε σ α} (hm : Keeps R m)
    (hrestore : ∀ s s', R s s' → R s (restore s s')) : Keeps R (guarded restore m) := by
  intro s
  have hs := hm s
  unfold guarded
  rcases hr : m s with ⟨e | a, u⟩
  · rw [hr] at hs
    exact hrestore s u hs
  · rw [hr] at hs
    exact hs

theorem keeps_mapM (hR : Frame R) {f : α → Effect ε σ β} {as : List α}
    (hf : ∀ a ∈ as, Keeps R (f a)) : Keeps R (as.mapM f) := by
  induction as with
  | nil => exact keeps_pure hR []
  | cons a as ih =>
    rw [List.mapM_cons]
    refine keeps_bind hR (hf a List.mem_cons_self) (fun b => ?_)
    exact keeps_bind hR (ih (fun c hc => hf c (List.mem_cons_of_mem a hc)))
      (fun bs => keeps_pure hR (b :: bs))

/-! ## What an effect can raise -/

/-- Whatever the effect raises satisfies `P`. -/
def Fails (P : ε → Prop) (m : Effect ε σ α) : Prop := ∀ s e s', m s = (.error e, s') → P e

variable {P : ε → Prop}

theorem fails_pure (a : α) : Fails P (pure a : Effect ε σ α) := by
  intro s e s' h
  cases h

theorem fails_gets (f : σ → α) : Fails P (gets f : Effect ε σ α) := by
  intro s e s' h
  cases h

theorem fails_update (f : σ → σ) : Fails P (update f : Effect ε σ Unit) := by
  intro s e s' h
  cases h

theorem fails_lift {x : Except ε α} (h : ∀ e, x = .error e → P e) :
    Fails P (lift x : Effect ε σ α) := by
  intro s e s' he
  exact h e (Prod.mk.inj he).1

theorem fails_bind {m : Effect ε σ α} {f : α → Effect ε σ β} (hm : Fails P m)
    (hf : ∀ a, Fails P (f a)) : Fails P (m >>= f) := by
  intro s e s' h
  rcases bind_eq_error.1 h with h | ⟨a, u, _, h⟩
  · exact hm s e s' h
  · exact hf a u e s' h

end IeltsHub.RaisingState
