import Mathlib.Data.List.Basic
import Mathlib.Tactic

/-!
# Statements that may throw

A statement that changes a state and may throw leaves the state as the throw
found it: what it did before is not undone.  `Outcome` is such a result,
`andThen` runs one statement after another, `handle` is a `try`/`catch` around
one, and `forEach` is a loop whose first throw ends it.

An invariant that every statement keeps holds afterwards, thrown or not: this
is `andThen_inv` for two statements and `forEach_inv` for a loop.
-/

namespace Blockcore.Lib

/-- How a statement ended: done, or by a throw, and in which state. -/
inductive Outcome (ε σ : Type) where
  | done (s : σ)
  | thrown (e : ε) (s : σ)
  deriving DecidableEq, Repr

namespace Outcome

variable {ε σ τ α : Type}

def state : Outcome ε σ → σ
  | done s => s
  | thrown _ s => s

def threw : Outcome ε σ → Bool
  | done _ => false
  | thrown _ _ => true

def andThen : Outcome ε σ → (σ → Outcome ε σ) → Outcome ε σ
  | done s, f => f s
  | thrown e s, _ => thrown e s

/-- A `try` around the statement with the given `catch`. -/
def handle : Outcome ε σ → (ε → σ → Outcome ε σ) → Outcome ε σ
  | done s, _ => done s
  | thrown e s, h => h e s

/-- The same outcome, thrown as another exception. -/
def mapError {δ : Type} (f : ε → δ) : Outcome ε σ → Outcome δ σ
  | done s => done s
  | thrown e s => thrown (f e) s

@[simp] theorem state_done (s : σ) : (done s : Outcome ε σ).state = s := rfl
@[simp] theorem state_thrown (e : ε) (s : σ) : (thrown e s).state = s := rfl
@[simp] theorem threw_done (s : σ) : (done s : Outcome ε σ).threw = false := rfl
@[simp] theorem threw_thrown (e : ε) (s : σ) : (thrown e s).threw = true := rfl
@[simp] theorem done_andThen (s : σ) (f : σ → Outcome ε σ) : (done s).andThen f = f s := rfl
@[simp] theorem thrown_andThen (e : ε) (s : σ) (f : σ → Outcome ε σ) :
    (thrown e s).andThen f = thrown e s := rfl
@[simp] theorem done_handle (s : σ) (h : ε → σ → Outcome ε σ) : (done s).handle h = done s := rfl
@[simp] theorem thrown_handle (e : ε) (s : σ) (h : ε → σ → Outcome ε σ) :
    (thrown e s).handle h = h e s := rfl

@[simp] theorem andThen_done (o : Outcome ε σ) : o.andThen done = o := by
  cases o <;> rfl

theorem state_handle_done (o : Outcome ε σ) : (o.handle fun _ s => done s).state = o.state := by
  cases o <;> rfl

theorem eq_done_of_threw {o : Outcome ε σ} (h : o.threw = false) : o = done o.state := by
  cases o with
  | done s => rfl
  | thrown e s => cases h

theorem eq_thrown_of_threw {o : Outcome ε σ} (h : o.threw = true) : ∃ e, o = thrown e o.state := by
  cases o with
  | done s => cases h
  | thrown e s => exact ⟨e, rfl⟩

theorem andThen_eq_done {o : Outcome ε σ} {f : σ → Outcome ε σ} {s : σ} :
    o.andThen f = done s ↔ ∃ s₁, o = done s₁ ∧ f s₁ = done s := by
  cases o with
  | done s₁ => simp
  | thrown e s₁ => simp

theorem mapError_eq_done {δ : Type} {f : ε → δ} {o : Outcome ε σ} {s : σ} :
    o.mapError f = done s ↔ o = done s := by
  cases o <;> simp [mapError]

theorem mapError_state {δ : Type} (f : ε → δ) (o : Outcome ε σ) : (o.mapError f).state = o.state := by
  cases o <;> rfl

theorem mapError_threw {δ : Type} (f : ε → δ) (o : Outcome ε σ) : (o.mapError f).threw = o.threw := by
  cases o <;> rfl

theorem andThen_state (o : Outcome ε σ) (f : σ → Outcome ε σ) :
    (o.andThen f).state = if o.threw = false then (f o.state).state else o.state := by
  cases o <;> rfl

theorem andThen_inv {P : σ → Prop} {o : Outcome ε σ} {f : σ → Outcome ε σ}
    (h : P o.state) (hf : ∀ s, P s → P (f s).state) : P (o.andThen f).state := by
  cases o with
  | done s => exact hf s h
  | thrown e s => exact h

/-- A `foreach` loop: the first throw ends it. -/
def forEach (body : α → σ → Outcome ε σ) : List α → σ → Outcome ε σ
  | [], s => done s
  | a :: as, s => (body a s).andThen (forEach body as)

@[simp] theorem forEach_nil (body : α → σ → Outcome ε σ) (s : σ) : forEach body [] s = done s := rfl

theorem forEach_cons (body : α → σ → Outcome ε σ) (a : α) (as : List α) (s : σ) :
    forEach body (a :: as) s = (body a s).andThen (forEach body as) := rfl

@[simp] theorem forEach_singleton (body : α → σ → Outcome ε σ) (a : α) (s : σ) :
    forEach body [a] s = body a s := andThen_done _

/-- **An invariant every round keeps holds after the loop**, however it ended. -/
theorem forEach_inv {P : σ → Prop} {body : α → σ → Outcome ε σ} :
    ∀ {as : List α} {s : σ}, (∀ a ∈ as, ∀ s, P s → P (body a s).state) → P s →
      P (forEach body as s).state := by
  intro as
  induction as with
  | nil => intro s _ h; exact h
  | cons a as ih =>
    intro s hb h
    refine andThen_inv (hb a (by simp) s h) (fun s' h' => ?_)
    exact ih (fun a' ha' => hb a' (List.mem_cons_of_mem a ha')) h'

end Outcome

end Blockcore.Lib
