/-
# Methods that raise

A method of an object either returns or raises, and what it has done to the object
by then stays done: `ExceptT ε (StateM σ)`.  The rules below run such a method
through its statements, one at a time.
-/

import Mathlib.Init

namespace TtsPool

/-- A method of an object of type `σ` that may raise an `ε`. -/
abbrev Raising (ε σ : Type) := ExceptT ε (StateM σ)

namespace Raising

variable {ε σ α β : Type} {m : Raising ε σ α} {k : α → Raising ε σ β} {s s' : σ} {a : α} {error : ε}

/-- What a call returns or raises, and what it leaves of the object. -/
def call (m : Raising ε σ α) (s : σ) : Except ε α × σ := m.run.run s

@[simp] theorem call_pure (a : α) (s : σ) : call (pure a : Raising ε σ α) s = (.ok a, s) := rfl

@[simp] theorem call_throw (error : ε) (s : σ) : call (throw error : Raising ε σ α) s = (.error error, s) := rfl

@[simp] theorem call_modify (f : σ → σ) (s : σ) : call (modify f : Raising ε σ PUnit) s = (.ok (), f s) := rfl

@[simp] theorem call_set (s' s : σ) : call (set s' : Raising ε σ PUnit) s = (.ok (), s') := rfl

@[simp] theorem call_get_bind (k : σ → Raising ε σ β) (s : σ) : call (get >>= k) s = call (k s) s := rfl

@[simp] theorem call_modify_bind (f : σ → σ) (k : PUnit → Raising ε σ β) (s : σ) :
    call (modify f >>= k) s = call (k ()) (f s) := rfl

@[simp] theorem call_set_bind (s' : σ) (k : PUnit → Raising ε σ β) (s : σ) :
    call (set s' >>= k) s = call (k ()) s' := rfl

@[simp] theorem call_throw_bind (error : ε) (k : α → Raising ε σ β) (s : σ) :
    call ((throw error : Raising ε σ α) >>= k) s = (.error error, s) := rfl

theorem call_bind (m : Raising ε σ α) (k : α → Raising ε σ β) (s : σ) :
    call (m >>= k) s =
      match call m s with
      | (.ok a, s') => call (k a) s'
      | (.error error, s') => (.error error, s') := by
  show (ExceptT.bindCont k (call m s).1) (call m s).2 = _
  rcases call m s with ⟨_ | _, _⟩ <;> rfl

/-- A statement that returns. -/
theorem call_bind_ok (h : call m s = (.ok a, s')) : call (m >>= k) s = call (k a) s' := by
  rw [call_bind, h]

/-- A statement that raises. -/
theorem call_bind_error (h : call m s = (.error error, s')) : call (m >>= k) s = (.error error, s') := by
  rw [call_bind, h]

/-- A function that returns. -/
@[simp] theorem call_lift_ok (a : α) (k : α → Raising ε σ β) (s : σ) :
    call (liftM (Except.ok a : Except ε α) >>= k) s = call (k a) s := rfl

/-- A function that raises. -/
@[simp] theorem call_lift_error (error : ε) (k : α → Raising ε σ β) (s : σ) :
    call (liftM (Except.error error : Except ε α) >>= k) s = (.error error, s) := rfl

end Raising

end TtsPool
