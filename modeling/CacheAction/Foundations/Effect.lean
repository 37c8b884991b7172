import Mathlib.Data.List.Basic
import Mathlib.Order.Basic

/-!
# Computations with effects

A computation of type `Effect W E α` changes a world of type `W` and returns a
value in `α` or fails with an error in `E`; one that runs out of fuel has no
result.  `Returns` and `Fails` say what comes of it, and there is one rule for
each way in which a sequence of two computations can end.

The world that a failure leaves is part of the outcome.  A program that has failed half-way has
written half of its output, and what matters is often just that.
-/

namespace CacheAction

universe u

/-- Computations that change a `W` and may fail with an `E`. -/
abbrev Effect (W E : Type u) := ExceptT E (StateT W Option)

namespace Effect

variable {W E α β : Type u}

/-- No result: the fuel is used up. -/
def outOfFuel : Effect W E α := ExceptT.mk fun _ => none

/-- A computation without effect. -/
def ofExcept : Except E α → Effect W E α
  | .ok a => pure a
  | .error e => throw e

/-- From `w` the computation returns `a` and leaves `w'`. -/
def Returns (x : Effect W E α) (w : W) (a : α) (w' : W) : Prop :=
  x.run.run w = some (.ok a, w')

/-- From `w` the computation fails with `e` and leaves `w'`. -/
def Fails (x : Effect W E α) (w : W) (e : E) (w' : W) : Prop :=
  x.run.run w = some (.error e, w')

variable {x : Effect W E α} {f : α → Effect W E β} {w w' w'' : W} {a : α} {b : β} {e : E}

theorem returns_pure (a : α) (w : W) : Returns (pure a : Effect W E α) w a w := rfl

theorem fails_throw (e : E) (w : W) : Fails (throw e : Effect W E α) w e w := rfl

theorem returns_ofExcept {x : Except E α} (h : x = .ok a) (w : W) :
    Returns (ofExcept x : Effect W E α) w a w := by
  subst h
  rfl

/-- What follows a computation that returns. -/
theorem run_bind_of_returns (first : Returns x w a w') :
    (x >>= f).run.run w = (f a).run.run w' := by
  show Option.bind (x.run.run w) _ = _
  rw [first]
  rfl

theorem Returns.bind (first : Returns x w a w') (second : Returns (f a) w' b w'') :
    Returns (x >>= f) w b w'' :=
  (run_bind_of_returns first).trans second

theorem Returns.bind_fails (first : Returns x w a w') (second : Fails (f a) w' e w'') :
    Fails (x >>= f) w e w'' :=
  (run_bind_of_returns first).trans second

theorem Fails.bind (first : Fails x w e w') : Fails (x >>= f) w e w' := by
  show Option.bind (x.run.run w) _ = _
  rw [first]
  rfl

end Effect

/-- Fuel that is enough for each element of a list is enough for all of them. -/
theorem exists_depth {α : Type u} {l : List α} {P : α → ℕ → Prop}
    (each : ∀ a ∈ l, ∃ depth, ∀ fuel, depth ≤ fuel → P a fuel) :
    ∃ depth, ∀ fuel, depth ≤ fuel → ∀ a ∈ l, P a fuel := by
  induction l with
  | nil => exact ⟨0, by simp⟩
  | cons a rest ih =>
      obtain ⟨first, others⟩ := List.forall_mem_cons.mp each
      obtain ⟨depth₁, enough₁⟩ := first
      obtain ⟨depth₂, enough₂⟩ := ih others
      refine ⟨max depth₁ depth₂, fun fuel enough => List.forall_mem_cons.mpr ⟨?_, ?_⟩⟩
      · exact enough₁ fuel (by omega)
      · exact enough₂ fuel (by omega)

end CacheAction
