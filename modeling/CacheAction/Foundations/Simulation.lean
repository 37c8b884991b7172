import CacheAction.Foundations.Machine

/-!
# Simulation of machines

A concrete machine is *simulated* by an abstract one when there is a relation
between their states such that every concrete step is matched by a run of the
abstract machine, of any length, that ends in a related state.  The two need not
have the same inputs and outputs; what can be seen of their outputs, by a `view`
of each, has to agree.

One step is enough: by `Simulation.run` every concrete run is matched by an
abstract run, with the same view of the two traces.

A step may be matched by the empty run, so a concrete machine may take steps of which the
abstract one knows nothing.  Whether it does so for ever is not a matter of simulation.
-/

namespace CacheAction

universe u v w u' v' w' x

variable {σ : Type u} {ι : Type v} {ω : Type w} {τ : Type u'} {κ : Type v'} {ο : Type w'}
  {ν : Type x}

/-- Every step of `concrete` is matched by a run of `abstract`. -/
structure Simulation (concrete : Machine σ ι ω) (abstract : Machine τ κ ο) (view : ω → Option ν)
    (view' : ο → Option ν) (Related : σ → τ → Prop) : Prop where
  step : ∀ {s t i s' out}, Related s t → concrete.step s i = some (s', out) →
    ∃ js t' out', abstract.run t js = some (t', out') ∧ Related s' t' ∧
      out'.filterMap view' = out.filterMap view

/-- **The run rule of simulations.** -/
theorem Simulation.run {concrete : Machine σ ι ω} {abstract : Machine τ κ ο}
    {view : ω → Option ν} {view' : ο → Option ν} {Related : σ → τ → Prop}
    (simulation : Simulation concrete abstract view view' Related) {s s' : σ} {t : τ}
    {is : List ι} {trace : List ω} (related : Related s t)
    (hrun : concrete.run s is = some (s', trace)) :
    ∃ js t' trace', abstract.run t js = some (t', trace') ∧ Related s' t' ∧
      trace'.filterMap view' = trace.filterMap view := by
  induction is generalizing s t trace with
  | nil =>
      cases hrun
      exact ⟨[], t, [], rfl, related, rfl⟩
  | cons i rest ih =>
      obtain ⟨s₁, out, tail, hstep, hrest, rfl⟩ := (concrete.run_cons_eq_some).mp hrun
      obtain ⟨js, t₁, out', first, related₁, seen⟩ := simulation.step related hstep
      obtain ⟨js', t', tail', others, related', seen'⟩ := ih related₁ hrest
      refine ⟨js ++ js', t', out' ++ tail', abstract.run_append first others, related', ?_⟩
      rw [List.filterMap_append, List.filterMap_append, seen, seen']

end CacheAction
