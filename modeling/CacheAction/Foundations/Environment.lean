import CacheAction.Foundations.Machine

/-!
# What is assumed of an environment

The inputs of a machine come from its environment.  What a proof assumes of that
environment is a condition on an input, in the state that it meets and after the trace so
far: a server returns what has been stored, a producer stops after its last byte.
`Follows` says that the environment has kept to the condition in a whole run.

A condition on the state alone is `Machine.Meets`.

Such conditions are not built into the step function, so that one machine can be looked at in
several environments, and a theorem shows in its hypotheses which one it needs.  When the
condition can be decided, so can `Follows` (`follows?`), and a run on fixed inputs can be
checked against its environment.
-/

namespace CacheAction

universe u v w

namespace Machine

variable {σ : Type u} {ι : Type v} {ω : Type w} (m : Machine σ ι ω)
  {C : σ → List ω → ι → Prop}

/-- Every input fed from `s` meets `C`, in the state before it and after the trace so
far, which starts with `trace`. -/
def Follows (C : σ → List ω → ι → Prop) : σ → List ω → List ι → Prop
  | _, _, [] => True
  | s, trace, i :: rest =>
      C s trace i ∧ ∀ p, m.step s i = some p → Follows C p.1 (trace ++ p.2) rest

/-- An environment of which nothing is assumed. -/
theorem follows_of_forall {is : List ι} (always : ∀ s trace, ∀ i ∈ is, C s trace i) (s : σ)
    (trace : List ω) : m.Follows C s trace is := by
  induction is generalizing s trace with
  | nil => trivial
  | cons i rest ih =>
      refine ⟨always s trace i List.mem_cons_self, fun p _ => ?_⟩
      exact ih (fun s trace i member => always s trace i (List.mem_cons_of_mem _ member)) _ _

/-- Whether every input meets a condition that can be computed. -/
def follows? (c : σ → List ω → ι → Bool) : σ → List ω → List ι → Bool
  | _, _, [] => true
  | s, trace, i :: rest =>
      c s trace i && (m.step s i).all fun p => follows? c p.1 (trace ++ p.2) rest

theorem follows_of_follows? [∀ s trace i, Decidable (C s trace i)] {s : σ} {is : List ι}
    {trace : List ω}
    (checked : m.follows? (fun s trace i => decide (C s trace i)) s trace is = true) :
    m.Follows C s trace is := by
  induction is generalizing s trace with
  | nil => trivial
  | cons i rest ih =>
      simp only [follows?, Bool.and_eq_true, decide_eq_true_eq, Option.all_eq_true] at checked
      exact ⟨checked.1, fun p hp => ih (checked.2 p hp)⟩

/-- A run goes on in the same environment. -/
theorem follows_append {s t : σ} {is js : List ι} {trace tail : List ω}
    (hrun : m.run s is = some (t, tail)) (first : m.Follows C s trace is)
    (second : m.Follows C t (trace ++ tail) js) : m.Follows C s trace (is ++ js) := by
  induction is generalizing s trace tail with
  | nil =>
      cases hrun
      rwa [List.append_nil] at second
  | cons i rest ih =>
      obtain ⟨s', out, tail', hstep, hrest, rfl⟩ := (m.run_cons_eq_some).mp hrun
      refine ⟨first.1, fun p hp => ?_⟩
      obtain rfl : (s', out) = p := Option.some.inj (hstep.symm.trans hp)
      refine ih hrest (first.2 _ hstep) ?_
      rwa [← List.append_assoc] at second

/-- **The run rule under an assumption.**  What one step preserves when its input meets
the condition, every run in such an environment preserves. -/
theorem run_invariant_of_follows {I : σ → List ω → Prop}
    (preserved : ∀ s trace i s' out, I s trace → C s trace i →
      m.step s i = some (s', out) → I s' (trace ++ out))
    {s t : σ} {is : List ι} {trace tail : List ω} (follows : m.Follows C s trace is)
    (initial : I s trace) (hrun : m.run s is = some (t, tail)) : I t (trace ++ tail) := by
  induction is generalizing s trace tail with
  | nil =>
      cases hrun
      simpa using initial
  | cons i rest ih =>
      obtain ⟨s', out, tail', hstep, hrest, rfl⟩ := (m.run_cons_eq_some).mp hrun
      have next := preserved s trace i s' out initial follows.1 hstep
      simpa using ih (follows.2 _ hstep) next hrest

end Machine

end CacheAction
