import CacheAction.Foundations.Machine
import Mathlib.Data.Prod.Lex
import Mathlib.Order.WellFounded

/-!
# Machines that come to rest

Some inputs of a machine are its *own* work: nobody has to ask for them, they happen
sooner or later.  A machine *rests* when none of them is enabled.  When every own step
makes a measure smaller, in any well-founded order, a machine that is left alone

* does not work for ever (`not_forever`), and
* rests after some of its own steps, whatever it has done before (`exists_rest`).

What holds in every state of rest that can be reached is then what the machine is
bound to achieve (`boundTo`).
-/

namespace CacheAction

namespace Machine

universe u v w x

variable {σ : Type u} {ι : Type v} {ω : Type w} (m : Machine σ ι ω) (own : ι → Prop)

/-- One of its own steps leads from `s` to `t`. -/
def Works (t s : σ) : Prop :=
  ∃ i out, own i ∧ m.step s i = some (t, out)

/-- None of its own steps is enabled. -/
def Rests (s : σ) : Prop :=
  ∀ i, own i → m.step s i = none

variable {m own}

/-- Own steps that make a measure smaller. -/
theorem wellFounded_works {β : Type x} [LT β] [WellFoundedLT β] (measure : σ → β)
    (decreases : ∀ s i s' out, own i → m.step s i = some (s', out) → measure s' < measure s) :
    WellFounded (m.Works own) := by
  refine Subrelation.wf ?_ (InvImage.wf measure wellFounded_lt)
  rintro t s ⟨i, out, isOwn, hstep⟩
  exact decreases s i t out isOwn hstep

/-- The machine does not work for ever. -/
theorem not_forever (wf : WellFounded (m.Works own)) (states : ℕ → σ) :
    ¬ ∀ n, m.Works own (states (n + 1)) (states n) := by
  intro works
  have : IsWellFounded σ (m.Works own) := ⟨wf⟩
  obtain ⟨n, stops⟩ := WellFounded.not_rel_apply_succ (r := m.Works own) states
  exact stops (works n)

/-- From every state, some own steps lead to rest. -/
theorem exists_rest (wf : WellFounded (m.Works own)) (s : σ) :
    ∃ is t trace, (∀ i ∈ is, own i) ∧ m.run s is = some (t, trace) ∧ m.Rests own t := by
  induction s using wf.induction with
  | _ s ih =>
      by_cases rests : m.Rests own s
      · exact ⟨[], s, [], by simp, rfl, rests⟩
      · simp only [Rests, not_forall] at rests
        obtain ⟨i, isOwn, enabled⟩ := rests
        obtain ⟨⟨s', out⟩, hstep⟩ := Option.ne_none_iff_exists'.mp enabled
        obtain ⟨is, t, trace, allOwn, hrun, rests⟩ := ih s' ⟨i, out, isOwn, hstep⟩
        refine ⟨i :: is, t, out ++ trace, List.forall_mem_cons.mpr ⟨isOwn, allOwn⟩, ?_, rests⟩
        rw [run_cons_eq_some]
        exact ⟨s', out, trace, hstep, hrun, rfl⟩

/-- What the machine is bound to achieve from `s`, left alone: it does not work for
ever, at any time some more own steps lead to rest, and whenever it rests, `Q` holds of
its state and of its trace since `s`. -/
structure BoundTo (m : Machine σ ι ω) (own : ι → Prop) (Q : σ → List ω → Prop) (s : σ) :
    Prop where
  notForever : ∀ states : ℕ → σ, states 0 = s → ¬ ∀ n, m.Works own (states (n + 1)) (states n)
  comesToRest : ∀ is t tail, (∀ i ∈ is, own i) → m.run s is = some (t, tail) →
    ∃ js u more, (∀ j ∈ js, own j) ∧ m.run t js = some (u, more) ∧ m.Rests own u
  atRest : ∀ is t tail, (∀ i ∈ is, own i) → m.run s is = some (t, tail) → m.Rests own t → Q t tail

/-- **The rule.**  An invariant of the own steps that gives `Q` at rest. -/
theorem boundTo {I Q : σ → List ω → Prop} (wf : WellFounded (m.Works own))
    (preserved : ∀ s trace i s' out, I s trace → own i → m.step s i = some (s', out) →
      I s' (trace ++ out))
    (achieved : ∀ s trace, I s trace → m.Rests own s → Q s trace) {s : σ} (initial : I s []) :
    m.BoundTo own Q s where
  notForever states _ := not_forever wf states
  comesToRest _ t _ _ _ := exists_rest wf t
  atRest is t tail allOwn hrun rests := by
    have kept := m.run_invariant_of_meets (C := fun _ i => own i)
      (fun s trace i s' out hI isOwn hstep => preserved s trace i s' out hI isOwn hstep)
      (m.meets_of_forall (fun i member _ => allOwn i member) s) initial hrun
    rw [List.nil_append] at kept
    exact achieved t tail kept rests

end Machine

end CacheAction
