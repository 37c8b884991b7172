import CacheAction.Foundations.Environment
import Mathlib.Data.Multiset.DershowitzManna
import Mathlib.Order.WellFounded

/-!
# Machines that come to their end in an environment

Whether a machine comes to its end depends on its environment: which inputs it allows
(`E`), as in `Follows`, and which of them get the machine on (`D`).  Others, such as a poll
that is pending, may come in between as often as they like.

`Completes` says that the machine cannot get on for ever, whatever the schedule, and that
it can always get on as long as the goal `Q` has not been reached.  So it reaches the goal
in every run in which it gets on when it can (`Completes.reached`).

The two halves belong together.  That nothing goes on for ever is also true of a machine that
is stuck, and that something is always possible is also true of one that goes round in circles.
Neither half assumes that the environment is fair: a schedule that polls and never lets the
machine get on is a run like any other, and it only follows that such polls are all that is
left in it.

The measure may look at the trace (`completes`), since what a machine has left to do often
depends on what it has done and forgotten.  For a program whose number of tasks changes there
is an order on multisets in which a task may be replaced by any number of smaller ones.
-/

namespace CacheAction

universe u v w x

/-- A sequence of steps that keep a measure or make it smaller, in a well-founded relation,
ends up keeping it. -/
theorem exists_kept {β : Type x} {r : β → β → Prop} (wf : WellFounded r) {a : ℕ → β}
    (steps : ∀ n, a (n + 1) = a n ∨ r (a (n + 1)) (a n)) :
    ∃ n, ∀ k, n ≤ k → a (k + 1) = a k := by
  obtain ⟨_, ⟨n, rfl⟩, least⟩ := wf.has_min (Set.range a) ⟨a 0, 0, rfl⟩
  have same (d : ℕ) : a (n + d) = a n := by
    induction d with
    | zero => rfl
    | succ d ih =>
        refine ((steps (n + d)).resolve_right fun smaller => ?_).trans ih
        rw [ih] at smaller
        exact least _ ⟨n + d + 1, rfl⟩ smaller
  refine ⟨n, fun k le => ?_⟩
  obtain ⟨d, rfl⟩ := Nat.exists_eq_add_of_le le
  exact (same (d + 1)).trans (same d).symm

/-- Of some things side by side, one becomes smaller. -/
theorem isDershowitzMannaLT_set {β : Type x} [Preorder β] {l : List β} {i : ℕ} {b b' : β}
    (found : l[i]? = some b) (less : b' < b) :
    Multiset.IsDershowitzMannaLT (l.set i b' : Multiset β) (l : Multiset β) := by
  obtain ⟨valid, rfl⟩ := List.getElem?_eq_some_iff.mp found
  refine ⟨(l.eraseIdx i : Multiset β), {b'}, {l[i]}, by simp, ?_, ?_, by simpa using less⟩
  · rw [add_comm, Multiset.singleton_add, Multiset.cons_coe]
    exact Multiset.coe_eq_coe.mpr (List.set_perm_cons_eraseIdx valid b')
  · rw [add_comm, Multiset.singleton_add, Multiset.cons_coe]
    exact Multiset.coe_eq_coe.mpr (List.getElem_cons_eraseIdx_perm valid).symm

/-- Less work, in three parts of which the second consists of things side by side. -/
def Less {α : Type u} {β : Type v} {γ : Type w} [Preorder α] [Preorder β] [Preorder γ] :
    α × Multiset β × γ → α × Multiset β × γ → Prop :=
  Prod.Lex (· < ·) (Prod.Lex Multiset.IsDershowitzMannaLT (· < ·))

theorem wellFounded_less {α : Type u} {β : Type v} {γ : Type w} [Preorder α] [Preorder β]
    [Preorder γ] [WellFoundedLT α] [WellFoundedLT β] [WellFoundedLT γ] :
    WellFounded (Less : α × Multiset β × γ → _ → Prop) :=
  wellFounded_lt.prod_lex (Multiset.wellFounded_isDershowitzMannaLT.prod_lex wellFounded_lt)

namespace Machine

variable {σ : Type u} {ι : Type v} {ω : Type w}

/-- A run that does not end, in an environment. -/
structure Endless (m : Machine σ ι ω) (E : σ → List ω → ι → Prop) (s : σ) (trace : List ω) where
  inputs : ℕ → ι
  states : ℕ → σ
  traces : ℕ → List ω
  state_zero : states 0 = s
  trace_zero : traces 0 = trace
  step : ∀ n, ∃ out, m.step (states n) (inputs n) = some (states (n + 1), out) ∧
    traces (n + 1) = traces n ++ out
  allowed : ∀ n, E (states n) (traces n) (inputs n)

/-- The machine comes to its goal, in an environment. -/
structure Completes (m : Machine σ ι ω) (E : σ → List ω → ι → Prop) (D : σ → ι → Prop)
    (Q : σ → List ω → Prop) (s : σ) (trace : List ω) : Prop where
  /-- It does not get on for ever, -/
  settles : ∀ run : m.Endless E s trace, ∃ n, ∀ k, n ≤ k → ¬ D (run.states k) (run.inputs k)
  /-- and it can get on until it has reached the goal. -/
  advances : ∀ is t tail, m.Follows E s trace is → m.run s is = some (t, tail) →
    Q t (trace ++ tail) ∨ ∃ i, E t (trace ++ tail) i ∧ D t i ∧ (m.step t i).isSome

variable {m : Machine σ ι ω} {E : σ → List ω → ι → Prop} {D : σ → ι → Prop}
  {Q : σ → List ω → Prop} {s : σ} {trace : List ω}

/-- What is preserved holds all along a run that does not end. -/
theorem Endless.invariant (run : m.Endless E s trace) {I : σ → List ω → Prop}
    (preserved : ∀ s trace i s' out, I s trace → E s trace i →
      m.step s i = some (s', out) → I s' (trace ++ out))
    (initial : I s trace) (n : ℕ) : I (run.states n) (run.traces n) := by
  induction n with
  | zero =>
      rw [run.state_zero, run.trace_zero]
      exact initial
  | succ n ih =>
      obtain ⟨out, hstep, next⟩ := run.step n
      rw [next]
      exact preserved _ _ _ _ _ ih (run.allowed n) hstep

/-- **The rule.**  A step that gets the machine on makes a measure smaller, the others keep
it, and an invariant says that there is such a step before the goal. -/
theorem completes {β : Type x} {r : β → β → Prop} (wf : WellFounded r)
    (measure : σ → List ω → β) {I : σ → List ω → Prop}
    (preserved : ∀ s trace i s' out, I s trace → E s trace i →
      m.step s i = some (s', out) → I s' (trace ++ out))
    (decreases : ∀ s trace i s' out, I s trace → E s trace i → m.step s i = some (s', out) →
      (¬ D s i ∧ measure s' (trace ++ out) = measure s trace) ∨
        r (measure s' (trace ++ out)) (measure s trace))
    (advances : ∀ s trace, I s trace → Q s trace ∨ ∃ i, E s trace i ∧ D s i ∧ (m.step s i).isSome)
    (initial : I s trace) : m.Completes E D Q s trace where
  settles run := by
    have known (n : ℕ) : (¬ D (run.states n) (run.inputs n) ∧
        measure (run.states (n + 1)) (run.traces (n + 1)) =
          measure (run.states n) (run.traces n)) ∨
        r (measure (run.states (n + 1)) (run.traces (n + 1)))
          (measure (run.states n) (run.traces n)) := by
      obtain ⟨out, hstep, next⟩ := run.step n
      rw [next]
      exact decreases _ _ _ _ _ (run.invariant preserved initial n) (run.allowed n) hstep
    obtain ⟨n, kept⟩ := exists_kept wf
      (a := fun n => measure (run.states n) (run.traces n)) fun n => (known n).imp_left And.right
    refine ⟨n, fun k le => ?_⟩
    rcases known k with ⟨idle, -⟩ | smaller
    · exact idle
    · have same : measure (run.states (k + 1)) (run.traces (k + 1)) =
        measure (run.states k) (run.traces k) := kept k le
      rw [same] at smaller
      exact absurd smaller (wf.asymmetric _ _ smaller)
  advances is t tail follows hrun :=
    advances t (trace ++ tail) (run_invariant_of_follows m preserved follows initial hrun)

/-- **The goal is reached** in every run that gets on again and again before. -/
theorem Completes.reached (completes : m.Completes E D Q s trace) (run : m.Endless E s trace)
    (fair : ∀ n, ¬ Q (run.states n) (run.traces n) →
      ∃ k, n ≤ k ∧ D (run.states k) (run.inputs k)) :
    ∃ n, Q (run.states n) (run.traces n) := by
  obtain ⟨n, idle⟩ := completes.settles run
  refine ⟨n, not_not.mp fun missed => ?_⟩
  obtain ⟨k, le, gets_on⟩ := fair n missed
  exact idle k le gets_on

end Machine

end CacheAction
