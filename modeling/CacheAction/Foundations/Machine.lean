import Mathlib.Data.List.Induction
import Mathlib.Tactic.Basic

/-!
# Guarded machines with outputs

A component that takes one step at a time is a *guarded, executable* step
function: `step s i` is `some (s', out)` when the input `i` is enabled in the
state `s`, and `none` otherwise.  The outputs of the steps of a run, in order,
are its trace.

Two kinds of statements are made about runs:

* an *invariant* relates the current state to the trace so far
  (`run_invariant`), possibly under a condition that every step of the run
  meets (`run_invariant_of_meets`);
* an *ordering* property says of every output what has been emitted before it
  (`Guarded`, `run_guarded`).

Both are proved from a single step.  `meets_of_guarded` goes the other way: it
recovers the condition from the trace.  `run_related` compares the trace with the
inputs, and `exists_step_of_run` finds the step from which an output comes.
-/

namespace CacheAction

universe u v w

/-- A guarded step function with outputs. -/
structure Machine (σ : Type u) (ι : Type v) (ω : Type w) where
  step : σ → ι → Option (σ × List ω)

/-- Every output `e` of the trace is allowed by `G` after what precedes it. -/
def Guarded {ω : Type w} (G : List ω → ω → Prop) (trace : List ω) : Prop :=
  ∀ pre e post, trace = pre ++ e :: post → G pre e

section Guarded

variable {ω : Type w} {G : List ω → ω → Prop}

@[simp] theorem guarded_nil : Guarded G [] := by
  intro pre e post h
  simp at h

/-- A guarded trace stays guarded when one more allowed output is appended. -/
theorem Guarded.concat {trace : List ω} (guarded : Guarded G trace) {e : ω}
    (allowed : G trace e) : Guarded G (trace ++ [e]) := by
  intro pre x post h
  rcases List.eq_nil_or_concat post with rfl | ⟨init, last, rfl⟩
  · obtain ⟨rfl, hx⟩ := List.append_inj' h rfl
    cases hx
    exact allowed
  · have hsplit : trace ++ [e] = (pre ++ x :: init) ++ [last] := by
      simpa using h
    obtain ⟨rfl, -⟩ := List.append_inj' hsplit rfl
    exact guarded pre x init rfl

/-- Appending the outputs of one step: each is checked after the ones before
it. -/
theorem Guarded.append {trace : List ω} (guarded : Guarded G trace) :
    ∀ {out : List ω}, (∀ pre e post, out = pre ++ e :: post → G (trace ++ pre) e) →
      Guarded G (trace ++ out) := by
  intro out allowed
  induction out using List.reverseRecOn with
  | nil => simpa using guarded
  | append_singleton init last ih =>
      have hinit : Guarded G (trace ++ init) := by
        apply ih
        intro pre e post h
        exact allowed pre e (post ++ [last]) (by simp [h])
      rw [← List.append_assoc]
      exact hinit.concat (allowed init last [] rfl)

/-- A prefix of a guarded trace is guarded. -/
theorem Guarded.left {first second : List ω} (guarded : Guarded G (first ++ second)) :
    Guarded G first := by
  intro pre e post h
  apply guarded pre e (post ++ second)
  rw [h, List.append_assoc, List.cons_append]

/-- In a guarded trace, every output is allowed where it stands. -/
theorem Guarded.allowed {trace out : List ω} (guarded : Guarded G (trace ++ out))
    {pre post : List ω} {e : ω} (h : out = pre ++ e :: post) : G (trace ++ pre) e := by
  apply guarded (trace ++ pre) e post
  rw [h, List.append_assoc]

end Guarded

namespace Machine

variable {σ : Type u} {ι : Type v} {ω : Type w} (m : Machine σ ι ω)

/-- Feed a list of inputs, collecting the outputs; `none` as soon as an input
is disabled. -/
def run : σ → List ι → Option (σ × List ω)
  | s, [] => some (s, [])
  | s, i :: rest =>
      (m.step s i).bind fun p => (run p.1 rest).map fun q => (q.1, p.2 ++ q.2)

theorem run_cons (s : σ) (i : ι) (rest : List ι) :
    m.run s (i :: rest) =
      (m.step s i).bind fun p => (m.run p.1 rest).map fun q => (q.1, p.2 ++ q.2) :=
  rfl

/-- A run that starts with the input `i` is a step followed by a run. -/
theorem run_cons_eq_some {s t : σ} {i : ι} {rest : List ι} {trace : List ω} :
    m.run s (i :: rest) = some (t, trace) ↔
      ∃ s' out tail, m.step s i = some (s', out) ∧
        m.run s' rest = some (t, tail) ∧ trace = out ++ tail := by
  rw [run_cons, Option.bind_eq_some_iff]
  constructor
  · rintro ⟨⟨s', out⟩, hstep, hrun⟩
    rw [Option.map_eq_some_iff] at hrun
    obtain ⟨⟨t', tail⟩, hrest, heq⟩ := hrun
    cases heq
    exact ⟨s', out, tail, hstep, hrest, rfl⟩
  · rintro ⟨s', out, tail, hstep, hrest, rfl⟩
    exact ⟨(s', out), hstep, by simp [hrest]⟩

/-- Runs compose, and so do their traces. -/
theorem run_append {s s' t : σ} {is js : List ι} {trace tail : List ω}
    (first : m.run s is = some (s', trace)) (second : m.run s' js = some (t, tail)) :
    m.run s (is ++ js) = some (t, trace ++ tail) := by
  induction is generalizing s trace with
  | nil =>
      cases first
      simpa using second
  | cons i rest ih =>
      obtain ⟨s₁, out, tail₁, hstep, hrest, rfl⟩ := (m.run_cons_eq_some).mp first
      rw [List.cons_append, run_cons_eq_some]
      exact ⟨s₁, out, tail₁ ++ tail, hstep, ih hrest, by simp⟩

/-- Every step taken while feeding `is` from `s` satisfies `C` in the state
before it. -/
def Meets (C : σ → ι → Prop) : σ → List ι → Prop
  | _, [] => True
  | s, i :: rest => C s i ∧ ∀ p, m.step s i = some p → Meets C p.1 rest

theorem meets_of_forall {C : σ → ι → Prop} {is : List ι} (always : ∀ i ∈ is, ∀ s, C s i)
    (s : σ) : m.Meets C s is := by
  induction is generalizing s with
  | nil => trivial
  | cons i rest ih =>
      obtain ⟨first, others⟩ := List.forall_mem_cons.mp always
      exact ⟨first s, fun p _ => ih others p.1⟩

/-- A condition along a run is a condition along its first part and, from where
that part ends, along its second part. -/
theorem meets_append {C : σ → ι → Prop} {s t : σ} {is js : List ι} {trace : List ω}
    (hrun : m.run s is = some (t, trace)) (first : m.Meets C s is) (second : m.Meets C t js) :
    m.Meets C s (is ++ js) := by
  induction is generalizing s trace with
  | nil =>
      cases hrun
      exact second
  | cons i rest ih =>
      obtain ⟨s', out, tail, hstep, hrest, -⟩ := (m.run_cons_eq_some).mp hrun
      refine ⟨first.1, fun p hp => ?_⟩
      obtain rfl : (s', out) = p := Option.some.inj (hstep.symm.trans hp)
      exact ih hrest (first.2 _ hstep)

/-- **The run rule.**  What one step preserves, under a condition on the state
before it, a run whose steps all meet the condition preserves. -/
theorem run_invariant_of_meets {C : σ → ι → Prop} {I : σ → List ω → Prop}
    (preserved : ∀ s trace i s' out, I s trace → C s i →
      m.step s i = some (s', out) → I s' (trace ++ out))
    {s t : σ} {is : List ι} {trace tail : List ω}
    (meets : m.Meets C s is) (initial : I s trace)
    (hrun : m.run s is = some (t, tail)) : I t (trace ++ tail) := by
  induction is generalizing s trace tail with
  | nil =>
      cases hrun
      simpa using initial
  | cons i rest ih =>
      obtain ⟨s', out, tail', hstep, hrest, rfl⟩ := (m.run_cons_eq_some).mp hrun
      have next := preserved s trace i s' out initial meets.1 hstep
      simpa using ih (meets.2 _ hstep) next hrest

/-- The run rule without a condition. -/
theorem run_invariant {I : σ → List ω → Prop}
    (preserved : ∀ s trace i s' out, I s trace →
      m.step s i = some (s', out) → I s' (trace ++ out))
    {s t : σ} {is : List ι} {trace tail : List ω}
    (initial : I s trace) (hrun : m.run s is = some (t, tail)) :
    I t (trace ++ tail) :=
  m.run_invariant_of_meets (C := fun _ _ => True)
    (fun s trace i s' out hI _ hstep => preserved s trace i s' out hI hstep)
    (m.meets_of_forall (fun _ _ _ => trivial) s) initial hrun

/-- The run rule for a machine that is never stuck while the invariant holds:
every list of inputs has a run. -/
theorem run_total {I : σ → List ω → Prop}
    (enabled : ∀ s trace i, I s trace →
      ∃ s' out, m.step s i = some (s', out) ∧ I s' (trace ++ out))
    (is : List ι) {s : σ} {trace : List ω} (initial : I s trace) :
    ∃ t tail, m.run s is = some (t, tail) ∧ I t (trace ++ tail) := by
  induction is generalizing s trace with
  | nil => exact ⟨s, [], rfl, by simpa using initial⟩
  | cons i rest ih =>
      obtain ⟨s', out, hstep, next⟩ := enabled s trace i initial
      obtain ⟨t, tail, hrest, last⟩ := ih next
      refine ⟨t, out ++ tail, ?_, by simpa using last⟩
      rw [run_cons_eq_some]
      exact ⟨s', out, tail, hstep, hrest, rfl⟩

/-- An output comes from a step, and what precedes it comes from the run up to that step
and from the step itself. -/
theorem exists_step_of_run {s t : σ} {is : List ι} {pre post : List ω} {e : ω}
    (hrun : m.run s is = some (t, pre ++ e :: post)) :
    ∃ before i s₁ s₂ trace first rest, before ++ [i] <+: is ∧
      m.run s before = some (s₁, trace) ∧ m.step s₁ i = some (s₂, first ++ e :: rest) ∧
      pre = trace ++ first := by
  induction is generalizing s pre with
  | nil =>
      have nothing : pre ++ e :: post = [] := (Prod.ext_iff.mp (Option.some.inj hrun)).2.symm
      simp at nothing
  | cons i rest ih =>
      obtain ⟨s', out, tail, hstep, hrest, split⟩ := (m.run_cons_eq_some).mp hrun
      -- the output is one of the later steps, once those of this step are taken off
      have later : ∀ pre', tail = pre' ++ e :: post → pre = out ++ pre' →
          ∃ before j s₁ s₂ trace first rest', before ++ [j] <+: i :: rest ∧
            m.run s before = some (s₁, trace) ∧ m.step s₁ j = some (s₂, first ++ e :: rest') ∧
            pre = trace ++ first := by
        rintro pre' rfl rfl
        obtain ⟨before, j, s₁, s₂, trace, first, rest', fits, ran, emits, rfl⟩ := ih hrest
        refine ⟨i :: before, j, s₁, s₂, out ++ trace, first, rest', ?_, ?_, emits, ?_⟩
        · exact List.cons_prefix_cons.mpr ⟨rfl, fits⟩
        · exact (m.run_cons_eq_some).mpr ⟨s', out, trace, hstep, ran, rfl⟩
        · rw [List.append_assoc]
      rcases List.append_eq_append_iff.mp split with ⟨as, outs, tails⟩ | ⟨bs, pres, posts⟩
      · rcases as with _ | ⟨a, as⟩
        · rw [List.append_nil] at outs
          exact later [] tails.symm (by rw [outs, List.append_nil])
        · obtain ⟨rfl, -⟩ := List.cons.inj tails
          refine ⟨[], i, s, s', [], pre, as, ?_, rfl, ?_, rfl⟩
          · exact List.cons_prefix_cons.mpr ⟨rfl, List.nil_prefix⟩
          · rw [hstep, outs]
      · exact later bs posts pres

/-- When every step makes a measure smaller, the measure bounds the length of a
run. -/
theorem run_bounded {I : σ → Prop} {f : σ → ℕ}
    (decreases : ∀ s i s' out, I s → m.step s i = some (s', out) → I s' ∧ f s' < f s)
    {s t : σ} {is : List ι} {trace : List ω} (initial : I s)
    (hrun : m.run s is = some (t, trace)) : I t ∧ is.length + f t ≤ f s := by
  induction is generalizing s trace with
  | nil =>
      cases hrun
      exact ⟨initial, by simp⟩
  | cons i rest ih =>
      obtain ⟨s', out, tail, hstep, hrest, -⟩ := (m.run_cons_eq_some).mp hrun
      obtain ⟨next, less⟩ := decreases s i s' out initial hstep
      obtain ⟨last, bound⟩ := ih next hrest
      refine ⟨last, ?_⟩
      rw [List.length_cons]
      omega

/-- What holds between the inputs and the outputs of every step, and adds up, holds between
those of a run. -/
theorem run_related {R : List ι → List ω → Prop} (nothing : R [] [])
    (adds : ∀ s i s' out rest tail, m.step s i = some (s', out) → R rest tail →
      R (i :: rest) (out ++ tail))
    {s t : σ} {is : List ι} {trace : List ω} (hrun : m.run s is = some (t, trace)) :
    R is trace := by
  induction is generalizing s trace with
  | nil =>
      cases hrun
      exact nothing
  | cons i rest ih =>
      obtain ⟨s', out, tail, hstep, hrest, rfl⟩ := (m.run_cons_eq_some).mp hrun
      exact adds s i s' out rest tail hstep (ih hrest)

/-- An ordering property of traces, from an invariant that justifies each
output at the step that emits it. -/
theorem run_guarded {C : σ → ι → Prop} {I : σ → List ω → Prop}
    {G : List ω → ω → Prop}
    (preserved : ∀ s trace i s' out, I s trace → C s i →
      m.step s i = some (s', out) → I s' (trace ++ out))
    (emits : ∀ s trace i s' out, I s trace → C s i → m.step s i = some (s', out) →
      ∀ pre e post, out = pre ++ e :: post → G (trace ++ pre) e)
    {s t : σ} {is : List ι} {trace : List ω}
    (meets : m.Meets C s is) (initial : I s [])
    (hrun : m.run s is = some (t, trace)) : Guarded G trace := by
  have both : I t ([] ++ trace) ∧ Guarded G ([] ++ trace) :=
    m.run_invariant_of_meets (I := fun s trace => I s trace ∧ Guarded G trace)
      (fun s trace i s' out h hC hstep =>
        ⟨preserved s trace i s' out h.1 hC hstep,
          h.2.append (emits s trace i s' out h.1 hC hstep)⟩)
      meets ⟨initial, guarded_nil⟩ hrun
  simpa using both.2

/-- **The converse rule.**  When every step outside the condition emits an output
that is not allowed, a run with a guarded trace meets the condition. -/
theorem meets_of_guarded {C : σ → ι → Prop} {I : σ → List ω → Prop}
    {G : List ω → ω → Prop}
    (preserved : ∀ s trace i s' out, I s trace →
      m.step s i = some (s', out) → I s' (trace ++ out))
    (detects : ∀ s trace i s' out, I s trace → m.step s i = some (s', out) →
      Guarded G (trace ++ out) → C s i)
    {s t : σ} {is : List ι} {trace tail : List ω} (initial : I s trace)
    (hrun : m.run s is = some (t, tail)) (guarded : Guarded G (trace ++ tail)) :
    m.Meets C s is := by
  induction is generalizing s trace tail with
  | nil => trivial
  | cons i rest ih =>
      obtain ⟨s', out, tail', hstep, hrest, rfl⟩ := (m.run_cons_eq_some).mp hrun
      rw [← List.append_assoc] at guarded
      refine ⟨detects s trace i s' out initial hstep guarded.left, ?_⟩
      intro p hp
      obtain rfl : (s', out) = p := Option.some.inj (hstep.symm.trans hp)
      exact ih (preserved s trace i s' out initial hstep) hrest guarded

end Machine

end CacheAction
