import CacheAction.Foundations.Machine

/-!
# History variables

A property of the runs of a machine may speak of things that its states do not
keep: when something has happened, or where a value has come from.  A *history
variable* is kept next to the state and follows the inputs; the outputs of a
step carry its value after the step.  It takes part in nothing
(`run_withHistory`): the machine with the history variable has the runs of the
machine without it.
-/

namespace CacheAction

universe u v w x

namespace Machine

variable {σ : Type u} {ι : Type v} {ω : Type w} {η : Type x} (m : Machine σ ι ω)
  (update : σ → η → ι → η)

/-- The machine with a history variable, which a step updates from the state
before it and the input. -/
def withHistory : Machine (σ × η) ι (η × ω) where
  step s i :=
    (m.step s.1 i).map fun p =>
      ((p.1, update s.1 s.2 i), p.2.map (Prod.mk (update s.1 s.2 i)))

theorem step_withHistory_eq_some {s s' : σ} {h h' : η} {i : ι} {out : List (η × ω)} :
    (m.withHistory update).step (s, h) i = some ((s', h'), out) ↔
      ∃ out₀, m.step s i = some (s', out₀) ∧ h' = update s h i ∧
        out = out₀.map (Prod.mk h') := by
  unfold withHistory
  rw [Option.map_eq_some_iff]
  constructor
  · rintro ⟨p, hstep, heq⟩
    cases heq
    exact ⟨p.2, hstep, rfl, rfl⟩
  · rintro ⟨out₀, hstep, rfl, rfl⟩
    exact ⟨(s', out₀), hstep, rfl⟩

/-- **A history variable takes part in nothing.** -/
theorem run_withHistory (s : σ) (h : η) (is : List ι) :
    ((m.withHistory update).run (s, h) is).map (fun p => (p.1.1, p.2.map Prod.snd)) =
      m.run s is := by
  induction is generalizing s h with
  | nil => rfl
  | cons i rest ih =>
      rw [run_cons, run_cons]
      cases hstep : m.step s i with
      | none => simp [withHistory, hstep]
      | some p =>
          have recorded := (m.step_withHistory_eq_some update (h := h)).mpr ⟨p.2, hstep, rfl, rfl⟩
          rw [recorded, Option.bind_some, Option.bind_some, ← ih p.1 (update s h i),
            Option.map_map, Option.map_map]
          congr 1
          funext q
          simp [Function.comp_def]

end Machine

end CacheAction
