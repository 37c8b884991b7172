import CacheAction.Foundations.Environment
import Mathlib.Data.List.Nodup
import Mathlib.Data.List.Perm.Basic

/-!
# Tasks that run side by side

A program spawns tasks.  Each has a name and runs the machine of its name; the
steps of the tasks interleave in any order.  The history of the program records
every output of a task together with the name of the task.

`own` takes out of a history what the tasks with a given key have put into it.
As long as no two tasks have the same key, this is the trace of a run of the
machine of that one task, whatever the other tasks have done in between: that is
what `Tasks` says, for a list of tasks and their states.  It is kept when a task
is spawned and when a task takes a step; what has been proved about the runs of
one machine thereby holds for every task of the program.

The same goes for what is assumed of the environment (`env`): an assumption about
the inputs of the program, task by task, is one about the run of each task.
-/

namespace CacheAction

universe u v w x y

section Tasks

variable {ν : Type u} {τ : Type v} {ι : Type w} {ω : Type x} {κ : Type y} [DecidableEq κ]
  (key : ν → κ)

/-- What the tasks with the key `k` have put into the history. -/
def own (k : κ) (history : List (ν × ω)) : List ω :=
  history.filterMap fun entry => if key entry.1 = k then some entry.2 else none

@[simp] theorem own_nil (k : κ) : own key k ([] : List (ν × ω)) = [] := rfl

theorem own_append (k : κ) (history other : List (ν × ω)) :
    own key k (history ++ other) = own key k history ++ own key k other :=
  List.filterMap_append

theorem own_cons_self (name : ν) (o : ω) (history : List (ν × ω)) :
    own key (key name) ((name, o) :: history) = o :: own key (key name) history :=
  List.filterMap_cons_some (if_pos rfl)

/-- The outputs of one step of the task `name` are its own. -/
theorem own_outputs (name : ν) (out : List ω) :
    own key (key name) (out.map (name, ·)) = out := by
  induction out with
  | nil => rfl
  | cons o rest ih => rw [List.map_cons, own_cons_self, ih]

/-- They belong to no task with another key. -/
theorem own_outputs_of_ne {k : κ} {name : ν} (other : key name ≠ k) (out : List ω) :
    own key k (out.map (name, ·)) = [] := by
  rw [own, List.filterMap_eq_nil_iff]
  intro entry member
  obtain ⟨o, -, rfl⟩ := List.mem_map.mp member
  exact if_neg other

theorem mem_own {k : κ} {history : List (ν × ω)} {o : ω} :
    o ∈ own key k history ↔ ∃ name, key name = k ∧ (name, o) ∈ history := by
  simp only [own, List.mem_filterMap, Option.ite_none_right_eq_some, Option.some.injEq,
    Prod.exists]
  constructor
  · rintro ⟨name, o, member, same, rfl⟩
    exact ⟨name, same, member⟩
  · rintro ⟨name, same, member⟩
    exact ⟨name, o, member, same, rfl⟩

variable (program : ν → Machine τ ι ω) (env : ν → τ → List ω → ι → Prop) (start : τ)

/-- The history of the tasks in the list: each has come to its state by the run
that the history shows, in its environment. -/
structure Tasks (history : List (ν × ω)) (tasks : List (ν × τ)) : Prop where
  ran : ∀ task ∈ tasks, ∃ is,
    (program task.1).run start is = some (task.2, own key (key task.1) history) ∧
      (program task.1).Follows (env task.1) start [] is
  distinct : (tasks.map fun task => key task.1).Nodup
  /-- Nothing has been put into the history by anyone else. -/
  theirs : ∀ entry ∈ history, ∃ task ∈ tasks, task.1 = entry.1

namespace Tasks

variable {key program env start} {history : List (ν × ω)} {tasks other : List (ν × τ)}

theorem initial : Tasks key program env start [] [] where
  ran := by simp
  distinct := List.nodup_nil
  theirs := by simp

/-- The order of the tasks does not matter. -/
theorem perm (known : Tasks key program env start history tasks) (same : tasks.Perm other) :
    Tasks key program env start history other where
  ran := fun task member => known.ran task (same.mem_iff.mpr member)
  distinct := (same.map _).nodup_iff.mp known.distinct
  theirs := fun entry member => by
    obtain ⟨task, found, name⟩ := known.theirs entry member
    exact ⟨task, same.mem_iff.mp found, name⟩

/-- What a task that has not been spawned has done. -/
theorem own_of_fresh (known : Tasks key program env start history tasks) {k : κ}
    (fresh : ∀ task ∈ tasks, key task.1 ≠ k) : own key k history = [] := by
  rw [own, List.filterMap_eq_nil_iff]
  intro entry member
  obtain ⟨task, found, name⟩ := known.theirs entry member
  refine if_neg fun same => fresh task found ?_
  rw [name, same]

/-- Tasks are spawned, under names whose keys are not in use. -/
theorem spawn (known : Tasks key program env start history tasks) (names : List ν)
    (distinct : (((tasks.map Prod.fst) ++ names).map key).Nodup) :
    Tasks key program env start history (tasks ++ names.map (·, start)) where
  ran := by
    intro task member
    rcases List.mem_append.mp member with running | spawned
    · exact known.ran task running
    · obtain ⟨name, new, rfl⟩ := List.mem_map.mp spawned
      -- its history is empty, and so is the run that has brought it to its start
      refine ⟨[], ?_, trivial⟩
      have fresh : ∀ task ∈ tasks, key task.1 ≠ key name := by
        intro task running same
        rw [List.map_append] at distinct
        exact List.disjoint_of_nodup_append distinct
          (List.mem_map.mpr ⟨task.1, List.mem_map.mpr ⟨task, running, rfl⟩, same⟩)
          (List.mem_map_of_mem new)
      rw [known.own_of_fresh fresh]
      rfl
  distinct := by
    simpa [List.map_append, List.map_map, Function.comp_def] using distinct
  theirs := fun entry member => by
    obtain ⟨task, found, name⟩ := known.theirs entry member
    exact ⟨task, List.mem_append_left _ found, name⟩

/-- The first of the tasks takes a step. -/
theorem step_head {name : ν} {t t' : τ} {i : ι} {out : List ω}
    (known : Tasks key program env start history ((name, t) :: other))
    (allowed : env name t (own key (key name) history) i)
    (hstep : (program name).step t i = some (t', out)) :
    Tasks key program env start (history ++ out.map (name, ·)) ((name, t') :: other) where
  ran := by
    intro task member
    rcases List.mem_cons.mp member with rfl | running
    · -- its run grows by the step,
      obtain ⟨is, hrun, follows⟩ := known.ran (name, t) List.mem_cons_self
      have next : (program name).Follows (env name) t (own key (key name) history) [i] :=
        ⟨allowed, fun _ _ => trivial⟩
      refine ⟨is ++ [i], ?_, (program name).follows_append hrun follows next⟩
      have last : (program name).run t [i] = some (t', out) := by
        rw [Machine.run_cons_eq_some]
        exact ⟨t', out, [], hstep, rfl, (List.append_nil out).symm⟩
      rw [own_append, own_outputs]
      exact (program name).run_append hrun last
    · -- and those of the others stay as they are
      have different : key name ≠ key task.1 := by
        intro same
        have distinct := known.distinct
        rw [List.map_cons, List.nodup_cons] at distinct
        exact distinct.1 (List.mem_map.mpr ⟨task, running, same.symm⟩)
      obtain ⟨is, hrun, follows⟩ := known.ran task (List.mem_cons_of_mem _ running)
      refine ⟨is, ?_, follows⟩
      rw [own_append, own_outputs_of_ne key different, List.append_nil]
      exact hrun
  distinct := known.distinct
  theirs := by
    intro entry member
    rcases List.mem_append.mp member with earlier | now
    · obtain ⟨task, found, same⟩ := known.theirs entry earlier
      rcases List.mem_cons.mp found with rfl | running
      · exact ⟨(name, t'), List.mem_cons_self, same⟩
      · exact ⟨task, List.mem_cons_of_mem _ running, same⟩
    · obtain ⟨o, -, rfl⟩ := List.mem_map.mp now
      exact ⟨(name, t'), List.mem_cons_self, rfl⟩

/-- **One task takes a step**: its own run grows by it, and the others have not
moved. -/
theorem step {running : List (ν × τ)} {j : ℕ} {name : ν} {t t' : τ} {i : ι} {out : List ω}
    (known : Tasks key program env start history (running ++ other))
    (found : running[j]? = some (name, t))
    (allowed : env name t (own key (key name) history) i)
    (hstep : (program name).step t i = some (t', out)) :
    Tasks key program env start (history ++ out.map (name, ·))
      (running.set j (name, t') ++ other) := by
  obtain ⟨valid, here⟩ := List.getElem?_eq_some_iff.mp found
  have before : (running ++ other).Perm ((name, t) :: (running.eraseIdx j ++ other)) := by
    rw [← here]
    exact (List.getElem_cons_eraseIdx_perm valid).symm.append_right other
  have after : ((name, t') :: (running.eraseIdx j ++ other)).Perm
      (running.set j (name, t') ++ other) :=
    (List.set_perm_cons_eraseIdx valid _).symm.append_right other
  exact ((known.perm before).step_head allowed hstep).perm after

end Tasks

end Tasks

end CacheAction
