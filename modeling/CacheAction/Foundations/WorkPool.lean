import Mathlib.Data.List.Basic
import Mathlib.Data.List.Perm.Basic
import Mathlib.Data.Finset.Lattice.Lemmas
import Mathlib.Data.Finset.Dedup

/-!
# A bounded work pool with a FIFO overflow queue

At most `cap` tasks run at a time.  A task submitted while all slots are taken
waits in a queue, and every retired task lets the first waiting one start.

`WorkPool.Saturated` is the invariant that links the two collections: a task
only waits while every slot is taken.  `WorkPool.Accounts` adds the history of
the pool — what has been submitted, started and retired — and says that

* tasks start in the order of their submission, none being skipped;
* every started task is either still running or retired, exactly once.

A pool whose slots are all free has therefore retired everything that was ever
submitted (`Accounts.retired_of_idle`).

The last section is about submissions without repetitions: `unseen` keeps the
first task of every key that has not been met before.

The tasks of a pool may retire in any order, so the running ones are a multiset by nature; they
are a list here because the programs that use a pool keep one.  The histories are lists because
their order is the point: `queue` says that the started tasks, followed by the waiting ones,
are the submitted ones *in this order*.  Being an equation of lists it contains that nobody is
skipped, started twice or forgotten.
-/

namespace CacheAction

universe u v

/-- The running tasks and the queue of waiting ones. -/
structure WorkPool (α : Type u) where
  running : List α
  pending : List α

namespace WorkPool

variable {α : Type u}

/-- Start the task if a slot is free, queue it otherwise.  The second component
lists the tasks started. -/
def submit (cap : ℕ) (pool : WorkPool α) (task : α) : WorkPool α × List α :=
  if pool.running.length < cap then
    ({ pool with running := pool.running ++ [task] }, [task])
  else ({ pool with pending := pool.pending ++ [task] }, [])

/-- Submit a batch in order. -/
def submitAll (cap : ℕ) : WorkPool α → List α → WorkPool α × List α
  | pool, [] => (pool, [])
  | pool, task :: rest =>
      let first := submit cap pool task
      let others := submitAll cap first.1 rest
      (others.1, first.2 ++ others.2)

/-- Start the first waiting task, if there is one. -/
def startNext (pool : WorkPool α) : WorkPool α × List α :=
  match pool.pending with
  | [] => (pool, [])
  | task :: rest => ({ running := pool.running ++ [task], pending := rest }, [task])

/-- The `i`-th running task has finished. -/
def retire (pool : WorkPool α) (i : ℕ) : WorkPool α × List α :=
  startNext { pool with running := pool.running.eraseIdx i }

/-- A task only waits while all slots are taken. -/
structure Saturated (cap : ℕ) (pool : WorkPool α) : Prop where
  bounded : pool.running.length ≤ cap
  busy : pool.pending ≠ [] → pool.running.length = cap

section Steps

variable {cap : ℕ} {pool : WorkPool α}

theorem saturated_empty (cap : ℕ) : Saturated cap (⟨[], []⟩ : WorkPool α) :=
  ⟨by simp, by simp⟩

theorem Saturated.pending_eq_nil (sat : Saturated cap pool)
    (free : pool.running.length < cap) : pool.pending = [] := by
  by_contra waiting
  have := sat.busy waiting
  omega

/-- Nothing waits in a pool whose slots are all free. -/
theorem Saturated.pending_eq_nil_of_idle (sat : Saturated cap pool) (hcap : 0 < cap)
    (idle : pool.running = []) : pool.pending = [] :=
  sat.pending_eq_nil (by simpa [idle] using hcap)

theorem Saturated.submit (sat : Saturated cap pool) (task : α) :
    Saturated cap (pool.submit cap task).1 := by
  unfold WorkPool.submit
  split
  · rename_i free
    have := sat.pending_eq_nil free
    refine ⟨?_, by simp [this]⟩
    rw [List.length_append, List.length_singleton]
    omega
  · rename_i full
    have := sat.bounded
    exact ⟨sat.bounded, fun _ => by simp only; omega⟩

/-- The queue discipline of a submission: what starts, followed by what waits,
is what waited before followed by the new task. -/
theorem submit_queue (sat : Saturated cap pool) (task : α) :
    (pool.submit cap task).2 ++ (pool.submit cap task).1.pending =
      pool.pending ++ [task] := by
  unfold submit
  split
  · rename_i free
    simp [sat.pending_eq_nil free]
  · simp

theorem submit_running (cap : ℕ) (pool : WorkPool α) (task : α) :
    (pool.submit cap task).1.running = pool.running ++ (pool.submit cap task).2 := by
  unfold submit
  split <;> simp

theorem Saturated.submitAll (sat : Saturated cap pool) (tasks : List α) :
    Saturated cap (pool.submitAll cap tasks).1 := by
  induction tasks generalizing pool with
  | nil => exact sat
  | cons task rest ih => exact ih (sat.submit task)

theorem submitAll_queue (sat : Saturated cap pool) (tasks : List α) :
    (pool.submitAll cap tasks).2 ++ (pool.submitAll cap tasks).1.pending =
      pool.pending ++ tasks := by
  induction tasks generalizing pool with
  | nil => simp [submitAll]
  | cons task rest ih =>
      have first := submit_queue sat task
      have others := ih (sat.submit task)
      calc (pool.submitAll cap (task :: rest)).2 ++
            (pool.submitAll cap (task :: rest)).1.pending
          = (pool.submit cap task).2 ++
              (((pool.submit cap task).1.submitAll cap rest).2 ++
                ((pool.submit cap task).1.submitAll cap rest).1.pending) := by
            simp [submitAll]
        _ = ((pool.submit cap task).2 ++ (pool.submit cap task).1.pending) ++ rest := by
            rw [others, List.append_assoc]
        _ = pool.pending ++ task :: rest := by
            rw [first, List.append_assoc, List.singleton_append]

theorem submitAll_running (cap : ℕ) (pool : WorkPool α) (tasks : List α) :
    (pool.submitAll cap tasks).1.running =
      pool.running ++ (pool.submitAll cap tasks).2 := by
  induction tasks generalizing pool with
  | nil => simp [submitAll]
  | cons task rest ih => simp [submitAll, ih, submit_running]

theorem startNext_queue (pool : WorkPool α) :
    pool.startNext.2 ++ pool.startNext.1.pending = pool.pending := by
  unfold startNext
  split <;> simp_all

theorem startNext_running (pool : WorkPool α) :
    pool.startNext.1.running = pool.running ++ pool.startNext.2 := by
  unfold startNext
  split <;> simp

theorem retire_queue (pool : WorkPool α) (i : ℕ) :
    (pool.retire i).2 ++ (pool.retire i).1.pending = pool.pending :=
  startNext_queue _

theorem retire_running (pool : WorkPool α) (i : ℕ) :
    (pool.retire i).1.running = pool.running.eraseIdx i ++ (pool.retire i).2 :=
  startNext_running _

/-- A freed slot is taken at once by a waiting task. -/
theorem Saturated.retire (sat : Saturated cap pool) {i : ℕ}
    (valid : i < pool.running.length) : Saturated cap (pool.retire i).1 := by
  have hbound := sat.bounded
  have hlen : (pool.running.eraseIdx i).length = pool.running.length - 1 :=
    List.length_eraseIdx_of_lt valid
  unfold WorkPool.retire startNext
  split
  · rename_i none_waiting
    simp only at none_waiting
    exact ⟨by simp only; omega, by simp [none_waiting]⟩
  · rename_i task rest waiting
    simp only at waiting
    have hfull := sat.busy (by simp [waiting])
    have hlen' : (pool.running.eraseIdx i ++ [task]).length = cap := by
      rw [List.length_append, hlen, List.length_singleton]
      omega
    exact ⟨le_of_eq hlen', fun _ => hlen'⟩

end Steps

/-- The history of a pool: what was submitted, started and retired. -/
structure Accounts (cap : ℕ) (pool : WorkPool α) (submitted started retired : List α) :
    Prop where
  saturated : Saturated cap pool
  queue : started ++ pool.pending = submitted
  running : started.Perm (retired ++ pool.running)

namespace Accounts

variable {cap : ℕ} {pool : WorkPool α} {submitted started retired : List α}

theorem initial (cap : ℕ) : Accounts cap (⟨[], []⟩ : WorkPool α) [] [] [] :=
  ⟨saturated_empty cap, rfl, List.Perm.refl _⟩

theorem submitAll (acc : Accounts cap pool submitted started retired) (tasks : List α) :
    Accounts cap (pool.submitAll cap tasks).1 (submitted ++ tasks)
      (started ++ (pool.submitAll cap tasks).2) retired where
  saturated := acc.saturated.submitAll tasks
  queue := by
    rw [List.append_assoc, submitAll_queue acc.saturated, ← acc.queue, List.append_assoc]
  running := by
    rw [submitAll_running, ← List.append_assoc]
    exact acc.running.append_right _

theorem retire (acc : Accounts cap pool submitted started retired) {i : ℕ} {task : α}
    (get : pool.running[i]? = some task) :
    Accounts cap (pool.retire i).1 submitted (started ++ (pool.retire i).2)
      (retired ++ [task]) := by
  obtain ⟨valid, rfl⟩ := List.getElem?_eq_some_iff.mp get
  refine ⟨acc.saturated.retire valid, ?_, ?_⟩
  · rw [List.append_assoc, retire_queue, acc.queue]
  · have taken : pool.running.Perm (pool.running[i] :: pool.running.eraseIdx i) :=
      (List.getElem_cons_eraseIdx_perm valid).symm
    have split : started.Perm (retired ++ [pool.running[i]] ++ pool.running.eraseIdx i) := by
      rw [List.append_assoc]
      exact acc.running.trans (taken.append_left retired)
    rw [retire_running, ← List.append_assoc]
    exact split.append_right _

/-- **An idle pool has retired everything that was submitted**, each task once. -/
theorem retired_of_idle (acc : Accounts cap pool submitted started retired)
    (hcap : 0 < cap) (idle : pool.running = []) :
    pool.pending = [] ∧ started = submitted ∧ submitted.Perm retired := by
  have none_waiting := acc.saturated.pending_eq_nil_of_idle hcap idle
  have all_started : started = submitted := by simpa [none_waiting] using acc.queue
  refine ⟨none_waiting, all_started, ?_⟩
  simpa [idle, all_started] using acc.running

end Accounts

end WorkPool

/-! ## First occurrences -/

section Unseen

variable {α : Type u} {κ : Type v} [DecidableEq κ] (key : α → κ)

/-- The tasks whose key is neither in `seen` nor the key of an earlier task. -/
def unseen : Finset κ → List α → List α
  | _, [] => []
  | seen, a :: rest =>
      if key a ∈ seen then unseen seen rest
      else a :: unseen (insert (key a) seen) rest

/-- They are tasks of the batch, in its order. -/
theorem unseen_sublist (seen : Finset κ) (tasks : List α) :
    (unseen key seen tasks).Sublist tasks := by
  induction tasks generalizing seen with
  | nil => exact List.Sublist.refl _
  | cons a rest ih =>
      unfold unseen
      split
      · exact (ih seen).cons a
      · exact (ih (insert (key a) seen)).cons_cons a

/-- The keys met after a batch are those met before and those of the batch. -/
theorem union_keys_unseen (seen : Finset κ) (tasks : List α) :
    seen ∪ ((unseen key seen tasks).map key).toFinset =
      seen ∪ (tasks.map key).toFinset := by
  induction tasks generalizing seen with
  | nil => rfl
  | cons a rest ih =>
      unfold unseen
      split
      · rename_i known
        rw [ih seen, List.map_cons, List.toFinset_cons, Finset.union_insert,
          Finset.insert_eq_of_mem (Finset.mem_union_left _ known)]
      · simpa only [List.map_cons, List.toFinset_cons, Finset.union_insert,
          Finset.insert_union] using ih (insert (key a) seen)

/-- The unseen tasks of two batches in a row: those of the first, then those of
the second whose keys are not met in the first. -/
theorem unseen_append (seen : Finset κ) (tasks others : List α) :
    unseen key seen (tasks ++ others) =
      unseen key seen tasks ++ unseen key (seen ∪ (tasks.map key).toFinset) others := by
  induction tasks generalizing seen with
  | nil => simp [unseen]
  | cons a rest ih =>
      rw [List.cons_append, unseen, unseen, List.map_cons, List.toFinset_cons, Finset.union_insert]
      split
      · rename_i known
        rw [ih, Finset.insert_eq_of_mem (Finset.mem_union_left _ known)]
      · rw [ih, Finset.insert_union, List.cons_append]

theorem key_notMem_of_mem_unseen {seen : Finset κ} {tasks : List α} {a : α}
    (member : a ∈ unseen key seen tasks) : key a ∉ seen := by
  induction tasks generalizing seen with
  | nil => simp [unseen] at member
  | cons b rest ih =>
      unfold unseen at member
      split at member
      · exact ih member
      · rename_i fresh
        rcases List.mem_cons.mp member with rfl | later
        · exact fresh
        · exact fun known => ih later (Finset.mem_insert_of_mem known)

theorem nodup_keys_unseen (seen : Finset κ) (tasks : List α) :
    ((unseen key seen tasks).map key).Nodup := by
  induction tasks generalizing seen with
  | nil => simp [unseen]
  | cons a rest ih =>
      unfold unseen
      split
      · exact ih seen
      · rw [List.map_cons, List.nodup_cons]
        refine ⟨fun again => ?_, ih _⟩
        obtain ⟨b, member, same⟩ := List.mem_map.mp again
        exact key_notMem_of_mem_unseen key member (by simp [same])

/-- Adding the unseen tasks to a list without repeated keys repeats no key. -/
theorem nodup_keys_append_unseen {earlier : List α} (tasks : List α)
    (nodup : (earlier.map key).Nodup) :
    ((earlier ++ unseen key (earlier.map key).toFinset tasks).map key).Nodup := by
  rw [List.map_append]
  refine nodup.append (nodup_keys_unseen key _ tasks) fun k old new => ?_
  obtain ⟨a, member, rfl⟩ := List.mem_map.mp new
  exact key_notMem_of_mem_unseen key member (List.mem_toFinset.mpr old)

end Unseen

end CacheAction
