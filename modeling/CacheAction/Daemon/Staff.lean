import CacheAction.Daemon.Model
import CacheAction.EventLoop.SocketDelivery
import CacheAction.EventLoop.SocketWork
import CacheAction.Foundations.Tasks

/-!
# The tasks of the daemon, one by one

`Staffed` relates the daemon to the history of its run.

* The sockets and the event loop have run as `socketMachine` does, with some results of
  the handlers: what holds of every run of that machine holds of the daemon.
* The tasks are those of `handle_store_paths`, in the same order.
* What each task has done is a run of `handle_store_path` for its path
  (`Tasks`), in the environment that is assumed for it (`env`).  A result that the event
  loop has recorded is the one which that run returned.

No two of them have the same store hash, so that the part of the history that
belongs to a store hash is the history of one task.

### Two machines put together

The daemon is not proved correct from scratch.  It is two machines that have been verified by
themselves, the event loop on its sockets and `handle_store_path`, and `Staffed` says that a
run of the daemon *projects* to a run of the first and, for each path, to a run of the second.
Every run invariant of either then holds of the daemon as it stands.

What the two say to each other is little: the event loop starts a path, and gets a result.
The completion of a handler is an input of the event loop, with any result; in the daemon it
is a result that a task has returned.  So the daemon has fewer runs than the event loop with
any inputs, and an invariant of all these runs is more than enough.

The environment of a task (`env`) is a parameter because the tasks live in several: with
nothing assumed at all, with one store behind them, or with servers that do their part.
-/

namespace CacheAction

namespace Daemon

open Sub60 HandleStorePath EventLoop

variable {P K C ε π σ δ E : Type} [DecidableEq K] (parse : String → Except π P) (hash : P → K)
  (fmt : HandleFormats P σ δ E) (cache : Sub60Cache) (upstreamCaches : List Url)

/-! ## What one step does -/

/-- Everything that a step can do: an event of the event loop, a step of one task, the result of
a task that is waited for, or the panic of such a task. -/
inductive DaemonEffect (d d' : Daemon P K C ε π σ δ E) (out : List (DaemonObs P C ε π δ E)) :
    DaemonInput P C ε π E → Prop where
  | event (input evs) (external : completion input = none)
      (hstep : d.sockets.step parse hash input = some (d'.sockets, evs))
      (tasks : d'.tasks = d.tasks ++ spawned evs) (running : d'.crashed = none)
      (outputs : out = evs.map .event) : DaemonEffect d d' out (.event input)
  | task (i path handle handle' input outs) (found : d.tasks[i]? = some (path, handle))
      (hstep : Handle.step fmt cache path upstreamCaches handle input = some (handle', outs))
      (sockets : d'.sockets = d.sockets) (tasks : d'.tasks = d.tasks.set i (path, handle'))
      (running : d'.crashed = none) (outputs : out = outs.map (.task path)) :
      DaemonEffect d d' out (.task i input)
  | joined (i path result ok evs) (found : d.tasks[i]? = some (path, .returned result))
      (hstep : d.sockets.step parse hash (completing d.sockets.loop.phase i result ok) =
        some (d'.sockets, evs))
      (tasks : d'.tasks = d.tasks.eraseIdx i ++ spawned evs) (running : d'.crashed = none)
      (outputs : out = evs.map .event) : DaemonEffect d d' out (.join i ok)
  /-- `TokioJoinHandle::poll` resumes the panic in `run`. -/
  | crashed (i : ℕ) (path : P) (panic : Panic) (ok : Bool)
      (found : d.tasks[i]? = some (path, .panicked panic))
      (waiting : joining d.sockets.loop = true) (state : d' = { d with crashed := some panic })
      (outputs : out = [.crashed panic]) : DaemonEffect d d' out (.join i ok)

/-- An event spawns the tasks of the paths that it starts; a task takes a step of its own; a task
that has returned is joined with its result, and one that has panicked brings `run` down. -/
theorem step_effect {d d' : Daemon P K C ε π σ δ E} {input : DaemonInput P C ε π E}
    {out : List (DaemonObs P C ε π δ E)}
    (h : step parse hash fmt cache upstreamCaches d input = some (d', out)) :
    DaemonEffect parse hash fmt cache upstreamCaches d d' out input := by
  unfold step at h
  split at h
  · cases h
  · rename_i going
    have running : d.crashed = none := by simpa using going
    cases input with
    | event input =>
        simp only [Option.ite_none_left_eq_some, Option.map_eq_some_iff] at h
        obtain ⟨external, ⟨sockets, evs⟩, hstep, heq⟩ := h
        cases heq
        exact .event input evs (by simpa using external) hstep rfl running rfl
    | task i input =>
        simp only at h
        split at h
        · cases h
        · rename_i path handle found
          obtain ⟨⟨handle', outs⟩, hstep, heq⟩ := Option.map_eq_some_iff.mp h
          cases heq
          exact .task i path handle handle' input outs found hstep rfl rfl running rfl
    | join i ok =>
        simp only at h
        split at h
        · rename_i path result found
          obtain ⟨⟨sockets, evs⟩, hstep, heq⟩ := Option.map_eq_some_iff.mp h
          cases heq
          exact .joined i path result ok evs found hstep rfl running rfl
        · rename_i path panic found
          simp only [Option.ite_none_right_eq_some] at h
          obtain ⟨waiting, heq⟩ := h
          cases heq
          exact .crashed i path panic ok found waiting rfl rfl
        · cases h

/-! ## The running handlers -/

/-- What a step of the event loop does to the running handlers, when its input completes
one of them or not. -/
inductive Staffing {H : Type} (completes : Option (ℕ × HandleResult H)) (loop loop' : Loop P K C H)
    (led : Ledger P C H) : Prop where
  | kept (external : completes = none)
      (running : loop'.handleStorePaths = loop.handleStorePaths ++ led.started)
      (handled : led.handled = [])
  | completed (i path result) (input : completes = some (i, result))
      (found : loop.handleStorePaths[i]? = some path)
      (running : loop'.handleStorePaths = loop.handleStorePaths.eraseIdx i ++ led.started)
      (handled : led.handled = [(path, result)])

section Staffing

variable {parse hash} {H R : Type}

omit [DecidableEq K] in
theorem Schedules.read {evs : List (Obs P C H R)} {fresh begun : List P}
    (sched : Schedules evs fresh begun) :
    (ledger evs).started = begun ∧ (ledger evs).handled = [] := by
  rw [sched.ledger_eq]
  exact ⟨rfl, rfl⟩

omit [DecidableEq K] in
/-- A completed handler makes room for a pending one. -/
theorem completePath_staffing (loop : Loop P K C H) (i : ℕ) (path : P) (result : HandleResult H) :
    (loop.completePath (R := R) i path result).1.handleStorePaths =
        loop.handleStorePaths.eraseIdx i ++
          (ledger (loop.completePath (R := R) i path result).2).started ∧
      (ledger (loop.completePath (R := R) i path result).2).handled = [] := by
  obtain ⟨state, sched⟩ := completePath_eq (R := R) loop i path result
  obtain ⟨started, handled⟩ := Schedules.read sched
  rw [state, started]
  exact ⟨WorkPool.retire_running loop.pool i, handled⟩

/-- A step of the event loop starts the handlers that its outputs say, and
completes one exactly when its input brings a result. -/
theorem step_staffing {s s' : State P K C H (ReceiveError ε π)}
    {input : Input P C H (ReceiveError ε π)} {evs : List (Obs P C H (ReceiveError ε π))}
    (h : EventLoop.step hash s input = some (s', evs)) :
    Staffing (completion (.daemon input : SocketInput P C H ε π)) s.loop s'.loop
      (ledger evs) := by
  have silent : ∀ loop : Loop P K C H,
      loop.handleStorePaths = loop.handleStorePaths ++ [] := fun loop => (List.append_nil _).symm
  cases EventLoop.step_turn hash h with
  | connect | send | close | handleIo | accept | closureFailed | leaveLoop | finish =>
      exact .kept rfl (silent _) rfl
  | @recv message rest selecting channel =>
      obtain ⟨pushes, read⟩ := recv_ledger s.loop message
      have running : (s.loop.recv message).1.handleStorePaths = s.loop.handleStorePaths := by
        rcases message with e | (path | writer) <;> rfl
      rw [read]
      exact .kept rfl (running.trans (silent s.loop)) rfl
  | @closureComputed i path paths selecting found =>
      obtain ⟨state, sched⟩ := schedulePaths_eq (R := ReceiveError ε π) hash
        { s.loop with storeClosures := s.loop.storeClosures.eraseIdx i } paths
      obtain ⟨started, handled⟩ := Schedules.read sched
      refine .kept rfl ?_ ?_
      · rw [state, ledger_cons]
        show _ = _ ++ (ledger _).started
        rw [started]
        exact WorkPool.submitAll_running _ _ _
      · rw [ledger_cons]
        exact handled
  | @pathDone i path result selecting found =>
      obtain ⟨running, handled⟩ :=
        completePath_staffing (R := ReceiveError ε π) s.loop i path result
      refine .completed i path result rfl found running ?_
      rw [ledger_cons]
      exact congrArg ([(path, result)] ++ ·) handled
  | @drainDone i path result ok draining found =>
      obtain ⟨running, handled⟩ :=
        completePath_staffing (R := ReceiveError ε π) s.loop i path result
      refine .completed i path result rfl found running ?_
      rw [ledger_cons, ledger_cons (.handled path result)]
      exact congrArg ([(path, result)] ++ ·) handled

/-- The same on the sockets. -/
theorem socketStep_staffing {s s' : Sockets P K C H ε π} {input : SocketInput P C H ε π}
    {out : List (SocketObs P C H ε π)}
    (valid : ∀ c conn, s.streams c = some conn → conn.rx.Valid)
    (h : s.step parse hash input = some (s', out)) :
    Staffing (completion input) s.loop s'.loop (ledger (out.filterMap SocketObs.seen)) := by
  cases socketStep_run hash valid h with
  | silent outside loop nothing =>
      have external : completion input = none := by
        cases input with
        | daemon input => exact absurd rfl (outside input)
        | _ => rfl
      rw [external, loop, nothing]
      exact .kept rfl (List.append_nil _).symm rfl
  | run hstep loop same =>
      rw [loop, same]
      exact step_staffing hstep

end Staffing

/-! ## The invariant -/

/-- The tasks whose results the event loop has recorded. -/
def finished (trace : List (DaemonObs P C ε π δ E)) : List (P × Handle P σ δ E) :=
  (eventLedger trace).handled.map fun entry => (entry.1, .returned entry.2)

variable (env : P → Handle P σ δ E → List (HandleObs P δ) → HandleInput E → Prop)

/-- The daemon and the history of its run. -/
structure Staffed (d : Daemon P K C ε π σ δ E) (trace : List (DaemonObs P C ε π δ E)) :
    Prop where
  /-- The sockets and the event loop have run, with some results of the handlers. -/
  ran : ∃ is, (socketMachine parse hash).run Sockets.init is = some (d.sockets, events trace)
  /-- The running handlers are the tasks. -/
  aligned : d.tasks.map Prod.fst = d.sockets.loop.handleStorePaths
  /-- Each task has run `handle_store_path`. -/
  tasks : Tasks hash (handleMachine fmt cache · upstreamCaches) env .called (taskHistory trace)
    (d.tasks ++ finished trace)
  /-- Only a task that has panicked brings the daemon down, when it is waited for. -/
  crash : ∀ panic, d.crashed = some panic →
    joining d.sockets.loop = true ∧ ∃ path, (path, .panicked panic) ∈ d.tasks

/-- What is assumed of the inputs of the tasks, as an assumption about those of the
daemon: each is judged by the state of its task and by what that task has done, as if it ran
alone. -/
def TaskInputs (d : Daemon P K C ε π σ δ E) (trace : List (DaemonObs P C ε π δ E)) :
    DaemonInput P C ε π E → Prop
  | .task i input => ∀ task ∈ d.tasks[i]?,
      env task.1 task.2 (own hash (hash task.1) (taskHistory trace)) input
  | _ => True

section Invariant

variable {parse hash fmt cache upstreamCaches env} {d d' : Daemon P K C ε π σ δ E}
  {trace : List (DaemonObs P C ε π δ E)}

theorem eventLedger_event (evs : List (SocketObs P C (HandlePathError E) ε π)) :
    eventLedger (trace ++ evs.map .event) =
      eventLedger trace ++ ledger (evs.filterMap SocketObs.seen) := by
  rw [eventLedger_append, eventLedger, eventLedger, events_event]

theorem eventLedger_task (path : P) (outs : List (HandleObs P δ)) :
    eventLedger (trace ++ outs.map (.task path)) = eventLedger trace := by
  rw [eventLedger, events_append, events_task, List.append_nil, eventLedger]

theorem names_finished :
    ((finished trace : List (P × Handle P σ δ E)).map Prod.fst) =
      (eventLedger trace).handled.map Prod.fst := by
  rw [finished, List.map_map]
  rfl

theorem names_spawned (evs : List (SocketObs P C (HandlePathError E) ε π)) :
    ((spawned evs : List (P × Handle P σ δ E)).map Prod.fst) =
      (ledger (evs.filterMap SocketObs.seen)).started := by
  rw [spawned, List.map_map]
  exact List.map_id _

theorem Staffed.books (staffed : Staffed parse hash fmt cache upstreamCaches env d trace) :
    Books hash (eventLedger trace) d.sockets.loop := by
  obtain ⟨is, hrun⟩ := staffed.ran
  exact sockets_books hash hrun

theorem Staffed.valid (staffed : Staffed parse hash fmt cache upstreamCaches env d trace) :
    ∀ c conn, d.sockets.streams c = some conn → conn.rx.Valid := by
  obtain ⟨is, hrun⟩ := staffed.ran
  exact fun c conn found => ((delivery_of_run hash hrun).present c conn found).valid

/-- The tasks, running and finished, are those that have been started. -/
theorem Staffed.names (staffed : Staffed parse hash fmt cache upstreamCaches env d trace) :
    ((d.tasks ++ finished trace).map Prod.fst).Perm (eventLedger trace).started := by
  rw [List.map_append, names_finished, staffed.aligned]
  exact List.perm_append_comm.trans staffed.books.pool.running.symm

/-- Before the first event there is no task. -/
theorem Staffed.initial :
    Staffed parse hash fmt cache upstreamCaches env (init : Daemon P K C ε π σ δ E) [] where
  ran := ⟨[], rfl⟩
  aligned := rfl
  tasks := Tasks.initial
  crash := by rintro panic ⟨⟩

/-- One more event of the event loop. -/
theorem run_event {s s' : Sockets P K C (HandlePathError E) ε π}
    {input : SocketInput P C (HandlePathError E) ε π}
    {evs : List (SocketObs P C (HandlePathError E) ε π)}
    (ran : ∃ is, (socketMachine parse hash).run Sockets.init is = some (s, events trace))
    (hstep : s.step parse hash input = some (s', evs)) :
    ∃ is, (socketMachine parse hash).run Sockets.init is =
      some (s', events (trace ++ evs.map .event)) := by
  obtain ⟨is, hrun⟩ := ran
  refine ⟨is ++ [input], ?_⟩
  have last : (socketMachine parse hash).run s [input] = some (s', evs) := by
    rw [Machine.run_cons_eq_some]
    exact ⟨s', evs, [], hstep, rfl, (List.append_nil _).symm⟩
  rw [events_append, events_event]
  exact (socketMachine parse hash).run_append hrun last

/-- The tasks that an event starts have store hashes of their own. -/
theorem Staffed.spawn (staffed : Staffed parse hash fmt cache upstreamCaches env d trace)
    {running : List (P × Handle P σ δ E)} {s' : Sockets P K C (HandlePathError E) ε π}
    {evs : List (SocketObs P C (HandlePathError E) ε π)}
    (ran : ∃ is, (socketMachine parse hash).run Sockets.init is =
      some (s', events (trace ++ evs.map .event)))
    (same : (d.tasks ++ finished trace).Perm
      (running ++ finished (trace ++ evs.map DaemonObs.event))) :
    Tasks hash (handleMachine fmt cache · upstreamCaches) env .called
      (taskHistory (trace ++ evs.map .event))
      (running ++ spawned evs ++ finished (trace ++ evs.map .event)) := by
  obtain ⟨is, hrun⟩ := ran
  have distinct : ((eventLedger (trace ++ evs.map DaemonObs.event)).started.map hash).Nodup :=
    (sockets_books hash hrun).started_distinct
  rw [eventLedger_event] at distinct
  have names : ((d.tasks ++ finished trace).map Prod.fst ++
      (ledger (evs.filterMap SocketObs.seen)).started).Perm
        ((eventLedger trace).started ++ (ledger (evs.filterMap SocketObs.seen)).started) :=
    staffed.names.append_right _
  have grown := staffed.tasks.spawn (ledger (evs.filterMap SocketObs.seen)).started
    ((names.map hash).nodup_iff.mpr distinct)
  rw [taskHistory_append, taskHistory_event, List.append_nil]
  refine grown.perm ((same.append_right _).trans ?_)
  rw [List.append_assoc, List.append_assoc]
  exact List.perm_append_comm.append_left running

/-- **Every step keeps the daemon staffed.** -/
theorem Staffed.effect {out : List (DaemonObs P C ε π δ E)} {input : DaemonInput P C ε π E}
    (staffed : Staffed parse hash fmt cache upstreamCaches env d trace)
    (allowed : TaskInputs hash env d trace input)
    (effect : DaemonEffect parse hash fmt cache upstreamCaches d d' out input) :
    Staffed parse hash fmt cache upstreamCaches env d' (trace ++ out) := by
  cases effect with
  | event input evs external hstep tasks running outputs =>
      subst outputs
      have ran := run_event staffed.ran hstep
      -- no handle has been joined, so only new tasks are to be accounted for
      cases socketStep_staffing staffed.valid hstep with
      | kept _ started handled =>
          refine
            { ran, aligned := ?_, tasks := ?_,
              crash := fun panic crashed => by rw [running] at crashed; cases crashed }
          · rw [tasks, List.map_append, names_spawned, staffed.aligned, started]
          · rw [tasks]
            refine staffed.spawn ran (List.Perm.of_eq ?_)
            rw [finished, finished, eventLedger_event]
            show _ = d.tasks ++ ((eventLedger trace).handled ++ _).map _
            rw [handled, List.append_nil]
      | completed i path result completes => rw [external] at completes; cases completes
  | task i path handle handle' input outs found hstep sockets tasks running outputs =>
      subst outputs
      have silent : events (trace ++ outs.map (.task path)) = events trace := by
        rw [events_append, events_task, List.append_nil]
      refine
        { ran := by rw [silent, sockets]; exact staffed.ran, aligned := ?_, tasks := ?_,
          crash := fun panic crashed => by rw [running] at crashed; cases crashed }
      · -- the task is still the one for its path
        obtain ⟨valid, here⟩ := List.getElem?_eq_some_iff.mp found
        have valid' : i < (d.tasks.map Prod.fst).length := by simpa using valid
        have name : path = (d.tasks.map Prod.fst)[i] := by rw [List.getElem_map, here]
        rw [tasks, sockets, List.map_set, ← staffed.aligned, name]
        exact List.set_getElem_self _
      · rw [tasks, finished, eventLedger_task, taskHistory_append, taskHistory_task]
        exact staffed.tasks.step found (allowed _ found) hstep
  | joined i path result ok evs found hstep tasks running outputs =>
      subst outputs
      have ran := run_event staffed.ran hstep
      obtain ⟨valid, here⟩ := List.getElem?_eq_some_iff.mp found
      have staffing := socketStep_staffing staffed.valid hstep
      rw [completion_completing] at staffing
      -- the result that the loop gets is the one of the task
      cases staffing with
      | kept external => cases external
      | completed j path' result' completes found' started handled =>
          cases completes
          obtain rfl : path = path' := by
            rw [← staffed.aligned, List.getElem?_map, found] at found'
            exact Option.some.inj found'
          refine
            { ran, aligned := ?_, tasks := ?_,
              crash := fun panic crashed => by rw [running] at crashed; cases crashed }
          · rw [tasks, List.map_append, names_spawned, ← List.eraseIdx_map, staffed.aligned,
              started]
          · rw [tasks]
            refine staffed.spawn ran ?_
            have moved : (finished (trace ++ evs.map .event) : List (P × Handle P σ δ E)) =
                finished trace ++ [(path, .returned result)] := by
              rw [finished, finished, eventLedger_event]
              show ((eventLedger trace).handled ++ _).map _ = _
              rw [handled, List.map_append, List.map_singleton]
            -- the task moves to those that have finished
            have taken : d.tasks.Perm ((path, .returned result) :: d.tasks.eraseIdx i) := by
              rw [← here]
              exact (List.getElem_cons_eraseIdx_perm valid).symm
            refine (taken.append_right _).trans ?_
            rw [moved, ← List.append_assoc]
            exact (List.perm_append_singleton _ _).symm
  | crashed i path panic ok found waiting state outputs =>
      subst state outputs
      have silent : events (trace ++ [.crashed panic]) = events trace := by
        rw [events_append]
        exact List.append_nil _
      refine
        { ran := by rw [silent]; exact staffed.ran, aligned := staffed.aligned, tasks := ?_,
          crash := ?_ }
      · rw [finished, eventLedger, silent, taskHistory_append]
        exact (List.append_nil (taskHistory trace)).symm ▸ staffed.tasks
      · rintro panic' ⟨⟩
        exact ⟨waiting, path, List.mem_of_getElem? found⟩

/-- Every run keeps the daemon staffed, in the environment that is assumed for its
tasks. -/
theorem run_staffed_of_follows {is : List (DaemonInput P C ε π E)}
    (follows : (machine parse hash fmt cache upstreamCaches).Follows (TaskInputs hash env) init
      [] is)
    (hrun : (machine parse hash fmt cache upstreamCaches).run init is = some (d, trace)) :
    Staffed parse hash fmt cache upstreamCaches env d trace := by
  have staffed := (machine parse hash fmt cache upstreamCaches).run_invariant_of_follows
    (I := Staffed parse hash fmt cache upstreamCaches env)
    (fun _ _ _ _ _ staffed allowed hstep =>
      staffed.effect allowed (step_effect parse hash fmt cache upstreamCaches hstep))
    follows Staffed.initial hrun
  rwa [List.nil_append] at staffed

/-- Every run keeps the daemon staffed, whatever its tasks get. -/
theorem run_staffed {is : List (DaemonInput P C ε π E)}
    (hrun : (machine parse hash fmt cache upstreamCaches).run init is = some (d, trace)) :
    Staffed parse hash fmt cache upstreamCaches (fun _ _ _ _ => True) d trace := by
  refine run_staffed_of_follows ?_ hrun
  refine (machine parse hash fmt cache upstreamCaches).follows_of_forall
    (fun d trace input _ => ?_) _ _
  cases input with
  | task i input => exact fun _ _ => trivial
  | _ => trivial

end Invariant

end Daemon

end CacheAction
