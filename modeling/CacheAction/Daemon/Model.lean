import CacheAction.EventLoop.Sockets
import CacheAction.EventLoop.SocketSimulation
import CacheAction.StorePath.Handle

/-!
# The daemon and its tasks

`run` spawns a task for each store path that it starts to handle, and waits for
the handles of these tasks.  Here the tasks are no longer events from outside:
the state holds, next to that of the event loop and its sockets, the state of every
spawned `handle_store_path`, in the order of `handle_store_paths`.

* A task takes its steps at any time, between any two steps of the clients, of the
  event loop and of the other tasks.
* The event loop gets a result only from a task that has returned it, in the
  main loop and while draining.
* A task that has panicked brings the daemon down when it is joined:
  `TokioJoinHandle` resumes unwinding in whoever polls it.  Nothing happens
  after that.

### Names and positions

The event loop knows a running handler by its position among the handles, and so do the inputs
here; a trace knows it by its path.  Positions move when a task is joined, since the handle is
removed from the middle of the list, while the path stays with the task from the step that
spawns it to the one that joins it.  That both lists are in the same order at all times is a
part of the invariant (`Staffed.aligned`).
-/

namespace CacheAction

open Sub60 HandleStorePath EventLoop

/-- The daemon on its sockets, with the tasks of `handle_store_paths`. -/
structure Daemon (P K C ε π σ δ E : Type) where
  sockets : Sockets P K C (HandlePathError E) ε π
  tasks : List (P × Handle P σ δ E)
  /-- The panic that has brought the daemon down. -/
  crashed : Option Panic

namespace Daemon

/-- What can happen next. -/
inductive DaemonInput (P C ε π E : Type) where
  /-- An event of the sockets and the event loop, other than the completion of a task. -/
  | event (input : SocketInput P C (HandlePathError E) ε π)
  /-- The `i`-th task takes a step. -/
  | task (i : ℕ) (input : HandleInput E)
  /-- The event loop gets the result of the `i`-th task.  `ok` says whether the
  reporter's write succeeds. -/
  | join (i : ℕ) (ok : Bool)

/-- What a run has done. -/
inductive DaemonObs (P C ε π δ E : Type) where
  | event (o : SocketObs P C (HandlePathError E) ε π)
  | task (path : P) (o : HandleObs P δ)
  | crashed (panic : Panic)

/-- The result of a task that an event brings. -/
def completion {P C H ε π : Type} : SocketInput P C H ε π → Option (ℕ × HandleResult H)
  | .daemon (.pathDone i result) => some (i, result)
  | .daemon (.drainDone i result _) => some (i, result)
  | _ => none

/-- The event that brings the result of the `i`-th task: the arm of `select!`, or
the loop that drains. -/
def completing {P C H ε π : Type} (phase : Phase) (i : ℕ) (result : HandleResult H) (ok : Bool) :
    SocketInput P C H ε π :=
  match phase with
  | .mainLoop => .daemon (.pathDone i result)
  | _ => .daemon (.drainDone i result ok)

theorem completion_completing {P C H ε π : Type} (phase : Phase) (i : ℕ)
    (result : HandleResult H) (ok : Bool) :
    completion (completing phase i result ok : SocketInput P C H ε π) = some (i, result) := by
  cases phase <;> rfl

variable {P K C ε π σ δ E : Type}

/-- The tasks spawned by what the event loop has just done. -/
def spawned (out : List (SocketObs P C (HandlePathError E) ε π)) : List (P × Handle P σ δ E) :=
  (ledger (out.filterMap SocketObs.seen)).started.map (·, .called)

/-- `run` waits for its tasks. -/
def joining (loop : Loop P K C (HandlePathError E)) : Bool :=
  loop.selecting || loop.phase = .draining

section Machine

variable [DecidableEq K] (parse : String → Except π P) (hash : P → K)
  (fmt : HandleFormats P σ δ E) (cache : Sub60Cache) (upstreamCaches : List Url)

/-- One step. -/
def step (d : Daemon P K C ε π σ δ E) (input : DaemonInput P C ε π E) :
    Option (Daemon P K C ε π σ δ E × List (DaemonObs P C ε π δ E)) :=
  if d.crashed.isSome then none
  else
    match input with
    | .event input =>
        if (completion input).isSome then none
        else
          (d.sockets.step parse hash input).map fun next =>
            ({ d with sockets := next.1, tasks := d.tasks ++ spawned next.2 },
              next.2.map .event)
    | .task i input =>
        match d.tasks[i]? with
        | none => none
        | some (path, handle) =>
            (Handle.step fmt cache path upstreamCaches handle input).map fun next =>
              ({ d with tasks := d.tasks.set i (path, next.1) }, next.2.map (.task path))
    | .join i ok =>
        match d.tasks[i]? with
        | some (_, .returned result) =>
            (d.sockets.step parse hash (completing d.sockets.loop.phase i result ok)).map
              fun next =>
                ({ d with sockets := next.1, tasks := d.tasks.eraseIdx i ++ spawned next.2 },
                  next.2.map .event)
        | some (_, .panicked panic) =>
            if joining d.sockets.loop then
              some ({ d with crashed := some panic }, [.crashed panic])
            else none
        | _ => none

/-- The daemon before its first connection. -/
def init : Daemon P K C ε π σ δ E where
  sockets := Sockets.init
  tasks := []
  crashed := none

/-- `run`, with its clients and its tasks. -/
def machine : Machine (Daemon P K C ε π σ δ E) (DaemonInput P C ε π E)
    (DaemonObs P C ε π δ E) where
  step := step parse hash fmt cache upstreamCaches

end Machine

/-! ## Reading a trace -/

/-- What the clients and the event loop have done. -/
def events (trace : List (DaemonObs P C ε π δ E)) :
    List (SocketObs P C (HandlePathError E) ε π) :=
  trace.filterMap fun
    | .event o => some o
    | _ => none

/-- The ledger of the event loop. -/
def eventLedger (trace : List (DaemonObs P C ε π δ E)) : Ledger P C (HandlePathError E) :=
  ledger ((events trace).filterMap SocketObs.seen)

/-- What the tasks have done. -/
def taskHistory (trace : List (DaemonObs P C ε π δ E)) : List (P × HandleObs P δ) :=
  trace.filterMap fun
    | .task path o => some (path, o)
    | _ => none

section Reading

variable (trace other : List (DaemonObs P C ε π δ E))

theorem events_append : events (trace ++ other) = events trace ++ events other :=
  List.filterMap_append

theorem eventLedger_append :
    eventLedger (trace ++ other) = eventLedger trace ++ eventLedger other := by
  rw [eventLedger, events_append, List.filterMap_append, ledger_append]
  rfl

theorem taskHistory_append :
    taskHistory (trace ++ other) = taskHistory trace ++ taskHistory other :=
  List.filterMap_append

@[simp] theorem events_event (out : List (SocketObs P C (HandlePathError E) ε π)) :
    events (out.map (.event : _ → DaemonObs P C ε π δ E)) = out := by
  simp [events, List.filterMap_map]

@[simp] theorem events_task (path : P) (out : List (HandleObs P δ)) :
    events (out.map (.task path : _ → DaemonObs P C ε π δ E)) = [] := by
  simp [events]

@[simp] theorem taskHistory_event (out : List (SocketObs P C (HandlePathError E) ε π)) :
    taskHistory (out.map (.event : _ → DaemonObs P C ε π δ E)) = [] := by
  simp [taskHistory]

@[simp] theorem taskHistory_task (path : P) (out : List (HandleObs P δ)) :
    taskHistory (out.map (.task path : _ → DaemonObs P C ε π δ E)) = out.map (path, ·) := by
  simp [taskHistory, List.filterMap_map]

end Reading

end Daemon

end CacheAction
