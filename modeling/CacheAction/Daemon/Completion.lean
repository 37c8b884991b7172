import CacheAction.Daemon.Crash
import CacheAction.EventLoop.SocketShutdown
import CacheAction.StorePath.Completion

/-!
# A daemon that has been asked to stop comes to its end

A stop request is on its way and the clients are silent.  The tasks of the daemon wait for
the store, for the servers and for each other's bytes, in any order, and these do their
part (`Obliging`).  `stop_completes`: then the daemon settles everything that it has
received, reports it and is done, or it comes down because of an upstream cache whose URL
cannot be a base.

The work of `run` and of its connections comes first in what is left to do, then that of
its tasks, side by side, and last the bytes that the connections have not read.  A task
that is spawned takes up work of `run`, so that no step makes more work than it does.

### A measure for tasks side by side

The tasks are interleaved, and each has a measure of its own (`Handle.load`) in an order that
is not that of the numbers.  Their sum makes no sense, and their list is no measure either:
when a task ends, a later one takes its place.  As a *multiset* they are one: a step replaces
the load of one task by a smaller one, and multisets over a well-founded order are well
founded under that (the order of Dershowitz and Manna, which Mathlib has).  No bound for the
number of tasks is used, so the limit of 32 plays no part here.

Nothing has to be known about fairness between the tasks.  The theorem does not say that the
daemon finishes in every schedule, which is false for one that polls a socket that is never
ready; it says that it gets on only finitely often, and that until the end it can.
-/

namespace CacheAction

namespace Daemon

open Sub60 HandleStorePath EventLoop

variable {P K C ε π σ δ E : Type} [DecidableEq K] (parse : String → Except π P) (hash : P → K)
  (nix : Nix P C E) (fmt : HandleFormats P σ δ E) (cache : Sub60Cache)
  (upstreamCaches : List Url) (limit : ℕ)

/-- No client does anything. -/
def DaemonInput.Silent : DaemonInput P C ε π E → Prop
  | .event input => input.own = true
  | _ => True

/-- The daemon is left alone by its clients, and its tasks are not let down.

These are two assumptions about two sides.  The clients are silent from here on: what they have
written is still read, and connections that are waiting are still accepted, but a client that
goes on connecting could keep any daemon from coming to an end.  The store and the servers do
their part in each task by itself, judged by what that task has seen (`TaskInputs`): nothing
is assumed of the order in which the tasks are served. -/
def LeftAlone (d : Daemon P K C ε π σ δ E) (trace : List (DaemonObs P C ε π δ E))
    (input : DaemonInput P C ε π E) : Prop :=
  input.Silent ∧ TaskInputs hash (fun path => Obliging nix fmt cache path limit) d trace input

/-- The input gets the daemon on: it is not a poll that is pending, of a socket or in a task.
To join a task is always a step forward, since only a task that has returned, or has panicked,
can be joined. -/
def GetsOn (d : Daemon P K C ε π σ δ E) : DaemonInput P C ε π E → Prop
  | .event input => input.Ready
  | .task i input =>
      ∀ task ∈ d.tasks[i]?, Changes fmt cache task.1 upstreamCaches task.2 input
  | .join _ _ => True

/-- The daemon has come to its end.  A crash is an end that the environment cannot be blamed
for, and it has one cause only, which is in the configuration. -/
inductive Over (d : Daemon P K C ε π σ δ E) (trace : List (DaemonObs P C ε π δ E)) : Prop where
  /-- It has settled everything and reported it, -/
  | finished (phase : d.sockets.loop.phase = .finished) (settled : Settled (eventLedger trace))
      (reported : ∃ writer report ok, .event (.daemon (.finalReport writer report ok)) ∈ trace)
  /-- or it has come down. -/
  | crashed (crashed : d.crashed.isSome = true) (cause : ∃ url ∈ upstreamCaches, ¬ url.canBeABase)

/-! ## What is left to do -/

/-- The work of the tasks. -/
def loads (d : Daemon P K C ε π σ δ E) (trace : List (DaemonObs P C ε π δ E)) :
    List (ℕ ×ₗ (ℕ ×ₗ ℕ ×ₗ ℕ) ×ₗ ℕ ×ₗ ℕ ×ₗ ℕ ×ₗ ℕ ×ₗ ℕ) :=
  d.tasks.map fun task =>
    task.2.load nix task.1 limit (own hash (hash task.1) (taskHistory trace))

/-- The work that is left: that of `run`, that of the tasks, and the bytes.  A crash takes
everything with it, so it is the first thing to be counted. -/
def remaining (d : Daemon P K C ε π σ δ E) (trace : List (DaemonObs P C ε π δ E)) :
    (ℕ ×ₗ ℕ ×ₗ ℕ ×ₗ ℕ ×ₗ ℕ ×ₗ ℕ ×ₗ ℕ) ×
      Multiset (ℕ ×ₗ (ℕ ×ₗ ℕ ×ₗ ℕ) ×ₗ ℕ ×ₗ ℕ ×ₗ ℕ ×ₗ ℕ ×ₗ ℕ) × ℕ :=
  (toLex (if d.crashed.isSome then 0 else 1, d.sockets.workload parse),
    (loads hash nix limit d trace : Multiset _), d.sockets.unread)

section Progress

variable {parse hash nix fmt cache upstreamCaches limit} {d d' : Daemon P K C ε π σ δ E}
  {trace out : List (DaemonObs P C ε π δ E)}

/-- What is known of a task. -/
theorem Staffed.live
    (staffed : Staffed parse hash fmt cache upstreamCaches
      (fun path => Obliging nix fmt cache path limit) d trace) {path : P}
    {handle : Handle P σ δ E} (member : (path, handle) ∈ d.tasks) :
    Live nix fmt path (own hash (hash path) (taskHistory trace)) handle := by
  obtain ⟨is, hrun, follows⟩ := staffed.tasks.ran _ (List.mem_append_left _ member)
  exact live_of_run follows hrun

/-- A task takes a step: the work of the others stays as it is. -/
theorem loads_set {env : P → Handle P σ δ E → List (HandleObs P δ) → HandleInput E → Prop}
    (staffed : Staffed parse hash fmt cache upstreamCaches env d trace) {i : ℕ} {path : P}
    {handle handle' : Handle P σ δ E} {outs : List (HandleObs P δ)}
    (found : d.tasks[i]? = some (path, handle)) (tasks : d'.tasks = d.tasks.set i (path, handle')) :
    loads hash nix limit d' (trace ++ outs.map (.task path)) =
      (loads hash nix limit d trace).set i
        (handle'.load nix path limit (own hash (hash path) (taskHistory trace) ++ outs)) := by
  have history (k : K) : own hash k (taskHistory (trace ++ outs.map (.task path))) =
      own hash k (taskHistory trace) ++ own hash k (outs.map (path, ·)) := by
    rw [taskHistory_append, taskHistory_task, own_append]
  have distinct : (d.tasks.map fun task => hash task.1).Nodup := by
    have all := staffed.tasks.distinct
    rw [List.map_append] at all
    exact all.of_append_left
  obtain ⟨valid, here⟩ := List.getElem?_eq_some_iff.mp found
  unfold loads
  rw [tasks, List.map_set, history, own_outputs]
  refine List.ext_getElem? fun j => ?_
  rw [List.getElem?_set, List.getElem?_set, List.length_map, List.length_map]
  split_ifs with same
  · rfl
  · rw [List.getElem?_map, List.getElem?_map]
    rcases other : d.tasks[j]? with _ | task
    · rfl
    · -- no two tasks have the same store hash
      obtain ⟨valid', there⟩ := List.getElem?_eq_some_iff.mp other
      have different : hash path ≠ hash task.1 := by
        intro equal
        have first : i < (d.tasks.map fun task => hash task.1).length := by simpa using valid
        have second : j < (d.tasks.map fun task => hash task.1).length := by simpa using valid'
        refine same ((@List.Nodup.getElem_inj_iff _ _ distinct i first j second).mp ?_)
        rw [List.getElem_map, List.getElem_map, here, there]
        exact equal
      have kept : own hash (hash task.1) (taskHistory (trace ++ outs.map (.task path))) =
          own hash (hash task.1) (taskHistory trace) := by
        rw [history, own_outputs_of_ne hash different, List.append_nil]
      exact congrArg (fun history => some (task.2.load nix task.1 limit history)) kept

/-- **Every step leaves less to do**, unless it is a poll that is pending. -/
theorem remaining_less {input : DaemonInput P C ε π E}
    (staffed : Staffed parse hash fmt cache upstreamCaches
      (fun path => Obliging nix fmt cache path limit) d trace)
    (left : LeftAlone hash nix fmt cache limit d trace input)
    (effect : DaemonEffect parse hash fmt cache upstreamCaches d d' out input)
    (alive : d.crashed = none) :
    (¬ GetsOn fmt cache upstreamCaches d input ∧
        remaining parse hash nix limit d' (trace ++ out) =
          remaining parse hash nix limit d trace) ∨
      Less (remaining parse hash nix limit d' (trace ++ out))
        (remaining parse hash nix limit d trace) := by
  have before : remaining parse hash nix limit d trace =
      (toLex (1, d.sockets.workload parse), (loads hash nix limit d trace : Multiset _),
        d.sockets.unread) := by
    rw [remaining, alive]
    rfl
  have after (running : d'.crashed = none) : remaining parse hash nix limit d' (trace ++ out) =
      (toLex (1, d'.sockets.workload parse), (loads hash nix limit d' (trace ++ out) : Multiset _),
        d'.sockets.unread) := by
    rw [remaining, running]
    rfl
  cases effect with
  | event input evs external hstep tasks running outputs =>
      rw [before, after running]
      rcases ownStep_cases left.1 staffed.valid hstep with less | ⟨rfl, loop, same, read⟩
      · exact .inr (.left _ _ (Prod.Lex.toLex_lt_toLex.mpr (.inr ⟨rfl, less⟩)))
      · -- the tasks have not moved
        obtain rfl : out = [] := outputs
        have kept : loads hash nix limit d' (trace ++ []) = loads hash nix limit d trace := by
          rw [loads, loads, tasks, List.append_nil]
          exact congrArg (List.map _) (List.append_nil d.tasks)
        rw [same, kept]
        rcases read with fewer | ⟨unready, unread⟩
        · exact .inr (.right _ (.right _ fewer))
        · rw [unread]
          exact .inl ⟨unready, rfl⟩
  | task i path handle handle' input outs found hstep sockets tasks running outputs =>
      subst outputs
      rw [before, after running, sockets, loads_set staffed found tasks]
      -- the task's own measure goes down, and with it the multiset
      have live := staffed.live (List.mem_of_getElem? found)
      rcases live.load_lt (left.2 _ found) hstep with ⟨unchanged, rfl, rfl⟩ | less
      · refine .inl ⟨fun changes => unchanged (changes _ found), ?_⟩
        obtain ⟨valid, here⟩ := List.getElem?_eq_some_iff.mp found
        have valid' : i < (loads hash nix limit d trace).length := by
          rwa [loads, List.length_map]
        have same : handle'.load nix path limit (own hash (hash path) (taskHistory trace) ++ []) =
            (loads hash nix limit d trace)[i] := by
          simp [loads, here]
        rw [same, List.set_getElem_self]
      · refine .inr (.right _ (.left _ _ ?_))
        refine isDershowitzMannaLT_set ?_ less
        rw [loads, List.getElem?_map, found]
        rfl
  | joined i path result ok evs found hstep tasks running outputs =>
      rw [before, after running]
      refine .inr (.left _ _ (Prod.Lex.toLex_lt_toLex.mpr (.inr ⟨rfl, ?_⟩)))
      -- `run` takes a result: new tasks count for less than the step itself
      unfold completing at hstep
      split at hstep <;> exact runStep_lt hstep
  | crashed i path panic ok found waiting state outputs =>
      subst state
      rw [before]
      exact .inr (.left _ _ (Prod.Lex.toLex_lt_toLex.mpr (.inl Nat.zero_lt_one)))

theorem completing_own (phase : Phase) (i : ℕ) (result : HandleResult (HandlePathError E))
    (ok : Bool) :
    (completing phase i result ok : SocketInput P C (HandlePathError E) ε π).own = true := by
  cases phase <;> rfl

/-- **A stop request stays on its way.** -/
theorem stopWritten_step {input : DaemonInput P C ε π E}
    (staffed : Staffed parse hash fmt cache upstreamCaches
      (fun path => Obliging nix fmt cache path limit) d trace)
    (coming : StopWritten parse d.sockets) (silent : input.Silent)
    (effect : DaemonEffect parse hash fmt cache upstreamCaches d d' out input) :
    StopWritten parse d'.sockets := by
  cases effect with
  | event input evs external hstep => exact coming.step silent staffed.valid hstep
  | task i path handle handle' input outs found hstep sockets => rwa [sockets]
  | joined i path result ok evs found hstep =>
      exact coming.step (completing_own _ i result ok) staffed.valid hstep
  | crashed i path panic ok found waiting state =>
      subst state
      exact coming

/-! ## There is always something to do -/

/-- `run` can go on by itself, or waits for a task. -/
theorem exists_event {s : Sockets P K C (HandlePathError E) ε π}
    {led : Ledger P C (HandlePathError E)} (books : Books hash led s.loop)
    (valid : ∀ c conn, s.streams c = some conn → conn.rx.Valid) (coming : StopWritten parse s)
    (going : s.loop.phase ≠ .finished) :
    (s.loop.handleStorePaths ≠ [] ∧ joining s.loop = true) ∨
      ∃ input, input.own = true ∧ input.Ready ∧ completion input = none ∧
        (s.step parse hash input).isSome = true := by
  rcases running : s.loop.handleStorePaths with _ | ⟨path, others⟩
  · refine .inr ?_
    cases phase : s.loop.phase with
    | finished => exact absurd phase going
    -- nothing is running: the drain is over, the main loop can be left, or some arm is ready
    | draining =>
        obtain ⟨-, requested⟩ := books.stopping (by simp [phase])
        obtain ⟨writer, requested⟩ := Option.isSome_iff_exists.mp requested
        refine ⟨.daemon (.finish true), rfl, trivial, rfl, ?_⟩
        simp [Sockets.step, Input.ofRun, EventLoop.step, Sockets.withClients, phase, running,
          requested]
    | mainLoop =>
        cases selecting : s.loop.selecting with
        | false =>
            refine ⟨.daemon (.leaveLoop true), rfl, trivial, rfl, ?_⟩
            simp [Sockets.step, Input.ofRun, EventLoop.step, Sockets.withClients, phase, selecting]
        | true =>
            rcases closures : s.loop.storeClosures with _ | ⟨path, rest⟩
            -- no closure is awaited: look in the channel, at the listener, and then at the sockets
            · rcases channel : s.channel with _ | ⟨message, rest⟩
              · rcases listener : s.listener with _ | ⟨c, rest⟩
                · -- the request is still among the bytes of some connection
                  rcases coming with requested | ⟨c, queued⟩ |
                    ⟨c, conn, connected, found, active, decoded⟩
                  · simp [Loop.selecting, requested, closures] at selecting
                  · rw [channel] at queued
                    cases queued
                  · rw [listener] at connected
                    have task := connected.resolve_left List.not_mem_nil
                    refine ⟨.pollIo c fun _ => .upTo 1, rfl, ?_, rfl, ?_⟩
                    · rintro ⟨⟩
                    · exact exists_poll task found (valid c conn found) active decoded
                · refine ⟨.daemon .accept, rfl, trivial, rfl, ?_⟩
                  simp [Sockets.step, Input.ofRun, EventLoop.step, Sockets.withClients, selecting,
                    Net.accept, listener]
              · refine ⟨.daemon .recv, rfl, trivial, rfl, ?_⟩
                simp [Sockets.step, Input.ofRun, EventLoop.step, Sockets.withClients, selecting,
                  channel]
            -- a closure is awaited, and it may be computed
            · refine ⟨.daemon (.closureDone 0 (.ok [])), rfl, trivial, rfl, ?_⟩
              simp [Sockets.step, Input.ofRun, EventLoop.step, Sockets.withClients, selecting,
                Loop.closureDone, closures]
  -- a handler is running, and it is waited for unless the main loop is just being left
  · cases selecting : s.loop.selecting with
    | true => exact .inl ⟨List.cons_ne_nil _ _, by simp [joining, selecting]⟩
    | false =>
        cases phase : s.loop.phase with
        | finished => exact absurd phase going
        | draining => exact .inl ⟨List.cons_ne_nil _ _, by simp [joining, phase]⟩
        | mainLoop =>
            refine .inr ⟨.daemon (.leaveLoop true), rfl, trivial, rfl, ?_⟩
            simp [Sockets.step, Input.ofRun, EventLoop.step, Sockets.withClients, phase, selecting]

/-- A result can be recorded. -/
theorem completing_isSome {s : Sockets P K C (HandlePathError E) ε π} {path : P} {others : List P}
    (running : s.loop.handleStorePaths = path :: others) (waiting : joining s.loop = true)
    (result : HandleResult (HandlePathError E)) :
    (s.step parse hash (completing s.loop.phase 0 result true)).isSome = true := by
  cases phase : s.loop.phase with
  | mainLoop =>
      have selecting : s.loop.selecting = true := by simpa [joining, phase] using waiting
      simp [completing, Sockets.step, Input.ofRun, EventLoop.step, Sockets.withClients, selecting,
        Loop.pathDone, running]
  | draining =>
      simp [completing, Sockets.step, Input.ofRun, EventLoop.step, Sockets.withClients, phase,
        Loop.pathDone, running]
  | finished => simp [joining, Loop.selecting, phase] at waiting

/-- **A task that is waited for** can be joined, or can go on itself. -/
theorem exists_task [Inhabited E]
    (staffed : Staffed parse hash fmt cache upstreamCaches
      (fun path => Obliging nix fmt cache path limit) d trace) (alive : d.crashed = none)
    (running : d.sockets.loop.handleStorePaths ≠ []) (waiting : joining d.sockets.loop = true) :
    ∃ input, LeftAlone hash nix fmt cache limit d trace input ∧
      GetsOn fmt cache upstreamCaches d input ∧
      (step parse hash fmt cache upstreamCaches d input).isSome = true := by
  have going : ¬ d.crashed.isSome = true := by simp [alive]
  have aligned := staffed.aligned
  rcases tasks : d.tasks with _ | ⟨⟨path, handle⟩, others⟩
  -- a handler that is running has its task
  · rw [tasks] at aligned
    exact absurd aligned.symm running
  · have found : d.tasks[0]? = some (path, handle) := by rw [tasks]; rfl
    rw [tasks] at aligned
    have live := staffed.live (List.mem_of_getElem? found)
    rcases live.advances cache upstreamCaches limit with
      returned | ⟨input, obliging, changes⟩
    -- the task has returned or panicked, and is joined
    · refine ⟨.join 0 true, ⟨trivial, trivial⟩, trivial, ?_⟩
      unfold step
      rw [if_neg going]
      simp only [found]
      rcases handle with _ | _ | _ | _ | _ | _ | result | panic
      · exact returned.elim
      · exact returned.elim
      · exact returned.elim
      · exact returned.elim
      · exact returned.elim
      · exact returned.elim
      · dsimp only
        rw [Option.isSome_map]
        exact completing_isSome aligned.symm waiting result
      · dsimp only
        rw [if_pos waiting]
        rfl
    -- it has something to do itself
    · obtain ⟨handle', outs, hstep, changed⟩ := changes
      refine ⟨.task 0 input, ⟨trivial, ?_⟩, ?_, ?_⟩
      · intro task member
        obtain rfl := Option.some.inj (found.symm.trans member)
        exact obliging
      · intro task member
        obtain rfl := Option.some.inj (found.symm.trans member)
        exact ⟨handle', outs, hstep, changed⟩
      · unfold step
        rw [if_neg going]
        simp only [found, hstep]
        rfl

/-- **Until it has come to its end, the daemon can go on.** -/
theorem advances [Inhabited E]
    (staffed : Staffed parse hash fmt cache upstreamCaches
      (fun path => Obliging nix fmt cache path limit) d trace)
    (coming : StopWritten parse d.sockets) :
    Over upstreamCaches d trace ∨ ∃ input, LeftAlone hash nix fmt cache limit d trace input ∧
      GetsOn fmt cache upstreamCaches d input ∧
      (step parse hash fmt cache upstreamCaches d input).isSome = true := by
  rcases alive : d.crashed with _ | panic
  · by_cases finished : d.sockets.loop.phase = .finished
    · refine .inl (.finished finished ?_ ?_)
      · exact staffed.books.settled (staffed.books.stopping (by simp [finished])).1
          (staffed.books.emptied finished)
      · obtain ⟨is, hrun⟩ := staffed.ran
        obtain ⟨writer, report, ok, member⟩ := socketReport_of_run hrun finished
        obtain ⟨o, reported, isEvent⟩ := List.mem_filterMap.mp member
        cases o with
        | event o =>
            cases isEvent
            exact ⟨writer, report, ok, reported⟩
        | _ => cases isEvent
    · refine .inr ?_
      rcases exists_event staffed.books staffed.valid coming finished with
        ⟨running, waiting⟩ | ⟨input, own, ready, external, enabled⟩
      · exact exists_task staffed alive running waiting
      · refine ⟨.event input, ⟨own, trivial⟩, ready, ?_⟩
        unfold step
        rw [if_neg (by simp [alive])]
        dsimp only
        rw [if_neg (by simp [external]), Option.isSome_map]
        exact enabled
  · obtain ⟨-, path, member⟩ := staffed.crash panic alive
    obtain ⟨is, ran, -⟩ := staffed.tasks.ran _ (List.mem_append_left _ member)
    exact .inl (.crashed (by rw [alive]; rfl) (opaque_of_panicked ran))

end Progress

/-- **A daemon that has been asked to stop comes to its end.**

The two invariants that the descent needs are that the tasks are the runs of
`handle_store_path` that the event loop counts, and that the stop has been written and not
been lost (`StopWritten`).  Under them every input that is allowed lowers `remaining`, or does
not get the daemon on and leaves `remaining` as it is; and while the daemon is not over there
is one that gets it on. -/
theorem stop_completes [Inhabited E] {before : List (DaemonInput P C ε π E)}
    {d : Daemon P K C ε π σ δ E} {trace : List (DaemonObs P C ε π δ E)}
    (follows : (machine parse hash fmt cache upstreamCaches).Follows
      (TaskInputs hash fun path => Obliging nix fmt cache path limit) init [] before)
    (hrun : (machine parse hash fmt cache upstreamCaches).run init before = some (d, trace))
    (coming : StopWritten parse d.sockets) :
    (machine parse hash fmt cache upstreamCaches).Completes
      (LeftAlone hash nix fmt cache limit) (GetsOn fmt cache upstreamCaches)
      (Over upstreamCaches) d trace := by
  refine Machine.completes wellFounded_less (remaining parse hash nix limit)
    (I := fun d trace => Staffed parse hash fmt cache upstreamCaches
      (fun path => Obliging nix fmt cache path limit) d trace ∧ StopWritten parse d.sockets)
    ?_ ?_ ?_ ⟨run_staffed_of_follows follows hrun, coming⟩
  · rintro d trace input d' out ⟨staffed, coming⟩ left hstep
    have effect := step_effect parse hash fmt cache upstreamCaches hstep
    exact ⟨staffed.effect left.2 effect, stopWritten_step staffed coming left.1 effect⟩
  · rintro d trace input d' out ⟨staffed, coming⟩ left hstep
    refine remaining_less staffed left (step_effect parse hash fmt cache upstreamCaches hstep) ?_
    -- a daemon that has come down takes no step
    rcases alive : d.crashed with _ | panic
    · rfl
    · have stuck : step parse hash fmt cache upstreamCaches d input = none :=
        if_pos (by rw [alive]; rfl)
      cases hstep.symm.trans stuck
  · rintro d trace ⟨staffed, coming⟩
    exact advances staffed coming

/-- One of two paths is being handled when the stop request is written. -/
def stopWrittenRun : List (DaemonInput (String × String) Unit Unit Unit Unit) :=
  [.event (.connect 0), .event (.write 0 exampleLine), .event (.daemon .accept),
    .event (.pollIo 0 fun _ => .upTo 50), .event (.daemon .recv),
    .event (.daemon (.closureDone 0 (.ok [examplePath, cachedPath]))), .task 1 .start,
    .event (.write 0 [stopSentinel])]

/-- The state from which the daemon is left alone: a stop has been written, and not been read. -/
theorem stopWrittenRun_runs :
    ∃ d trace, exampleDaemon.run init stopWrittenRun = some (d, trace) ∧
      StopWritten parsePair d.sockets := by
  have read : (exampleDaemon.run init stopWrittenRun).map (fun next =>
      (next.1.sockets.tasks, (next.1.sockets.streams 0).map fun conn =>
        (conn.rx.isDone, conn.bytes))) = some ([0], some (false, [stopSentinel])) := by
    decide +kernel
  obtain ⟨⟨d, trace⟩, hrun, values⟩ := Option.map_eq_some_iff.mp read
  simp only [Prod.mk.injEq] at values
  obtain ⟨tasks, stream⟩ := values
  obtain ⟨conn, found, written⟩ := Option.map_eq_some_iff.mp stream
  obtain ⟨active, bytes⟩ := Prod.ext_iff.mp written
  refine ⟨d, trace, hrun, .written 0 conn (.inr (by simp [tasks])) found active fun ending => ?_⟩
  have stop : (decode parsePair ending ([stopSentinel] ++ []) : List (Item _ Unit Unit)) =
      [.ok .stopDaemon] := Receiver.decode_stop rfl
  rw [show conn.bytes = [stopSentinel] ++ [] from bytes, stop]
  exact List.mem_singleton_self _

/-- With a store in which every path has a NAR of three bytes, and no infos. -/
theorem stop_completes_two_tasks :
    ∃ d trace, exampleDaemon.run init stopWrittenRun = some (d, trace) ∧
      exampleDaemon.Completes
        (LeftAlone Prod.fst
          (⟨fun _ => .ok [], fun _ => some [1, 2, 3], fun _ => .error ()⟩ : Nix _ Unit Unit)
          exampleFormats exampleCache 0)
        (GetsOn exampleFormats exampleCache [nixosCache]) (Over [nixosCache]) d trace := by
  obtain ⟨d, trace, hrun, coming⟩ := stopWrittenRun_runs
  refine ⟨d, trace, hrun, stop_completes parsePair Prod.fst _ _ _ _ 0 ?_ hrun coming⟩
  refine exampleDaemon.follows_of_forall (fun d trace input member => ?_) init []
  simp only [stopWrittenRun, List.mem_cons, List.not_mem_nil, or_false] at member
  rcases member with rfl | rfl | rfl | rfl | rfl | rfl | rfl | rfl
  on_goal 7 => exact fun task found => ⟨trivial, trivial⟩
  all_goals trivial

end Daemon

end CacheAction
