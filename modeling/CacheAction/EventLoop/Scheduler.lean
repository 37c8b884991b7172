import CacheAction.EventLoop.Conservation

/-!
# The upload scheduler

The path handlers of `run` are a work pool (`Loop.pool`) that three arms feed:
a computed closure submits a batch, and a completion in either loop lets the
first pending path start.  The books of a run already say that the pool is
saturated and that its queue is first-in, first-out with respect to the order in
which paths are scheduled.

It remains to say what that order is: the paths scheduled so far are the unseen
ones of the closures computed so far, read one after the other
(`run_firstSightings`).  `Scheduled` collects what holds of every reachable
state, and `run_scheduled` proves it.

Two closures that are computed at the same time may share paths.  The one that is recorded first
schedules them, and the other finds their hashes seen already; so the order is that of the
closures as they are *recorded*, and within one of them that of its list.
-/

namespace CacheAction

namespace EventLoop

variable {P K C H R : Type} [DecidableEq K] (hash : P → K)

/-- The paths scheduled are those whose hash is seen for the first time, in the
order of the computed closures and, inside a closure, of its paths. -/
def FirstSightings (led : Ledger P C H) : Prop :=
  led.firstSeen = unseen hash ∅ (led.closures.flatMap Prod.snd)

section Sightings

variable {hash} {led : Ledger P C H} {loop : Loop P K C H}

/-- Outputs without a closure and without a first sighting. -/
theorem FirstSightings.unrelated (sightings : FirstSightings hash led)
    (pushes closureErrors started handled reports) :
    FirstSightings hash (led ++ ⟨pushes, closureErrors, [], [], started, handled, reports⟩) := by
  simpa only [FirstSightings, Ledger.append_mk, List.append_nil] using sightings

/-- A computed closure adds its unseen paths. -/
theorem FirstSightings.closureComputed (sightings : FirstSightings hash led)
    (books : Books hash led loop) (path : P) (paths started : List P) :
    FirstSightings hash
      (led ++ ⟨[], [], [(path, paths)], unseen hash loop.seenStoreHashes paths, started,
        [], []⟩) := by
  have covered : loop.seenStoreHashes =
      ((led.closures.flatMap Prod.snd).map hash).toFinset := books.covered
  show led.firstSeen ++ unseen hash loop.seenStoreHashes paths =
    unseen hash ∅ ((led.closures ++ [(path, paths)]).flatMap Prod.snd)
  rw [List.flatMap_append, List.flatMap_singleton, unseen_append, Finset.empty_union, ← covered,
    ← (sightings : led.firstSeen = _)]

/-- What one event adds to the sightings. -/
theorem FirstSightings.effect {trace out : List (Obs P C H R)} {loop' : Loop P K C H}
    (sightings : FirstSightings hash (ledger trace)) (books : Books hash (ledger trace) loop)
    (effect : Effect hash loop loop' out) : FirstSightings hash (ledger (trace ++ out)) := by
  rw [ledger_append]
  cases effect with
  | idle => exact sightings.unrelated [] [] [] [] []
  | connected c => exact sightings.unrelated [] [] [] [] []
  | sent c item => exact sightings.unrelated [] [] [] [] []
  | clientClosed c => exact sightings.unrelated [] [] [] [] []
  | rxError e => exact sightings.unrelated [] [] [] [] []
  | push path selecting => exact sightings.unrelated [path] [] [] [] []
  | stop writer selecting =>
      have silent : ledger ((Obs.received (.stop writer) : Obs P C H R) ::
          loop.stopProgressWriter.toList.map .writerClosed) = ⟨[], [], [], [], [], [], []⟩ := by
        rcases loop.stopProgressWriter with _ | old <;> rfl
      rw [silent]
      exact sightings.unrelated [] [] [] [] []
  | closureFailed i path e selecting found => exact sightings.unrelated [] [(path, e)] [] [] []
  | closureComputed i path paths selecting found =>
      obtain ⟨-, sched⟩ := schedulePaths_eq (R := R) hash
        { loop with storeClosures := loop.storeClosures.eraseIdx i } paths
      rw [ledger_cons, sched.ledger_eq]
      exact sightings.closureComputed books path paths _
  | handled i path result selecting found =>
      rw [ledger_cons, (completePath_eq loop i path result).2.ledger_eq]
      exact sightings.unrelated [] [] _ [(path, result)] []
  | leaveLoop ok main done => exact sightings.unrelated [] [] [] [] []
  | drained i path result ok draining found =>
      rw [ledger_cons, ledger_cons (.handled path result),
        (completePath_eq loop i path result).2.ledger_eq]
      exact sightings.unrelated [] [] _ [(path, result)] []
  | finish writer ok draining idle requested =>
      exact sightings.unrelated [] [] [] [] [(writer, loop.report)]

end Sightings

/-- Every run schedules the paths in the order in which their hashes are first
seen. -/
theorem run_firstSightings {is : List (Input P C H R)} {s : State P K C H R}
    {trace : List (Obs P C H R)} (hrun : (machine hash).run init is = some (s, trace)) :
    FirstSightings hash (ledger trace) := by
  have start : Books hash (ledger ([] : List (Obs P C H R))) (init : State P K C H R).loop ∧
      FirstSightings hash (ledger ([] : List (Obs P C H R))) := ⟨Books.initial, rfl⟩
  have kept := (machine hash).run_invariant
    (I := fun s trace => Books hash (ledger trace) s.loop ∧ FirstSightings hash (ledger trace))
    (fun s trace i s' out held hstep =>
      ⟨held.1.effect (step_effect hash hstep), held.2.effect held.1 (step_effect hash hstep)⟩)
    start hrun
  simpa using kept.2

/-- What the scheduler guarantees in every state of a run. -/
structure Scheduled (led : Ledger P C H) (loop : Loop P K C H) : Prop where
  /-- At most `MAX_CONCURRENT_STORE_PATHS` handlers are running. -/
  bounded : loop.handleStorePaths.length ≤ maxConcurrentStorePaths
  /-- A path is only pending while that many are. -/
  conserving : loop.pendingHandleStorePaths ≠ [] →
    loop.handleStorePaths.length = maxConcurrentStorePaths
  /-- The paths seen first, in the order of the closures, one for each hash. -/
  sightings : FirstSightings hash led
  distinct : (led.firstSeen.map hash).Nodup
  /-- The paths started, in the order of their start, and then the pending ones,
  in the order of the queue, are the paths in the order of their first
  sighting. -/
  fifo : led.started ++ loop.pendingHandleStorePaths = led.firstSeen
  /-- A started path is either handled or still running. -/
  running : led.started.Perm (led.handled.map Prod.fst ++ loop.handleStorePaths)
  /-- Once nothing is running, nothing is left unstarted. -/
  emptied : loop.handleStorePaths = [] →
    loop.pendingHandleStorePaths = [] ∧ led.started = led.firstSeen

/-- **The scheduler is bounded, work-conserving and first-in, first-out**, in
every state that a run can reach.

The pool by itself has these properties after any submissions and completions; the event
loop only submits, starts and retires (`Books.pool`), in the main loop and in the drain. -/
theorem run_scheduled {is : List (Input P C H R)} {s : State P K C H R}
    {trace : List (Obs P C H R)} (hrun : (machine hash).run init is = some (s, trace)) :
    Scheduled hash (ledger trace) s.loop := by
  have books := run_books hash hrun
  exact {
    bounded := books.pool.saturated.bounded
    conserving := books.pool.saturated.busy
    sightings := run_firstSightings hash hrun
    distinct := books.distinct
    fifo := books.pool.queue
    running := books.pool.running
    emptied := fun idle => by
      obtain ⟨noneWaiting, allStarted, -⟩ := books.pool.retired_of_idle (by decide) idle
      exact ⟨noneWaiting, allStarted⟩ }

/-- Two closures of more than `MAX_CONCURRENT_STORE_PATHS` paths, with a
repetition in each, and a completion in either loop. -/
def overloadedRun : List (Input ℕ Unit Unit Unit) :=
  [.connect 0, .send 0 (.ok (.pushStorePath 0)), .send 0 (.ok (.pushStorePath 1)), .close 0,
    .accept, .handleIo 0, .handleIo 0, .recv, .recv,
    .closureDone 1 (.ok (0 :: List.range 34)), .pathDone 7 (.ok none), .connect 1,
    .send 1 (.ok .stopDaemon), .accept, .handleIo 1, .recv,
    .closureDone 0 (.ok (List.range 40)), .leaveLoop true, .drainDone 31 (.ok none) false]

/-- Forty paths in one closure: six of them wait for the first handlers to return. -/
theorem run_scheduled_overloaded :
    ∃ (s : State ℕ ℕ Unit Unit Unit) (trace : List (Obs ℕ Unit Unit Unit)),
      (machine id).run init overloadedRun = some (s, trace) ∧
        s.loop.pendingHandleStorePaths = [34, 35, 36, 37, 38, 39] ∧
        Scheduled id (ledger trace) s.loop := by
  have reached : ((machine id).run init overloadedRun).map
      (fun p => p.1.loop.pendingHandleStorePaths) = some [34, 35, 36, 37, 38, 39] := by
    decide +kernel
  obtain ⟨⟨s, trace⟩, hrun, pending⟩ := Option.map_eq_some_iff.mp reached
  exact ⟨s, trace, hrun, pending, run_scheduled id hrun⟩

end EventLoop

end CacheAction
