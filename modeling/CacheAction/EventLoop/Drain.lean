import CacheAction.EventLoop.Conservation
import CacheAction.EventLoop.StopProgressReporter

/-!
# Draining after a stop

When the main loop is left, `run` tells the stop client how many paths are left
to handle, goes on until all of them are handled, and writes its report.  Here
the daemon runs together with the reporter: `reporting` performs the steps of
`machine` and hands what they report to a `RealStopProgressReporter`, whose
socket decides which writes succeed.

* What is reported is complete (`Drains`): as many paths as were announced, each
  of them once, and then the final report.
* The socket has no influence (`run_unaffected`): runs with the same events
  agree in everything but the outcomes of the writes.

`drain_complete` puts the two together, for every state in which the main loop
is left.

What the client sees is a prefix of what is reported, if it leaves.  The theorem does not say
so by comparing two clients that leave at different moments.  It compares any two sockets,
and the runs of the daemon in front of them are the same input by input, so neither can have
waited for its client.

The paths that are reported are a permutation of those outstanding when the main loop is left,
and not that list: handlers return in any order.  What is fixed is the order in which they are
*started* (`CacheAction.EventLoop.Scheduler`).
-/

namespace CacheAction

namespace EventLoop

variable {P K C H R : Type}

/-! ## The reporter beside the daemon -/

/-- The call of the drain loop for a handled path. -/
def notification (path : P) : HandleResult H → Report P C H
  | .ok (some numBytes) => .pathPushed path numBytes
  | .ok none => .pathSkipped path
  | .error e => .pathHandlingError path e

/-- The call of the reporter that an output stands for. -/
def Obs.toReport : Obs P C H R → Option (Report P C H)
  | .pathsLeftToHandle n _ => some (.pathsLeftToHandle n)
  | .notified path result _ => some (notification path result)
  | .finalReport _ report _ => some (.finalReport report)
  | _ => none

/-- The calls of the reporter in a trace. -/
def reports (trace : List (Obs P C H R)) : List (Report P C H) :=
  trace.filterMap Obs.toReport

theorem reports_append (trace out : List (Obs P C H R)) :
    reports (trace ++ out) = reports trace ++ reports out :=
  List.filterMap_append

/-- The same event, with another outcome of the write. -/
def Input.withOk (ok : Bool) : Input P C H R → Input P C H R
  | .leaveLoop _ => .leaveLoop ok
  | .drainDone i result _ => .drainDone i result ok
  | .finish _ => .finish ok
  | input => input

/-- An output without the outcome of its write. -/
def Obs.forgetOk : Obs P C H R → Obs P C H R
  | .pathsLeftToHandle n _ => .pathsLeftToHandle n true
  | .notified path result _ => .notified path result true
  | .finalReport writer report _ => .finalReport writer report true
  | o => o

/-- The daemon and the reporter for its stop client. -/
structure Reporting (P K C H R : Type) where
  state : State P K C H R
  reporter : RealStopProgressReporter

variable [DecidableEq K] (hash : P → K) (print : Printers P C H)

/-- The daemon with its reporter: a write succeeds if the socket says so. -/
def reporting : Machine (Reporting P K C H R) (Input P C H R) (Obs P C H R) where
  step s input :=
    (step hash s.state (input.withOk s.reporter.writer.succeeds)).map fun p =>
      ({ state := p.1, reporter := (reports p.2).foldl (.call print) s.reporter }, p.2)

/-! ## The socket has no influence -/

/-- What does not depend on the outcomes of the writes. -/
def unaffected (p : State P K C H R × List (Obs P C H R)) :
    State P K C H R × List (Obs P C H R) :=
  (p.1, p.2.map Obs.forgetOk)

section Independence

/-- The outcome of a write changes nothing but the record of it. -/
theorem step_withOk (s : State P K C H R) (input : Input P C H R) (ok ok' : Bool) :
    (step hash s (input.withOk ok)).map unaffected =
      (step hash s (input.withOk ok')).map unaffected := by
  cases input with
  | leaveLoop _ =>
      simp only [Input.withOk, step]
      split <;> rfl
  | drainDone i result _ =>
      simp only [Input.withOk, step]
      split
      · rcases s.loop.pathDone i result with _ | after <;> rfl
      · rfl
  | finish _ =>
      simp only [Input.withOk, step]
      split
      · rcases s.loop.stopProgressWriter with _ | writer <;> rfl
      · rfl
  | connect c => rfl
  | send c item => rfl
  | close c => rfl
  | handleIo c => rfl
  | accept => rfl
  | recv => rfl
  | closureDone i result => rfl
  | pathDone i result => rfl

omit [DecidableEq K] in
/-- What precedes a trace is compared on its own. -/
theorem unaffected_append (out : List (Obs P C H R)) :
    (fun p : Reporting P K C H R × List (Obs P C H R) => unaffected (p.1.state, p.2)) ∘
        (fun q => (q.1, out ++ q.2)) =
      (fun q => (q.1, out.map Obs.forgetOk ++ q.2)) ∘
        fun p : Reporting P K C H R × List (Obs P C H R) => unaffected (p.1.state, p.2) := by
  funext p
  simp [unaffected]

variable {hash} {print}

/-- **The socket has no influence.**  Whatever the reporters, the same events give
the same states and the same outputs, up to the outcomes of the writes. -/
theorem run_unaffected (is : List (Input P C H R)) (s : State P K C H R)
    (reporter reporter' : RealStopProgressReporter) :
    ((reporting hash print).run ⟨s, reporter⟩ is).map (fun p => unaffected (p.1.state, p.2)) =
      ((reporting hash print).run ⟨s, reporter'⟩ is).map
        (fun p => unaffected (p.1.state, p.2)) := by
  induction is generalizing s reporter reporter' with
  | nil => rfl
  | cons input rest ih =>
      have same := step_withOk hash s input reporter.writer.succeeds
        reporter'.writer.succeeds
      simp only [Machine.run_cons, reporting]
      generalize step hash s (input.withOk reporter.writer.succeeds) = first at same ⊢
      generalize step hash s (input.withOk reporter'.writer.succeeds) = second at same ⊢
      rcases first with _ | ⟨s₁, out⟩ <;> rcases second with _ | ⟨s₂, out'⟩
      · rfl
      · cases same
      · cases same
      · obtain ⟨rfl, outs⟩ := Prod.ext_iff.mp (Option.some.inj same)
        change out.map Obs.forgetOk = out'.map Obs.forgetOk at outs
        have next := ih s₁ ((reports out).foldl (.call print) reporter)
          ((reports out').foldl (.call print) reporter')
        simp only [Option.map_some, Option.bind_some, Option.map_map, unaffected_append]
        rw [← Option.map_map, ← Option.map_map, outs]
        exact congrArg _ next

end Independence

/-! ## What is reported -/

/-- The paths that have been started or are pending, and not handled yet. -/
def outstanding (loop : Loop P K C H) : List P :=
  loop.handleStorePaths ++ loop.pendingHandleStorePaths

/-- The calls of the reporter up to now: the number of paths that were outstanding
when the main loop was left, then the paths handled since, and in the end the
report. -/
def expectedCalls (start loop : Loop P K C H) (notes : List (P × HandleResult H)) :
    List (Report P C H) :=
  let announced := Report.pathsLeftToHandle (outstanding start).length
  let notified := notes.map fun note => notification note.1 note.2
  match loop.phase with
  | .mainLoop => []
  | .draining => announced :: notified
  | .finished => announced :: (notified ++ [.finalReport loop.report])

/-- The drain so far, `notes` being the paths handled since the main loop was
left. -/
structure Drains (start loop : Loop P K C H) (notes : List (P × HandleResult H))
    (calls : List (Report P C H)) : Prop where
  calls : calls = expectedCalls start loop notes
  paths : (notes.map Prod.fst ++ outstanding loop).Perm (outstanding start)
  recorded : loop.report = notes.foldl (fun report note => report.record note.1 note.2)
    start.report
  unchanged : loop.phase = .mainLoop → loop = start ∧ notes = []

section Steps

omit [DecidableEq K] in
/-- In the drain, the messages are the number of paths and then one for each path. -/
theorem expectedCalls_of_draining (start loop : Loop P K C H) (draining : loop.phase = .draining)
    (notes : List (P × HandleResult H)) :
    expectedCalls start loop notes =
      .pathsLeftToHandle (outstanding start).length ::
        notes.map fun note => notification note.1 note.2 := by
  rw [expectedCalls, draining]

variable {hash} {start loop loop' : Loop P K C H} {notes : List (P × HandleResult H)}
  {calls : List (Report P C H)} {out : List (Obs P C H R)}

omit [DecidableEq K] in
theorem drains_start (main : start.phase = .mainLoop) : Drains start start [] [] where
  calls := by rw [expectedCalls, main]
  paths := List.Perm.refl _
  recorded := rfl
  unchanged := fun _ => ⟨rfl, rfl⟩

omit [DecidableEq K] in
/-- What scheduling emits is not reported. -/
theorem Schedules.unreported {fresh begun : List P} (sched : Schedules out fresh begun) :
    reports out = [] := by
  refine List.filterMap_eq_nil_iff.mpr fun o member => ?_
  rcases sched.only o member with ⟨path, rfl⟩ | ⟨path, rfl⟩ <;> rfl

omit [DecidableEq K] in
/-- The main loop is left. -/
theorem Drains.leaveLoop (drains : Drains start loop notes calls) (main : loop.phase = .mainLoop)
    (few : (outstanding start).length < 2 ^ 32) :
    Drains start { loop with phase := .draining } notes
      (calls ++ [.pathsLeftToHandle
        ((loop.handleStorePaths.length + loop.pendingHandleStorePaths.length) % 2 ^ 32)]) := by
  obtain ⟨rfl, rfl⟩ := drains.unchanged main
  have none_called : calls = [] := by rw [drains.calls, expectedCalls, main]
  have number : (loop.handleStorePaths.length + loop.pendingHandleStorePaths.length) % 2 ^ 32 =
      (outstanding loop).length := by
    rw [← List.length_append]
    exact Nat.mod_eq_of_lt few
  exact { drains with
    calls := by
      rw [none_called, number]
      rfl
    unchanged := by rintro ⟨⟩ }

omit [DecidableEq K] in
/-- A handler completes: its path is no longer outstanding. -/
theorem Drains.completePath (drains : Drains start loop notes calls)
    (draining : loop.phase = .draining) {i : ℕ} {path : P} (result : HandleResult H)
    (found : loop.handleStorePaths[i]? = some path) :
    Drains start
      { loop.withPool (loop.pool.retire i).1 with report := loop.report.record path result }
      (notes ++ [(path, result)]) (calls ++ [notification path result]) where
  calls := by
    rw [drains.calls, expectedCalls_of_draining start loop draining,
      expectedCalls_of_draining start { loop.withPool _ with report := _ } draining,
      List.map_append, List.cons_append]
    rfl
  paths := by
    obtain ⟨valid, rfl⟩ := List.getElem?_eq_some_iff.mp found
    have left : (loop.pool.retire i).1.running ++ (loop.pool.retire i).1.pending =
        loop.handleStorePaths.eraseIdx i ++ loop.pendingHandleStorePaths := by
      rw [WorkPool.retire_running, List.append_assoc, WorkPool.retire_queue]
      rfl
    show (_ ++ ((loop.pool.retire i).1.running ++ (loop.pool.retire i).1.pending)).Perm _
    refine List.Perm.trans ?_ drains.paths
    rw [left, List.map_append, List.append_assoc]
    refine List.Perm.append_left _ ?_
    exact (List.getElem_cons_eraseIdx_perm valid).append_right loop.pendingHandleStorePaths
  recorded := by
    rw [List.foldl_append, ← drains.recorded]
    rfl
  unchanged := fun main => absurd (show loop.phase = .mainLoop from main) (by simp [draining])

omit [DecidableEq K] in
/-- The final report is written. -/
theorem Drains.finish (drains : Drains start loop notes calls) (draining : loop.phase = .draining) :
    Drains start { loop with phase := .finished } notes (calls ++ [.finalReport loop.report]) :=
  { drains with
    calls := by
      rw [drains.calls, expectedCalls_of_draining start loop draining]
      rfl
    unchanged := by rintro ⟨⟩ }

/-- **Every event keeps the drain complete.** -/
theorem Drains.effect (drains : Drains start loop notes calls)
    (left : start.selecting = false) (few : (outstanding start).length < 2 ^ 32)
    (effect : Effect hash loop loop' out) :
    ∃ notes', Drains start loop' notes' (calls ++ reports out) := by
  have stopped : loop.selecting ≠ true := by
    intro selecting
    obtain ⟨rfl, -⟩ := drains.unchanged (main_of_selecting selecting)
    rw [left] at selecting
    cases selecting
  have silent : ∀ {o : Obs P C H R}, o.toReport = none → calls ++ reports [o] = calls := by
    intro o none_reported
    rw [reports, List.filterMap_cons_none none_reported, List.filterMap_nil, List.append_nil]
  cases effect with
  | idle => exact ⟨notes, by simpa [reports] using drains⟩
  | connected c => exact ⟨notes, by rwa [silent rfl]⟩
  | sent c item => exact ⟨notes, by rwa [silent rfl]⟩
  | clientClosed c => exact ⟨notes, by rwa [silent rfl]⟩
  | rxError e => exact ⟨notes, by rwa [silent rfl]⟩
  | push path selecting => exact absurd selecting stopped
  | stop writer selecting => exact absurd selecting stopped
  | closureFailed i path e selecting found => exact absurd selecting stopped
  | closureComputed i path paths selecting found => exact absurd selecting stopped
  | handled i path result selecting found => exact absurd selecting stopped
  | leaveLoop ok main done => exact ⟨notes, drains.leaveLoop main few⟩
  | drained i path result ok draining found =>
      obtain ⟨state, sched⟩ := completePath_eq (R := R) loop i path result
      refine ⟨notes ++ [(path, result)], ?_⟩
      have called : reports (.notified path result ok :: .handled path result ::
          (loop.completePath (R := R) i path result).2) = [notification path result] :=
        congrArg (notification path result :: ·) sched.unreported
      rw [state, called]
      exact drains.completePath draining result found
  | finish writer ok draining idle requested => exact ⟨notes, drains.finish draining⟩

end Steps

/-! ## The drain as a whole -/

/-- The steps of the daemon, and the calls that the reporter has got. -/
theorem run_of_reporting {is : List (Input P C H R)} {d d' : Reporting P K C H R}
    {tail : List (Obs P C H R)} (hrun : (reporting hash print).run d is = some (d', tail)) :
    (∃ is', (machine hash).run d.state is' = some (d'.state, tail)) ∧
      d'.reporter = (reports tail).foldl (.call print) d.reporter := by
  induction is generalizing d tail with
  | nil =>
      cases hrun
      exact ⟨⟨[], rfl⟩, rfl⟩
  | cons input rest ih =>
      obtain ⟨d₁, out, tail', hstep, hrest, rfl⟩ :=
        ((reporting hash print).run_cons_eq_some).mp hrun
      obtain ⟨⟨s₁, out₁⟩, done, heq⟩ := Option.map_eq_some_iff.mp hstep
      cases heq
      obtain ⟨⟨is', hrun'⟩, reporter⟩ := ih hrest
      refine ⟨⟨input.withOk d.reporter.writer.succeeds :: is', ?_⟩, ?_⟩
      · exact ((machine hash).run_cons_eq_some).mpr ⟨s₁, _, _, done, hrun', rfl⟩
      · rw [reporter, reports_append, List.foldl_append]

/-- The drain is complete along every run that starts with it. -/
theorem run_drains {is : List (Input P C H R)} {start s : State P K C H R}
    {tail : List (Obs P C H R)} (main : start.loop.phase = .mainLoop)
    (left : start.loop.selecting = false) (few : (outstanding start.loop).length < 2 ^ 32)
    (hrun : (machine hash).run start is = some (s, tail)) :
    ∃ notes, Drains start.loop s.loop notes (reports tail) := by
  have begun : ∃ notes, Drains start.loop start.loop notes
      (reports ([] : List (Obs P C H R))) := ⟨[], drains_start main⟩
  have kept := (machine hash).run_invariant
    (I := fun s tail => ∃ notes, Drains start.loop s.loop notes (reports tail))
    (fun s tail i s' out held hstep => by
      obtain ⟨notes, drains⟩ := held
      rw [reports_append]
      exact drains.effect left few (step_effect hash hstep))
    begun hrun
  simpa using kept

variable {hash} in
/-- The outstanding paths were seen for the first time, so that their hashes differ. -/
theorem Books.nodup_outstanding {led : Ledger P C H} {loop : Loop P K C H}
    (books : Books hash led loop) : ((outstanding loop).map hash).Nodup := by
  have started := books.pool.running.append_right loop.pool.pending
  rw [books.pool.queue, List.append_assoc] at started
  have nodup := (started.map hash).nodup_iff.mp books.distinct
  rw [List.map_append] at nodup
  exact nodup.of_append_right

/-- What holds of a drain: `start` is the state in which the main loop is left,
`d` and `tail` are the state and the trace after the events `is`, and `notes` are
the paths handled since. -/
structure DrainComplete (start : State P K C H R) (socket : Socket) (is : List (Input P C H R))
    (d : Reporting P K C H R) (tail : List (Obs P C H R)) (notes : List (P × HandleResult H)) :
    Prop where
  /-- The number of outstanding paths is announced, the paths handled since are
  reported in their order, and the report comes last. -/
  calls : reports tail = expectedCalls start.loop d.state.loop notes
  /-- Each outstanding path is reported once or still outstanding. -/
  paths : (notes.map Prod.fst ++ outstanding d.state.loop).Perm (outstanding start.loop)
  /-- No two of them have the same hash. -/
  distinct : ((outstanding start.loop).map hash).Nodup
  /-- The report counts what has been reported. -/
  recorded : d.state.loop.report =
    notes.foldl (fun report note => report.record note.1 note.2) start.loop.report
  /-- In the end, as many paths have been reported as were announced. -/
  counted : d.state.loop.phase = .finished →
    notes.length = (outstanding start.loop).length ∧ outstanding d.state.loop = []
  /-- Until then any running handler may complete, and when none is left the
  report is written. -/
  completes : d.state.loop.phase = .draining → ∀ i < d.state.loop.handleStorePaths.length,
    ∀ result ok, ((reporting hash print).step d (.drainDone i result ok)).isSome
  closes : d.state.loop.phase = .draining → d.state.loop.handleStorePaths = [] →
    outstanding d.state.loop = [] ∧ ∀ ok, ((reporting hash print).step d (.finish ok)).isSome
  /-- With another socket, the same handlers are started, with the same results
  and the same report. -/
  independent : ∀ other, ∃ d' tail',
    (reporting hash print).run ⟨start, .new other⟩ is = some (d', tail') ∧
      d'.state = d.state ∧ tail'.map Obs.forgetOk = tail.map Obs.forgetOk
  /-- A client whose socket does not fail receives the messages of the calls. -/
  received : socket.Reliable → d.reporter.writer.received =
    socket.received ++ utf8 (RealStopProgressReporter.messages print false (reports tail))

section Progress

variable {hash} {print} {d : Reporting P K C H R}

theorem completes_of_draining (draining : d.state.loop.phase = .draining) {i : ℕ}
    (valid : i < d.state.loop.handleStorePaths.length) (result : HandleResult H) (ok : Bool) :
    ((reporting hash print).step d (.drainDone i result ok)).isSome := by
  simp [reporting, Input.withOk, step, draining, Loop.pathDone, List.getElem?_eq_getElem valid]

theorem closes_of_draining (draining : d.state.loop.phase = .draining)
    (idle : d.state.loop.handleStorePaths = []) {writer : ConnId}
    (requested : d.state.loop.stopProgressWriter = some writer) (ok : Bool) :
    ((reporting hash print).step d (.finish ok)).isSome := by
  simp [reporting, Input.withOk, step, draining, idle, requested]

end Progress

/-- **The drain after a stop is complete and independent of the stop client**,
from every state in which the main loop is left with fewer than `2 ^ 32` paths
outstanding.

The reporter runs beside the event loop and never gives it an input, so the two can be
separated: the messages are those of a run of the event loop (`run_drains`), and what the
client's socket does with them changes the reporter alone (`run_unaffected`).  A client that
has gone sees less of the drain and does not shorten it. -/
theorem drain_complete {before is : List (Input P C H R)} {start : State P K C H R}
    {trace tail : List (Obs P C H R)} {d : Reporting P K C H R} {socket : Socket}
    (reached : (machine hash).run init before = some (start, trace))
    (main : start.loop.phase = .mainLoop) (left : start.loop.selecting = false)
    (few : (outstanding start.loop).length < 2 ^ 32)
    (hrun : (reporting hash print).run ⟨start, .new socket⟩ is = some (d, tail)) :
    ∃ notes, DrainComplete hash print start socket is d tail notes := by
  obtain ⟨⟨is', after⟩, reporter⟩ := run_of_reporting hash print hrun
  have books := run_books hash ((machine hash).run_append reached after)
  obtain ⟨notes, drains⟩ := run_drains hash main left few after
  have idle : d.state.loop.handleStorePaths = [] → outstanding d.state.loop = [] := by
    intro none_running
    rw [outstanding, none_running, List.nil_append]
    exact (books.pool.retired_of_idle (by decide) none_running).1
  refine ⟨notes, ?_⟩
  exact {
    calls := drains.calls
    paths := drains.paths
    distinct := (run_books hash reached).nodup_outstanding
    recorded := drains.recorded
    counted := by
      intro finished
      have none_left := idle (books.emptied finished)
      refine ⟨?_, none_left⟩
      have length := drains.paths.length_eq
      rwa [none_left, List.append_nil, List.length_map] at length
    completes := fun draining i valid result ok => completes_of_draining draining valid result ok
    closes := by
      intro draining none_running
      obtain ⟨writer, requested⟩ :=
        Option.isSome_iff_exists.mp (books.stopping (by simp [draining])).2
      exact ⟨idle none_running, closes_of_draining draining none_running requested⟩
    independent := by
      intro other
      -- the runs differ in what the sockets took, and in nothing else
      have same : _ = ((reporting hash print).run ⟨start, .new other⟩ is).map _ :=
        run_unaffected is start (.new socket) (.new other)
      rw [hrun] at same
      obtain ⟨⟨d', tail'⟩, hrun', heq⟩ := Option.map_eq_some_iff.mp same.symm
      obtain ⟨state, outs⟩ := Prod.ext_iff.mp heq
      exact ⟨d', tail', hrun', state, outs⟩
    received := by
      intro reliable
      rw [reporter]
      exact RealStopProgressReporter.received_of_reliable _ (reports tail) reliable }

/-- A stop is requested while two paths are being handled. -/
def stoppedRun : List (Input ℕ Unit Unit Unit) :=
  [.connect 0, .send 0 (.ok (.pushStorePath 7)), .close 0, .accept, .handleIo 0, .recv,
    .closureDone 0 (.ok [7, 9, 7]), .connect 1, .send 1 (.ok .stopDaemon), .accept, .handleIo 1,
    .recv]

/-- Both paths are handled, one of them with an error. -/
def drainRun : List (Input ℕ Unit Unit Unit) :=
  [.leaveLoop true, .drainDone 1 (.error ()) true, .drainDone 0 (.ok none) true, .finish true]

/-- Paths are printed as numbers, and errors without a cause. -/
def numberPrinters : Printers ℕ Unit Unit where
  path := toString
  closureError _ := { message := "no closure", causes := [] }
  handlingError _ := { message := "not handled", causes := ["no network"] }

/-- A client that disconnects after the first message. -/
def leavingClient : Socket where
  received := []
  outcomes k := if k = 0 then .accepted else .broken 0

/-- A stop client that leaves during the drain. -/
theorem drain_complete_leaving_client :
    ∃ (start : State ℕ ℕ Unit Unit Unit) (trace : List (Obs ℕ Unit Unit Unit))
      (d : Reporting ℕ ℕ Unit Unit Unit) (tail : List (Obs ℕ Unit Unit Unit))
      (notes : List (ℕ × HandleResult Unit)),
      (machine id).run init stoppedRun = some (start, trace) ∧
        (reporting id numberPrinters).run ⟨start, .new leavingClient⟩ drainRun = some (d, tail) ∧
        d.state.loop.phase = .finished ∧
        DrainComplete id numberPrinters start leavingClient drainRun d tail notes := by
  obtain ⟨start, trace, reached, main, left, few, d, tail, hrun, finished⟩ :
      ∃ (start : State ℕ ℕ Unit Unit Unit) (trace : List (Obs ℕ Unit Unit Unit)),
        (machine id).run init stoppedRun = some (start, trace) ∧
          start.loop.phase = .mainLoop ∧ start.loop.selecting = false ∧
          (outstanding start.loop).length < 2 ^ 32 ∧
          ∃ (d : Reporting ℕ ℕ Unit Unit Unit) (tail : List (Obs ℕ Unit Unit Unit)),
            (reporting id numberPrinters).run ⟨start, .new leavingClient⟩ drainRun =
              some (d, tail) ∧ d.state.loop.phase = .finished :=
    ⟨_, _, rfl, rfl, rfl, by decide, _, _, rfl, rfl⟩
  obtain ⟨notes, complete⟩ :=
    drain_complete id numberPrinters reached main left few hrun
  exact ⟨start, trace, d, tail, notes, reached, hrun, finished, complete⟩

end EventLoop

end CacheAction
