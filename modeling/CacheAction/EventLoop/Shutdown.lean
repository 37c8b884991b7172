import CacheAction.EventLoop.Drain
import CacheAction.EventLoop.StopRequests
import CacheAction.Foundations.Quiescence
import Mathlib.Algebra.Order.BigOperators.Group.List

/-!
# A daemon that is left alone

All the inputs but those of the clients are the daemon's own work: its tasks read
what has been written, closures and handlers complete, one way or the other.  When
the clients are silent the daemon comes to rest, since each of its steps moves the
work that is left closer to the end (`workload`): from the listener to the tasks,
from there to the channel, from a push to its closure and from a closure, however
long, to handlers.

At rest everything received has been settled (`silent_daemon_settles`), and when a
stop request was on its way, the daemon has finished (`stop_finishes`).

### What is the daemon's own work

The completion of a closure and that of a handler are inputs of the event loop: it is the
store and the servers that decide when they come and what they bring.  They count as own work
here, because nobody has to ask for them and their number is bounded by what the loop has
started; that they do come is not a matter of the event loop, and it is proved for the
handlers where these are modelled (`CacheAction.StorePath.Completion`,
`CacheAction.Daemon.Completion`).  So the two theorems say that the *loop* does not get in its
own way: it neither spins nor waits for something that nobody will bring.

A closure may have any number of paths, so no sum of collections becomes smaller in every
step.  The measure is lexicographic instead: a step may add any amount to a component, if it
takes something off an earlier one.
-/

namespace CacheAction

namespace EventLoop

variable {P K C H R : Type}

/-- The input is not one of a client: a task of a connection, an arm of `run`, or the
completion of a closure or a handler. -/
def Input.own : Input P C H R → Bool
  | .connect _ => false
  | .send _ _ => false
  | .close _ => false
  | _ => true

/-! ## Inversion of the own steps -/

/-- What an own step can do, as far as its measure and the stop request are concerned.  What
a completed closure schedules and what a handler has returned do not matter, so that the two
phases of `run` need not be told apart for them. -/
inductive OwnEffect (s : State P K C H R) : State P K C H R → Prop where
  | returned {c conn} (running : c ∈ s.net.tasks) (found : s.net.clients c = some conn)
      (spent : conn.rxDone = true ∨ conn.inbox = []) :
      OwnEffect s { s with net := { s.net with tasks := s.net.tasks.erase c } }
  | forwarded {c conn item rest tasks} (running : c ∈ s.net.tasks)
      (found : s.net.clients c = some conn) (next : conn.inbox = item :: rest)
      (tasks_eq : tasks = s.net.tasks ∨ item = .ok .stopDaemon ∧ tasks = s.net.tasks.erase c) :
      OwnEffect s
        { s with
          net := { s.net with
            clients := Function.update s.net.clients c
              (some { conn with inbox := rest, rxDone := Net.isLast item })
            tasks, channel := s.net.channel ++ [forward c item] } }
  | accepted {c rest} (waiting : s.net.listener = c :: rest) :
      OwnEffect s
        { s with net := { s.net with listener := rest, tasks := s.net.tasks ++ [c] } }
  | received {message rest} (channel : s.net.channel = message :: rest) :
      OwnEffect s
        { net := { s.net with channel := rest }, loop := (s.loop.recv (R := R) message).1 }
  | closureDone {i path loop} (found : s.loop.storeClosures[i]? = some path)
      (phase : loop.phase = s.loop.phase)
      (closures : loop.storeClosures = s.loop.storeClosures.eraseIdx i)
      (writer : loop.stopProgressWriter = s.loop.stopProgressWriter) :
      OwnEffect s { s with loop }
  | pathDone {loop} (phase : loop.phase = s.loop.phase)
      (closures : loop.storeClosures = s.loop.storeClosures)
      (fewer : (outstanding loop).length < (outstanding s.loop).length)
      (writer : loop.stopProgressWriter = s.loop.stopProgressWriter) :
      OwnEffect s { s with loop }
  | leaveLoop (main : s.loop.phase = .mainLoop) :
      OwnEffect s { s with loop := { s.loop with phase := .draining } }
  | finish (draining : s.loop.phase = .draining) :
      OwnEffect s { s with loop := { s.loop with phase := .finished } }

/-- The task of a connection returns or forwards a message. -/
theorem handleIo_own {s : State P K C H R} {c : ConnId} {net : Net P R}
    (h : s.net.handleIo c = some net) : OwnEffect s { s with net } := by
  unfold Net.handleIo at h
  split at h
  · cases h
  · rename_i running
    have running : c ∈ s.net.tasks := not_not.mp running
    split at h
    · cases h
    · rename_i conn found
      split at h
      · rename_i done
        cases h
        exact .returned running found (.inl done)
      · split at h
        · rename_i empty
          split at h
          · cases h
            exact .returned running found (.inr empty)
          · cases h
        · rename_i item rest next
          rcases item with e | (path | _)
          · cases h
            exact .forwarded running found next (.inl rfl)
          · cases h
            exact .forwarded running found next (.inl rfl)
          · cases h
            exact .forwarded running found next (.inr ⟨rfl, rfl⟩)

/-- A completed handler leaves less to do, whether or not another one starts. -/
theorem completePath_own {s : State P K C H R} {i : ℕ} {path : P} (result : HandleResult H)
    (found : s.loop.handleStorePaths[i]? = some path) :
    OwnEffect s { s with loop := (s.loop.completePath (R := R) i path result).1 } := by
  rw [(completePath_eq s.loop i path result).1]
  refine .pathDone rfl rfl ?_ rfl
  obtain ⟨valid, -⟩ := List.getElem?_eq_some_iff.mp found
  have left : outstanding { s.loop.withPool (s.loop.pool.retire i).1 with
      report := s.loop.report.record path result } =
        s.loop.handleStorePaths.eraseIdx i ++ s.loop.pendingHandleStorePaths := by
    show (s.loop.pool.retire i).1.running ++ (s.loop.pool.retire i).1.pending = _
    rw [WorkPool.retire_running, List.append_assoc, WorkPool.retire_queue]
    rfl
  rw [left, outstanding, List.length_append, List.length_append, List.length_eraseIdx_of_lt valid]
  omega

/-- **Inversion of an own step.** -/
theorem step_own [DecidableEq K] (hash : P → K) {s s' : State P K C H R} {i : Input P C H R}
    {out : List (Obs P C H R)}
    (own : i.own = true) (h : step hash s i = some (s', out)) : OwnEffect s s' := by
  cases step_turn hash h with
  | connect | send | close => cases own
  | handleIo done => exact handleIo_own done
  | accept selecting waiting => exact .accepted waiting
  | recv selecting channel => exact .received channel
  | closureFailed selecting found => exact .closureDone found rfl rfl rfl
  | closureComputed selecting found =>
      rw [(schedulePaths_eq hash _ _).1]
      exact .closureDone found rfl rfl rfl
  | pathDone selecting found => exact completePath_own _ found
  | leaveLoop main done => exact .leaveLoop main
  | drainDone draining found => exact completePath_own _ found
  | finish draining idle requested => exact .finish draining

/-! ## The measure -/

/-- What the task of a connection still has to do: its messages, and its return. -/
def Net.load (net : Net P R) (c : ConnId) : ℕ :=
  match net.clients c with
  | none => 1
  | some conn => conn.inbox.length + 1

/-- How far `run` is from its end. -/
def Phase.rank : Phase → ℕ
  | .mainLoop => 2
  | .draining => 1
  | .finished => 0

/-- The work that is left, in the order in which it makes other work: leaving a phase, then
accepting a connection, forwarding a message, receiving it, computing its closure, and last
handling a path. -/
def workload (s : State P K C H R) : ℕ ×ₗ ℕ ×ₗ ℕ ×ₗ ℕ ×ₗ ℕ ×ₗ ℕ :=
  toLex (s.loop.phase.rank, toLex (s.net.listener.length,
    toLex ((s.net.tasks.map s.net.load).sum, toLex (s.net.channel.length,
      toLex (s.loop.storeClosures.length, (outstanding s.loop).length)))))

/-- A task that has returned has nothing left to do. -/
theorem load_erase (net : Net P R) {c : ConnId} (running : c ∈ net.tasks) :
    ((net.tasks.erase c).map net.load).sum < (net.tasks.map net.load).sum := by
  have split := ((List.perm_cons_erase running).map net.load).sum_eq
  have some_load : 0 < net.load c := by
    unfold Net.load
    split <;> omega
  rw [split, List.map_cons, List.sum_cons]
  omega

/-- A task that has handled an item has less left to do. -/
theorem load_update {net : Net P R} {c : ConnId} {conn : Connection P R}
    {item : Except R (Message P)} {rest : List (Except R (Message P))} (done : Bool)
    (running : c ∈ net.tasks) (found : net.clients c = some conn)
    (next : conn.inbox = item :: rest) :
    let net' : Net P R := { net with
      clients := Function.update net.clients c (some { conn with inbox := rest, rxDone := done }) }
    (net.tasks.map net'.load).sum < (net.tasks.map net.load).sum := by
  intro net'
  refine List.sum_lt_sum _ _ (fun d _ => ?_) ⟨c, running, ?_⟩
  · by_cases same : d = c
    · subst same
      simp [net', Net.load, found, next]
    · simp [net', Net.load, Function.update_of_ne same]
  · simp [net', Net.load, found, next]

theorem recv_phase (loop : Loop P K C H) (message : Except R (Event P)) :
    (loop.recv message).1.phase = loop.phase := by
  rcases message with e | (path | writer) <;> rfl

/-- Every own step leaves less work. -/
theorem OwnEffect.workload_lt {s s' : State P K C H R} (effect : OwnEffect s s') :
    workload s' < workload s := by
  simp only [workload, Prod.Lex.toLex_lt_toLex]
  cases effect with
  | returned running found spent => exact .inr ⟨rfl, .inr ⟨rfl, .inl (load_erase s.net running)⟩⟩
  | @forwarded c conn item rest tasks running found next tasks_eq =>
      refine .inr ⟨rfl, .inr ⟨rfl, .inl ?_⟩⟩
      have less := load_update (Net.isLast item) running found next
      rcases tasks_eq with rfl | ⟨-, rfl⟩
      · exact less
      · exact lt_trans (load_erase { s.net with
          clients := Function.update s.net.clients c
            (some { conn with inbox := rest, rxDone := Net.isLast item }) } running) less
  | accepted waiting =>
      refine .inr ⟨rfl, .inl ?_⟩
      simp [waiting]
  | received channel =>
      rw [recv_phase]
      refine .inr ⟨rfl, .inr ⟨rfl, .inr ⟨rfl, .inl ?_⟩⟩⟩
      simp [channel]
  | closureDone found phase closures writer =>
      obtain ⟨valid, -⟩ := List.getElem?_eq_some_iff.mp found
      refine .inr ⟨congrArg Phase.rank phase, .inr ⟨rfl, .inr ⟨rfl, .inr ⟨rfl, .inl ?_⟩⟩⟩⟩
      rw [closures, List.length_eraseIdx_of_lt valid]
      omega
  | pathDone phase closures fewer writer =>
      refine .inr ⟨congrArg Phase.rank phase, .inr ⟨rfl, .inr ⟨rfl, .inr ⟨rfl, .inr ⟨?_, fewer⟩⟩⟩⟩⟩
      rw [closures]
  | leaveLoop main => exact .inl (by simp [main, Phase.rank])
  | finish draining => exact .inl (by simp [draining, Phase.rank])

/-! ## At rest -/

/-- All that has been received has been dealt with, and the clients are waited for. -/
structure Idle (s : State P K C H R) : Prop where
  main : s.loop.phase = .mainLoop
  noStop : s.loop.stopProgressWriter = none
  listener : s.net.listener = []
  channel : s.net.channel = []
  closures : s.loop.storeClosures = []
  handlers : s.loop.handleStorePaths = []
  /-- The tasks that are left wait for their clients. -/
  waiting : ∀ c ∈ s.net.tasks, ∀ conn, s.net.clients c = some conn →
    conn.inbox = [] ∧ conn.rxDone = false ∧ conn.closed = false

section Rest

variable [DecidableEq K] (hash : P → K)

theorem wellFounded_own :
    WellFounded ((machine (C := C) (H := H) (R := R) hash).Works fun i => i.own = true) :=
  Machine.wellFounded_works workload fun _ _ _ _ own hstep => (step_own hash own hstep).workload_lt

variable {hash}

/-- While nothing is left to do, the main loop waits. -/
theorem idle_of_rests {s : State P K C H R}
    (rests : (machine hash).Rests (fun i => i.own = true) s) (selecting : s.loop.selecting = true) :
    Idle s := by
  have disabled (i : Input P C H R) (own : i.own = true) : step hash s i = none := rests i own
  have main := main_of_selecting selecting
  have closures : s.loop.storeClosures = [] := by
    rcases running : s.loop.storeClosures with _ | ⟨path, rest⟩
    · rfl
    · have := disabled (.closureDone 0 (.ok [])) rfl
      simp [step, selecting, Loop.closureDone, running] at this
  refine ⟨main, ?_, ?_, ?_, closures, ?_, ?_⟩
  · rcases requested : s.loop.stopProgressWriter with _ | writer
    · rfl
    · simp [Loop.selecting, requested, closures] at selecting
  · rcases waiting : s.net.listener with _ | ⟨c, rest⟩
    · rfl
    · have := disabled .accept rfl
      simp [step, selecting, Net.accept, waiting] at this
  · rcases queued : s.net.channel with _ | ⟨message, rest⟩
    · rfl
    · have := disabled .recv rfl
      simp [step, selecting, queued] at this
  · rcases running : s.loop.handleStorePaths with _ | ⟨path, rest⟩
    · rfl
    · have := disabled (.pathDone 0 (.ok none)) rfl
      simp [step, selecting, Loop.pathDone, running] at this
  · intro c running conn found
    have := disabled (.handleIo c) rfl
    simp only [step, Option.map_eq_none_iff, Net.handleIo, running, not_true_eq_false, if_false,
      found] at this
    cases done : conn.rxDone with
    | true => simp [done] at this
    | false =>
        rcases next : conn.inbox with _ | ⟨item, rest⟩
        · cases closed : conn.closed with
          | true => simp [done, next, closed] at this
          | false => exact ⟨rfl, rfl, rfl⟩
        · rcases item with e | (path | _) <;> simp [done, next] at this

/-- **A daemon at rest** has finished or is idle. -/
theorem finished_or_idle {led : Ledger P C H} {s : State P K C H R}
    (books : Books hash led s.loop) (rests : (machine hash).Rests (fun i => i.own = true) s) :
    s.loop.phase = .finished ∨ Idle s := by
  have disabled (i : Input P C H R) (own : i.own = true) : step hash s i = none := rests i own
  cases phase : s.loop.phase with
  | finished => exact .inl rfl
  | mainLoop =>
      cases selecting : s.loop.selecting with
      | true => exact .inr (idle_of_rests rests selecting)
      | false =>
          have := disabled (.leaveLoop true) rfl
          simp [step, phase, selecting] at this
  | draining =>
      obtain ⟨-, requested⟩ := books.stopping (by simp [phase])
      obtain ⟨writer, requested⟩ := Option.isSome_iff_exists.mp requested
      rcases running : s.loop.handleStorePaths with _ | ⟨path, rest⟩
      · have := disabled (.finish true) rfl
        simp [step, phase, running, requested] at this
      · have := disabled (.drainDone 0 (.ok none) true) rfl
        simp [step, phase, Loop.pathDone, running] at this

/-- **Left alone, the daemon settles everything that it has received.**

Left alone means that no client connects, writes or closes; the closures and the handlers
that are running complete, as inputs of the loop.  Every such step lowers the workload,
so they cannot go on for ever, and where none is possible nothing is left to settle. -/
theorem silent_daemon_settles {before : List (Input P C H R)} {s : State P K C H R}
    {trace : List (Obs P C H R)} (reached : (machine hash).run init before = some (s, trace)) :
    (machine hash).BoundTo (fun i => i.own = true)
      (fun t tail => Settled (ledger (trace ++ tail)) ∧ (t.loop.phase = .finished ∨ Idle t)) s := by
  refine Machine.boundTo (I := fun t tail => Books hash (ledger (trace ++ tail)) t.loop)
    (wellFounded_own hash) ?_ ?_ ?_
  · intro t tail i t' out books _ hstep
    rw [← List.append_assoc]
    exact books.effect (step_effect hash hstep)
  · intro t tail books rests
    have last := finished_or_idle books rests
    refine ⟨?_, last⟩
    rcases last with finished | idle
    · exact books.settled (books.stopping (by simp [finished])).1 (books.emptied finished)
    · exact books.settled idle.closures idle.handlers
  · rw [List.append_nil]
    exact run_books hash reached

end Rest

/-! ## A stop request -/

/-- A stop request has been received or will be: it waits in the channel, or behind
pushes only in a connection whose task has not returned.  Behind an error it would never be
received, since a task returns after the first error. -/
inductive StopComing (s : State P K C H R) : Prop where
  | requested (requested : s.loop.stopProgressWriter.isSome = true)
  | queued (c : ConnId) (queued : .ok (.stop c) ∈ s.net.channel)
  | sent (c : ConnId) (conn : Connection P R) (pushes : List P)
      (rest : List (Except R (Message P)))
      (connected : c ∈ s.net.listener ∨ c ∈ s.net.tasks) (found : s.net.clients c = some conn)
      (active : conn.rxDone = false)
      (inbox : conn.inbox =
        pushes.map (fun path => .ok (.pushStorePath path)) ++ .ok .stopDaemon :: rest)

section StopRequest

variable {s s' : State P K C H R}

/-- A stop that has been received is not forgotten. -/
theorem OwnEffect.keeps_requested (effect : OwnEffect s s')
    (requested : s.loop.stopProgressWriter.isSome = true) :
    s'.loop.stopProgressWriter.isSome = true := by
  cases effect with
  | returned => exact requested
  | forwarded => exact requested
  | accepted => exact requested
  | @received message rest channel =>
      rcases message with e | (path | writer)
      · exact requested
      · exact requested
      · rfl
  | closureDone found phase closures writer =>
      rw [writer]
      exact requested
  | pathDone phase closures fewer writer =>
      rw [writer]
      exact requested
  | leaveLoop => exact requested
  | finish => exact requested

/-- A stop in the channel is received, or stays there. -/
theorem OwnEffect.keeps_queued (effect : OwnEffect s s') {c : ConnId}
    (queued : .ok (.stop c) ∈ s.net.channel) : StopComing s' := by
  cases effect with
  | returned => exact .queued c queued
  | forwarded => exact .queued c (List.mem_append_left _ queued)
  | accepted => exact .queued c queued
  | received channel =>
      rw [channel] at queued
      rcases List.mem_cons.mp queued with rfl | later
      · exact .requested rfl
      · exact .queued c later
  | closureDone => exact .queued c queued
  | pathDone => exact .queued c queued
  | leaveLoop => exact .queued c queued
  | finish => exact .queued c queued

/-- A task that turns to another connection does not touch this one. -/
theorem OwnEffect.keeps_sent (effect : OwnEffect s s') {c : ConnId} {conn : Connection P R}
    {pushes : List P} {rest : List (Except R (Message P))}
    (connected : c ∈ s.net.listener ∨ c ∈ s.net.tasks) (found : s.net.clients c = some conn)
    (active : conn.rxDone = false)
    (inbox : conn.inbox =
      pushes.map (fun path => .ok (.pushStorePath path)) ++ .ok .stopDaemon :: rest) :
    StopComing s' := by
  cases effect with
  | @returned d conn' running found' spent =>
      -- a task does not return with a stop before it
      have other : c ≠ d := by
        rintro rfl
        obtain rfl := Option.some.inj (found.symm.trans found')
        rcases spent with done | empty
        · rw [active] at done
          cases done
        · simp [inbox] at empty
      exact .sent c conn pushes rest
        (connected.imp_right fun member => (List.mem_erase_of_ne other).mpr member) found active
        inbox
  | @forwarded d conn' item rest' tasks running found' next tasks_eq =>
      -- the next message is forwarded, of this connection or of another
      by_cases same : c = d
      · subst same
        obtain rfl := Option.some.inj (found.symm.trans found')
        rw [inbox] at next
        cases pushes with
        | nil =>
            -- the request goes to the channel
            obtain ⟨rfl, rfl⟩ := List.cons.inj next
            exact .queued c (List.mem_append_right _ (List.mem_singleton_self _))
        | cons path others =>
            obtain ⟨rfl, rfl⟩ := List.cons.inj next
            obtain rfl : tasks = s.net.tasks := by
              rcases tasks_eq with rfl | ⟨stop, -⟩
              · rfl
              · cases stop
            exact .sent c _ others rest connected (Function.update_self c _ _) rfl rfl
      · have kept : c ∈ s.net.tasks → c ∈ tasks := by
          intro member
          rcases tasks_eq with rfl | ⟨-, rfl⟩
          · exact member
          · exact (List.mem_erase_of_ne same).mpr member
        exact .sent c conn pushes rest (connected.imp_right kept)
          ((Function.update_of_ne same _ _).trans found) active inbox
  | @accepted d others waiting =>
      refine .sent c conn pushes rest ?_ found active inbox
      rw [waiting, List.mem_cons] at connected
      rcases connected with (rfl | later) | running
      · exact .inr (List.mem_append_right _ (List.mem_singleton_self c))
      · exact .inl later
      · exact .inr (List.mem_append_left _ running)
  | received => exact .sent c conn pushes rest connected found active inbox
  | closureDone => exact .sent c conn pushes rest connected found active inbox
  | pathDone => exact .sent c conn pushes rest connected found active inbox
  | leaveLoop => exact .sent c conn pushes rest connected found active inbox
  | finish => exact .sent c conn pushes rest connected found active inbox

/-- **A stop request stays on its way.** -/
theorem StopComing.own (coming : StopComing s) (effect : OwnEffect s s') : StopComing s' := by
  cases coming with
  | requested requested => exact .requested (effect.keeps_requested requested)
  | queued c queued => exact effect.keeps_queued queued
  | sent c conn pushes rest connected found active inbox =>
      exact effect.keeps_sent connected found active inbox

/-- No stop request is on its way to an idle daemon. -/
theorem Idle.not_stopComing (idle : Idle s) : ¬ StopComing s := by
  rintro (requested | ⟨c, queued⟩ | ⟨c, conn, pushes, rest, connected, found, active, inbox⟩)
  · rw [idle.noStop] at requested
    cases requested
  · rw [idle.channel] at queued
    cases queued
  · rw [idle.listener] at connected
    have running := connected.resolve_left List.not_mem_nil
    have empty := (idle.waiting c running conn found).1
    simp [inbox] at empty

/-- A daemon that has finished has written its report. -/
def Reported (trace : List (Obs P C H R)) (loop : Loop P K C H) : Prop :=
  loop.phase = .finished → ∃ writer report ok, .finalReport writer report ok ∈ trace

/-- The step that finishes writes the report. -/
theorem Reported.effect {trace out : List (Obs P C H R)} {loop loop' : Loop P K C H}
    (reported : Reported trace loop) (effect : StopEffect loop loop' out) :
    Reported (trace ++ out) loop' := by
  intro finished
  cases effect with
  | unrelated same going silent =>
      obtain ⟨writer, report, ok, member⟩ := reported (going finished)
      exact ⟨writer, report, ok, List.mem_append_left _ member⟩
  | request writer selecting state outputs =>
      subst state
      exact absurd (main_of_selecting selecting) (by simp [show loop.phase = _ from finished])
  | finish writer ok draining idle requested state outputs =>
      exact ⟨writer, loop.report, ok, List.mem_append_right _ (by simp [outputs])⟩

end StopRequest

/-- So a loop that has finished has written it. -/
theorem reported_of_run [DecidableEq K] {hash : P → K} {is : List (Input P C H R)}
    {s : State P K C H R} {trace : List (Obs P C H R)}
    (hrun : (machine hash).run init is = some (s, trace)) : Reported trace s.loop := by
  have kept : Reported ([] ++ trace) s.loop := (machine hash).run_invariant
    (I := fun s trace => Reported trace s.loop)
    (fun _ _ _ _ _ known hstep => known.effect (step_effect hash hstep).stopEffect)
    (by rintro ⟨⟩) hrun
  exact kept

/-- **A stop request on its way finishes the daemon** when its clients are silent, after
everything received has been settled and with a final report.

A stop on its way (`StopComing`) has been received, waits in the channel, or stands behind
pushes only in a stream that is still read.  The daemon's own steps move it on and do not lose
it, so a run cannot end in the state of rest in which the daemon waits for clients. -/
theorem stop_finishes [DecidableEq K] {hash : P → K} {before : List (Input P C H R)}
    {s : State P K C H R}
    {trace : List (Obs P C H R)} (reached : (machine hash).run init before = some (s, trace))
    (coming : StopComing s) :
    (machine hash).BoundTo (fun i => i.own = true)
      (fun t tail => t.loop.phase = .finished ∧ Settled (ledger (trace ++ tail)) ∧
        ∃ writer report ok, .finalReport writer report ok ∈ trace ++ tail) s := by
  refine Machine.boundTo
    (I := fun t tail => Books hash (ledger (trace ++ tail)) t.loop ∧
      Reported (trace ++ tail) t.loop ∧ StopComing t) (wellFounded_own hash) ?_ ?_ ?_
  · rintro t tail i t' out ⟨books, reported, coming⟩ own hstep
    rw [← List.append_assoc]
    have effect := step_effect hash hstep
    exact ⟨books.effect effect, reported.effect effect.stopEffect,
      coming.own (step_own hash own hstep)⟩
  · rintro t tail ⟨books, reported, coming⟩ rests
    have finished := (finished_or_idle books rests).resolve_right
      fun idle => idle.not_stopComing coming
    exact ⟨finished,
      books.settled (books.stopping (by simp [finished])).1 (books.emptied finished),
      reported finished⟩
  · rw [List.append_nil]
    exact ⟨run_books hash reached, reported_of_run reached, coming⟩

/-- A stop request is written to a connection that has not been accepted yet, behind the
push of a path. -/
def stopComingRun : List (Input ℕ Unit Unit Unit) :=
  [.connect 0, .send 0 (.ok (.pushStorePath 7)), .send 0 (.ok .stopDaemon)]

theorem stopComingRun_runs :
    ∃ (s : State ℕ ℕ Unit Unit Unit) (trace : List (Obs ℕ Unit Unit Unit)),
      (machine id).run init stopComingRun = some (s, trace) ∧ StopComing s :=
  ⟨_, _, rfl, .sent 0 _ [7] [] (.inl (List.mem_singleton_self 0)) rfl rfl rfl⟩

/-- The state is one in which the client has not even been accepted. -/
theorem silent_daemon_settles_before_accept :
    ∃ (s : State ℕ ℕ Unit Unit Unit) (trace : List (Obs ℕ Unit Unit Unit)),
      (machine id).run init stopComingRun = some (s, trace) ∧
        (machine id).BoundTo (fun i => i.own = true)
          (fun t tail => Settled (ledger (trace ++ tail)) ∧
            (t.loop.phase = .finished ∨ Idle t)) s := by
  obtain ⟨s, trace, hrun, -⟩ := stopComingRun_runs
  exact ⟨s, trace, hrun, silent_daemon_settles hrun⟩

/-- Here the client that has not been accepted has sent a stop. -/
theorem stop_finishes_before_accept :
    ∃ (s : State ℕ ℕ Unit Unit Unit) (trace : List (Obs ℕ Unit Unit Unit)),
      (machine id).run init stopComingRun = some (s, trace) ∧
        (machine id).BoundTo (fun i => i.own = true)
          (fun t tail => t.loop.phase = .finished ∧ Settled (ledger (trace ++ tail)) ∧
            ∃ writer report ok, .finalReport writer report ok ∈ trace ++ tail) s := by
  obtain ⟨s, trace, hrun, coming⟩ := stopComingRun_runs
  exact ⟨s, trace, hrun, stop_finishes hrun coming⟩

end EventLoop

end CacheAction
