import CacheAction.EventLoop.Conservation

/-!
# Stop requests

A stop client copies what the daemon writes to its standard output and exits
when the daemon closes the connection.  Its request is answered when the
connection is closed only after everything scheduled has been handled and the
final report has been written to it (`Answered`).

`run` keeps the requester in one `Option`.  A further stop request that arrives
while closures are still being computed takes the place of the earlier one,
whose writer is dropped: its client sees the connection closed, and exits as if
the daemon were done, while paths are still to be pushed.  That is the only way
in which a request goes unanswered (`stops_answered_iff`).

Both directions need an argument.  If no request takes the place of another one, there is at
most one requester in a run, it is remembered, and its writer is closed by `finish` alone
(`Requests`).  Conversely, a request that overwrites an earlier one closes a writer at a moment
at which `run` is still selecting, and as a stop has been requested by then, it only does so
because a closure is being computed.  So something is not settled, and the writer that is
closed has not been answered (`Books.not_settled`).
-/

namespace CacheAction

namespace EventLoop

variable {P K C H R : Type} [DecidableEq K] (hash : P → K)

/-- Every push received has been resolved, and every path scheduled handled.  It is a property
of the history, so it can be asked at any point of a run and not only at its end. -/
structure Settled (led : Ledger P C H) : Prop where
  pushes : led.pushes.Perm (led.closureErrors.map Prod.fst ++ led.closures.map Prod.fst)
  paths : led.firstSeen.Perm (led.handled.map Prod.fst)

/-- The writer has got the final report, after everything has been settled. -/
def Answered (trace : List (Obs P C H R)) (writer : ConnId) : Prop :=
  Settled (ledger trace) ∧ ∃ report ok, .finalReport writer report ok ∈ trace

/-- A writer is closed only when it has been answered. -/
def ClosedWhenAnswered (pre : List (Obs P C H R)) (o : Obs P C H R) : Prop :=
  ∀ writer, o = .writerClosed writer → Answered pre writer

/-- Every stop request received is answered: its writer stays open until then,
and the daemon does not finish without it. -/
structure StopsAnswered (trace : List (Obs P C H R)) (loop : Loop P K C H) : Prop where
  keptOpen : Guarded ClosedWhenAnswered trace
  answered : loop.phase = .finished →
    ∀ writer, .received (.stop writer) ∈ trace → Answered trace writer

/-- A stop request is received only while none has been received before. -/
def NoOverwrite (s : State P K C H R) (i : Input P C H R) : Prop :=
  i = .recv → ∀ writer rest, s.net.channel = .ok (.stop writer) :: rest →
    s.loop.stopProgressWriter = none

/-- The outputs about stop requests and their writers. -/
def Obs.concernsStop : Obs P C H R → Bool
  | .received (.stop _) => true
  | .finalReport _ _ _ => true
  | .writerClosed _ => true
  | _ => false

/-- What one event does to the requester. -/
inductive StopEffect (loop loop' : Loop P K C H) (out : List (Obs P C H R)) : Prop where
  | unrelated (same : loop'.stopProgressWriter = loop.stopProgressWriter)
      (going : loop'.phase = .finished → loop.phase = .finished)
      (silent : ∀ o ∈ out, o.concernsStop = false)
  | request (writer) (selecting : loop.selecting = true)
      (state : loop' = { loop with stopProgressWriter := some writer })
      (outputs : out =
        .received (.stop writer) :: loop.stopProgressWriter.toList.map .writerClosed)
  | finish (writer ok) (draining : loop.phase = .draining) (idle : loop.handleStorePaths = [])
      (requested : loop.stopProgressWriter = some writer)
      (state : loop' = { loop with phase := .finished })
      (outputs : out = [.finalReport writer loop.report ok, .writerClosed writer])

section Steps

variable {hash} {loop loop' : Loop P K C H} {trace out : List (Obs P C H R)}

omit [DecidableEq K] in
theorem Schedules.silent {fresh begun : List P} (sched : Schedules out fresh begun) :
    ∀ o ∈ out, o.concernsStop = false := by
  intro o member
  rcases sched.only o member with ⟨path, rfl⟩ | ⟨path, rfl⟩ <;> rfl

/-- A step is one about stop requests, or has nothing to do with them. -/
theorem Effect.stopEffect (effect : Effect hash loop loop' out) : StopEffect loop loop' out := by
  cases effect with
  | idle => exact .unrelated rfl id (by simp [Obs.concernsStop])
  | connected c => exact .unrelated rfl id (by simp [Obs.concernsStop])
  | sent c item => exact .unrelated rfl id (by simp [Obs.concernsStop])
  | clientClosed c => exact .unrelated rfl id (by simp [Obs.concernsStop])
  | rxError e => exact .unrelated rfl id (by simp [Obs.concernsStop])
  | push path selecting => exact .unrelated rfl id (by simp [Obs.concernsStop])
  | stop writer selecting => exact .request writer selecting rfl rfl
  | closureFailed i path e selecting found => exact .unrelated rfl id (by simp [Obs.concernsStop])
  | closureComputed i path paths selecting found =>
      obtain ⟨state, sched⟩ := schedulePaths_eq (R := R) hash
        { loop with storeClosures := loop.storeClosures.eraseIdx i } paths
      rw [state]
      exact .unrelated rfl id (List.forall_mem_cons.mpr ⟨rfl, sched.silent⟩)
  | handled i path result selecting found =>
      obtain ⟨state, sched⟩ := completePath_eq (R := R) loop i path result
      rw [state]
      exact .unrelated rfl id (List.forall_mem_cons.mpr ⟨rfl, sched.silent⟩)
  | leaveLoop ok main done => exact .unrelated rfl (by rintro ⟨⟩) (by simp [Obs.concernsStop])
  | drained i path result ok draining found =>
      obtain ⟨state, sched⟩ := completePath_eq (R := R) loop i path result
      rw [state]
      exact .unrelated rfl id (List.forall_mem_cons.mpr
        ⟨rfl, List.forall_mem_cons.mpr ⟨rfl, sched.silent⟩⟩)
  | finish writer ok draining idle requested =>
      exact .finish writer ok draining idle requested rfl rfl

/-! ## A request is answered unless another one takes its place -/

/-- Without anything left in the loop, everything has been settled. -/
theorem Books.settled {led : Ledger P C H} (books : Books hash led loop)
    (noClosure : loop.storeClosures = []) (idle : loop.handleStorePaths = []) : Settled led where
  pushes := by
    have := books.pushes
    rwa [noClosure, List.append_nil] at this
  paths := (books.pool.retired_of_idle (by decide) idle).2.2

/-- While a closure is being computed, something is not settled. -/
theorem Books.not_settled {led : Ledger P C H} (books : Books hash led loop)
    (running : loop.storeClosures ≠ []) : ¬ Settled led := by
  intro settled
  have total := books.pushes.length_eq
  have resolved := settled.pushes.length_eq
  rw [List.length_append, ← resolved] at total
  have := List.length_pos_iff.mpr running
  omega

/-- The requester is remembered, and it has the final report in the end. -/
structure Requests (trace : List (Obs P C H R)) (loop : Loop P K C H) : Prop where
  remembered : ∀ writer, .received (.stop writer) ∈ trace →
    loop.stopProgressWriter = some writer
  reported : loop.phase = .finished → ∀ writer, loop.stopProgressWriter = some writer →
    ∃ report ok, .finalReport writer report ok ∈ trace

omit [DecidableEq K] in
/-- A request is remembered from its reception to the report, as long as no other one comes. -/
theorem Requests.effect (requests : Requests trace loop) (effect : StopEffect loop loop' out)
    (single : ∀ writer, .received (.stop writer) ∈ out → loop.stopProgressWriter = none) :
    Requests (trace ++ out) loop' := by
  cases effect with
  | unrelated same going silent =>
      constructor
      · intro writer member
        rw [same]
        rcases List.mem_append.mp member with earlier | now
        · exact requests.remembered writer earlier
        · exact absurd (silent _ now) (by simp [Obs.concernsStop])
      · intro finished writer requested
        rw [same] at requested
        obtain ⟨report, ok, member⟩ := requests.reported (going finished) writer requested
        exact ⟨report, ok, List.mem_append_left _ member⟩
  | request writer selecting state outputs =>
      have first := single writer (by simp [outputs])
      subst state
      constructor
      · intro w member
        rcases List.mem_append.mp member with earlier | now
        · exact absurd (requests.remembered w earlier) (by simp [first])
        · obtain rfl : w = writer := by simpa [outputs, first] using now
          rfl
      · intro finished
        exact absurd (main_of_selecting selecting) (by simp [show loop.phase = _ from finished])
  | finish writer ok draining idle requested state outputs =>
      subst state
      constructor
      · intro w member
        rcases List.mem_append.mp member with earlier | now
        · exact requests.remembered w earlier
        · simp [outputs] at now
      · intro _ w requested'
        obtain rfl : writer = w := Option.some.inj (requested.symm.trans requested')
        exact ⟨loop.report, ok, List.mem_append_right _ (by simp [outputs])⟩

omit [DecidableEq K] in
/-- Stop requests and final reports settle nothing. -/
theorem settled_append {reports : List (ConnId × ActionReport P C H)}
    (other : ledger out = ⟨[], [], [], [], [], [], reports⟩) :
    Settled (ledger (trace ++ out)) ↔ Settled (ledger trace) := by
  rw [ledger_append, other, Ledger.append_mk]
  simp only [List.append_nil]
  exact ⟨fun settled => ⟨settled.pushes, settled.paths⟩,
    fun settled => ⟨settled.pushes, settled.paths⟩⟩

/-- The writers that a step closes have been answered. -/
theorem StopEffect.closes_answered (books : Books hash (ledger trace) loop)
    (effect : StopEffect loop loop' out)
    (single : ∀ writer, .received (.stop writer) ∈ out → loop.stopProgressWriter = none) :
    ∀ pre o post, out = pre ++ o :: post → ClosedWhenAnswered (trace ++ pre) o := by
  rintro pre o post split w rfl
  have closes : .writerClosed w ∈ out := by simp [split]
  cases effect with
  | unrelated same going silent => exact absurd (silent _ closes) (by simp [Obs.concernsStop])
  | request writer selecting state outputs =>
      have first := single writer (by simp [outputs])
      simp [outputs, first] at closes
  | finish writer ok draining idle requested state outputs =>
      obtain rfl : w = writer := by simpa [outputs] using closes
      obtain rfl : pre = [.finalReport w loop.report ok] := by
        rw [outputs] at split
        rcases pre with _ | ⟨first, _ | ⟨second, rest⟩⟩
        · cases split
        · obtain ⟨rfl, -⟩ := List.cons.inj split
          rfl
        · simp at split
      have settled := books.settled (books.stopping (by simp [draining])).1 idle
      exact ⟨(settled_append rfl).mpr settled, loop.report, ok, by simp⟩

/-- A request that takes another's place closes a writer too early. -/
theorem StopEffect.single_of_guarded (books : Books hash (ledger trace) loop)
    (effect : StopEffect loop loop' out) (guarded : Guarded ClosedWhenAnswered (trace ++ out)) :
    ∀ writer, .received (.stop writer) ∈ out → loop.stopProgressWriter = none := by
  intro w member
  cases effect with
  | unrelated same going silent => exact absurd (silent _ member) (by simp [Obs.concernsStop])
  | finish writer ok draining idle requested state outputs => simp [outputs] at member
  | request writer selecting state outputs =>
      by_contra other
      obtain ⟨old, held⟩ := Option.ne_none_iff_exists'.mp other
      rw [held] at outputs
      -- the earlier request leaves the loop running only for its closures
      have running : loop.storeClosures ≠ [] := by
        intro noClosure
        simp [Loop.selecting, held, noClosure] at selecting
      have settled := (guarded.allowed (show out = [_] ++ _ :: [] from outputs) old rfl).1
      exact books.not_settled running ((settled_append rfl).mp settled)

end Steps

/-- The condition is about the head of the channel, and that is what is received. -/
theorem single_of_noOverwrite {s s' : State P K C H R} {i : Input P C H R}
    {out : List (Obs P C H R)} (single : NoOverwrite s i) (h : step hash s i = some (s', out)) :
    ∀ writer, .received (.stop writer) ∈ out → s.loop.stopProgressWriter = none := by
  intro writer member
  obtain ⟨input, rest, channel⟩ := (step_netEffect hash h).of_received member
  exact single input writer rest channel

/-- A message at the head of the channel is what the next `recv` emits. -/
theorem received_of_recv {s s' : State P K C H R} {out : List (Obs P C H R)} {event : Event P}
    {rest : List (Except R (Event P))} (h : step hash s .recv = some (s', out))
    (channel : s.net.channel = .ok event :: rest) : .received event ∈ out := by
  cases step_turn hash h with
  | recv selecting next =>
      obtain ⟨rfl, -⟩ := List.cons.inj (channel.symm.trans next)
      rcases event with path | writer <;> simp [Loop.recv]

/-- One step of a run in which no request takes another's place. -/
theorem requests_step {s s' : State P K C H R} {i : Input P C H R}
    {trace out : List (Obs P C H R)}
    (known : Books hash (ledger trace) s.loop ∧ Requests trace s.loop) (single : NoOverwrite s i)
    (h : step hash s i = some (s', out)) :
    Books hash (ledger (trace ++ out)) s'.loop ∧ Requests (trace ++ out) s'.loop := by
  have effect := step_effect hash h
  exact ⟨known.1.effect effect,
    known.2.effect effect.stopEffect (single_of_noOverwrite hash single h)⟩

/-- **Every stop request is answered exactly in the runs in which no request
takes the place of an earlier one.**

`run` keeps one writer for the final report, and a request that it receives while it
has one already takes its place; the earlier writer is dropped there, which closes the
connection without a report.  The condition is about the state before each receiving step.
Where it always holds, there is at most one request by the time of the report, and that
one is answered. -/
theorem stops_answered_iff {is : List (Input P C H R)} {s : State P K C H R}
    {trace : List (Obs P C H R)} (hrun : (machine hash).run init is = some (s, trace)) :
    StopsAnswered trace s.loop ↔ (machine hash).Meets NoOverwrite init is := by
  have start : Books hash (ledger ([] : List (Obs P C H R))) (init : State P K C H R).loop :=
    Books.initial
  constructor
  · intro answered
    refine (machine hash).meets_of_guarded (I := fun s trace => Books hash (ledger trace) s.loop)
      (fun _ _ _ _ _ books hstep => books.effect (step_effect hash hstep)) ?_ start hrun
      answered.keptOpen
    rintro s trace i s' out books hstep guarded rfl writer rest channel
    have stepped : step hash s .recv = some (s', out) := hstep
    have effect := (step_effect hash stepped).stopEffect
    exact effect.single_of_guarded books guarded writer (received_of_recv hash stepped channel)
  · intro meets
    have requests : Requests ([] : List (Obs P C H R)) (init : State P K C H R).loop :=
      ⟨by simp, by rintro ⟨⟩⟩
    have last := (machine hash).run_invariant_of_meets
      (I := fun s trace => Books hash (ledger trace) s.loop ∧ Requests trace s.loop)
      (fun _ _ _ _ _ known single hstep => requests_step hash known single hstep)
      meets ⟨start, requests⟩ hrun
    rw [List.nil_append] at last
    obtain ⟨books, answers⟩ := last
    constructor
    · refine (machine hash).run_guarded
        (I := fun s trace => Books hash (ledger trace) s.loop ∧ Requests trace s.loop)
        (fun _ _ _ _ _ known single hstep => requests_step hash known single hstep) ?_
        meets ⟨start, requests⟩ hrun
      rintro s trace i s' out ⟨books, -⟩ single hstep
      have stepped : step hash s i = some (s', out) := hstep
      exact (step_effect hash stepped).stopEffect.closes_answered books
        (single_of_noOverwrite hash single stepped)
    · intro finished writer member
      exact ⟨books.settled (books.stopping (by simp [finished])).1 (books.emptied finished),
        answers.reported finished writer (answers.remembered writer member)⟩

/-- A path is pushed and a stop requested; the closure is computed, the path
handled, the final report written. -/
def oneStopRun : List (Input ℕ Unit Unit Unit) :=
  [.connect 0, .send 0 (.ok (.pushStorePath 7)), .close 0, .accept, .handleIo 0, .recv,
    .connect 1, .send 1 (.ok .stopDaemon), .accept, .handleIo 1, .recv,
    .closureDone 0 (.ok [7]), .leaveLoop true, .drainDone 0 (.ok none) true, .finish true]

theorem stops_answered_iff_one_stop :
    ∃ (s : State ℕ ℕ Unit Unit Unit) (trace : List (Obs ℕ Unit Unit Unit)),
      (machine id).run init oneStopRun = some (s, trace) ∧
        (StopsAnswered trace s.loop ↔ (machine id).Meets NoOverwrite init oneStopRun) :=
  ⟨_, _, rfl, stops_answered_iff id rfl⟩

/-- Two stop requests arrive while the closure of a pushed path is computed. -/
def twoStopsRun : List (Input ℕ Unit Unit Unit) :=
  [.connect 0, .send 0 (.ok (.pushStorePath 7)), .close 0, .accept, .handleIo 0, .recv,
    .connect 1, .send 1 (.ok .stopDaemon), .accept, .handleIo 1, .recv,
    .connect 2, .send 2 (.ok .stopDaemon), .accept, .handleIo 2, .recv,
    .closureDone 0 (.ok [7]), .leaveLoop true, .drainDone 0 (.ok none) true, .finish true]

/-- What that run does: the first stop client's connection is closed before the
closure is even computed. -/
def twoStopsTrace : List (Obs ℕ Unit Unit Unit) :=
  [.connected 0, .sent 0 (.ok (.pushStorePath 7)), .clientClosed 0,
    .received (.pushStorePath 7), .connected 1, .sent 1 (.ok .stopDaemon), .received (.stop 1),
    .connected 2, .sent 2 (.ok .stopDaemon), .received (.stop 2), .writerClosed 1,
    .closureComputed 7 [7], .firstSeen 7, .started 7, .pathsLeftToHandle 1 true,
    .notified 7 (.ok none) true, .handled 7 (.ok none),
    .finalReport 2 (reportOf [] [(7, .ok none)]) true, .writerClosed 2]

/-- The first stop client is not answered, although the daemon finishes. -/
theorem first_stop_unanswered :
    ∃ s : State ℕ ℕ Unit Unit Unit,
      (machine id).run init twoStopsRun = some (s, twoStopsTrace) ∧ s.loop.phase = .finished ∧
        ¬ StopsAnswered twoStopsTrace s.loop := by
  refine ⟨_, rfl, rfl, fun answered => ?_⟩
  obtain ⟨-, report, ok, member⟩ := answered.answered rfl 1 (by simp [twoStopsTrace])
  simp [twoStopsTrace] at member

end EventLoop

end CacheAction
