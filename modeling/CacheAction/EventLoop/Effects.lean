import CacheAction.EventLoop.Model
import CacheAction.Foundations.WorkPool

/-!
# What one event does

`Turn` lists, once and for all, what a step can do (`step_turn`), and `Effect` what
becomes of the local variables of `run` and what it emits (`step_effect`).  The
invariants of the following modules are proved by cases on one of them and never unfold
`step`.

There are three of them because the invariants look at three things.  `Turn` is the step as a
whole, one constructor for each arm of `run`.  Most invariants are about the loop and its
history and do not mention the network at all; for them `Effect` forgets it, and what clients
and their tasks do has no effect.  The properties of single connections look at the network
only (`NetEffect`), where in turn all arms but `recv` are `internal`.  When an arm of
`run` changes, its constructor changes in one or two of these, and the invariants that do not
speak of it stay as they are.

The second half reads a trace back into a `Ledger`: the pushes received, the
closures computed, the paths started and handled.  The paths of a closure are scheduled exactly as
`WorkPool.submitAll` schedules those among them that are `unseen`
(`schedulePaths_eq`).
-/

namespace CacheAction

namespace EventLoop

variable {P K C H R : Type} [DecidableEq K] (hash : P → K)

/-! ## Inversion of a step -/

/-- The effect of one event on the local variables of `run`, with the outputs that go with it.
The guards are those of the `select!` arm: nothing is received, and no closure and no handler
completes in the main loop, once `selecting` is false. -/
inductive Effect : Loop P K C H → Loop P K C H → List (Obs P C H R) → Prop where
  | idle (loop) : Effect loop loop []
  | connected (loop c) : Effect loop loop [.connected c]
  | sent (loop c item) : Effect loop loop [.sent c item]
  | clientClosed (loop c) : Effect loop loop [.clientClosed c]
  /-- The closure of a pushed path is asked for. -/
  | push (loop path) (selecting : loop.selecting = true) :
      Effect loop { loop with storeClosures := loop.storeClosures ++ [path] }
        [.received (.pushStorePath path)]
  /-- A stop is requested.  The writer of an earlier request is dropped, which closes its
  connection. -/
  | stop (loop writer) (selecting : loop.selecting = true) :
      Effect loop { loop with stopProgressWriter := some writer }
        (.received (.stop writer) :: loop.stopProgressWriter.toList.map .writerClosed)
  | rxError (loop e) : Effect loop loop [.rxError e]
  | closureFailed (loop i path e) (selecting : loop.selecting = true)
      (found : loop.storeClosures[i]? = some path) :
      Effect loop
        { loop with
          storeClosures := loop.storeClosures.eraseIdx i
          report := { loop.report with
            pathClosureErrors := loop.report.pathClosureErrors ++ [(path, e)] } }
        [.closureFailed path e]
  /-- The paths of a closure are scheduled, those of unseen hashes. -/
  | closureComputed (loop i path paths) (selecting : loop.selecting = true)
      (found : loop.storeClosures[i]? = some path) :
      Effect loop
        (Loop.schedulePaths (R := R) hash
          { loop with storeClosures := loop.storeClosures.eraseIdx i } paths).1
        (.closureComputed path paths ::
          (Loop.schedulePaths hash
            { loop with storeClosures := loop.storeClosures.eraseIdx i } paths).2)
  /-- A handler completes in the main loop, and the next path takes its place. -/
  | handled (loop i path result) (selecting : loop.selecting = true)
      (found : loop.handleStorePaths[i]? = some path) :
      Effect loop
        (loop.completePath (R := R) i path result).1
        (.handled path result :: (loop.completePath i path result).2)
  /-- The main loop is left.  The number of outstanding paths that is announced is a `u32`. -/
  | leaveLoop (loop ok) (main : loop.phase = .mainLoop) (done : loop.selecting = false) :
      Effect loop { loop with phase := .draining }
        [.pathsLeftToHandle
          ((loop.handleStorePaths.length + loop.pendingHandleStorePaths.length) % 2 ^ 32) ok]
  /-- A handler completes in the drain loop, which also notifies the stop client. -/
  | drained (loop i path result ok) (draining : loop.phase = .draining)
      (found : loop.handleStorePaths[i]? = some path) :
      Effect loop
        (loop.completePath (R := R) i path result).1
        (.notified path result ok :: .handled path result ::
          (loop.completePath i path result).2)
  /-- The report is written to the client that has requested the stop, and `run` returns. -/
  | finish (loop writer ok) (draining : loop.phase = .draining)
      (idle : loop.handleStorePaths = []) (requested : loop.stopProgressWriter = some writer) :
      Effect loop { loop with phase := .finished }
        [.finalReport writer loop.report ok, .writerClosed writer]

/-- A step, whole: one constructor for each arm of `run` and for each action of a client. -/
inductive Turn (s : State P K C H R) :
    Input P C H R → State P K C H R → List (Obs P C H R) → Prop where
  | connect {c} (fresh : s.net.clients c = none) :
      Turn s (.connect c)
        { s with
          net := { s.net with
            clients := Function.update s.net.clients c
              (some { inbox := [], closed := false, rxDone := false })
            listener := s.net.listener ++ [c] } }
        [.connected c]
  | send {c item conn} (found : s.net.clients c = some conn) (opened : conn.closed = false) :
      Turn s (.send c item)
        { s with
          net := { s.net with
            clients := Function.update s.net.clients c
              (some { conn with inbox := conn.inbox ++ [item] }) } }
        [.sent c item]
  | close {c conn} (found : s.net.clients c = some conn) (opened : conn.closed = false) :
      Turn s (.close c)
        { s with
          net := { s.net with
            clients := Function.update s.net.clients c (some { conn with closed := true }) } }
        [.clientClosed c]
  | handleIo {c net} (done : s.net.handleIo c = some net) :
      Turn s (.handleIo c) { s with net } []
  | accept {c rest} (selecting : s.loop.selecting = true) (waiting : s.net.listener = c :: rest) :
      Turn s .accept
        { s with net := { s.net with listener := rest, tasks := s.net.tasks ++ [c] } } []
  | recv {message rest} (selecting : s.loop.selecting = true)
      (channel : s.net.channel = message :: rest) :
      Turn s .recv
        { net := { s.net with channel := rest }, loop := (s.loop.recv message).1 }
        (s.loop.recv message).2
  | closureFailed {i path e} (selecting : s.loop.selecting = true)
      (found : s.loop.storeClosures[i]? = some path) :
      Turn s (.closureDone i (.error e))
        { s with
          loop := { s.loop with
            storeClosures := s.loop.storeClosures.eraseIdx i
            report := { s.loop.report with
              pathClosureErrors := s.loop.report.pathClosureErrors ++ [(path, e)] } } }
        [.closureFailed path e]
  | closureComputed {i path paths} (selecting : s.loop.selecting = true)
      (found : s.loop.storeClosures[i]? = some path) :
      Turn s (.closureDone i (.ok paths))
        { s with
          loop := (Loop.schedulePaths (R := R) hash
            { s.loop with storeClosures := s.loop.storeClosures.eraseIdx i } paths).1 }
        (.closureComputed path paths ::
          (Loop.schedulePaths hash
            { s.loop with storeClosures := s.loop.storeClosures.eraseIdx i } paths).2)
  | pathDone {i path result} (selecting : s.loop.selecting = true)
      (found : s.loop.handleStorePaths[i]? = some path) :
      Turn s (.pathDone i result)
        { s with loop := (s.loop.completePath (R := R) i path result).1 }
        (.handled path result :: (s.loop.completePath i path result).2)
  | leaveLoop {ok} (main : s.loop.phase = .mainLoop) (done : s.loop.selecting = false) :
      Turn s (.leaveLoop ok)
        { s with loop := { s.loop with phase := .draining } }
        [.pathsLeftToHandle
          ((s.loop.handleStorePaths.length + s.loop.pendingHandleStorePaths.length) % 2 ^ 32) ok]
  | drainDone {i path result ok} (draining : s.loop.phase = .draining)
      (found : s.loop.handleStorePaths[i]? = some path) :
      Turn s (.drainDone i result ok)
        { s with loop := (s.loop.completePath (R := R) i path result).1 }
        (.notified path result ok :: .handled path result ::
          (s.loop.completePath i path result).2)
  | finish {writer ok} (draining : s.loop.phase = .draining)
      (idle : s.loop.handleStorePaths = [])
      (requested : s.loop.stopProgressWriter = some writer) :
      Turn s (.finish ok)
        { s with loop := { s.loop with phase := .finished } }
        [.finalReport writer s.loop.report ok, .writerClosed writer]

/-- A closure that has been computed schedules the paths that it has not seen, one that has
failed is reported. -/
theorem closureDone_turn {s : State P K C H R} {i : ℕ} {result : Except C (List P)}
    {loop : Loop P K C H} {out : List (Obs P C H R)} (selecting : s.loop.selecting = true)
    (h : s.loop.closureDone hash i result = some (loop, out)) :
    Turn hash s (.closureDone i result) { s with loop } out := by
  unfold Loop.closureDone at h
  split at h
  · cases h
  · rename_i path found
    rcases result with e | paths
    · cases h
      exact .closureFailed selecting found
    · cases h
      exact .closureComputed selecting found

omit [DecidableEq K] in
/-- A handler can return only if it is running. -/
theorem pathDone_eq_some {loop : Loop P K C H} {i : ℕ} {path : P} {result : HandleResult H}
    {after : Loop P K C H × List (Obs P C H R)}
    (h : loop.pathDone i result = some (path, after)) :
    loop.handleStorePaths[i]? = some path ∧ after = loop.completePath i path result := by
  unfold Loop.pathDone at h
  split at h
  · cases h
  · rename_i found
    cases h
    exact ⟨found, rfl⟩

/-- **Inversion of a step**: what an event does is one of the turns. -/
theorem step_turn {s s' : State P K C H R} {i : Input P C H R} {out : List (Obs P C H R)}
    (h : step hash s i = some (s', out)) : Turn hash s i s' out := by
  cases i with
  | connect c =>
      obtain ⟨⟨net, o⟩, done, heq⟩ := Option.map_eq_some_iff.mp h
      cases heq
      unfold Net.connect at done
      split at done
      · cases done
      · rename_i fresh
        cases done
        exact .connect fresh
  | send c item =>
      obtain ⟨⟨net, o⟩, done, heq⟩ := Option.map_eq_some_iff.mp h
      cases heq
      unfold Net.send at done
      split at done
      · cases done
      · rename_i conn found
        split at done
        · cases done
        · rename_i opened
          cases done
          exact .send found (Bool.not_eq_true _ ▸ opened)
  | close c =>
      obtain ⟨⟨net, o⟩, done, heq⟩ := Option.map_eq_some_iff.mp h
      cases heq
      unfold Net.close at done
      split at done
      · cases done
      · rename_i conn found
        split at done
        · cases done
        · rename_i opened
          cases done
          exact .close found (Bool.not_eq_true _ ▸ opened)
  | handleIo c =>
      obtain ⟨net, done, heq⟩ := Option.map_eq_some_iff.mp h
      cases heq
      exact .handleIo done
  | accept =>
      simp only [step, Option.ite_none_right_eq_some, Option.map_eq_some_iff] at h
      obtain ⟨selecting, net, done, heq⟩ := h
      cases heq
      unfold Net.accept at done
      split at done
      · cases done
      · rename_i waiting
        cases done
        exact .accept selecting waiting
  | recv =>
      simp only [step, Option.ite_none_right_eq_some] at h
      obtain ⟨selecting, h⟩ := h
      split at h
      · cases h
      · rename_i channel
        cases h
        exact .recv selecting channel
  | closureDone i result =>
      simp only [step, Option.ite_none_right_eq_some, Option.map_eq_some_iff] at h
      obtain ⟨selecting, ⟨loop, o⟩, done, heq⟩ := h
      cases heq
      exact closureDone_turn hash selecting done
  | pathDone i result =>
      simp only [step, Option.ite_none_right_eq_some, Option.map_eq_some_iff] at h
      obtain ⟨selecting, ⟨path, after⟩, done, heq⟩ := h
      obtain ⟨found, rfl⟩ := pathDone_eq_some done
      cases heq
      exact .pathDone selecting found
  | leaveLoop ok =>
      simp only [step, Option.ite_none_right_eq_some] at h
      obtain ⟨⟨main, done⟩, heq⟩ := h
      cases heq
      exact .leaveLoop main done
  | drainDone i result ok =>
      simp only [step, Option.ite_none_right_eq_some, Option.map_eq_some_iff] at h
      obtain ⟨draining, ⟨path, after⟩, done, heq⟩ := h
      obtain ⟨found, rfl⟩ := pathDone_eq_some done
      cases heq
      exact .drainDone draining found
  | finish ok =>
      simp only [step, Option.ite_none_right_eq_some] at h
      obtain ⟨⟨draining, idle⟩, h⟩ := h
      split at h
      · cases h
      · rename_i requested
        cases h
        exact .finish draining idle requested

/-- A message is a push, a stop or an error, and an error is passed on and has no other effect. -/
theorem recv_effect {loop : Loop P K C H} (message : Except R (Event P))
    (selecting : loop.selecting = true) :
    Effect hash loop (loop.recv message).1 (loop.recv message).2 := by
  rcases message with e | (path | writer)
  · exact .rxError loop e
  · exact .push loop path selecting
  · exact .stop loop writer selecting

/-- What an event does to the local variables of `run` is one of the effects. -/
theorem step_effect {s s' : State P K C H R} {i : Input P C H R} {out : List (Obs P C H R)}
    (h : step hash s i = some (s', out)) : Effect hash s.loop s'.loop out := by
  cases step_turn hash h with
  | connect fresh => exact .connected _ _
  | send found opened => exact .sent _ _ _
  | close found opened => exact .clientClosed _ _
  | handleIo done => exact .idle _
  | accept selecting waiting => exact .idle _
  | recv selecting channel => exact recv_effect hash _ selecting
  | closureFailed selecting found => exact .closureFailed _ _ _ _ selecting found
  | closureComputed selecting found => exact .closureComputed _ _ _ _ selecting found
  | pathDone selecting found => exact .handled _ _ _ _ selecting found
  | leaveLoop main done => exact .leaveLoop _ _ main done
  | drainDone draining found => exact .drained _ _ _ _ _ draining found
  | finish draining idle requested => exact .finish _ _ _ draining idle requested

/-! ## Reading a trace -/

/-- What has been received, computed, started and handled, each in order.

A ledger is what the claims about work are stated on.  It is read off the outputs and not kept
by the machine: `run` has no such history, and a specification that is a function of the trace
cannot be made true by the way in which the model keeps its books.  Ledgers are appended column
by column, and the ledger of a run is that of its steps one after the other
(`ledger_append`). -/
@[ext] structure Ledger (P C H : Type) where
  /-- The store paths whose push has been received. -/
  pushes : List P
  /-- The store paths whose closure could not be computed. -/
  closureErrors : List (P × C)
  /-- The computed closures. -/
  closures : List (P × List P)
  /-- The store paths scheduled for handling. -/
  firstSeen : List P
  /-- The store paths whose handling has been started. -/
  started : List P
  /-- The handlings that are over, with their results. -/
  handled : List (P × HandleResult H)
  /-- The final reports, with the writers they went to. -/
  reports : List (ConnId × ActionReport P C H)

/-- The ledger of a trace. -/
def ledger (trace : List (Obs P C H R)) : Ledger P C H where
  pushes := trace.filterMap fun
    | .received (.pushStorePath path) => some path
    | _ => none
  closureErrors := trace.filterMap fun
    | .closureFailed path e => some (path, e)
    | _ => none
  closures := trace.filterMap fun
    | .closureComputed path paths => some (path, paths)
    | _ => none
  firstSeen := trace.filterMap fun
    | .firstSeen path => some path
    | _ => none
  started := trace.filterMap fun
    | .started path => some path
    | _ => none
  handled := trace.filterMap fun
    | .handled path result => some (path, result)
    | _ => none
  reports := trace.filterMap fun
    | .finalReport writer report _ => some (writer, report)
    | _ => none

/-- The hashes of all the paths in the computed closures.  Several paths may have the same
store hash, in two store directories say; `run` takes them for one. -/
def Ledger.closureHashes (led : Ledger P C H) : Finset K :=
  ((led.closures.flatMap Prod.snd).map hash).toFinset

namespace Ledger

/-- One ledger after another. -/
instance : Append (Ledger P C H) where
  append first second :=
    { pushes := first.pushes ++ second.pushes
      closureErrors := first.closureErrors ++ second.closureErrors
      closures := first.closures ++ second.closures
      firstSeen := first.firstSeen ++ second.firstSeen
      started := first.started ++ second.started
      handled := first.handled ++ second.handled
      reports := first.reports ++ second.reports }

theorem append_mk (led : Ledger P C H) (pushes closureErrors closures firstSeen started handled
    reports) :
    led ++ ⟨pushes, closureErrors, closures, firstSeen, started, handled, reports⟩ =
      ⟨led.pushes ++ pushes, led.closureErrors ++ closureErrors, led.closures ++ closures,
        led.firstSeen ++ firstSeen, led.started ++ started, led.handled ++ handled,
        led.reports ++ reports⟩ := rfl

end Ledger

omit [DecidableEq K] in
theorem ledger_append (trace out : List (Obs P C H R)) :
    ledger (trace ++ out) = ledger trace ++ ledger out := by
  ext1 <;> exact List.filterMap_append

omit [DecidableEq K] in
theorem ledger_cons (o : Obs P C H R) (out : List (Obs P C H R)) :
    ledger (o :: out) = ledger [o] ++ ledger out :=
  ledger_append [o] out

omit [DecidableEq K] in
/-- A message changes nothing in the ledger but the pushes. -/
theorem recv_ledger (loop : Loop P K C H) (message : Except R (Event P)) :
    ∃ pushes, ledger (loop.recv message).2 =
      { pushes, closureErrors := [], closures := [], firstSeen := [], started := [],
        handled := [], reports := [] } := by
  rcases message with e | (path | writer)
  · exact ⟨[], rfl⟩
  · exact ⟨[path], rfl⟩
  · refine ⟨[], ?_⟩
    rcases replaced : loop.stopProgressWriter with _ | old <;>
      simp [Loop.recv, ledger, replaced]

/-! ## Scheduling is submission to the pool -/

/-- The pool of path handlers inside the local variables.  `run` keeps the two collections of a
`WorkPool` as two of its variables; everything that is known of pools is used through this
view of them. -/
def Loop.pool (loop : Loop P K C H) : WorkPool P where
  running := loop.handleStorePaths
  pending := loop.pendingHandleStorePaths

/-- The local variables with another pool. -/
def Loop.withPool (loop : Loop P K C H) (pool : WorkPool P) : Loop P K C H :=
  { loop with
    handleStorePaths := pool.running
    pendingHandleStorePaths := pool.pending }

/-- What scheduling the tasks `fresh` emits, `begun` being those that start at
once: nothing else than their first sightings and their starts. -/
structure Schedules (out : List (Obs P C H R)) (fresh begun : List P) : Prop where
  only : ∀ o ∈ out, (∃ path, o = .firstSeen path) ∨ ∃ path, o = .started path
  ledger_eq : ledger out =
    { pushes := [], closureErrors := [], closures := [], firstSeen := fresh,
      started := begun, handled := [], reports := [] }

omit [DecidableEq K] in
/-- What two parts of an output schedule, the whole of it does. -/
theorem Schedules.append {out other : List (Obs P C H R)} {fresh begun fresh' begun' : List P}
    (first : Schedules out fresh begun) (second : Schedules other fresh' begun') :
    Schedules (out ++ other) (fresh ++ fresh') (begun ++ begun') where
  only := by
    intro o member
    rcases List.mem_append.mp member with member | member
    · exact first.only o member
    · exact second.only o member
  ledger_eq := by
    rw [ledger_append, first.ledger_eq, second.ledger_eq]
    rfl

/-- Scheduling an unseen path submits it to the pool. -/
theorem schedulePath_of_notMem {loop : Loop P K C H} {path : P}
    (fresh : hash path ∉ loop.seenStoreHashes) :
    (loop.schedulePath (R := R) hash path).1 =
        { loop.withPool (loop.pool.submit maxConcurrentStorePaths path).1 with
          seenStoreHashes := insert (hash path) loop.seenStoreHashes } ∧
      Schedules (loop.schedulePath (R := R) hash path).2 [path]
        (loop.pool.submit maxConcurrentStorePaths path).2 := by
  unfold Loop.schedulePath WorkPool.submit
  rw [if_neg fresh]
  by_cases free : loop.handleStorePaths.length < maxConcurrentStorePaths
  · rw [if_pos free, if_pos (show loop.pool.running.length < _ from free)]
    exact ⟨rfl, ⟨by simp, rfl⟩⟩
  · rw [if_neg free, if_neg (show ¬ loop.pool.running.length < _ from free)]
    exact ⟨rfl, ⟨by simp, rfl⟩⟩

/-- Scheduling the paths of a closure submits the unseen ones to the pool, in
order, and marks all of them as seen. -/
theorem schedulePaths_eq (loop : Loop P K C H) (paths : List P) :
    (loop.schedulePaths (R := R) hash paths).1 =
        { loop.withPool
            (loop.pool.submitAll maxConcurrentStorePaths
              (unseen hash loop.seenStoreHashes paths)).1 with
          seenStoreHashes := loop.seenStoreHashes ∪ (paths.map hash).toFinset } ∧
      Schedules (loop.schedulePaths (R := R) hash paths).2
        (unseen hash loop.seenStoreHashes paths)
        (loop.pool.submitAll maxConcurrentStorePaths
          (unseen hash loop.seenStoreHashes paths)).2 := by
  induction paths generalizing loop with
  | nil =>
      refine ⟨?_, ⟨by simp [Loop.schedulePaths], rfl⟩⟩
      show loop = _
      simp [Loop.withPool, Loop.pool, unseen, WorkPool.submitAll]
  | cons path rest ih =>
      by_cases known : hash path ∈ loop.seenStoreHashes
      · have skip : loop.schedulePath (R := R) hash path = (loop, []) := if_pos known
        obtain ⟨state, sched⟩ := ih loop
        simp only [Loop.schedulePaths, skip, unseen, if_pos known, List.nil_append]
        refine ⟨?_, sched⟩
        rw [state, List.map_cons, List.toFinset_cons, Finset.union_insert,
          Finset.insert_eq_of_mem (Finset.mem_union_left _ known)]
      · obtain ⟨first, firstOut⟩ := schedulePath_of_notMem (R := R) hash known
        obtain ⟨state, sched⟩ := ih (loop.schedulePath (R := R) hash path).1
        simp only [Loop.schedulePaths, unseen, if_neg known, WorkPool.submitAll]
        rw [first] at state sched
        refine ⟨?_, ?_⟩
        · rw [first, state]
          simp [Loop.withPool, Loop.pool, Finset.insert_union]
        · rw [first]
          exact firstOut.append sched

omit [DecidableEq K] in
/-- A freed slot is given to the first pending path, as the pool does. -/
theorem startNext_eq (loop : Loop P K C H) :
    (loop.startNext (R := R)).1 = loop.withPool loop.pool.startNext.1 ∧
      Schedules (loop.startNext (R := R)).2 [] loop.pool.startNext.2 := by
  unfold Loop.startNext WorkPool.startNext Loop.pool
  rcases waiting : loop.pendingHandleStorePaths with _ | ⟨path, rest⟩
  · refine ⟨?_, ⟨by simp, rfl⟩⟩
    simp [Loop.withPool, ← waiting]
  · exact ⟨rfl, ⟨by simp, rfl⟩⟩

omit [DecidableEq K] in
/-- A completed handler retires from the pool. -/
theorem completePath_eq (loop : Loop P K C H) (i : ℕ) (path : P) (result : HandleResult H) :
    (loop.completePath (R := R) i path result).1 =
        { loop.withPool (loop.pool.retire i).1 with report := loop.report.record path result } ∧
      Schedules (loop.completePath (R := R) i path result).2 [] (loop.pool.retire i).2 :=
  startNext_eq { loop with
    handleStorePaths := loop.handleStorePaths.eraseIdx i
    report := loop.report.record path result }

/-! ## The clients and the channel -/

/-- What `handle_io` sends for an item of connection `c`. -/
def forward (c : ConnId) : Except R (Message P) → Except R (Event P)
  | .ok (.pushStorePath path) => .ok (.pushStorePath path)
  | .ok .stopDaemon => .ok (.stop c)
  | .error e => .error e

/-- The outputs that come from a client or from the channel. -/
def Obs.external : Obs P C H R → Bool
  | .connected _ => true
  | .sent _ _ => true
  | .clientClosed _ => true
  | .received _ => true
  | _ => false

/-- The effect of one event on the connections and the channel.  The listener and the task
list are left out: they decide when a step is possible, but no property of a connection or of
a message depends on them. -/
inductive NetEffect (i : Input P C H R) (net net' : Net P R) (out : List (Obs P C H R)) :
    Prop where
  | internal (clients : net'.clients = net.clients) (channel : net'.channel = net.channel)
      (silent : ∀ o ∈ out, o.external = false)
  | connected (c) (fresh : net.clients c = none)
      (clients : net'.clients = Function.update net.clients c
        (some { inbox := [], closed := false, rxDone := false }))
      (channel : net'.channel = net.channel) (outputs : out = [.connected c])
  | sent (c conn item) (found : net.clients c = some conn) (opened : conn.closed = false)
      (clients : net'.clients = Function.update net.clients c
        (some { conn with inbox := conn.inbox ++ [item] }))
      (channel : net'.channel = net.channel) (outputs : out = [.sent c item])
  | clientClosed (c conn) (found : net.clients c = some conn)
      (clients : net'.clients = Function.update net.clients c (some { conn with closed := true }))
      (channel : net'.channel = net.channel) (outputs : out = [.clientClosed c])
  /-- A task moves the first message of its connection to the end of the channel. -/
  | forwarded (c conn item rest done) (found : net.clients c = some conn)
      (next : conn.inbox = item :: rest)
      (clients : net'.clients = Function.update net.clients c
        (some { conn with inbox := rest, rxDone := done }))
      (channel : net'.channel = net.channel ++ [forward c item]) (outputs : out = [])
  /-- `run` takes the first message of the channel. -/
  | received (message rest) (input : i = .recv) (channel : net.channel = message :: rest)
      (net_eq : net' = { net with channel := rest })
      (outputs : ∀ event, .received event ∈ out ↔ message = .ok event)
      (silent : ∀ o ∈ out, (∀ event, o ≠ .received event) → o.external = false)

section NetEffects

omit [DecidableEq K]

variable {net net' : Net P R} {i : Input P C H R} {out : List (Obs P C H R)}

/-- The task of a connection forwards a message, or returns. -/
theorem handleIo_netEffect {c : ConnId} (h : net.handleIo c = some net') :
    NetEffect i net net' ([] : List (Obs P C H R)) := by
  unfold Net.handleIo at h
  split at h
  · cases h
  · split at h
    · cases h
    · rename_i conn found
      split at h
      · cases h
        exact .internal rfl rfl (by simp)
      · split at h
        · split at h
          · cases h
            exact .internal rfl rfl (by simp)
          · cases h
        · rename_i item rest next
          rcases item with e | (path | _)
          · cases h
            exact .forwarded c conn _ rest _ found next rfl rfl rfl
          · cases h
            exact .forwarded c conn _ rest _ found next rfl rfl rfl
          · cases h
            exact .forwarded c conn _ rest _ found next rfl rfl rfl

/-- The outputs of the steps of `run` other than `recv` are internal. -/
theorem Schedules.internal {fresh begun : List P} (sched : Schedules out fresh begun) :
    ∀ o ∈ out, o.external = false := by
  intro o member
  rcases sched.only o member with ⟨path, rfl⟩ | ⟨path, rfl⟩ <;> rfl

/-- A message is taken off the front of the channel. -/
theorem recv_netEffect {loop : Loop P K C H} {message : Except R (Event P)}
    {rest : List (Except R (Event P))} (channel : net.channel = message :: rest) :
    NetEffect (.recv : Input P C H R) net { net with channel := rest } (loop.recv message).2 := by
  rcases message with e | (path | writer)
  · exact .received _ rest rfl channel rfl (by simp [Loop.recv]) (by simp [Loop.recv, Obs.external])
  · exact .received _ rest rfl channel rfl (by simp [Loop.recv, eq_comm]) (by simp [Loop.recv])
  · refine .received _ rest rfl channel rfl (by simp [Loop.recv, eq_comm]) ?_
    intro o member other
    simp only [Loop.recv, List.mem_cons, List.mem_map] at member
    rcases member with rfl | ⟨old, -, rfl⟩
    · exact absurd rfl (other _)
    · rfl

end NetEffects

/-- What an event does to the connections and the channel. -/
theorem step_netEffect {s s' : State P K C H R} {i : Input P C H R} {out : List (Obs P C H R)}
    (h : step hash s i = some (s', out)) : NetEffect i s.net s'.net out := by
  cases step_turn hash h with
  | connect fresh => exact .connected _ fresh rfl rfl rfl
  | send found opened => exact .sent _ _ _ found opened rfl rfl rfl
  | close found opened => exact .clientClosed _ _ found rfl rfl rfl
  | handleIo done => exact handleIo_netEffect done
  | accept selecting waiting => exact .internal rfl rfl (by simp)
  | recv selecting channel => exact recv_netEffect channel
  | closureFailed selecting found => exact .internal rfl rfl (by simp [Obs.external])
  | closureComputed selecting found =>
      exact .internal rfl rfl
        (List.forall_mem_cons.mpr ⟨rfl, (schedulePaths_eq hash _ _).2.internal⟩)
  | @pathDone i path result selecting found =>
      exact .internal rfl rfl
        (List.forall_mem_cons.mpr ⟨rfl, (completePath_eq s.loop i path result).2.internal⟩)
  | leaveLoop main done => exact .internal rfl rfl (by simp [Obs.external])
  | @drainDone i path result ok draining found =>
      exact .internal rfl rfl (List.forall_mem_cons.mpr ⟨rfl,
        List.forall_mem_cons.mpr ⟨rfl, (completePath_eq s.loop i path result).2.internal⟩⟩)
  | finish draining idle requested => exact .internal rfl rfl (by simp [Obs.external])

/-- A message is received from the channel, by the arm that does so. -/
theorem NetEffect.of_received {i : Input P C H R} {net net' : Net P R}
    {out : List (Obs P C H R)} (effect : NetEffect i net net' out) {event : Event P}
    (member : .received event ∈ out) :
    i = .recv ∧ ∃ rest, net.channel = .ok event :: rest := by
  cases effect with
  | internal clients channel silent => exact absurd (silent _ member) (by simp [Obs.external])
  | connected c fresh clients channel outputs => simp [outputs] at member
  | sent c conn item found opened clients channel outputs => simp [outputs] at member
  | clientClosed c conn found clients channel outputs => simp [outputs] at member
  | forwarded c conn item rest done found next clients channel outputs =>
      simp [outputs] at member
  | received message rest input channel net_eq outputs silent =>
      obtain rfl := (outputs event).mp member
      exact ⟨input, rest, channel⟩

end EventLoop

end CacheAction
