import CacheAction.Foundations.Machine
import CacheAction.Foundations.NonZero
import CacheAction.Protocol.Receiver
import Mathlib.Data.Finset.Insert

/-!
# The daemon's event loop

A state machine with the clients and the socket on one side and the local
variables of `run` on the other.

* `Net` holds what is shared with other tasks: the connections, the listener's
  queue, the `handle_io` tasks and the unbounded channel.  A connection is seen
  through its receiver: its inbox is the sequence of items the receiver has not
  yielded yet (`Protocol.Streaming` says that this sequence does not depend on
  how the bytes arrive).
* `Loop` holds the local variables of `run`.  A running closure or path handler
  is represented by its store path; what it returns, and when, is an input.

The inputs are the possible next events: a client acts, a `handle_io` task
makes progress, an arm of `select!` is chosen, the main loop is left, a handler
completes while draining.  The outputs record what a run has done, in order.

The store path type and its hash are parameters, and so are the errors.

### What `select!` may do

`select!` picks any arm that is ready, so any arm may come next and no fairness is assumed; the
arms are inputs.  Before every turn it is asked whether a stop has been received and no closure
is being computed, and if so the main loop is left, without another look at the channel: a
message that is in it by then is never received.

A dropped writer is an output (`writerClosed`).  It is not a call of the source: a value of type
`Option` is assigned to, or goes out of scope, and the client at the other end sees its
connection closed.
-/

namespace CacheAction

namespace EventLoop

/-- A connection, and the write half that is handed over with a stop request. -/
abbrev ConnId := ℕ

/-- `MAX_CONCURRENT_STORE_PATHS`. -/
def maxConcurrentStorePaths : ℕ := 32

/-- What handling a store path returns: the number of bytes pushed, `none` when
the path was already cached, or an error. -/
abbrev HandleResult (H : Type) := Except H (Option (NonZero 64))

/-- `Event`. -/
inductive Event (P : Type) where
  | pushStorePath (path : P)
  | stop (writer : ConnId)
  deriving DecidableEq

/-- `ActionReport`.  The counters are machine integers and wrap around. -/
structure ActionReport (P C H : Type) where
  numBytesPushed : ℕ
  numPathsPushed : ℕ
  numPathsSkipped : ℕ
  pathClosureErrors : List (P × C)
  pathHandlingErrors : List (P × H)
  deriving DecidableEq

namespace ActionReport

variable {P C H : Type}

/-- `ActionReport::default`. -/
def default : ActionReport P C H :=
  { numBytesPushed := 0, numPathsPushed := 0, numPathsSkipped := 0,
    pathClosureErrors := [], pathHandlingErrors := [] }

/-- Record the result of handling `path`, as both loops of `run` do. -/
def record (report : ActionReport P C H) (path : P) : HandleResult H → ActionReport P C H
  | .ok (some numBytes) =>
      { report with
        numBytesPushed := (report.numBytesPushed + numBytes.val) % 2 ^ 64
        numPathsPushed := (report.numPathsPushed + 1) % 2 ^ 32 }
  | .ok none => { report with numPathsSkipped := (report.numPathsSkipped + 1) % 2 ^ 32 }
  | .error e => { report with pathHandlingErrors := report.pathHandlingErrors ++ [(path, e)] }

end ActionReport

/-- One end of a socket as its `handle_io` task sees it: the items its receiver
has not yielded yet, whether the client has closed its end, and whether the
receiver is done. -/
structure Connection (P R : Type) where
  inbox : List (Except R (Message P))
  closed : Bool
  rxDone : Bool

/-- The clients, the listener, the `handle_io` tasks and the channel. -/
structure Net (P R : Type) where
  clients : ConnId → Option (Connection P R)
  listener : List ConnId
  tasks : List ConnId
  channel : List (Except R (Event P))

/-- Where `run` is. -/
inductive Phase where
  | mainLoop
  | draining
  | finished
  deriving DecidableEq, Repr

/-- The local variables of `run`. -/
structure Loop (P K C H : Type) where
  phase : Phase
  storeClosures : List P
  handleStorePaths : List P
  pendingHandleStorePaths : List P
  seenStoreHashes : Finset K
  report : ActionReport P C H
  stopProgressWriter : Option ConnId

/-- The state of the daemon and its clients. -/
structure State (P K C H R : Type) where
  net : Net P R
  loop : Loop P K C H

/-- What can happen next.  `ok` says whether the reporter's write succeeds. -/
inductive Input (P C H R : Type) where
  | connect (c : ConnId)
  | send (c : ConnId) (item : Except R (Message P))
  | close (c : ConnId)
  | handleIo (c : ConnId)
  | accept
  | recv
  | closureDone (i : ℕ) (result : Except C (List P))
  | pathDone (i : ℕ) (result : HandleResult H)
  | leaveLoop (ok : Bool)
  | drainDone (i : ℕ) (result : HandleResult H) (ok : Bool)
  | finish (ok : Bool)

/-- What a run has done. -/
inductive Obs (P C H R : Type) where
  | connected (c : ConnId)
  | sent (c : ConnId) (item : Except R (Message P))
  | clientClosed (c : ConnId)
  | received (event : Event P)
  | rxError (error : R)
  | closureFailed (path : P) (error : C)
  | closureComputed (path : P) (paths : List P)
  | firstSeen (path : P)
  | started (path : P)
  | handled (path : P) (result : HandleResult H)
  | pathsLeftToHandle (n : ℕ) (ok : Bool)
  | notified (path : P) (result : HandleResult H) (ok : Bool)
  | finalReport (writer : ConnId) (report : ActionReport P C H) (ok : Bool)
  | writerClosed (writer : ConnId)

variable {P K C H R : Type}

/-! ## Clients and `handle_io` tasks -/

namespace Net

/-- A client connects: its connection enters the listener's queue. -/
def connect (net : Net P R) (c : ConnId) : Option (Net P R × List (Obs P C H R)) :=
  match net.clients c with
  | some _ => none
  | none =>
      some ({ net with
        clients := Function.update net.clients c
          (some { inbox := [], closed := false, rxDone := false })
        listener := net.listener ++ [c] }, [.connected c])

/-- A client writes a message. -/
def send (net : Net P R) (c : ConnId) (item : Except R (Message P)) :
    Option (Net P R × List (Obs P C H R)) :=
  match net.clients c with
  | none => none
  | some conn =>
      if conn.closed then none
      else
        some ({ net with
          clients := Function.update net.clients c
            (some { conn with inbox := conn.inbox ++ [item] }) }, [.sent c item])

/-- A client closes its end. -/
def close (net : Net P R) (c : ConnId) : Option (Net P R × List (Obs P C H R)) :=
  match net.clients c with
  | none => none
  | some conn =>
      if conn.closed then none
      else
        some ({ net with
          clients := Function.update net.clients c (some { conn with closed := true }) },
          [.clientClosed c])

/-- Whether an item ends a receiver's stream. -/
def isLast : Except R (Message P) → Bool
  | .ok (.pushStorePath _) => false
  | .ok .stopDaemon => true
  | .error _ => true

/-- One turn of the loop of `handle_io`, for the task of connection `c`.  The
task waits while its receiver has nothing to yield. -/
def handleIo (net : Net P R) (c : ConnId) : Option (Net P R) :=
  if c ∉ net.tasks then none
  else
    match net.clients c with
    | none => none
    | some conn =>
        if conn.rxDone then some { net with tasks := net.tasks.erase c }
        else
          match conn.inbox with
          | [] => if conn.closed then some { net with tasks := net.tasks.erase c } else none
          | item :: rest =>
              let clients := Function.update net.clients c
                (some { conn with inbox := rest, rxDone := isLast item })
              match item with
              | .ok (.pushStorePath path) =>
                  some { net with
                    clients, channel := net.channel ++ [.ok (.pushStorePath path)] }
              | .ok .stopDaemon =>
                  some { net with
                    clients, channel := net.channel ++ [.ok (.stop c)]
                    tasks := net.tasks.erase c }
              | .error e => some { net with clients, channel := net.channel ++ [.error e] }

/-- The arm of `select!` that accepts a connection and spawns its task. -/
def accept (net : Net P R) : Option (Net P R) :=
  match net.listener with
  | [] => none
  | c :: rest => some { net with listener := rest, tasks := net.tasks ++ [c] }

end Net

/-! ## The local steps of `run` -/

namespace Loop

/-- The condition at the top of the main loop: go on unless a stop has been
requested and no closure is being computed. -/
def selecting (loop : Loop P K C H) : Bool :=
  loop.phase = .mainLoop && !(loop.stopProgressWriter.isSome && loop.storeClosures.isEmpty)

/-- The arm of `select!` that receives a message. -/
def recv (loop : Loop P K C H) : Except R (Event P) → Loop P K C H × List (Obs P C H R)
  | .ok (.pushStorePath path) =>
      ({ loop with storeClosures := loop.storeClosures ++ [path] },
        [.received (.pushStorePath path)])
  | .ok (.stop writer) =>
      -- assigning to the option drops the writer it held
      ({ loop with stopProgressWriter := some writer },
        .received (.stop writer) :: (loop.stopProgressWriter.toList.map .writerClosed))
  | .error e => (loop, [.rxError e])

variable [DecidableEq K] (hash : P → K)

/-- The body of the loop over the paths of a closure. -/
def schedulePath (loop : Loop P K C H) (path : P) : Loop P K C H × List (Obs P C H R) :=
  if hash path ∈ loop.seenStoreHashes then (loop, [])
  else
    let loop := { loop with seenStoreHashes := insert (hash path) loop.seenStoreHashes }
    if loop.handleStorePaths.length < maxConcurrentStorePaths then
      ({ loop with handleStorePaths := loop.handleStorePaths ++ [path] },
        [.firstSeen path, .started path])
    else
      ({ loop with pendingHandleStorePaths := loop.pendingHandleStorePaths ++ [path] },
        [.firstSeen path])

/-- `for path in store_paths`. -/
def schedulePaths : Loop P K C H → List P → Loop P K C H × List (Obs P C H R)
  | loop, [] => (loop, [])
  | loop, path :: rest =>
      let first := schedulePath hash loop path
      let others := schedulePaths first.1 rest
      (others.1, first.2 ++ others.2)

/-- The arm of `select!` for a computed closure. -/
def closureDone (loop : Loop P K C H) (i : ℕ) (result : Except C (List P)) :
    Option (Loop P K C H × List (Obs P C H R)) :=
  match loop.storeClosures[i]? with
  | none => none
  | some path =>
      let loop := { loop with storeClosures := loop.storeClosures.eraseIdx i }
      match result with
      | .ok storePaths =>
          let scheduled := schedulePaths hash loop storePaths
          some (scheduled.1, .closureComputed path storePaths :: scheduled.2)
      | .error e =>
          some ({ loop with
            report := { loop.report with
              pathClosureErrors := loop.report.pathClosureErrors ++ [(path, e)] } },
            [.closureFailed path e])

/-- Start the first pending path, if there is one. -/
def startNext (loop : Loop P K C H) : Loop P K C H × List (Obs P C H R) :=
  match loop.pendingHandleStorePaths with
  | [] => (loop, [])
  | path :: rest =>
      ({ loop with
        handleStorePaths := loop.handleStorePaths ++ [path]
        pendingHandleStorePaths := rest }, [.started path])

/-- The `i`-th running handler, that of `path`, has completed: its result is
recorded, and a pending path takes its place. -/
def completePath (loop : Loop P K C H) (i : ℕ) (path : P) (result : HandleResult H) :
    Loop P K C H × List (Obs P C H R) :=
  startNext { loop with
    handleStorePaths := loop.handleStorePaths.eraseIdx i
    report := loop.report.record path result }

/-- One result of `handle_store_paths`, in either loop. -/
def pathDone (loop : Loop P K C H) (i : ℕ) (result : HandleResult H) :
    Option (P × Loop P K C H × List (Obs P C H R)) :=
  match loop.handleStorePaths[i]? with
  | none => none
  | some path => some (path, completePath loop i path result)

end Loop

/-! ## The machine -/

section Machine

variable [DecidableEq K] (hash : P → K)

/-- One event. -/
def step (s : State P K C H R) : Input P C H R → Option (State P K C H R × List (Obs P C H R))
  | .connect c => (s.net.connect c).map fun p => ({ s with net := p.1 }, p.2)
  | .send c item => (s.net.send c item).map fun p => ({ s with net := p.1 }, p.2)
  | .close c => (s.net.close c).map fun p => ({ s with net := p.1 }, p.2)
  | .handleIo c => (s.net.handleIo c).map fun net => ({ s with net }, [])
  | .accept =>
      if s.loop.selecting then s.net.accept.map fun net => ({ s with net }, []) else none
  | .recv =>
      if s.loop.selecting then
        match s.net.channel with
        | [] => none
        | message :: rest =>
            let received := s.loop.recv message
            some ({ net := { s.net with channel := rest }, loop := received.1 }, received.2)
      else none
  | .closureDone i result =>
      if s.loop.selecting then
        (s.loop.closureDone hash i result).map fun p => ({ s with loop := p.1 }, p.2)
      else none
  | .pathDone i result =>
      if s.loop.selecting then
        (s.loop.pathDone i result).map fun p =>
          ({ s with loop := p.2.1 }, .handled p.1 result :: p.2.2)
      else none
  | .leaveLoop ok =>
      if s.loop.phase = .mainLoop ∧ s.loop.selecting = false then
        some ({ s with loop := { s.loop with phase := .draining } },
          [.pathsLeftToHandle
            ((s.loop.handleStorePaths.length + s.loop.pendingHandleStorePaths.length) % 2 ^ 32)
            ok])
      else none
  | .drainDone i result ok =>
      if s.loop.phase = .draining then
        (s.loop.pathDone i result).map fun p =>
          ({ s with loop := p.2.1 },
            .notified p.1 result ok :: .handled p.1 result :: p.2.2)
      else none
  | .finish ok =>
      if s.loop.phase = .draining ∧ s.loop.handleStorePaths = [] then
        match s.loop.stopProgressWriter with
        | none => none
        | some writer =>
            some ({ s with loop := { s.loop with phase := .finished } },
              [.finalReport writer s.loop.report ok, .writerClosed writer])
      else none

/-- The daemon before its first connection. -/
def init : State P K C H R where
  net := { clients := fun _ => none, listener := [], tasks := [], channel := [] }
  loop :=
    { phase := .mainLoop, storeClosures := [], handleStorePaths := [],
      pendingHandleStorePaths := [], seenStoreHashes := ∅, report := ActionReport.default,
      stopProgressWriter := none }

/-- `run`, with its clients. -/
def machine : Machine (State P K C H R) (Input P C H R) (Obs P C H R) where
  step := step hash

end Machine

end EventLoop

end CacheAction
