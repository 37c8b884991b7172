import CacheAction.Foundations.Utf8
import Mathlib.Data.List.Basic

/-!
# Waiting until the daemon is ready

The daemon reports what came of `start` through the ready pipe: a zero byte, or a
one and the text of the error.  It then closes the pipe and, after an error,
exits.  The action reads the pipe to its end (`readReady`) and races this against
the exit of the daemon (`waitForDaemonReady`).

The events of the pipe come in the order of the pipe, but nothing orders them
with the exit event: when that one overtakes the end of the pipe, its own message
takes the place of the error that the daemon has written.  `handshake_right_iff`
says that the action reports the result of `start` in all other cases, and only
in those.

The text of an I/O error and of an error of the Nix library is a parameter of the
error, and so is what Node makes of bytes that are not valid UTF-8.

### Two channels and no order

What the parent hears is a list of events, and all that is known about it is `Delivered`: the
chunks of the pipe are in order and make up what was written, the end of the pipe comes after
them, and an exit is only heard of a daemon that has exited.  Between the two channels nothing
is assumed, since they are watched separately, and the daemon closes the one and ends right
after it.  A promise is settled by the first event that settles it, and what comes later
changes nothing (`foldl_settled`).
-/

namespace CacheAction

namespace Readiness

/-! ## The daemon -/

/-- `StartError`, with the texts of the errors of other crates. -/
inductive StartError where
  | bindSocket (ioError : String)
  /-- `Sub60CacheConnectError::BuildHttpClient` is the only error of connecting. -/
  | connectToCache
  | openNixStore (error : String)
  deriving DecidableEq, Repr

/-- `StartError::fmt`. -/
def StartError.display : StartError → String
  | .bindSocket ioError => "Couldn't bind to Unix domain socket: " ++ ioError
  | .connectToCache => "couldn't build HTTP client"
  | .openNixStore error => "Couldn't open Nix store: " ++ error

/-- What `run` has done by the time it enters the event loop or exits. -/
structure Started where
  pipe : List UInt8
  stderr : List String
  exitCode : Option ℕ
  deriving DecidableEq

/-- The bytes that `signal_readiness` writes, if all of them are accepted. -/
def statusBytes : Except StartError Unit → List UInt8
  | .ok () => [0]
  | .error startError => 1 :: utf8 startError.display

/-- `signal_readiness`.  When a write fails, the pipe has got the first `n` bytes
and the rest is not written. -/
def signalReadiness (startRes : Except StartError Unit) (failure : Option (ℕ × String)) :
    List UInt8 × Except String Unit :=
  match failure with
  | none => (statusBytes startRes, .ok ())
  | some (n, ioErr) => ((statusBytes startRes).take n, .error ioErr)

/-- `run`, up to the event loop. -/
def run (readyFd : Option ℕ) (failure : Option (ℕ × String)) (startRes : Except StartError Unit) :
    Started :=
  let signalled : List UInt8 × List String :=
    match readyFd with
    | none => ([], [])
    | some readyFd =>
        match signalReadiness startRes failure with
        | (pipe, .ok ()) => (pipe, [])
        | (pipe, .error ioErr) =>
            (pipe,
              ["Couldn't write to file descriptor " ++ toString readyFd ++ ": " ++ ioErr])
  match startRes with
  | .ok () => { pipe := signalled.1, stderr := signalled.2, exitCode := none }
  | .error startError =>
      { pipe := signalled.1
        stderr := signalled.2 ++ if readyFd.isNone then [startError.display] else []
        exitCode := some 1 }

/-! ## The action -/

/-- The events that the action gets, in the order of their delivery. -/
inductive ParentEvent where
  | chunk (bytes : List UInt8)
  | pipeEnd
  | exit (code : Option ℕ) (signal : Option String)
  /-- The child process could not be spawned. -/
  | error (message : String)
  deriving DecidableEq

/-- The event comes from the pipe. -/
def ParentEvent.fromPipe : ParentEvent → Bool
  | .chunk _ => true
  | .pipeEnd => true
  | _ => false

/-- How `waitForDaemonReady` settles: the message of the error, if it rejects. -/
abbrev Outcome := Except String Unit

section Action

variable (replace : List UInt8 → String)

/-- `buffer.toString("utf8")`; `replace` is the text for invalid bytes. -/
def bufferToString (bytes : List UInt8) : String :=
  (fromUtf8 bytes).getD (replace bytes)

/-- What `readReady` makes of the whole message. -/
def readReady (message : List UInt8) : Outcome :=
  match message with
  | [] => .error "daemon exited before reporting readiness"
  | status :: rest =>
      if status = 0 then .ok ()
      else if status = 1 then
        let text := bufferToString replace rest
        .error (if text = "" then "daemon startup failed" else text)
      else .error ("daemon reported unknown startup status " ++ toString status.toNat)

/-- The message of `onExit`. -/
def exitMessage (code : Option ℕ) (signal : Option String) : String :=
  "daemon exited before readiness: code=" ++ (code.map toString).getD "null" ++ ", signal=" ++
    signal.getD "null"

/-- `waitForDaemonReady`: the chunks read so far, or how the race has been
settled. -/
inductive Waiting where
  | reading (chunks : List (List UInt8))
  | settled (outcome : Outcome)

/-- One event; the first one to settle the race decides. -/
def Waiting.step : Waiting → ParentEvent → Waiting
  | .settled outcome, _ => .settled outcome
  | .reading chunks, .chunk bytes => .reading (chunks ++ [bytes])
  | .reading chunks, .pipeEnd => .settled (readReady replace chunks.flatten)
  | .reading _, .exit code signal => .settled (.error (exitMessage code signal))
  | .reading _, .error message => .settled (.error message)

/-- `waitForDaemonReady`. -/
def waitForDaemonReady (events : List ParentEvent) : Waiting :=
  events.foldl (Waiting.step replace) (.reading [])

end Action

/-! ## Delivery -/

/-- The events of a daemon, in some order of delivery: the pipe's bytes in chunks
and then its end, and the exit if the daemon exits, with any interleaving. -/
structure Delivered (started : Started) (events : List ParentEvent) : Prop where
  pipe : ∃ chunks : List (List UInt8), chunks.flatten = started.pipe ∧
    events.filter ParentEvent.fromPipe = chunks.map .chunk ++ [.pipeEnd]
  process : events.filter (fun event => !event.fromPipe) =
    started.exitCode.toList.map fun code => .exit (some code) none

/-- The end of the pipe is delivered before any exit. -/
def EndBeforeExit (events : List ParentEvent) : Prop :=
  ∃ before after, events = before ++ .pipeEnd :: after ∧
    ∀ code signal, .exit code signal ∉ before

/-- The action reports what came of `start`, and nobody else does. -/
structure HandshakeRight (replace : List UInt8 → String) (startRes : Except StartError Unit)
    (started : Started) (events : List ParentEvent) : Prop where
  /-- `waitForDaemonReady` resolves if `start` returned `Ok`, and otherwise rejects
  with the text of the error. -/
  reported : waitForDaemonReady replace events =
    .settled (startRes.mapError StartError.display)
  /-- The daemon prints nothing. -/
  silent : started.stderr = []

section Texts

variable {replace : List UInt8 → String}

theorem head?_append {s : String} {c : Char} (head : s.toList.head? = some c) (t : String) :
    (s ++ t).toList.head? = some c := by
  rw [String.toList_append, List.head?_append, head]
  rfl

/-- The text of an error is not empty, and not the message of an exit. -/
theorem display_head (e : StartError) :
    e.display.toList.head? = some 'C' ∨ e.display.toList.head? = some 'c' := by
  rcases e with ioError | _ | error
  · left
    exact head?_append (by decide +kernel) ioError
  · right
    decide +kernel
  · left
    exact head?_append (by decide +kernel) error

theorem display_ne_empty (e : StartError) : e.display ≠ "" := by
  intro empty
  have no_head : e.display.toList.head? = none := by
    rw [empty]
    rfl
  rcases display_head e with head | head
  · exact absurd (head.symm.trans no_head) (by decide)
  · exact absurd (head.symm.trans no_head) (by decide)

theorem exitMessage_ne_display (code : Option ℕ) (signal : Option String) (e : StartError) :
    exitMessage code signal ≠ e.display := by
  have head : (exitMessage code signal).toList.head? = some 'd' := by
    have first : "daemon exited before readiness: code=".toList.head? = some 'd' := by
      decide +kernel
    exact head?_append (head?_append (head?_append first _) _) _
  intro same
  rw [same] at head
  rcases display_head e with other | other
  · exact absurd (other.symm.trans head) (by decide)
  · exact absurd (other.symm.trans head) (by decide)

/-- The parent reads what the daemon has written. -/
theorem readReady_statusBytes (startRes : Except StartError Unit) :
    readReady replace (statusBytes startRes) = startRes.mapError StartError.display := by
  rcases startRes with e | ⟨⟨⟩⟩
  · have text : bufferToString replace (utf8 e.display) = e.display := by
      rw [bufferToString, fromUtf8_utf8, Option.getD_some]
    simp [readReady, statusBytes, text, display_ne_empty, Except.mapError]
  · rfl

end Texts

section Orders

variable {replace : List UInt8 → String} {startRes : Except StartError Unit}
  {started : Started} {events before after : List ParentEvent}

theorem foldl_settled (outcome : Outcome) (events : List ParentEvent) :
    events.foldl (Waiting.step replace) (.settled outcome) = .settled outcome := by
  induction events with
  | nil => rfl
  | cons event rest ih => exact ih

/-- Chunks are collected. -/
theorem foldl_chunks (earlier chunks : List (List UInt8)) :
    (chunks.map ParentEvent.chunk).foldl (Waiting.step replace) (.reading earlier) =
      .reading (earlier ++ chunks) := by
  induction chunks generalizing earlier with
  | nil => simp
  | cons chunk rest ih =>
      rw [List.map_cons, List.foldl_cons, Waiting.step, ih, List.append_assoc,
        List.singleton_append]

/-- A list with one last element is split there in one way. -/
theorem eq_of_append_cons_eq_concat {α : Type} {xs ys zs : List α} {a : α}
    (same : xs ++ a :: ys = zs ++ [a]) (fresh : a ∉ zs) : xs = zs ∧ ys = [] := by
  rcases List.eq_nil_or_concat ys with rfl | ⟨init, last, rfl⟩
  · exact ⟨List.append_cancel_right same, rfl⟩
  · have shifted : (xs ++ a :: init) ++ [last] = zs ++ [a] := by simpa using same
    obtain ⟨rfl, -⟩ := List.append_inj' shifted rfl
    exact absurd (by simp) fresh

/-- Events before the first one from the process come from the pipe. -/
theorem filter_fromPipe (pipeOnly : ∀ event ∈ before, event.fromPipe = true) :
    before.filter ParentEvent.fromPipe = before :=
  List.filter_eq_self.mpr pipeOnly

/-- The end of the pipe comes first: the whole status is read. -/
theorem waitForDaemonReady_of_end (delivered : Delivered started events)
    (split : events = before ++ .pipeEnd :: after)
    (pipeOnly : ∀ event ∈ before, event.fromPipe = true) :
    waitForDaemonReady replace events = .settled (readReady replace started.pipe) := by
  obtain ⟨chunks, whole, pipe⟩ := delivered.pipe
  rw [split, List.filter_append, filter_fromPipe pipeOnly,
    List.filter_cons_of_pos (by rfl)] at pipe
  obtain ⟨rfl, -⟩ := eq_of_append_cons_eq_concat pipe (by simp)
  rw [waitForDaemonReady, split, List.foldl_append, foldl_chunks, List.nil_append,
    List.foldl_cons, Waiting.step, foldl_settled, whole]

/-- The exit comes first: whatever has been read is dropped. -/
theorem waitForDaemonReady_of_exit {code : Option ℕ} {signal : Option String}
    (split : events = before ++ .exit code signal :: after)
    (chunksOnly : ∀ event ∈ before, ∃ bytes, event = .chunk bytes) :
    waitForDaemonReady replace events = .settled (.error (exitMessage code signal)) := by
  have collected : ∃ chunks : List (List UInt8), before = chunks.map .chunk := by
    induction before generalizing events with
    | nil => exact ⟨[], rfl⟩
    | cons event rest ih =>
        obtain ⟨⟨bytes, rfl⟩, others⟩ := List.forall_mem_cons.mp chunksOnly
        obtain ⟨chunks, rfl⟩ := ih rfl others
        exact ⟨bytes :: chunks, rfl⟩
  obtain ⟨chunks, rfl⟩ := collected
  rw [waitForDaemonReady, split, List.foldl_append, foldl_chunks, List.foldl_cons, Waiting.step,
    foldl_settled]

/-- The only events of the process are those of its exit. -/
theorem Delivered.exit_of_process (delivered : Delivered started events) {event : ParentEvent}
    (member : event ∈ events) (process : event.fromPipe = false) :
    ∃ code, started.exitCode = some code ∧ event = .exit (some code) none := by
  have kept : event ∈ events.filter (fun event => !event.fromPipe) :=
    List.mem_filter.mpr ⟨member, by simp [process]⟩
  rw [delivered.process] at kept
  obtain ⟨code, hcode, rfl⟩ := List.mem_map.mp kept
  exact ⟨code, Option.mem_toList.mp hcode, rfl⟩

/-- Before an end of the pipe that precedes any exit, all events are the pipe's. -/
theorem Delivered.fromPipe_of_no_exit (delivered : Delivered started events)
    (inside : ∀ event ∈ before, event ∈ events)
    (no_exit : ∀ code signal, .exit code signal ∉ before) :
    ∀ event ∈ before, event.fromPipe = true := by
  intro event member
  by_contra process
  obtain ⟨code, -, rfl⟩ :=
    delivered.exit_of_process (inside event member) (by simpa using process)
  exact no_exit _ _ member

/-- When the pipe ends after the exit, there is nothing but chunks before it. -/
theorem exists_exit_first (delivered : Delivered started events) {code : ℕ}
    (exits : started.exitCode = some code) (late : ¬ EndBeforeExit events) :
    ∃ before after, events = before ++ .exit (some code) none :: after ∧
      ∀ event ∈ before, ∃ bytes, event = .chunk bytes := by
  have member : ParentEvent.exit (some code) none ∈ events := by
    have kept : ParentEvent.exit (some code) none ∈
        events.filter (fun event => !event.fromPipe) := by
      rw [delivered.process, exits]
      simp
    exact (List.mem_filter.mp kept).1
  obtain ⟨before, after, split, first⟩ := List.eq_append_cons_of_mem member
  have inside : ∀ event ∈ before, event ∈ events := by
    intro event earlier
    rw [split]
    exact List.mem_append_left _ earlier
  have no_exit : ∀ code signal, .exit code signal ∉ before := by
    intro code' signal' earlier
    obtain ⟨code₁, exits₁, same⟩ := delivered.exit_of_process (inside _ earlier) rfl
    obtain rfl := Option.some.inj (exits.symm.trans exits₁)
    exact first (same ▸ earlier)
  have pipeOnly := delivered.fromPipe_of_no_exit inside no_exit
  refine ⟨before, after, split, fun event earlier => ?_⟩
  have fromPipe := pipeOnly event earlier
  rcases event with bytes | _ | ⟨code', signal'⟩ | message
  · exact ⟨bytes, rfl⟩
  · -- the pipe would have ended before the exit
    obtain ⟨start, rest, ends⟩ := List.append_of_mem earlier
    refine absurd ⟨start, rest ++ .exit (some code) none :: after, ?_, ?_⟩ late
    · rw [split, ends, List.append_assoc, List.cons_append]
    · intro code' signal' member
      exact no_exit code' signal' (ends ▸ List.mem_append_left _ member)
  · cases fromPipe
  · cases fromPipe

end Orders

section Run

variable (startRes : Except StartError Unit) (readyFd : ℕ)

theorem run_pipe : (run (some readyFd) none startRes).pipe = statusBytes startRes := by
  rcases startRes with e | ⟨⟨⟩⟩ <;> rfl

theorem run_silent : (run (some readyFd) none startRes).stderr = [] := by
  rcases startRes with e | ⟨⟨⟩⟩ <;> rfl

end Run

/-- **The handshake reports the result of `start`** exactly if that is `Ok` or the
end of the pipe is delivered before the exit.

A daemon that has started lives on, so no exit is delivered and the end of its pipe settles
the promise.  One that has failed writes its error, closes the pipe and exits: the parent
takes whichever it hears of first, and when that is the exit, what it reports is the exit
message, which is the display of no error. -/
theorem handshake_right_iff (replace : List UInt8 → String) (startRes : Except StartError Unit)
    (readyFd : ℕ) {events : List ParentEvent}
    (delivered : Delivered (run (some readyFd) none startRes) events) :
    HandshakeRight replace startRes (run (some readyFd) none startRes) events ↔
      startRes = .ok () ∨ EndBeforeExit events := by
  constructor
  · intro right
    rcases startRes with e | ⟨⟨⟩⟩
    · by_contra neither
      obtain ⟨-, late⟩ := not_or.mp neither
      obtain ⟨before, after, split, chunksOnly⟩ := exists_exit_first delivered rfl late
      have overtaken : waitForDaemonReady replace events =
          .settled (.error (exitMessage (some 1) none)) :=
        waitForDaemonReady_of_exit split chunksOnly
      have reported := right.reported
      rw [overtaken] at reported
      obtain message := Except.error.inj (Waiting.settled.inj reported)
      exact exitMessage_ne_display _ _ e message
    · exact .inl rfl
  · intro ordered
    have ended : EndBeforeExit events := by
      rcases ordered with rfl | ended
      · -- a daemon that has started does not exit
        obtain ⟨chunks, -, pipe⟩ := delivered.pipe
        have member : ParentEvent.pipeEnd ∈ events := by
          have kept : ParentEvent.pipeEnd ∈ events.filter ParentEvent.fromPipe := by
            rw [pipe]
            simp
          exact (List.mem_filter.mp kept).1
        obtain ⟨before, after, split⟩ := List.append_of_mem member
        refine ⟨before, after, split, fun code signal earlier => ?_⟩
        have inside : ParentEvent.exit code signal ∈ events := by
          rw [split]
          exact List.mem_append_left _ earlier
        obtain ⟨code', exits, -⟩ := delivered.exit_of_process inside rfl
        cases exits
      · exact ended
    obtain ⟨before, after, split, no_exit⟩ := ended
    have pipeOnly := delivered.fromPipe_of_no_exit
      (fun event member => split ▸ List.mem_append_left _ member) no_exit
    refine ⟨?_, run_silent startRes readyFd⟩
    rw [waitForDaemonReady_of_end delivered split pipeOnly, run_pipe, readReady_statusBytes]

/-- The socket's path is taken. -/
def addressInUse : StartError := .bindSocket "Address already in use (os error 98)"

/-- The error is read in two chunks, before the exit. -/
theorem handshake_right_address_in_use :
    HandshakeRight (fun _ => "") (.error addressInUse) (run (some 3) none (.error addressInUse))
      [.chunk [1], .chunk (utf8 addressInUse.display), .pipeEnd, .exit (some 1) none] :=
  (handshake_right_iff _ _ 3 ⟨⟨[[1], utf8 addressInUse.display], rfl, rfl⟩, rfl⟩).mpr
    (.inr ⟨[.chunk [1], .chunk (utf8 addressInUse.display)], [.exit (some 1) none], rfl, by simp⟩)

/-- The exit overtakes the end of the pipe: the error has been received, and
another one is reported. -/
theorem exit_overtakes_error :
    let started := run (some 3) none (.error addressInUse)
    let events : List ParentEvent := [.chunk started.pipe, .exit (some 1) none, .pipeEnd]
    Delivered started events ∧
      waitForDaemonReady (fun _ => "") events =
        .settled (.error "daemon exited before readiness: code=1, signal=null") ∧
      ¬ HandshakeRight (fun _ => "") (.error addressInUse) started events := by
  have message : exitMessage (some 1) none =
      "daemon exited before readiness: code=1, signal=null" := by decide +kernel
  refine ⟨⟨⟨[statusBytes (.error addressInUse)], rfl, rfl⟩, rfl⟩, ?_, fun right => ?_⟩
  · rw [← message]
    rfl
  · exact exitMessage_ne_display (some 1) none addressInUse
      (Except.error.inj (Waiting.settled.inj right.reported))

end Readiness

end CacheAction
