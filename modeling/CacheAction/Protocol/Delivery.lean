import CacheAction.Foundations.Machine
import CacheAction.Protocol.Sender

/-!
# Any order of calls on a sender

A `Sender` is used through three operations of `Sink`: `start_send`,
`poll_flush` and `poll_close` (`poll_ready` is always ready and does nothing).
Their user may call them in any order, go on after a failed or pending poll, and
buffer more messages while a part of the buffer has already been written.

The machine of this module takes one call at a time.  Its invariant is
`Sender.Delivers`, against the encodings of the messages sent so far
(`sentBytes`); every list of calls has a run, and what `Delivered` says holds at
its end (`calls_deliver`).  Whatever the calls have left behind, the next flush or close of
a writer that takes bytes delivers it (`poll_completes`).
-/

namespace CacheAction

namespace Sender

variable {P ε : Type}

/-- `Sink::poll_flush`: drain the buffer, then flush the writer.  It differs from
`poll_close` in the last operation on the writer alone, and neither of the two
offers bytes to it. -/
def pollFlush (sender : Sender) (writer : Sink UInt8 ε) :
    Option (Poll (Except (SendError ε) Unit) × Sender × Sink UInt8 ε) :=
  match drainBuf sender writer with
  | some (.ready (.ok ()), sender, writer) =>
      match writer.pollControl with
      | (.pending, writer) => some (.pending, sender, writer)
      | (.ready (.ok ()), writer) => some (.ready (.ok ()), sender, writer)
      | (.ready (.error e), writer) => some (.ready (.error (.writer e)), sender, writer)
  | other => other

theorem pollFlush_eq (sender : Sender) (writer : Sink UInt8 ε) :
    sender.pollFlush writer = sender.pollClose writer := rfl

/-! ## Calls -/

/-- A call on a sender. -/
inductive Call (P : Type) where
  | startSend (message : Message P)
  | pollFlush
  | pollClose

/-- A call that has returned.  A poll is recorded with its result and with the
bytes that the writer has accepted by then. -/
inductive Called (P ε : Type) where
  | sent (message : Message P)
  | polled (result : Poll (Except (SendError ε) Unit)) (accepted : List UInt8)

/-- A sender with its writer. -/
structure Link (ε : Type) where
  sender : Sender
  writer : Sink UInt8 ε

/-- The sender and the writer after a poll. -/
def Link.polled (answer : Poll (Except (SendError ε) Unit) × Sender × Sink UInt8 ε) :
    Link ε × List (Called P ε) :=
  ({ sender := answer.2.1, writer := answer.2.2 }, [.polled answer.1 answer.2.2.accepted])

variable (display : P → String)

/-- One call. -/
def step (link : Link ε) : Call P → Option (Link ε × List (Called P ε))
  | .startSend message =>
      some ({ link with sender := link.sender.startSend display message }, [.sent message])
  | .pollFlush => (link.sender.pollFlush link.writer).map Link.polled
  | .pollClose => (link.sender.pollClose link.writer).map Link.polled

/-- A sender and the calls of its user. -/
def calls : Machine (Link ε) (Call P) (Called P ε) where
  step := step display

/-- A new sender for a writer that has accepted nothing. -/
def Link.start (schedule : ℕ → WriteChoice ε) : Link ε :=
  { sender := new, writer := { accepted := [], schedule } }

/-- The encodings of the messages sent, one after the other. -/
def sentBytes (trace : List (Called P ε)) : List UInt8 :=
  trace.flatMap fun
    | .sent message => message.encode display
    | .polled _ _ => []

/-! ## Delivery -/

/-- A poll that succeeds has delivered everything sent before it. -/
def SuccessDelivers (pre : List (Called P ε)) (called : Called P ε) : Prop :=
  ∀ accepted, called = .polled (.ready (.ok ())) accepted → accepted = sentBytes display pre

/-- What holds after any calls. -/
structure Delivered (trace : List (Called P ε)) (link : Link ε) : Prop where
  /-- The writer has accepted a prefix of what has been sent. -/
  inOrder : link.writer.accepted <+: sentBytes display trace
  /-- The cursor stays inside the buffer. -/
  cursor : link.sender.numWritten ≤ link.sender.buf.length
  /-- At every successful flush or close, it had accepted all of it. -/
  complete : Guarded (SuccessDelivers display) trace

section Steps

variable {display} {link : Link ε} {trace : List (Called P ε)}

theorem sentBytes_append (trace out : List (Called P ε)) :
    sentBytes display (trace ++ out) = sentBytes display trace ++ sentBytes display out :=
  List.flatMap_append

theorem successDelivers_sent (message : Message P) :
    SuccessDelivers display trace (.sent message) := by
  rintro accepted ⟨⟩

/-- The invariant of a sender in use. -/
structure InUse (display : P → String) (link : Link ε) (trace : List (Called P ε)) : Prop where
  delivers : Delivers link.sender link.writer (sentBytes display trace)
  complete : Guarded (SuccessDelivers display) trace

theorem InUse.startSend (inUse : InUse display link trace) (message : Message P) :
    InUse display { link with sender := link.sender.startSend display message }
      (trace ++ [.sent message]) where
  delivers := by
    rw [sentBytes_append, show sentBytes display [(.sent message : Called P ε)] =
      message.encode display from List.flatMap_singleton _ _]
    exact startSend_delivers display inUse.delivers message
  complete := inUse.complete.concat (successDelivers_sent message)

/-- A flush or a close always returns; it repeats and loses nothing, and when it
succeeds nothing is left to deliver. -/
theorem InUse.poll (inUse : InUse display link trace) :
    ∃ answer, link.sender.pollClose link.writer = some answer ∧
      InUse display (Link.polled (P := P) answer).1 (trace ++ (Link.polled answer).2) := by
  obtain ⟨result, sender, writer, hpoll, hdelivers, hdone⟩ := pollClose_delivers inUse.delivers
  refine ⟨(result, sender, writer), hpoll, ?_, ?_⟩
  · simpa [Link.polled, sentBytes] using hdelivers
  · refine inUse.complete.concat ?_
    rintro accepted ⟨⟩
    exact hdone rfl

/-- Every call returns, whatever has been called before. -/
theorem InUse.step (inUse : InUse display link trace) (call : Call P) :
    ∃ link' out, step display link call = some (link', out) ∧
      InUse display link' (trace ++ out) := by
  cases call with
  | startSend message => exact ⟨_, _, rfl, inUse.startSend message⟩
  | pollFlush =>
      obtain ⟨answer, hpoll, next⟩ := inUse.poll
      exact ⟨_, _, by rw [Sender.step, pollFlush_eq, hpoll]; rfl, next⟩
  | pollClose =>
      obtain ⟨answer, hpoll, next⟩ := inUse.poll
      exact ⟨_, _, by rw [Sender.step, hpoll]; rfl, next⟩

end Steps

section Runs

variable {display} {schedule : ℕ → WriteChoice ε} {made : List (Call P)} {link : Link ε}
  {trace : List (Called P ε)}

theorem inUse_of_run
    (hrun : (calls display).run (Link.start schedule) made = some (link, trace)) :
    InUse display link trace := by
  refine (calls display).run_invariant (I := fun link trace => InUse display link trace)
    (fun link trace call link' out inUse hstep => ?_)
    ⟨delivers_new schedule, guarded_nil⟩ hrun
  obtain ⟨_, _, hstep', next⟩ := inUse.step call
  cases hstep.symm.trans hstep'
  exact next

/-- **The next poll completes the delivery**, after any calls, when the writer takes bytes
from then on. -/
theorem poll_completes
    (hrun : (calls display).run (Link.start schedule) made = some (link, trace))
    (eager : link.writer.Eager) :
    ∃ link', ∀ call ∈ [Call.pollFlush, Call.pollClose],
      (calls display).step link call =
        some (link', [.polled (.ready (.ok ())) (sentBytes display trace)]) := by
  obtain ⟨writer, ready⟩ := link.sender.pollClose_ready eager
  obtain ⟨_, _, _, hpoll, -, hdone⟩ := pollClose_delivers (inUse_of_run hrun).delivers
  cases hpoll.symm.trans ready
  refine ⟨{ sender := new, writer }, fun call member => ?_⟩
  rw [← hdone rfl]
  rcases List.mem_pair.mp member with rfl | rfl
  all_goals
    simp only [calls, step, pollFlush_eq, ready, Option.map_some]
    rfl

end Runs

/-- **Every encoded byte is delivered once and in order**: whatever the calls,
their order and the behaviour of the writer, all of them return, the writer has
accepted a prefix of the encodings of the messages, and a poll that succeeds has
delivered them all.

No call is made out of order here because no order is assumed: messages may be fed while
earlier ones are not flushed, and a flush that was pending may be followed by a close.  That
polls of a writer which takes bytes do succeed is `poll_completes`. -/
theorem calls_deliver (schedule : ℕ → WriteChoice ε) (made : List (Call P)) :
    ∃ link trace, (calls display).run (Link.start schedule) made = some (link, trace) ∧
      Delivered display trace link := by
  have start : InUse display (Link.start schedule) ([] : List (Called P ε)) :=
    ⟨delivers_new schedule, guarded_nil⟩
  obtain ⟨link, trace, hrun, inUse⟩ := (calls display).run_total
    (I := fun link trace => InUse display link trace)
    (fun _ _ call inUse => inUse.step call) made start
  exact ⟨link, trace, hrun, inUse.delivers.prefix, inUse.delivers.1, inUse.complete⟩

end Sender

end CacheAction
