import CacheAction.EventLoop.Effects
import CacheAction.Foundations.Simulation
import CacheAction.Protocol.Causality

/-!
# The daemon on its sockets

In `EventLoop.Model` a connection is a queue of messages.  Here it is what the
kernel has: a stream of bytes to which the client appends pieces of any size, and
the `Receiver` that the `handle_io` task polls, with a buffer of its own and with
reads of any size.  The steps of `run` itself are the same ones.

### What the environment decides

A client may connect, write and close at any time, and it may be cut off, which ends its
stream with an error of the reader.  How much a poll of the receiver gets is a schedule that
comes with the input, one choice for each read that the poll makes: nothing is assumed of
how the kernel cuts a stream.

The one thing that a socket cannot do is to tell a reader of an end that has not come.  A
receiver that is polled on an open stream with nothing in it is pending.  `Source` has its
ending from the beginning, so a poll that would take the end of an open stream for granted
is not a step (`Sockets.pollIo`).

### One inversion for all

Everything that is proved of this machine is proved from `PollEffect`: what a poll can do,
said of the bytes that the receiver has before it and of what they decode to.  The buffer, the
compaction and the reads of the receiver do not occur in it.
-/

namespace CacheAction

namespace EventLoop

/-! ## The machine -/

/-- A connection: the bytes written by the client and not read yet, what comes after
them once the client has closed its end, and the receiver of the `handle_io` task. -/
structure Socketed (ε : Type) where
  unread : List UInt8
  ending : Option (Ending ε)
  rx : Receiver

/-- The bytes that the receiver still has before it, those in its buffer first. -/
def Socketed.bytes {ε : Type} (conn : Socketed ε) : List UInt8 :=
  conn.rx.unhandled ++ conn.unread

/-- The reader of the connection, with a choice for each of its polls.  While the client has not
closed its end, the reader's ending is a stand-in. -/
def Socketed.reader {ε : Type} (conn : Socketed ε) (schedule : ℕ → ReadChoice) : Source UInt8 ε :=
  { remaining := conn.unread, ending := conn.ending.getD .eof, schedule }

/-- The daemon and its clients. -/
structure Sockets (P K C H ε π : Type) where
  streams : ConnId → Option (Socketed ε)
  listener : List ConnId
  tasks : List ConnId
  channel : List (Except (ReceiveError ε π) (Event P))
  loop : Loop P K C H

/-- What can happen next; `daemon` is for the inputs of `run` itself. -/
inductive SocketInput (P C H ε π : Type) where
  | connect (c : ConnId)
  | write (c : ConnId) (bytes : List UInt8)
  | close (c : ConnId) (ending : Ending ε)
  | pollIo (c : ConnId) (schedule : ℕ → ReadChoice)
  | daemon (input : Input P C H (ReceiveError ε π))

/-- What a run has done. -/
inductive SocketObs (P C H ε π : Type) where
  | connected (c : ConnId)
  | wrote (c : ConnId) (bytes : List UInt8)
  | closed (c : ConnId) (ending : Ending ε)
  | yielded (c : ConnId) (item : Item P ε π)
  | ioReturned (c : ConnId)
  | daemon (o : Obs P C H (ReceiveError ε π))

/-- The input is one of `run`, not one of a client or of a `handle_io` task. -/
def Input.ofRun {P C H R : Type} : Input P C H R → Bool
  | .connect _ => false
  | .send _ _ => false
  | .close _ => false
  | .handleIo _ => false
  | _ => true

variable {P K C H ε π : Type}

namespace Sockets

/-- The same daemon in front of clients that speak in messages. -/
def withClients (s : Sockets P K C H ε π)
    (clients : ConnId → Option (Connection P (ReceiveError ε π))) :
    State P K C H (ReceiveError ε π) where
  net := { clients, listener := s.listener, tasks := s.tasks, channel := s.channel }
  loop := s.loop

/-- After a step of `run`. -/
def after (s : Sockets P K C H ε π) (t : State P K C H (ReceiveError ε π)) :
    Sockets P K C H ε π :=
  { s with listener := t.net.listener, tasks := t.net.tasks, channel := t.net.channel,
           loop := t.loop }

/-- The state with another connection. -/
def withStream (s : Sockets P K C H ε π) (c : ConnId) (conn : Socketed ε) :
    Sockets P K C H ε π :=
  { s with streams := Function.update s.streams c (some conn) }

/-- A client connects. -/
def connect (s : Sockets P K C H ε π) (c : ConnId) :
    Option (Sockets P K C H ε π × List (SocketObs P C H ε π)) :=
  match s.streams c with
  | some _ => none
  | none =>
      some ({ s.withStream c { unread := [], ending := none, rx := .new } with
        listener := s.listener ++ [c] }, [.connected c])

/-- A client writes some bytes. -/
def write (s : Sockets P K C H ε π) (c : ConnId) (bytes : List UInt8) :
    Option (Sockets P K C H ε π × List (SocketObs P C H ε π)) :=
  match s.streams c with
  | none => none
  | some conn =>
      if conn.ending.isSome then none
      else
        some (s.withStream c { conn with unread := conn.unread ++ bytes }, [.wrote c bytes])

/-- A client closes its end, or is cut off. -/
def close (s : Sockets P K C H ε π) (c : ConnId) (ending : Ending ε) :
    Option (Sockets P K C H ε π × List (SocketObs P C H ε π)) :=
  match s.streams c with
  | none => none
  | some conn =>
      if conn.ending.isSome then none
      else
        some (s.withStream c { conn with ending := some ending }, [.closed c ending])

/-- What `handle_io` does with an item.  It forwards every one of them, errors as well, and returns
after a stop; after an error it polls on, and the receiver has nothing more. -/
def handleItem (s : Sockets P K C H ε π) (c : ConnId) (item : Item P ε π) :
    Sockets P K C H ε π × List (SocketObs P C H ε π) :=
  let s := { s with channel := s.channel ++ [forward c item] }
  match item with
  | .ok .stopDaemon => ({ s with tasks := s.tasks.erase c }, [.yielded c item, .ioReturned c])
  | _ => (s, [.yielded c item])

@[simp] theorem handleItem_streams (s : Sockets P K C H ε π) (c : ConnId) (item : Item P ε π) :
    (s.handleItem c item).1.streams = s.streams := by
  rcases item with e | (path | _) <;> rfl

@[simp] theorem handleItem_loop (s : Sockets P K C H ε π) (c : ConnId) (item : Item P ε π) :
    (s.handleItem c item).1.loop = s.loop := by
  rcases item with e | (path | _) <;> rfl

@[simp] theorem handleItem_channel (s : Sockets P K C H ε π) (c : ConnId) (item : Item P ε π) :
    (s.handleItem c item).1.channel = s.channel ++ [forward c item] := by
  rcases item with e | (path | _) <;> rfl

variable (parse : String → Except π P)

/-- The task of connection `c` polls its receiver and handles what it yields. -/
def pollIo (s : Sockets P K C H ε π) (c : ConnId) (schedule : ℕ → ReadChoice) :
    Option (Sockets P K C H ε π × List (SocketObs P C H ε π)) :=
  if c ∉ s.tasks then none
  else
    match s.streams c with
    | none => none
    | some conn =>
        match Receiver.pollNext parse conn.rx (conn.reader schedule) with
        | none => none
        | some (polled, rx, reader) =>
            let s := s.withStream c { conn with unread := reader.remaining, rx }
            match polled with
            | .pending => some (s, [])
            | .ready none =>
                -- a read from an open socket with nothing to read is pending, and
                -- tells of no end
                if conn.ending.isNone ∧ rx.isDone = false ∧
                    rx.unhandled.length < receiverBufLen then none
                else some ({ s with tasks := s.tasks.erase c }, [.ioReturned c])
            | .ready (some item) => some (s.handleItem c item)

variable [DecidableEq K] (hash : P → K)

/-- One event.  A step of `run` is taken in the model with messages, in front of no clients, since
it does not look at them. -/
def step (s : Sockets P K C H ε π) :
    SocketInput P C H ε π → Option (Sockets P K C H ε π × List (SocketObs P C H ε π))
  | .connect c => s.connect c
  | .write c bytes => s.write c bytes
  | .close c ending => s.close c ending
  | .pollIo c schedule => s.pollIo parse c schedule
  | .daemon input =>
      if input.ofRun then
        (EventLoop.step hash (s.withClients fun _ => none) input).map fun next =>
          (s.after next.1, next.2.map .daemon)
      else none

/-- The daemon before its first connection. -/
def init : Sockets P K C H ε π where
  streams := fun _ => none
  listener := []
  tasks := []
  channel := []
  loop := (EventLoop.init : State P K C H (ReceiveError ε π)).loop

end Sockets

/-- `run`, with its clients at the other ends of sockets. -/
def socketMachine [DecidableEq K] (parse : String → Except π P) (hash : P → K) :
    Machine (Sockets P K C H ε π) (SocketInput P C H ε π) (SocketObs P C H ε π) where
  step := Sockets.step parse hash

/-! ## One poll -/

/-- What a poll by the task of connection `c` can do.  The bytes before the receiver
and what they decode to are compared for all their continuations. -/
inductive PollEffect (parse : String → Except π P) (s : Sockets P K C H ε π) (c : ConnId)
    (conn : Socketed ε) : Sockets P K C H ε π → List (SocketObs P C H ε π) → Prop where
  | pending {conn'} (active : conn.rx.isDone = false) (valid : conn'.rx.Valid)
      (active' : conn'.rx.isDone = false) (ending : conn'.ending = conn.ending)
      (same : conn'.bytes = conn.bytes) :
      PollEffect parse s c conn (s.withStream c conn') []
  /-- The receiver has yielded its last item before. -/
  | done (done : conn.rx.isDone = true) :
      PollEffect parse s c conn { s.withStream c conn with tasks := s.tasks.erase c }
        [.ioReturned c]
  /-- The stream has ended, or the receiver has no room for its next line. -/
  | ended {conn'} (active : conn.rx.isDone = false) (valid : conn'.rx.Valid)
      (active' : conn'.rx.isDone = false) (ending : conn'.ending = conn.ending)
      (same : conn'.bytes = conn.bytes)
      (spent : (conn.ending.isSome = true ∧
          decode parse (conn.ending.getD .eof) conn.bytes = ([] : List (Item P ε π))) ∨
        ∀ (e : Ending ε) more,
          (decode parse e (conn.bytes ++ more) : List (Item P ε π)) = []) :
      PollEffect parse s c conn { s.withStream c conn' with tasks := s.tasks.erase c }
        [.ioReturned c]
  | item {conn' item} (active : conn.rx.isDone = false) (valid : conn'.rx.Valid)
      (done : conn'.rx.isDone = Item.isLast item)
      (ending : conn'.ending = conn.ending)
      (front : ∀ (e : Ending ε) more, decode parse e (conn.bytes ++ more) =
        item :: if item.isLast then [] else decode parse e (conn'.bytes ++ more)) :
      PollEffect parse s c conn ((s.withStream c conn').handleItem c item).1
        ((s.withStream c conn').handleItem c item).2
  | failure {conn' e} (active : conn.rx.isDone = false) (valid : conn'.rx.Valid)
      (done : conn'.rx.isDone = true)
      (ending : conn'.ending = conn.ending) (ended : conn.ending = some (.failure e))
      (last : decode parse (.failure e) conn.bytes =
        ([.error (.io (.reader e))] : List (Item P ε π))) :
      PollEffect parse s c conn
        ((s.withStream c conn').handleItem c (.error (.io (.reader e)))).1
        ((s.withStream c conn').handleItem c (.error (.io (.reader e)))).2

/-- **Inversion of a poll.**  It is the specification of `pollNext` on streams
(`Receiver.pollNext_stream`), with what `handle_io` does after each of its results. -/
theorem pollIo_effect {parse : String → Except π P} {s s' : Sockets P K C H ε π} {c : ConnId}
    {schedule : ℕ → ReadChoice} {out : List (SocketObs P C H ε π)}
    (valid : ∀ conn, s.streams c = some conn → conn.rx.Valid)
    (h : s.pollIo parse c schedule = some (s', out)) :
    c ∈ s.tasks ∧ ∃ conn, s.streams c = some conn ∧ PollEffect parse s c conn s' out := by
  unfold Sockets.pollIo at h
  split_ifs at h with running
  refine ⟨running, ?_⟩
  cases found : s.streams c with
  | none =>
      rw [found] at h
      cases h
  | some conn =>
      rw [found] at h
      refine ⟨conn, rfl, ?_⟩
      cases hdone : conn.rx.isDone with
      | true =>
          simp only [Receiver.pollNext_of_done parse hdone, hdone] at h
          rw [if_neg (by simp)] at h
          cases h
          exact .done hdone
      | false =>
          obtain ⟨result, rx, reader, hpoll, hvalid, spec⟩ :=
            @Receiver.pollNext_stream _ _ _ parse _ (valid conn found) hdone
              (conn.reader schedule)
          simp only [hpoll] at h
          cases spec with
          | pending active same =>
              cases h
              exact .pending hdone hvalid active rfl same
          | full active same full stuck =>
              rw [if_neg (by simp [full])] at h
              cases h
              exact .ended hdone hvalid active rfl same (.inr stuck)
          | eof active same room ended nothing =>
              split_ifs at h with opened
              cases h
              have closed : conn.ending.isSome = true := by
                rw [← Option.not_isNone, Bool.not_eq_true']
                by_contra isNone
                exact opened ⟨by simpa using isNone, active, room⟩
              have ended : conn.ending.getD .eof = .eof := ended
              refine .ended hdone hvalid active rfl same (.inl ⟨closed, ?_⟩)
              rw [ended]
              exact nothing
          | item done front =>
              have handled := Option.some.inj h
              obtain rfl : _ = s' := congrArg Prod.fst handled
              obtain rfl : _ = out := congrArg Prod.snd handled
              exact .item hdone hvalid done rfl front
          | @failure rx reader e done ended last =>
              have handled := Option.some.inj h
              obtain rfl : _ = s' := congrArg Prod.fst handled
              obtain rfl : _ = out := congrArg Prod.snd handled
              have closed : conn.ending = some (.failure e) := by
                cases hending : conn.ending with
                | none =>
                    simp [Socketed.reader, hending] at ended
                | some ending =>
                    simpa [Socketed.reader, hending] using ended
              refine .failure hdone hvalid done rfl closed ?_
              rw [← ended]
              exact last

/-! ## One event -/

/-- What an event can do. -/
inductive SocketEffect [DecidableEq K] (parse : String → Except π P) (hash : P → K)
    (s : Sockets P K C H ε π) : Sockets P K C H ε π → List (SocketObs P C H ε π) → Prop where
  | connected (c) (fresh : s.streams c = none) :
      SocketEffect parse hash s
        { s.withStream c { unread := [], ending := none, rx := .new } with
          listener := s.listener ++ [c] } [.connected c]
  | wrote (c conn bytes) (found : s.streams c = some conn) (opened : conn.ending = none) :
      SocketEffect parse hash s
        (s.withStream c { conn with unread := conn.unread ++ bytes }) [.wrote c bytes]
  | closed (c conn ending) (found : s.streams c = some conn) (opened : conn.ending = none) :
      SocketEffect parse hash s (s.withStream c { conn with ending := some ending })
        [.closed c ending]
  | polled {s' out} (c conn) (running : c ∈ s.tasks) (found : s.streams c = some conn)
      (effect : PollEffect parse s c conn s' out) : SocketEffect parse hash s s' out
  | daemon (input t out) (ofRun : input.ofRun = true)
      (done : EventLoop.step hash (s.withClients fun _ => none) input = some (t, out)) :
      SocketEffect parse hash s (s.after t) (out.map .daemon)

/-- **Inversion of a step.** -/
theorem socketStep_effect [DecidableEq K] {parse : String → Except π P} {hash : P → K}
    {s s' : Sockets P K C H ε π} {i : SocketInput P C H ε π} {out : List (SocketObs P C H ε π)}
    (valid : ∀ c conn, s.streams c = some conn → conn.rx.Valid)
    (h : s.step parse hash i = some (s', out)) : SocketEffect parse hash s s' out := by
  cases i with
  | connect c =>
      replace h : s.connect c = some (s', out) := h
      unfold Sockets.connect at h
      split at h
      · cases h
      · rename_i fresh
        cases h
        exact .connected c fresh
  | write c bytes =>
      replace h : s.write c bytes = some (s', out) := h
      unfold Sockets.write at h
      split at h
      · cases h
      · rename_i conn found
        split_ifs at h with opened
        cases h
        exact .wrote c conn bytes found (by simpa using opened)
  | close c ending =>
      replace h : s.close c ending = some (s', out) := h
      unfold Sockets.close at h
      split at h
      · cases h
      · rename_i conn found
        split_ifs at h with opened
        cases h
        exact .closed c conn ending found (by simpa using opened)
  | pollIo c schedule =>
      obtain ⟨running, conn, found, effect⟩ := pollIo_effect (valid c) h
      exact .polled c conn running found effect
  | daemon input =>
      simp only [Sockets.step, Option.ite_none_right_eq_some, Option.map_eq_some_iff] at h
      obtain ⟨ofRun, ⟨t, outputs⟩, done, heq⟩ := h
      cases heq
      exact .daemon input t outputs ofRun done

end EventLoop

end CacheAction
