import CacheAction.Foundations.Polled
import CacheAction.Protocol.Message

/-!
# The sending half of the protocol

`Sender` buffers encoded messages and writes the buffer out when it is flushed
or closed.  `numWritten` is a cursor into the buffer that survives pending and
failed writes; the buffer is cleared only after a full drain.

`Sender.Delivers` relates the buffer, the cursor and the bytes the writer has
accepted to all the bytes encoded so far; every operation keeps it
(`startSend_delivers`, `drainBuf_delivers`), and a drain that ends with success
has delivered everything (`Delivers.of_drained`).  This is safety, which a sender that
writes nothing has too; against a writer that takes bytes a flush or a close is ready after
one poll (`pollClose_ready`).

The loop of a drain has no bound in the source: it goes on as long as the writer takes some
bytes.  Here it takes fuel, and as each turn advances the cursor, one turn more than there are
bytes is enough (`drainLoop_delivers`).  A writer that takes no byte of a non-empty buffer has
failed (`WriteZero`), which is one of the cases in which the cursor has to be right: the bytes
before it are gone, and a later call must not send them again.
-/

namespace CacheAction

/-- The errors of a `Sender`: those of the writer, and a write of zero bytes. -/
inductive SendError (ε : Type) where
  | writer (error : ε)
  | writeZero
  deriving DecidableEq

/-- `Sender`, without its writer. -/
structure Sender where
  buf : List UInt8
  numWritten : ℕ
  deriving DecidableEq

namespace Sender

variable {P ε : Type}

/-- `Sender::new`. -/
def new : Sender := { buf := [], numWritten := 0 }

/-- `Sink::start_send`: encode the message at the end of the buffer. -/
def startSend (display : P → String) (sender : Sender) (message : Message P) : Sender :=
  { sender with buf := sender.buf ++ message.encode display }

/-- The loop of `drain_buf`; `fuel` bounds the number of polls of the writer. -/
def drainLoop : ℕ → Sender → Sink UInt8 ε →
    Option (Poll (Except (SendError ε) Unit) × Sender × Sink UInt8 ε)
  | 0, _, _ => none
  | fuel + 1, sender, writer =>
      if sender.numWritten < sender.buf.length then
        match writer.pollWrite (sender.buf.drop sender.numWritten) with
        | (.pending, writer) => some (.pending, sender, writer)
        | (.ready (.error e), writer) => some (.ready (.error (.writer e)), sender, writer)
        | (.ready (.ok numWritten), writer) =>
            if numWritten = 0 then some (.ready (.error .writeZero), sender, writer)
            else
              drainLoop fuel
                { sender with numWritten := sender.numWritten + numWritten } writer
      else some (.ready (.ok ()), { buf := [], numWritten := 0 }, writer)

/-- `Sender::drain_buf`.  Every turn of the loop writes at least one byte, so
one more turn than there are bytes is enough (`drainLoop_delivers`). -/
def drainBuf (sender : Sender) (writer : Sink UInt8 ε) :
    Option (Poll (Except (SendError ε) Unit) × Sender × Sink UInt8 ε) :=
  drainLoop (sender.buf.length + 1) sender writer

/-- `Sink::poll_flush` and `Sink::poll_close`: drain the buffer, then flush or
close the writer. -/
def pollClose (sender : Sender) (writer : Sink UInt8 ε) :
    Option (Poll (Except (SendError ε) Unit) × Sender × Sink UInt8 ε) :=
  match drainBuf sender writer with
  | some (.ready (.ok ()), sender, writer) =>
      match writer.pollControl with
      | (.pending, writer) => some (.pending, sender, writer)
      | (.ready (.ok ()), writer) => some (.ready (.ok ()), sender, writer)
      | (.ready (.error e), writer) => some (.ready (.error (.writer e)), sender, writer)
  | other => other

/-- `sender.close().await`: poll until the result is ready, at most `n` times. -/
def close : ℕ → Sender → Sink UInt8 ε →
    Option (Except (SendError ε) Unit × Sink UInt8 ε)
  | 0, _, _ => none
  | n + 1, sender, writer =>
      match pollClose sender writer with
      | some (.ready result, _, writer) => some (result, writer)
      | some (.pending, sender, writer) => close n sender writer
      | none => none

/-- `sender.feed(message).await` for every message in turn; `poll_ready` is
always ready. -/
def feedAll (display : P → String) (sender : Sender) (messages : List (Message P)) : Sender :=
  messages.foldl (startSend display) sender

/-! ## Delivery -/

/-- The bytes accepted by the writer and the bytes still to be written make up
`sent`: a part of `sent` has left the buffer for good, the rest is the buffer,
written up to the cursor. -/
def Delivers (sender : Sender) (writer : Sink UInt8 ε) (sent : List UInt8) : Prop :=
  sender.numWritten ≤ sender.buf.length ∧
    ∃ drained, writer.accepted = drained ++ sender.buf.take sender.numWritten ∧
      sent = drained ++ sender.buf

theorem delivers_new (schedule : ℕ → WriteChoice ε) :
    Delivers new { accepted := [], schedule } [] :=
  ⟨by simp [new], [], rfl, rfl⟩

/-- At all times the accepted bytes are a prefix of the encoded ones. -/
theorem Delivers.prefix {sender : Sender} {writer : Sink UInt8 ε} {sent : List UInt8}
    (h : Delivers sender writer sent) : writer.accepted <+: sent := by
  obtain ⟨-, drained, haccepted, rfl⟩ := h
  rw [haccepted]
  exact (List.prefix_append_right_inj drained).mpr (List.take_prefix _ _)

/-- An empty buffer means that everything has been accepted. -/
theorem Delivers.of_drained {writer : Sink UInt8 ε} {sent : List UInt8}
    (h : Delivers { buf := [], numWritten := 0 } writer sent) : writer.accepted = sent := by
  obtain ⟨-, drained, haccepted, rfl⟩ := h
  simpa using haccepted

/-- A message is put behind what the buffer holds. -/
theorem startSend_delivers (display : P → String) {sender : Sender}
    {writer : Sink UInt8 ε} {sent : List UInt8} (h : Delivers sender writer sent)
    (message : Message P) :
    Delivers (sender.startSend display message) writer (sent ++ message.encode display) := by
  obtain ⟨hle, drained, haccepted, rfl⟩ := h
  refine ⟨?_, drained, ?_, ?_⟩
  · simp only [startSend, List.length_append]
    omega
  · simp only [startSend]
    rw [haccepted, List.take_append_of_le_length hle]
  · simp [startSend]

/-- One message after the other, by induction on the list; the sender is general. -/
theorem feedAll_delivers (display : P → String) (messages : List (Message P)) :
    ∀ {sender : Sender} {writer : Sink UInt8 ε} {sent : List UInt8},
      Delivers sender writer sent →
      Delivers (sender.feedAll display messages) writer
        (sent ++ messages.flatMap (Message.encode display)) := by
  induction messages with
  | nil =>
      intro sender writer sent h
      simpa [feedAll] using h
  | cons message rest ih =>
      intro sender writer sent h
      have next := ih (startSend_delivers display h message)
      simpa [feedAll] using next

/-- Moving the cursor over the bytes the writer has just accepted. -/
theorem Delivers.advance {sender : Sender} {writer : Sink UInt8 ε} {sent : List UInt8}
    (h : Delivers sender writer sent) {n : ℕ}
    (fits : n ≤ (sender.buf.drop sender.numWritten).length) :
    Delivers { sender with numWritten := sender.numWritten + n }
      (writer.accept ((sender.buf.drop sender.numWritten).take n)) sent := by
  obtain ⟨hle, drained, haccepted, hsent⟩ := h
  rw [List.length_drop] at fits
  refine ⟨by simp only; omega, drained, ?_, hsent⟩
  simp only [Sink.accept, haccepted, List.append_assoc]
  rw [List.take_add]

/-- The cursor does not move when the writer accepts nothing. -/
theorem Delivers.idle {sender : Sender} {writer : Sink UInt8 ε} {sent : List UInt8}
    (h : Delivers sender writer sent) : Delivers sender (writer.accept []) sent := by
  simpa [Delivers, Sink.accept] using h

/-- What a drain may do: it keeps the delivery relation, and when it succeeds
the buffer is empty. -/
theorem drainLoop_delivers {fuel : ℕ} {sender : Sender} {writer : Sink UInt8 ε}
    {sent : List UInt8} (h : Delivers sender writer sent)
    (enough : sender.buf.length - sender.numWritten < fuel) :
    ∃ result sender' writer',
      drainLoop fuel sender writer = some (result, sender', writer') ∧
        Delivers sender' writer' sent ∧
        (result = .ready (.ok ()) → sender' = { buf := [], numWritten := 0 }) := by
  induction fuel generalizing sender writer with
  | zero => omega
  | succ fuel ih =>
      by_cases more : sender.numWritten < sender.buf.length
      · obtain ⟨n, fits, answer⟩ :=
          writer.pollWrite_spec (sender.buf.drop sender.numWritten)
        rcases answer with accepted | ⟨e, failed⟩ | pending
        · by_cases zero : n = 0
          · subst zero
            refine ⟨.ready (.error .writeZero), sender, writer.accept [], ?_, h.idle, ?_⟩
            · simp [drainLoop, more, accepted]
            · intro success
              cases success
          · -- at least one byte was written: the rest of the loop has less to do
            have hlen : n ≤ sender.buf.length - sender.numWritten := by
              simpa using fits
            have next := ih (h.advance fits) (by simp only; omega)
            simpa [drainLoop, more, accepted, zero] using next
        · refine ⟨.ready (.error (.writer e)), sender, writer.accept [], ?_, h.idle, ?_⟩
          · simp [drainLoop, more, failed]
          · intro success
            cases success
        · refine ⟨.pending, sender, writer.accept [], ?_, h.idle, ?_⟩
          · simp [drainLoop, more, pending]
          · intro success
            cases success
      · refine ⟨.ready (.ok ()), { buf := [], numWritten := 0 }, writer, ?_, ?_, fun _ => rfl⟩
        · simp [drainLoop, more]
        · obtain ⟨hle, drained, haccepted, hsent⟩ := h
          have all : sender.buf.take sender.numWritten = sender.buf :=
            List.take_of_length_le (by omega)
          exact ⟨by simp, drained ++ sender.buf, by simp [haccepted, all], by simp [hsent]⟩

/-- The buffer is drained, or part of it is, and nothing is lost; after a success it is empty. -/
theorem drainBuf_delivers {sender : Sender} {writer : Sink UInt8 ε} {sent : List UInt8}
    (h : Delivers sender writer sent) :
    ∃ result sender' writer', sender.drainBuf writer = some (result, sender', writer') ∧
      Delivers sender' writer' sent ∧
      (result = .ready (.ok ()) → sender' = { buf := [], numWritten := 0 }) :=
  drainLoop_delivers h (by omega)

/-- A flush or a close keeps the delivery relation, and delivers everything
when it succeeds. -/
theorem pollClose_delivers {sender : Sender} {writer : Sink UInt8 ε} {sent : List UInt8}
    (h : Delivers sender writer sent) :
    ∃ result sender' writer', sender.pollClose writer = some (result, sender', writer') ∧
      Delivers sender' writer' sent ∧
      (result = .ready (.ok ()) → writer'.accepted = sent) := by
  obtain ⟨result, sender', writer', hdrain, hdelivers, hdrained⟩ := drainBuf_delivers h
  rcases result with (e | ⟨⟨⟩⟩) | _
  · exact ⟨.ready (.error e), sender', writer', by simp [pollClose, hdrain], hdelivers,
      fun success => by cases success⟩
  · -- the buffer is empty: what remains is the answer of the writer itself
    obtain rfl := hdrained rfl
    have haccepted : writer'.pollControl.2.accepted = sent := by
      rw [writer'.pollControl_accepted, hdelivers.of_drained]
    have hkept : Delivers { buf := [], numWritten := 0 } writer'.pollControl.2 sent :=
      ⟨by simp, sent, by simpa using haccepted, by simp⟩
    cases answer : writer'.pollControl with
    | mk poll writer'' =>
        rw [answer] at haccepted hkept
        rcases poll with (e | ⟨⟨⟩⟩) | _
        · exact ⟨.ready (.error (.writer e)), { buf := [], numWritten := 0 }, writer'',
            by simp [pollClose, hdrain, answer], hkept, fun _ => haccepted⟩
        · exact ⟨.ready (.ok ()), { buf := [], numWritten := 0 }, writer'',
            by simp [pollClose, hdrain, answer], hkept, fun _ => haccepted⟩
        · exact ⟨.pending, { buf := [], numWritten := 0 }, writer'',
            by simp [pollClose, hdrain, answer], hkept, fun _ => haccepted⟩
  · exact ⟨.pending, sender', writer', by simp [pollClose, hdrain], hdelivers,
      fun success => by cases success⟩

/-- **A successful close has delivered the encodings of all messages**, in
order and each byte once. -/
theorem close_delivers {n : ℕ} {sender : Sender} {writer writer' : Sink UInt8 ε}
    {sent : List UInt8} (h : Delivers sender writer sent)
    (closed : sender.close n writer = some (.ok (), writer')) : writer'.accepted = sent := by
  induction n generalizing sender writer with
  | zero => cases closed
  | succ n ih =>
      obtain ⟨result, sender', writer₁, hpoll, hdelivers, hdone⟩ := pollClose_delivers h
      rcases result with result | _
      · simp only [close, hpoll, Option.some.injEq, Prod.mk.injEq] at closed
        obtain ⟨rfl, rfl⟩ := closed
        exact hdone rfl
      · simp only [close, hpoll] at closed
        exact ih hdelivers closed

/-! ## Progress -/

/-- Every turn of the loop moves the cursor, so the loop ends at the end of the buffer. -/
theorem drainLoop_ready {fuel : ℕ} {sender : Sender} {writer : Sink UInt8 ε}
    (eager : writer.Eager) (enough : sender.buf.length - sender.numWritten < fuel) :
    ∃ writer', drainLoop fuel sender writer = some (.ready (.ok ()), new, writer') ∧
      writer'.Eager := by
  induction fuel generalizing sender writer with
  | zero => omega
  | succ fuel ih =>
      by_cases more : sender.numWritten < sender.buf.length
      · have offered : sender.buf.drop sender.numWritten ≠ [] := by
          rw [Ne, List.drop_eq_nil_iff]
          omega
        obtain ⟨n, accepted⟩ := eager.pollWrite offered
        have next := @ih { sender with numWritten := sender.numWritten + (n + 1) } _
          (eager.accept ((sender.buf.drop sender.numWritten).take (n + 1))) (by simp only; omega)
        simpa [drainLoop, more, accepted] using next
      · exact ⟨writer, by simp [drainLoop, more, new], eager⟩

/-- **A flush or a close of a writer that takes bytes is ready after one poll.** -/
theorem pollClose_ready (sender : Sender) {writer : Sink UInt8 ε} (eager : writer.Eager) :
    ∃ writer', sender.pollClose writer = some (.ready (.ok ()), new, writer') := by
  have enough : sender.buf.length - sender.numWritten < sender.buf.length + 1 := by omega
  obtain ⟨writer', drained, eager'⟩ := drainLoop_ready eager enough
  exact ⟨writer'.accept [], by simp [pollClose, drainBuf, drained, eager'.pollControl]⟩

end Sender

end CacheAction
