import CacheAction.Foundations.Buffer
import CacheAction.Foundations.Polled
import CacheAction.Protocol.Message

/-!
# The receiving half of the protocol

`Receiver` is the streaming decoder of the daemon.  It reads into a buffer of
1024 bytes, of which a range is still unhandled; each poll looks for a stop
byte or a complete line in that range, and moves the range to the front of the
buffer and reads more when there is none.

`decode` is the reference: a function of the whole byte stream.  The two are
related by `Receiver.expected`, the items the reference still owes for the
unhandled bytes and those not read yet: a poll yields the first of them, or
none when none is owed, or leaves them as they are when the reader is pending
(`pollNext_spec`).  Nothing in this depends on how the bytes arrive.

Slices of the buffer are partial functions here, so that a poll that has a
result has made no access outside the buffer.

The reference decoder has the limit of 1024 bytes in it.  It is a property of the buffer, but
it can be seen from outside: a line that does not fit ends the stream without an item, wherever
the bytes were when this became clear.  A reference without it would only be right for streams
whose lines fit, and would say nothing about the others.
-/

namespace CacheAction

/-- The size of the receiver's buffer, `Box<[u8; 1024]>`. -/
def receiverBufLen : ℕ := 1024

/-- The I/O errors of a `Receiver`: those of the reader, and a line that is not
UTF-8. -/
inductive IoError (ε : Type) where
  | reader (error : ε)
  | invalidData
  deriving DecidableEq

/-- `ReceiveError`. -/
inductive ReceiveError (ε π : Type) where
  | io (error : IoError ε)
  | invalidStorePath (error : π)
  deriving DecidableEq

/-- What a `Receiver` yields. -/
abbrev Item (P ε π : Type) := Except (ReceiveError ε π) (Message P)

/-- The items after which a receiver is done: a stop and an error. -/
def Item.isLast {P ε π : Type} : Item P ε π → Bool
  | .ok (.pushStorePath _) => false
  | .ok .stopDaemon => true
  | .error _ => true

/-- `memchr::memchr`. -/
def memchr (needle : UInt8) (haystack : List UInt8) : Option ℕ :=
  haystack.findIdx? (· == needle)

/-- `Receiver`, without its reader. -/
structure Receiver where
  isDone : Bool
  buf : List UInt8
  unhandledRange : Range
  deriving DecidableEq

/-! ## The reference decoder -/

section Decode

variable {P ε π : Type} (parse : String → Except π P)

/-- A complete line, without its separator. -/
def decodeLine (line : List UInt8) : Item P ε π :=
  match fromUtf8 line with
  | none => .error (.io .invalidData)
  | some s =>
      match parse s with
      | .ok path => .ok (.pushStorePath path)
      | .error e => .error (.invalidStorePath e)

/-- The items of a whole byte stream with the given ending. -/
def decode (ending : Ending ε) (bytes : List UInt8) : List (Item P ε π) :=
  if bytes.head? = some stopSentinel then [.ok .stopDaemon]
  else
    match h : memchr pathSeparator (bytes.take receiverBufLen) with
    | some offset =>
        have : offset < bytes.length := by
          have hlt := (List.findIdx?_eq_some_iff_findIdx_eq.mp h).1
          rw [List.length_take] at hlt
          omega
        let item : Item P ε π := decodeLine parse (bytes.take offset)
        if item.isLast then [item]
        else item :: decode ending (bytes.drop (offset + 1))
    | none =>
        if receiverBufLen ≤ bytes.length then []
        else
          match ending with
          | .eof => []
          | .failure e => [.error (.io (.reader e))]
termination_by bytes.length
decreasing_by
  rw [List.length_drop]
  omega

end Decode

namespace Receiver

variable {P ε π : Type} (parse : String → Except π P)

/-- `Receiver::new`. -/
def new : Receiver :=
  { isDone := false, buf := List.replicate receiverBufLen 0, unhandledRange := ⟨0, 0⟩ }

/-- The end of `poll_next`: record whether the item is the last one. -/
def yieldItem (rx : Receiver) (reader : Source UInt8 ε) (item : Item P ε π) :
    Poll (Option (Item P ε π)) × Receiver × Source UInt8 ε :=
  (.ready (some item), { rx with isDone := item.isLast }, reader)

/-- The loop of `poll_next`; `fuel` bounds the number of its turns. -/
def pollLoop : ℕ → Receiver → Source UInt8 ε →
    Option (Poll (Option (Item P ε π)) × Receiver × Source UInt8 ε)
  | 0, _, _ => none
  | fuel + 1, rx, reader => do
      let bytes ← slice rx.buf rx.unhandledRange
      if bytes.head? = some stopSentinel then
        some (rx.yieldItem reader (.ok .stopDaemon))
      else
        match memchr pathSeparator bytes with
        | none =>
            let buf ← copyWithin rx.buf rx.unhandledRange 0
            let rx := { rx with buf, unhandledRange := ⟨0, bytes.length⟩ }
            let readBuf ← slice rx.buf ⟨rx.unhandledRange.stop, rx.buf.length⟩
            match reader.pollRead readBuf.length with
            | (.pending, reader) => some (.pending, rx, reader)
            | (.ready (.ok []), reader) => some (.ready none, rx, reader)
            | (.ready (.ok data), reader) =>
                pollLoop fuel
                  { rx with
                    buf := overwrite rx.buf rx.unhandledRange.stop data
                    unhandledRange := ⟨0, rx.unhandledRange.stop + data.length⟩ } reader
            | (.ready (.error e), reader) =>
                some (rx.yieldItem reader (.error (.io (.reader e))))
        | some separatorOffset =>
            let storePathBytes ← slice bytes ⟨0, separatorOffset⟩
            let rx :=
              { rx with
                unhandledRange :=
                  ⟨rx.unhandledRange.start + (separatorOffset + 1), rx.unhandledRange.stop⟩ }
            match fromUtf8 storePathBytes with
            | none => some (rx.yieldItem reader (.error (.io .invalidData)))
            | some s =>
                match parse s with
                | .ok path => some (rx.yieldItem reader (.ok (.pushStorePath path)))
                | .error e => some (rx.yieldItem reader (.error (.invalidStorePath e)))

/-- `Stream::poll_next`.  Every turn of the loop but the last reads at least one
byte, so one more turn than the buffer has bytes is enough (`pollNext_spec`). -/
def pollNext (rx : Receiver) (reader : Source UInt8 ε) :
    Option (Poll (Option (Item P ε π)) × Receiver × Source UInt8 ε) :=
  if rx.isDone then some (.ready none, rx, reader)
  else pollLoop parse (receiverBufLen + 1) rx reader

/-- The results of `n` polls in a row. -/
def polls : ℕ → Receiver → Source UInt8 ε →
    Option (List (Poll (Option (Item P ε π))) × Receiver × Source UInt8 ε)
  | 0, rx, reader => some ([], rx, reader)
  | n + 1, rx, reader => do
      let (first, rx, reader) ← pollNext parse rx reader
      let (rest, rx, reader) ← polls n rx reader
      some (first :: rest, rx, reader)

/-- The items yielded up to the first `None`. -/
def itemsUntilNone : List (Poll (Option (Item P ε π))) → List (Item P ε π)
  | [] => []
  | .ready none :: _ => []
  | .ready (some item) :: rest => item :: itemsUntilNone rest
  | .pending :: rest => itemsUntilNone rest

/-! ## The invariant of the buffer -/

/-- The unhandled range lies inside the buffer. -/
structure Valid (rx : Receiver) : Prop where
  length_buf : rx.buf.length = receiverBufLen
  ordered : rx.unhandledRange.start ≤ rx.unhandledRange.stop
  inside : rx.unhandledRange.stop ≤ receiverBufLen

theorem valid_new : new.Valid :=
  ⟨List.length_replicate, le_rfl, Nat.zero_le _⟩

/-- The bytes of the buffer still to be handled. -/
def unhandled (rx : Receiver) : List UInt8 :=
  (rx.buf.take rx.unhandledRange.stop).drop rx.unhandledRange.start

theorem Valid.slice_unhandled {rx : Receiver} (valid : rx.Valid) :
    slice rx.buf rx.unhandledRange = some rx.unhandled :=
  slice_eq_some valid.ordered (valid.length_buf ▸ valid.inside)

theorem Valid.length_unhandled {rx : Receiver} (valid : rx.Valid) :
    rx.unhandled.length = rx.unhandledRange.stop - rx.unhandledRange.start := by
  have hlen := valid.length_buf
  have hin := valid.inside
  simp only [unhandled, List.length_drop, List.length_take]
  omega

theorem Valid.length_unhandled_le {rx : Receiver} (valid : rx.Valid) :
    rx.unhandled.length ≤ receiverBufLen := by
  have := valid.length_unhandled
  have := valid.inside
  omega

/-- The receiver after the unhandled range has been moved to the front. -/
def compact (rx : Receiver) : Receiver :=
  { rx with
    buf := overwrite rx.buf 0 rx.unhandled
    unhandledRange := ⟨0, rx.unhandled.length⟩ }

/-- The receiver after `data` has been read behind the unhandled range of a
compacted buffer. -/
def extend (rx : Receiver) (data : List UInt8) : Receiver :=
  { rx with
    buf := overwrite rx.buf rx.unhandledRange.stop data
    unhandledRange := ⟨0, rx.unhandledRange.stop + data.length⟩ }

/-- The receiver after a line of `offset` bytes and its separator have been
taken from the unhandled range. -/
def skipLine (rx : Receiver) (offset : ℕ) : Receiver :=
  { rx with
    unhandledRange := ⟨rx.unhandledRange.start + (offset + 1), rx.unhandledRange.stop⟩ }

/-- Compaction moves the unhandled bytes to the front of the buffer and keeps them all. -/
theorem Valid.compact {rx : Receiver} (valid : rx.Valid) :
    rx.compact.Valid ∧ rx.compact.unhandled = rx.unhandled := by
  have hle := valid.length_unhandled_le
  have hlen : (overwrite rx.buf 0 rx.unhandled).length = receiverBufLen := by
    rw [length_overwrite (by rw [valid.length_buf]; omega), valid.length_buf]
  refine ⟨⟨hlen, Nat.zero_le _, hle⟩, ?_⟩
  have htake : (overwrite rx.buf 0 rx.unhandled).take (0 + rx.unhandled.length) =
      rx.buf.take 0 ++ rx.unhandled :=
    take_overwrite (by rw [valid.length_buf]; omega)
  rw [Nat.zero_add, List.take_zero, List.nil_append] at htake
  show (List.take rx.unhandled.length (overwrite rx.buf 0 rx.unhandled)).drop 0 = _
  rw [htake, List.drop_zero]

/-- A read puts its bytes behind the unhandled ones. -/
theorem Valid.extend {rx : Receiver} (valid : rx.Valid) (front : rx.unhandledRange.start = 0)
    {data : List UInt8} (fits : rx.unhandledRange.stop + data.length ≤ receiverBufLen) :
    (rx.extend data).Valid ∧ (rx.extend data).unhandled = rx.unhandled ++ data := by
  have hfits : rx.unhandledRange.stop + data.length ≤ rx.buf.length := by
    rw [valid.length_buf]
    exact fits
  have hlen : (overwrite rx.buf rx.unhandledRange.stop data).length = receiverBufLen := by
    rw [length_overwrite hfits, valid.length_buf]
  refine ⟨⟨hlen, Nat.zero_le _, fits⟩, ?_⟩
  show (List.take (rx.unhandledRange.stop + data.length)
    (overwrite rx.buf rx.unhandledRange.stop data)).drop 0 = _
  rw [take_overwrite hfits, List.drop_zero, unhandled, front, List.drop_zero]

/-- A line is dropped with its separator. -/
theorem Valid.skipLine {rx : Receiver} (valid : rx.Valid) {offset : ℕ}
    (inside : offset < rx.unhandled.length) :
    (rx.skipLine offset).Valid ∧
      (rx.skipLine offset).unhandled = rx.unhandled.drop (offset + 1) := by
  have hlen := valid.length_unhandled
  have hle := valid.ordered
  refine ⟨⟨valid.length_buf, ?_, valid.inside⟩, ?_⟩
  · show rx.unhandledRange.start + (offset + 1) ≤ rx.unhandledRange.stop
    omega
  · rw [unhandled, unhandled, List.drop_drop]
    rfl

/-! ## What the reference decoder says about the buffer -/

section Reference

variable {parse} {ending : Ending ε} {bytes rest : List UInt8}

theorem decode_stop (stop : bytes.head? = some stopSentinel) :
    decode parse ending (bytes ++ rest) = ([.ok .stopDaemon] : List (Item P ε π)) := by
  have : (bytes ++ rest).head? = some stopSentinel := by
    rw [List.head?_append, stop, Option.some_or]
  rw [decode.eq_def, if_pos this]

/-- The first separator of the stream is the first one of a prefix that has
one. -/
theorem memchr_take_append {offset : ℕ} (fits : bytes.length ≤ receiverBufLen)
    (found : memchr pathSeparator bytes = some offset) :
    memchr pathSeparator ((bytes ++ rest).take receiverBufLen) = some offset := by
  rw [List.take_append, List.take_of_length_le fits, memchr, List.findIdx?_append]
  rw [memchr] at found
  rw [found, Option.some_or]

theorem memchr_lt {offset : ℕ} (found : memchr pathSeparator bytes = some offset) :
    offset < bytes.length :=
  (List.findIdx?_eq_some_iff_findIdx_eq.mp found).1

theorem head?_append_ne (noStop : bytes.head? ≠ some stopSentinel) (nonempty : bytes ≠ []) :
    (bytes ++ rest).head? ≠ some stopSentinel := by
  cases bytes with
  | nil => exact absurd rfl nonempty
  | cons b bs => simpa using noStop

theorem ne_nil_of_memchr {offset : ℕ} (found : memchr pathSeparator bytes = some offset) :
    bytes ≠ [] := by
  rintro rfl
  cases found

/-- A line that is complete gives its item, whatever follows; after an error nothing is decoded.
-/
theorem decode_line {offset : ℕ} (fits : bytes.length ≤ receiverBufLen)
    (noStop : bytes.head? ≠ some stopSentinel)
    (found : memchr pathSeparator bytes = some offset) :
    decode parse ending (bytes ++ rest) =
      let item : Item P ε π := decodeLine parse (bytes.take offset)
      if item.isLast then [item]
      else item :: decode parse ending (bytes.drop (offset + 1) ++ rest) := by
  have hlt := memchr_lt found
  have hhead : (bytes ++ rest).head? ≠ some stopSentinel :=
    head?_append_ne noStop (ne_nil_of_memchr found)
  rw [decode.eq_def, if_neg hhead]
  split
  · rename_i offset' found'
    rw [memchr_take_append fits found] at found'
    cases found'
    rw [List.take_append_of_le_length hlt.le, List.drop_append_of_le_length hlt]
  · rename_i absent
    rw [memchr_take_append fits found] at absent
    cases absent

/-- A full buffer without a separator: the reference ends there. -/
theorem decode_full (full : bytes.length = receiverBufLen)
    (noStop : bytes.head? ≠ some stopSentinel) (absent : memchr pathSeparator bytes = none) :
    decode parse ending (bytes ++ rest) = ([] : List (Item P ε π)) := by
  have nonempty : bytes ≠ [] := by
    rintro rfl
    exact absurd full (by decide)
  rw [decode.eq_def, if_neg (head?_append_ne noStop nonempty)]
  have htake : (bytes ++ rest).take receiverBufLen = bytes := by rw [← full, List.take_left]
  split
  · rename_i offset found
    rw [htake, absent] at found
    cases found
  · rw [if_pos (by rw [List.length_append]; omega)]

/-- The end of the stream behind a buffer that is not full and has no
separator. -/
theorem decode_ending (short : bytes.length < receiverBufLen)
    (noStop : bytes.head? ≠ some stopSentinel) (absent : memchr pathSeparator bytes = none) :
    decode parse ending bytes =
      (match ending with
        | .eof => []
        | .failure e => [.error (.io (.reader e))] : List (Item P ε π)) := by
  rw [decode.eq_def, if_neg noStop]
  split
  · rename_i offset found
    rw [List.take_of_length_le short.le, absent] at found
    cases found
  · rw [if_neg (by omega)]

end Reference

/-! ## One poll -/

/-- The items the reference still owes: none once the receiver is done, else
those of the unhandled bytes followed by the bytes not read yet. -/
def owed (rx : Receiver) (reader : Source UInt8 ε) : List (Item P ε π) :=
  if rx.isDone then [] else decode parse reader.ending (rx.unhandled ++ reader.remaining)

theorem owed_of_done {rx : Receiver} (done : rx.isDone = true) (reader : Source UInt8 ε) :
    rx.owed parse reader = ([] : List (Item P ε π)) :=
  if_pos done

theorem owed_of_not_done {rx : Receiver} (active : rx.isDone = false)
    (reader : Source UInt8 ε) :
    rx.owed parse reader =
      (decode parse reader.ending (rx.unhandled ++ reader.remaining) : List (Item P ε π)) :=
  if_neg (by simp [active])

/-- How a poll relates the items owed before and after it. -/
def Settles (before after : List (Item P ε π)) (done : Bool) :
    Poll (Option (Item P ε π)) → Prop
  | .ready none => before = []
  | .ready (some item) => before = item :: after ∧ done = item.isLast
  | .pending => before = after ∧ done = false

/-- What a poll does.  The buffer stays valid, the reader is only polled, and
the items owed are settled.  A poll that ends up pending without having read
anything has met a pending reader at once. -/
structure PollSpec (rx : Receiver) (reader : Source UInt8 ε)
    (result : Poll (Option (Item P ε π))) (rx' : Receiver) (reader' : Source UInt8 ε) :
    Prop where
  valid : rx'.Valid
  reads : ∃ n, reader' = reader.advance n reader'.remaining
  shrinks : reader'.remaining.length ≤ reader.remaining.length
  settles : Settles (rx.owed parse reader) (rx'.owed parse reader') rx'.isDone result
  progress : result = .pending →
    reader'.remaining.length < reader.remaining.length ∨
      (reader.schedule 0 = .pending ∧ reader' = reader.advance 1 reader.remaining)

section PollSpec

variable {parse}

theorem advance_zero (reader : Source UInt8 ε) :
    reader = reader.advance 0 reader.remaining := rfl

/-- A turn of the loop that yields an item without polling the reader. -/
theorem PollSpec.yield {rx rx' : Receiver} {reader : Source UInt8 ε} (item : Item P ε π)
    (valid : rx'.Valid)
    (owes : rx.owed parse reader =
      item :: (if item.isLast then [] else
        decode parse reader.ending (rx'.unhandled ++ reader.remaining))) :
    PollSpec parse rx reader (.ready (some item))
      { rx' with isDone := item.isLast } reader where
  valid := ⟨valid.length_buf, valid.ordered, valid.inside⟩
  reads := ⟨0, advance_zero reader⟩
  shrinks := le_rfl
  settles := ⟨owes, rfl⟩
  progress := by
    intro h
    cases h

/-- A line is handled as the reference handles it. -/
theorem PollSpec.line {rx : Receiver} {reader : Source UInt8 ε} (valid : rx.Valid)
    (active : rx.isDone = false) (noStop : rx.unhandled.head? ≠ some stopSentinel)
    {offset : ℕ} (found : memchr pathSeparator rx.unhandled = some offset) :
    PollSpec parse rx reader
      (.ready (some (decodeLine parse (rx.unhandled.take offset) : Item P ε π)))
      { rx.skipLine offset with
        isDone := (decodeLine parse (rx.unhandled.take offset) : Item P ε π).isLast }
      reader := by
  obtain ⟨valid', hunhandled⟩ := valid.skipLine (memchr_lt found)
  apply PollSpec.yield _ valid'
  rw [owed_of_not_done parse active, hunhandled,
    decode_line valid.length_unhandled_le noStop found]
  dsimp only
  split_ifs <;> rfl

/-- A turn that finds neither a stop byte nor a line moves the unhandled bytes
to the front and reads into the rest of the buffer. -/
theorem pollLoop_refill {rx : Receiver} (reader : Source UInt8 ε) (valid : rx.Valid)
    (noStop : rx.unhandled.head? ≠ some stopSentinel)
    (absent : memchr pathSeparator rx.unhandled = none) (fuel : ℕ) :
    pollLoop parse (fuel + 1) rx reader =
      match reader.pollRead (receiverBufLen - rx.unhandled.length) with
      | (.pending, reader) => some ((.pending : Poll (Option (Item P ε π))), rx.compact, reader)
      | (.ready (.ok []), reader) => some (.ready none, rx.compact, reader)
      | (.ready (.ok data), reader) => pollLoop parse fuel (rx.compact.extend data) reader
      | (.ready (.error e), reader) =>
          some (rx.compact.yieldItem reader (.error (.io (.reader e)))) := by
  have hfits : rx.unhandled.length ≤ rx.buf.length := by
    rw [valid.length_buf]
    exact valid.length_unhandled_le
  have hcopy : copyWithin rx.buf rx.unhandledRange 0 = some rx.compact.buf := by
    rw [copyWithin, valid.slice_unhandled, Option.bind_some, if_pos (by omega)]
    rfl
  have hlen : rx.compact.buf.length = receiverBufLen := valid.compact.1.length_buf
  have hroom : slice rx.compact.buf ⟨rx.unhandled.length, rx.compact.buf.length⟩ =
      some (rx.compact.buf.drop rx.unhandled.length) := by
    rw [slice_eq_some (hlen ▸ valid.length_unhandled_le) le_rfl, List.take_length]
  have hspace : (rx.compact.buf.drop rx.unhandled.length).length =
      receiverBufLen - rx.unhandled.length := by
    rw [List.length_drop, hlen]
  rw [pollLoop, valid.slice_unhandled, Option.bind_eq_bind, Option.bind_some,
    if_neg noStop, absent]
  simp only [hcopy, hroom, hspace, Option.bind_some]
  rfl

/-- Moving the unhandled bytes to the front does not change what is owed. -/
theorem owed_compact {rx : Receiver} (valid : rx.Valid) (active : rx.isDone = false)
    (reader : Source UInt8 ε) :
    rx.compact.owed parse reader = (rx.owed parse reader : List (Item P ε π)) := by
  have active' : rx.compact.isDone = false := active
  rw [owed_of_not_done parse active, owed_of_not_done parse active', valid.compact.2]

/-- A non-empty read leaves the items owed as they are: it moves bytes from the
reader to the buffer. -/
theorem owed_extend {rx : Receiver} (valid : rx.Valid) (active : rx.isDone = false)
    {reader : Source UInt8 ε} {data rest : List UInt8}
    (fits : rx.unhandled.length + data.length ≤ receiverBufLen)
    (split : reader.remaining = data ++ rest) :
    (rx.compact.extend data).Valid ∧
      (rx.compact.extend data).unhandled.length = rx.unhandled.length + data.length ∧
      (rx.compact.extend data).owed parse (reader.advance 1 rest) =
        (rx.owed parse reader : List (Item P ε π)) := by
  obtain ⟨valid', hunhandled⟩ := valid.compact
  obtain ⟨valid'', hunhandled'⟩ := valid'.extend rfl fits
  have active' : (rx.compact.extend data).isDone = false := active
  rw [hunhandled] at hunhandled'
  refine ⟨valid'', by rw [hunhandled', List.length_append], ?_⟩
  rw [owed_of_not_done parse active, owed_of_not_done parse active', hunhandled', split,
    List.append_assoc]
  rfl

/-- The loop of `poll_next`, by induction on the number of its turns: either it
ends in this turn, or it reads at least one byte and goes on with the same
items owed. -/
theorem pollLoop_spec :
    ∀ (fuel : ℕ) {rx : Receiver} (reader : Source UInt8 ε), rx.Valid → rx.isDone = false →
      receiverBufLen - rx.unhandled.length < fuel →
      ∃ (result : Poll (Option (Item P ε π))) (rx' : Receiver) (reader' : Source UInt8 ε),
        pollLoop parse fuel rx reader = some (result, rx', reader') ∧
          PollSpec parse rx reader result rx' reader' := by
  intro fuel
  induction fuel with
  | zero =>
      intro rx reader valid active enough
      omega
  | succ fuel ih =>
      intro rx reader valid active enough
      -- a stop byte at the front is an item by itself
      by_cases stop : rx.unhandled.head? = some stopSentinel
      · refine ⟨_, _, _, ?_, PollSpec.yield (.ok .stopDaemon) valid ?_⟩
        · rw [pollLoop, valid.slice_unhandled, Option.bind_eq_bind, Option.bind_some,
            if_pos stop]
          rfl
        · rw [owed_of_not_done parse active]
          exact decode_stop stop
      -- a separator ends the first line
      cases found : memchr pathSeparator rx.unhandled with
      | some offset =>
          have hslice : slice rx.unhandled ⟨0, offset⟩ = some (rx.unhandled.take offset) := by
            rw [slice_eq_some (Nat.zero_le _) (memchr_lt found).le, List.drop_zero]
          refine ⟨_, _, _, ?_, PollSpec.line valid active stop found⟩
          rw [pollLoop, valid.slice_unhandled, Option.bind_eq_bind, Option.bind_some,
            if_neg stop, found]
          simp only [hslice, Option.bind_some, decodeLine]
          cases fromUtf8 (rx.unhandled.take offset) with
          | none => rfl
          | some s => cases hparse : parse s <;> simp [hparse, yieldItem, skipLine]
      | none =>
          -- without one the receiver makes room and reads
          obtain ⟨valid', hunhandled⟩ := valid.compact
          have howed : rx.compact.owed parse reader =
              (rx.owed parse reader : List (Item P ε π)) := owed_compact valid active reader
          have hle := valid.length_unhandled_le
          obtain ⟨answer, rest, hread, hanswer⟩ :=
            reader.pollRead_spec (receiverBufLen - rx.unhandled.length)
          rw [pollLoop_refill reader valid stop found, hread]
          cases hanswer with
          | pending scheduled =>
              refine ⟨.pending, rx.compact, _, rfl, valid', ⟨1, rfl⟩, le_rfl, ?_, ?_⟩
              · exact ⟨howed.symm, active⟩
              · intro _
                exact Or.inr ⟨scheduled, rfl⟩
          | noRoom full =>
              refine ⟨.ready none, rx.compact, _, rfl, valid', ⟨1, rfl⟩, le_rfl, ?_, ?_⟩
              · show rx.owed parse reader = []
                rw [owed_of_not_done parse active]
                exact decode_full (by omega) stop found
              · intro h
                cases h
          | eof room exhausted ending =>
              refine ⟨.ready none, rx.compact, _, rfl, valid', ⟨1, rfl⟩, Nat.zero_le _, ?_, ?_⟩
              · show rx.owed parse reader = []
                rw [owed_of_not_done parse active, exhausted, List.append_nil, ending]
                exact decode_ending (by omega) stop found
              · intro h
                cases h
          | failure e room exhausted ending =>
              refine ⟨.ready (some (.error (.io (.reader e)))), { rx.compact with isDone := true },
                _, rfl, ⟨valid'.length_buf, valid'.ordered, valid'.inside⟩, ⟨1, rfl⟩,
                Nat.zero_le _, ⟨?_, rfl⟩, ?_⟩
              · rw [owed_of_not_done parse active, owed_of_done parse rfl, exhausted,
                  List.append_nil, ending]
                exact decode_ending (by omega) stop found
              · intro h
                cases h
          | chunk data _ nonempty fits split =>
              -- at least one byte was read: the loop goes on with less room
              have hfits : rx.unhandled.length + data.length ≤ receiverBufLen := by omega
              have hpos : 0 < data.length := List.length_pos_iff.mpr nonempty
              obtain ⟨valid'', hlen, howed'⟩ := owed_extend valid active hfits split
              obtain ⟨result, rx', reader', hloop, hspec⟩ :=
                ih (reader.advance 1 rest) valid'' active (by omega)
              have hrest : rest.length < reader.remaining.length := by
                rw [split, List.length_append]
                omega
              have hshrinks : reader'.remaining.length ≤ rest.length := hspec.shrinks
              refine ⟨result, rx', reader', ?_, hspec.valid, ?_, by omega, ?_, ?_⟩
              · cases data with
                | nil => exact absurd rfl nonempty
                | cons a as => exact hloop
              · obtain ⟨n, hn⟩ := hspec.reads
                exact ⟨1 + n, hn.trans (reader.advance_advance 1 n rest _)⟩
              · rw [← howed']
                exact hspec.settles
              · intro _
                exact Or.inl (by omega)

variable (parse)

/-- **One poll settles one owed item**, or none when none is owed, or nothing
yet; it never leaves the buffer. -/
theorem pollNext_spec {rx : Receiver} (valid : rx.Valid) (reader : Source UInt8 ε) :
    ∃ (result : Poll (Option (Item P ε π))) (rx' : Receiver) (reader' : Source UInt8 ε),
      pollNext parse rx reader = some (result, rx', reader') ∧
        PollSpec parse rx reader result rx' reader' := by
  by_cases done : rx.isDone = true
  · refine ⟨.ready none, rx, reader, by rw [pollNext, if_pos done], valid,
      ⟨0, advance_zero reader⟩, le_rfl, owed_of_done parse done reader, ?_⟩
    intro h
    cases h
  · rw [pollNext, if_neg done]
    exact pollLoop_spec _ reader valid (by simpa using done) (by omega)

end PollSpec

/-- A receiver that is done yields `None`, and reads nothing. -/
theorem pollNext_of_done {rx : Receiver} (done : rx.isDone = true)
    (reader : Source UInt8 ε) :
    pollNext parse rx reader =
      some ((.ready none : Poll (Option (Item P ε π))), rx, reader) :=
  if_pos done

end Receiver

end CacheAction
