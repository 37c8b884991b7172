import CacheAction.Protocol.Receiver

/-!
# Decoding a stream that is still being written

The client may still be writing when the receiver is polled.  What has been
decoded by then does not change when more bytes follow (`decode_prefix`), so that
the decoding of an open stream is the one it would have if it ended here.

`Receiver.stream` is the part of the stream that a receiver still has before it:
the unhandled bytes of its buffer and the bytes not read yet.  `StreamSpec` says
what a poll takes off its front, for all continuations of the stream at once:
that is what a receiver needs to know when its stream is not complete.

The specification of a poll on a complete stream (`pollNext_spec`) is the case of a stream that
is known to its end.  On a socket the end is not known, and a poll cannot wait for it: it must
yield the first item as soon as its last byte is there.  That it may do so is a property of the
format, which the reference decoder shows: the first item of a stream is decided by its first
bytes, up to a separator, a stop or the size of the buffer.
-/

namespace CacheAction

variable {P ε π : Type}

section Decode

variable (parse : String → Except π P) {bytes : List UInt8}

/-- The first line of a stream, if the receiver's buffer has room for it. -/
theorem decode_append_line {offset : ℕ} (ending : Ending ε) (more : List UInt8)
    (noStop : bytes.head? ≠ some stopSentinel)
    (found : memchr pathSeparator (bytes.take receiverBufLen) = some offset) :
    decode parse ending (bytes ++ more) =
      let item : Item P ε π := decodeLine parse (bytes.take offset)
      if item.isLast then [item]
      else item :: decode parse ending (bytes.drop (offset + 1) ++ more) := by
  have start : (bytes.take receiverBufLen).head? ≠ some stopSentinel := by
    rw [List.head?_take, if_neg (by decide)]
    exact noStop
  have inside := Receiver.memchr_lt found
  rw [List.length_take] at inside
  have line := @Receiver.decode_line _ _ _ parse ending _ (bytes.drop receiverBufLen ++ more) _
    (List.length_take_le _ _) start found
  rw [← List.append_assoc, List.take_append_drop, ← List.append_assoc,
    ← List.drop_append_of_le_length (by rw [List.length_take]; omega), List.take_append_drop,
    List.take_take, Nat.min_eq_left (by omega)] at line
  exact line

/-- **What has been decoded stays decoded**, whatever follows. -/
theorem decode_prefix (ending : Ending ε) (bytes more : List UInt8) :
    (decode parse .eof bytes : List (Item P ε π)) <+: decode parse ending (bytes ++ more) := by
  induction hlen : bytes.length using Nat.strong_induction_on generalizing bytes with
  | _ n ih =>
      have whole : bytes ++ [] = bytes := List.append_nil bytes
      by_cases stop : bytes.head? = some stopSentinel
      · rw [← whole, Receiver.decode_stop stop, whole, Receiver.decode_stop stop]
      cases found : memchr pathSeparator (bytes.take receiverBufLen) with
      | none =>
          -- the reference waits for a separator, and ends without an item
          have nothing : (decode parse .eof bytes : List (Item P ε π)) = [] := by
            rw [decode.eq_def, if_neg stop]
            split
            · rename_i offset found'
              rw [found] at found'
              cases found'
            · split <;> rfl
          rw [nothing]
          exact List.nil_prefix
      | some offset =>
          have inside := Receiver.memchr_lt found
          rw [List.length_take] at inside
          have shorter : (bytes.drop (offset + 1)).length < n := by
            rw [List.length_drop]
            omega
          have first := decode_append_line parse (.eof : Ending ε) [] stop found
          rw [whole, List.append_nil] at first
          rw [first, decode_append_line parse ending more stop found]
          dsimp only
          split
          · exact List.prefix_rfl
          · exact List.cons_prefix_cons.mpr ⟨rfl, ih _ shorter _ rfl⟩

end Decode

namespace Receiver

/-- What a receiver still has before it: the unhandled bytes of its buffer and those
not read yet. -/
def stream (rx : Receiver) (reader : Source UInt8 ε) : List UInt8 :=
  rx.unhandled ++ reader.remaining

variable (parse : String → Except π P)

/-- What a poll of a receiver that is not done makes of its stream. -/
inductive StreamSpec (ending : Ending ε) (stream : List UInt8) :
    Poll (Option (Item P ε π)) → Receiver → Source UInt8 ε → Prop where
  /-- Bytes may have been moved to the buffer. -/
  | pending {rx reader} (active : rx.isDone = false) (same : rx.stream reader = stream) :
      StreamSpec ending stream .pending rx reader
  /-- The buffer is full, and there is no separator in it. -/
  | full {rx reader} (active : rx.isDone = false) (same : rx.stream reader = stream)
      (full : rx.unhandled.length = receiverBufLen)
      (stuck : ∀ (e : Ending ε) more, decode parse e (stream ++ more) = []) :
      StreamSpec ending stream (.ready none) rx reader
  | eof {rx reader} (active : rx.isDone = false) (same : rx.stream reader = stream)
      (room : rx.unhandled.length < receiverBufLen)
      (ended : ending = .eof) (nothing : decode parse (.eof : Ending ε) stream = []) :
      StreamSpec ending stream (.ready none) rx reader
  /-- A line or a stop is taken off the front. -/
  | item {rx reader item} (done : rx.isDone = Item.isLast item)
      (front : ∀ (e : Ending ε) more, decode parse e (stream ++ more) =
        item :: if item.isLast then [] else decode parse e (rx.stream reader ++ more)) :
      StreamSpec ending stream (.ready (some item)) rx reader
  | failure {rx reader e} (done : rx.isDone = true) (ended : ending = .failure e)
      (last : decode parse ending stream = [.error (.io (.reader e))]) :
      StreamSpec ending stream (.ready (some (.error (.io (.reader e))))) rx reader

variable {parse}

theorem stream_compact {rx : Receiver} (valid : rx.Valid) (reader : Source UInt8 ε) :
    rx.compact.stream reader = rx.stream reader := by
  rw [stream, valid.compact.2, stream]

/-- The loop of `poll_next`, by induction on the number of its turns. -/
theorem pollLoop_stream :
    ∀ (fuel : ℕ) {rx : Receiver} (reader : Source UInt8 ε), rx.Valid → rx.isDone = false →
      receiverBufLen - rx.unhandled.length < fuel →
      ∃ (result : Poll (Option (Item P ε π))) (rx' : Receiver) (reader' : Source UInt8 ε),
        pollLoop parse fuel rx reader = some (result, rx', reader') ∧ rx'.Valid ∧
          StreamSpec parse reader.ending (rx.stream reader) result rx' reader' := by
  intro fuel
  induction fuel with
  | zero =>
      intro rx reader valid active enough
      omega
  | succ fuel ih =>
      intro rx reader valid active enough
      -- whatever follows a stop or a separator, the first item is decided
      by_cases stop : rx.unhandled.head? = some stopSentinel
      · refine ⟨.ready (some (.ok .stopDaemon)), { rx with isDone := true }, reader, ?_,
          ⟨valid.length_buf, valid.ordered, valid.inside⟩, .item rfl fun e more => ?_⟩
        · rw [pollLoop, valid.slice_unhandled, Option.bind_eq_bind, Option.bind_some,
            if_pos stop]
          rfl
        · rw [stream, List.append_assoc, decode_stop stop]
          rfl
      cases found : memchr pathSeparator rx.unhandled with
      | some offset =>
          have hslice : slice rx.unhandled ⟨0, offset⟩ = some (rx.unhandled.take offset) := by
            rw [slice_eq_some (Nat.zero_le _) (memchr_lt found).le, List.drop_zero]
          obtain ⟨valid', hunhandled⟩ := valid.skipLine (memchr_lt found)
          let item : Item P ε π := decodeLine parse (rx.unhandled.take offset)
          refine ⟨.ready (some item), { rx.skipLine offset with isDone := item.isLast }, reader, ?_,
            ⟨valid'.length_buf, valid'.ordered, valid'.inside⟩, .item rfl fun e more => ?_⟩
          · rw [pollLoop, valid.slice_unhandled, Option.bind_eq_bind, Option.bind_some,
              if_neg stop, found]
            simp only [hslice, Option.bind_some, item, decodeLine]
            cases fromUtf8 (rx.unhandled.take offset) with
            | none => rfl
            | some s => cases hparse : parse s <;> simp [hparse, yieldItem, skipLine]
          · rw [stream, List.append_assoc, decode_line valid.length_unhandled_le stop found,
              ← hunhandled, ← List.append_assoc]
            dsimp only
            split_ifs <;> rfl
      | none =>
          -- the answers of the reader, one by one
          obtain ⟨valid', hunhandled⟩ := valid.compact
          have hle := valid.length_unhandled_le
          have hcompact : rx.compact.unhandled.length = rx.unhandled.length :=
            congrArg List.length hunhandled
          obtain ⟨answer, rest, hread, hanswer⟩ :=
            reader.pollRead_spec (receiverBufLen - rx.unhandled.length)
          rw [pollLoop_refill reader valid stop found, hread]
          cases hanswer with
          | pending scheduled =>
              exact ⟨.pending, rx.compact, _, rfl, valid', .pending active (stream_compact valid _)⟩
          | noRoom full =>
              refine ⟨.ready none, rx.compact, _, rfl, valid',
                .full active (stream_compact valid _) (by omega) ?_⟩
              intro e more
              rw [stream, List.append_assoc]
              exact decode_full (by omega) stop found
          | eof room exhausted ending =>
              refine ⟨.ready none, rx.compact, _, rfl, valid',
                .eof active ?_ (by omega) ending ?_⟩
              · rw [stream, stream, hunhandled, exhausted]
                rfl
              rw [stream, exhausted, List.append_nil]
              exact decode_ending (by omega) stop found
          | failure e room exhausted ending =>
              refine ⟨.ready (some (.error (.io (.reader e)))), { rx.compact with isDone := true },
                _, rfl, ⟨valid'.length_buf, valid'.ordered, valid'.inside⟩, .failure rfl ending ?_⟩
              rw [stream, exhausted, List.append_nil, ending]
              exact decode_ending (by omega) stop found
          | chunk data _ nonempty fits split =>
              -- the bytes read have only changed their place
              have hfits : rx.unhandled.length + data.length ≤ receiverBufLen := by omega
              have hpos : 0 < data.length := List.length_pos_iff.mpr nonempty
              obtain ⟨valid'', hunhandled'⟩ := valid'.extend rfl
                (show rx.compact.unhandledRange.stop + data.length ≤ receiverBufLen from hfits)
              have hstream : (rx.compact.extend data).stream (reader.advance 1 rest) =
                  rx.stream reader := by
                rw [stream, hunhandled', hunhandled, stream, split, List.append_assoc]
                rfl
              have hlen : (rx.compact.extend data).unhandled.length =
                  rx.unhandled.length + data.length := by
                rw [hunhandled', hunhandled, List.length_append]
              obtain ⟨result, rx', reader', hloop, hvalid, hspec⟩ :=
                ih (reader.advance 1 rest) valid'' active (by omega)
              rw [hstream] at hspec
              refine ⟨result, rx', reader', ?_, hvalid, hspec⟩
              cases data with
              | nil => exact absurd rfl nonempty
              | cons a as => exact hloop

/-- **One poll of an active receiver.** -/
theorem pollNext_stream {rx : Receiver} (valid : rx.Valid) (active : rx.isDone = false)
    (reader : Source UInt8 ε) :
    ∃ (result : Poll (Option (Item P ε π))) (rx' : Receiver) (reader' : Source UInt8 ε),
      pollNext parse rx reader = some (result, rx', reader') ∧ rx'.Valid ∧
        StreamSpec parse reader.ending (rx.stream reader) result rx' reader' := by
  rw [pollNext, if_neg (by simp [active])]
  exact pollLoop_stream _ reader valid active (by omega)

end Receiver

end CacheAction
