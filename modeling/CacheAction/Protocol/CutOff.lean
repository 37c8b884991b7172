import CacheAction.Protocol.RoundTrip

/-!
# A stream of messages that is cut off

A `push` that is killed, or whose socket fails, leaves the first bytes of its
messages.  The receiver yields the messages that have `arrived`, to the last byte,
and nothing of the one that has not: an unfinished line is no store path, and no
store path is received that was not pushed (`decode_take_encodeAll`).

This rests on the separator being at the *end* of a line.  A prefix of a store path may well be
a store path (of a shorter name), so a protocol in which the end of the stream ended a line
would let a client that is killed push a path that it was never given.
-/

namespace CacheAction

variable {B E ε : Type} (codec : BasenameCodec B E)

/-- The messages whose last byte is among the first `n`.  The bytes are counted off message by
message, as they have been encoded. -/
def arrived : ℕ → List (Message (StorePath B)) → List (Message (StorePath B))
  | _, [] => []
  | n, message :: rest =>
      let length := (message.encode (StorePath.display codec)).length
      if length ≤ n then message :: arrived (n - length) rest else []

/-- What has arrived comes first among what has been sent. -/
theorem arrived_prefix (n : ℕ) (messages : List (Message (StorePath B))) :
    arrived codec n messages <+: messages := by
  induction messages generalizing n with
  | nil => exact List.nil_prefix
  | cons message rest ih =>
      rw [arrived]
      split
      · exact List.cons_prefix_cons.mpr ⟨rfl, ih _⟩
      · exact List.nil_prefix

/-- When all the bytes are there, all the messages are. -/
theorem arrived_of_le {n : ℕ} {messages : List (Message (StorePath B))}
    (enough : (encodeAll codec messages).length ≤ n) : arrived codec n messages = messages := by
  induction messages generalizing n with
  | nil => rfl
  | cons message rest ih =>
      rw [encodeAll, List.flatMap_cons, List.length_append] at enough
      rw [arrived, if_pos (by omega), ih (by rw [encodeAll]; omega)]

/-- What comes after the messages that have arrived: nothing after a stop, and
otherwise the error of the reader, if there is one. -/
def lastItem {P π : Type} (ending : Ending ε) : List (Message P) → List (Item P ε π)
  | [] =>
      match ending with
      | .eof => []
      | .failure e => [.error (.io (.reader e))]
  | .pushStorePath _ :: rest => lastItem ending rest
  | .stopDaemon :: _ => []

theorem notMem_lastItem {P π : Type} (ending : Ending ε) (messages : List (Message P))
    (message : Message P) : (.ok message : Item P ε π) ∉ lastItem ending messages := by
  induction messages with
  | nil => cases ending <;> simp [lastItem]
  | cons first rest ih =>
      cases first with
      | pushStorePath path => exact ih
      | stopDaemon => exact List.not_mem_nil

variable {codec}

/-- A part of a line that is not the whole line. -/
theorem decode_unfinished (lawful : codec.Lawful) {path : StorePath B}
    (fits : LineFits codec path) (ending : Ending ε) {n : ℕ}
    (cut : n ≤ (utf8 (path.display codec)).length) :
    decode (StorePath.fromStr codec) ending ((utf8 (path.display codec)).take n) =
      (lastItem ending [] : List (Item (StorePath B) ε (StorePathError E))) := by
  have short : ((utf8 (path.display codec)).take n).length < receiverBufLen := by
    rw [List.length_take, Nat.min_eq_left cut]
    exact lt_of_le_of_lt cut fits.2
  have noStop : ((utf8 (path.display codec)).take n).head? ≠ some stopSentinel := by
    have absent : stopSentinel ∉ utf8 (path.display codec) := by
      rw [mem_utf8_of_ascii (c := '\x00') (by decide) (by decide)]
      exact StorePath.nul_notMem_display lawful path
    exact fun h => absent (List.mem_of_mem_take (List.mem_of_mem_head? h))
  have noSeparator : memchr pathSeparator ((utf8 (path.display codec)).take n) = none := by
    refine memchr_eq_none.mpr fun member => ?_
    have inside := List.mem_of_mem_take member
    rw [mem_utf8_of_ascii (c := '\n') (by decide) (by decide)] at inside
    exact fits.1 inside
  rw [Receiver.decode_ending short noStop noSeparator]
  cases ending <;> rfl

/-- **Of a stream that is cut off, the receiver gets the messages that have arrived.** -/
theorem decode_take_encodeAll (lawful : codec.Lawful) (paths : List (StorePath B))
    (accepted : ∀ path ∈ paths, path.Accepted codec) (fits : ∀ path ∈ paths, LineFits codec path)
    (stop : Bool) (ending : Ending ε) (n : ℕ) :
    decode (StorePath.fromStr codec) ending ((encodeAll codec (session paths stop)).take n) =
      (arrived codec n (session paths stop)).map .ok ++
        lastItem ending (arrived codec n (session paths stop)) := by
  induction paths generalizing n with
  | nil =>
      cases stop with
      | false =>
          rw [show encodeAll codec (session [] false) = [] from rfl, List.take_nil]
          exact @Receiver.decode_ending _ _ _ _ _ [] (by decide) (by simp) rfl
      | true =>
          rw [show encodeAll codec (session [] true) = [stopSentinel] from rfl]
          cases n with
          | zero => exact Receiver.decode_ending (by decide) (by simp) rfl
          | succ n =>
              rw [List.take_of_length_le (by simp)]
              have stopped := @Receiver.decode_stop _ _ _ (StorePath.fromStr codec) ending
                [stopSentinel] [] rfl
              rw [List.append_nil] at stopped
              rw [stopped, show arrived codec (n + 1) (session [] true) = [.stopDaemon] from
                arrived_of_le codec (Nat.le_add_left 1 n)]
              rfl
  | cons path rest ih =>
      have hsession : session (path :: rest) stop = .pushStorePath path :: session rest stop :=
        rfl
      obtain ⟨haccepted, hrest⟩ := List.forall_mem_cons.mp accepted
      obtain ⟨hfits, hfitsRest⟩ := List.forall_mem_cons.mp fits
      have length : (Message.encode (StorePath.display codec)
          (.pushStorePath path : Message (StorePath B))).length =
            (utf8 (path.display codec)).length + 1 := by
        rw [Message.encode, List.length_append, List.length_singleton]
      rw [hsession, encodeAll_push, arrived, length]
      -- the cut comes after the line of this path, or in it
      by_cases whole : (utf8 (path.display codec)).length + 1 ≤ n
      · rw [if_pos whole, lastItem, List.map_cons, List.cons_append, ← ih hrest hfitsRest]
        have cut : (utf8 (path.display codec) ++
            pathSeparator :: encodeAll codec (session rest stop)).take n =
              utf8 (path.display codec) ++ pathSeparator ::
                (encodeAll codec (session rest stop)).take
                  (n - ((utf8 (path.display codec)).length + 1)) := by
          rw [List.take_append, List.take_of_length_le (by omega)]
          obtain ⟨k, rfl⟩ := Nat.exists_eq_add_of_le whole
          rw [show (utf8 (path.display codec)).length + 1 + k -
            (utf8 (path.display codec)).length = k + 1 by omega, List.take_succ_cons,
            Nat.add_sub_cancel_left]
        rw [cut]
        exact decode_fitting lawful haccepted hfits ending _
      · rw [if_neg whole, List.take_append_of_le_length (by omega)]
        exact decode_unfinished lawful hfits ending (by omega)

end CacheAction
