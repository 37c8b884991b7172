import CacheAction.Protocol.Receiver

/-!
# Runs of the receiver

The items a `Receiver` yields over any number of polls, for any byte stream
and any schedule of the reader, against the reference decoder.

`polls_spec` is the run lemma: up to the first `None` the items are a prefix of
those owed at the start, and all of them once `None` has been returned.
`finishes_of_fair` says that a reader that is not pending for ever brings the
receiver to its `None`.

The items are collected up to the first `None`, because this is what the caller does: the loop
of `handle_io` ends there and drops the receiver.  After a stop or an error the receiver
yields nothing but `None`, for ever (`polls_of_done`).  After the end of the stream it would
go on to poll the reader; that no item comes of this either is not claimed, and not needed.

Safety and progress are separate on purpose.  `polls_spec` has no hypothesis on the schedule,
and a number of polls that is too small gives a prefix; `Source.Fair` is only asked for where
something has to happen.
-/

namespace CacheAction

namespace Receiver

variable {P ε π : Type} {parse : String → Except π P}

/-- Polls are counted from the first one. -/
theorem polls_succ {n : ℕ} {rx rx₁ rx₂ : Receiver} {reader reader₁ reader₂ : Source UInt8 ε}
    {first : Poll (Option (Item P ε π))} {rest : List (Poll (Option (Item P ε π)))}
    (hfirst : pollNext parse rx reader = some (first, rx₁, reader₁))
    (hrest : polls parse n rx₁ reader₁ = some (rest, rx₂, reader₂)) :
    polls parse (n + 1) rx reader = some (first :: rest, rx₂, reader₂) := by
  simp [polls, hfirst, hrest]

/-- Once the receiver is done, every poll yields `None`. -/
theorem polls_of_done {rx : Receiver} (done : rx.isDone = true) (reader : Source UInt8 ε)
    (n : ℕ) :
    polls parse n rx reader =
      some (List.replicate n (.ready none : Poll (Option (Item P ε π))), rx, reader) := by
  induction n with
  | zero => rfl
  | succ n ih => exact polls_succ (pollNext_of_done parse done reader) ih

/-- Nothing but `None` follows a last item. -/
def OnlyNoneAfterLast (results : List (Poll (Option (Item P ε π)))) : Prop :=
  ∀ pre item post, results = pre ++ .ready (some item) :: post → item.isLast = true →
    ∀ result ∈ post, result = .ready none

/-- What any number of polls yields. -/
structure PollsSpec (rx : Receiver) (owed : List (Item P ε π))
    (results : List (Poll (Option (Item P ε π)))) : Prop where
  valid : rx.Valid
  sound : itemsUntilNone results <+: owed
  complete : .ready none ∈ results → itemsUntilNone results = owed
  last : OnlyNoneAfterLast results

/-- **The run lemma.** -/
theorem polls_spec (n : ℕ) :
    ∀ {rx : Receiver} (reader : Source UInt8 ε), rx.Valid →
      ∃ results rx' reader', polls parse n rx reader = some (results, rx', reader') ∧
        PollsSpec rx' (rx.owed parse reader : List (Item P ε π)) results := by
  induction n with
  | zero =>
      intro rx reader valid
      refine ⟨[], rx, reader, rfl, valid, List.nil_prefix, ?_, ?_⟩
      · intro member
        cases member
      · intro pre item post h
        simp at h
  | succ n ih =>
      intro rx reader valid
      obtain ⟨first, rx₁, reader₁, hfirst, hspec⟩ := pollNext_spec parse valid reader
      obtain ⟨rest, rx₂, reader₂, hrest, hrun⟩ := ih reader₁ hspec.valid
      refine ⟨first :: rest, rx₂, reader₂, polls_succ hfirst hrest, hrun.valid, ?_, ?_, ?_⟩
      · -- the items yielded so far, by what the first poll has settled
        have hsettles := hspec.settles
        rcases first with (_ | item) | _
        · exact List.nil_prefix
        · rw [hsettles.1]
          exact (List.cons_prefix_cons).mpr ⟨rfl, hrun.sound⟩
        · rw [hsettles.1]
          exact hrun.sound
      · intro member
        have hsettles := hspec.settles
        rcases first with (_ | item) | _
        · exact hsettles.symm
        · rw [hsettles.1, itemsUntilNone,
            hrun.complete ((List.mem_cons.mp member).resolve_left (by simp))]
        · rw [hsettles.1, itemsUntilNone,
            hrun.complete ((List.mem_cons.mp member).resolve_left (by simp))]
      · intro pre item post h isLast
        cases pre with
        | cons r pre => exact hrun.last pre item post (List.cons.inj h).2 isLast
        | nil =>
            obtain ⟨rfl, rfl⟩ := List.cons.inj h
            -- a last item has marked the receiver done
            have done : rx₁.isDone = true := hspec.settles.2.trans isLast
            rw [polls_of_done done] at hrest
            cases hrest
            intro result member
            exact List.eq_of_mem_replicate member

/-- What bounds the number of polls that are not answered by a pending reader:
the bytes still to be read and the items still owed. -/
def work (parse : String → Except π P) (rx : Receiver) (reader : Source UInt8 ε) : ℕ :=
  reader.remaining.length + (rx.owed parse reader : List (Item P ε π)).length

/-- A poll returns `None`, or has less work to leave behind, or has met a
pending reader at once. -/
theorem PollSpec.work_lt {rx rx' : Receiver} {reader reader' : Source UInt8 ε}
    {result : Poll (Option (Item P ε π))} (spec : PollSpec parse rx reader result rx' reader') :
    result = .ready none ∨ work parse rx' reader' < work parse rx reader ∨
      (work parse rx' reader' = work parse rx reader ∧ reader.schedule 0 = .pending ∧
        reader' = reader.advance 1 reader.remaining) := by
  have hshrinks := spec.shrinks
  have hsettles := spec.settles
  rcases result with (_ | item) | _
  · exact Or.inl rfl
  · refine Or.inr (Or.inl ?_)
    rw [work, work, hsettles.1, List.length_cons]
    omega
  · rcases spec.progress rfl with less | ⟨scheduled, advanced⟩
    · refine Or.inr (Or.inl ?_)
      rw [work, work, hsettles.1]
      omega
    · refine Or.inr (Or.inr ⟨?_, scheduled, advanced⟩)
      rw [work, work, hsettles.1, advanced, Source.advance_remaining]

/-- Some number of polls returns `None`. -/
def Finishes (parse : String → Except π P) (rx : Receiver) (reader : Source UInt8 ε) : Prop :=
  ∃ n results rx' reader', polls parse n rx reader = some (results, rx', reader') ∧
    (.ready none : Poll (Option (Item P ε π))) ∈ results

/-- What finishes after a poll has finished. -/
theorem Finishes.poll {rx rx₁ : Receiver} {reader reader₁ : Source UInt8 ε}
    {first : Poll (Option (Item P ε π))}
    (hfirst : pollNext parse rx reader = some (first, rx₁, reader₁))
    (later : Finishes parse rx₁ reader₁) : Finishes parse rx reader := by
  obtain ⟨n, results, rx', reader', hpolls, member⟩ := later
  exact ⟨n + 1, first :: results, rx', reader', polls_succ hfirst hpolls,
    List.mem_cons_of_mem _ member⟩

/-- **A fair reader brings the receiver to its first `None`.**  Induction on the
work left and, for the same work, on the number of pending answers the reader
still has in a row. -/
theorem finishes_of_fair {rx : Receiver} {reader : Source UInt8 ε} (valid : rx.Valid)
    (fair : reader.Fair) : Finishes parse rx reader := by
  generalize hN : work parse rx reader = N
  induction N using Nat.strong_induction_on generalizing rx reader with
  | _ N outer =>
      obtain ⟨m, hm⟩ := fair 0
      rw [Nat.zero_add] at hm
      induction m generalizing rx reader with
      | zero =>
          obtain ⟨first, rx₁, reader₁, hfirst, hspec⟩ := pollNext_spec parse valid reader
          obtain ⟨n, hn⟩ := hspec.reads
          rcases hspec.work_lt with rfl | less | ⟨-, scheduled, -⟩
          · exact ⟨1, [.ready none], rx₁, reader₁, polls_succ hfirst rfl, by simp⟩
          · exact .poll hfirst (outer _ (hN ▸ less) hspec.valid (hn ▸ fair.advance n _) rfl)
          · exact absurd scheduled hm
      | succ m inner =>
          obtain ⟨first, rx₁, reader₁, hfirst, hspec⟩ := pollNext_spec parse valid reader
          obtain ⟨n, hn⟩ := hspec.reads
          rcases hspec.work_lt with rfl | less | ⟨same, -, advanced⟩
          · exact ⟨1, [.ready none], rx₁, reader₁, polls_succ hfirst rfl, by simp⟩
          · exact .poll hfirst (outer _ (hN ▸ less) hspec.valid (hn ▸ fair.advance n _) rfl)
          · subst advanced
            exact .poll hfirst
              (inner hspec.valid (fair.advance 1 _) (same.trans hN) hm)

/-- Whatever has been collected when the first `None` is returned is the
reference decoding of the stream. -/
theorem collected_eq_decode {reader : Source UInt8 ε} {n : ℕ}
    {results : List (Poll (Option (Item P ε π)))} {rx' : Receiver} {reader' : Source UInt8 ε}
    (hpolls : polls parse n new reader = some (results, rx', reader'))
    (finished : .ready none ∈ results) :
    itemsUntilNone results = decode parse reader.ending reader.remaining := by
  obtain ⟨results', rx'', reader'', hpolls', hspec⟩ := polls_spec n reader valid_new
  rw [hpolls] at hpolls'
  cases hpolls'
  exact hspec.complete finished

/-- Collecting a fair stream until its first `None` gives its reference
decoding. -/
theorem exists_collected (parse : String → Except π P) {reader : Source UInt8 ε}
    (fair : reader.Fair) :
    ∃ n results rx' reader', polls parse n new reader = some (results, rx', reader') ∧
      .ready none ∈ results ∧
      itemsUntilNone results = decode parse reader.ending reader.remaining := by
  obtain ⟨n, results, rx', reader', hpolls, finished⟩ := finishes_of_fair valid_new fair
  exact ⟨n, results, rx', reader', hpolls, finished, collected_eq_decode hpolls finished⟩

/-- **The streaming receiver equals the reference decoder**, for every byte
stream, every ending and every schedule of the reader.  No poll leaves the
buffer; the items up to the first `None` are those of `decode` on the whole
stream; after a stop or an error there is only `None`; and the first `None` is
reached unless the reader stays pending for ever.

The buffer disappears from the statement because its invariant says what it holds: the
unhandled range and the rest of the source are together what is still to be decoded.  Moving
the range to the front of the buffer, and filling what is behind it, changes neither. -/
theorem receiver_refines_decode (parse : String → Except π P) (bytes : List UInt8)
    (ending : Ending ε) (schedule : ℕ → ReadChoice) :
    (∀ n, ∃ results rx reader,
      polls parse n new { remaining := bytes, ending, schedule } = some (results, rx, reader) ∧
        rx.buf.length = 1024 ∧
        rx.unhandledRange.start ≤ rx.unhandledRange.stop ∧ rx.unhandledRange.stop ≤ 1024 ∧
        itemsUntilNone results <+: decode parse ending bytes ∧
        (.ready none ∈ results → itemsUntilNone results = decode parse ending bytes) ∧
        ∀ pre item post, results = pre ++ .ready (some item) :: post → item.isLast = true →
          ∀ result ∈ post, result = .ready none) ∧
      (Source.Fair ({ remaining := bytes, ending, schedule } : Source UInt8 ε) →
        ∃ n results rx reader,
          polls parse n new { remaining := bytes, ending, schedule } =
            some (results, rx, reader) ∧
          .ready none ∈ results) := by
  constructor
  · intro n
    obtain ⟨results, rx, reader, hpolls, hspec⟩ :=
      polls_spec n { remaining := bytes, ending, schedule } valid_new
    exact ⟨results, rx, reader, hpolls, hspec.valid.length_buf, hspec.valid.ordered,
      hspec.valid.inside, hspec.sound, hspec.complete, hspec.last⟩
  · intro fair
    exact finishes_of_fair valid_new fair

/-- A line and a stop byte, delivered one byte at a time, are read to the end. -/
theorem receiver_finishes_line_and_stop :
    ∃ n results rx reader,
      polls (fun s => (.ok s : Except Empty String)) n new
          { remaining := [97, 10, 0], ending := (.eof : Ending Empty),
            schedule := fun _ => .upTo 1 } = some (results, rx, reader) ∧
        .ready none ∈ results :=
  (receiver_refines_decode (fun s => (.ok s : Except Empty String)) [97, 10, 0]
    (.eof : Ending Empty) (fun _ => .upTo 1)).2 fun _ => ⟨0, by simp⟩

end Receiver

end CacheAction
