import CacheAction.Foundations.Polled

/-!
# Bounded pipes

A `Pipe` is a bounded first-in-first-out queue between a writer and a reader.
A poll of the writer appends some non-empty prefix of what is offered, as far as
there is room, or is pending; a poll of the reader removes some non-empty prefix
of the queue, or is pending.  Once the writer has closed the pipe, the reader
gets what is left and then the end of the stream.

How much a poll transfers is a choice of the environment, and so is whether it
is pending.  `Pipe.Flow` relates a pipe to its history: what has been written is
what has been read, followed by the queue.

`Flow` has the reader's end of the stream in it.  It has been told of the end only if the pipe
is closed and empty, and a pipe that has been closed takes nothing more; so a reader that has
been told has read everything that was written (`Flow.complete`).  An empty pipe is not yet an
end, and a full one is no failure: the one makes the reader wait, the other the writer, and
never both (`writable_or_readable`).
-/

namespace CacheAction

universe u

/-- The error of a write to a closed pipe. -/
inductive BrokenPipe where
  | brokenPipe
  deriving DecidableEq, Repr

/-- A pipe of bounded capacity. -/
structure Pipe (α : Type u) where
  capacity : ℕ
  queue : List α
  closed : Bool
  bounded : queue.length ≤ capacity
  deriving DecidableEq

namespace Pipe

variable {α : Type u}

/-- An open and empty pipe. -/
def new (capacity : ℕ) : Pipe α :=
  { capacity, queue := [], closed := false, bounded := Nat.zero_le _ }

/-- How many of `offered` elements are accepted, if the environment would accept
up to `limit`. -/
def accepts (pipe : Pipe α) (offered : List α) (limit : ℕ) : ℕ :=
  min limit (min offered.length (pipe.capacity - pipe.queue.length))

/-- Append the first elements of `offered`. -/
def push (pipe : Pipe α) (offered : List α) (limit : ℕ) : Pipe α :=
  { pipe with
    queue := pipe.queue ++ offered.take (pipe.accepts offered limit)
    bounded := by
      have := pipe.bounded
      rw [List.length_append, List.length_take, accepts]
      omega }

/-- One poll of the writer. -/
def pollWrite (pipe : Pipe α) (offered : List α) (limit : ℕ) :
    Poll (Except BrokenPipe ℕ) × Pipe α :=
  if pipe.closed then (.ready (.error .brokenPipe), pipe)
  else if pipe.accepts offered limit = 0 ∧ offered ≠ [] then (.pending, pipe)
  else (.ready (.ok (pipe.accepts offered limit)), pipe.push offered limit)

/-- The writer closes the pipe. -/
def close (pipe : Pipe α) : Pipe α := { pipe with closed := true }

/-- Remove the first `n` elements. -/
def pop (pipe : Pipe α) (n : ℕ) : Pipe α :=
  { pipe with
    queue := pipe.queue.drop n
    bounded := by
      have := pipe.bounded
      rw [List.length_drop]
      omega }

/-- One poll of the reader, which gets up to `limit` elements; none of them is
the end of the stream. -/
def pollRead (pipe : Pipe α) (limit : ℕ) : Poll (List α) × Pipe α :=
  if pipe.queue = [] then
    if pipe.closed then (.ready [], pipe) else (.pending, pipe)
  else if limit = 0 then (.pending, pipe)
  else (.ready (pipe.queue.take limit), pipe.pop limit)

/-! ## The history of a pipe -/

/-- What has been written is what has been read, followed by what is under
way; the reader is told of the end only when there will be no more. -/
structure Flow (pipe : Pipe α) (written read : List α) (ended : Bool) : Prop where
  fifo : written = read ++ pipe.queue
  ended : ended = true → pipe.closed = true ∧ pipe.queue = []

variable {pipe : Pipe α} {written read : List α} {ended : Bool}

theorem flow_new (capacity : ℕ) : Flow (new capacity : Pipe α) [] [] false :=
  { fifo := rfl, ended := by intro h; cases h }

/-- A writer may go on as long as the reader has not been told of the end. -/
theorem Flow.open_of_reading (flow : Flow pipe written read ended) (isOpen : pipe.closed = false) :
    ended = false := by
  cases ended with
  | false => rfl
  | true =>
      have := (flow.ended rfl).1
      rw [isOpen] at this
      contradiction

theorem Flow.push (flow : Flow pipe written read ended) (isOpen : pipe.closed = false)
    (offered : List α) (limit : ℕ) :
    Flow (pipe.push offered limit) (written ++ offered.take (pipe.accepts offered limit)) read
      ended := by
  have reading := flow.open_of_reading isOpen
  constructor
  · show _ = read ++ (pipe.queue ++ _)
    rw [flow.fifo, List.append_assoc]
  · intro h
    rw [reading] at h
    cases h

theorem Flow.close (flow : Flow pipe written read ended) : Flow pipe.close written read ended where
  fifo := flow.fifo
  ended h := ⟨rfl, (flow.ended h).2⟩

theorem Flow.pop (flow : Flow pipe written read ended) (n : ℕ) :
    Flow (pipe.pop n) written (read ++ pipe.queue.take n) ended := by
  constructor
  · show written = _ ++ pipe.queue.drop n
    rw [List.append_assoc, List.take_append_drop]
    exact flow.fifo
  · intro h
    obtain ⟨closed, empty⟩ := flow.ended h
    refine ⟨closed, ?_⟩
    show pipe.queue.drop n = []
    rw [empty, List.drop_nil]

/-- **A poll of the reader.**  It is pending, or delivers the next elements, or
ends the stream. -/
theorem Flow.pollRead (flow : Flow pipe written read ended) (limit : ℕ) :
    (pipe.pollRead limit = (.pending, pipe)) ∨
    (∃ data next, pipe.pollRead limit = (.ready data, next) ∧ data ≠ [] ∧
      Flow next written (read ++ data) ended ∧ next.closed = pipe.closed) ∨
    (pipe.pollRead limit = (.ready [], pipe) ∧ Flow pipe written read true) := by
  unfold Pipe.pollRead
  split
  · rename_i empty
    split
    · rename_i closed
      exact Or.inr (Or.inr ⟨rfl, flow.fifo, fun _ => ⟨closed, empty⟩⟩)
    · exact Or.inl rfl
  · rename_i nonempty
    split
    · exact Or.inl rfl
    · rename_i positive
      refine Or.inr (Or.inl ⟨_, _, rfl, ?_, flow.pop limit, rfl⟩)
      rw [Ne, List.take_eq_nil_iff]
      rintro (none | empty)
      · exact positive none
      · exact nonempty empty

/-- Once the reader has been told of the end, it has read everything. -/
theorem Flow.complete (flow : Flow pipe written read true) : read = written := by
  rw [flow.fifo, (flow.ended rfl).2, List.append_nil]

/-! ## Progress -/

/-- **The two ends of a pipe never wait for each other**: something can be written or
read, unless the writer has nothing to write or the environment lets nothing pass. -/
theorem writable_or_readable (pipe : Pipe α) (roomy : 0 < pipe.capacity) {offered : List α}
    (nonempty : offered ≠ []) {limit limit' : ℕ} (writes : 0 < limit) (reads : 0 < limit') :
    (pipe.closed = false ∧ pipe.pollWrite offered limit =
        (.ready (.ok (pipe.accepts offered limit)), pipe.push offered limit) ∧
      0 < pipe.accepts offered limit) ∨
    ∃ data next, pipe.pollRead limit' = (.ready data, next) := by
  by_cases empty : pipe.queue = []
  · rcases isClosed : pipe.closed with _ | _
    · have accepts : 0 < pipe.accepts offered limit := by
        have := List.length_pos_iff.mpr nonempty
        rw [accepts, empty, List.length_nil]
        omega
      refine Or.inl ⟨rfl, ?_, accepts⟩
      rw [pollWrite, isClosed, if_neg Bool.false_ne_true, if_neg fun none => by omega]
    · refine Or.inr ⟨[], pipe, ?_⟩
      rw [pollRead, if_pos empty, if_pos isClosed]
  · refine Or.inr ⟨pipe.queue.take limit', pipe.pop limit', ?_⟩
    rw [pollRead, if_neg empty, if_neg (by omega)]

/-- Once the writer has closed the pipe, the reader never waits for it. -/
theorem readable_of_closed {pipe : Pipe α} (closed : pipe.closed = true) {limit : ℕ}
    (reads : 0 < limit) : ∃ data next, pipe.pollRead limit = (.ready data, next) := by
  by_cases empty : pipe.queue = []
  · refine ⟨[], pipe, ?_⟩
    rw [pollRead, if_pos empty, if_pos closed]
  · refine ⟨pipe.queue.take limit, pipe.pop limit, ?_⟩
    rw [pollRead, if_neg empty, if_neg (by omega)]

end Pipe

end CacheAction
