import Mathlib.Data.List.Basic
import Mathlib.Order.Basic

/-!
# Polled readers and writers

A polled operation either has a result or is pending, and may be polled again
later.  What a reader or a writer answers to each poll is decided by its
environment; here that environment is a *schedule*, one choice for every poll.

* `Source` is a reader: a sequence of elements still to be delivered, what
  comes after the last one (the end of the stream or an error), and the
  schedule.  A poll that is not pending delivers any non-empty prefix of the
  remaining sequence that fits the space offered.  A poll that offers no space
  delivers nothing.
* `Sink` is a writer: the sequence accepted so far and the schedule.  A poll
  that is not pending accepts a prefix of what is offered, possibly empty, or
  fails.

`Source.pollRead_spec` and `Sink.pollWrite_spec` are all that users of the two
structures need to know about a poll.
-/

namespace CacheAction

universe u v

/-- The result of polling. -/
inductive Poll (α : Type u) where
  | ready (value : α)
  | pending
  deriving DecidableEq, Repr

/-! ## Readers -/

/-- The answer of a reader to one poll: nothing yet, or up to `n` elements (at
least one). -/
inductive ReadChoice where
  | pending
  | upTo (n : ℕ)
  deriving DecidableEq, Repr

/-- What follows the last element of a stream. -/
inductive Ending (ε : Type v) where
  | eof
  | failure (error : ε)
  deriving DecidableEq, Repr

/-- A reader that delivers `remaining`, then its ending. -/
structure Source (α : Type u) (ε : Type v) where
  remaining : List α
  ending : Ending ε
  schedule : ℕ → ReadChoice

namespace Source

variable {α : Type u} {ε : Type v}

/-- The reader when `n` more polls have been answered and `rest` remains. -/
def advance (src : Source α ε) (n : ℕ) (rest : List α) : Source α ε :=
  { src with remaining := rest, schedule := fun k => src.schedule (k + n) }

/-- One poll with room for `space` elements.  An empty delivery means that
there was no room or that the stream has ended. -/
def pollRead (src : Source α ε) (space : ℕ) :
    Poll (Except ε (List α)) × Source α ε :=
  match src.schedule 0 with
  | .pending => (.pending, src.advance 1 src.remaining)
  | .upTo n =>
      if space = 0 then (.ready (.ok []), src.advance 1 src.remaining)
      else
        match src.remaining with
        | [] =>
            match src.ending with
            | .eof => (.ready (.ok []), src.advance 1 [])
            | .failure e => (.ready (.error e), src.advance 1 [])
        | a :: rest =>
            let count := min (max n 1) space
            (.ready (.ok ((a :: rest).take count)),
              src.advance 1 ((a :: rest).drop count))

@[simp] theorem advance_remaining (src : Source α ε) (n : ℕ) (rest : List α) :
    (src.advance n rest).remaining = rest := rfl

theorem advance_advance (src : Source α ε) (n k : ℕ) (rest rest' : List α) :
    (src.advance n rest).advance k rest' = src.advance (n + k) rest' := by
  simp [advance, Nat.add_assoc, Nat.add_comm k n]

/-- What a poll may answer, and what is left afterwards. -/
inductive Answer (src : Source α ε) (space : ℕ) :
    Poll (Except ε (List α)) → List α → Prop where
  | pending (scheduled : src.schedule 0 = .pending) : Answer src space .pending src.remaining
  | noRoom (full : space = 0) : Answer src space (.ready (.ok [])) src.remaining
  | eof (room : 0 < space) (exhausted : src.remaining = []) (ending : src.ending = .eof) :
      Answer src space (.ready (.ok [])) []
  | failure (error : ε) (room : 0 < space) (exhausted : src.remaining = [])
      (ending : src.ending = .failure error) : Answer src space (.ready (.error error)) []
  | chunk (data rest : List α) (nonempty : data ≠ []) (fits : data.length ≤ space)
      (split : src.remaining = data ++ rest) : Answer src space (.ready (.ok data)) rest

/-- **A poll answers as the contract allows**, and uses up one choice of the
schedule. -/
theorem pollRead_spec (src : Source α ε) (space : ℕ) :
    ∃ answer rest, src.pollRead space = (answer, src.advance 1 rest) ∧
      Answer src space answer rest := by
  unfold pollRead
  cases scheduled : src.schedule 0 with
  | pending => exact ⟨_, _, rfl, .pending scheduled⟩
  | upTo n =>
      by_cases full : space = 0
      · simp only [full, if_true]
        exact ⟨_, _, rfl, .noRoom rfl⟩
      · have room : 0 < space := Nat.pos_of_ne_zero full
        simp only [full, if_false]
        cases remaining : src.remaining with
        | nil =>
            cases ending : src.ending with
            | eof => exact ⟨_, _, rfl, .eof room remaining ending⟩
            | failure e => exact ⟨_, _, rfl, .failure e room remaining ending⟩
        | cons a rest =>
            have positive : 0 < min (max n 1) space := by omega
            refine ⟨_, _, rfl, .chunk _ _ ?_ ?_ ?_⟩
            · simp [full]
            · rw [List.length_take]
              omega
            · rw [remaining, List.take_append_drop]

theorem answer_of_pollRead {src src' : Source α ε} {space : ℕ} {polled : Poll (Except ε (List α))}
    (h : src.pollRead space = (polled, src')) :
    ∃ rest, src' = src.advance 1 rest ∧ Answer src space polled rest := by
  obtain ⟨answer, rest, same, spec⟩ := src.pollRead_spec space
  obtain ⟨rfl, rfl⟩ := Prod.mk.inj (same.symm.trans h)
  exact ⟨rest, rfl, spec⟩

theorem of_pollRead_pending {src src' : Source α ε} {space : ℕ}
    (h : src.pollRead space = (.pending, src')) :
    src'.remaining = src.remaining ∧ src'.ending = src.ending := by
  obtain ⟨rest, rfl, answer⟩ := answer_of_pollRead h
  cases answer with
  | pending scheduled => exact ⟨rfl, rfl⟩

/-- What has been delivered comes off the front; nothing is delivered, although
there is room, when nothing is left. -/
theorem of_pollRead_ok {src src' : Source α ε} {space : ℕ} {data : List α}
    (h : src.pollRead space = (.ready (.ok data), src')) :
    src.remaining = data ++ src'.remaining ∧ src'.ending = src.ending ∧
      (data = [] → 0 < space → src'.remaining = []) := by
  obtain ⟨rest, rfl, answer⟩ := answer_of_pollRead h
  cases answer with
  | noRoom full => exact ⟨rfl, rfl, fun _ room => absurd full (Nat.ne_of_gt room)⟩
  | eof room exhausted ending => exact ⟨exhausted, rfl, fun _ _ => rfl⟩
  | chunk _ rest nonempty fits split => exact ⟨split, rfl, fun empty => absurd empty nonempty⟩

theorem of_pollRead_error {src src' : Source α ε} {space : ℕ} {error : ε}
    (h : src.pollRead space = (.ready (.error error), src')) : src.ending = .failure error := by
  obtain ⟨rest, rfl, answer⟩ := answer_of_pollRead h
  cases answer with
  | failure _ room exhausted ending => exact ending

/-- The schedule never stays pending for ever. -/
def Fair (src : Source α ε) : Prop := ∀ n, ∃ m, src.schedule (n + m) ≠ .pending

theorem Fair.advance {src : Source α ε} (fair : src.Fair) (n : ℕ) (rest : List α) :
    (src.advance n rest).Fair := by
  intro k
  obtain ⟨m, hm⟩ := fair (k + n)
  refine ⟨m, ?_⟩
  have : k + m + n = k + n + m := by omega
  simpa [Source.advance, this] using hm

end Source

/-! ## Writers -/

/-- The answer of a writer to one poll: nothing yet, at most `n` elements
accepted (possibly none), or an error. -/
inductive WriteChoice (ε : Type v) where
  | pending
  | upTo (n : ℕ)
  | fail (error : ε)
  deriving DecidableEq, Repr

/-- A writer and the sequence it has accepted. -/
structure Sink (α : Type u) (ε : Type v) where
  accepted : List α
  schedule : ℕ → WriteChoice ε

namespace Sink

variable {α : Type u} {ε : Type v}

/-- The writer when one more poll has been answered by accepting `data`. -/
def accept (sink : Sink α ε) (data : List α) : Sink α ε :=
  { accepted := sink.accepted ++ data, schedule := fun k => sink.schedule (k + 1) }

/-- One poll that offers `data`; the result is the number of elements
accepted. -/
def pollWrite (sink : Sink α ε) (data : List α) : Poll (Except ε ℕ) × Sink α ε :=
  match sink.schedule 0 with
  | .pending => (.pending, sink.accept [])
  | .upTo n => (.ready (.ok (min n data.length)), sink.accept (data.take n))
  | .fail e => (.ready (.error e), sink.accept [])

/-- One poll of an operation that writes nothing (a flush, a close). -/
def pollControl (sink : Sink α ε) : Poll (Except ε Unit) × Sink α ε :=
  match sink.schedule 0 with
  | .pending => (.pending, sink.accept [])
  | .upTo _ => (.ready (.ok ()), sink.accept [])
  | .fail e => (.ready (.error e), sink.accept [])

/-- **A poll accepts a prefix of what it is offered**, and its length is the
result. -/
theorem pollWrite_spec (sink : Sink α ε) (data : List α) :
    ∃ n, n ≤ data.length ∧
      ((sink.pollWrite data = (.ready (.ok n), sink.accept (data.take n))) ∨
        (∃ e, sink.pollWrite data = (.ready (.error e), sink.accept [])) ∨
        sink.pollWrite data = (.pending, sink.accept [])) := by
  unfold pollWrite
  cases sink.schedule 0 with
  | pending => exact ⟨0, by simp, by simp⟩
  | fail e => exact ⟨0, by simp, by simp⟩
  | upTo n =>
      refine ⟨min n data.length, by omega, Or.inl ?_⟩
      rw [← List.take_eq_take_min]

/-- A writer that takes something at every poll: it is never pending, fails at none and
never accepts zero elements of some. -/
def Eager (sink : Sink α ε) : Prop := ∀ n, ∃ k, sink.schedule n = .upTo (k + 1)

theorem Eager.accept {sink : Sink α ε} (eager : sink.Eager) (data : List α) :
    (sink.accept data).Eager := fun n => eager (n + 1)

theorem Eager.pollWrite {sink : Sink α ε} (eager : sink.Eager) {data : List α}
    (nonempty : data ≠ []) :
    ∃ n, sink.pollWrite data = (.ready (.ok (n + 1)), sink.accept (data.take (n + 1))) := by
  obtain ⟨k, scheduled⟩ := eager 0
  have positive := List.length_pos_iff.mpr nonempty
  refine ⟨min k (data.length - 1), ?_⟩
  have count : min (k + 1) data.length = min k (data.length - 1) + 1 := by omega
  rw [Sink.pollWrite, scheduled]
  simp only [← count, ← List.take_eq_take_min]

theorem Eager.pollControl {sink : Sink α ε} (eager : sink.Eager) :
    sink.pollControl = (.ready (.ok ()), sink.accept []) := by
  obtain ⟨k, scheduled⟩ := eager 0
  rw [Sink.pollControl, scheduled]

theorem pollControl_accepted (sink : Sink α ε) :
    sink.pollControl.2.accepted = sink.accepted := by
  unfold pollControl
  cases sink.schedule 0 <;> simp [accept]

end Sink

end CacheAction
