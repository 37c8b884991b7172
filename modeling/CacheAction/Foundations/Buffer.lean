import Mathlib.Data.List.Basic
import Mathlib.Order.Basic

/-!
# Fixed-size buffers

Slices of, and writes into, a buffer of fixed length.  An access outside the
buffer has no result (`none`): that is where the program would panic.
-/

namespace CacheAction

universe u

variable {α : Type u}

/-- A half-open range of positions, `start..stop`. -/
structure Range where
  start : ℕ
  stop : ℕ
  deriving DecidableEq, Repr

/-- `buf[range]`. -/
def slice (buf : List α) (range : Range) : Option (List α) :=
  if range.start ≤ range.stop ∧ range.stop ≤ buf.length then
    some ((buf.take range.stop).drop range.start)
  else none

/-- The buffer with `data` written at position `pos`. -/
def overwrite (buf : List α) (pos : ℕ) (data : List α) : List α :=
  buf.take pos ++ data ++ buf.drop (pos + data.length)

/-- `buf.copy_within(range, dest)`. -/
def copyWithin (buf : List α) (range : Range) (dest : ℕ) : Option (List α) :=
  (slice buf range).bind fun data =>
    if dest + data.length ≤ buf.length then some (overwrite buf dest data) else none

theorem slice_eq_some {buf : List α} {range : Range} (ordered : range.start ≤ range.stop)
    (inside : range.stop ≤ buf.length) :
    slice buf range = some ((buf.take range.stop).drop range.start) :=
  if_pos ⟨ordered, inside⟩

theorem length_overwrite {buf : List α} {pos : ℕ} {data : List α}
    (fits : pos + data.length ≤ buf.length) :
    (overwrite buf pos data).length = buf.length := by
  simp only [overwrite, List.length_append, List.length_take, List.length_drop]
  omega

/-- What was there before the write, followed by the data written. -/
theorem take_overwrite {buf : List α} {pos : ℕ} {data : List α}
    (fits : pos + data.length ≤ buf.length) :
    (overwrite buf pos data).take (pos + data.length) = buf.take pos ++ data := by
  have hlen : (buf.take pos ++ data).length = pos + data.length := by
    rw [List.length_append, List.length_take]
    omega
  rw [overwrite, ← hlen, List.take_left]

end CacheAction
