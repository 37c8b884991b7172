import Mathlib.Algebra.Group.Nat.Defs
import Mathlib.Order.Basic

/-!
# Non-zero machine integers

`NonZero w` is the type of the unsigned integers of `w` bits other than zero.
The bounds are part of the value, so that neither a zero nor an overflowing
value can be built.

So an operation that can leave the range says what it does there: a checked one has no result,
and a saturating one has the largest value.  There is no wrapping one.
-/

namespace CacheAction

/-- A non-zero unsigned integer of `w` bits. -/
@[ext] structure NonZero (w : ℕ) where
  val : ℕ
  pos : 0 < val
  lt : val < 2 ^ w
  deriving DecidableEq

namespace NonZero

variable {w : ℕ}

/-- `NonZero::new`. -/
def new? (w n : ℕ) : Option (NonZero w) :=
  if h : 0 < n ∧ n < 2 ^ w then some ⟨n, h.1, h.2⟩ else none

/-- `checked_add`: `none` when the sum does not fit. -/
def checkedAdd (a : NonZero w) (n : ℕ) : Option (NonZero w) :=
  if h : a.val + n < 2 ^ w then some ⟨a.val + n, Nat.lt_of_lt_of_le a.pos (by omega), h⟩
  else none

/-- `saturating_add`: the largest value when the sum does not fit. -/
def saturatingAdd (a : NonZero w) (n : ℕ) : NonZero w :=
  ⟨min (a.val + n) (2 ^ w - 1),
    by have := a.pos; have := a.lt; omega,
    by have := a.lt; omega⟩

theorem val_of_new? {a : NonZero w} {n : ℕ} (h : new? w n = some a) : a.val = n := by
  unfold new? at h
  split at h
  · cases h
    rfl
  · cases h

theorem checkedAdd_eq_some {a b : NonZero w} {n : ℕ} :
    a.checkedAdd n = some b ↔ b.val = a.val + n := by
  unfold checkedAdd
  split
  · rename_i fits
    rw [Option.some.injEq, NonZero.ext_iff]
    exact eq_comm
  · rename_i overflows
    have := b.lt
    simp only [reduceCtorEq, false_iff]
    omega

end NonZero

end CacheAction
