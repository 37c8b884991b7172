import Mathlib.Algebra.Order.Field.Basic
import Mathlib.Algebra.Order.Ring.Abs
import Mathlib.Algebra.Ring.Int.Parity
import Mathlib.Tactic.Linarith

/-!
# Rounding half to even

`RoundsTo x z` says that the integer `z` is nearest to `x` and, when two integers
are equally near, the even one of them.  Larger numbers round to larger integers
(`RoundsTo.mono`), and an integer rounds to itself (`roundsTo_intCast`); so what
lies between two integers rounds to an integer between them.

Even integers are where a tie is rounded to from both sides, so that a rounded
number is below one of them exactly if the number is below it by more than one
half (`RoundsTo.lt_iff_of_even`).
-/

namespace CacheAction

universe u

variable {α : Type u} [Field α] [LinearOrder α] [IsStrictOrderedRing α]

/-- The integer `z` is nearest to `x`, and even if it is not the only one. -/
structure RoundsTo (x : α) (z : ℤ) : Prop where
  near : |x - z| ≤ 1 / 2
  even_of_tie : |x - z| = 1 / 2 → Even z

namespace RoundsTo

variable {x y : α} {z w : ℤ}

theorem sub_half_le (rounds : RoundsTo x z) : (z : α) - 1 / 2 ≤ x := by
  have := (abs_le.mp rounds.near).1
  linarith

theorem le_add_half (rounds : RoundsTo x z) : x ≤ z + 1 / 2 := by
  have := (abs_le.mp rounds.near).2
  linarith

/-- **Rounding is monotone.**  If it were not, both numbers would be half-way
between two integers, and the two integers would be even. -/
theorem mono (hx : RoundsTo x z) (hy : RoundsTo y w) (le : x ≤ y) : z ≤ w := by
  by_contra above
  have next : w + 1 ≤ z := Int.lt_of_not_ge above
  have cast : (w : α) + 1 ≤ z := by exact_mod_cast next
  have low := hx.sub_half_le
  have high := hy.le_add_half
  have hz : (z : α) = w + 1 := by linarith
  have tie_x : x - z = -(1 / 2) := by linarith
  have tie_y : y - w = 1 / 2 := by linarith
  have half : (0 : α) ≤ 1 / 2 := by positivity
  have even_z : Even z := by
    apply hx.even_of_tie
    rw [tie_x, abs_neg, abs_of_nonneg half]
  have even_w : Even w := by
    apply hy.even_of_tie
    rw [tie_y, abs_of_nonneg half]
  have consecutive : z = w + 1 := by exact_mod_cast hz
  rw [consecutive, Int.even_add_one] at even_z
  exact even_z even_w

end RoundsTo

/-! ## Integers and fractions -/

section Fractions

variable {z : ℤ} {fraction : α}

/-- A fraction of less than one half is dropped. -/
theorem roundsTo_add (nonneg : 0 ≤ fraction) (small : fraction < 1 / 2) :
    RoundsTo (z + fraction) z where
  near := by
    rw [add_sub_cancel_left, abs_of_nonneg nonneg]
    exact small.le
  even_of_tie tie := by
    rw [add_sub_cancel_left, abs_of_nonneg nonneg] at tie
    exact absurd tie small.ne

/-- A fraction of more than one half is rounded up. -/
theorem roundsTo_add_one (large : 1 / 2 < fraction) (le_one : fraction ≤ 1) :
    RoundsTo (z + fraction) (z + 1) := by
  have distance : |(z + fraction : α) - ((z + 1 : ℤ) : α)| = 1 - fraction := by
    rw [Int.cast_add, Int.cast_one, add_sub_add_left_eq_sub, abs_sub_comm,
      abs_of_nonneg (sub_nonneg.mpr le_one)]
  refine ⟨?_, fun tie => ?_⟩
  · rw [distance]
    linarith
  · rw [distance] at tie
    linarith

/-- One half is dropped after an even integer. -/
theorem roundsTo_add_half (even : Even z) : RoundsTo ((z : α) + 1 / 2) z where
  near := by
    rw [add_sub_cancel_left, abs_of_nonneg (by positivity)]
  even_of_tie _ := even

/-- What is half-way below an even integer rounds to it. -/
theorem roundsTo_sub_half (even : Even z) : RoundsTo ((z : α) - 1 / 2) z where
  near := by
    rw [sub_sub_cancel_left, abs_neg, abs_of_nonneg (by positivity)]
  even_of_tie _ := even

/-- An integer rounds to itself. -/
theorem roundsTo_intCast (z : ℤ) : RoundsTo (z : α) z := by
  have half : (0 : α) < 1 / 2 := by positivity
  simpa using roundsTo_add (z := z) le_rfl half

end Fractions

/-! ## Bounds -/

namespace RoundsTo

variable {x : α} {z w : ℤ}

theorem le_of_le (rounds : RoundsTo x z) (le : x ≤ w) : z ≤ w :=
  rounds.mono (roundsTo_intCast w) le

theorem ge_of_ge (rounds : RoundsTo x z) (ge : (w : α) ≤ x) : w ≤ z :=
  (roundsTo_intCast w).mono rounds ge

/-- A number rounds below an even integer exactly if it is smaller by more than one
half. -/
theorem lt_iff_of_even (rounds : RoundsTo x z) (even : Even w) : z < w ↔ x < w - 1 / 2 := by
  constructor
  · intro below
    by_contra above
    have reached : w ≤ z := (roundsTo_sub_half even).mono rounds (not_lt.mp above)
    exact absurd below (not_lt.mpr reached)
  · intro below
    by_contra above
    have cast : (w : α) ≤ z := by exact_mod_cast not_lt.mp above
    have := rounds.sub_half_le
    linarith

end RoundsTo

end CacheAction
