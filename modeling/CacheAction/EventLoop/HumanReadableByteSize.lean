import CacheAction.EventLoop.StopProgressReporter
import CacheAction.Foundations.Decimal
import CacheAction.Foundations.Rounding
import Mathlib.Data.Nat.Log
import Mathlib.Tactic.IntervalCases
import Mathlib.Tactic.NormNum

/-!
# Byte sizes in the right unit

The final report prints the number of bytes that have been pushed with a binary
unit.  Here its text is read again (`readSize`), and what it says is compared
with the number of bytes.

The loop of `HumanReadableByteSize::fmt` finds a logarithm (`unitIdx_eq_log`), so
that the value is at least 1 and, except for the last unit, less than 1024.  It
is rounded to one decimal place only after that (`tenths_roundsTo`).  The result
is as close as it can be and never decreases (`printedBytes_le`); but what is
within the last twentieth of a unit before the next one is printed as `1024.0`
of the smaller unit.  `prints_right_iff` says that this is all that can go wrong.
-/

namespace CacheAction

namespace EventLoop

/-! ## Rounding -/

/-- A quotient is rounded half to even. -/
theorem roundDiv_roundsTo (a : ℕ) {b : ℕ} (positive : 0 < b) :
    RoundsTo ((a : ℚ) / b) (roundDiv a b : ℤ) := by
  have hb : (0 : ℚ) < b := by exact_mod_cast positive
  have whole : (a : ℚ) = b * (a / b : ℕ) + (a % b : ℕ) := by
    exact_mod_cast (Nat.div_add_mod a b).symm
  have split : (a : ℚ) / b = ((a / b : ℕ) : ℤ) + ((a % b : ℕ) : ℚ) / b := by
    rw [Int.cast_natCast, div_eq_iff hb.ne', add_mul, div_mul_cancel₀ _ hb.ne', mul_comm]
    exact whole
  have below : ((a % b : ℕ) : ℚ) < b := by exact_mod_cast Nat.mod_lt a positive
  have half (le : b ≤ 2 * (a % b)) (ge : 2 * (a % b) ≤ b) : ((a % b : ℕ) : ℚ) / b = 1 / 2 := by
    have tie : 2 * ((a % b : ℕ) : ℚ) = b := by exact_mod_cast Nat.le_antisymm ge le
    rw [div_eq_div_iff hb.ne' two_ne_zero]
    linarith
  rw [split]
  unfold roundDiv
  dsimp only
  split_ifs with small large even
  · have : 2 * ((a % b : ℕ) : ℚ) < b := by exact_mod_cast small
    refine roundsTo_add (by positivity) ?_
    rw [div_lt_iff₀ hb]
    linarith
  · have : (b : ℚ) < 2 * (a % b : ℕ) := by exact_mod_cast large
    refine roundsTo_add_one ?_ ?_
    · rw [lt_div_iff₀ hb]
      linarith
    · rw [div_le_one hb]
      exact below.le
  -- exactly half way: to the even neighbour
  · rw [half (Nat.le_of_not_lt small) (Nat.le_of_not_lt large)]
    exact roundsTo_add_half ((Int.even_coe_nat _).mpr (Nat.even_iff.mpr even))
  · rw [half (Nat.le_of_not_lt small) (Nat.le_of_not_lt large)]
    have next : Even ((a / b + 1 : ℕ) : ℤ) := by
      rw [Int.even_coe_nat, Nat.even_add_one, Nat.even_iff]
      exact even
    have same : (((a / b : ℕ) : ℤ) : ℚ) + 1 / 2 = (((a / b + 1 : ℕ) : ℤ) : ℚ) - 1 / 2 := by
      push_cast
      linarith
    rw [same]
    exact roundsTo_sub_half next

/-- A number of at most 53 bits is a float. -/
theorem toF64_of_lt {n : ℕ} (fits : n < 2 ^ 53) : toF64 n = n := by
  have digits : n.log2 ≤ 52 := by
    rcases Nat.eq_zero_or_pos n with rfl | positive
    · decide
    · exact Nat.le_of_lt_succ ((Nat.log2_lt positive.ne').mpr fits)
  rw [toF64, Nat.sub_eq_zero_of_le digits]
  simp [roundDiv, Nat.mod_one]

namespace HumanReadableByteSize

/-! ## The unit -/

theorem next_unit_iff (num k : ℕ) : 1024 * 1024 ^ k ≤ num ↔ k + 1 ≤ Nat.log 1024 num := by
  rcases Nat.eq_zero_or_pos num with rfl | positive
  · simp
  · rw [Nat.le_log_iff_pow_le (by decide) positive.ne', Nat.pow_succ, Nat.mul_comm]

/-- The loop stops at the logarithm, or when no unit is left. -/
theorem scaleLoop_eq_log (num remaining unitIdx : ℕ) :
    scaleLoop num remaining unitIdx =
      min (unitIdx + remaining) (max unitIdx (Nat.log 1024 num)) := by
  induction remaining generalizing unitIdx with
  | zero =>
      rw [scaleLoop]
      omega
  | succ remaining ih =>
      rw [scaleLoop]
      split
      · rename_i larger
        have := (next_unit_iff num unitIdx).mp larger
        rw [ih]
        omega
      · rename_i last
        have := (next_unit_iff num unitIdx).not.mp last
        omega

theorem unitIdx_eq_log (numBytes : ℕ) :
    unitIdx numBytes = min 5 (Nat.log 1024 (toF64 numBytes)) := by
  have units_left : units.length - 1 = 5 := rfl
  rw [unitIdx, scaleLoop_eq_log, units_left]
  omega

section Unit

variable {fewer numBytes : ℕ}

/-- The value is at least 1, once it has been scaled. -/
theorem pow_unitIdx_le (fits : numBytes < 2 ^ 53) (scaled : 1 ≤ unitIdx numBytes) :
    1024 ^ unitIdx numBytes ≤ numBytes := by
  rw [unitIdx_eq_log, toF64_of_lt fits] at scaled ⊢
  have positive : numBytes ≠ 0 := by
    rintro rfl
    simp at scaled
  exact (Nat.le_log_iff_pow_le (by decide) positive).mp (Nat.min_le_right _ _)

/-- It is less than 1024, except with the last unit. -/
theorem lt_pow_unitIdx (fits : numBytes < 2 ^ 53) (more : unitIdx numBytes < 5) :
    numBytes < 1024 ^ (unitIdx numBytes + 1) := by
  rw [unitIdx_eq_log, toF64_of_lt fits] at more ⊢
  have log : min 5 (Nat.log 1024 numBytes) = Nat.log 1024 numBytes := by omega
  rw [log]
  exact Nat.lt_pow_succ_log_self (by decide) numBytes

theorem lt_of_unscaled (fits : numBytes < 2 ^ 53) (unscaled : unitIdx numBytes = 0) :
    numBytes < 1024 := by
  have := lt_pow_unitIdx fits (by omega)
  rwa [unscaled] at this

/-- A larger number of bytes is not printed with a smaller unit. -/
theorem unitIdx_mono (fits : numBytes < 2 ^ 53) (le : fewer ≤ numBytes) :
    unitIdx fewer ≤ unitIdx numBytes := by
  rw [unitIdx_eq_log, unitIdx_eq_log, toF64_of_lt fits, toF64_of_lt (le.trans_lt fits)]
  exact min_le_min_left 5 (Nat.log_mono_right le)

/-- The unit is not larger than the number. -/
theorem unitIdx_le_of_lt (fits : numBytes < 2 ^ 53) {idx : ℕ} (small : numBytes < 1024 ^ (idx + 1)) :
    unitIdx numBytes ≤ idx := by
  by_contra larger
  have scaled : 1 ≤ unitIdx numBytes := by omega
  have reached : 1024 ^ unitIdx numBytes < 1024 ^ (idx + 1) :=
    (pow_unitIdx_le fits scaled).trans_lt small
  have := (Nat.pow_lt_pow_iff_right (show 1 < 1024 by decide)).mp reached
  omega

/-- Any unit between the one that is used and the last one is far from full. -/
theorem far_of_larger_unit (fits : numBytes < 2 ^ 53) {idx : ℕ} (smaller : unitIdx numBytes < idx)
    (more : idx < 5) : (numBytes : ℚ) < 1023.95 * 1024 ^ idx := by
  have unit : (0 : ℚ) < 1024 ^ idx := by positivity
  have below : numBytes < 1024 ^ idx :=
    (lt_pow_unitIdx fits (smaller.trans more)).trans_le (Nat.pow_le_pow_right (by decide) smaller)
  have cast : (numBytes : ℚ) < 1024 ^ idx := by exact_mod_cast below
  linarith

/-- The tenths are those of the value, rounded. -/
theorem tenths_roundsTo (fits : numBytes < 2 ^ 53) :
    RoundsTo (10 * numBytes / 1024 ^ unitIdx numBytes : ℚ) (tenths numBytes : ℤ) := by
  have rounds := roundDiv_roundsTo (10 * numBytes)
    (Nat.pow_pos (n := unitIdx numBytes) (show 0 < 1024 by decide))
  rw [tenths, toF64_of_lt fits]
  exact_mod_cast rounds

end Unit

/-! ## The text -/

/-- What a text says: a number, and the index of its unit. -/
def readSize (text : String) : Option (ℚ × ℕ) := do
  let value ← readDecimal (text.toList.takeWhile (· != ' '))
  let idx ← units.findIdx? fun unit => ' ' :: unit.toList == text.toList.dropWhile (· != ' ')
  return (value, idx)

example : readSize "41.7 KiB" = some (41.7, 1) := by decide +kernel

/-- The number that is printed. -/
def printedValue (numBytes : ℕ) : ℚ :=
  if unitIdx numBytes = 0 then numBytes else (tenths numBytes : ℚ) / 10

/-- A number and a unit are read back. -/
theorem readSize_append {number : List Char} {value : ℚ} {text : String}
    (reads : readDecimal number = some value) (spaceless : ' ' ∉ number) (idx : Fin units.length)
    (said : text.toList = number ++ ' ' :: (units.get idx).toList) :
    readSize text = some (value, idx.val) := by
  obtain ⟨first, rest⟩ := cut_append spaceless (units.get idx).toList
  -- no two units are the same
  have found : ∀ idx : Fin units.length,
      units.findIdx? (fun unit => ' ' :: unit.toList == ' ' :: (units.get idx).toList) =
        some idx.val := by
    decide +kernel
  simp only [readSize, said, first, rest, reads, found, Option.bind_eq_bind, Option.bind_some]
  rfl

/-- **The text says the number and its unit.** -/
theorem readSize_display (numBytes : ℕ) :
    readSize (display numBytes) = some (printedValue numBytes, unitIdx numBytes) := by
  have digits : ∀ n, ' ' ∉ Nat.toDigits 10 n := notMem_toDigits rfl
  unfold display printedValue
  dsimp only
  split
  · refine readSize_append (readDecimal_toDigits numBytes) (digits numBytes)
      ⟨unitIdx numBytes, unitIdx_lt numBytes⟩ ?_
    simp
  · have reads := readDecimal_point (tenths numBytes / 10) (tenths numBytes % 10)
    have place : (Nat.toDigits 10 (tenths numBytes % 10)).length = 1 := by
      rw [Nat.toDigits_of_lt_base (Nat.mod_lt _ (by decide)), List.length_singleton]
    have value : ((tenths numBytes / 10 : ℕ) : ℚ) + ((tenths numBytes % 10 : ℕ) : ℚ) / 10 =
        (tenths numBytes : ℚ) / 10 := by
      have parts : (10 * (tenths numBytes / 10 : ℕ) + (tenths numBytes % 10 : ℕ) : ℚ) =
          tenths numBytes := by
        exact_mod_cast Nat.div_add_mod (tenths numBytes) 10
      linarith
    rw [place, pow_one, value] at reads
    refine readSize_append reads ?_ ⟨unitIdx numBytes, unitIdx_lt numBytes⟩ ?_
    · simp [digits]
    · simp

theorem eq_of_readSize {numBytes : ℕ} {said : ℚ × ℕ}
    (read : readSize (display numBytes) = some said) :
    said = (printedValue numBytes, unitIdx numBytes) :=
  Option.some.inj (read.symm.trans (readSize_display numBytes))

/-! ## The size that is printed -/

/-- The number of bytes that a text speaks of. -/
def printedBytes (said : ℚ × ℕ) : ℚ := said.1 * 1024 ^ said.2

/-- What is expected of the number and the unit that are printed for `numBytes`. -/
structure InRightUnit (numBytes : ℕ) (said : ℚ × ℕ) : Prop where
  /-- Bytes are counted exactly. -/
  whole : said.2 = 0 → said.1 = numBytes
  /-- The number is rounded to one decimal place. -/
  close : 1 ≤ said.2 → |printedBytes said - numBytes| ≤ 0.05 * 1024 ^ said.2
  one_le : 1 ≤ said.2 → 1 ≤ said.1
  /-- There is no larger unit that the number could be printed with. -/
  below : said.2 + 1 < units.length → said.1 < 1024

/-- What is expected of the text for `numBytes`. -/
structure PrintsRight (numBytes : ℕ) : Prop where
  readable : ∃ said, readSize (display numBytes) = some said ∧ InRightUnit numBytes said
  /-- No smaller number of bytes is printed as a larger size. -/
  monotone : ∀ fewer ≤ numBytes, ∀ less ∈ readSize (display fewer),
    ∀ said ∈ readSize (display numBytes), printedBytes less ≤ printedBytes said

section Value

variable {fewer numBytes : ℕ}

theorem value_of_unscaled (unscaled : unitIdx numBytes = 0) :
    printedValue numBytes = numBytes := if_pos unscaled

theorem value_of_scaled (scaled : 1 ≤ unitIdx numBytes) :
    printedValue numBytes = (tenths numBytes : ℚ) / 10 := if_neg (by omega)

/-- Once the value has been scaled, the number is at least 1. -/
theorem one_le_printedValue (fits : numBytes < 2 ^ 53) (scaled : 1 ≤ unitIdx numBytes) :
    1 ≤ printedValue numBytes := by
  have unit : (0 : ℚ) < 1024 ^ unitIdx numBytes := by positivity
  have large : (1024 : ℚ) ^ unitIdx numBytes ≤ numBytes := by
    exact_mod_cast pow_unitIdx_le fits scaled
  have ten : (10 : ℤ) ≤ tenths numBytes := by
    refine (tenths_roundsTo fits).ge_of_ge ?_
    rw [le_div_iff₀ unit]
    push_cast
    linarith
  have cast : (10 : ℚ) ≤ tenths numBytes := by exact_mod_cast ten
  rw [value_of_scaled scaled]
  linarith

/-- With a larger unit left, the number is at most 1024. -/
theorem printedValue_le (fits : numBytes < 2 ^ 53) (more : unitIdx numBytes < 5) :
    printedValue numBytes ≤ 1024 := by
  rcases Nat.eq_zero_or_pos (unitIdx numBytes) with unscaled | scaled
  · rw [value_of_unscaled unscaled]
    exact_mod_cast (lt_of_unscaled fits unscaled).le
  · have small : (numBytes : ℚ) < 1024 ^ (unitIdx numBytes + 1) := by
      exact_mod_cast lt_pow_unitIdx fits more
    have unit : (0 : ℚ) < 1024 ^ unitIdx numBytes := by positivity
    have le : (tenths numBytes : ℤ) ≤ 10240 := by
      refine (tenths_roundsTo fits).le_of_le ?_
      rw [div_le_iff₀ unit]
      rw [pow_succ] at small
      push_cast
      linarith
    have cast : (tenths numBytes : ℚ) ≤ 10240 := by exact_mod_cast le
    rw [value_of_scaled scaled]
    linarith

/-- It is below 1024 exactly if the number of bytes is not within the last
twentieth of a unit. -/
theorem printedValue_lt_iff (fits : numBytes < 2 ^ 53) (scaled : 1 ≤ unitIdx numBytes) :
    printedValue numBytes < 1024 ↔ (numBytes : ℚ) < 1023.95 * 1024 ^ unitIdx numBytes := by
  have unit : (0 : ℚ) < 1024 ^ unitIdx numBytes := by positivity
  have rounded := (tenths_roundsTo fits).lt_iff_of_even (w := 10240) (by decide)
  have cast : (tenths numBytes : ℚ) < 10240 ↔ (tenths numBytes : ℤ) < 10240 := by
    norm_cast
  calc printedValue numBytes < 1024
      ↔ (tenths numBytes : ℚ) < 10240 := by
        rw [value_of_scaled scaled, div_lt_iff₀ (by norm_num)]
        norm_num
    _ ↔ (10 * numBytes / 1024 ^ unitIdx numBytes : ℚ) < (10240 : ℤ) - 1 / 2 := cast.trans rounded
    _ ↔ (numBytes : ℚ) < 1023.95 * 1024 ^ unitIdx numBytes := by
        rw [div_lt_iff₀ unit]
        push_cast
        constructor <;> intro less <;> linarith

/-- The number is rounded to one decimal place. -/
theorem printedBytes_close (fits : numBytes < 2 ^ 53) (scaled : 1 ≤ unitIdx numBytes) :
    |printedBytes (printedValue numBytes, unitIdx numBytes) - numBytes| ≤
      0.05 * 1024 ^ unitIdx numBytes := by
  have unit : (0 : ℚ) < 1024 ^ unitIdx numBytes := by positivity
  have low := (tenths_roundsTo fits).sub_half_le
  have high := (tenths_roundsTo fits).le_add_half
  rw [le_div_iff₀ unit] at low
  rw [div_le_iff₀ unit] at high
  push_cast at low high
  rw [printedBytes, value_of_scaled scaled, abs_le]
  constructor <;> linarith

/-- **Printed sizes do not decrease.**  Within a unit rounding is monotone, and what
is printed with a smaller unit is at most one of the next unit. -/
theorem printedBytes_le (fits : numBytes < 2 ^ 53) (le : fewer ≤ numBytes) :
    printedBytes (printedValue fewer, unitIdx fewer) ≤
      printedBytes (printedValue numBytes, unitIdx numBytes) := by
  have fits' : fewer < 2 ^ 53 := le.trans_lt fits
  have cast : (fewer : ℚ) ≤ numBytes := by exact_mod_cast le
  unfold printedBytes
  dsimp only
  rcases (unitIdx_mono fits le).lt_or_eq with smaller | same
  · have last := unitIdx_lt numBytes
    have more : unitIdx fewer < 5 := lt_of_lt_of_le smaller (Nat.le_of_lt_succ last)
    calc printedValue fewer * 1024 ^ unitIdx fewer
        ≤ 1024 * 1024 ^ unitIdx fewer :=
          mul_le_mul_of_nonneg_right (printedValue_le fits' more) (by positivity)
      _ = 1024 ^ (unitIdx fewer + 1) := (pow_succ' _ _).symm
      _ ≤ 1024 ^ unitIdx numBytes := pow_le_pow_right₀ (by norm_num) smaller
      _ = 1 * 1024 ^ unitIdx numBytes := (one_mul _).symm
      _ ≤ printedValue numBytes * 1024 ^ unitIdx numBytes :=
          mul_le_mul_of_nonneg_right (one_le_printedValue fits (Nat.one_le_of_lt smaller))
            (by positivity)
  · -- the same unit: the numbers themselves are compared
    rw [same]
    refine mul_le_mul_of_nonneg_right ?_ (by positivity)
    rcases Nat.eq_zero_or_pos (unitIdx numBytes) with unscaled | scaled
    · rw [value_of_unscaled unscaled, value_of_unscaled (same.trans unscaled)]
      exact cast
    · have unit : (0 : ℚ) < 1024 ^ unitIdx numBytes := by positivity
      have rounds := tenths_roundsTo fits'
      rw [same] at rounds
      have tenths_le : (tenths fewer : ℤ) ≤ tenths numBytes := by
        refine rounds.mono (tenths_roundsTo fits) ?_
        rw [div_le_div_iff_of_pos_right unit]
        linarith
      have tenths_cast : (tenths fewer : ℚ) ≤ tenths numBytes := by exact_mod_cast tenths_le
      rw [value_of_scaled scaled, value_of_scaled (same ▸ scaled)]
      linarith

/-! ## The right unit -/

/-- Everything but the last condition holds for any number of bytes. -/
theorem inRightUnit_iff (fits : numBytes < 2 ^ 53) :
    InRightUnit numBytes (printedValue numBytes, unitIdx numBytes) ↔
      (unitIdx numBytes + 1 < units.length → printedValue numBytes < 1024) := by
  have whole (unscaled : unitIdx numBytes = 0) := value_of_unscaled unscaled
  have close := printedBytes_close fits
  have one_le := one_le_printedValue fits
  generalize printedValue numBytes = value at *
  generalize unitIdx numBytes = idx at *
  constructor
  · intro unit
    exact unit.below
  · intro below
    exact ⟨whole, close, one_le, below⟩

/-- **The text is right unless the size is rounded up to the next unit.**

The unit is chosen before the value is rounded, so a size just below a power of 1024 is
printed as 1024.0 of the smaller unit.  A size is in danger exactly from `1023.95` units on,
where the rounding to one decimal reaches the power; the sizes below `2 ^ 53` are those
that a double holds exactly, so that no other rounding interferes. -/
theorem prints_right_iff (fits : numBytes < 2 ^ 53) :
    PrintsRight numBytes ↔
      ∀ idx, 1 ≤ idx → idx + 1 < units.length → numBytes < 1024 ^ (idx + 1) →
        (numBytes : ℚ) < 1023.95 * 1024 ^ idx := by
  constructor
  · intro right idx positive more small
    have hmore : idx < 5 := Nat.lt_of_succ_lt_succ more
    obtain ⟨said, read, unit⟩ := right.readable
    obtain rfl := eq_of_readSize read
    have below := (inRightUnit_iff fits).mp unit
    rcases (unitIdx_le_of_lt fits small).lt_or_eq with smaller | rfl
    · exact far_of_larger_unit fits smaller hmore
    · exact (printedValue_lt_iff fits positive).mp (below more)
  · intro far
    refine ⟨⟨_, readSize_display numBytes, (inRightUnit_iff fits).mpr ?_⟩, ?_⟩
    · intro more
      rcases Nat.eq_zero_or_pos (unitIdx numBytes) with unscaled | scaled
      · rw [value_of_unscaled unscaled]
        exact_mod_cast lt_of_unscaled fits unscaled
      · have small := lt_pow_unitIdx fits (Nat.lt_of_succ_lt_succ more)
        exact (printedValue_lt_iff fits scaled).mpr (far _ scaled more small)
    · intro fewer le less isLess said isSaid
      obtain rfl := eq_of_readSize isLess
      obtain rfl := eq_of_readSize isSaid
      exact printedBytes_le fits le

end Value

/-- One and a half mebibytes. -/
theorem prints_right_mebibytes : PrintsRight (3 * 2 ^ 19) := by
  refine (prints_right_iff (by decide)).mpr fun idx positive more small => ?_
  have last : idx < 5 := Nat.lt_of_succ_lt_succ more
  interval_cases idx
  · exact absurd small (by decide)
  all_goals norm_num

/-- One byte less than a mebibyte is printed as 1024 kibibytes. -/
theorem mebibyte_in_kibibytes :
    2 ^ 20 - 1 < 2 ^ 53 ∧ display (2 ^ 20 - 1) = "1024.0 KiB" ∧ ¬ PrintsRight (2 ^ 20 - 1) := by
  refine ⟨by decide, by decide +kernel, fun right => ?_⟩
  obtain ⟨said, read, unit⟩ := right.readable
  have kibibytes : readSize (display (2 ^ 20 - 1)) = some (1024, 1) := by decide +kernel
  obtain rfl := Option.some.inj (kibibytes.symm.trans read)
  exact absurd (unit.below (by decide)) (by norm_num)

end HumanReadableByteSize

end EventLoop

end CacheAction
