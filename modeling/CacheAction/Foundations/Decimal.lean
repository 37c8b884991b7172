import Mathlib.Data.List.TakeWhile
import Mathlib.Data.Rat.Defs

/-!
# Decimal numbers as texts

`readDecimal` gives the value of a text such as `41` or `41.7`: digits, possibly
followed by a point and more digits.  It reads back what `Nat.toDigits` writes,
on both sides of the point (`readDecimal_toDigits`, `readDecimal_point`).
-/

namespace CacheAction

/-- The value of a sequence of digits. -/
def readDigits (cs : List Char) : Option ℕ :=
  if cs ≠ [] ∧ cs.all Char.isDigit then some (Nat.ofDigitChars 10 cs 0) else none

/-- The value of a decimal number, with or without a point. -/
def readDecimal (cs : List Char) : Option ℚ := do
  let whole ← readDigits (cs.takeWhile (· != '.'))
  match cs.dropWhile (· != '.') with
  | [] => return whole
  | _ :: digits =>
      let fraction ← readDigits digits
      return (whole : ℚ) + (fraction : ℚ) / 10 ^ digits.length

section Separators

variable {sep : Char} {xs : List Char}

/-- What precedes a separator, and what follows it. -/
theorem cut_append (absent : sep ∉ xs) (ys : List Char) :
    (xs ++ sep :: ys).takeWhile (· != sep) = xs ∧
      (xs ++ sep :: ys).dropWhile (· != sep) = sep :: ys := by
  have before : ∀ c ∈ xs, (c != sep) = true := by
    intro c member
    simpa using ne_of_mem_of_not_mem member absent
  rw [List.takeWhile_append_of_pos before, List.dropWhile_append_of_pos before]
  simp

theorem cut_eq_self (absent : sep ∉ xs) :
    xs.takeWhile (· != sep) = xs ∧ xs.dropWhile (· != sep) = [] := by
  have before : ∀ c ∈ xs, (c != sep) = true := by
    intro c member
    simpa using ne_of_mem_of_not_mem member absent
  exact ⟨List.takeWhile_eq_self_iff.mpr before, List.dropWhile_eq_nil_iff.mpr before⟩

end Separators

theorem isDigit_of_mem_toDigits {n : ℕ} {c : Char} (member : c ∈ Nat.toDigits 10 n) :
    c.isDigit = true :=
  Nat.isDigit_of_mem_toDigits (by decide) (by decide) member

/-- What is not a digit is not among the digits of a number. -/
theorem notMem_toDigits {c : Char} (other : c.isDigit = false) (n : ℕ) :
    c ∉ Nat.toDigits 10 n := by
  intro member
  rw [isDigit_of_mem_toDigits member] at other
  contradiction

theorem readDigits_toDigits (n : ℕ) : readDigits (Nat.toDigits 10 n) = some n := by
  have digits : (Nat.toDigits 10 n).all Char.isDigit = true :=
    List.all_eq_true.mpr fun _ member => isDigit_of_mem_toDigits member
  rw [readDigits, if_pos ⟨Nat.toDigits_ne_nil, digits⟩, Nat.ofDigitChars_ten_toDigits]

/-- A whole number is read back. -/
theorem readDecimal_toDigits (n : ℕ) : readDecimal (Nat.toDigits 10 n) = some (n : ℚ) := by
  obtain ⟨whole, rest⟩ := cut_eq_self (notMem_toDigits (c := '.') rfl n)
  simp [readDecimal, whole, rest, readDigits_toDigits]

/-- Two numbers with a point between them are read back: the digits of the second
one are the decimal places. -/
theorem readDecimal_point (n m : ℕ) :
    readDecimal (Nat.toDigits 10 n ++ '.' :: Nat.toDigits 10 m) =
      some ((n : ℚ) + (m : ℚ) / 10 ^ (Nat.toDigits 10 m).length) := by
  obtain ⟨whole, rest⟩ := cut_append (notMem_toDigits (c := '.') rfl n) (Nat.toDigits 10 m)
  simp [readDecimal, whole, rest, readDigits_toDigits]

end CacheAction
