import Mathlib.Algebra.Order.Ring.Int
import Mathlib.Data.Int.Notation

/-!
# Integers of 32 bits that wrap around

`wrap32 x` is what an `int` holds of the integer `x`.  Between two wraps lies a `period` of `2 ^ 32`
integers, the one of zero being the range of `int` itself.

* `wrap32_wrap32_add`: what is added up with a wrap at each step is the wrapped sum.
* `wrap32_eq_self_iff`, `wrap32_le`: how the wrapped value of a count differs from the count.
* `wrap32_le_iff`: what is left of the order.
-/

namespace Wrap32

/-- The value that an `int` takes from a wider computation. -/
def wrap32 (x : ℤ) : ℤ := x.bmod (2 ^ 32)

/-- What an `int` can hold. -/
def IsInt (x : ℤ) : Prop := -2 ^ 31 ≤ x ∧ x < 2 ^ 31

/-- The periods of `2 ^ 32` integers between two wraps, numbered. -/
def period (x : ℤ) : ℤ := (x + 2 ^ 31) / 2 ^ 32

variable {x y : ℤ}

theorem isInt_wrap32 (x : ℤ) : IsInt (wrap32 x) := by
  have hlow := Int.le_bmod (x := x) (m := 2 ^ 32) (by decide)
  have hhigh := Int.bmod_lt (x := x) (m := 2 ^ 32) (by decide)
  unfold IsInt wrap32
  omega

theorem wrap32_eq (x : ℤ) : wrap32 x = x - 2 ^ 32 * period x := by
  have hint := isInt_wrap32 x
  unfold IsInt at hint
  have hdvd : (2 ^ 32 : ℤ) ∣ x - wrap32 x := by
    have h := Int.dvd_self_sub_bmod (x := x) (m := 2 ^ 32)
    exact h
  obtain ⟨q, hq⟩ := hdvd
  unfold period
  omega

theorem wrap32_of_isInt (h : IsInt x) : wrap32 x = x := by
  obtain ⟨hlow, hhigh⟩ := h
  apply Int.bmod_eq_of_le <;> omega

/-- The sum of a wrapped value and another one. -/
theorem wrap32_wrap32_add (x y : ℤ) : wrap32 (wrap32 x + y) = wrap32 (x + y) := Int.bmod_add_bmod

theorem wrap32_wrap32_sub (x y : ℤ) : wrap32 (wrap32 x - y) = wrap32 (x - y) :=
  wrap32_wrap32_add x (-y)

/-! ### Counts -/

/-- A count is right iff it fits. -/
theorem wrap32_eq_self_iff (n : ℕ) : wrap32 n = n ↔ n < 2 ^ 31 := by
  rw [wrap32_eq]
  unfold period
  omega

/-- A count that does not fit comes out too small. -/
theorem wrap32_le (n : ℕ) : wrap32 n ≤ n := by
  rw [wrap32_eq]
  unfold period
  omega

/-! ### Order -/

/-- Two values less than half a period apart are compared right by what is left of them iff they lie in
the same period. -/
theorem wrap32_le_iff (hlow : -2 ^ 31 < y - x) (hhigh : y - x < 2 ^ 31) :
    (wrap32 x ≤ wrap32 y ↔ x ≤ y) ↔ period x = period y := by
  rw [wrap32_eq, wrap32_eq]
  unfold period
  omega

end Wrap32
