import Orvex.Foundation.Doubles

/-!
# The delay before another attempt

The delay doubles with each attempt up to two seconds.  It is a product of
floats, so the power of two is converted to a float first, which fails from
the attempt with number 1024 on.
-/

namespace Orvex
namespace Backoff

/-- The float `0.2`. -/
def twoTenths : ℚ := 3602879701896397 / 2 ^ 54

/-- `min(2**attempt * 0.2, 2.0)`; `none` is the `OverflowError` of the
conversion of `2**attempt`.  The product by a power of two is exact. -/
def delay (attempt : ℕ) : Option ℚ :=
  (Doubles.nearest (2 ^ attempt)).map fun factor =>
    min (factor * twoTenths) 2

/-- There is no delay after this attempt. -/
def overflows (attempt : ℕ) : Bool := (delay attempt).isNone

@[simp] theorem overflows_iff {attempt : ℕ} :
    overflows attempt = true ↔ 1024 ≤ attempt := by
  unfold overflows delay
  rw [Doubles.nearest_two_pow]
  by_cases h : 1024 ≤ attempt
  · simp [h]
  · simp [h]

end Backoff
end Orvex
