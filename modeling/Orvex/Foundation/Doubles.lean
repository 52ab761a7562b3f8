import Orvex.Foundation.DecimalArithmetic

/-!
# Double precision

A number is read as the nearest double, and a double is written with the
fewest digits that are read as the same double.
-/

namespace Doubles

open DecimalArithmetic (Number dropZeros width)
open SignificantDigits

/-- The power of two that the last bit of a double near the number counts. -/
def lastBit (x : ℚ) : ℤ := max (Int.log 2 x - 52) (-1074)

/-- The double nearest to a number that is not negative; `none` is infinity. -/
def nearest (x : ℚ) : Option ℚ :=
  let y := (halfEven (x / 2 ^ lastBit x) : ℚ) * 2 ^ lastBit x
  if 2 ^ 1024 ≤ y then none else some y

theorem lastBit_two_pow (k : ℕ) : lastBit (2 ^ k) = (k : ℤ) - 52 := by
  have hlog : Int.log 2 ((2 : ℚ) ^ k) = k := by
    have h := Int.log_zpow (R := ℚ) (b := 2) (by norm_num) (k : ℤ)
    rw [zpow_natCast] at h
    exact_mod_cast h
  rw [lastBit, hlog]
  omega

/-- A power of two is a double exactly when it is less than two to the
1024. -/
theorem nearest_two_pow (k : ℕ) :
    nearest (2 ^ k) = if 1024 ≤ k then none else some (2 ^ k) := by
  have htwo : (2 : ℚ) ≠ 0 := by norm_num
  have hscaled : (2 : ℚ) ^ k / 2 ^ ((k : ℤ) - 52) = ((2 ^ 52 : ℤ) : ℚ) := by
    rw [zpow_sub₀ htwo, zpow_natCast]
    have hpos : (2 : ℚ) ^ k ≠ 0 := pow_ne_zero k htwo
    field_simp
    norm_num
  have hback : ((2 ^ 52 : ℤ) : ℚ) * 2 ^ ((k : ℤ) - 52) = 2 ^ k := by
    rw [← hscaled, div_mul_cancel₀ _ (zpow_ne_zero _ htwo)]
  have hlimit : (2 : ℚ) ^ 1024 ≤ 2 ^ k ↔ 1024 ≤ k :=
    pow_le_pow_iff_right₀ (by norm_num)
  simp only [nearest, lastBit_two_pow, hscaled, halfEven_intCast, hback,
    hlimit]

/-- The two coefficients of so many digits next to a double, the nearest one
first. -/
def neighbours (p : ℕ) (y : ℚ) : List ℤ :=
  let m := halfEven (y / 10 ^ lastDigit p y)
  [m, if (m : ℚ) * 10 ^ lastDigit p y ≤ y then m + 1 else m - 1]

/-- The coefficient and the exponent of the shortest digits from `p` on that
are read as the double; with no more to try, the nearest digits. -/
def shortestFrom : ℕ → ℕ → ℚ → ℤ × ℤ
  | 0, p, y => (halfEven (y / 10 ^ lastDigit p y), lastDigit p y)
  | fuel + 1, p, y =>
      match (neighbours p y).find? (fun m : ℤ =>
          nearest (m * 10 ^ lastDigit p y) = some y) with
      | some m => (m, lastDigit p y)
      | none => shortestFrom fuel (p + 1) y

/-- Seventeen digits are always enough. -/
def shortest (y : ℚ) : ℤ × ℤ := shortestFrom 16 1 y

/-- The decimal number that `repr` of a double spells: with at least one digit
after the point if the point is near the digits, else with an exponent. -/
def reprNumber (y : ℚ) : Number :=
  if y = 0 then .finite false 0 (-1)
  else
    let digits := dropZeros (width (shortest y).1.toNat)
      (shortest y).1.toNat (shortest y).2
    let point := width digits.1 + digits.2
    if -4 < point ∧ point ≤ 16 ∧ 0 ≤ digits.2 then
      .finite false (digits.1 * 10 ^ (digits.2 + 1).toNat) (-1)
    else .finite false digits.1 digits.2

/-- A number is the same after it is read as a double and written. -/
def Survives (x : ℚ) : Prop :=
  ∃ y, nearest x = some y ∧ (reprNumber y).value = some x

end Doubles
