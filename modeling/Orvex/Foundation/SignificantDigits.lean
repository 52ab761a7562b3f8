import Mathlib.Data.Int.Log
import Mathlib.Tactic

/-!
# Rounding decimal numbers

`round p` keeps the first `p` significant digits of a number, `place s` its
first `s` decimals; both round to the nearest such number, and a tie away
from zero.  A number is unchanged exactly when it fits, and rounding to
significant digits never needs more decimals than the number has.
-/

namespace SignificantDigits

/-- The nearest integer; of two the one farther from zero. -/
def halfUp (x : ℚ) : ℤ :=
  if 0 ≤ x then ⌊x + 1 / 2⌋ else -⌊-x + 1 / 2⌋

theorem floor_add_half (n : ℤ) : ⌊(n : ℚ) + 1 / 2⌋ = n := by
  apply Int.floor_eq_iff.mpr
  constructor <;> linarith

@[simp] theorem halfUp_intCast (n : ℤ) : halfUp n = n := by
  unfold halfUp
  by_cases hn : (0 : ℚ) ≤ n
  · rw [if_pos hn, floor_add_half]
  · rw [if_neg hn, ← Int.cast_neg, floor_add_half, neg_neg]

@[simp] theorem halfUp_zero : halfUp 0 = 0 := by
  have hzero := halfUp_intCast 0
  rw [Int.cast_zero] at hzero
  exact hzero

/-- The nearest integer; of two the even one. -/
def halfEven (x : ℚ) : ℤ :=
  if x - ⌊x⌋ < 1 / 2 then ⌊x⌋
  else if 1 / 2 < x - ⌊x⌋ then ⌊x⌋ + 1
  else if ⌊x⌋ % 2 = 0 then ⌊x⌋
  else ⌊x⌋ + 1

@[simp] theorem halfEven_intCast (n : ℤ) : halfEven n = n := by
  unfold halfEven
  rw [Int.floor_intCast, sub_self, if_pos (by norm_num)]

/-! ## Multiples of a power of ten -/

/-- The number is a whole multiple of `10 ^ e`. -/
def Multiple (e : ℤ) (x : ℚ) : Prop := ∃ n : ℤ, x = n * 10 ^ e

theorem ten_zpow_pos (e : ℤ) : (0 : ℚ) < 10 ^ e := zpow_pos (by norm_num) e

theorem ten_zpow_ne_zero (e : ℤ) : (10 : ℚ) ^ e ≠ 0 := (ten_zpow_pos e).ne'

theorem Multiple.add {e : ℤ} {x y : ℚ} (hx : Multiple e x)
    (hy : Multiple e y) : Multiple e (x + y) := by
  obtain ⟨m, hm⟩ := hx
  obtain ⟨n, hn⟩ := hy
  refine ⟨m + n, ?_⟩
  rw [hm, hn]
  push_cast
  ring

theorem Multiple.neg {e : ℤ} {x : ℚ} (hx : Multiple e x) :
    Multiple e (-x) := by
  obtain ⟨m, hm⟩ := hx
  refine ⟨-m, ?_⟩
  rw [hm]
  push_cast
  ring

theorem Multiple.sub {e : ℤ} {x y : ℚ} (hx : Multiple e x)
    (hy : Multiple e y) : Multiple e (x - y) := by
  rw [sub_eq_add_neg]
  exact hx.add hy.neg

/-- A finer unit divides a coarser one. -/
theorem Multiple.finer {d e : ℤ} (hde : d ≤ e) {x : ℚ}
    (hx : Multiple e x) : Multiple d x := by
  obtain ⟨m, hm⟩ := hx
  obtain ⟨k, hk⟩ := Int.eq_ofNat_of_zero_le (sub_nonneg.mpr hde)
  refine ⟨m * 10 ^ k, ?_⟩
  have hsplit : (10 : ℚ) ^ e = 10 ^ k * 10 ^ d := by
    rw [← zpow_natCast, ← zpow_add₀ (by norm_num : (10 : ℚ) ≠ 0)]
    congr 1
    omega
  rw [hm, hsplit]
  push_cast
  ring

theorem multiple_halfUp (e : ℤ) (x : ℚ) :
    Multiple e (halfUp (x / 10 ^ e) * 10 ^ e) :=
  ⟨_, rfl⟩

/-- Rounding to a unit leaves its multiples as they are. -/
theorem Multiple.halfUp_eq {e : ℤ} {x : ℚ} (hx : Multiple e x) :
    (halfUp (x / 10 ^ e) : ℚ) * 10 ^ e = x := by
  obtain ⟨m, hm⟩ := hx
  have hquotient : x / 10 ^ e = m := by
    rw [hm, mul_div_assoc, div_self (ten_zpow_ne_zero e), mul_one]
  rw [hquotient, halfUp_intCast, hm]

/-! ## Significant digits -/

/-- The power of ten that the last of `p` digits counts. -/
def lastDigit (p : ℕ) (x : ℚ) : ℤ := Int.log 10 |x| + 1 - p

/-- The number to `p` significant digits. -/
def round (p : ℕ) (x : ℚ) : ℚ :=
  halfUp (x / 10 ^ lastDigit p x) * 10 ^ lastDigit p x

/-- The number has at most `p` significant digits. -/
def Fits (p : ℕ) (x : ℚ) : Prop :=
  ∃ m e : ℤ, |m| < 10 ^ p ∧ x = m * 10 ^ e

theorem lt_pow_of_log {x : ℚ} (hx : x ≠ 0) :
    |x| < (10 : ℚ) ^ (Int.log 10 |x| + 1) := by
  have hpos : 0 < |x| := abs_pos.mpr hx
  exact_mod_cast Int.lt_zpow_succ_log_self (b := 10) (by norm_num) |x|

/-- A number that fits is a multiple of its last digit. -/
theorem Fits.multiple {p : ℕ} {x : ℚ} (h : Fits p x) :
    Multiple (lastDigit p x) x := by
  obtain ⟨m, e, hm, hx⟩ := h
  by_cases hzero : x = 0
  · refine ⟨0, ?_⟩
    rw [hzero, Int.cast_zero, zero_mul]
  · have hpos : 0 < |x| := abs_pos.mpr hzero
    have hbound : |x| < (10 : ℚ) ^ (p + e : ℤ) := by
      have habs : |x| = |(m : ℚ)| * 10 ^ e := by
        rw [hx, abs_mul, abs_of_pos (ten_zpow_pos e)]
      have hcast : |(m : ℚ)| < 10 ^ p := by
        exact_mod_cast hm
      rw [habs, zpow_add₀ (by norm_num : (10 : ℚ) ≠ 0), zpow_natCast]
      exact mul_lt_mul_of_pos_right hcast (ten_zpow_pos e)
    have hlog : Int.log 10 |x| < p + e := by
      apply (Int.lt_zpow_iff_log_lt (by norm_num) hpos).mp
      exact_mod_cast hbound
    apply Multiple.finer (e := e)
    · unfold lastDigit
      omega
    · exact ⟨m, hx⟩

theorem round_eq_iff {p : ℕ} {x : ℚ} : round p x = x ↔ Fits p x := by
  constructor
  · intro h
    by_cases hzero : x = 0
    · refine ⟨0, 0, ?_, ?_⟩
      · rw [abs_zero]
        positivity
      · rw [hzero, Int.cast_zero, zero_mul]
    · have hx : x = halfUp (x / 10 ^ lastDigit p x) *
          10 ^ lastDigit p x := h.symm
      refine ⟨_, lastDigit p x, ?_, hx⟩
      have habs : |x| = |(halfUp (x / 10 ^ lastDigit p x) : ℚ)| *
          10 ^ lastDigit p x := by
        conv_lhs => rw [hx]
        rw [abs_mul, abs_of_pos (ten_zpow_pos _)]
      have hbound := lt_pow_of_log hzero
      have hsplit : (10 : ℚ) ^ (Int.log 10 |x| + 1) =
          10 ^ p * 10 ^ lastDigit p x := by
        rw [← zpow_natCast, ← zpow_add₀ (by norm_num : (10 : ℚ) ≠ 0)]
        congr 1
        unfold lastDigit
        omega
      rw [hsplit, habs] at hbound
      have hlt := lt_of_mul_lt_mul_right hbound (ten_zpow_pos _).le
      exact_mod_cast hlt
  · intro h
    exact h.multiple.halfUp_eq

/-- Rounding to significant digits needs no further decimals. -/
theorem Multiple.round {d : ℤ} {x : ℚ} (h : Multiple d x) (p : ℕ) :
    Multiple d (round p x) := by
  by_cases hle : d ≤ lastDigit p x
  · exact (multiple_halfUp _ _).finer hle
  · have hfiner : Multiple (lastDigit p x) x := h.finer (by omega)
    unfold SignificantDigits.round
    rw [hfiner.halfUp_eq]
    exact h

/-! ## Decimals -/

/-- The number to `s` decimals. -/
def place (s : ℕ) (x : ℚ) : ℚ :=
  halfUp (x / 10 ^ (-s : ℤ)) * 10 ^ (-s : ℤ)

theorem Multiple.place {s : ℕ} {x : ℚ} (h : Multiple (-s) x) :
    place s x = x := h.halfUp_eq

end SignificantDigits
