import Orvex.Foundation.SignificantDigits

/-!
# Decimal arithmetic

A number has a sign, a coefficient and an exponent.  An operation rounds the
exact result, half even, to the digits of a context and to its range of
exponents.  It is exact exactly when the context holds the result.
-/

namespace DecimalArithmetic

open SignificantDigits

/-- The digits of a result and the range of its adjusted exponent. -/
structure Context where
  prec : ℕ
  emin : ℤ
  emax : ℤ
  prec_pos : 0 < prec
  range : emin ≤ emax

namespace Context

def etiny (c : Context) : ℤ := c.emin - c.prec + 1

def etop (c : Context) : ℤ := c.emax - c.prec + 1

theorem etiny_le_etop (c : Context) : c.etiny ≤ c.etop := by
  have hrange := c.range
  unfold etiny etop
  omega

end Context

inductive Number where
  | finite (negative : Bool) (coefficient : ℕ) (exponent : ℤ)
  | infinity (negative : Bool)
  deriving DecidableEq

/-- The conditions that raise an exception. -/
inductive Signal where
  | invalidOperation | divisionByZero | overflow
  deriving DecidableEq

def signed (negative : Bool) (n : ℕ) : ℤ := if negative then -n else n

@[simp] theorem natAbs_signed (negative : Bool) (n : ℕ) :
    (signed negative n).natAbs = n := by
  cases negative <;> simp [signed]

theorem signed_mul (s t : Bool) (m n : ℕ) :
    signed s m * signed t n = signed (s != t) (m * n) := by
  cases s <;> cases t <;> simp [signed]

theorem signed_not (s : Bool) (n : ℕ) : signed (!s) n = -signed s n := by
  cases s <;> simp [signed]

theorem abs_signed (s : Bool) (n : ℕ) : |signed s n| = n := by
  cases s <;> simp [signed]

def Number.value : Number → Option ℚ
  | .finite s n e => some ((signed s n : ℚ) * 10 ^ e)
  | .infinity _ => none

/-! ## Rounding -/

/-- The number of digits of a coefficient. -/
def width (n : ℕ) : ℕ := (Nat.toDigits 10 n).length

theorem width_pos (n : ℕ) : 0 < width n := Nat.length_toDigits_pos

theorem lt_pow_width (n : ℕ) : n < 10 ^ width n :=
  (Nat.length_toDigits_le_iff (by norm_num) (width_pos n)).mp le_rfl

theorem pow_width_le {n : ℕ} (hn : n ≠ 0) : 10 ^ (width n - 1) ≤ n := by
  by_contra hlt
  have hwidth := width_pos n
  by_cases hone : width n = 1
  · rw [hone] at hlt
    norm_num at hlt
    exact hn hlt
  · have hle := (Nat.length_toDigits_le_iff (b := 10) (n := n)
      (k := width n - 1) (by norm_num) (by omega)).mpr (by omega)
    change width n ≤ width n - 1 at hle
    omega

/-- The exact number rounded to the context. -/
def fix (c : Context) (negative : Bool) (coefficient : ℕ) (exponent : ℤ) :
    Except Signal Number :=
  if coefficient = 0 then
    .ok (.finite negative 0 (min (max exponent c.etiny) c.emax))
  else
    let low := width coefficient + exponent - c.prec
    if c.etop < low then .error .overflow
    else
      let least := max low c.etiny
      if exponent < least then
        let rounded := (halfEven
          (coefficient / 10 ^ (least - exponent).toNat)).toNat
        if 10 ^ c.prec ≤ rounded then
          if c.etop < least + 1 then .error .overflow
          else .ok (.finite negative (rounded / 10) (least + 1))
        else .ok (.finite negative rounded least)
      else .ok (.finite negative coefficient exponent)

/-- The context holds the number: it has few enough digits at an exponent in
the range. -/
def Holds (c : Context) (x : ℚ) : Prop :=
  ∃ m e : ℤ, |m| < 10 ^ c.prec ∧ c.etiny ≤ e ∧ e ≤ c.etop ∧
    x = m * 10 ^ e

section

variable {c : Context} {s : Bool} {n : ℕ} {e : ℤ}

theorem holds_zero : Holds c 0 :=
  ⟨0, c.etiny, by simp, le_rfl, c.etiny_le_etop, by simp⟩

theorem abs_value (s : Bool) (n : ℕ) (e : ℤ) :
    |(signed s n : ℚ) * 10 ^ e| = n * 10 ^ e := by
  have hsigned : |(signed s n : ℚ)| = n := by
    have habs := abs_signed s n
    exact_mod_cast habs
  rw [abs_mul, abs_of_pos (ten_zpow_pos e), hsigned]

theorem abs_value_lt (s : Bool) (n : ℕ) (e : ℤ) :
    |(signed s n : ℚ) * 10 ^ e| < 10 ^ (width n + e) := by
  have hwidth : (n : ℚ) < 10 ^ width n := by
    exact_mod_cast lt_pow_width n
  rw [abs_value, zpow_add₀ (by norm_num : (10 : ℚ) ≠ 0), zpow_natCast]
  exact mul_lt_mul_of_pos_right hwidth (ten_zpow_pos e)

theorem le_abs_value (s : Bool) (hn : n ≠ 0) (e : ℤ) :
    (10 : ℚ) ^ (width n + e - 1) ≤ |(signed s n : ℚ) * 10 ^ e| := by
  have hwidth : (10 : ℚ) ^ (width n - 1) ≤ n := by
    exact_mod_cast pow_width_le hn
  have hsplit : (width n : ℤ) + e - 1 = (width n - 1 : ℕ) + e := by
    have hpos := width_pos n
    omega
  rw [abs_value, hsplit, zpow_add₀ (by norm_num : (10 : ℚ) ≠ 0),
    zpow_natCast]
  exact mul_le_mul_of_nonneg_right hwidth (ten_zpow_pos e).le

/-- The context holds a number other than zero exactly when its digits end at
an exponent of the range. -/
theorem holds_iff (hn : n ≠ 0) :
    Holds c (signed s n * 10 ^ e) ↔
      width n + e - c.prec ≤ c.etop ∧
        Multiple (max (width n + e - c.prec) c.etiny)
          (signed s n * 10 ^ e) := by
  constructor
  · intro h
    obtain ⟨m, d, hm, hlow, hhigh, hvalue⟩ := h
    have hbound : |(signed s n : ℚ) * 10 ^ e| < 10 ^ (c.prec + d : ℤ) := by
      have hcast : |(m : ℚ)| < 10 ^ c.prec := by
        exact_mod_cast hm
      rw [hvalue, abs_mul, abs_of_pos (ten_zpow_pos d),
        zpow_add₀ (by norm_num : (10 : ℚ) ≠ 0), zpow_natCast]
      exact mul_lt_mul_of_pos_right hcast (ten_zpow_pos d)
    have hlt : (width n : ℤ) + e - 1 < c.prec + d :=
      (zpow_lt_zpow_iff_right₀ (by norm_num : (1 : ℚ) < 10)).mp
        (lt_of_le_of_lt (le_abs_value s hn e) hbound)
    refine ⟨by omega, Multiple.finer (e := d) ?_ ⟨m, hvalue⟩⟩
    exact max_le (by omega) hlow
  · intro h
    obtain ⟨htop, m, hvalue⟩ := h
    have hrange := c.etiny_le_etop
    refine ⟨m, _, ?_, le_max_right _ _, max_le htop hrange, hvalue⟩
    have hbound := abs_value_lt s n e
    have hle : (10 : ℚ) ^ (width n + e : ℤ) ≤
        10 ^ c.prec * 10 ^ max (width n + e - c.prec : ℤ) c.etiny := by
      rw [← zpow_natCast, ← zpow_add₀ (by norm_num : (10 : ℚ) ≠ 0)]
      apply zpow_le_zpow_right₀ (by norm_num)
      have hmax := le_max_left (width n + e - c.prec : ℤ) c.etiny
      omega
    rw [hvalue, abs_mul, abs_of_pos (ten_zpow_pos _)] at hbound
    have hlt := lt_of_mul_lt_mul_right (hbound.trans_le hle)
      (ten_zpow_pos _).le
    exact_mod_cast hlt

theorem lt_of_multiple {least : ℤ} {k : ℕ} (hn : n = k * 10 ^ (least - e).toNat)
    (hle : e ≤ least) (hlow : width n + e - c.prec ≤ least) :
    k < 10 ^ c.prec := by
  have hwidth := lt_pow_width n
  have hexponents : width n ≤ c.prec + (least - e).toNat := by omega
  have hbound : k * 10 ^ (least - e).toNat <
      10 ^ c.prec * 10 ^ (least - e).toNat := by
    rw [← hn, ← pow_add]
    exact hwidth.trans_le (Nat.pow_le_pow_right (by norm_num) hexponents)
  exact lt_of_mul_lt_mul_right hbound (Nat.zero_le _)

theorem ten_zpow_split {least : ℤ} (hle : e ≤ least) :
    (10 : ℚ) ^ least = 10 ^ (least - e).toNat * 10 ^ e := by
  rw [← zpow_natCast, ← zpow_add₀ (by norm_num : (10 : ℚ) ≠ 0)]
  congr 1
  omega

/-- A number that is a multiple of a greater unit drops only zeros. -/
theorem exists_coefficient {least : ℤ} (hle : e ≤ least)
    (h : Multiple least (signed s n * 10 ^ e)) :
    ∃ k : ℕ, n = k * 10 ^ (least - e).toNat := by
  obtain ⟨m, hm⟩ := h
  have habs := abs_value s n e
  rw [hm, abs_mul, abs_of_pos (ten_zpow_pos least), ten_zpow_split hle,
    ← mul_assoc] at habs
  have hcancel := mul_right_cancel₀ (ten_zpow_ne_zero e) habs
  refine ⟨m.natAbs, ?_⟩
  have hcast : (n : ℚ) = (m.natAbs * 10 ^ (least - e).toNat : ℕ) := by
    rw [← hcancel]
    push_cast
    rw [Nat.cast_natAbs, Int.cast_abs]
  exact_mod_cast hcast

theorem value_coefficient {least : ℤ} {k : ℕ} (hle : e ≤ least)
    (hn : n = k * 10 ^ (least - e).toNat) :
    (signed s k : ℚ) * 10 ^ least = signed s n * 10 ^ e := by
  rw [ten_zpow_split hle, hn]
  cases s <;> simp [signed] <;> ring

/-- The rounded number is the exact one exactly when the context holds it. -/
theorem fix_exact_iff :
    (∃ d, fix c s n e = .ok d ∧ d.value = some ((signed s n : ℚ) * 10 ^ e)) ↔
      Holds c (signed s n * 10 ^ e) := by
  by_cases hn : n = 0
  · have hzero : (signed s n : ℚ) * 10 ^ e = 0 := by
      rw [hn]
      cases s <;> simp [signed]
    refine iff_of_true ⟨_, if_pos hn, ?_⟩ ?_
    · rw [hzero]
      cases s <;> simp [Number.value, signed]
    · rw [hzero]
      exact holds_zero
  · rw [holds_iff hn]
    unfold fix
    rw [if_neg hn]
    dsimp only
    generalize hlow : (width n : ℤ) + e - c.prec = low
    by_cases htop : c.etop < low
    · rw [if_pos htop]
      refine iff_of_false ?_ ?_
      · intro h
        obtain ⟨d, h, -⟩ := h
        cases h
      · intro h
        exact absurd h.1 (not_le.mpr htop)
    · rw [if_neg htop]
      have hleft : low ≤ max low c.etiny := le_max_left _ _
      generalize max low c.etiny = least at hleft ⊢
      by_cases hround : e < least
      · rw [if_pos hround]
        constructor
        · intro h
          obtain ⟨d, hd, hvalue⟩ := h
          refine ⟨not_lt.mp htop, ?_⟩
          split_ifs at hd
          · cases hd
            rw [← Option.some.inj hvalue]
            exact Multiple.finer (e := least + 1) (by omega) ⟨_, rfl⟩
          · cases hd
            rw [← Option.some.inj hvalue]
            exact ⟨_, rfl⟩
        · intro h
          obtain ⟨k, hk⟩ := exists_coefficient hround.le h.2
          have hrounded : (halfEven
              ((n : ℚ) / 10 ^ (least - e).toNat)).toNat = k := by
            have hquotient : (n : ℚ) / 10 ^ (least - e).toNat =
                ((k : ℤ) : ℚ) := by
              rw [div_eq_iff (by positivity), hk]
              push_cast
              rfl
            rw [hquotient, halfEven_intCast, Int.toNat_natCast]
          have hfits := lt_of_multiple (c := c) hk hround.le (by omega)
          rw [hrounded, if_neg (not_le.mpr hfits)]
          exact ⟨_, rfl, congrArg some (value_coefficient hround.le hk)⟩
      · rw [if_neg hround]
        refine iff_of_true ⟨_, rfl, rfl⟩ ⟨not_lt.mp htop, ?_⟩
        exact Multiple.finer (e := e) (not_lt.mp hround) ⟨_, rfl⟩

end

/-! ## Operations -/

/-- `a + b`: the sum at the smaller exponent, rounded. -/
def add (c : Context) : Number → Number → Except Signal Number
  | .finite s m d, .finite t n e =>
      let least := min d e
      let sum := signed s m * 10 ^ (d - least).toNat +
        signed t n * 10 ^ (e - least).toNat
      fix c (if sum = 0 then s && t else decide (sum < 0)) sum.natAbs least
  | .infinity s, .infinity t =>
      if s = t then .ok (.infinity s) else .error .invalidOperation
  | .infinity s, .finite _ _ _ => .ok (.infinity s)
  | .finite _ _ _, .infinity t => .ok (.infinity t)

def copyNegate : Number → Number
  | .finite s n e => .finite (!s) n e
  | .infinity s => .infinity (!s)

/-- `a - b`. -/
def sub (c : Context) (a b : Number) : Except Signal Number :=
  add c a (copyNegate b)

/-- `a * b`: the product at the sum of the exponents, rounded. -/
def mul (c : Context) : Number → Number → Except Signal Number
  | .finite s m d, .finite t n e => fix c (s != t) (m * n) (d + e)
  | .infinity s, .infinity t => .ok (.infinity (s != t))
  | .infinity s, .finite t n _ =>
      if n = 0 then .error .invalidOperation else .ok (.infinity (s != t))
  | .finite s n _, .infinity t =>
      if n = 0 then .error .invalidOperation else .ok (.infinity (s != t))

/-- `-a`, which rounds as well and gives a zero no sign. -/
def neg (c : Context) : Number → Except Signal Number
  | .finite s n e => fix c (if n = 0 then false else !s) n e
  | .infinity s => .ok (.infinity (!s))

/-- Drops at most so many zeros at the end of a coefficient. -/
def dropZeros : ℕ → ℕ → ℤ → ℕ × ℤ
  | 0, n, e => (n, e)
  | fuel + 1, n, e =>
      if n % 10 = 0 then dropZeros fuel (n / 10) (e + 1) else (n, e)

/-- `a / b`. -/
def div (c : Context) : Number → Number → Except Signal Number
  | .infinity _, .infinity _ => .error .invalidOperation
  | .infinity s, .finite t _ _ => .ok (.infinity (s != t))
  | .finite s _ _, .infinity t => .ok (.finite (s != t) 0 c.etiny)
  | .finite s m d, .finite t n e =>
      if n = 0 then
        .error (if m = 0 then .invalidOperation else .divisionByZero)
      else if m = 0 then fix c (s != t) 0 (d - e)
      else
        let shift : ℤ := width n - width m + c.prec + 1
        let numerator := m * 10 ^ shift.toNat
        let denominator := n * 10 ^ (-shift).toNat
        let quotient := numerator / denominator
        if numerator % denominator = 0 then
          let stripped := dropZeros shift.toNat quotient (d - e - shift)
          fix c (s != t) stripped.1 stripped.2
        else
          fix c (s != t)
            (if quotient % 5 = 0 then quotient + 1 else quotient)
            (d - e - shift)

section

variable {c : Context} {a b : Number} {x y : ℚ}

theorem value_eq_some (h : a.value = some x) :
    ∃ s n e, a = .finite s n e ∧ x = signed s n * 10 ^ e := by
  cases a with
  | finite s n e => exact ⟨s, n, e, rfl, (Option.some.inj h).symm⟩
  | infinity s => cases h

theorem signed_natAbs (z : ℤ) (s : Bool) :
    signed (if z = 0 then s else decide (z < 0)) z.natAbs = z := by
  by_cases hzero : z = 0
  · rw [hzero]
    cases s <;> rfl
  · rw [if_neg hzero]
    unfold signed
    by_cases hneg : z < 0
    · rw [decide_eq_true hneg, if_pos rfl]
      omega
    · rw [decide_eq_false hneg, if_neg Bool.false_ne_true]
      omega

/-- A sum is exact exactly when the context holds it. -/
theorem add_exact_iff (ha : a.value = some x) (hb : b.value = some y) :
    (∃ d, add c a b = .ok d ∧ d.value = some (x + y)) ↔ Holds c (x + y) := by
  obtain ⟨s, m, d, rfl, hx⟩ := value_eq_some ha
  obtain ⟨t, n, e, rfl, hy⟩ := value_eq_some hb
  have hsum : x + y = (signed s m * 10 ^ (d - min d e).toNat +
      signed t n * 10 ^ (e - min d e).toNat : ℤ) * 10 ^ min d e := by
    rw [hx, hy, ten_zpow_split (min_le_left d e),
      ten_zpow_split (min_le_right d e)]
    push_cast
    ring
  unfold add
  dsimp only
  rw [hsum]
  generalize signed s m * 10 ^ (d - min d e).toNat +
    signed t n * 10 ^ (e - min d e).toNat = sum
  have hfix := @fix_exact_iff c (if sum = 0 then s && t else decide (sum < 0))
    sum.natAbs (min d e)
  rw [signed_natAbs] at hfix
  exact hfix

theorem copyNegate_value (hb : b.value = some y) :
    (copyNegate b).value = some (-y) := by
  obtain ⟨t, n, e, rfl, hy⟩ := value_eq_some hb
  have hnegated : (copyNegate (.finite t n e)).value =
      some ((signed (!t) n : ℚ) * 10 ^ e) := rfl
  rw [hnegated, signed_not, hy]
  push_cast
  rw [neg_mul]

theorem sub_exact_iff (ha : a.value = some x) (hb : b.value = some y) :
    (∃ d, sub c a b = .ok d ∧ d.value = some (x - y)) ↔ Holds c (x - y) := by
  have hadd := @add_exact_iff c a (copyNegate b) x (-y) ha
    (copyNegate_value hb)
  rw [← sub_eq_add_neg] at hadd
  exact hadd

theorem mul_exact_iff (ha : a.value = some x) (hb : b.value = some y) :
    (∃ d, mul c a b = .ok d ∧ d.value = some (x * y)) ↔ Holds c (x * y) := by
  obtain ⟨s, m, d, rfl, hx⟩ := value_eq_some ha
  obtain ⟨t, n, e, rfl, hy⟩ := value_eq_some hb
  have hproduct : x * y = signed (s != t) (m * n) * 10 ^ (d + e) := by
    rw [hx, hy, ← signed_mul, zpow_add₀ (by norm_num : (10 : ℚ) ≠ 0)]
    push_cast
    ring
  rw [hproduct]
  exact fix_exact_iff

theorem neg_exact_iff (ha : a.value = some x) :
    (∃ d, neg c a = .ok d ∧ d.value = some (-x)) ↔ Holds c (-x) := by
  obtain ⟨s, n, e, rfl, hx⟩ := value_eq_some ha
  have hnegated : -x = signed (if n = 0 then false else !s) n * 10 ^ e := by
    rw [hx]
    by_cases hn : n = 0
    · rw [hn]
      cases s <;> simp [signed]
    · rw [if_neg hn, signed_not]
      push_cast
      rw [neg_mul]
  rw [hnegated]
  exact fix_exact_iff

end

end DecimalArithmetic
