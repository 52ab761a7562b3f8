import Orvex.Foundation.JsonText

/-!
# What the source takes from JavaScript and its packages

Number texts, dates, SHA-256, locale order and the decimal package are not
part of the repository.  `Runtime` collects them as parameters; results that
rely on their documented behaviour state it as a hypothesis.  Instants are
milliseconds, JSON numbers and database decimals are rationals, and `null`
and an absent value are both `none`.
-/

namespace Orvex

abbrev Json := JsonText.Value String ℚ

/-- A value of the decimal package. -/
inductive Decimal where
  | nan
  | infinity (negative : Bool)
  | finite (value : ℚ)
  deriving DecidableEq

structure Runtime where
  sha256Hex : String → String
  numberToString : ℚ → String
  /-- `Number(text)`. -/
  stringToNumber : String → Decimal
  localeCompare : String → String → Ordering
  /-- `new Date(text)`; `none` is an invalid date. -/
  parseDate : String → Option ℤ
  toISOString : ℤ → String
  /-- `new Prisma.Decimal(text)`; `none` is the exception it throws. -/
  toDecimal : String → Option Decimal
  decimalToString : Decimal → String
  /-- The precision to which the decimal package rounds sums. -/
  round : ℚ → ℚ
  /-- What a DECIMAL(38,18) column keeps; `none` is a rejected value. -/
  column : ℚ → Option ℚ

/-- Sums and columns lose nothing. -/
structure Runtime.Exact (rt : Runtime) : Prop where
  round : ∀ x, rt.round x = x
  column : ∀ x, rt.column x = some x

/-- What SHA-256 and the number texts are relied on for: texts that differ
have different digests, and numbers that differ have different texts. -/
structure Runtime.CollisionFree (rt : Runtime) : Prop where
  sha256 : Function.Injective rt.sha256Hex
  numbers : JsonText.NumberTokens (fun n => (rt.numberToString n).toList)

/-- A date that was parsed is read back from its ISO text. -/
def Runtime.DatesReadBack (rt : Runtime) : Prop :=
  ∀ text instant, rt.parseDate text = some instant →
    rt.parseDate (rt.toISOString instant) = some instant

/-! ## Decimal arithmetic -/

def Decimal.negate : Decimal → Decimal
  | .nan => .nan
  | .infinity negative => .infinity (!negative)
  | .finite x => .finite (-x)

def Decimal.plus (rt : Runtime) : Decimal → Decimal → Decimal
  | .nan, _ => .nan
  | _, .nan => .nan
  | .infinity n, .infinity m => if n = m then .infinity n else .nan
  | .infinity n, .finite _ => .infinity n
  | .finite _, .infinity n => .infinity n
  | .finite x, .finite y => .finite (rt.round (x + y))

def Decimal.minus (rt : Runtime) (x y : Decimal) : Decimal :=
  x.plus rt y.negate

/-- `lessThanOrEqualTo`; nothing compares with NaN. -/
def Decimal.lte : Decimal → Decimal → Bool
  | .nan, _ => false
  | _, .nan => false
  | .infinity true, _ => true
  | _, .infinity false => true
  | .infinity false, _ => false
  | _, .infinity true => false
  | .finite x, .finite y => decide (x ≤ y)

/-- `lessThan`. -/
def Decimal.lt : Decimal → Decimal → Bool
  | .nan, _ => false
  | _, .nan => false
  | .infinity n, .infinity m => n && !m
  | .infinity n, .finite _ => n
  | .finite _, .infinity n => !n
  | .finite x, .finite y => decide (x < y)

def Decimal.gt (x y : Decimal) : Bool := y.lt x

def Decimal.equals : Decimal → Decimal → Bool
  | .finite x, .finite y => decide (x = y)
  | .infinity n, .infinity m => n == m
  | _, _ => false

@[simp] theorem Decimal.plus_finite (rt : Runtime) (x y : ℚ) :
    Decimal.plus rt (.finite x) (.finite y) = .finite (rt.round (x + y)) :=
  rfl

@[simp] theorem Decimal.minus_finite (rt : Runtime) (x y : ℚ) :
    Decimal.minus rt (.finite x) (.finite y) = .finite (rt.round (x - y)) := by
  simp only [Decimal.minus, Decimal.negate, Decimal.plus_finite,
    sub_eq_add_neg]

@[simp] theorem Decimal.gt_finite (x y : ℚ) :
    Decimal.gt (.finite x) (.finite y) = decide (y < x) := rfl

@[simp] theorem Decimal.lte_finite (x y : ℚ) :
    Decimal.lte (.finite x) (.finite y) = decide (x ≤ y) := rfl

theorem Decimal.equals_iff {x y : Decimal} :
    x.equals y = true ↔ x = y ∧ x ≠ .nan := by
  cases x <;> cases y <;> simp [Decimal.equals]

/-- Only a sum of finite values is finite. -/
theorem Decimal.plus_eq_finite {rt : Runtime} {x y : Decimal} {z : ℚ}
    (h : x.plus rt y = .finite z) :
    ∃ a b, x = .finite a ∧ y = .finite b ∧ z = rt.round (a + b) := by
  cases x with
  | nan => simp [Decimal.plus] at h
  | infinity n =>
      cases y with
      | infinity m =>
          simp only [Decimal.plus] at h
          split at h <;> simp at h
      | _ => simp [Decimal.plus] at h
  | finite a =>
      cases y with
      | finite b =>
          simp only [Decimal.plus_finite, Decimal.finite.injEq] at h
          exact ⟨a, b, rfl, rfl, h.symm⟩
      | _ => simp [Decimal.plus] at h

/-- Writing a decimal to a DECIMAL(38,18) column. -/
def Runtime.store (rt : Runtime) : Decimal → Option ℚ
  | .finite x => rt.column x
  | _ => none

/-- Writing a decimal text to a DECIMAL(38,18) column. -/
def Runtime.storeText (rt : Runtime) (text : String) : Option ℚ :=
  (rt.toDecimal text).bind rt.store

theorem Runtime.store_eq_some {rt : Runtime} {d : Decimal} {v : ℚ}
    (h : rt.store d = some v) : ∃ x, d = .finite x ∧ rt.column x = some v := by
  cases d with
  | finite x => exact ⟨x, rfl, h⟩
  | _ => simp [Runtime.store] at h

theorem Runtime.storeText_eq_some {rt : Runtime} {text : String} {v : ℚ}
    (h : rt.storeText text = some v) :
    ∃ x, rt.toDecimal text = some (.finite x) ∧ rt.column x = some v := by
  unfold Runtime.storeText at h
  rw [Option.bind_eq_some_iff] at h
  obtain ⟨d, hd, hstore⟩ := h
  obtain ⟨x, hx, hcolumn⟩ := Runtime.store_eq_some hstore
  exact ⟨x, by rw [hd, hx], hcolumn⟩

/-! ## Truthiness -/

/-- A string that JavaScript takes for true. -/
def truthy : Option String → Bool
  | some text => text != ""
  | none => false

@[simp] theorem truthy_none : truthy none = false := rfl

theorem truthy_some {text : String} : truthy (some text) = true ↔ text ≠ "" := by
  simp [truthy]

end Orvex
