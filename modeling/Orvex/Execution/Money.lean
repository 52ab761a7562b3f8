import Mathlib.Data.List.DropRight
import Orvex.Core.Coercion
import Orvex.Core.Reference
import Orvex.Execution.Contracts

/-!
# Token amounts

A decimal text becomes an exact number of base units, or is refused, and
base units become the canonical decimal text.  Both stand for the same
value.
-/

namespace Orvex
namespace Execution

/-! ## Digits -/

/-- `BigInt(digits)`. -/
def bigInt (digits : List Char) : ℕ := Nat.ofDigitChars 10 digits 0

def AllDigits (text : List Char) : Prop := ∀ c ∈ text, c.isDigit = true

instance (text : List Char) : Decidable (AllDigits text) :=
  decidable_of_iff (text.all Char.isDigit = true) List.all_eq_true

/-- The groups of `/^(\d+)(?:\.(\d+))?$/`: the digits before the point and
those after it. -/
def decimalGroups (text : List Char) : Option (List Char × List Char) :=
  let whole := text.takeWhile Char.isDigit
  match text.dropWhile Char.isDigit with
  | [] => if whole = [] then none else some (whole, [])
  | c :: fraction =>
      if c = '.' ∧ whole ≠ [] ∧ fraction ≠ [] ∧ AllDigits fraction then
        some (whole, fraction)
      else none

/-- `replace(/^0+(?=\d)/, "")` on a text of digits. -/
def stripLeadingZeros : List Char → List Char
  | '0' :: c :: rest => stripLeadingZeros (c :: rest)
  | text => text

def padEnd (width : ℕ) (text : List Char) : List Char :=
  text ++ List.replicate (width - text.length) '0'

def padStart (width : ℕ) (text : List Char) : List Char :=
  List.replicate (width - text.length) '0' ++ text

/-- `replace(/0+$/, "")`. -/
def stripTrailingZeros (text : List Char) : List Char :=
  text.rdropWhile (fun c => c == '0')

/-! ## Conversions -/

def toBaseUnits (amount : String) (decimals : ℕ) : Except Thrown ℕ :=
  let details : List (String × Json) := [("amount", .string amount)]
  let trimmed := (jsTrim amount).toList
  if trimmed = [] then
    .error (.of .buildError "Amount must be a non-empty decimal string."
      details)
  else
    match decimalGroups trimmed with
    | none =>
        .error (.of .buildError
          "Amount is not a valid non-negative decimal." details)
    | some (whole, fraction) =>
        if decimals < fraction.length then
          .error (.of .buildError
            "Amount has more fractional digits than the asset supports."
            (details ++ [("decimals", .number decimals)]))
        else
          .ok (bigInt (stripLeadingZeros (whole ++ padEnd decimals fraction)))

def fromBaseUnits (units decimals : ℕ) : String :=
  if decimals = 0 then String.ofList (Nat.toDigits 10 units)
  else
    let text := padStart (decimals + 1) (Nat.toDigits 10 units)
    let whole := text.take (text.length - decimals)
    let fraction :=
      stripTrailingZeros (text.drop (text.length - decimals))
    if fraction = [] then String.ofList whole
    else String.ofList (whole ++ '.' :: fraction)

/-! ## The value of a text -/

/-- The value of the digits before and after the point. -/
def decimalValue (whole fraction : List Char) : ℚ :=
  (bigInt (whole ++ fraction) : ℚ) / 10 ^ fraction.length

theorem bigInt_append (front back : List Char) :
    bigInt (front ++ back) = bigInt front * 10 ^ back.length + bigInt back := by
  unfold bigInt
  rw [Nat.ofDigitChars_append, Nat.ofDigitChars_eq_ofDigitChars_zero,
    Nat.mul_comm]

theorem bigInt_replicate_zero (n : ℕ) : bigInt (List.replicate n '0') = 0 := by
  unfold bigInt
  rw [Nat.ofDigitChars_replicate_zero, Nat.mul_zero]

@[simp] theorem bigInt_stripLeadingZeros (text : List Char) :
    bigInt (stripLeadingZeros text) = bigInt text := by
  fun_induction stripLeadingZeros text with
  | case1 c rest ih =>
      rw [ih, show '0' :: c :: rest = ['0'] ++ (c :: rest) from rfl,
        bigInt_append, show bigInt ['0'] = 0 from rfl, Nat.zero_mul,
        Nat.zero_add]
  | case2 => rfl

theorem bigInt_padEnd {width : ℕ} {whole fraction : List Char}
    (hwidth : fraction.length ≤ width) :
    (bigInt (whole ++ padEnd width fraction) : ℚ) =
      decimalValue whole fraction * 10 ^ width := by
  have hlength : (List.replicate (width - fraction.length) '0').length =
      width - fraction.length := List.length_replicate
  have hpow : (10 : ℚ) ^ width =
      10 ^ fraction.length * 10 ^ (width - fraction.length) := by
    rw [← pow_add, Nat.add_sub_cancel' hwidth]
  unfold padEnd decimalValue
  rw [← List.append_assoc, bigInt_append, bigInt_replicate_zero, hlength,
    Nat.add_zero, hpow]
  push_cast
  field_simp

/-- Trailing zeros after the point do not change the value. -/
theorem decimalValue_stripTrailingZeros (whole fraction : List Char) :
    decimalValue whole (stripTrailingZeros fraction) =
      decimalValue whole fraction := by
  induction fraction using List.reverseRecOn with
  | nil => rfl
  | append_singleton rest c ih =>
      unfold stripTrailingZeros at ih ⊢
      by_cases hzero : c = '0'
      · have hlast : decimalValue whole (rest ++ [c]) =
            decimalValue whole rest := by
          unfold decimalValue
          rw [← List.append_assoc, bigInt_append, hzero,
            show bigInt ['0'] = 0 from rfl, List.length_append, pow_add]
          push_cast
          field_simp
          simp
        rw [List.rdropWhile_concat_pos _ _ _ (by simp [hzero]), ih, hlast]
      · rw [List.rdropWhile_concat_neg _ _ _ (by simp [hzero])]

/-! ## Reading a text -/

theorem decimalGroups_eq_some {text whole fraction : List Char}
    (h : decimalGroups text = some (whole, fraction)) :
    whole ≠ [] ∧ AllDigits whole ∧ AllDigits fraction ∧
      text = if fraction = [] then whole else whole ++ '.' :: fraction := by
  have hsplit := List.takeWhile_append_dropWhile (p := Char.isDigit) (l := text)
  have hdigits : AllDigits (text.takeWhile Char.isDigit) :=
    fun c hc => List.mem_takeWhile_imp hc
  unfold decimalGroups at h
  cases hrest : text.dropWhile Char.isDigit with
  | nil =>
      rw [hrest, List.append_nil] at hsplit
      simp only [hrest] at h
      split at h
      next => simp at h
      next hne =>
        rw [Option.some.injEq, Prod.mk.injEq] at h
        obtain ⟨hwhole, hfraction⟩ := h
        subst hwhole
        subst hfraction
        exact ⟨hne, hdigits, by simp [AllDigits], by rw [if_pos rfl, hsplit]⟩
  | cons c rest =>
      simp only [hrest] at h
      split at h
      next hmatch =>
        obtain ⟨hpoint, hne, hrestne, hall⟩ := hmatch
        rw [Option.some.injEq, Prod.mk.injEq] at h
        obtain ⟨hwhole, hfraction⟩ := h
        subst hwhole
        subst hfraction
        rw [hrest, hpoint] at hsplit
        exact ⟨hne, hdigits, hall, by rw [if_neg hrestne, hsplit]⟩
      next => simp at h

theorem decimalGroups_whole {whole : List Char} (hne : whole ≠ [])
    (hdigits : AllDigits whole) : decimalGroups whole = some (whole, []) := by
  unfold decimalGroups
  rw [List.takeWhile_eq_self_iff.mpr hdigits,
    List.dropWhile_eq_nil_iff.mpr hdigits]
  simp [hne]

theorem decimalGroups_point {whole fraction : List Char} (hne : whole ≠ [])
    (hdigits : AllDigits whole) (hfraction : fraction ≠ [])
    (hall : AllDigits fraction) :
    decimalGroups (whole ++ '.' :: fraction) = some (whole, fraction) := by
  have htake : (whole ++ '.' :: fraction).takeWhile Char.isDigit = whole := by
    rw [List.takeWhile_append_of_pos hdigits]
    simp
  have hdrop : (whole ++ '.' :: fraction).dropWhile Char.isDigit =
      '.' :: fraction := by
    rw [List.dropWhile_append_of_pos hdigits]
    simp
  unfold decimalGroups
  rw [htake, hdrop]
  simp [hne, hfraction, hall]

/-- The text of an amount reads as this value, with so many digits after the
point. -/
def Reads (amount : String) (value : ℚ) (places : ℕ) : Prop :=
  ∃ whole fraction,
    decimalGroups (jsTrim amount).toList = some (whole, fraction) ∧
      value = decimalValue whole fraction ∧ places = fraction.length

/-- An amount is converted exactly when it reads as a value that the asset
can represent, and then to that value. -/
theorem toBaseUnits_eq_ok {amount : String} {decimals units : ℕ} :
    toBaseUnits amount decimals = .ok units ↔
      ∃ value places, Reads amount value places ∧ places ≤ decimals ∧
        (units : ℚ) = value * 10 ^ decimals := by
  unfold toBaseUnits
  simp only
  split
  next hempty =>
    constructor
    · intro h
      simp at h
    · rintro ⟨value, places, ⟨whole, fraction, hgroups, -⟩, -⟩
      rw [hempty] at hgroups
      simp [decimalGroups] at hgroups
  next hne =>
    split
    next hnone =>
      constructor
      · intro h
        simp at h
      · rintro ⟨value, places, ⟨whole, fraction, hgroups, -⟩, -⟩
        rw [hnone] at hgroups
        simp at hgroups
    next whole fraction hgroups =>
      split
      next hlong =>
        constructor
        · intro h
          simp at h
        · rintro ⟨value, places, ⟨whole', fraction', hgroups', -, hplaces⟩,
            hle, -⟩
          rw [hgroups, Option.some.injEq, Prod.mk.injEq] at hgroups'
          rw [hplaces, ← hgroups'.2] at hle
          omega
      next hshort =>
        have hle : fraction.length ≤ decimals := by omega
        rw [Except.ok.injEq, bigInt_stripLeadingZeros]
        constructor
        · intro hunits
          refine ⟨_, _, ⟨whole, fraction, hgroups, rfl, rfl⟩, hle, ?_⟩
          rw [← hunits, bigInt_padEnd hle]
        · rintro ⟨value, places, ⟨whole', fraction', hgroups', hvalue, -⟩,
            -, hunits⟩
          rw [hgroups, Option.some.injEq, Prod.mk.injEq] at hgroups'
          rw [hvalue, ← hgroups'.1, ← hgroups'.2, ← bigInt_padEnd hle] at hunits
          exact_mod_cast hunits.symm

/-! ## Writing a text -/

theorem AllDigits.sublist {text part : List Char} (hall : AllDigits text)
    (hpart : part.Sublist text) : AllDigits part :=
  fun c hc => hall c (hpart.subset hc)

theorem allDigits_toDigits (n : ℕ) : AllDigits (Nat.toDigits 10 n) :=
  fun _ hc => Nat.isDigit_of_mem_toDigits (by decide) (by decide) hc

theorem allDigits_padStart {width : ℕ} {text : List Char}
    (hall : AllDigits text) : AllDigits (padStart width text) := by
  intro c hc
  rcases List.mem_append.mp hc with hzero | hin
  · rw [List.eq_of_mem_replicate hzero]
    rfl
  · exact hall c hin

theorem bigInt_padStart (width : ℕ) (text : List Char) :
    bigInt (padStart width text) = bigInt text := by
  unfold padStart
  rw [bigInt_append, bigInt_replicate_zero, Nat.zero_mul, Nat.zero_add]

theorem length_padStart (width : ℕ) (text : List Char) :
    width ≤ (padStart width text).length := by
  unfold padStart
  rw [List.length_append, List.length_replicate]
  omega

/-- The digits of base units, with at least one before the point. -/
def paddedDigits (units decimals : ℕ) : List Char :=
  padStart (decimals + 1) (Nat.toDigits 10 units)

def wholeDigits (units decimals : ℕ) : List Char :=
  (paddedDigits units decimals).take
    ((paddedDigits units decimals).length - decimals)

def fractionDigits (units decimals : ℕ) : List Char :=
  (paddedDigits units decimals).drop
    ((paddedDigits units decimals).length - decimals)

theorem length_paddedDigits (units decimals : ℕ) :
    decimals + 1 ≤ (paddedDigits units decimals).length :=
  length_padStart (decimals + 1) (Nat.toDigits 10 units)

theorem length_fractionDigits (units decimals : ℕ) :
    (fractionDigits units decimals).length = decimals := by
  have hlength := length_paddedDigits units decimals
  unfold fractionDigits
  rw [List.length_drop]
  omega

theorem wholeDigits_ne (units decimals : ℕ) :
    wholeDigits units decimals ≠ [] := by
  have hlength := length_paddedDigits units decimals
  apply List.ne_nil_of_length_pos
  unfold wholeDigits
  rw [List.length_take]
  omega

theorem wholeDigits_append_fractionDigits (units decimals : ℕ) :
    wholeDigits units decimals ++ fractionDigits units decimals =
      paddedDigits units decimals :=
  List.take_append_drop _ _

theorem allDigits_wholeDigits (units decimals : ℕ) :
    AllDigits (wholeDigits units decimals) :=
  (allDigits_padStart (allDigits_toDigits units)).sublist
    (List.take_sublist _ _)

theorem allDigits_stripped (units decimals : ℕ) :
    AllDigits (stripTrailingZeros (fractionDigits units decimals)) :=
  ((allDigits_padStart (allDigits_toDigits units)).sublist
    (List.drop_sublist _ _)).sublist (List.rdropWhile_prefix _ _).sublist

/-- Without decimals the digits are written as they are. -/
theorem digits_of_no_decimals (units : ℕ) :
    wholeDigits units 0 = Nat.toDigits 10 units ∧ fractionDigits units 0 = [] := by
  have hpos : 0 < (Nat.toDigits 10 units).length := Nat.length_toDigits_pos
  have hpadded : paddedDigits units 0 = Nat.toDigits 10 units := by
    unfold paddedDigits padStart
    rw [show 0 + 1 - (Nat.toDigits 10 units).length = 0 by omega]
    rfl
  unfold wholeDigits fractionDigits
  rw [hpadded, Nat.sub_zero, List.take_length, List.drop_length]
  exact ⟨rfl, rfl⟩

theorem toList_fromBaseUnits (units decimals : ℕ) :
    (fromBaseUnits units decimals).toList =
      if stripTrailingZeros (fractionDigits units decimals) = [] then
        wholeDigits units decimals
      else
        wholeDigits units decimals ++
          '.' :: stripTrailingZeros (fractionDigits units decimals) := by
  by_cases hzero : decimals = 0
  · subst hzero
    obtain ⟨hwhole, hfraction⟩ := digits_of_no_decimals units
    have hstripped : stripTrailingZeros [] = [] := rfl
    rw [hwhole, hfraction, if_pos hstripped, fromBaseUnits, if_pos rfl,
      String.toList_ofList]
  · unfold fromBaseUnits
    rw [if_neg hzero]
    simp only [apply_ite String.toList, String.toList_ofList]
    rfl

/-- The text of base units is read back as its two groups of digits. -/
theorem decimalGroups_fromBaseUnits (units decimals : ℕ) :
    decimalGroups (fromBaseUnits units decimals).toList =
      some (wholeDigits units decimals,
        stripTrailingZeros (fractionDigits units decimals)) := by
  have hwhole := wholeDigits_ne units decimals
  have hdigits := allDigits_wholeDigits units decimals
  rw [toList_fromBaseUnits]
  by_cases hnil : stripTrailingZeros (fractionDigits units decimals) = []
  · rw [if_pos hnil, hnil]
    exact decimalGroups_whole hwhole hdigits
  · rw [if_neg hnil]
    exact decimalGroups_point hwhole hdigits hnil
      (allDigits_stripped units decimals)

/-- The text of base units is a plain decimal text of their value. -/
theorem fromBaseUnits_groups (units decimals : ℕ) :
    ∃ whole fraction,
      decimalGroups (fromBaseUnits units decimals).toList =
          some (whole, fraction) ∧
        decimalValue whole fraction = (units : ℚ) / 10 ^ decimals := by
  have hunits : bigInt (paddedDigits units decimals) = units := by
    unfold paddedDigits
    rw [bigInt_padStart]
    exact Nat.ofDigitChars_ten_toDigits
  refine ⟨_, _, decimalGroups_fromBaseUnits units decimals, ?_⟩
  rw [decimalValue_stripTrailingZeros, decimalValue,
    wholeDigits_append_fractionDigits, hunits, length_fractionDigits]

/-- The decimal package reads a plain decimal text as its exact value. -/
def ReadsDecimals (rt : Runtime) : Prop :=
  ∀ text whole fraction,
    decimalGroups text.toList = some (whole, fraction) →
      rt.toDecimal text = some (.finite (decimalValue whole fraction))

theorem toDecimal_fromBaseUnits {rt : Runtime} (hreads : ReadsDecimals rt)
    (units decimals : ℕ) :
    rt.toDecimal (fromBaseUnits units decimals) =
      some (.finite ((units : ℚ) / 10 ^ decimals)) := by
  obtain ⟨whole, fraction, hgroups, hvalue⟩ :=
    fromBaseUnits_groups units decimals
  rw [hreads _ _ _ hgroups, hvalue]

/-! ## The reference runtime -/

theorem foldlM_digits {text : List Char} (hall : AllDigits text)
    (value : ℕ) :
    text.foldlM (fun value c =>
        if c.isDigit then some (10 * value + (c.toNat - 48)) else none)
      value = some (Nat.ofDigitChars 10 text value) := by
  induction text generalizing value with
  | nil => rfl
  | cons c rest ih =>
      have hdigit := hall c List.mem_cons_self
      have hrest := ih (fun x hx => hall x (List.mem_cons_of_mem c hx))
      rw [List.foldlM_cons, if_pos hdigit, Nat.ofDigitChars_cons]
      exact hrest _

theorem natural_of_digits {text : List Char} (hne : text ≠ [])
    (hall : AllDigits text) : Reference.natural? text = some (bigInt text) := by
  unfold Reference.natural? bigInt
  rw [if_neg (by simpa using hne)]
  exact foldlM_digits hall 0

theorem unsignedDecimal_of_groups {text whole fraction : List Char}
    (h : decimalGroups text = some (whole, fraction)) :
    Reference.unsignedDecimal? text = some (decimalValue whole fraction) := by
  obtain ⟨hne, hwhole, hfraction, htext⟩ := decimalGroups_eq_some h
  have hpoint : ∀ c ∈ whole, (c != '.') = true := by
    intro c hc
    have hdigit := hwhole c hc
    rw [bne_iff_ne]
    rintro rfl
    exact absurd hdigit (by decide)
  unfold Reference.unsignedDecimal?
  by_cases hnil : fraction = []
  · rw [if_pos hnil] at htext
    subst hnil
    rw [htext, List.dropWhile_eq_nil_iff.mpr hpoint,
      List.takeWhile_eq_self_iff.mpr hpoint]
    simp [natural_of_digits hne hwhole, decimalValue]
  · rw [if_neg hnil] at htext
    have htake : (whole ++ '.' :: fraction).takeWhile (fun c => c != '.') =
        whole := by
      rw [List.takeWhile_append_of_pos hpoint]
      simp
    have hdrop : (whole ++ '.' :: fraction).dropWhile (fun c => c != '.') =
        '.' :: fraction := by
      rw [List.dropWhile_append_of_pos hpoint]
      simp
    rw [htext, htake, hdrop]
    simp only [natural_of_digits hne hwhole, natural_of_digits hnil hfraction,
      Option.bind_eq_bind, Option.bind_some, Option.pure_def, decimalValue,
      bigInt_append, Option.some.injEq]
    push_cast
    field_simp

theorem reference_readsDecimals : ReadsDecimals .reference := by
  intro text whole fraction h
  obtain ⟨hne, hwhole, -, htext⟩ := decimalGroups_eq_some h
  have hminus : ∀ rest, text.toList ≠ '-' :: rest := by
    intro rest heq
    obtain ⟨head, tail, hsplit⟩ := List.exists_cons_of_ne_nil hne
    have hdigit := hwhole head (by rw [hsplit]; exact List.mem_cons_self)
    have hhead : head = '-' := by
      rw [heq, hsplit] at htext
      split at htext
      next => exact (List.cons.inj htext).1.symm
      next => exact (List.cons.inj htext).1.symm
    rw [hhead] at hdigit
    exact absurd hdigit (by decide)
  have hdecimal : Reference.decimal? text =
      some (decimalValue whole fraction) := by
    unfold Reference.decimal?
    split
    next rest heq => exact absurd heq (hminus rest)
    next => exact unsignedDecimal_of_groups h
  change (Reference.decimal? text).map Decimal.finite = _
  rw [hdecimal, Option.map_some]

end Execution
end Orvex
