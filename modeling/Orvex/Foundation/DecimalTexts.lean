import Mathlib.Data.List.TakeWhile
import Orvex.Foundation.DecimalArithmetic

/-!
# Texts of decimal numbers

The text of a number has a point, and an exponent where the point alone would
be far from the digits.  Reading the text gives the value of the number.
-/

namespace DecimalArithmetic

open SignificantDigits (ten_zpow_ne_zero)

/-! ## Writing -/

/-- The digits with a point after so many of them. -/
def pointText (digits : List Char) (place : ℤ) : List Char :=
  if place ≤ 0 then
    '0' :: '.' :: (List.replicate (-place).toNat '0' ++ digits)
  else if (digits.length : ℤ) ≤ place then
    digits ++ List.replicate (place.toNat - digits.length) '0'
  else digits.take place.toNat ++ '.' :: digits.drop place.toNat

def exponentText (e : ℤ) : List Char :=
  'E' :: (if e < 0 then '-' else '+') :: Nat.toDigits 10 e.natAbs

def signText (negative : Bool) : List Char := if negative then ['-'] else []

/-- `str(number)`. -/
def Number.text : Number → List Char
  | .infinity s => signText s ++ "Infinity".toList
  | .finite s n e =>
      let digits := Nat.toDigits 10 n
      let left := e + digits.length
      let place := if e ≤ 0 ∧ -6 < left then left else 1
      signText s ++ (pointText digits place ++
        if left = place then [] else exponentText (left - place))

/-! ## Reading -/

def readNatural (text : List Char) : Option ℕ :=
  if text ≠ [] ∧ text.all Char.isDigit then
    some (Nat.ofDigitChars 10 text 0)
  else none

def readPoint (text : List Char) : Option ℚ :=
  let whole := text.takeWhile (fun c => c != '.')
  match text.dropWhile (fun c => c != '.') with
  | [] => (readNatural whole).map (fun n : ℕ => (n : ℚ))
  | _ :: fraction =>
      (readNatural (whole ++ fraction)).map
        (fun n : ℕ => (n : ℚ) / 10 ^ fraction.length)

def readInteger : List Char → Option ℤ
  | '+' :: rest => (readNatural rest).map (fun n : ℕ => (n : ℤ))
  | '-' :: rest => (readNatural rest).map (fun n : ℕ => -(n : ℤ))
  | rest => (readNatural rest).map (fun n : ℕ => (n : ℤ))

def readUnsigned (text : List Char) : Option ℚ :=
  let mantissa := text.takeWhile (fun c => c != 'E')
  match text.dropWhile (fun c => c != 'E') with
  | [] => readPoint mantissa
  | _ :: exponent =>
      (readPoint mantissa).bind (fun x =>
        (readInteger exponent).map (fun e => x * 10 ^ e))

/-- The value that a decimal text spells. -/
def read : List Char → Option ℚ
  | '-' :: rest => (readUnsigned rest).map (fun x => -x)
  | rest => readUnsigned rest

/-! ## Round trips -/

def AllDigits (text : List Char) : Prop := ∀ c ∈ text, c.isDigit = true

theorem allDigits_toDigits (n : ℕ) : AllDigits (Nat.toDigits 10 n) := by
  intro c hc
  exact Nat.isDigit_of_mem_toDigits (by norm_num) (by norm_num) hc

theorem allDigits_zeros (n : ℕ) : AllDigits (List.replicate n '0') := by
  intro c hc
  rw [List.eq_of_mem_replicate hc]
  rfl

theorem AllDigits.append {first second : List Char} (h : AllDigits first)
    (h' : AllDigits second) : AllDigits (first ++ second) := by
  intro c hc
  rcases List.mem_append.mp hc with hfirst | hsecond
  · exact h c hfirst
  · exact h' c hsecond

theorem AllDigits.ne {text : List Char} (h : AllDigits text) (sign : Char)
    (hsign : sign.isDigit = false) : ∀ c ∈ text, (c != sign) = true := by
  intro c hc
  apply bne_iff_ne.mpr
  intro heq
  have hdigit := h c hc
  rw [heq, hsign] at hdigit
  cases hdigit

theorem readNatural_of_digits {text : List Char} (hne : text ≠ [])
    (h : AllDigits text) :
    readNatural text = some (Nat.ofDigitChars 10 text 0) :=
  if_pos ⟨hne, List.all_eq_true.mpr h⟩

theorem readNatural_toDigits (n : ℕ) :
    readNatural (Nat.toDigits 10 n) = some n := by
  rw [readNatural_of_digits Nat.toDigits_ne_nil (allDigits_toDigits n),
    Nat.ofDigitChars_ten_toDigits]

theorem readPoint_digits {text : List Char} (hne : text ≠ [])
    (h : AllDigits text) :
    readPoint text = some (Nat.ofDigitChars 10 text 0 : ℚ) := by
  have hpoint := h.ne '.' rfl
  unfold readPoint
  rw [List.dropWhile_eq_nil_iff.mpr hpoint,
    List.takeWhile_eq_self_iff.mpr hpoint]
  dsimp only
  rw [readNatural_of_digits hne h]
  rfl

theorem readPoint_point (whole fraction : List Char)
    (hne : whole ++ fraction ≠ []) (hwhole : AllDigits whole)
    (hfraction : AllDigits fraction) :
    readPoint (whole ++ '.' :: fraction) =
      some ((Nat.ofDigitChars 10 (whole ++ fraction) 0 : ℚ) /
        10 ^ fraction.length) := by
  have hpoint := hwhole.ne '.' rfl
  have htake : (whole ++ '.' :: fraction).takeWhile (fun c => c != '.') =
      whole := by
    rw [List.takeWhile_append_of_pos hpoint]
    simp
  have hdrop : (whole ++ '.' :: fraction).dropWhile (fun c => c != '.') =
      '.' :: fraction := by
    rw [List.dropWhile_append_of_pos hpoint]
    simp
  unfold readPoint
  rw [htake, hdrop]
  dsimp only
  rw [readNatural_of_digits hne (hwhole.append hfraction)]
  rfl

/-- Reading the digits with a point. -/
theorem readPoint_pointText {digits : List Char} (hne : digits ≠ [])
    (h : AllDigits digits) (place : ℤ) :
    readPoint (pointText digits place) =
      some ((Nat.ofDigitChars 10 digits 0 : ℚ) *
        10 ^ (place - digits.length)) := by
  unfold pointText
  split_ifs with hlow hhigh
  · have hzeros := allDigits_zeros (-place).toNat
    have hread := readPoint_point ['0']
      (List.replicate (-place).toNat '0' ++ digits) (by simp)
      (allDigits_zeros 1) (hzeros.append h)
    have hdigits : Nat.ofDigitChars 10
        (['0'] ++ (List.replicate (-place).toNat '0' ++ digits)) 0 =
        Nat.ofDigitChars 10 digits 0 := by
      rw [Nat.ofDigitChars_append, Nat.ofDigitChars_append]
      have hone : Nat.ofDigitChars 10 ['0'] 0 = 0 := rfl
      rw [hone, Nat.ofDigitChars_replicate_zero, Nat.mul_zero]
    have hexponent : place - digits.length =
        -((-place).toNat + digits.length : ℕ) := by
      omega
    change readPoint (['0'] ++ '.' :: _) = _
    rw [hread, hdigits, hexponent, zpow_neg, zpow_natCast, div_eq_mul_inv,
      List.length_append, List.length_replicate]
  · rw [readPoint_digits (by simp [hne])
      (h.append (allDigits_zeros _)), Nat.ofDigitChars_append,
      Nat.ofDigitChars_replicate_zero]
    have hexponent : place - digits.length =
        (place.toNat - digits.length : ℕ) := by
      omega
    rw [hexponent, zpow_natCast]
    push_cast
    rw [mul_comm]
  · have hread := readPoint_point (digits.take place.toNat)
      (digits.drop place.toNat)
      (by rw [List.take_append_drop]; exact hne)
      (fun c hc => h c (List.mem_of_mem_take hc))
      (fun c hc => h c (List.mem_of_mem_drop hc))
    have hexponent : place - digits.length =
        -(digits.length - place.toNat : ℕ) := by
      omega
    rw [hread, List.take_append_drop, List.length_drop, hexponent, zpow_neg,
      zpow_natCast, div_eq_mul_inv]

theorem pointText_ne {digits : List Char} (h : AllDigits digits) (place : ℤ)
    (sign : Char) (hsign : sign.isDigit = false) (hpoint : sign ≠ '.') :
    ∀ c ∈ pointText digits place, (c != sign) = true := by
  intro c hc
  have hcases : c.isDigit = true ∨ c = '.' := by
    unfold pointText at hc
    split_ifs at hc with hlow hhigh
    · rcases List.mem_cons.mp hc with hzero | hc
      · exact Or.inl (by rw [hzero]; rfl)
      · rcases List.mem_cons.mp hc with hdot | hc
        · exact Or.inr hdot
        · exact Or.inl (((allDigits_zeros _).append h) c hc)
    · exact Or.inl ((h.append (allDigits_zeros _)) c hc)
    · rcases List.mem_append.mp hc with hc | hc
      · exact Or.inl (h c (List.mem_of_mem_take hc))
      · rcases List.mem_cons.mp hc with hdot | hc
        · exact Or.inr hdot
        · exact Or.inl (h c (List.mem_of_mem_drop hc))
  apply bne_iff_ne.mpr
  intro heq
  rcases hcases with hdigit | hdot
  · rw [heq, hsign] at hdigit
    cases hdigit
  · exact hpoint (heq.symm.trans hdot)

theorem readInteger_exponent (e : ℤ) :
    readInteger ((if e < 0 then '-' else '+') :: Nat.toDigits 10 e.natAbs) =
      some e := by
  by_cases he : e < 0
  · rw [if_pos he]
    simp only [readInteger, readNatural_toDigits, Option.map_some,
      Option.some.injEq]
    omega
  · rw [if_neg he]
    simp only [readInteger, readNatural_toDigits, Option.map_some,
      Option.some.injEq]
    omega

/-- Reading a mantissa, with or without an exponent. -/
theorem readUnsigned_mantissa {mantissa : List Char} {x : ℚ}
    (hmantissa : ∀ c ∈ mantissa, (c != 'E') = true)
    (hread : readPoint mantissa = some x) :
    readUnsigned mantissa = some x := by
  unfold readUnsigned
  rw [List.dropWhile_eq_nil_iff.mpr hmantissa,
    List.takeWhile_eq_self_iff.mpr hmantissa]
  exact hread

theorem readUnsigned_exponent {mantissa : List Char} {x : ℚ}
    (hmantissa : ∀ c ∈ mantissa, (c != 'E') = true)
    (hread : readPoint mantissa = some x) (e : ℤ) :
    readUnsigned (mantissa ++ exponentText e) = some (x * 10 ^ e) := by
  have htake : (mantissa ++ exponentText e).takeWhile (fun c => c != 'E') =
      mantissa := by
    rw [List.takeWhile_append_of_pos hmantissa]
    simp [exponentText]
  have hdrop : (mantissa ++ exponentText e).dropWhile (fun c => c != 'E') =
      exponentText e := by
    rw [List.dropWhile_append_of_pos hmantissa]
    simp [exponentText]
  unfold readUnsigned
  rw [htake, hdrop]
  simp only [exponentText, hread, readInteger_exponent, Option.bind_some,
    Option.map_some]

theorem read_signed {text : List Char} {s : Bool} {n : ℕ} {e : ℤ}
    (hhead : ∀ rest, text ≠ '-' :: rest)
    (h : readUnsigned text = some ((n : ℚ) * 10 ^ e)) :
    read (signText s ++ text) = some ((signed s n : ℚ) * 10 ^ e) := by
  cases s with
  | true =>
      change (readUnsigned text).map (fun x => -x) = _
      rw [h]
      simp [signed]
  | false =>
      change read text = _
      unfold read
      split
      · next rest => exact absurd rfl (hhead rest)
      · exact h

/-- The digits with a point begin with a digit. -/
theorem pointText_head {digits : List Char} (hne : digits ≠ [])
    (h : AllDigits digits) (place : ℤ) (after : List Char) :
    ∀ rest, pointText digits place ++ after ≠ '-' :: rest := by
  intro rest heq
  have hminus := pointText_ne h place '-' rfl (by decide)
  cases htext : pointText digits place with
  | nil =>
      unfold pointText at htext
      split_ifs at htext
      · exact hne (List.append_eq_nil_iff.mp htext).1
      · cases (List.append_eq_nil_iff.mp htext).2
  | cons c tail =>
      rw [htext] at hminus heq
      have hc := hminus c List.mem_cons_self
      rw [(List.cons.inj heq).1] at hc
      cases hc

/-- Reading the text of a number gives its value. -/
theorem read_text (d : Number) : read d.text = d.value := by
  cases d with
  | infinity s => cases s <;> rfl
  | finite s n e =>
      have hdigits := allDigits_toDigits n
      have hpoint : ∀ place, readPoint (pointText (Nat.toDigits 10 n) place) =
          some ((n : ℚ) * 10 ^ (place - (Nat.toDigits 10 n).length)) := by
        intro place
        rw [readPoint_pointText Nat.toDigits_ne_nil hdigits,
          Nat.ofDigitChars_ten_toDigits]
      have hmantissa := fun place =>
        pointText_ne hdigits place 'E' rfl (by decide)
      have hhead := fun place after =>
        pointText_head Nat.toDigits_ne_nil hdigits place after
      have htext : ∀ place : ℤ, read (signText s ++
          (pointText (Nat.toDigits 10 n) place ++
            if e + (Nat.toDigits 10 n).length = place then []
            else exponentText
              (e + (Nat.toDigits 10 n).length - place))) =
          some ((signed s n : ℚ) * 10 ^ e) := by
        intro place
        apply read_signed (hhead place _)
        by_cases hplace : e + (Nat.toDigits 10 n).length = place
        · rw [if_pos hplace, List.append_nil,
            readUnsigned_mantissa (hmantissa place) (hpoint place)]
          congr 3
          omega
        · rw [if_neg hplace,
            readUnsigned_exponent (hmantissa place) (hpoint place),
            mul_assoc, ← zpow_add₀ (by norm_num : (10 : ℚ) ≠ 0)]
          congr 3
          omega
      exact htext _

end DecimalArithmetic
