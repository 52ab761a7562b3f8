import Orvex.Execution.Money
import Orvex.Foundation.Action

/-!
# The codec of token amounts

A decimal text and a number of base units are two spellings of one value.
Reading a text is exact on the texts that the asset can represent and refuses
every other text, writing base units gives the one spelling of their value
without redundant zeros, and two amounts compare equal exactly when they stand
for the same value.
-/

namespace Orvex
namespace Execution

def amountsEqual (a b : String) (decimals : ℕ) : Except Thrown Bool := do
  let left ← toBaseUnits a decimals
  let right ← toBaseUnits b decimals
  return left == right

/-! ## Decimal texts -/

/-- Digits with an optional fraction. -/
structure Spells (text whole fraction : List Char) : Prop where
  whole_ne : whole ≠ []
  whole_digits : AllDigits whole
  fraction_digits : AllDigits fraction
  text_eq : text = if fraction = [] then whole else whole ++ '.' :: fraction

theorem decimalGroups_iff {text whole fraction : List Char} :
    decimalGroups text = some (whole, fraction) ↔
      Spells text whole fraction := by
  constructor
  · intro hgroups
    obtain ⟨hne, hwhole, hfraction, htext⟩ := decimalGroups_eq_some hgroups
    exact ⟨hne, hwhole, hfraction, htext⟩
  · intro hspells
    have htext := hspells.text_eq
    by_cases hnil : fraction = []
    · rw [if_pos hnil] at htext
      rw [htext, hnil]
      exact decimalGroups_whole hspells.whole_ne hspells.whole_digits
    · rw [if_neg hnil] at htext
      rw [htext]
      exact decimalGroups_point hspells.whole_ne hspells.whole_digits hnil
        hspells.fraction_digits

theorem Spells.unique {text whole fraction whole' fraction' : List Char}
    (h : Spells text whole fraction) (h' : Spells text whole' fraction') :
    whole = whole' ∧ fraction = fraction' := by
  have hgroups := decimalGroups_iff.mpr h
  rw [decimalGroups_iff.mpr h', Option.some.injEq, Prod.mk.injEq] at hgroups
  exact ⟨hgroups.1.symm, hgroups.2.symm⟩

/-- The value that a decimal text stands for. -/
def Denotes (text : List Char) (value : ℚ) : Prop :=
  ∃ whole fraction, Spells text whole fraction ∧
    value = decimalValue whole fraction

theorem whitespace_of_spells {text whole fraction : List Char}
    (h : Spells text whole fraction) {c : Char} (hc : c ∈ text) :
    jsWhitespace c = false := by
  have hdigit : ∀ x : Char, x.isDigit = true → jsWhitespace x = false := by
    intro x hx
    have hbounds : 48 ≤ x.toNat ∧ x.toNat ≤ 57 := by
      simpa [Char.isDigit_iff_toNat] using hx
    unfold jsWhitespace
    simp
    omega
  have hmem : c ∈ whole ∨ c = '.' ∨ c ∈ fraction := by
    have htext := h.text_eq
    by_cases hnil : fraction = []
    · rw [if_pos hnil] at htext
      exact Or.inl (htext ▸ hc)
    · rw [if_neg hnil] at htext
      rw [htext, List.mem_append, List.mem_cons] at hc
      exact hc
  rcases hmem with hwhole | hpoint | hfraction
  · exact hdigit c (h.whole_digits c hwhole)
  · rw [hpoint]
    rfl
  · exact hdigit c (h.fraction_digits c hfraction)

theorem dropWhile_of_forall {α : Type*} {p : α → Bool} {l : List α}
    (h : ∀ x ∈ l, p x = false) : l.dropWhile p = l := by
  cases l with
  | nil => rfl
  | cons x rest => simp [h x List.mem_cons_self]

/-- A decimal text has nothing to trim. -/
theorem jsTrim_of_spells {text : String} {whole fraction : List Char}
    (h : Spells text.toList whole fraction) : jsTrim text = text := by
  have hfront : text.toList.dropWhile jsWhitespace = text.toList :=
    dropWhile_of_forall (fun c hc => whitespace_of_spells h hc)
  have hback : text.toList.reverse.dropWhile jsWhitespace =
      text.toList.reverse :=
    dropWhile_of_forall
      (fun c hc => whitespace_of_spells h (List.mem_reverse.mp hc))
  unfold jsTrim
  rw [hfront, hback, List.reverse_reverse, String.ofList_toList]

/-! ## Digit strings and numbers -/

theorem digitChar_of_isDigit {c : Char} (h : c.isDigit = true) :
    Nat.digitChar (c.toNat - 48) = c ∧ c.toNat - 48 < 10 := by
  have hbounds : 48 ≤ c.toNat ∧ c.toNat ≤ 57 := by
    simpa [Char.isDigit_iff_toNat] using h
  have hlt : c.toNat - 48 < 10 := by omega
  refine ⟨?_, hlt⟩
  apply Char.toNat_inj.mp
  rw [Nat.toNat_digitChar_of_lt_ten hlt]
  omega

theorem bigInt_concat (text : List Char) (c : Char) :
    bigInt (text ++ [c]) = 10 * bigInt text + (c.toNat - 48) := by
  unfold bigInt
  rw [Nat.ofDigitChars_append, Nat.ofDigitChars_cons, Nat.ofDigitChars_nil]
  rfl

/-- A digit string without a redundant zero in front. -/
def NoLeadingZero (text : List Char) : Prop :=
  text = ['0'] ∨ text.head? ≠ some '0'

instance (text : List Char) : Decidable (NoLeadingZero text) :=
  inferInstanceAs (Decidable (_ ∨ _))

theorem bigInt_pos {text : List Char} (hall : AllDigits text)
    (hne : text ≠ []) (hhead : text.head? ≠ some '0') : 0 < bigInt text := by
  induction text using List.reverseRecOn with
  | nil => exact absurd rfl hne
  | append_singleton rest c ih =>
      rw [bigInt_concat]
      by_cases hrest : rest = []
      · subst hrest
        have hdigit := hall c (by simp)
        have hchar := digitChar_of_isDigit hdigit
        have hzero : c.toNat - 48 ≠ 0 := by
          intro hzero
          rw [hzero] at hchar
          apply hhead
          simp [← hchar.1]
        omega
      · have hpos := ih
          (fun x hx => hall x (List.mem_append_left _ hx)) hrest
          (by rwa [List.head?_append_of_ne_nil rest hrest] at hhead)
        omega

/-- Digits without a redundant zero are the digits of their number. -/
theorem toDigits_bigInt {text : List Char} (hall : AllDigits text)
    (hne : text ≠ []) (hzero : NoLeadingZero text) :
    Nat.toDigits 10 (bigInt text) = text := by
  induction text using List.reverseRecOn with
  | nil => exact absurd rfl hne
  | append_singleton rest c ih =>
      have hchar := digitChar_of_isDigit (hall c (by simp))
      by_cases hrest : rest = []
      · rw [hrest, bigInt_concat, show bigInt [] = 0 from rfl, Nat.mul_zero,
          Nat.zero_add, Nat.toDigits_of_lt_base hchar.2, hchar.1]
        rfl
      · have hallRest : AllDigits rest :=
          fun x hx => hall x (List.mem_append_left _ hx)
        have hhead : rest.head? ≠ some '0' := by
          rcases hzero with hsingle | hhead
          · have hlength := congrArg List.length hsingle
            have hpos := List.length_pos_iff.mpr hrest
            rw [List.length_append] at hlength
            simp at hlength
            exact absurd hlength hrest
          · rwa [List.head?_append_of_ne_nil rest hrest] at hhead
        have hpos := bigInt_pos hallRest hrest hhead
        have hdigits := ih hallRest hrest (Or.inr hhead)
        have hlast : Nat.toDigits 10 (c.toNat - 48) = [c] := by
          rw [Nat.toDigits_of_lt_base hchar.2, hchar.1]
        calc
          Nat.toDigits 10 (bigInt (rest ++ [c])) =
              Nat.toDigits 10 (10 * bigInt rest + (c.toNat - 48)) := by
                rw [bigInt_concat]
          _ = Nat.toDigits 10 (bigInt rest) ++
                Nat.toDigits 10 (c.toNat - 48) :=
              (Nat.toDigits_append_toDigits (by decide) hpos hchar.2).symm
          _ = rest ++ [c] := by rw [hdigits, hlast]

theorem noLeadingZero_digitChar :
    ∀ n < 10, NoLeadingZero [Nat.digitChar n] := by
  decide

/-- The digits of a number have no redundant zero in front. -/
theorem noLeadingZero_toDigits (n : ℕ) :
    NoLeadingZero (Nat.toDigits 10 n) := by
  induction n using Nat.strongRecOn with
  | ind n ih =>
      by_cases hsmall : n < 10
      · rw [Nat.toDigits_of_lt_base hsmall]
        exact noLeadingZero_digitChar n hsmall
      · have hquotient : n / 10 < n := by omega
        have hpos : 0 < n / 10 := by omega
        rw [Nat.toDigits_of_base_le (by decide) (by omega)]
        rcases ih (n / 10) hquotient with hzero | hhead
        · have hvalue : bigInt (Nat.toDigits 10 (n / 10)) = n / 10 :=
            Nat.ofDigitChars_ten_toDigits
          rw [hzero] at hvalue
          exact absurd hvalue (by rw [show bigInt ['0'] = 0 from rfl]; omega)
        · apply Or.inr
          rwa [List.head?_append_of_ne_nil _ Nat.toDigits_ne_nil]

theorem bigInt_lt {text : List Char} (hall : AllDigits text) :
    bigInt text < 10 ^ text.length := by
  induction text using List.reverseRecOn with
  | nil => decide
  | append_singleton rest c ih =>
      have hrest := ih (fun x hx => hall x (List.mem_append_left _ hx))
      have hlast := (digitChar_of_isDigit (hall c (by simp))).2
      rw [bigInt_concat, List.length_append, List.length_singleton, pow_succ]
      omega

/-- Digit strings of one length are determined by their number. -/
theorem bigInt_injective {text text' : List Char} (hall : AllDigits text)
    (hall' : AllDigits text') (hlength : text.length = text'.length)
    (hvalue : bigInt text = bigInt text') : text = text' := by
  induction text using List.reverseRecOn generalizing text' with
  | nil => exact (List.length_eq_zero_iff.mp hlength.symm).symm
  | append_singleton rest c ih =>
      rcases List.eq_nil_or_concat text' with hnil | ⟨rest', c', hconcat⟩
      · rw [hnil] at hlength
        simp at hlength
      · rw [List.concat_eq_append] at hconcat
        subst hconcat
        have hchar := digitChar_of_isDigit (hall c (by simp))
        have hchar' := digitChar_of_isDigit (hall' c' (by simp))
        rw [bigInt_concat, bigInt_concat] at hvalue
        have hfront : bigInt rest = bigInt rest' := by omega
        have hlast : c.toNat - 48 = c'.toNat - 48 := by omega
        have hrest := ih (fun x hx => hall x (List.mem_append_left _ hx))
          (fun x hx => hall' x (List.mem_append_left _ hx))
          (by simpa using hlength) hfront
        rw [hrest, ← hchar.1, hlast, hchar'.1]

/-! ## Canonical texts -/

/-- A fraction without a redundant zero behind. -/
def NoTrailingZero (fraction : List Char) : Prop :=
  fraction.getLast? ≠ some '0'

instance (fraction : List Char) : Decidable (NoTrailingZero fraction) :=
  inferInstanceAs (Decidable (_ ≠ _))

theorem stripTrailingZeros_append (fraction : List Char) (n : ℕ) :
    stripTrailingZeros (fraction ++ List.replicate n '0') =
      stripTrailingZeros fraction := by
  induction n with
  | zero => rw [List.replicate_zero, List.append_nil]
  | succ n ih =>
      rw [List.replicate_succ', ← List.append_assoc, ← ih]
      unfold stripTrailingZeros
      rw [List.rdropWhile_concat_pos _ _ _ (by simp)]

theorem stripTrailingZeros_of_none {fraction : List Char}
    (h : NoTrailingZero fraction) : stripTrailingZeros fraction = fraction := by
  unfold stripTrailingZeros
  rw [List.rdropWhile_eq_self_iff]
  intro hne hzero
  apply h
  rw [List.getLast?_eq_getLast_of_ne_nil hne]
  simpa using hzero

theorem noTrailingZero_strip (fraction : List Char) :
    NoTrailingZero (stripTrailingZeros fraction) := by
  intro hlast
  have hne : stripTrailingZeros fraction ≠ [] := by
    intro hnil
    rw [hnil] at hlast
    simp at hlast
  have hkept := List.rdropWhile_last_not (fun c => c == '0') fraction hne
  rw [List.getLast?_eq_getLast_of_ne_nil hne, Option.some.injEq] at hlast
  apply hkept
  rw [beq_iff_eq]
  exact hlast

/-- A decimal text without redundant zeros. -/
def Canonical (text : List Char) : Prop :=
  ∃ whole fraction, Spells text whole fraction ∧ NoLeadingZero whole ∧
    NoTrailingZero fraction

theorem noLeadingZero_wholeDigits (units decimals : ℕ) :
    NoLeadingZero (wholeDigits units decimals) := by
  have hpositive : 0 < (Nat.toDigits 10 units).length :=
    Nat.length_toDigits_pos
  by_cases hshort : (Nat.toDigits 10 units).length ≤ decimals
  · -- One padded zero is left before the point.
    have hlength : (paddedDigits units decimals).length = decimals + 1 := by
      unfold paddedDigits padStart
      rw [List.length_append, List.length_replicate]
      omega
    have hpadding : decimals + 1 - (Nat.toDigits 10 units).length =
        (decimals - (Nat.toDigits 10 units).length) + 1 := by
      omega
    apply Or.inl
    unfold wholeDigits
    rw [hlength, Nat.add_sub_cancel_left]
    unfold paddedDigits padStart
    rw [hpadding, List.replicate_succ]
    rfl
  · have hpadded : paddedDigits units decimals = Nat.toDigits 10 units := by
      unfold paddedDigits padStart
      rw [show decimals + 1 - (Nat.toDigits 10 units).length = 0 by omega]
      rfl
    have hhead : (wholeDigits units decimals).head? =
        (Nat.toDigits 10 units).head? := by
      unfold wholeDigits
      rw [hpadded, List.head?_take, if_neg (by omega)]
    rcases noLeadingZero_toDigits units with hzero | hnonzero
    · have hdecimals : decimals = 0 := by
        rw [hzero] at hshort
        simp at hshort
        exact hshort
      rw [hdecimals, (digits_of_no_decimals units).1]
      exact Or.inl hzero
    · apply Or.inr
      rwa [hhead]

theorem canonical_fromBaseUnits (units decimals : ℕ) :
    Canonical (fromBaseUnits units decimals).toList :=
  ⟨_, _, decimalGroups_iff.mp (decimalGroups_fromBaseUnits units decimals),
    noLeadingZero_wholeDigits units decimals, noTrailingZero_strip _⟩

theorem denotes_fromBaseUnits (units decimals : ℕ) :
    Denotes (fromBaseUnits units decimals).toList
      ((units : ℚ) / 10 ^ decimals) := by
  obtain ⟨whole, fraction, hgroups, hvalue⟩ :=
    fromBaseUnits_groups units decimals
  exact ⟨whole, fraction, decimalGroups_iff.mp hgroups, hvalue.symm⟩

theorem allDigits_padEnd {width : ℕ} {text : List Char}
    (hall : AllDigits text) : AllDigits (padEnd width text) := by
  intro c hc
  rcases List.mem_append.mp hc with hin | hzero
  · exact hall c hin
  · rw [List.eq_of_mem_replicate hzero]
    rfl

theorem length_padEnd {width : ℕ} {text : List Char}
    (hlength : text.length ≤ width) : (padEnd width text).length = width := by
  unfold padEnd
  rw [List.length_append, List.length_replicate]
  omega

/-- A value has one canonical text. -/
theorem Canonical.unique {text text' : List Char} {value : ℚ}
    (hcanonical : Canonical text) (hcanonical' : Canonical text')
    (hvalue : Denotes text value) (hvalue' : Denotes text' value) :
    text = text' := by
  obtain ⟨whole, fraction, hspells, hleading, htrailing⟩ := hcanonical
  obtain ⟨whole', fraction', hspells', hleading', htrailing'⟩ := hcanonical'
  have hsame : decimalValue whole fraction = decimalValue whole' fraction' := by
    obtain ⟨w, f, h, hv⟩ := hvalue
    obtain ⟨w', f', h', hv'⟩ := hvalue'
    have hparts := hspells.unique h
    have hparts' := hspells'.unique h'
    rw [hparts.1, hparts.2, hparts'.1, hparts'.2, ← hv, ← hv']
  -- Both texts are padded to the longer of the two fractions.
  let width := max fraction.length fraction'.length
  have hwidth : fraction.length ≤ width := Nat.le_max_left _ _
  have hwidth' : fraction'.length ≤ width := Nat.le_max_right _ _
  have hnumbers : bigInt (whole ++ padEnd width fraction) =
      bigInt (whole' ++ padEnd width fraction') := by
    have hcast : (bigInt (whole ++ padEnd width fraction) : ℚ) =
        decimalValue whole fraction * 10 ^ width := bigInt_padEnd hwidth
    rw [hsame, ← bigInt_padEnd hwidth'] at hcast
    exact_mod_cast hcast
  have hdigits : AllDigits (padEnd width fraction) :=
    allDigits_padEnd hspells.fraction_digits
  have hdigits' : AllDigits (padEnd width fraction') :=
    allDigits_padEnd hspells'.fraction_digits
  have hlt := bigInt_lt hdigits
  have hlt' := bigInt_lt hdigits'
  rw [length_padEnd hwidth] at hlt
  rw [length_padEnd hwidth'] at hlt'
  rw [bigInt_append, bigInt_append, length_padEnd hwidth,
    length_padEnd hwidth'] at hnumbers
  have hwholeNumber : bigInt whole = bigInt whole' := by
    have hpos : 0 < 10 ^ width := Nat.pow_pos (by decide)
    have hquotient := congrArg (· / 10 ^ width) hnumbers
    simp only [Nat.mul_comm _ (10 ^ width), Nat.mul_add_div hpos,
      Nat.div_eq_of_lt hlt, Nat.div_eq_of_lt hlt', Nat.add_zero] at hquotient
    exact hquotient
  have hwhole : whole = whole' := by
    rw [← toDigits_bigInt hspells.whole_digits hspells.whole_ne hleading,
      hwholeNumber,
      toDigits_bigInt hspells'.whole_digits hspells'.whole_ne hleading']
  have hpadded : padEnd width fraction = padEnd width fraction' := by
    apply bigInt_injective hdigits hdigits'
    · rw [length_padEnd hwidth, length_padEnd hwidth']
    · rw [hwholeNumber] at hnumbers
      omega
  have hfraction : fraction = fraction' := by
    have hstripped := congrArg stripTrailingZeros hpadded
    unfold padEnd at hstripped
    rwa [stripTrailingZeros_append, stripTrailingZeros_append,
      stripTrailingZeros_of_none htrailing,
      stripTrailingZeros_of_none htrailing'] at hstripped
  rw [hspells.text_eq, hspells'.text_eq, hwhole, hfraction]

/-! ## The codec -/

/-- The trimmed text is a decimal text of this value that needs no more
decimals than the asset has. -/
def Represents (amount : String) (decimals : ℕ) (value : ℚ) : Prop :=
  ∃ whole fraction, Spells (jsTrim amount).toList whole fraction ∧
    fraction.length ≤ decimals ∧ value = decimalValue whole fraction

theorem Represents.unique {amount : String} {decimals : ℕ} {value value' : ℚ}
    (h : Represents amount decimals value)
    (h' : Represents amount decimals value') : value = value' := by
  obtain ⟨whole, fraction, hspells, -, hvalue⟩ := h
  obtain ⟨whole', fraction', hspells', -, hvalue'⟩ := h'
  have hparts := hspells.unique hspells'
  rw [hvalue, hvalue', hparts.1, hparts.2]

/-- A text is converted exactly when the asset can represent it, and then to
its value in base units. -/
theorem toBaseUnits_iff {amount : String} {decimals units : ℕ} :
    toBaseUnits amount decimals = .ok units ↔
      ∃ value, Represents amount decimals value ∧
        (units : ℚ) = value * 10 ^ decimals := by
  rw [toBaseUnits_eq_ok]
  constructor
  · intro h
    obtain ⟨value, places, ⟨whole, fraction, hgroups, hvalue, hlength⟩,
      hplaces, hunits⟩ := h
    rw [hlength] at hplaces
    exact ⟨value, ⟨whole, fraction, decimalGroups_iff.mp hgroups, hplaces,
      hvalue⟩, hunits⟩
  · intro h
    obtain ⟨value, ⟨whole, fraction, hspells, hplaces, hvalue⟩, hunits⟩ := h
    exact ⟨value, fraction.length, ⟨whole, fraction,
      decimalGroups_iff.mpr hspells, hvalue, rfl⟩, hplaces, hunits⟩

theorem Represents.converted {amount : String} {decimals : ℕ} {value : ℚ}
    (h : Represents amount decimals value) :
    ∃ units, toBaseUnits amount decimals = .ok units := by
  have hvalue := h
  obtain ⟨whole, fraction, hspells, hplaces, hv⟩ := h
  refine ⟨bigInt (whole ++ padEnd decimals fraction), ?_⟩
  apply toBaseUnits_iff.mpr
  refine ⟨value, hvalue, ?_⟩
  rw [hv, bigInt_padEnd hplaces]

theorem represents_fromBaseUnits (units decimals : ℕ) :
    Represents (fromBaseUnits units decimals) decimals
      ((units : ℚ) / 10 ^ decimals) := by
  have hspells := decimalGroups_iff.mp
    (decimalGroups_fromBaseUnits units decimals)
  have hplaces : (stripTrailingZeros (fractionDigits units decimals)).length ≤
      decimals := by
    have hprefix := (List.rdropWhile_prefix (fun c => c == '0')
      (fractionDigits units decimals)).length_le
    rwa [length_fractionDigits] at hprefix
  obtain ⟨whole, fraction, hread, hvalue⟩ := denotes_fromBaseUnits units decimals
  have hparts := hspells.unique hread
  refine ⟨_, _, (jsTrim_of_spells hspells).symm ▸ hspells, hplaces, ?_⟩
  rw [hvalue, hparts.1, hparts.2]

theorem toBaseUnits_fromBaseUnits (units decimals : ℕ) :
    toBaseUnits (fromBaseUnits units decimals) decimals = .ok units := by
  apply toBaseUnits_iff.mpr
  refine ⟨_, represents_fromBaseUnits units decimals, ?_⟩
  field_simp

/-- The canonical texts of a value are the one text written for its units. -/
theorem canonical_iff {units decimals : ℕ} {text : String} :
    Canonical text.toList ∧
        Denotes text.toList ((units : ℚ) / 10 ^ decimals) ↔
      text = fromBaseUnits units decimals := by
  constructor
  · intro h
    apply String.toList_inj.mp
    exact h.1.unique (canonical_fromBaseUnits units decimals) h.2
      (denotes_fromBaseUnits units decimals)
  · intro h
    rw [h]
    exact ⟨canonical_fromBaseUnits units decimals,
      denotes_fromBaseUnits units decimals⟩

theorem amountsEqual_eq_true {a b : String} {decimals : ℕ} :
    amountsEqual a b decimals = .ok true ↔
      ∃ units, toBaseUnits a decimals = .ok units ∧
        toBaseUnits b decimals = .ok units := by
  unfold amountsEqual
  constructor
  · intro h
    obtain ⟨left, hleft, h⟩ := Fallible.result_bind_eq_ok.mp h
    obtain ⟨right, hright, h⟩ := Fallible.result_bind_eq_ok.mp h
    have hsame : left = right := by simpa [pure, Except.pure] using h
    exact ⟨left, hleft, hsame ▸ hright⟩
  · intro h
    obtain ⟨units, hleft, hright⟩ := h
    rw [hleft, hright]
    simp [bind, Except.bind, pure, Except.pure]

theorem amountsEqual_iff {a b : String} {decimals : ℕ} :
    amountsEqual a b decimals = .ok true ↔
      ∃ value, Represents a decimals value ∧ Represents b decimals value := by
  rw [amountsEqual_eq_true]
  have hscale : (10 : ℚ) ^ decimals ≠ 0 := by positivity
  constructor
  · intro h
    obtain ⟨units, hleft, hright⟩ := h
    obtain ⟨value, hvalue, hunits⟩ := toBaseUnits_iff.mp hleft
    obtain ⟨value', hvalue', hunits'⟩ := toBaseUnits_iff.mp hright
    have hsame : value = value' :=
      mul_right_cancel₀ hscale (hunits.symm.trans hunits')
    exact ⟨value, hvalue, hsame ▸ hvalue'⟩
  · intro h
    obtain ⟨value, hleft, hright⟩ := h
    obtain ⟨units, hunits⟩ := hleft.converted
    obtain ⟨value', hvalue', hscaled⟩ := toBaseUnits_iff.mp hunits
    refine ⟨units, hunits, ?_⟩
    rw [hvalue'.unique hleft] at hscaled
    exact toBaseUnits_iff.mpr ⟨value, hright, hscaled⟩

/-- Reading amounts and writing base units are exact and inverse: a text is
read exactly when it is a decimal text that the asset can represent, the text
written for base units is the only canonical text of their value and is read
back to them, and amounts compare equal exactly when they represent one
value. -/
theorem amount_codec (decimals : ℕ) :
    (∀ amount, (∃ units, toBaseUnits amount decimals = .ok units) ↔
      ∃ value, Represents amount decimals value) ∧
    (∀ amount units value, toBaseUnits amount decimals = .ok units →
      Represents amount decimals value →
        (units : ℚ) = value * 10 ^ decimals ∧
          ∀ text : String,
            (Canonical text.toList ∧ Denotes text.toList value ↔
              text = fromBaseUnits units decimals)) ∧
    (∀ units,
      toBaseUnits (fromBaseUnits units decimals) decimals = .ok units) ∧
    (∀ a b, amountsEqual a b decimals = .ok true ↔
      ∃ value, Represents a decimals value ∧
        Represents b decimals value) := by
  refine ⟨?_, ?_, fun units => toBaseUnits_fromBaseUnits units decimals,
    fun a b => amountsEqual_iff⟩
  · intro amount
    constructor
    · intro h
      obtain ⟨units, hunits⟩ := h
      obtain ⟨value, hvalue, -⟩ := toBaseUnits_iff.mp hunits
      exact ⟨value, hvalue⟩
    · intro h
      obtain ⟨value, hvalue⟩ := h
      exact hvalue.converted
  · intro amount units value hunits hvalue
    obtain ⟨value', hvalue', hscaled⟩ := toBaseUnits_iff.mp hunits
    rw [hvalue'.unique hvalue] at hscaled
    refine ⟨hscaled, ?_⟩
    intro text
    have hback : value = (units : ℚ) / 10 ^ decimals := by
      rw [hscaled]
      field_simp
    rw [hback]
    exact canonical_iff

theorem padded_amount_is_read_exactly :
    (5250000 : ℚ) = 21 / 4 * 10 ^ 6 ∧
      ∀ text : String,
        (Canonical text.toList ∧ Denotes text.toList (21 / 4) ↔
          text = fromBaseUnits 5250000 6) := by
  have hspells : Spells (jsTrim " 05.250").toList ['0', '5'] ['2', '5', '0'] :=
    decimalGroups_iff.mp (by decide)
  have hvalue : (21 / 4 : ℚ) = decimalValue ['0', '5'] ['2', '5', '0'] := by
    have hdigits : bigInt ['0', '5', '2', '5', '0'] = 5250 := rfl
    simp only [decimalValue, List.cons_append, List.nil_append, hdigits]
    norm_num
  have hrepresents : Represents " 05.250" 6 (21 / 4) :=
    ⟨_, _, hspells, by decide, hvalue⟩
  have hunits : toBaseUnits " 05.250" 6 = .ok 5250000 :=
    toBaseUnits_iff.mpr ⟨21 / 4, hrepresents, by norm_num⟩
  have h := (amount_codec 6).2.1 " 05.250" 5250000 (21 / 4) hunits hrepresents
  exact_mod_cast h

end Execution
end Orvex
