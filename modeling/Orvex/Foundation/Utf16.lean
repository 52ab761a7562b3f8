import Orvex.Foundation.JsonText

/-!
# Texts of UTF-16 code units

A text is a list of code units, in which a surrogate may stand alone.  As a
JSON string a pair of surrogates is written as the character it encodes and
a lone surrogate as an escape, so texts that differ are written differently.
-/

namespace Utf16

open JsonText (hexDigit hexDigits hexValue escapeChar unescapeChar quoteMark
  backslash)

/-- A text as a list of code units. -/
abbrev Text := List UInt16

def isHigh (u : UInt16) : Bool :=
  decide (0xd800 ≤ u.toNat) && decide (u.toNat < 0xdc00)

def isLow (u : UInt16) : Bool :=
  decide (0xdc00 ≤ u.toNat) && decide (u.toNat < 0xe000)

/-- The code units of a character. -/
def charUnits (c : Char) : Text :=
  if c.toNat < 0x10000 then [UInt16.ofNat c.toNat]
  else
    [UInt16.ofNat (0xd800 + (c.toNat - 0x10000) / 0x400),
      UInt16.ofNat (0xdc00 + (c.toNat - 0x10000) % 0x400)]

def units (text : String) : Text := text.toList.flatMap charUnits

/-- The character that a pair of surrogates encodes. -/
def pairChar (high low : UInt16) : Char :=
  Char.ofNat
    (0x10000 + (high.toNat - 0xd800) * 0x400 + (low.toNat - 0xdc00))

/-! ## As a JSON string -/

def escapeUnit (u : UInt16) : List Char :=
  if isHigh u || isLow u then
    [backslash, 'u', hexDigit (u.toNat / 4096),
      hexDigit (u.toNat / 256 % 16), hexDigit (u.toNat / 16 % 16),
      hexDigit (u.toNat % 16)]
  else escapeChar (Char.ofNat u.toNat)

def escapeUnits : Text → List Char
  | [] => []
  | [u] => escapeUnit u
  | u :: v :: rest =>
      if isHigh u && isLow v then pairChar u v :: escapeUnits rest
      else escapeUnit u ++ escapeUnits (v :: rest)

def quoteUnits (text : Text) : List Char :=
  quoteMark :: escapeUnits text ++ [quoteMark]

/-! ## Reading the string back -/

def hexUnit (a b c d : Char) : UInt16 :=
  UInt16.ofNat (4096 * hexValue a + 256 * hexValue b + 16 * hexValue c +
    hexValue d)

/-- The code units that the next token stands for. -/
def readToken : List Char → Option (Text × List Char)
  | '\x5c' :: 'u' :: 'd' :: b :: c :: d :: tail =>
      some ([hexUnit 'd' b c d], tail)
  | chars => (unescapeChar chars).map (fun (c, tail) => (charUnits c, tail))

theorem hexValue_hexDigit {n : ℕ} (h : n < 16) : hexValue (hexDigit n) = n := by
  interval_cases n <;> rfl

theorem readToken_lone {u : UInt16} (h : (isHigh u || isLow u) = true)
    (tail : List Char) :
    readToken (escapeUnit u ++ tail) = some ([u], tail) := by
  have hrange : 0xd800 ≤ u.toNat ∧ u.toNat < 0xe000 := by
    simp only [isHigh, isLow, Bool.or_eq_true, Bool.and_eq_true,
      decide_eq_true_eq] at h
    omega
  have hfirst : u.toNat / 4096 = 13 := by omega
  have hd : hexDigit 13 = 'd' := rfl
  unfold escapeUnit
  rw [if_pos h, hfirst, hd]
  change some ([hexUnit 'd' _ _ _], tail) = some ([u], tail)
  have hunit : hexUnit 'd' (hexDigit (u.toNat / 256 % 16))
      (hexDigit (u.toNat / 16 % 16)) (hexDigit (u.toNat % 16)) = u := by
    have hvalue : 4096 * 13 + 256 * (u.toNat / 256 % 16) +
        16 * (u.toNat / 16 % 16) + u.toNat % 16 = u.toNat := by
      omega
    unfold hexUnit
    rw [← hd, hexValue_hexDigit (by omega), hexValue_hexDigit (by omega),
      hexValue_hexDigit (by omega), hexValue_hexDigit (by omega), hvalue,
      UInt16.ofNat_toNat]
  rw [hunit]

theorem toNat_ofNat {n : ℕ} (h : n.isValidChar) :
    (Char.ofNat n).toNat = n := by
  unfold Char.ofNat
  rw [dif_pos h]
  rfl

/-- The escape of a character is not that of a lone surrogate. -/
theorem readToken_escapeChar (c : Char) (tail : List Char) :
    readToken (escapeChar c ++ tail) = some (charUnits c, tail) := by
  have hread : ∀ chars, unescapeChar chars = some (c, tail) →
      (∀ x y z rest, chars ≠ '\x5c' :: 'u' :: 'd' :: x :: y :: z :: rest) →
        readToken chars = some (charUnits c, tail) := by
    intro chars hchars hlone
    unfold readToken
    split
    next x y z rest => exact absurd rfl (hlone x y z rest)
    next => rw [hchars, Option.map_some]
  apply hread _ (JsonText.unescapeChar_escapeChar c tail)
  intro x y z rest h
  unfold escapeChar at h
  split_ifs at h with hquote hback h8 hc hn hr ht hlow
  all_goals simp [backslash, quoteMark] at h
  exact hback h.1

theorem isValidChar_of_unit {u : UInt16} (h : (isHigh u || isLow u) = false) :
    u.toNat.isValidChar := by
  have hsize : u.toNat < 65536 := u.toNat_lt
  simp only [isHigh, isLow, Bool.or_eq_false_iff, Bool.and_eq_false_iff,
    decide_eq_false_iff_not, not_le, not_lt] at h
  unfold Nat.isValidChar
  omega

theorem charUnits_unit {u : UInt16} (h : (isHigh u || isLow u) = false) :
    charUnits (Char.ofNat u.toNat) = [u] := by
  have hsize : u.toNat < 65536 := u.toNat_lt
  unfold charUnits
  rw [toNat_ofNat (isValidChar_of_unit h), if_pos (by omega),
    UInt16.ofNat_toNat]

theorem readToken_unit (u : UInt16) (tail : List Char) :
    readToken (escapeUnit u ++ tail) = some ([u], tail) := by
  cases h : isHigh u || isLow u with
  | true => exact readToken_lone h tail
  | false =>
      unfold escapeUnit
      rw [h, if_neg Bool.false_ne_true, readToken_escapeChar,
        charUnits_unit h]

section

variable {high low : UInt16} (hhigh : isHigh high = true)
  (hlow : isLow low = true)

include hhigh hlow

theorem toNat_pairChar : (pairChar high low).toNat =
    0x10000 + (high.toNat - 0xd800) * 0x400 + (low.toNat - 0xdc00) := by
  simp only [isHigh, isLow, Bool.and_eq_true, decide_eq_true_eq]
    at hhigh hlow
  unfold pairChar
  rw [toNat_ofNat]
  unfold Nat.isValidChar
  omega

theorem charUnits_pairChar : charUnits (pairChar high low) = [high, low] := by
  have hchar := toNat_pairChar hhigh hlow
  simp only [isHigh, isLow, Bool.and_eq_true, decide_eq_true_eq]
    at hhigh hlow
  have hfirst : 0xd800 + ((pairChar high low).toNat - 0x10000) / 0x400 =
      high.toNat := by
    omega
  have hsecond : 0xdc00 + ((pairChar high low).toNat - 0x10000) % 0x400 =
      low.toNat := by
    omega
  unfold charUnits
  rw [if_neg (by omega), hfirst, hsecond, UInt16.ofNat_toNat,
    UInt16.ofNat_toNat]

/-- A character outside the basic plane is written as it is. -/
theorem escapeChar_pairChar :
    escapeChar (pairChar high low) = [pairChar high low] := by
  have hchar := toNat_pairChar hhigh hlow
  have hother : ∀ c : Char, c.toNat < 0x10000 → pairChar high low ≠ c := by
    intro c hc heq
    rw [heq] at hchar
    omega
  unfold escapeChar
  rw [if_neg (hother _ (by decide)), if_neg (hother _ (by decide)),
    if_neg (hother _ (by decide)), if_neg (hother _ (by decide)),
    if_neg (hother _ (by decide)), if_neg (hother _ (by decide)),
    if_neg (hother _ (by decide)), if_neg (by omega)]

end

/-! ## Texts that differ are written differently -/

theorem escapeUnit_ne_quoteMark (u : UInt16) (rest tail : List Char) :
    escapeUnit u ++ rest ≠ quoteMark :: tail := by
  unfold escapeUnit
  split
  · simp [backslash, quoteMark]
  · exact JsonText.escapeChar_ne_quoteMark _ rest tail

/-- The first token of a text that is not empty. -/
theorem escapeUnits_token {text : Text} (h : text ≠ []) :
    ∃ front back token, text = front ++ back ∧ front ≠ [] ∧
      escapeUnits text = token ++ escapeUnits back ∧
      (∀ tail, readToken (token ++ tail) = some (front, tail)) ∧
      ∀ rest tail, token ++ rest ≠ quoteMark :: tail := by
  match text, h with
  | [u], _ =>
      refine ⟨[u], [], escapeUnit u, rfl, by simp, ?_, readToken_unit u,
        escapeUnit_ne_quoteMark u⟩
      rw [escapeUnits, escapeUnits, List.append_nil]
  | u :: v :: rest, _ =>
      by_cases hpair : (isHigh u && isLow v) = true
      · obtain ⟨hhigh, hlow⟩ := Bool.and_eq_true_iff.mp hpair
        refine ⟨[u, v], rest, [pairChar u v], rfl, by simp, ?_, ?_, ?_⟩
        · rw [escapeUnits, if_pos hpair]
          rfl
        · intro tail
          rw [← escapeChar_pairChar hhigh hlow, readToken_escapeChar,
            charUnits_pairChar hhigh hlow]
        · intro after tail
          rw [← escapeChar_pairChar hhigh hlow]
          exact JsonText.escapeChar_ne_quoteMark _ after tail
      · refine ⟨[u], v :: rest, escapeUnit u, rfl, by simp, ?_,
          readToken_unit u, escapeUnit_ne_quoteMark u⟩
        rw [escapeUnits, if_neg hpair]

theorem escapeUnits_append_injective {text text' : Text}
    {rest rest' : List Char}
    (h : escapeUnits text ++ quoteMark :: rest =
      escapeUnits text' ++ quoteMark :: rest') :
    text = text' ∧ rest = rest' := by
  -- by induction on the length, one token at a time
  induction hlength : text.length using Nat.strong_induction_on
    generalizing text text' with
  | _ n ih =>
    subst hlength
    by_cases hempty : text = []
    · subst hempty
      by_cases hempty' : text' = []
      · subst hempty'
        simpa [escapeUnits] using h
      · obtain ⟨front, back, token, _, _, htoken, _, hquote⟩ :=
          escapeUnits_token hempty'
        rw [htoken, List.append_assoc] at h
        exact absurd h.symm (hquote _ _)
    · obtain ⟨front, back, token, htext, hfront, htoken, hread, hquote⟩ :=
        escapeUnits_token hempty
      by_cases hempty' : text' = []
      · subst hempty'
        rw [htoken, List.append_assoc] at h
        exact absurd h (hquote _ _)
      · obtain ⟨front', back', token', htext', _, htoken', hread', _⟩ :=
          escapeUnits_token hempty'
        rw [htoken, htoken', List.append_assoc, List.append_assoc] at h
        have hsame := congrArg readToken h
        rw [hread, hread', Option.some.injEq, Prod.mk.injEq] at hsame
        have hshorter : back.length < text.length := by
          have hpositive := List.length_pos_of_ne_nil hfront
          rw [htext, List.length_append]
          omega
        obtain ⟨hback, hrest⟩ := ih back.length hshorter hsame.2 rfl
        exact ⟨by rw [htext, htext', hsame.1, hback], hrest⟩

theorem quoteUnits_tokens : JsonText.StringTokens quoteUnits where
  opens _ := ⟨_, rfl⟩
  injective := by
    intro text text' rest rest' h
    simp only [quoteUnits, List.cons_append, List.append_assoc,
      List.cons.injEq, true_and, List.nil_append] at h
    exact escapeUnits_append_injective h

/-! ## Texts of characters -/

/-- The code units of a character are written as the character is. -/
theorem escapeUnits_charUnits (c : Char) (text : Text) :
    escapeUnits (charUnits c ++ text) = escapeChar c ++ escapeUnits text := by
  have hvalid : c.toNat.isValidChar := c.valid
  unfold Nat.isValidChar at hvalid
  unfold charUnits
  by_cases hbasic : c.toNat < 0x10000
  · have hunit : (UInt16.ofNat c.toNat).toNat = c.toNat := by
      rw [UInt16.toNat_ofNat', Nat.mod_eq_of_lt hbasic]
    have hlone : isHigh (UInt16.ofNat c.toNat) = false ∧
        isLow (UInt16.ofNat c.toNat) = false := by
      simp only [isHigh, isLow, hunit, Bool.and_eq_false_iff,
        decide_eq_false_iff_not, not_le, not_lt]
      omega
    have hescape : escapeUnit (UInt16.ofNat c.toNat) = escapeChar c := by
      unfold escapeUnit
      rw [hlone.1, hlone.2, Bool.or_self, if_neg Bool.false_ne_true, hunit,
        Char.ofNat_toNat]
    rw [if_pos hbasic]
    cases text with
    | nil =>
        rw [List.singleton_append, escapeUnits, escapeUnits, hescape,
          List.append_nil]
    | cons v rest =>
        rw [List.singleton_append, escapeUnits, hlone.1, Bool.false_and,
          if_neg Bool.false_ne_true, hescape]
  · have hhigh : (UInt16.ofNat (0xd800 + (c.toNat - 0x10000) / 0x400)).toNat =
        0xd800 + (c.toNat - 0x10000) / 0x400 := by
      rw [UInt16.toNat_ofNat', Nat.mod_eq_of_lt]
      omega
    have hlow : (UInt16.ofNat (0xdc00 + (c.toNat - 0x10000) % 0x400)).toNat =
        0xdc00 + (c.toNat - 0x10000) % 0x400 := by
      rw [UInt16.toNat_ofNat', Nat.mod_eq_of_lt]
      omega
    have hishigh :
        isHigh (UInt16.ofNat (0xd800 + (c.toNat - 0x10000) / 0x400)) =
          true := by
      simp only [isHigh, hhigh, Bool.and_eq_true, decide_eq_true_eq]
      omega
    have hislow :
        isLow (UInt16.ofNat (0xdc00 + (c.toNat - 0x10000) % 0x400)) =
          true := by
      simp only [isLow, hlow, Bool.and_eq_true, decide_eq_true_eq]
      omega
    have hpair : pairChar
        (UInt16.ofNat (0xd800 + (c.toNat - 0x10000) / 0x400))
        (UInt16.ofNat (0xdc00 + (c.toNat - 0x10000) % 0x400)) = c := by
      have hnat := toNat_pairChar hishigh hislow
      rw [hhigh, hlow] at hnat
      apply Char.toNat_inj.mp
      omega
    have hescape := escapeChar_pairChar hishigh hislow
    rw [hpair] at hescape
    rw [if_neg hbasic, List.cons_append, List.singleton_append, escapeUnits,
      hishigh, hislow, Bool.and_self, if_pos rfl, hpair, hescape]
    rfl

theorem quoteUnits_units (text : String) :
    quoteUnits (units text) = JsonText.quote text := by
  have hescape : ∀ chars : List Char,
      escapeUnits (chars.flatMap charUnits) = JsonText.escape chars := by
    intro chars
    induction chars with
    | nil => rfl
    | cons c rest ih =>
        rw [List.flatMap_cons, escapeUnits_charUnits, ih]
        rfl
  unfold quoteUnits JsonText.quote units
  rw [hescape]

theorem toNat_charUnit {c : Char} (h : c.toNat < 0x10000) :
    (UInt16.ofNat c.toNat).toNat = c.toNat := by
  rw [UInt16.toNat_ofNat', Nat.mod_eq_of_lt h]

theorem units_injective : Function.Injective units := by
  intro text text' h
  have hquote : JsonText.quote text ++ [] = JsonText.quote text' ++ [] := by
    rw [← quoteUnits_units, ← quoteUnits_units, h]
  exact (JsonText.quote_append_injective hquote).1

end Utf16
