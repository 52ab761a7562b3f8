import Orvex.Core.ParsedJson
import Orvex.Foundation.FixedPattern

/-!
# Redaction

Values are redacted before they are logged, and a guard looks for raw keys in
the text of a value.  The guard and the redactor share one global pattern,
whose `lastIndex` is the state of the module.
-/

namespace Orvex
namespace Execution

open JsonText (Value escapeChar hexDigit)
open Utf16 (Text units charUnits isHigh isLow escapeUnit escapeUnits pairChar)
open ParsedJson (Number protoUnits stringify written writtenItems
  writtenFields)
open FixedPattern (Pattern Occurs matchesAt search replaceAll)

/-! ## The patterns -/

def hexDigitUnit (u : UInt16) : Bool :=
  decide (48 ≤ u.toNat ∧ u.toNat ≤ 57) ||
    decide (65 ≤ u.toNat ∧ u.toNat ≤ 70) ||
    decide (97 ≤ u.toNat ∧ u.toNat ≤ 102)

def zeroUnit (u : UInt16) : Bool := u == 48

def xUnit (u : UInt16) : Bool := u == 120

/-- `/0x[0-9a-fA-F]{64}/`. -/
def rawPrivkeyPattern : Pattern UInt16 :=
  zeroUnit :: xUnit :: List.replicate 64 hexDigitUnit

def redactedText : Text := units "[REDACTED]"

/-- The words of the alternatives of the pattern of secret keys; an underscore
or a hyphen may stand between two words. -/
def secretWords : List (List String) :=
  [["private", "key"], ["privkey"], ["signer", "key"], ["mnemonic"],
    ["seed", "phrase"], ["secret"]]

/-- The pattern ignores case. -/
def lowerUnit (u : UInt16) : UInt16 :=
  if 65 ≤ u.toNat ∧ u.toNat ≤ 90 then u + 32 else u

def startsWithWords : List String → Text → Bool
  | [], _ => true
  | [word], text => (units word).isPrefixOf text
  | word :: next :: rest, text =>
      let tail := text.drop word.length
      (units word).isPrefixOf text &&
        (startsWithWords (next :: rest) tail ||
          ((tail.head? == some 95 || tail.head? == some 45) &&
            startsWithWords (next :: rest) (tail.drop 1)))

def secretKey (key : Text) : Bool :=
  (key.map lowerUnit).tails.any (fun tail =>
    secretWords.any (fun words => startsWithWords words tail))

/-! ## The module -/

/-- `value.replace(RAW_PRIVKEY_RE, REDACTED)`. -/
def redactString (text : Text) : Text :=
  replaceAll rawPrivkeyPattern redactedText text

/-- `RAW_PRIVKEY_RE.test(text)` from a `lastIndex`, and the `lastIndex` that
it leaves. -/
def testRawPrivkey (text : Text) (lastIndex : ℕ) : Bool × ℕ :=
  if text.length < lastIndex then (false, 0)
  else
    ((search rawPrivkeyPattern lastIndex (text.drop lastIndex)).map
      (fun start => (true, start + rawPrivkeyPattern.length))).getD (false, 0)

mutual

/-- `redactSecrets`, with the `lastIndex` before and after: a replacement sets
it to zero.  An assignment to `__proto__` creates no field. -/
def redactSecrets : Value Text Number → ℕ → Value Text Number × ℕ
  | .null, lastIndex => (.null, lastIndex)
  | .bool b, lastIndex => (.bool b, lastIndex)
  | .number n, lastIndex => (.number n, lastIndex)
  | .string s, _ => (.string (redactString s), 0)
  | .array items, lastIndex =>
      let redacted := redactItems items lastIndex
      (.array redacted.1, redacted.2)
  | .object fields, lastIndex =>
      let redacted := redactFields fields lastIndex
      (.object redacted.1, redacted.2)

def redactItems :
    List (Value Text Number) → ℕ → List (Value Text Number) × ℕ
  | [], lastIndex => ([], lastIndex)
  | item :: rest, lastIndex =>
      let first := redactSecrets item lastIndex
      let others := redactItems rest first.2
      (first.1 :: others.1, others.2)

def redactFields :
    List (Text × Value Text Number) → ℕ →
      List (Text × Value Text Number) × ℕ
  | [], lastIndex => ([], lastIndex)
  | (key, value) :: rest, lastIndex =>
      let first :=
        if secretKey key then (.string redactedText, lastIndex)
        else redactSecrets value lastIndex
      let others := redactFields rest first.2
      (if key = protoUnits then others.1 else (key, first.1) :: others.1,
        others.2)

end

/-- The text that the guard searches. -/
def serialized (rt : Runtime) : Value Text Number → Text
  | .string s => s
  | .null => units (stringify rt (.string []))
  | value => units (stringify rt value)

def containsRawSecret (rt : Runtime) (value : Value Text Number)
    (lastIndex : ℕ) : Bool × ℕ :=
  testRawPrivkey (serialized rt value) lastIndex

/-! ## Raw keys in a JSON literal -/

/-- The code units of the characters that a string is written with. -/
def literalUnits (text : Text) : Text := (escapeUnits text).flatMap charUnits

/-- The pattern after its first place. -/
def keyTail : Pattern UInt16 := xUnit :: List.replicate 64 hexDigitUnit

/-- The unit is written as an escape that ends in the digit 0. -/
def escapesToZero (u : UInt16) : Bool :=
  u == 0 || u == 16 ||
    ((isHigh u || isLow u) && decide (u.toNat % 16 = 0))

/-- Some code unit of the text is written as an escape that ends in 0, and an
x and 64 hexadecimal digits follow it, the last of which does not start a raw
key. -/
def EscapedKey : Text → Prop
  | [] => False
  | [_] => False
  | u :: v :: rest =>
      if isHigh u && isLow v then EscapedKey rest
      else
        (escapesToZero u = true ∧ matchesAt keyTail (v :: rest) = true ∧
          matchesAt rawPrivkeyPattern ((v :: rest).drop 64) = false) ∨
        EscapedKey (v :: rest)

theorem literalUnits_nil : literalUnits [] = [] := rfl

/-- A unit that belongs to no pair is written on its own. -/
theorem literalUnits_cons {u : UInt16} {rest : Text}
    (hpair : ∀ v ∈ rest.head?, (isHigh u && isLow v) = false) :
    literalUnits (u :: rest) =
      (escapeUnit u).flatMap charUnits ++ literalUnits rest := by
  unfold literalUnits
  cases rest with
  | nil => rw [escapeUnits, escapeUnits, List.flatMap_nil, List.append_nil]
  | cons v rest =>
      rw [escapeUnits, hpair v rfl, ← List.flatMap_append]
      rfl

theorem literalUnits_pair {u v : UInt16} {rest : Text}
    (hpair : (isHigh u && isLow v) = true) :
    literalUnits (u :: v :: rest) = u :: v :: literalUnits rest := by
  have hboth := Bool.and_eq_true _ _ ▸ hpair
  unfold literalUnits
  rw [escapeUnits, if_pos hpair, List.flatMap_cons,
    Utf16.charUnits_pairChar hboth.1 hboth.2]
  rfl

/-! ## How a unit is written -/

/-- The units of the letters and digits of the pattern. -/
def keyUnit (u : UInt16) : Bool := hexDigitUnit u || xUnit u

def hexDigitOf (n : ℕ) : UInt16 := UInt16.ofNat (hexDigit n).toNat

theorem charUnits_hexDigit :
    ∀ n < 16, charUnits (hexDigit n) = [hexDigitOf n] := by
  decide

theorem xUnit_hexDigitOf : ∀ n < 16, xUnit (hexDigitOf n) = false := by
  decide

theorem zeroUnit_hexDigitOf :
    ∀ n < 16, zeroUnit (hexDigitOf n) = decide (n = 0) := by
  decide

/-- How `JSON.stringify` writes a code unit that belongs to no pair. -/
inductive Written (u : UInt16) : Text → Prop
  | plain (hzero : escapesToZero u = false) : Written u [u]
  | short (letter : UInt16) (hkey : keyUnit u = false)
      (hzero : escapesToZero u = false) (hletter : zeroUnit letter = false) :
      Written u [92, letter]
  | digits (a b c d : ℕ) (hkey : keyUnit u = false)
      (ha : a < 16) (hb : b < 16) (hc : c < 16) (hd : d < 16)
      (hzero : escapesToZero u = decide (d = 0)) :
      Written u [92, 117, hexDigitOf a, hexDigitOf b, hexDigitOf c,
        hexDigitOf d]

theorem keyUnit_bounds {u : UInt16} (h : keyUnit u = true) :
    48 ≤ u.toNat ∧ u.toNat ≤ 120 := by
  unfold keyUnit hexDigitUnit xUnit at h
  simp only [Bool.or_eq_true, decide_eq_true_eq, beq_iff_eq] at h
  rcases h with ((h | h) | h) | h
  · omega
  · omega
  · omega
  · rw [h]
    decide

theorem not_keyUnit_of_large {u : UInt16} (h : 120 < u.toNat) :
    keyUnit u = false := by
  by_contra hkey
  have hbounds := keyUnit_bounds (by simpa using hkey)
  omega

theorem not_keyUnit_of_small {u : UInt16} (h : u.toNat < 48) :
    keyUnit u = false := by
  by_contra hkey
  have hbounds := keyUnit_bounds (by simpa using hkey)
  omega

theorem written_lone {u : UInt16} (hlone : (isHigh u || isLow u) = true) :
    Written u ((escapeUnit u).flatMap charUnits) := by
  have hsize : u.toNat < 65536 := u.toNat_lt
  have hlarge : 120 < u.toNat := by
    simp only [isHigh, isLow, Bool.or_eq_true, Bool.and_eq_true,
      decide_eq_true_eq] at hlone
    omega
  have hzero : escapesToZero u = decide (u.toNat % 16 = 0) := by
    have hne : (u == 0) = false ∧ (u == 16) = false := by
      constructor
      · rw [beq_eq_false_iff_ne]
        rintro rfl
        exact absurd hlarge (by decide)
      · rw [beq_eq_false_iff_ne]
        rintro rfl
        exact absurd hlarge (by decide)
    unfold escapesToZero
    rw [hne.1, hne.2, hlone, Bool.false_or, Bool.false_or, Bool.true_and]
  have hunits : (escapeUnit u).flatMap charUnits =
      [92, 117, hexDigitOf (u.toNat / 4096),
        hexDigitOf (u.toNat / 256 % 16), hexDigitOf (u.toNat / 16 % 16),
        hexDigitOf (u.toNat % 16)] := by
    unfold escapeUnit
    rw [if_pos hlone]
    simp only [List.flatMap_cons, List.flatMap_nil, List.append_nil,
      charUnits_hexDigit (u.toNat / 4096) (by omega),
      charUnits_hexDigit (u.toNat / 256 % 16) (by omega),
      charUnits_hexDigit (u.toNat / 16 % 16) (by omega),
      charUnits_hexDigit (u.toNat % 16) (by omega)]
    rfl
  rw [hunits]
  exact .digits _ _ _ _ (not_keyUnit_of_large hlarge) (by omega) (by omega)
    (by omega) (by omega) hzero

theorem written_unit (u : UInt16) :
    Written u ((escapeUnit u).flatMap charUnits) := by
  by_cases hlone : (isHigh u || isLow u) = true
  · exact written_lone hlone
  · rw [Bool.not_eq_true] at hlone
    have hchar : (Char.ofNat u.toNat).toNat = u.toNat :=
      Utf16.toNat_ofNat (Utf16.isValidChar_of_unit hlone)
    have hnamed : ∀ c : Char, Char.ofNat u.toNat = c →
        u.toNat = c.toNat := by
      intro c hc
      rw [← hchar, hc]
    have hunit : ∀ n : UInt16, u.toNat = n.toNat → u = n := by
      intro n hn
      exact UInt16.toNat_inj.mp hn
    have hescape : (escapeUnit u).flatMap charUnits =
        (escapeChar (Char.ofNat u.toNat)).flatMap charUnits := by
      unfold escapeUnit
      rw [hlone]
      rfl
    rw [hescape]
    unfold escapeChar
    split_ifs with hquote hback h8 hc hn hr ht hlow
    · rw [hunit 34 (hnamed _ hquote)]
      exact .short 34 (by decide) (by decide) (by decide)
    · rw [hunit 92 (hnamed _ hback)]
      exact .short 92 (by decide) (by decide) (by decide)
    · rw [hunit 8 (hnamed _ h8)]
      exact .short 98 (by decide) (by decide) (by decide)
    · rw [hunit 12 (hnamed _ hc)]
      exact .short 102 (by decide) (by decide) (by decide)
    · rw [hunit 10 (hnamed _ hn)]
      exact .short 110 (by decide) (by decide) (by decide)
    · rw [hunit 13 (hnamed _ hr)]
      exact .short 114 (by decide) (by decide) (by decide)
    · rw [hunit 9 (hnamed _ ht)]
      exact .short 116 (by decide) (by decide) (by decide)
    · -- A control character that has no short escape.
      rw [hchar] at hlow ⊢
      have hzero : escapesToZero u = decide (u.toNat % 16 = 0) := by
        have hsmall : ∀ n < 32, escapesToZero (UInt16.ofNat n) =
            decide (n % 16 = 0) := by
          decide
        have hthis := hsmall u.toNat hlow
        rwa [UInt16.ofNat_toNat] at hthis
      have hunits : ([JsonText.backslash, 'u', '0', '0',
          hexDigit (u.toNat / 16), hexDigit (u.toNat % 16)]).flatMap
            charUnits =
          [92, 117, hexDigitOf 0, hexDigitOf 0, hexDigitOf (u.toNat / 16),
            hexDigitOf (u.toNat % 16)] := by
        simp only [List.flatMap_cons, List.flatMap_nil, List.append_nil,
          charUnits_hexDigit (u.toNat / 16) (by omega),
          charUnits_hexDigit (u.toNat % 16) (by omega)]
        rfl
      rw [hunits]
      exact .digits _ _ _ _ (not_keyUnit_of_small (by omega)) (by omega)
        (by omega) (by omega) (by omega) hzero
    · have hplain : ([Char.ofNat u.toNat]).flatMap charUnits = [u] := by
        rw [List.flatMap_cons, Utf16.charUnits_unit hlone]
        rfl
      have hzero : escapesToZero u = false := by
        have hne : (u == 0) = false ∧ (u == 16) = false := by
          rw [hchar] at hlow
          constructor
          · rw [beq_eq_false_iff_ne]
            rintro rfl
            exact hlow (by decide)
          · rw [beq_eq_false_iff_ne]
            rintro rfl
            exact hlow (by decide)
        unfold escapesToZero
        rw [hne.1, hne.2, hlone]
        rfl
      rw [hplain]
      exact .plain hzero

/-! ## Raw keys in the written text -/

theorem keyUnit_of_zeroUnit {u : UInt16} (h : zeroUnit u = true) :
    keyUnit u = true := by
  rw [show u = 48 from beq_iff_eq.mp h]
  decide

theorem keyUnit_of_class {accepts : UInt16 → Bool}
    (haccepts : accepts ∈ rawPrivkeyPattern) {u : UInt16}
    (h : accepts u = true) : keyUnit u = true := by
  unfold rawPrivkeyPattern at haccepts
  rcases List.mem_cons.mp haccepts with hzero | htail
  · rw [hzero] at h
    exact keyUnit_of_zeroUnit h
  · unfold keyUnit
    rcases List.mem_cons.mp htail with hx | hdigit
    · rw [hx] at h
      rw [h, Bool.or_true]
    · rw [List.eq_of_mem_replicate hdigit] at h
      rw [h, Bool.true_or]

theorem not_surrogate_of_keyUnit {u : UInt16} (h : keyUnit u = true) :
    isHigh u = false ∧ isLow u = false := by
  have hbounds := keyUnit_bounds h
  constructor
  · unfold isHigh
    rw [Bool.and_eq_false_iff, decide_eq_false_iff_not]
    omega
  · unfold isLow
    rw [Bool.and_eq_false_iff, decide_eq_false_iff_not]
    omega

theorem not_paired {u : UInt16} (h : isHigh u = false) (rest : Text) :
    ∀ v ∈ rest.head?, (isHigh u && isLow v) = false := by
  intro v _
  rw [h, Bool.false_and]

theorem literalUnits_keyUnit {u : UInt16} {rest : Text}
    (h : keyUnit u = true) :
    literalUnits (u :: rest) = u :: literalUnits rest := by
  have hplain : (escapeUnit u).flatMap charUnits = [u] := by
    have hwritten := written_unit u
    generalize (escapeUnit u).flatMap charUnits = word at hwritten
    cases hwritten with
    | plain => rfl
    | short letter hkey =>
        rw [h] at hkey
        simp at hkey
    | digits a b c d hkey =>
        rw [h] at hkey
        simp at hkey
  rw [literalUnits_cons (not_paired (not_surrogate_of_keyUnit h).1 rest),
    hplain]
  rfl

/-- What is written for another unit does not start with a letter or digit of
the pattern. -/
theorem literalUnits_other {u : UInt16} {rest : Text}
    (h : keyUnit u = false) :
    ∃ first tail, literalUnits (u :: rest) = first :: tail ∧
      keyUnit first = false := by
  by_cases hpair : ∀ v ∈ rest.head?, (isHigh u && isLow v) = false
  · rw [literalUnits_cons hpair]
    have hwritten := written_unit u
    generalize (escapeUnit u).flatMap charUnits = word at hwritten
    cases hwritten with
    | plain => exact ⟨u, _, rfl, h⟩
    | short letter => exact ⟨92, _, rfl, by decide⟩
    | digits a b c d => exact ⟨92, _, rfl, by decide⟩
  · push Not at hpair
    obtain ⟨v, hv, hboth⟩ := hpair
    cases rest with
    | nil => simp at hv
    | cons w rest =>
        have hsame : w = v := by simpa using hv
        rw [← hsame, ne_eq, Bool.not_eq_false] at hboth
        exact ⟨u, _, literalUnits_pair hboth, h⟩

/-- Writing a string changes no word of letters and digits of the pattern. -/
theorem matchesAt_literalUnits {pattern : Pattern UInt16}
    (hpattern : ∀ accepts ∈ pattern, ∀ u, accepts u = true →
      keyUnit u = true) (text : Text) :
    matchesAt pattern (literalUnits text) = matchesAt pattern text := by
  induction text generalizing pattern with
  | nil => rfl
  | cons u rest ih =>
      cases pattern with
      | nil => cases hwritten : literalUnits (u :: rest) <;> rfl
      | cons accepts others =>
          by_cases hkey : keyUnit u = true
          · rw [literalUnits_keyUnit hkey, matchesAt, matchesAt,
              ih (fun other hother => hpattern other
                (List.mem_cons_of_mem _ hother))]
          · rw [Bool.not_eq_true] at hkey
            have hrejects : ∀ v, keyUnit v = false → accepts v = false := by
              intro v hv
              by_contra haccepts
              rw [hpattern accepts List.mem_cons_self v
                (by simpa using haccepts)] at hv
              simp at hv
            obtain ⟨first, tail, hwritten, hfirst⟩ :=
              @literalUnits_other u rest hkey
            rw [hwritten, matchesAt, matchesAt, hrejects u hkey,
              hrejects first hfirst, Bool.false_and, Bool.false_and]

theorem matchesAt_keyTail_literalUnits (text : Text) :
    matchesAt keyTail (literalUnits text) = matchesAt keyTail text :=
  matchesAt_literalUnits
    (fun _ haccepts _ h => keyUnit_of_class (List.mem_cons_of_mem _ haccepts) h)
    text

theorem matchesAt_raw_cons {u : UInt16} {text : Text} :
    matchesAt rawPrivkeyPattern (u :: text) = true ↔
      zeroUnit u = true ∧ matchesAt keyTail text = true :=
  FixedPattern.matchesAt_cons

theorem raw_rejects {u : UInt16} (h : zeroUnit u = false) (text : Text) :
    Occurs rawPrivkeyPattern (u :: text) ↔ Occurs rawPrivkeyPattern text :=
  FixedPattern.occurs_cons_of_rejected h

/-- No occurrence starts at a digit that another digit follows. -/
theorem raw_digit {a b : ℕ} (hb : b < 16) (text : Text) :
    Occurs rawPrivkeyPattern (hexDigitOf a :: hexDigitOf b :: text) ↔
      Occurs rawPrivkeyPattern (hexDigitOf b :: text) := by
  rw [FixedPattern.occurs_cons, matchesAt_raw_cons]
  unfold keyTail
  rw [FixedPattern.matchesAt_cons, xUnit_hexDigitOf b hb]
  simp

theorem occurs_written {u : UInt16} {word : Text} (hword : Written u word)
    (text : Text) :
    Occurs rawPrivkeyPattern (word ++ text) ↔
      (zeroUnit u = true ∧ matchesAt keyTail text = true) ∨
        (escapesToZero u = true ∧ matchesAt keyTail text = true) ∨
        Occurs rawPrivkeyPattern text := by
  have hother : keyUnit u = false → zeroUnit u = false := by
    intro hkey
    by_contra hzero
    rw [keyUnit_of_zeroUnit (by simpa using hzero)] at hkey
    simp at hkey
  cases hword with
  | plain hzero =>
      rw [List.singleton_append, FixedPattern.occurs_cons, matchesAt_raw_cons,
        hzero]
      simp
  | short letter hkey hzero hletter =>
      change Occurs rawPrivkeyPattern (92 :: letter :: text) ↔ _
      rw [raw_rejects (by decide), raw_rejects hletter, hother hkey, hzero]
      simp
  | digits a b c d hkey ha hb hc hd hzero =>
      change Occurs rawPrivkeyPattern (92 :: 117 :: hexDigitOf a ::
        hexDigitOf b :: hexDigitOf c :: hexDigitOf d :: text) ↔ _
      rw [raw_rejects (by decide), raw_rejects (by decide), raw_digit hb,
        raw_digit hc, raw_digit hd, FixedPattern.occurs_cons,
        matchesAt_raw_cons, zeroUnit_hexDigitOf d hd, ← hzero, hother hkey]
      simp

theorem escapedKey_cons {u : UInt16} {rest : Text}
    (hpair : ∀ v ∈ rest.head?, (isHigh u && isLow v) = false) :
    EscapedKey (u :: rest) ↔
      (escapesToZero u = true ∧ matchesAt keyTail rest = true ∧
        matchesAt rawPrivkeyPattern (rest.drop 64) = false) ∨
      EscapedKey rest := by
  cases rest with
  | nil => simp [EscapedKey, keyTail, matchesAt]
  | cons v rest =>
      rw [EscapedKey, hpair v rfl]
      simp

theorem escapedKey_pair {u v : UInt16} {rest : Text}
    (hpair : (isHigh u && isLow v) = true) :
    EscapedKey (u :: v :: rest) ↔ EscapedKey rest := by
  rw [EscapedKey, if_pos hpair]

theorem zeroUnit_of_surrogate {u : UInt16}
    (h : (isHigh u || isLow u) = true) : zeroUnit u = false := by
  by_contra hzero
  have hkey := keyUnit_of_zeroUnit (u := u) (by simpa using hzero)
  rw [(not_surrogate_of_keyUnit hkey).1, (not_surrogate_of_keyUnit hkey).2] at h
  simp at h

theorem occurs_pair {u v : UInt16} (hpair : (isHigh u && isLow v) = true)
    (text : Text) :
    Occurs rawPrivkeyPattern (u :: v :: text) ↔
      Occurs rawPrivkeyPattern text := by
  rw [Bool.and_eq_true] at hpair
  rw [raw_rejects (zeroUnit_of_surrogate (by simp [hpair.1])),
    raw_rejects (zeroUnit_of_surrogate (by simp [hpair.2]))]

/-- The text of a string literal shows a raw key when the string has one, and
when an escape supplies the leading zero. -/
theorem occurs_literalUnits (text : Text) :
    Occurs rawPrivkeyPattern (literalUnits text) ↔
      Occurs rawPrivkeyPattern text ∨ EscapedKey text := by
  induction hlength : text.length using Nat.strongRecOn generalizing text with
  | ind n ih =>
      cases text with
      | nil => simp [literalUnits_nil, EscapedKey]
      | cons u rest =>
          rw [List.length_cons] at hlength
          by_cases hpair : ∀ v ∈ rest.head?, (isHigh u && isLow v) = false
          · have hrest := ih rest.length (by omega) rest rfl
            have hoverlap :
                matchesAt rawPrivkeyPattern (rest.drop 64) = true →
                Occurs rawPrivkeyPattern rest := by
              intro hmatch
              exact ⟨_, List.drop_suffix _ _, hmatch⟩
            rw [literalUnits_cons hpair, occurs_written (written_unit u),
              matchesAt_keyTail_literalUnits, hrest, escapedKey_cons hpair,
              FixedPattern.occurs_cons, matchesAt_raw_cons]
            by_cases hraw : matchesAt rawPrivkeyPattern (rest.drop 64) = true
            · have hoccurs := hoverlap hraw
              tauto
            · rw [Bool.not_eq_true] at hraw
              tauto
          · push Not at hpair
            obtain ⟨v, hv, hboth⟩ := hpair
            cases rest with
            | nil => simp at hv
            | cons w rest =>
                have hsame : w = v := by simpa using hv
                rw [← hsame, ne_eq, Bool.not_eq_false] at hboth
                rw [List.length_cons] at hlength
                rw [literalUnits_pair hboth, occurs_pair hboth,
                  occurs_pair hboth, escapedKey_pair hboth]
                exact ih rest.length (by omega) rest rfl

end Execution
end Orvex
