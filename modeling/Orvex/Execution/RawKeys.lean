import Orvex.Execution.Redaction

/-!
# Raw keys in redacted texts

The redactor replaces the raw keys of a string, but `JSON.stringify` may
complete a raw key with the last digit of an escape.  The text of a value
shows a raw key only inside the literal of a string value or of a key.
-/

namespace Orvex
namespace Execution

open JsonText (Value)
open Utf16 (Text units charUnits isHigh isLow)
open ParsedJson (Number stringify written writtenItems writtenFields)
open FixedPattern (Pattern Occurs matchesAt search replaceAll)

/-! ## Redacted strings -/

theorem rejects_redactedText :
    ∀ u ∈ redactedText, zeroUnit u = false ∧ xUnit u = false ∧
      isHigh u = false ∧ isLow u = false ∧ escapesToZero u = false := by
  exact List.forall_iff_forall_mem.mp (by decide)

theorem redactString_match {u : UInt16} {text : Text}
    (hmatch : matchesAt rawPrivkeyPattern (u :: text) = true) :
    redactString (u :: text) =
      redactedText ++ redactString (text.drop 65) :=
  FixedPattern.replaceAll_of_match hmatch

theorem redactString_other {u : UInt16} {text : Text}
    (hmatch : matchesAt rawPrivkeyPattern (u :: text) = false) :
    redactString (u :: text) = u :: redactString text :=
  FixedPattern.replaceAll_of_no_match hmatch

/-- Induction along the places where the redaction of a string goes on. -/
theorem redactString_induction {motive : Text → Prop} (nil : motive [])
    (found : ∀ u rest, matchesAt rawPrivkeyPattern (u :: rest) = true →
      motive (rest.drop 65) → motive (u :: rest))
    (other : ∀ u rest, matchesAt rawPrivkeyPattern (u :: rest) = false →
      motive rest → motive (u :: rest)) (text : Text) : motive text :=
  @FixedPattern.replaceAll_induction _ rawPrivkeyPattern motive nil found other
    text

theorem xUnit_ne_digit {u : UInt16} (h : xUnit u = true) :
    hexDigitUnit u = false := by
  rw [show u = 120 from beq_iff_eq.mp h]
  decide

theorem zeroUnit_ne_x {u : UInt16} (h : zeroUnit u = true) :
    xUnit u = false := by
  rw [show u = 48 from beq_iff_eq.mp h]
  decide

/-- A run of digits is left alone unless its last digit starts a raw key. -/
theorem digits_redactString (n : ℕ) (text : Text) :
    matchesAt (List.replicate n hexDigitUnit) (redactString text) = true ↔
      matchesAt (List.replicate n hexDigitUnit) text = true ∧
        (0 < n →
          matchesAt rawPrivkeyPattern (text.drop (n - 1)) = false) := by
  induction n generalizing text with
  | zero => simp [matchesAt]
  | succ n ih =>
      cases text with
      | nil => simp [redactString, FixedPattern.replaceAll_nil, matchesAt,
          List.replicate_succ]
      | cons u rest =>
          rw [List.replicate_succ]
          by_cases hmatch : matchesAt rawPrivkeyPattern (u :: rest) = true
          · have hmark : matchesAt
                (hexDigitUnit :: List.replicate n hexDigitUnit)
                (redactString (u :: rest)) = false := by
              rw [redactString_match hmatch]
              rfl
            rw [hmark]
            obtain ⟨-, htail⟩ := matchesAt_raw_cons.mp hmatch
            constructor
            · intro h
              simp at h
            · intro h
              obtain ⟨hdigits, hlast⟩ := h
              cases n with
              | zero =>
                  have hnone := hlast (by decide)
                  rw [Nat.sub_self, List.drop_zero, hmatch] at hnone
                  simp at hnone
              | succ n =>
                  -- The letter after the leading zero is not a digit.
                  cases rest with
                  | nil => simp [keyTail, matchesAt] at htail
                  | cons v rest =>
                      have hx := (FixedPattern.matchesAt_cons.mp htail).1
                      have hdigit := (FixedPattern.matchesAt_cons.mp
                        (FixedPattern.matchesAt_cons.mp hdigits).2).1
                      rw [xUnit_ne_digit hx] at hdigit
                      simp at hdigit
          · rw [Bool.not_eq_true] at hmatch
            rw [redactString_other hmatch, FixedPattern.matchesAt_cons,
              FixedPattern.matchesAt_cons, ih]
            cases n with
            | zero => simp [hmatch]
            | succ n => simp [and_assoc]

theorem keyTail_redactString (text : Text) :
    matchesAt keyTail (redactString text) = true ↔
      matchesAt keyTail text = true ∧
        matchesAt rawPrivkeyPattern (text.drop 64) = false := by
  cases text with
  | nil => simp [redactString, FixedPattern.replaceAll_nil, matchesAt, keyTail]
  | cons u rest =>
      by_cases hmatch : matchesAt rawPrivkeyPattern (u :: rest) = true
      · have hmark : matchesAt keyTail (redactString (u :: rest)) = false := by
          rw [redactString_match hmatch]
          rfl
        have hzero := (matchesAt_raw_cons.mp hmatch).1
        rw [hmark, keyTail, FixedPattern.matchesAt_cons, zeroUnit_ne_x hzero]
        simp
      · rw [Bool.not_eq_true] at hmatch
        rw [redactString_other hmatch, keyTail, FixedPattern.matchesAt_cons,
          FixedPattern.matchesAt_cons, digits_redactString]
        simp [and_assoc]

/-- No raw key is left in a string. -/
theorem not_occurs_redactString (text : Text) :
    ¬ Occurs rawPrivkeyPattern (redactString text) := by
  induction text using redactString_induction with
  | nil => exact FixedPattern.not_occurs_nil (by simp [rawPrivkeyPattern])
  | found u rest hmatch ih =>
      have hmark := @FixedPattern.occurs_append_of_rejected _ zeroUnit
        (xUnit :: List.replicate 64 hexDigitUnit) redactedText
        (redactString (rest.drop 65))
        (fun v hv => (rejects_redactedText v hv).1)
      rw [redactString_match hmatch]
      exact fun h => ih (hmark.mp h)
  | other u rest hmatch ih =>
      rw [redactString_other hmatch, FixedPattern.occurs_cons,
        matchesAt_raw_cons, keyTail_redactString]
      intro h
      rcases h with ⟨hzero, htail, -⟩ | hrest
      · rw [matchesAt_raw_cons.mpr ⟨hzero, htail⟩] at hmatch
        simp at hmatch
      · exact ih hrest

theorem escapedKey_append {front : Text}
    (hfront : ∀ u ∈ front, isHigh u = false ∧ escapesToZero u = false)
    (text : Text) : EscapedKey (front ++ text) ↔ EscapedKey text := by
  induction front with
  | nil => rw [List.nil_append]
  | cons u front ih =>
      obtain ⟨hhigh, hzero⟩ := hfront u List.mem_cons_self
      rw [List.cons_append, escapedKey_cons (not_paired hhigh _), hzero,
        ih (fun v hv => hfront v (List.mem_cons_of_mem _ hv))]
      simp

theorem escapesToZero_of_keyUnit {u : UInt16} (h : keyUnit u = true) :
    escapesToZero u = false := by
  have hbounds := keyUnit_bounds h
  have hsurrogate := not_surrogate_of_keyUnit h
  unfold escapesToZero
  rw [hsurrogate.1, hsurrogate.2, Bool.or_self, Bool.false_and, Bool.or_false,
    Bool.or_eq_false_iff, beq_eq_false_iff_ne, beq_eq_false_iff_ne]
  constructor
  · intro hzero
    rw [hzero] at hbounds
    exact absurd hbounds.1 (by decide)
  · intro hsixteen
    rw [hsixteen] at hbounds
    exact absurd hbounds.1 (by decide)

/-- A raw key hides no escape. -/
theorem escapedKey_match {u : UInt16} {rest : Text}
    (hmatch : matchesAt rawPrivkeyPattern (u :: rest) = true) :
    EscapedKey (u :: rest) ↔ EscapedKey (rest.drop 65) := by
  obtain ⟨word, htext, hword⟩ := FixedPattern.word_of_matchesAt hmatch
  have hdrop : (u :: rest).drop rawPrivkeyPattern.length = rest.drop 65 := rfl
  rw [htext, hdrop]
  apply escapedKey_append
  intro v hv
  obtain ⟨accepts, haccepts, hv⟩ := hword v hv
  have hkey := keyUnit_of_class haccepts hv
  exact ⟨(not_surrogate_of_keyUnit hkey).1, escapesToZero_of_keyUnit hkey⟩

theorem redactString_of_not_zero {u : UInt16} (h : zeroUnit u = false)
    (rest : Text) : redactString (u :: rest) = u :: redactString rest := by
  apply redactString_other
  by_contra hmatch
  rw [(matchesAt_raw_cons.mp (by simpa using hmatch)).1] at h
  simp at h

/-- Redaction neither adds nor removes an escape that completes a key. -/
theorem escapedKey_redactString (text : Text) :
    EscapedKey (redactString text) ↔ EscapedKey text := by
  induction hlength : text.length using Nat.strongRecOn generalizing text with
  | ind n ih =>
      cases text with
      | nil => rfl
      | cons u rest =>
          rw [List.length_cons] at hlength
          by_cases hmatch : matchesAt rawPrivkeyPattern (u :: rest) = true
          · have hdrop : (rest.drop 65).length < n := by
              rw [List.length_drop]
              omega
            rw [redactString_match hmatch, escapedKey_match hmatch,
              escapedKey_append (fun v hv =>
                have h := rejects_redactedText v hv
                ⟨h.2.2.1, h.2.2.2.2⟩)]
            exact ih _ hdrop _ rfl
          · rw [Bool.not_eq_true] at hmatch
            rw [redactString_other hmatch]
            by_cases hpair : ∀ v ∈ rest.head?, (isHigh u && isLow v) = false
            · have hpair' : ∀ v ∈ (redactString rest).head?,
                  (isHigh u && isLow v) = false := by
                cases rest with
                | nil => exact hpair
                | cons w rest =>
                    by_cases hfound : matchesAt rawPrivkeyPattern
                        (w :: rest) = true
                    · rw [redactString_match hfound]
                      intro v hv
                      have hmark : v ∈ redactedText :=
                        List.mem_of_mem_head? hv
                      rw [(rejects_redactedText v hmark).2.2.2.1,
                        Bool.and_false]
                    · rw [Bool.not_eq_true] at hfound
                      rw [redactString_other hfound]
                      exact hpair
              have hnone : matchesAt rawPrivkeyPattern
                  ((redactString rest).drop 64) = false := by
                by_contra hfound
                apply not_occurs_redactString rest
                exact ⟨_, List.drop_suffix _ _, by simpa using hfound⟩
              rw [escapedKey_cons hpair', escapedKey_cons hpair,
                keyTail_redactString, hnone,
                ih rest.length (by omega) rest rfl]
              simp
            · push Not at hpair
              obtain ⟨v, hv, hboth⟩ := hpair
              cases rest with
              | nil => simp at hv
              | cons w rest =>
                  have hsame : w = v := by simpa using hv
                  rw [← hsame, ne_eq, Bool.not_eq_false] at hboth
                  have hlow : zeroUnit w = false := by
                    apply zeroUnit_of_surrogate
                    rw [Bool.and_eq_true] at hboth
                    rw [hboth.2, Bool.or_true]
                  rw [List.length_cons] at hlength
                  rw [redactString_of_not_zero hlow, escapedKey_pair hboth,
                    escapedKey_pair hboth]
                  exact ih rest.length (by omega) rest rfl

/-- What the literal of a redacted string still shows. -/
theorem occurs_redacted_literal (text : Text) :
    Occurs rawPrivkeyPattern (literalUnits (redactString text)) ↔
      EscapedKey text := by
  rw [occurs_literalUnits, escapedKey_redactString]
  exact or_iff_right (not_occurs_redactString text)

/-! ## The text of a value -/

section

variable {ν : Type}

mutual

/-- The string values and the keys of a value. -/
def literals : Value Text ν → List Text
  | .null => []
  | .bool _ => []
  | .number _ => []
  | .string s => [s]
  | .array items => literalsOfItems items
  | .object fields => literalsOfFields fields

def literalsOfItems : List (Value Text ν) → List Text
  | [] => []
  | item :: rest => literals item ++ literalsOfItems rest

def literalsOfFields : List (Text × Value Text ν) → List Text
  | [] => []
  | (key, value) :: rest => key :: literals value ++ literalsOfFields rest

end

/-- Some literal shows a raw key. -/
def Shows (texts : List Text) : Prop :=
  ∃ text ∈ texts, Occurs rawPrivkeyPattern (literalUnits text)

theorem shows_nil : ¬ Shows [] := by
  intro h
  obtain ⟨text, hmem, -⟩ := h
  simp at hmem

theorem shows_cons {text : Text} {texts : List Text} :
    Shows (text :: texts) ↔
      Occurs rawPrivkeyPattern (literalUnits text) ∨ Shows texts := by
  simp [Shows]

theorem shows_append {texts texts' : List Text} :
    Shows (texts ++ texts') ↔ Shows texts ∨ Shows texts' := by
  simp [Shows, or_and_right, exists_or]

end

theorem separates {u : UInt16} (h : keyUnit u = false) (front back : Text) :
    Occurs rawPrivkeyPattern (front ++ u :: back) ↔
      Occurs rawPrivkeyPattern front ∨ Occurs rawPrivkeyPattern back := by
  apply FixedPattern.occurs_separator (by simp [rawPrivkeyPattern])
  intro accepts haccepts
  by_contra hu
  rw [keyUnit_of_class haccepts (by simpa using hu)] at h
  simp at h

theorem not_occurs_nil : ¬ Occurs rawPrivkeyPattern [] :=
  FixedPattern.not_occurs_nil (by simp [rawPrivkeyPattern])

theorem not_occurs_of_no_x {text : Text} (h : ∀ u ∈ text, xUnit u = false) :
    ¬ Occurs rawPrivkeyPattern text :=
  FixedPattern.not_occurs_of_absent
    (List.mem_cons_of_mem _ List.mem_cons_self) h

theorem numberChar_units {c : Char} (h : JsonText.isNumberChar c = true) :
    ∀ u ∈ charUnits c, xUnit u = false := by
  have hother : ∀ d : Char, d.toNat < 0x10000 → d.toNat ≠ 120 →
      ∀ u ∈ charUnits d, xUnit u = false := by
    intro d hsmall hne u hu
    unfold charUnits at hu
    rw [if_pos hsmall, List.mem_singleton] at hu
    unfold xUnit
    rw [beq_eq_false_iff_ne]
    intro hx
    apply hne
    rw [hx] at hu
    have hvalue := congrArg UInt16.toNat hu
    rw [UInt16.toNat_ofNat'] at hvalue
    have hmod : d.toNat % 2 ^ 16 = d.toNat := Nat.mod_eq_of_lt hsmall
    rw [hmod] at hvalue
    exact hvalue.symm
  unfold JsonText.isNumberChar at h
  simp only [Bool.or_eq_true, decide_eq_true_eq] at h
  rcases h with (((hdigit | hminus) | hplus) | hpoint) | he
  · have hbounds := ParsedJson.isDigit_bounds hdigit
    exact hother c (by omega) (by omega)
  · exact hminus ▸ hother '-' (by decide) (by decide)
  · exact hplus ▸ hother '+' (by decide) (by decide)
  · exact hpoint ▸ hother '.' (by decide) (by decide)
  · exact he ▸ hother 'e' (by decide) (by decide)

theorem occurs_quoted (text back : Text) :
    Occurs rawPrivkeyPattern
        ((Utf16.quoteUnits text).flatMap charUnits ++ back) ↔
      Occurs rawPrivkeyPattern (literalUnits text) ∨
        Occurs rawPrivkeyPattern back := by
  have hquoted : (Utf16.quoteUnits text).flatMap charUnits ++ back =
      34 :: (literalUnits text ++ 34 :: back) := by
    have hmark : charUnits JsonText.quoteMark = [34] := by decide
    unfold Utf16.quoteUnits literalUnits
    simp only [List.cons_append, List.flatMap_cons, List.flatMap_append,
      List.flatMap_nil, hmark, List.nil_append, List.append_nil,
      List.append_assoc]
  rw [hquoted, raw_rejects (by decide), separates (by decide)]

section

open JsonText (render renderItems renderMoreItems renderFields
  renderMoreFields)

variable {ν : Type} {number : ν → List Char}

/-- The numbers are written with number characters. -/
def PlainNumbers (number : ν → List Char) : Prop :=
  ∀ n, ∀ c ∈ number n, JsonText.isNumberChar c = true

mutual

/-- The text of a value shows a raw key only inside a literal. -/
theorem occurs_render (hnumber : PlainNumbers number) :
    ∀ value : Value Text ν,
    Occurs rawPrivkeyPattern
        ((render Utf16.quoteUnits number value).flatMap charUnits) ↔
      Shows (literals value)
  | .null => by
      have habsent : ∀ u ∈ ['n', 'u', 'l', 'l'].flatMap charUnits,
          xUnit u = false := by
        exact List.forall_iff_forall_mem.mp (by decide)
      rw [literals, iff_false_right shows_nil]
      exact not_occurs_of_no_x habsent
  | .bool true => by
      have habsent : ∀ u ∈ ['t', 'r', 'u', 'e'].flatMap charUnits,
          xUnit u = false := by
        exact List.forall_iff_forall_mem.mp (by decide)
      rw [literals, iff_false_right shows_nil]
      exact not_occurs_of_no_x habsent
  | .bool false => by
      have habsent : ∀ u ∈ ['f', 'a', 'l', 's', 'e'].flatMap charUnits,
          xUnit u = false := by
        exact List.forall_iff_forall_mem.mp (by decide)
      rw [literals, iff_false_right shows_nil]
      exact not_occurs_of_no_x habsent
  | .number n => by
      rw [literals, iff_false_right shows_nil]
      apply not_occurs_of_no_x
      intro u hu
      obtain ⟨c, hc, hunit⟩ := List.mem_flatMap.mp hu
      exact numberChar_units (hnumber n c hc) u hunit
  | .string text => by
      have hquoted := occurs_quoted text []
      rw [List.append_nil] at hquoted
      rw [literals, shows_cons, render, hquoted]
      simp [not_occurs_nil, shows_nil]
  | .array items => by
      have hunits : (render Utf16.quoteUnits number
          (.array items)).flatMap charUnits =
          91 :: ((renderItems Utf16.quoteUnits number items).flatMap
            charUnits ++ 93 :: []) := by
        rw [render, List.cons_append, List.flatMap_cons, List.flatMap_append]
        rfl
      rw [hunits, raw_rejects (by decide), separates (by decide),
        occurs_renderItems hnumber items, literals]
      exact or_iff_left not_occurs_nil
  | .object fields => by
      have hunits : (render Utf16.quoteUnits number
          (.object fields)).flatMap charUnits =
          123 :: ((renderFields Utf16.quoteUnits number fields).flatMap
            charUnits ++ 125 :: []) := by
        rw [render, List.cons_append, List.flatMap_cons, List.flatMap_append]
        rfl
      rw [hunits, raw_rejects (by decide), separates (by decide),
        occurs_renderFields hnumber fields, literals]
      exact or_iff_left not_occurs_nil

theorem occurs_renderItems (hnumber : PlainNumbers number) :
    ∀ items : List (Value Text ν),
    Occurs rawPrivkeyPattern
        ((renderItems Utf16.quoteUnits number items).flatMap charUnits) ↔
      Shows (literalsOfItems items)
  | [] => by
      rw [literalsOfItems, iff_false_right shows_nil]
      exact not_occurs_nil
  | item :: rest => by
      rw [renderItems, List.flatMap_append, occurs_renderMoreItems hnumber rest,
        occurs_render hnumber item, literalsOfItems, shows_append]

theorem occurs_renderMoreItems (hnumber : PlainNumbers number) :
    ∀ (items : List (Value Text ν))
    (front : Text),
    Occurs rawPrivkeyPattern
        (front ++
          (renderMoreItems Utf16.quoteUnits number items).flatMap charUnits) ↔
      Occurs rawPrivkeyPattern front ∨ Shows (literalsOfItems items)
  | [], front => by
      rw [renderMoreItems, List.flatMap_nil, List.append_nil, literalsOfItems,
        or_iff_left shows_nil]
  | item :: rest, front => by
      have hunits : (renderMoreItems Utf16.quoteUnits number
          (item :: rest)).flatMap charUnits =
          44 :: ((render Utf16.quoteUnits number item).flatMap charUnits ++
            (renderMoreItems Utf16.quoteUnits number rest).flatMap
              charUnits) := by
        rw [renderMoreItems, List.cons_append, List.flatMap_cons,
          List.flatMap_append]
        rfl
      rw [hunits, separates (by decide), occurs_renderMoreItems hnumber rest,
        occurs_render hnumber item, literalsOfItems, shows_append]

theorem occurs_renderFields (hnumber : PlainNumbers number) :
    ∀ fields : List (Text × Value Text ν),
    Occurs rawPrivkeyPattern
        ((renderFields Utf16.quoteUnits number fields).flatMap charUnits) ↔
      Shows (literalsOfFields fields)
  | [] => by
      rw [literalsOfFields, iff_false_right shows_nil]
      exact not_occurs_nil
  | (key, value) :: rest => by
      have hunits : (renderFields Utf16.quoteUnits number
          ((key, value) :: rest)).flatMap charUnits =
          (Utf16.quoteUnits key).flatMap charUnits ++ 58 ::
            ((render Utf16.quoteUnits number value).flatMap charUnits ++
              (renderMoreFields Utf16.quoteUnits number rest).flatMap
                charUnits) := by
        rw [renderFields]
        simp only [List.flatMap_append, List.flatMap_cons, List.append_assoc]
        rfl
      rw [hunits, occurs_quoted, raw_rejects (by decide),
        occurs_renderMoreFields hnumber rest, occurs_render hnumber value,
        literalsOfFields,
        List.cons_append, shows_cons, shows_append]

theorem occurs_renderMoreFields (hnumber : PlainNumbers number) :
    ∀ (fields : List (Text × Value Text ν))
    (front : Text),
    Occurs rawPrivkeyPattern
        (front ++
          (renderMoreFields Utf16.quoteUnits number fields).flatMap
            charUnits) ↔
      Occurs rawPrivkeyPattern front ∨ Shows (literalsOfFields fields)
  | [], front => by
      rw [renderMoreFields, List.flatMap_nil, List.append_nil,
        literalsOfFields, or_iff_left shows_nil]
  | (key, value) :: rest, front => by
      have hunits : (renderMoreFields Utf16.quoteUnits number
          ((key, value) :: rest)).flatMap charUnits =
          44 :: ((Utf16.quoteUnits key).flatMap charUnits ++ 58 ::
            ((render Utf16.quoteUnits number value).flatMap charUnits ++
              (renderMoreFields Utf16.quoteUnits number rest).flatMap
                charUnits)) := by
        rw [renderMoreFields]
        simp only [List.flatMap_append, List.flatMap_cons, List.append_assoc,
          List.cons_append]
        rfl
      rw [hunits, separates (by decide), occurs_quoted,
        raw_rejects (by decide), occurs_renderMoreFields hnumber rest,
        occurs_render hnumber value, literalsOfFields, List.cons_append,
        shows_cons,
        shows_append]

end

end

mutual

theorem literals_written : ∀ value : Value Text Number,
    literals (written value) = literals value
  | .null => rfl
  | .bool _ => rfl
  | .number (.finite _) => rfl
  | .number (.infinite _) => rfl
  | .string _ => rfl
  | .array items => by
      rw [written, literals, literals, literalsOfItems_written items]
  | .object fields => by
      rw [written, literals, literals, literalsOfFields_written fields]

theorem literalsOfItems_written : ∀ items : List (Value Text Number),
    literalsOfItems (writtenItems items) = literalsOfItems items
  | [] => rfl
  | item :: rest => by
      rw [writtenItems, literalsOfItems, literalsOfItems,
        literals_written item, literalsOfItems_written rest]

theorem literalsOfFields_written :
    ∀ fields : List (Text × Value Text Number),
    literalsOfFields (writtenFields fields) = literalsOfFields fields
  | [] => rfl
  | (key, value) :: rest => by
      rw [writtenFields, literalsOfFields, literalsOfFields,
        literals_written value, literalsOfFields_written rest]

end

theorem occurs_stringify {rt : Runtime}
    (hnumbers : JsonText.NumberTokens
      (fun n => (rt.numberToString n).toList))
    (value : Value Text Number) :
    Occurs rawPrivkeyPattern (units (stringify rt value)) ↔
      Shows (literals value) := by
  have hunits : units (stringify rt value) =
      (JsonText.render Utf16.quoteUnits
        (fun n => (rt.numberToString n).toList) (written value)).flatMap
          charUnits := by
    unfold units stringify
    rw [String.toList_ofList]
  rw [hunits, occurs_render hnumbers.chars, literals_written]

end Execution
end Orvex
