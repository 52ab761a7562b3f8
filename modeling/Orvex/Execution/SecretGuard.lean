import Orvex.Execution.RawKeys

/-!
# What the guard finds and what the redactor leaves

The guard answers from the `lastIndex` that the previous calls left.  The
redactor replaces the raw keys of every string value and every value under a
secret-looking key, and leaves the keys of objects as they are.
-/

namespace Orvex
namespace Execution

open JsonText (Value)
open Utf16 (Text units isHigh)
open ParsedJson (Number protoUnits)
open FixedPattern (Occurs search)

/-! ## What the redactor leaves -/

mutual

/-- A raw key is left in the text of the redacted value: in a key of an
object, or in a string in which an escape completes it. -/
def LeavesKey : Value Text Number → Prop
  | .null => False
  | .bool _ => False
  | .number _ => False
  | .string text => EscapedKey text
  | .array items => ItemsLeaveKey items
  | .object fields => FieldsLeaveKey fields

def ItemsLeaveKey : List (Value Text Number) → Prop
  | [] => False
  | item :: rest => LeavesKey item ∨ ItemsLeaveKey rest

def FieldsLeaveKey : List (Text × Value Text Number) → Prop
  | [] => False
  | (key, value) :: rest =>
      (key ≠ protoUnits ∧
        (Occurs rawPrivkeyPattern key ∨ EscapedKey key ∨
          secretKey key = false ∧ LeavesKey value)) ∨
      FieldsLeaveKey rest

end

mutual

/-- Every value under a secret-looking key is the replacement. -/
def SecretsReplaced : Value Text Number → Prop
  | .null => True
  | .bool _ => True
  | .number _ => True
  | .string _ => True
  | .array items => ItemSecretsReplaced items
  | .object fields => FieldSecretsReplaced fields

def ItemSecretsReplaced : List (Value Text Number) → Prop
  | [] => True
  | item :: rest => SecretsReplaced item ∧ ItemSecretsReplaced rest

def FieldSecretsReplaced : List (Text × Value Text Number) → Prop
  | [] => True
  | (key, value) :: rest =>
      (secretKey key = true → value = .string redactedText) ∧
        SecretsReplaced value ∧ FieldSecretsReplaced rest

end

theorem not_shows_redactedText : ¬ Shows [redactedText] := by
  have hplain : ¬ Occurs rawPrivkeyPattern (literalUnits redactedText) := by
    apply not_occurs_of_no_x
    exact List.forall_iff_forall_mem.mp (by decide)
  rw [shows_cons]
  simp [hplain, shows_nil]

theorem shows_nil_iff : Shows [] ↔ False := iff_of_false shows_nil id

mutual

theorem shows_redacted : ∀ (value : Value Text Number) (lastIndex : ℕ),
    Shows (literals (redactSecrets value lastIndex).1) ↔ LeavesKey value
  | .null, _ => by
      rw [redactSecrets, literals, LeavesKey, shows_nil_iff]
  | .bool _, _ => by
      rw [redactSecrets, literals, LeavesKey, shows_nil_iff]
  | .number _, _ => by
      rw [redactSecrets, literals, LeavesKey, shows_nil_iff]
  | .string text, _ => by
      rw [redactSecrets, literals, shows_cons, occurs_redacted_literal,
        LeavesKey, or_iff_left shows_nil]
  | .array items, lastIndex => by
      rw [redactSecrets, literals, LeavesKey]
      exact shows_redactedItems items lastIndex
  | .object fields, lastIndex => by
      rw [redactSecrets, literals, LeavesKey]
      exact shows_redactedFields fields lastIndex

theorem shows_redactedItems :
    ∀ (items : List (Value Text Number)) (lastIndex : ℕ),
    Shows (literalsOfItems (redactItems items lastIndex).1) ↔
      ItemsLeaveKey items
  | [], _ => by
      rw [redactItems, literalsOfItems, ItemsLeaveKey, shows_nil_iff]
  | item :: rest, lastIndex => by
      rw [redactItems, literalsOfItems, shows_append, ItemsLeaveKey,
        shows_redacted item lastIndex, shows_redactedItems rest]

theorem shows_redactedFields :
    ∀ (fields : List (Text × Value Text Number)) (lastIndex : ℕ),
    Shows (literalsOfFields (redactFields fields lastIndex).1) ↔
      FieldsLeaveKey fields
  | [], _ => by
      rw [redactFields, literalsOfFields, FieldsLeaveKey, shows_nil_iff]
  | (key, value) :: rest, lastIndex => by
      have hvalue := shows_redacted value lastIndex
      have hrest := shows_redactedFields rest
      rw [redactFields, FieldsLeaveKey]
      by_cases hproto : key = protoUnits
      · simp only [if_pos hproto, hrest]
        simp [hproto]
      · simp only [if_neg hproto, literalsOfFields, List.cons_append,
          shows_cons, shows_append, occurs_literalUnits, hrest]
        by_cases hsecret : secretKey key = true
        · have hmark : ¬ Shows (literals (.string redactedText :
              Value Text Number)) := not_shows_redactedText
          simp only [hsecret, if_true]
          simp [hproto, hmark, or_assoc]
        · rw [Bool.not_eq_true] at hsecret
          simp only [hsecret, Bool.false_eq_true, if_false, hvalue]
          simp [hproto, or_assoc]

end

mutual

theorem secrets_replaced : ∀ (value : Value Text Number) (lastIndex : ℕ),
    SecretsReplaced (redactSecrets value lastIndex).1
  | .null, _ => trivial
  | .bool _, _ => trivial
  | .number _, _ => trivial
  | .string _, _ => trivial
  | .array items, lastIndex => by
      rw [redactSecrets, SecretsReplaced]
      exact item_secrets_replaced items lastIndex
  | .object fields, lastIndex => by
      rw [redactSecrets, SecretsReplaced]
      exact field_secrets_replaced fields lastIndex

theorem item_secrets_replaced :
    ∀ (items : List (Value Text Number)) (lastIndex : ℕ),
    ItemSecretsReplaced (redactItems items lastIndex).1
  | [], _ => trivial
  | item :: rest, lastIndex => by
      rw [redactItems, ItemSecretsReplaced]
      exact ⟨secrets_replaced item lastIndex, item_secrets_replaced rest _⟩

theorem field_secrets_replaced :
    ∀ (fields : List (Text × Value Text Number)) (lastIndex : ℕ),
    FieldSecretsReplaced (redactFields fields lastIndex).1
  | [], _ => trivial
  | (key, value) :: rest, lastIndex => by
      have hvalue := secrets_replaced value lastIndex
      rw [redactFields]
      by_cases hproto : key = protoUnits
      · simp only [if_pos hproto]
        exact field_secrets_replaced rest _
      · simp only [if_neg hproto, FieldSecretsReplaced]
        refine ⟨?_, ?_, field_secrets_replaced rest _⟩
        · intro hsecret
          rw [if_pos hsecret]
        · by_cases hsecret : secretKey key = true
          · rw [if_pos hsecret]
            trivial
          · rw [if_neg hsecret]
            exact hvalue

end

/-! ## The guard -/

/-- The text of the value has 0x followed by 64 hexadecimal digits. -/
def HasRawKey (rt : Runtime) (value : Value Text Number) : Prop :=
  Occurs rawPrivkeyPattern (serialized rt value)

theorem testRawPrivkey_iff (text : Text) (lastIndex : ℕ) :
    (testRawPrivkey text lastIndex).1 = true ↔
      Occurs rawPrivkeyPattern (text.drop lastIndex) := by
  have hne : rawPrivkeyPattern ≠ [] := by simp [rawPrivkeyPattern]
  have hsearch := @FixedPattern.search_isSome _ rawPrivkeyPattern hne lastIndex
    (text.drop lastIndex)
  unfold testRawPrivkey
  by_cases hlength : text.length < lastIndex
  · rw [if_pos hlength, List.drop_eq_nil_of_le (by omega)]
    simp [not_occurs_nil]
  · rw [if_neg hlength, ← hsearch]
    cases search rawPrivkeyPattern lastIndex (text.drop lastIndex) <;> simp

/-- A string is searched as it is, another value as JSON text. -/
def IsString : Value Text Number → Prop
  | .string _ => True
  | _ => False

theorem hasRawKey_iff {rt : Runtime}
    (hnumbers : JsonText.NumberTokens
      (fun n => (rt.numberToString n).toList))
    {value : Value Text Number} (hstring : ¬ IsString value) :
    HasRawKey rt value ↔ Shows (literals value) := by
  cases value with
  | null =>
      have hempty : ¬ Shows (literals (.string [] : Value Text Number)) := by
        rw [literals, shows_cons, literalUnits_nil]
        simp [not_occurs_nil, shows_nil]
      rw [HasRawKey, serialized, occurs_stringify hnumbers, literals,
        shows_nil_iff]
      exact iff_of_false hempty id
  | bool b => exact occurs_stringify hnumbers _
  | number n => exact occurs_stringify hnumbers _
  | string text => exact absurd trivial hstring
  | array items => exact occurs_stringify hnumbers _
  | object fields => exact occurs_stringify hnumbers _

theorem isString_redacted (value : Value Text Number) (lastIndex : ℕ) :
    IsString (redactSecrets value lastIndex).1 ↔ IsString value := by
  cases value <;> rw [redactSecrets] <;> rfl

/-- The redacted value shows a raw key when it is JSON text that leaves
one. -/
theorem hasRawKey_redacted {rt : Runtime}
    (hnumbers : JsonText.NumberTokens
      (fun n => (rt.numberToString n).toList))
    (value : Value Text Number) (lastIndex : ℕ) :
    HasRawKey rt (redactSecrets value lastIndex).1 ↔
      ¬ IsString value ∧ LeavesKey value := by
  by_cases hstring : IsString value
  · cases value with
    | string text =>
        rw [redactSecrets, HasRawKey, serialized]
        exact iff_of_false (not_occurs_redactString text)
          (fun h => h.1 trivial)
    | _ => exact hstring.elim
  · have hredacted : ¬ IsString (redactSecrets value lastIndex).1 := by
      rwa [isString_redacted]
    rw [hasRawKey_iff hnumbers hredacted, shows_redacted]
    simp [hstring]

/-! ## Calls in sequence -/

/-- A call of the module. -/
inductive GuardCall where
  | contains (value : Value Text Number)
  | redact (value : Value Text Number)

/-- The `lastIndex` that a call leaves. -/
def GuardCall.next (rt : Runtime) (lastIndex : ℕ) : GuardCall → ℕ
  | .contains value => (containsRawSecret rt value lastIndex).2
  | .redact value => (redactSecrets value lastIndex).2

/-- The `lastIndex` after these calls on a fresh module. -/
def lastIndexAfter (rt : Runtime) (calls : List GuardCall) : ℕ :=
  calls.foldl (GuardCall.next rt) 0

/-- Each answer of the guard says whether the text has a raw key. -/
def AnswersExactly (rt : Runtime) (calls : List GuardCall) : Prop :=
  ∀ earlier value later, calls = earlier ++ .contains value :: later →
    ((containsRawSecret rt value (lastIndexAfter rt earlier)).1 = true ↔
      HasRawKey rt value)

/-- Whenever a text with a raw key is searched, a raw key starts at the
`lastIndex` or after it. -/
def NoneSkipped (rt : Runtime) (calls : List GuardCall) : Prop :=
  ∀ earlier value later, calls = earlier ++ .contains value :: later →
    HasRawKey rt value →
      Occurs rawPrivkeyPattern
        ((serialized rt value).drop (lastIndexAfter rt earlier))

theorem answer_exact_iff (rt : Runtime) (value : Value Text Number)
    (lastIndex : ℕ) :
    ((containsRawSecret rt value lastIndex).1 = true ↔ HasRawKey rt value) ↔
      (HasRawKey rt value →
        Occurs rawPrivkeyPattern ((serialized rt value).drop lastIndex)) := by
  have hsound : Occurs rawPrivkeyPattern
      ((serialized rt value).drop lastIndex) → HasRawKey rt value :=
    fun h => h.of_suffix (List.drop_suffix _ _)
  rw [containsRawSecret, testRawPrivkey_iff]
  constructor
  · intro hexact hkey
    exact hexact.mpr hkey
  · intro hfound
    exact ⟨hsound, hfound⟩

theorem answersExactly_iff (rt : Runtime) (calls : List GuardCall) :
    AnswersExactly rt calls ↔ NoneSkipped rt calls := by
  unfold AnswersExactly NoneSkipped
  constructor
  · intro hexact earlier value later hcalls
    exact (answer_exact_iff rt value _).mp (hexact earlier value later hcalls)
  · intro hnone earlier value later hcalls
    exact (answer_exact_iff rt value _).mpr (hnone earlier value later hcalls)

mutual

/-- The redactor leaves a fresh pattern fresh. -/
theorem lastIndex_redactSecrets : ∀ value : Value Text Number,
    (redactSecrets value 0).2 = 0
  | .null => rfl
  | .bool _ => rfl
  | .number _ => rfl
  | .string _ => rfl
  | .array items => by
      rw [redactSecrets]
      exact lastIndex_redactItems items
  | .object fields => by
      rw [redactSecrets]
      exact lastIndex_redactFields fields

theorem lastIndex_redactItems : ∀ items : List (Value Text Number),
    (redactItems items 0).2 = 0
  | [] => rfl
  | item :: rest => by
      simp only [redactItems, lastIndex_redactSecrets item,
        lastIndex_redactItems rest]

theorem lastIndex_redactFields : ∀ fields : List (Text × Value Text Number),
    (redactFields fields 0).2 = 0
  | [] => rfl
  | (key, value) :: rest => by
      have hvalue := lastIndex_redactSecrets value
      have hrest := lastIndex_redactFields rest
      rw [redactFields]
      by_cases hsecret : secretKey key = true
      · simp only [if_pos hsecret, hrest]
      · simp only [if_neg hsecret, hvalue, hrest]

end

/-- The guard answers every call of a sequence exactly when no raw key starts
only before the `lastIndex` of its call, a redacted value passes the guard
exactly when none of the keys and escapes that redaction keeps shows a raw
key, and every value under a secret-looking key is replaced. -/
theorem secret_guard_iff {rt : Runtime}
    (hnumbers : JsonText.NumberTokens
      (fun n => (rt.numberToString n).toList)) :
    (∀ calls, AnswersExactly rt calls ↔ NoneSkipped rt calls) ∧
    (∀ value,
      (containsRawSecret rt (redactSecrets value 0).1
          (redactSecrets value 0).2).1 = false ↔
        IsString value ∨ ¬ LeavesKey value) ∧
    ∀ value lastIndex, SecretsReplaced (redactSecrets value lastIndex).1 := by
  refine ⟨answersExactly_iff rt, ?_, secrets_replaced⟩
  intro value
  have hredacted := hasRawKey_redacted hnumbers value 0
  have hanswer := testRawPrivkey_iff
    (serialized rt (redactSecrets value 0).1) 0
  rw [List.drop_zero] at hanswer
  rw [lastIndex_redactSecrets, ← Bool.not_eq_true, containsRawSecret, hanswer,
    ← HasRawKey, hredacted]
  tauto

/-! ## A key that is missed and a key that is left -/

def sampleKey : Text := units "0x" ++ List.replicate 64 97

/-- An object with a raw key as a key. -/
def keyedBySecret : Value Text Number :=
  .object [(sampleKey, .number (.finite 1))]

/-- The guard finds a raw key and misses it when it is asked again, and it
finds one in a redacted object. -/
theorem repeated_and_keyed_secret :
    HasRawKey .reference (.string sampleKey) ∧
      (containsRawSecret .reference (.string sampleKey)
        (lastIndexAfter .reference [.contains (.string sampleKey)])).1 =
          false ∧
      (containsRawSecret .reference (redactSecrets keyedBySecret 0).1
        (redactSecrets keyedBySecret 0).2).1 = true :=
  ⟨⟨sampleKey, List.suffix_refl _, by decide⟩, by decide,
    by decide⟩

/-- A raw key in a list is redacted. -/
theorem listed_secret_redacted :
    (containsRawSecret .reference
      (redactSecrets (.array [.string sampleKey]) 0).1
      (redactSecrets (.array [.string sampleKey]) 0).2).1 = false := by
  have hunits : ∀ u ∈ sampleKey, isHigh u = false ∧
      escapesToZero u = false := by
    exact List.forall_iff_forall_mem.mp (by decide)
  have hescape : ¬ EscapedKey sampleKey := by
    rw [← List.append_nil sampleKey, escapedKey_append hunits]
    exact id
  have hleaves : ¬ LeavesKey (.array [.string sampleKey]) := by
    simp only [LeavesKey, ItemsLeaveKey, or_false]
    exact hescape
  exact ((secret_guard_iff ParsedJson.reference_numbers).2.1
    (.array [.string sampleKey])).mpr (Or.inr hleaves)

end Execution
end Orvex
