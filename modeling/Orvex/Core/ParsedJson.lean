import Orvex.Core.Hash
import Orvex.Core.Pinned
import Orvex.Foundation.JsonOrder
import Orvex.Foundation.Utf16
import Mathlib.Data.Nat.Digits.Lemmas

/-!
# What the content hashes bind

`JSON.parse` makes texts of UTF-16 code units and numbers that may be
infinite, and no object of it repeats a key.  The text that is hashed loses
the fields named `__proto__`, which an assignment does not create, and writes
every infinite number as `null`.  It binds everything else.
-/

namespace Orvex
namespace ParsedJson

open JsonText (Value Same SameItems SameFields)
open Utf16 (Text units)

/-- A number that `JSON.parse` makes; one that is too large is infinite. -/
inductive Number where
  | finite (value : ℚ)
  | infinite (negative : Bool)
  deriving DecidableEq

/-- A value that `JSON.parse` makes. -/
structure Parsed where
  value : Value Text Number
  distinct : value.Distinct

/-! ## The order of keys -/

def digitUnit (u : UInt16) : Bool :=
  decide (48 ≤ u.toNat) && decide (u.toNat ≤ 57)

def indexValue (key : Text) : ℕ :=
  key.foldl (fun n u => 10 * n + (u.toNat - 48)) 0

/-- The array index that the key spells, if it spells one. -/
def arrayIndex (key : Text) : Option ℕ :=
  if key ≠ [] ∧ key.all digitUnit = true ∧
      (key.head? ≠ some 48 ∨ key.length = 1) ∧
      indexValue key < 4294967295 then
    some (indexValue key)
  else none

/-- The order in which an object that was assigned its keys in the order of
their code units lists two of them. -/
def keyLe (a b : Text) : Bool :=
  match arrayIndex a, arrayIndex b with
  | some m, some n => decide (m ≤ n)
  | some _, none => true
  | none, some _ => false
  | none, none => lexLe (a.map UInt16.toNat) (b.map UInt16.toNat)

def KeyLe (a b : Text) : Prop := keyLe a b = true

instance : DecidableRel KeyLe :=
  fun a b => inferInstanceAs (Decidable (keyLe a b = true))

/-! ## Canonical copies -/

/-- `__proto__`. -/
def protoUnits : Text := units protoKey

mutual

/-- The copy of a value in which every object is assigned its sorted keys
anew.  An assignment to `__proto__` creates no field. -/
def rebuilt : Value Text Number → Value Text Number
  | .array items => .array (rebuiltItems items)
  | .object fields =>
      .object ((rebuiltFields fields).insertionSort
        (JsonText.fieldsLe KeyLe))
  | value => value

def rebuiltItems : List (Value Text Number) → List (Value Text Number)
  | [] => []
  | item :: rest => rebuilt item :: rebuiltItems rest

def rebuiltFields :
    List (Text × Value Text Number) → List (Text × Value Text Number)
  | [] => []
  | (key, value) :: rest =>
      if key = protoUnits then rebuiltFields rest
      else (key, rebuilt value) :: rebuiltFields rest

end

/-- `canonicalize` of the backend. -/
def canonicalize (value : Value Text Number) : Value Text Number :=
  rebuilt value

/-- `sort` of the execution package. -/
def sort (value : Value Text Number) : Value Text Number := rebuilt value

/-! ## Texts -/

mutual

/-- The value as `JSON.stringify` writes it. -/
def written : Value Text Number → Value Text ℚ
  | .null => .null
  | .bool b => .bool b
  | .number (.finite n) => .number n
  | .number (.infinite _) => .null
  | .string s => .string s
  | .array items => .array (writtenItems items)
  | .object fields => .object (writtenFields fields)

def writtenItems : List (Value Text Number) → List (Value Text ℚ)
  | [] => []
  | item :: rest => written item :: writtenItems rest

def writtenFields :
    List (Text × Value Text Number) → List (Text × Value Text ℚ)
  | [] => []
  | (key, value) :: rest => (key, written value) :: writtenFields rest

end

def stringify (rt : Runtime) (value : Value Text Number) : String :=
  String.ofList (JsonText.render Utf16.quoteUnits
    (fun n => (rt.numberToString n).toList) (written value))

/-- The text that `sha256Json` hashes. -/
def hashedText (rt : Runtime) (value : Value Text Number) : String :=
  stringify rt (canonicalize value)

def canonicalJson (rt : Runtime) (value : Value Text Number) : String :=
  stringify rt (sort value)

/-! ## What is kept -/

mutual

/-- The value without the fields named `__proto__` and with `null` for each
infinite number. -/
def kept : Value Text Number → Value Text ℚ
  | .null => .null
  | .bool b => .bool b
  | .number (.finite n) => .number n
  | .number (.infinite _) => .null
  | .string s => .string s
  | .array items => .array (keptItems items)
  | .object fields => .object (keptFields fields)

def keptItems : List (Value Text Number) → List (Value Text ℚ)
  | [] => []
  | item :: rest => kept item :: keptItems rest

def keptFields :
    List (Text × Value Text Number) → List (Text × Value Text ℚ)
  | [] => []
  | (key, value) :: rest =>
      if key = protoUnits then keptFields rest
      else (key, kept value) :: keptFields rest

end

/-- The values differ, though only in fields named `__proto__` and in
infinite numbers. -/
def DifferInLostParts (v w : Parsed) : Prop :=
  ¬ Same v.value w.value ∧ Same (kept v.value) (kept w.value)

/-! ## The keys are ordered -/

theorem lexLe_antisymm {a b : List ℕ} (hab : lexLe a b = true)
    (hba : lexLe b a = true) : a = b := by
  induction a generalizing b with
  | nil =>
      cases b with
      | nil => rfl
      | cons y ys => simp [lexLe] at hba
  | cons x xs ih =>
      cases b with
      | nil => simp [lexLe] at hab
      | cons y ys =>
          simp only [lexLe, Bool.or_eq_true, Bool.and_eq_true,
            decide_eq_true_eq, beq_iff_eq] at hab hba
          rcases hab with hlt | ⟨rfl, hxs⟩
          · rcases hba with hgt | ⟨rfl, _⟩
            · omega
            · omega
          · rcases hba with hgt | ⟨_, hys⟩
            · omega
            · rw [ih hxs hys]

/-- The digits of an index key, the last one first. -/
def indexDigits (key : Text) : List ℕ :=
  (key.map (fun u => u.toNat - 48)).reverse

theorem indexValue_eq (key : Text) :
    indexValue key = Nat.ofDigits 10 (indexDigits key) := by
  have hfold : ∀ (l : List UInt16) (n : ℕ),
      l.foldl (fun n u => 10 * n + (u.toNat - 48)) n =
        (l.map (fun u => u.toNat - 48)).foldl (fun n d => d + 10 * n) n := by
    intro l
    induction l with
    | nil => intro n; rfl
    | cons u rest ih =>
        intro n
        rw [List.foldl_cons, ih, List.map_cons, List.foldl_cons,
          Nat.add_comm]
  unfold indexValue indexDigits
  rw [hfold, Nat.ofDigits_eq_foldr, List.foldr_reverse]
  simp

theorem length_indexDigits (key : Text) :
    (indexDigits key).length = key.length := by
  unfold indexDigits
  rw [List.length_reverse, List.length_map]

theorem digitUnit_bounds {u : UInt16} (h : digitUnit u = true) :
    48 ≤ u.toNat ∧ u.toNat ≤ 57 := by
  unfold digitUnit at h
  rw [Bool.and_eq_true, decide_eq_true_eq, decide_eq_true_eq] at h
  exact h

theorem indexDigits_lt {key : Text} (h : key.all digitUnit = true) :
    ∀ d ∈ indexDigits key, d < 10 := by
  intro d hd
  unfold indexDigits at hd
  rw [List.mem_reverse, List.mem_map] at hd
  obtain ⟨u, hu, heq⟩ := hd
  have hbounds := digitUnit_bounds (List.all_eq_true.mp h u hu)
  omega

/-- A key of digits is determined by them. -/
theorem eq_of_indexDigits {a b : Text} (ha : a.all digitUnit = true)
    (hb : b.all digitUnit = true) (h : indexDigits a = indexDigits b) :
    a = b := by
  unfold indexDigits at h
  rw [List.reverse_inj] at h
  induction a generalizing b with
  | nil =>
      cases b with
      | nil => rfl
      | cons u rest => simp at h
  | cons u rest ih =>
      cases b with
      | nil => simp at h
      | cons u' rest' =>
          rw [List.all_cons, Bool.and_eq_true] at ha hb
          rw [List.map_cons, List.map_cons, List.cons.injEq] at h
          have hu := digitUnit_bounds ha.1
          have hu' := digitUnit_bounds hb.1
          have heq : u = u' := by
            apply UInt16.toNat_inj.mp
            omega
          rw [heq, ih ha.2 hb.2 h.2]

theorem getLast_indexDigits {u : UInt16} {rest : Text}
    (h : indexDigits (u :: rest) ≠ []) :
    (indexDigits (u :: rest)).getLast h = u.toNat - 48 := by
  simp [indexDigits]

/-- An array index is spelled by its decimal digits. -/
theorem indexDigits_of_arrayIndex {key : Text} {n : ℕ}
    (h : arrayIndex key = some n) :
    key.all digitUnit = true ∧
      indexDigits key = if n = 0 then [0] else Nat.digits 10 n := by
  unfold arrayIndex at h
  split at h
  · rename_i hspelled
    obtain ⟨hne, hall, hhead, hbound⟩ := hspelled
    rw [Option.some.injEq] at h
    refine ⟨hall, ?_⟩
    cases key with
    | nil => exact absurd rfl hne
    | cons u rest =>
        have hu : digitUnit u = true := by
          rw [List.all_cons, Bool.and_eq_true] at hall
          exact hall.1
        have hbounds := digitUnit_bounds hu
        -- the most significant digit is zero in the key `0` only
        by_cases hzero : u = 48
        · have hlength : (u :: rest).length = 1 := by
            apply hhead.resolve_left
            intro hnot
            apply hnot
            rw [List.head?_cons, hzero]
          have hrest : rest = [] := by
            rw [List.length_cons] at hlength
            exact List.eq_nil_of_length_eq_zero (by omega)
          subst hrest hzero
          rw [← h, if_pos (by decide)]
          decide
        · have hdigits : Nat.digits 10 n = indexDigits (u :: rest) := by
            rw [← h, indexValue_eq]
            apply Nat.digits_ofDigits 10 (by omega) _ (indexDigits_lt hall)
            intro hnonempty
            rw [getLast_indexDigits]
            intro hcontra
            apply hzero
            apply UInt16.toNat_inj.mp
            have hvalue : (48 : UInt16).toNat = 48 := rfl
            omega
          have hn : n ≠ 0 := by
            intro hcontra
            rw [hcontra, Nat.digits_zero] at hdigits
            have hlength := length_indexDigits (u :: rest)
            rw [← hdigits] at hlength
            simp at hlength
          rw [if_neg hn, hdigits]
  · exact absurd h (by simp)

theorem arrayIndex_injective {a b : Text} {n : ℕ}
    (ha : arrayIndex a = some n) (hb : arrayIndex b = some n) : a = b := by
  have hda := indexDigits_of_arrayIndex ha
  have hdb := indexDigits_of_arrayIndex hb
  apply eq_of_indexDigits hda.1 hdb.1
  rw [hda.2, hdb.2]

theorem keyLe_total (a b : Text) : KeyLe a b ∨ KeyLe b a := by
  unfold KeyLe keyLe
  cases ha : arrayIndex a with
  | none =>
      cases hb : arrayIndex b with
      | none => exact lexLe_total _ _
      | some n => exact Or.inr rfl
  | some m =>
      cases hb : arrayIndex b with
      | none => exact Or.inl rfl
      | some n =>
          rw [decide_eq_true_eq, decide_eq_true_eq]
          exact Nat.le_total m n

theorem keyLe_trans (a b c : Text) (hab : KeyLe a b) (hbc : KeyLe b c) :
    KeyLe a c := by
  unfold KeyLe keyLe at *
  cases ha : arrayIndex a with
  | none =>
      cases hb : arrayIndex b with
      | some n => simp [ha, hb] at hab
      | none =>
          cases hc : arrayIndex c with
          | some k => simp [hb, hc] at hbc
          | none =>
              simp only [ha, hb] at hab
              simp only [hb, hc] at hbc
              exact lexLe_trans hab hbc
  | some m =>
      cases hc : arrayIndex c with
      | none => rfl
      | some k =>
          cases hb : arrayIndex b with
          | none => simp [hb, hc] at hbc
          | some n =>
              simp only [ha, hb, decide_eq_true_eq] at hab
              simp only [hb, hc, decide_eq_true_eq] at hbc
              simp only [decide_eq_true_eq]
              exact hab.trans hbc

theorem keyLe_antisymm (a b : Text) (hab : KeyLe a b) (hba : KeyLe b a) :
    a = b := by
  unfold KeyLe keyLe at hab hba
  cases ha : arrayIndex a with
  | none =>
      cases hb : arrayIndex b with
      | some n => simp [ha, hb] at hab
      | none =>
          simp only [ha, hb] at hab hba
          have hunits := lexLe_antisymm hab hba
          exact List.map_injective_iff.mpr
            (fun _ _ hu => UInt16.toNat_inj.mp hu) hunits
  | some m =>
      cases hb : arrayIndex b with
      | none => simp [ha, hb] at hba
      | some n =>
          simp only [ha, hb, decide_eq_true_eq] at hab hba
          rw [Nat.le_antisymm hab hba] at ha
          exact arrayIndex_injective ha hb

/-- The properties of an object have one order. -/
theorem linearKeys : JsonText.LinearKeys KeyLe where
  total := keyLe_total
  trans := keyLe_trans
  antisymm := keyLe_antisymm

section

variable {ν : Type*}

instance : Std.Total
    (JsonText.fieldsLe KeyLe : Text × Value Text ν → Text × Value Text ν → Prop) :=
  ⟨fun a b => keyLe_total a.1 b.1⟩

instance : IsTrans (Text × Value Text ν) (JsonText.fieldsLe KeyLe) :=
  ⟨fun a b c => keyLe_trans a.1 b.1 c.1⟩

end

/-! ## The text determines what is kept -/

theorem writtenFields_eq (fields : List (Text × Value Text Number)) :
    writtenFields fields =
      fields.map (fun field => (field.1, written field.2)) := by
  induction fields with
  | nil => rfl
  | cons head rest ih =>
      obtain ⟨key, value⟩ := head
      rw [writtenFields, List.map_cons, ih]

theorem writtenFields_sorted (fields : List (Text × Value Text Number)) :
    writtenFields (fields.insertionSort (JsonText.fieldsLe KeyLe)) =
      (writtenFields fields).insertionSort (JsonText.fieldsLe KeyLe) := by
  rw [writtenFields_eq, writtenFields_eq]
  exact List.map_insertionSort _ _ _ fields (fun _ _ _ _ => Iff.rfl)

mutual

/-- What is written of the copy is what is kept, its fields sorted. -/
theorem written_rebuilt : ∀ value : Value Text Number,
    written (rebuilt value) = JsonText.sorted KeyLe (kept value)
  | .null => rfl
  | .bool _ => rfl
  | .number (.finite _) => rfl
  | .number (.infinite _) => rfl
  | .string _ => rfl
  | .array items => by
      rw [rebuilt, written, kept, JsonText.sorted, writtenItems_rebuilt items]
  | .object fields => by
      rw [rebuilt, written, kept, JsonText.sorted, writtenFields_sorted,
        writtenFields_rebuilt fields]

theorem writtenItems_rebuilt : ∀ items : List (Value Text Number),
    writtenItems (rebuiltItems items) =
      JsonText.sortedItems KeyLe (keptItems items)
  | [] => rfl
  | item :: rest => by
      rw [rebuiltItems, writtenItems, keptItems, JsonText.sortedItems,
        written_rebuilt item, writtenItems_rebuilt rest]

theorem writtenFields_rebuilt : ∀ fields : List (Text × Value Text Number),
    writtenFields (rebuiltFields fields) =
      JsonText.sortedFields KeyLe (keptFields fields)
  | [] => rfl
  | (key, value) :: rest => by
      rw [rebuiltFields, keptFields]
      by_cases hproto : key = protoUnits
      · rw [if_pos hproto, if_pos hproto, writtenFields_rebuilt rest]
      · rw [if_neg hproto, if_neg hproto, writtenFields,
          JsonText.sortedFields, written_rebuilt value,
          writtenFields_rebuilt rest]

end

theorem stringify_eq_iff {rt : Runtime}
    (hnumbers : JsonText.NumberTokens (fun n => (rt.numberToString n).toList))
    {v w : Value Text Number} :
    stringify rt v = stringify rt w ↔ written v = written w := by
  unfold stringify
  constructor
  · intro h
    exact JsonText.render_injective Utf16.quoteUnits_tokens hnumbers
      (String.ofList_injective h)
  · intro h
    rw [h]

/-! ## What is kept is kept from equal values -/

theorem keptFields_eq (fields : List (Text × Value Text Number)) :
    keptFields fields =
      (fields.filter (fun field => decide (field.1 ≠ protoUnits))).map
        (fun field => (field.1, kept field.2)) := by
  induction fields with
  | nil => rfl
  | cons head rest ih =>
      obtain ⟨key, value⟩ := head
      rw [keptFields]
      by_cases hproto : key = protoUnits
      · rw [if_pos hproto, ih, List.filter_cons_of_neg (by simp [hproto])]
      · rw [if_neg hproto, ih, List.filter_cons_of_pos (by simp [hproto]),
          List.map_cons]

theorem keptFields_sorted (fields : List (Text × Value Text Number)) :
    keptFields (fields.insertionSort (JsonText.fieldsLe KeyLe)) =
      (keptFields fields).insertionSort (JsonText.fieldsLe KeyLe) := by
  rw [keptFields_eq, keptFields_eq, filter_insertionSort]
  exact List.map_insertionSort _ _ _ _ (fun _ _ _ _ => Iff.rfl)

mutual

theorem kept_sorted : ∀ value : Value Text Number,
    kept (JsonText.sorted KeyLe value) = JsonText.sorted KeyLe (kept value)
  | .null => rfl
  | .bool _ => rfl
  | .number (.finite _) => rfl
  | .number (.infinite _) => rfl
  | .string _ => rfl
  | .array items => by
      rw [JsonText.sorted, kept, kept, JsonText.sorted, keptItems_sorted items]
  | .object fields => by
      rw [JsonText.sorted, kept, kept, JsonText.sorted, keptFields_sorted,
        keptFields_sortedFields fields]

theorem keptItems_sorted : ∀ items : List (Value Text Number),
    keptItems (JsonText.sortedItems KeyLe items) =
      JsonText.sortedItems KeyLe (keptItems items)
  | [] => rfl
  | item :: rest => by
      rw [JsonText.sortedItems, keptItems, keptItems, JsonText.sortedItems,
        kept_sorted item, keptItems_sorted rest]

theorem keptFields_sortedFields :
    ∀ fields : List (Text × Value Text Number),
      keptFields (JsonText.sortedFields KeyLe fields) =
        JsonText.sortedFields KeyLe (keptFields fields)
  | [] => rfl
  | (key, value) :: rest => by
      rw [JsonText.sortedFields, keptFields, keptFields]
      by_cases hproto : key = protoUnits
      · rw [if_pos hproto, if_pos hproto, keptFields_sortedFields rest]
      · rw [if_neg hproto, if_neg hproto, JsonText.sortedFields,
          kept_sorted value, keptFields_sortedFields rest]

end

theorem keys_keptFields (fields : List (Text × Value Text Number)) :
    (keptFields fields).map Prod.fst =
      (fields.map Prod.fst).filter (fun key => decide (key ≠ protoUnits)) := by
  rw [keptFields_eq, List.map_map, List.filter_map]
  rfl

mutual

theorem distinct_kept : ∀ {value : Value Text Number},
    value.Distinct → (kept value).Distinct
  | .null, _ => trivial
  | .bool _, _ => trivial
  | .number (.finite _), _ => trivial
  | .number (.infinite _), _ => trivial
  | .string _, _ => trivial
  | .array items, h => by
      rw [kept]
      exact @distinct_keptItems items h
  | .object fields, h => by
      rw [kept]
      refine ⟨?_, distinct_keptFields h.2⟩
      rw [keys_keptFields]
      exact h.1.filter _

theorem distinct_keptItems : ∀ {items : List (Value Text Number)},
    JsonText.ItemsDistinct items → JsonText.ItemsDistinct (keptItems items)
  | [], _ => trivial
  | _ :: _, h => ⟨distinct_kept h.1, distinct_keptItems h.2⟩

theorem distinct_keptFields : ∀ {fields : List (Text × Value Text Number)},
    JsonText.FieldsDistinct fields →
      JsonText.FieldsDistinct (keptFields fields)
  | [], _ => trivial
  | (key, value) :: rest, h => by
      rw [keptFields]
      by_cases hproto : key = protoUnits
      · rw [if_pos hproto]
        exact distinct_keptFields h.2
      · rw [if_neg hproto]
        exact ⟨distinct_kept h.1, distinct_keptFields h.2⟩

end

theorem same_kept {v w : Value Text Number} (hv : v.Distinct)
    (hw : w.Distinct) (h : Same v w) : Same (kept v) (kept w) := by
  rw [JsonText.same_iff linearKeys (distinct_kept hv) (distinct_kept hw),
    ← kept_sorted, ← kept_sorted, (JsonText.same_iff linearKeys hv hw).mp h]

/-- Both texts of a value determine what is kept of it, and no more. -/
theorem stringify_rebuilt_eq_iff {rt : Runtime}
    (hnumbers : JsonText.NumberTokens (fun n => (rt.numberToString n).toList))
    (v w : Parsed) :
    stringify rt (rebuilt v.value) = stringify rt (rebuilt w.value) ↔
      Same (kept v.value) (kept w.value) := by
  rw [stringify_eq_iff hnumbers, written_rebuilt, written_rebuilt,
    JsonText.same_iff linearKeys (distinct_kept v.distinct)
      (distinct_kept w.distinct)]

/-! ## What the hashes bind -/

/-- Equal texts are the texts of equal values, unless the values differ in
what is not kept of them only. -/
theorem canonical_texts_bind_iff {rt : Runtime}
    (hnumbers : JsonText.NumberTokens (fun n => (rt.numberToString n).toList))
    (v w : Parsed) :
    ((hashedText rt v.value = hashedText rt w.value ↔
          Same v.value w.value) ∧
        (canonicalJson rt v.value = canonicalJson rt w.value ↔
          Same v.value w.value)) ↔
      ¬ DifferInLostParts v w := by
  have htext := stringify_rebuilt_eq_iff hnumbers v w
  have hkept : Same v.value w.value → Same (kept v.value) (kept w.value) :=
    same_kept v.distinct w.distinct
  unfold hashedText canonicalJson canonicalize sort DifferInLostParts
  tauto

/-- `{"__proto__":1}`. -/
def protoObject : Parsed where
  value := .object [(protoUnits, .number (.finite 1))]
  distinct := by simp [Value.Distinct, JsonText.FieldsDistinct]

/-- `{}`. -/
def emptyObject : Parsed where
  value := .object []
  distinct := by simp [Value.Distinct, JsonText.FieldsDistinct]

/-- `{"__proto__":1}` and `{}` are hashed alike. -/
theorem proto_field_unbound :
    hashedText .reference protoObject.value =
        hashedText .reference emptyObject.value ∧
      canonicalJson .reference protoObject.value =
        canonicalJson .reference emptyObject.value ∧
      ¬ Same protoObject.value emptyObject.value := by
  have hrebuilt : rebuilt protoObject.value = rebuilt emptyObject.value := by
    simp [protoObject, emptyObject, rebuilt, rebuiltFields]
  refine ⟨congrArg (stringify .reference) hrebuilt,
    congrArg (stringify .reference) hrebuilt, ?_⟩
  intro hsame
  exact absurd hsame.1 (by decide)

/-- `{"b":[],"a":1}`. -/
def reversed : Parsed where
  value := .object [(units "b", .array []), (units "a", .number (.finite 1))]
  distinct := by
    simp [Value.Distinct, JsonText.FieldsDistinct, JsonText.ItemsDistinct,
      Utf16.units_injective.eq_iff]

/-- `{"a":1,"b":[]}`. -/
def ordered : Parsed where
  value := .object [(units "a", .number (.finite 1)), (units "b", .array [])]
  distinct := by
    simp [Value.Distinct, JsonText.FieldsDistinct, JsonText.ItemsDistinct,
      Utf16.units_injective.eq_iff]

theorem reference_numbers : JsonText.NumberTokens
    (fun n => (Runtime.reference.numberToString n).toList) := by
  have htoList : (fun n => (Runtime.reference.numberToString n).toList) =
      Reference.numberText := by
    funext n
    exact String.toList_ofList
  rw [htoList]
  exact Reference.numberText_tokens

theorem reversed_bound :
    ((hashedText .reference reversed.value =
            hashedText .reference ordered.value ↔
          Same reversed.value ordered.value) ∧
        (canonicalJson .reference reversed.value =
            canonicalJson .reference ordered.value ↔
          Same reversed.value ordered.value)) ∧
      Same reversed.value ordered.value := by
  have hsame : Same reversed.value ordered.value :=
    ⟨rfl,
      ⟨.array [], List.mem_cons_of_mem _ List.mem_cons_self, trivial⟩,
      ⟨.number (.finite 1), List.mem_cons_self, rfl⟩, trivial⟩
  exact ⟨(canonical_texts_bind_iff reference_numbers _ _).mpr
    (fun hdiffer => hdiffer.1 hsame), hsame⟩

/-! ## Values without lone surrogates -/

mutual

def ofJson : Json → Value Text Number
  | .null => .null
  | .bool b => .bool b
  | .number n => .number (.finite n)
  | .string s => .string (units s)
  | .array items => .array (ofItems items)
  | .object fields => .object (ofFields fields)

def ofItems : List Json → List (Value Text Number)
  | [] => []
  | item :: rest => ofJson item :: ofItems rest

def ofFields : List (String × Json) → List (Text × Value Text Number)
  | [] => []
  | (key, value) :: rest => (units key, ofJson value) :: ofFields rest

end

theorem digitUnit_char {c : Char} (h : c.toNat < 0x10000) :
    digitUnit (UInt16.ofNat c.toNat) = c.isDigit := by
  unfold digitUnit
  rw [Utf16.toNat_charUnit h]
  rfl

theorem all_digitUnit_charUnits (c : Char) :
    (Utf16.charUnits c).all digitUnit = c.isDigit := by
  unfold Utf16.charUnits
  by_cases hbasic : c.toNat < 0x10000
  · rw [if_pos hbasic, List.all_cons, List.all_nil, Bool.and_true,
      digitUnit_char hbasic]
  · have hvalid : c.toNat.isValidChar := c.valid
    unfold Nat.isValidChar at hvalid
    have hhigh : (UInt16.ofNat (0xd800 + (c.toNat - 0x10000) / 0x400)).toNat =
        0xd800 + (c.toNat - 0x10000) / 0x400 := by
      rw [UInt16.toNat_ofNat', Nat.mod_eq_of_lt]
      omega
    have hdigit : c.isDigit = false := by
      rw [Bool.eq_false_iff]
      intro hcontra
      have hbounds : 48 ≤ c.toNat ∧ c.toNat ≤ 57 := by
        rw [Char.isDigit, Bool.and_eq_true, decide_eq_true_eq,
          decide_eq_true_eq] at hcontra
        exact hcontra
      omega
    have hunit : digitUnit
        (UInt16.ofNat (0xd800 + (c.toNat - 0x10000) / 0x400)) = false := by
      rw [Bool.eq_false_iff]
      intro hcontra
      have hbounds := digitUnit_bounds hcontra
      omega
    rw [if_neg hbasic, List.all_cons, hunit, hdigit, Bool.false_and]

theorem all_digitUnit_units (key : String) :
    (units key).all digitUnit = key.toList.all Char.isDigit := by
  unfold units
  rw [List.all_flatMap]
  exact congrArg key.toList.all (funext all_digitUnit_charUnits)

theorem isDigit_bounds {c : Char} (h : c.isDigit = true) :
    48 ≤ c.toNat ∧ c.toNat ≤ 57 := by
  rw [Char.isDigit, Bool.and_eq_true, decide_eq_true_eq,
    decide_eq_true_eq] at h
  exact h

/-- A key of digits has one code unit for each. -/
theorem units_of_digits {chars : List Char}
    (h : chars.all Char.isDigit = true) :
    chars.flatMap Utf16.charUnits =
      chars.map (fun c => UInt16.ofNat c.toNat) := by
  induction chars with
  | nil => rfl
  | cons c rest ih =>
      rw [List.all_cons, Bool.and_eq_true] at h
      have hbounds := isDigit_bounds h.1
      have hbasic : c.toNat < 0x10000 := by omega
      rw [List.flatMap_cons, List.map_cons, ih h.2, Utf16.charUnits,
        if_pos hbasic]
      rfl

theorem indexValue_units {key : String}
    (h : key.toList.all Char.isDigit = true) :
    indexValue (units key) =
      key.toList.foldl (fun n c => 10 * n + (c.toNat - 48)) 0 := by
  have hfold : ∀ (chars : List Char) (n : ℕ),
      chars.all Char.isDigit = true →
      (chars.map (fun c => UInt16.ofNat c.toNat)).foldl
          (fun n u => 10 * n + (u.toNat - 48)) n =
        chars.foldl (fun n c => 10 * n + (c.toNat - 48)) n := by
    intro chars
    induction chars with
    | nil => intro n _; rfl
    | cons c rest ih =>
        intro n hall
        rw [List.all_cons, Bool.and_eq_true] at hall
        have hbounds := isDigit_bounds hall.1
        rw [List.map_cons, List.foldl_cons, List.foldl_cons,
          Utf16.toNat_charUnit (by omega), ih _ hall.2]
  unfold indexValue units
  rw [units_of_digits h, hfold _ _ h]

theorem head_units {key : String} (h : key.toList.all Char.isDigit = true) :
    (units key).head? = some 48 ↔ key.toList.head? = some '0' := by
  unfold units
  rw [units_of_digits h]
  cases hlist : key.toList with
  | nil => simp
  | cons c rest =>
      rw [hlist, List.all_cons, Bool.and_eq_true] at h
      have hbounds := isDigit_bounds h.1
      rw [List.map_cons, List.head?_cons, List.head?_cons,
        Option.some.injEq, Option.some.injEq, ← UInt16.toNat_inj,
        Utf16.toNat_charUnit (by omega), ← Char.toNat_inj]
      rfl

theorem arrayIndex_units (key : String) :
    arrayIndex (units key) = Orvex.arrayIndex key := by
  unfold arrayIndex Orvex.arrayIndex
  by_cases hall : key.toList.all Char.isDigit = true
  · have hlength : (units key).length = key.toList.length := by
      unfold units
      rw [units_of_digits hall, List.length_map]
    have hne : units key ≠ [] ↔ key.toList ≠ [] := by
      rw [← List.length_pos_iff, ← List.length_pos_iff, hlength]
    simp only [all_digitUnit_units, indexValue_units hall, hlength, hne, ne_eq,
      head_units hall]
  · rw [if_neg, if_neg]
    · intro hcontra
      exact hall hcontra.2.1
    · intro hcontra
      rw [all_digitUnit_units] at hcontra
      exact hall hcontra.2.1

theorem codeUnits_units (key : String) :
    (units key).map UInt16.toNat = codeUnits key := by
  unfold units codeUnits
  rw [List.map_flatMap]
  apply congrArg (fun f => key.toList.flatMap f)
  funext c
  have hvalid : c.toNat.isValidChar := c.valid
  unfold Nat.isValidChar at hvalid
  unfold Utf16.charUnits utf16
  by_cases hbasic : c.toNat < 0x10000
  · rw [if_pos hbasic, List.map_singleton, Utf16.toNat_charUnit hbasic]
    exact (if_pos hbasic).symm
  · rw [if_neg hbasic]
    refine Eq.trans ?_ (if_neg hbasic).symm
    rw [List.map_cons, List.map_singleton, UInt16.toNat_ofNat',
      UInt16.toNat_ofNat', Nat.mod_eq_of_lt (by omega),
      Nat.mod_eq_of_lt (by omega)]

theorem keyLe_units (a b : String) :
    keyLe (units a) (units b) = Orvex.keyLe a b := by
  unfold keyLe Orvex.keyLe
  rw [arrayIndex_units, arrayIndex_units]
  cases Orvex.arrayIndex a with
  | some m => cases Orvex.arrayIndex b <;> rfl
  | none =>
    cases Orvex.arrayIndex b with
    | some n => rfl
    | none => exact congrArg₂ lexLe (codeUnits_units a) (codeUnits_units b)

theorem ofFields_eq (fields : List (String × Json)) :
    ofFields fields =
      fields.map (fun field => (units field.1, ofJson field.2)) := by
  induction fields with
  | nil => rfl
  | cons head rest ih =>
      obtain ⟨key, value⟩ := head
      rw [ofFields, List.map_cons, ih]

theorem ofFields_sorted (fields : List (String × Json)) :
    (ofFields fields).insertionSort (JsonText.fieldsLe KeyLe) =
      ofFields (sortFields fields) := by
  rw [ofFields_eq, ofFields_eq]
  unfold sortFields
  symm
  apply List.map_insertionSort
  intro a _ b _
  unfold JsonText.fieldsLe KeyLe
  rw [keyLe_units]

mutual

theorem rebuilt_ofJson : ∀ value : Json,
    rebuilt (ofJson value) = ofJson (Orvex.canonicalize value)
  | .null => rfl
  | .bool _ => rfl
  | .number _ => rfl
  | .string _ => rfl
  | .array items => by
      rw [ofJson, rebuilt, Orvex.canonicalize, ofJson, rebuiltItems_ofItems]
  | .object fields => by
      rw [ofJson, rebuilt, Orvex.canonicalize, ofJson,
        rebuiltFields_ofFields fields, ofFields_sorted]

theorem rebuiltItems_ofItems : ∀ items : List Json,
    rebuiltItems (ofItems items) = ofItems (canonicalizeItems items)
  | [] => rfl
  | item :: rest => by
      rw [ofItems, rebuiltItems, canonicalizeItems, ofItems,
        rebuilt_ofJson item, rebuiltItems_ofItems rest]

theorem rebuiltFields_ofFields : ∀ fields : List (String × Json),
    rebuiltFields (ofFields fields) = ofFields (canonicalizeFields fields)
  | [] => rfl
  | (key, value) :: rest => by
      rw [ofFields, rebuiltFields, canonicalizeFields]
      by_cases hproto : key = protoKey
      · have hunits : units key = protoUnits := congrArg units hproto
        rw [if_pos hproto, if_pos hunits, rebuiltFields_ofFields rest]
      · have hunits : units key ≠ protoUnits := by
          intro hcontra
          exact hproto (Utf16.units_injective hcontra)
        rw [if_neg hproto, if_neg hunits, ofFields, rebuilt_ofJson value,
          rebuiltFields_ofFields rest]

end

section

variable (number : ℚ → List Char)

mutual

theorem render_ofJson : ∀ value : Json,
    JsonText.render Utf16.quoteUnits number (written (ofJson value)) =
      JsonText.render JsonText.quote number value
  | .null => rfl
  | .bool true => rfl
  | .bool false => rfl
  | .number _ => rfl
  | .string s => by
      rw [ofJson, written, JsonText.render, JsonText.render,
        Utf16.quoteUnits_units]
  | .array items => by
      rw [ofJson, written, JsonText.render, JsonText.render,
        renderItems_ofItems items]
  | .object fields => by
      rw [ofJson, written, JsonText.render, JsonText.render,
        renderFields_ofFields fields]

theorem renderItems_ofItems : ∀ items : List Json,
    JsonText.renderItems Utf16.quoteUnits number
        (writtenItems (ofItems items)) =
      JsonText.renderItems JsonText.quote number items
  | [] => rfl
  | item :: rest => by
      rw [ofItems, writtenItems, JsonText.renderItems, JsonText.renderItems,
        render_ofJson item, renderMoreItems_ofItems rest]

theorem renderMoreItems_ofItems : ∀ items : List Json,
    JsonText.renderMoreItems Utf16.quoteUnits number
        (writtenItems (ofItems items)) =
      JsonText.renderMoreItems JsonText.quote number items
  | [] => rfl
  | item :: rest => by
      rw [ofItems, writtenItems, JsonText.renderMoreItems,
        JsonText.renderMoreItems, render_ofJson item,
        renderMoreItems_ofItems rest]

theorem renderFields_ofFields : ∀ fields : List (String × Json),
    JsonText.renderFields Utf16.quoteUnits number
        (writtenFields (ofFields fields)) =
      JsonText.renderFields JsonText.quote number fields
  | [] => rfl
  | (key, value) :: rest => by
      rw [ofFields, writtenFields, JsonText.renderFields,
        JsonText.renderFields, Utf16.quoteUnits_units, render_ofJson value,
        renderMoreFields_ofFields rest]

theorem renderMoreFields_ofFields : ∀ fields : List (String × Json),
    JsonText.renderMoreFields Utf16.quoteUnits number
        (writtenFields (ofFields fields)) =
      JsonText.renderMoreFields JsonText.quote number fields
  | [] => rfl
  | (key, value) :: rest => by
      rw [ofFields, writtenFields, JsonText.renderMoreFields,
        JsonText.renderMoreFields, Utf16.quoteUnits_units,
        render_ofJson value, renderMoreFields_ofFields rest]

end

end

/-- Values without lone surrogates and infinite numbers are hashed by the
text of their canonical form. -/
theorem hashedText_ofJson (rt : Runtime) (value : Json) :
    hashedText rt (ofJson value) = canonicalText rt value := by
  unfold hashedText canonicalize stringify canonicalText
  rw [rebuilt_ofJson, render_ofJson]

end ParsedJson
end Orvex
