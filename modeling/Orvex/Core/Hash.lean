import Orvex.Core.Runtime
import Mathlib.Data.List.Sort
import Mathlib.Data.List.Perm.Basic

/-!
# Content hashes

`canonicalize` sorts the keys of every object, and `sha256Json` hashes the
text of the result.  The object that receives the sorted keys lists the keys
that are array indices first, in numeric order, and never keeps a key
`__proto__`.
-/

namespace Orvex

open JsonText (Value)

/-! ## The order of keys -/

def utf16 (c : Char) : List ℕ :=
  let n := c.toNat
  if n < 0x10000 then [n]
  else [0xd800 + (n - 0x10000) / 0x400, 0xdc00 + (n - 0x10000) % 0x400]

def codeUnits (key : String) : List ℕ := key.toList.flatMap utf16

/-- The array index that the key spells, if it spells one. -/
def arrayIndex (key : String) : Option ℕ :=
  let digits := key.toList
  let value := digits.foldl (fun n c => 10 * n + (c.toNat - 48)) 0
  if digits ≠ [] ∧ digits.all Char.isDigit ∧
      (digits.head? ≠ some '0' ∨ digits.length = 1) ∧ value < 4294967295 then
    some value
  else none

def lexLe : List ℕ → List ℕ → Bool
  | [], _ => true
  | _ :: _, [] => false
  | a :: as, b :: bs => a < b || (a == b && lexLe as bs)

/-- The order in which the canonical object lists two keys. -/
def keyLe (a b : String) : Bool :=
  match arrayIndex a, arrayIndex b with
  | some m, some n => decide (m ≤ n)
  | some _, none => true
  | none, some _ => false
  | none, none => lexLe (codeUnits a) (codeUnits b)

/-! ## Canonical form -/

def protoKey : String := "__proto__"

def sortFields (fields : List (String × Json)) : List (String × Json) :=
  fields.insertionSort (fun a b => keyLe a.1 b.1 = true)

mutual

def canonicalize : Json → Json
  | .array items => .array (canonicalizeItems items)
  | .object fields => .object (sortFields (canonicalizeFields fields))
  | value => value

def canonicalizeItems : List Json → List Json
  | [] => []
  | item :: rest => canonicalize item :: canonicalizeItems rest

def canonicalizeFields : List (String × Json) → List (String × Json)
  | [] => []
  | (key, value) :: rest =>
      if key = protoKey then canonicalizeFields rest
      else (key, canonicalize value) :: canonicalizeFields rest

end

/-- The text that `sha256Json` hashes. -/
def canonicalText (rt : Runtime) (value : Json) : String :=
  String.ofList (JsonText.render JsonText.quote
    (fun n => (rt.numberToString n).toList) (canonicalize value))

def sha256Json (rt : Runtime) (value : Json) : String :=
  "sha256:" ++ rt.sha256Hex (canonicalText rt value)

theorem sha256Json_ne_empty (rt : Runtime) (value : Json) :
    sha256Json rt value ≠ "" := by
  intro h
  have hlist := congrArg String.toList h
  unfold sha256Json at hlist
  rw [String.toList_append] at hlist
  exact absurd (List.append_eq_nil_iff.mp hlist).1 (by decide)

/-! ## What equal hashes say -/

theorem mem_sortFields {fields : List (String × Json)}
    {field : String × Json} :
    field ∈ sortFields fields ↔ field ∈ fields :=
  (List.perm_insertionSort _ fields).mem_iff

theorem mem_canonicalizeFields {fields : List (String × Json)}
    {key : String} {value : Json} :
    (key, value) ∈ canonicalizeFields fields ↔
      key ≠ protoKey ∧
        ∃ original, (key, original) ∈ fields ∧
          value = canonicalize original := by
  induction fields with
  | nil => simp [canonicalizeFields]
  | cons head rest ih =>
      obtain ⟨name, content⟩ := head
      unfold canonicalizeFields
      by_cases hproto : name = protoKey
      · rw [if_pos hproto, ih]
        constructor
        · rintro ⟨hkey, original, hmem, heq⟩
          exact ⟨hkey, original, List.mem_cons_of_mem _ hmem, heq⟩
        · rintro ⟨hkey, original, hmem, heq⟩
          refine ⟨hkey, original, ?_, heq⟩
          rcases List.mem_cons.mp hmem with hhead | htail
          · rw [Prod.mk.injEq] at hhead
            exact absurd (hhead.1.trans hproto) hkey
          · exact htail
      · rw [if_neg hproto, List.mem_cons, ih]
        constructor
        · rintro (hhead | ⟨hkey, original, hmem, heq⟩)
          · rw [Prod.mk.injEq] at hhead
            refine ⟨by rw [hhead.1]; exact hproto, content, ?_, hhead.2⟩
            rw [hhead.1]
            exact List.mem_cons_self
          · exact ⟨hkey, original, List.mem_cons_of_mem _ hmem, heq⟩
        · rintro ⟨hkey, original, hmem, heq⟩
          rcases List.mem_cons.mp hmem with hhead | htail
          · rw [Prod.mk.injEq] at hhead
            left
            rw [Prod.mk.injEq]
            exact ⟨hhead.1, by rw [heq, hhead.2]⟩
          · exact Or.inr ⟨hkey, original, htail, heq⟩

/-- Without collisions the hash determines the canonical form. -/
theorem canonicalize_eq_of_sha256Json_eq {rt : Runtime}
    (hfree : rt.CollisionFree) {v w : Json}
    (h : sha256Json rt v = sha256Json rt w) :
    canonicalize v = canonicalize w := by
  unfold sha256Json at h
  have hhex : rt.sha256Hex (canonicalText rt v) =
      rt.sha256Hex (canonicalText rt w) := by
    have hlist := congrArg String.toList h
    rw [String.toList_append, String.toList_append] at hlist
    exact String.toList_inj.mp (List.append_cancel_left hlist)
  have htext := hfree.sha256 hhex
  unfold canonicalText at htext
  exact JsonText.render_injective JsonText.quote_tokens hfree.numbers
    (String.ofList_injective htext)

/-- Objects with the same hash have the same fields, up to canonical form. -/
theorem field_of_sha256Json_eq {rt : Runtime} (hfree : rt.CollisionFree)
    {fields fields' : List (String × Json)}
    (h : sha256Json rt (.object fields) = sha256Json rt (.object fields'))
    {key : String} {value : Json} (hkey : key ≠ protoKey)
    (hmem : (key, value) ∈ fields) :
    ∃ value', (key, value') ∈ fields' ∧
      canonicalize value = canonicalize value' := by
  have hcanon := canonicalize_eq_of_sha256Json_eq hfree h
  simp only [canonicalize, JsonText.Value.object.injEq] at hcanon
  have hin : (key, canonicalize value) ∈
      sortFields (canonicalizeFields fields) :=
    mem_sortFields.mpr (mem_canonicalizeFields.mpr ⟨hkey, value, hmem, rfl⟩)
  rw [hcanon] at hin
  obtain ⟨_, value', hmem', heq⟩ :=
    mem_canonicalizeFields.mp (mem_sortFields.mp hin)
  exact ⟨value', hmem', heq⟩

/-! ## Values that differ in the order of keys only -/

mutual

/-- The value with the keys of every object sorted. -/
def ordered : Json → Json
  | .array items => .array (orderedItems items)
  | .object fields => .object (sortFields (orderedFields fields))
  | value => value

def orderedItems : List Json → List Json
  | [] => []
  | item :: rest => ordered item :: orderedItems rest

def orderedFields : List (String × Json) → List (String × Json)
  | [] => []
  | (key, value) :: rest => (key, ordered value) :: orderedFields rest

end

mutual

/-- The value without the keys that `canonicalize` loses. -/
def withoutProto : Json → Json
  | .array items => .array (itemsWithoutProto items)
  | .object fields => .object (fieldsWithoutProto fields)
  | value => value

def itemsWithoutProto : List Json → List Json
  | [] => []
  | item :: rest => withoutProto item :: itemsWithoutProto rest

def fieldsWithoutProto : List (String × Json) → List (String × Json)
  | [] => []
  | (key, value) :: rest =>
      if key = protoKey then fieldsWithoutProto rest
      else (key, withoutProto value) :: fieldsWithoutProto rest

end

section

variable {α : Type*} {r : α → α → Prop} [DecidableRel r]

theorem orderedInsert_of_forall {a : α} {l : List α}
    (h : ∀ b ∈ l, r a b) : l.orderedInsert r a = a :: l := by
  cases l with
  | nil => rfl
  | cons b rest =>
      rw [List.orderedInsert_cons, if_pos (h b List.mem_cons_self)]

theorem filter_orderedInsert [IsTrans α r] (p : α → Bool) {a : α}
    {l : List α} (hsorted : l.Pairwise r) :
    (l.orderedInsert r a).filter p =
      if p a then (l.filter p).orderedInsert r a else l.filter p := by
  induction l with
  | nil => by_cases hp : p a <;> simp [hp]
  | cons b rest ih =>
      obtain ⟨hhead, hrest⟩ := List.pairwise_cons.mp hsorted
      rw [List.orderedInsert_cons]
      by_cases hab : r a b
      · rw [if_pos hab]
        by_cases hp : p a
        · rw [if_pos hp, List.filter_cons_of_pos hp,
            orderedInsert_of_forall]
          intro c hc
          rcases List.mem_cons.mp (List.mem_of_mem_filter hc) with rfl | hc
          · exact hab
          · exact IsTrans.trans a b c hab (hhead c hc)
        · rw [if_neg hp, List.filter_cons_of_neg hp]
      · rw [if_neg hab]
        have htail := ih hrest
        by_cases hq : p b
        · rw [List.filter_cons_of_pos hq, List.filter_cons_of_pos hq, htail]
          split
          · rw [List.orderedInsert_cons, if_neg hab]
          · rfl
        · rw [List.filter_cons_of_neg hq, List.filter_cons_of_neg hq, htail]

/-- Sorting a part of a list is the same part of the sorted list. -/
theorem filter_insertionSort [IsTrans α r] [Std.Total r] (p : α → Bool)
    (l : List α) :
    (l.insertionSort r).filter p = (l.filter p).insertionSort r := by
  induction l with
  | nil => rfl
  | cons a rest ih =>
      rw [List.insertionSort_cons,
        filter_orderedInsert p (List.pairwise_insertionSort r rest), ih]
      by_cases hp : p a
      · rw [if_pos hp, List.filter_cons_of_pos hp, List.insertionSort_cons]
      · rw [if_neg hp, List.filter_cons_of_neg hp]

end

theorem lexLe_total (a b : List ℕ) : lexLe a b = true ∨ lexLe b a = true := by
  induction a generalizing b with
  | nil => exact Or.inl rfl
  | cons x xs ih =>
      cases b with
      | nil => exact Or.inr rfl
      | cons y ys =>
          simp only [lexLe, Bool.or_eq_true, Bool.and_eq_true,
            decide_eq_true_eq, beq_iff_eq]
          have hrest := ih ys
          rcases lt_trichotomy x y with hlt | heq | hgt
          · exact Or.inl (Or.inl hlt)
          · subst heq
            tauto
          · exact Or.inr (Or.inl hgt)

theorem lexLe_trans {a b c : List ℕ} (hab : lexLe a b = true)
    (hbc : lexLe b c = true) : lexLe a c = true := by
  induction a generalizing b c with
  | nil => rfl
  | cons x xs ih =>
      cases b with
      | nil => simp [lexLe] at hab
      | cons y ys =>
          cases c with
          | nil => simp [lexLe] at hbc
          | cons z zs =>
              simp only [lexLe, Bool.or_eq_true, Bool.and_eq_true,
                decide_eq_true_eq, beq_iff_eq] at hab hbc ⊢
              rcases hab with hxy | ⟨rfl, hxs⟩
              · rcases hbc with hyz | ⟨rfl, _⟩
                · exact Or.inl (hxy.trans hyz)
                · exact Or.inl hxy
              · rcases hbc with hyz | ⟨rfl, hys⟩
                · exact Or.inl hyz
                · exact Or.inr ⟨rfl, ih hxs hys⟩

/-- The order of two fields by their keys. -/
def fieldLe (a b : String × Json) : Prop := keyLe a.1 b.1 = true

instance : DecidableRel fieldLe :=
  fun a b => inferInstanceAs (Decidable (keyLe a.1 b.1 = true))

instance : Std.Total fieldLe := by
  constructor
  intro a b
  unfold fieldLe keyLe
  cases arrayIndex a.1 <;> cases arrayIndex b.1 <;>
    simp [lexLe_total, le_total]

instance : IsTrans (String × Json) fieldLe := by
  constructor
  intro a b c hab hbc
  unfold fieldLe keyLe at *
  cases ha : arrayIndex a.1 <;> cases hb : arrayIndex b.1 <;>
    cases hc : arrayIndex c.1 <;> simp only [ha, hb, hc] at * <;>
    first
      | exact lexLe_trans hab hbc
      | (simp only [decide_eq_true_eq] at *; omega)
      | simp_all

theorem fieldsWithoutProto_eq (fields : List (String × Json)) :
    fieldsWithoutProto fields =
      (fields.filter (fun field => field.1 ≠ protoKey)).map
        (fun field => (field.1, withoutProto field.2)) := by
  induction fields with
  | nil => rfl
  | cons head rest ih =>
      obtain ⟨key, value⟩ := head
      unfold fieldsWithoutProto
      by_cases hproto : key = protoKey
      · rw [if_pos hproto, ih, List.filter_cons_of_neg (by simpa)]
      · rw [if_neg hproto, ih, List.filter_cons_of_pos (by simpa),
          List.map_cons]

theorem sortFields_fieldsWithoutProto (fields : List (String × Json)) :
    fieldsWithoutProto (sortFields fields) =
      sortFields (fieldsWithoutProto fields) := by
  rw [fieldsWithoutProto_eq, fieldsWithoutProto_eq]
  change ((fields.insertionSort fieldLe).filter _).map _ =
    (List.map _ _).insertionSort fieldLe
  rw [filter_insertionSort]
  exact List.map_insertionSort fieldLe fieldLe _ _
    (fun _ _ _ _ => Iff.rfl)

mutual

theorem canonicalize_eq (value : Json) :
    canonicalize value = withoutProto (ordered value) := by
  cases value with
  | array items =>
      rw [canonicalize, ordered, withoutProto, canonicalizeItems_eq]
  | object fields =>
      rw [canonicalize, ordered, withoutProto, canonicalizeFields_eq,
        sortFields_fieldsWithoutProto]
  | _ => rfl

theorem canonicalizeItems_eq (items : List Json) :
    canonicalizeItems items = itemsWithoutProto (orderedItems items) := by
  cases items with
  | nil => rfl
  | cons item rest =>
      rw [canonicalizeItems, orderedItems, itemsWithoutProto,
        canonicalize_eq, canonicalizeItems_eq]

theorem canonicalizeFields_eq (fields : List (String × Json)) :
    canonicalizeFields fields =
      fieldsWithoutProto (orderedFields fields) := by
  cases fields with
  | nil => rfl
  | cons field rest =>
      obtain ⟨key, value⟩ := field
      rw [canonicalizeFields, orderedFields, fieldsWithoutProto,
        canonicalize_eq, canonicalizeFields_eq]

end

/-- The order of keys has no influence on the canonical form. -/
theorem canonicalize_eq_of_ordered {v w : Json} (h : ordered v = ordered w) :
    canonicalize v = canonicalize w := by
  rw [canonicalize_eq, canonicalize_eq, h]

/-! ## Objects with the same keys -/

theorem canonicalizeFields_zip (keys : List String)
    (values values' : List Json)
    (h : values.map canonicalize = values'.map canonicalize) :
    canonicalizeFields (keys.zip values) =
      canonicalizeFields (keys.zip values') := by
  induction keys generalizing values values' with
  | nil => rfl
  | cons key rest ih =>
      cases values with
      | nil =>
          rw [List.map_nil, eq_comm, List.map_eq_nil_iff] at h
          rw [h]
      | cons value more =>
          cases values' with
          | nil => simp at h
          | cons value' more' =>
              rw [List.map_cons, List.map_cons, List.cons.injEq] at h
              rw [List.zip_cons_cons, List.zip_cons_cons, canonicalizeFields,
                canonicalizeFields, h.1, ih more more' h.2]

/-- The hash of an object with these keys determines the canonical form of
each value, and is determined by them. -/
theorem sha256Json_zip_iff {rt : Runtime} (hfree : rt.CollisionFree)
    {keys : List String} {values values' : List Json}
    (hkeys : keys.Nodup) (hproto : protoKey ∉ keys)
    (hlength : values.length = keys.length)
    (hlength' : values'.length = keys.length) :
    sha256Json rt (.object (keys.zip values)) =
        sha256Json rt (.object (keys.zip values')) ↔
      values.map canonicalize = values'.map canonicalize := by
  constructor
  · intro h
    apply List.ext_getElem
    · rw [List.length_map, List.length_map, hlength, hlength']
    intro i hi hi'
    rw [List.length_map] at hi hi'
    have hk : i < keys.length := hlength ▸ hi
    have hz : i < (keys.zip values).length := by
      rw [List.length_zip]
      omega
    have hmem : (keys[i], values[i]) ∈ keys.zip values := by
      rw [← List.getElem_zip]
      exact List.getElem_mem hz
    obtain ⟨value', hmem', hsame⟩ := field_of_sha256Json_eq hfree h
      (fun heq => hproto (heq ▸ List.getElem_mem hk)) hmem
    obtain ⟨j, hj, heq⟩ := List.getElem_of_mem hmem'
    rw [List.getElem_zip, Prod.mk.injEq] at heq
    have hij : j = i := (hkeys.getElem_inj_iff).mp heq.1
    subst hij
    rw [List.getElem_map, List.getElem_map, hsame, ← heq.2]
  · intro h
    unfold sha256Json canonicalText
    rw [canonicalize, canonicalize, canonicalizeFields_zip keys _ _ h]

end Orvex
