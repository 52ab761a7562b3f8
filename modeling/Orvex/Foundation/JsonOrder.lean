import Orvex.Foundation.JsonText
import Orvex.Foundation.Sorting

/-!
# JSON values up to the order of their fields

`Same` compares two values without regard to the order of the fields of
objects, at every depth.  Where no object repeats a key, two values are the
same exactly when they agree once all fields are sorted by their keys.
-/

namespace JsonText

section

variable {σ ν : Type*}

mutual

/-- No object repeats a key, at any depth. -/
def Value.Distinct : Value σ ν → Prop
  | .array items => ItemsDistinct items
  | .object fields =>
      (fields.map Prod.fst).Nodup ∧ FieldsDistinct fields
  | _ => True

def ItemsDistinct : List (Value σ ν) → Prop
  | [] => True
  | item :: rest => item.Distinct ∧ ItemsDistinct rest

def FieldsDistinct : List (σ × Value σ ν) → Prop
  | [] => True
  | (_, value) :: rest => value.Distinct ∧ FieldsDistinct rest

end

mutual

/-- The values agree up to the order of the fields of objects. -/
def Same : Value σ ν → Value σ ν → Prop
  | .null, .null => True
  | .bool a, .bool b => a = b
  | .number m, .number n => m = n
  | .string s, .string t => s = t
  | .array items, .array items' => SameItems items items'
  | .object fields, .object fields' =>
      fields.length = fields'.length ∧ SameFields fields fields'
  | _, _ => False

def SameItems : List (Value σ ν) → List (Value σ ν) → Prop
  | [], [] => True
  | item :: rest, item' :: rest' => Same item item' ∧ SameItems rest rest'
  | _, _ => False

/-- Each field has a field of the same key and the same value. -/
def SameFields : List (σ × Value σ ν) → List (σ × Value σ ν) → Prop
  | [], _ => True
  | (key, value) :: rest, fields' =>
      (∃ value', (key, value') ∈ fields' ∧ Same value value') ∧
        SameFields rest fields'

end

/-! ## Sorted fields -/

variable (le : σ → σ → Prop) [DecidableRel le]

def fieldsLe (a b : σ × Value σ ν) : Prop := le a.1 b.1

instance : DecidableRel (fieldsLe le : σ × Value σ ν → σ × Value σ ν → Prop) :=
  fun a b => inferInstanceAs (Decidable (le a.1 b.1))

mutual

/-- The value with the fields of every object sorted. -/
def sorted : Value σ ν → Value σ ν
  | .array items => .array (sortedItems items)
  | .object fields =>
      .object ((sortedFields fields).insertionSort (fieldsLe le))
  | value => value

def sortedItems : List (Value σ ν) → List (Value σ ν)
  | [] => []
  | item :: rest => sorted item :: sortedItems rest

def sortedFields : List (σ × Value σ ν) → List (σ × Value σ ν)
  | [] => []
  | (key, value) :: rest => (key, sorted value) :: sortedFields rest

end

/-- A linear order of the keys. -/
structure LinearKeys (le : σ → σ → Prop) : Prop where
  total : ∀ a b, le a b ∨ le b a
  trans : ∀ a b c, le a b → le b c → le a c
  antisymm : ∀ a b, le a b → le b a → a = b

variable {le}

theorem keys_sortedFields (fields : List (σ × Value σ ν)) :
    (sortedFields le fields).map Prod.fst = fields.map Prod.fst := by
  induction fields with
  | nil => rfl
  | cons head rest ih =>
      obtain ⟨key, value⟩ := head
      rw [sortedFields, List.map_cons, List.map_cons, ih]

theorem length_sortedFields (fields : List (σ × Value σ ν)) :
    (sortedFields le fields).length = fields.length := by
  have hkeys := congrArg List.length (@keys_sortedFields σ ν le _ fields)
  rw [List.length_map, List.length_map] at hkeys
  exact hkeys

theorem mem_sortedFields {fields : List (σ × Value σ ν)} {key : σ}
    {value : Value σ ν} :
    (key, value) ∈ sortedFields le fields ↔
      ∃ original, (key, original) ∈ fields ∧ value = sorted le original := by
  induction fields with
  | nil => simp [sortedFields]
  | cons head rest ih =>
      obtain ⟨name, content⟩ := head
      rw [sortedFields, List.mem_cons, ih]
      constructor
      · rintro (hhead | ⟨original, hmem, heq⟩)
        · rw [Prod.mk.injEq] at hhead
          refine ⟨content, ?_, hhead.2⟩
          rw [hhead.1]
          exact List.mem_cons_self
        · exact ⟨original, List.mem_cons_of_mem _ hmem, heq⟩
      · rintro ⟨original, hmem, heq⟩
        rcases List.mem_cons.mp hmem with hhead | htail
        · rw [Prod.mk.injEq] at hhead
          left
          rw [Prod.mk.injEq]
          exact ⟨hhead.1, by rw [heq, hhead.2]⟩
        · exact Or.inr ⟨original, htail, heq⟩

omit [DecidableRel le] in
theorem ordersMembers_fields (hle : LinearKeys le)
    {fields : List (σ × Value σ ν)}
    (hkeys : (fields.map Prod.fst).Nodup) :
    Sorting.OrdersMembers (fieldsLe le) fields where
  total a _ b _ := hle.total a.1 b.1
  trans a _ b _ c _ := hle.trans a.1 b.1 c.1
  antisymm a ha b hb hab hba :=
    List.inj_on_of_nodup_map hkeys ha hb (hle.antisymm a.1 b.1 hab hba)

/-- Lists of fields with distinct keys sort alike exactly when each field of
the one is a field of the other and they are equally long. -/
theorem sort_eq_iff (hle : LinearKeys le)
    {fields fields' : List (σ × Value σ ν)}
    (hkeys : (fields.map Prod.fst).Nodup) :
    fields.insertionSort (fieldsLe le) =
        fields'.insertionSort (fieldsLe le) ↔
      fields.length = fields'.length ∧ fields ⊆ fields' := by
  constructor
  · intro h
    have hperm : fields.Perm fields' :=
      ((List.perm_insertionSort (fieldsLe le) fields).symm.trans
        (h ▸ List.Perm.refl _)).trans
          (List.perm_insertionSort (fieldsLe le) fields')
    exact ⟨hperm.length_eq, hperm.subset⟩
  · rintro ⟨hlength, hsubset⟩
    have hnodup : fields.Nodup := List.Nodup.of_map _ hkeys
    have hperm : fields.Perm fields' :=
      (hnodup.subperm hsubset).perm_of_length_le hlength.ge
    exact (ordersMembers_fields hle hkeys).insertionSort_eq hperm

theorem FieldsDistinct.of_mem {fields : List (σ × Value σ ν)}
    (h : FieldsDistinct fields) {key : σ} {value : Value σ ν}
    (hmem : (key, value) ∈ fields) : value.Distinct := by
  induction fields with
  | nil => exact absurd hmem List.not_mem_nil
  | cons head rest ih =>
      obtain ⟨name, content⟩ := head
      rcases List.mem_cons.mp hmem with hhead | htail
      · rw [Prod.mk.injEq] at hhead
        rw [hhead.2]
        exact h.1
      · exact ih h.2 htail

mutual

theorem same_iff (hle : LinearKeys le) :
    ∀ {v w : Value σ ν}, v.Distinct → w.Distinct →
      (Same v w ↔ sorted le v = sorted le w)
  | .null, w, _, _ => by
      cases w <;> simp [Same, sorted]
  | .bool a, w, _, _ => by
      cases w <;> simp [Same, sorted]
  | .number n, w, _, _ => by
      cases w <;> simp [Same, sorted]
  | .string s, w, _, _ => by
      cases w <;> simp [Same, sorted]
  | .array items, w, hv, hw => by
      cases w with
      | array items' =>
          rw [Same, sorted, sorted, Value.array.injEq]
          exact sameItems_iff hle hv hw
      | _ => simp [Same, sorted]
  | .object fields, w, hv, hw => by
      cases w with
      | object fields' =>
          have hkeys : ((sortedFields le fields).map Prod.fst).Nodup := by
            rw [keys_sortedFields]
            exact hv.1
          rw [Same, sorted, sorted, Value.object.injEq,
            sort_eq_iff hle hkeys, length_sortedFields, length_sortedFields,
            sameFields_iff hle hv.2 hw.2]
      | _ => simp [Same, sorted]

theorem sameItems_iff (hle : LinearKeys le) :
    ∀ {items items' : List (Value σ ν)}, ItemsDistinct items →
      ItemsDistinct items' →
      (SameItems items items' ↔
        sortedItems le items = sortedItems le items')
  | [], items', _, _ => by
      cases items' <;> simp [SameItems, sortedItems]
  | item :: rest, items', h, h' => by
      cases items' with
      | nil => simp [SameItems, sortedItems]
      | cons item' rest' =>
          rw [SameItems, sortedItems, sortedItems, List.cons.injEq,
            same_iff hle h.1 h'.1, sameItems_iff hle h.2 h'.2]

theorem sameFields_iff (hle : LinearKeys le) :
    ∀ {fields fields' : List (σ × Value σ ν)}, FieldsDistinct fields →
      FieldsDistinct fields' →
      (SameFields fields fields' ↔
        sortedFields le fields ⊆ sortedFields le fields')
  | [], fields', _, _ => by
      simp [SameFields, sortedFields]
  | (key, value) :: rest, fields', h, h' => by
      rw [SameFields, sortedFields, List.cons_subset,
        sameFields_iff hle h.2 h', mem_sortedFields]
      have hfirst : (∃ value', (key, value') ∈ fields' ∧
          Same value value') ↔
          ∃ original, (key, original) ∈ fields' ∧
            sorted le value = sorted le original := by
        constructor
        · rintro ⟨value', hmem, hsame⟩
          exact ⟨value', hmem, (same_iff hle h.1 (h'.of_mem hmem)).mp hsame⟩
        · rintro ⟨value', hmem, hsame⟩
          exact ⟨value', hmem, (same_iff hle h.1 (h'.of_mem hmem)).mpr hsame⟩
      rw [hfirst]

end

end

end JsonText
