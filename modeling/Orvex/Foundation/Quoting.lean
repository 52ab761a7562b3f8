import Mathlib.Data.List.Basic
import Mathlib.Tactic

/-!
# Texts that are joined by a separator

A field without the separator can be cut off from the end of a joined text.
So can a field that has the separator only in its string literals: read from
the inside of a literal, a text that closes its literals does not close them.
-/

namespace Quoting

variable {sep : Char}

/-- What follows a separator in a field of this kind is no such field. -/
def Whole (sep : Char) (field : List Char → Prop) : Prop :=
  ∀ before last, field (before ++ sep :: last) → ¬ field last

/-- The last field is cut off in only one way. -/
theorem cut_last {field : List Char → Prop} (hwhole : Whole sep field)
    {before before' last last' : List Char} (hlast : field last)
    (hlast' : field last')
    (h : before ++ [sep] ++ last = before' ++ [sep] ++ last') :
    before = before' ∧ last = last' := by
  rw [List.append_assoc, List.append_assoc, List.singleton_append,
    List.singleton_append] at h
  have hshorter : ∀ {a b q q' : List Char}, field q → field q' →
      (∃ middle, b = a ++ middle ∧ sep :: q = middle ++ sep :: q') →
        a = b ∧ q = q' := by
    intro a b q q' hq hq' ⟨middle, hmiddle, hrest⟩
    cases middle with
    | nil =>
        rw [List.append_nil] at hmiddle
        rw [List.nil_append, List.cons.injEq] at hrest
        exact ⟨hmiddle.symm, hrest.2⟩
    | cons c more =>
        rw [List.cons_append, List.cons.injEq] at hrest
        rw [hrest.2] at hq
        exact absurd hq' (hwhole more q' hq)
  rcases List.append_eq_append_iff.mp h with hleft | hright
  · exact hshorter hlast hlast' hleft
  · obtain ⟨hbefore, hsame⟩ := hshorter hlast' hlast hright
    exact ⟨hbefore.symm, hsame.symm⟩

theorem whole_notMem : Whole sep (fun field => sep ∉ field) := by
  intro before last hfree _
  exact hfree (List.mem_append_right _ List.mem_cons_self)

/-! ## String literals -/

/-- Where a reader of a text with string literals stands. -/
inductive Place where
  | outside | inside | escaped
  deriving DecidableEq

/-- Outside the literals there is neither a backslash nor the separator. -/
def Place.next (sep : Char) : Place → Char → Option Place
  | .outside, c =>
      if c = '\x22' then some .inside
      else if c = '\x5c' ∨ c = sep then none
      else some .outside
  | .inside, c =>
      if c = '\x22' then some .outside
      else if c = '\x5c' then some .escaped
      else some .inside
  | .escaped, _ => some .inside

/-- The text closes its string literals, and has backslashes and separators
only in them. -/
def Quoted (sep : Char) (text : List Char) : Prop :=
  text.foldlM (Place.next sep) .outside = some .outside

instance (sep : Char) (text : List Char) : Decidable (Quoted sep text) :=
  inferInstanceAs (Decidable (_ = _))

/-- Two readers that start at the two sides of a quotation mark do not both
end outside: what is a literal for one stands between literals for the
other. -/
theorem not_both_outside {text : List Char}
    (houtside : text.foldlM (Place.next sep) .outside = some .outside)
    (hinside : text.foldlM (Place.next sep) .inside = some .outside) :
    False := by
  induction text with
  | nil => cases hinside
  | cons c rest ih =>
      rw [List.foldlM_cons] at houtside hinside
      by_cases hmark : c = '\x22'
      · have hleft : Place.next sep .outside c = some .inside := if_pos hmark
        have hright : Place.next sep .inside c = some .outside :=
          if_pos hmark
        rw [hleft] at houtside
        rw [hright] at hinside
        exact ih hinside houtside
      · by_cases hplain : c = '\x5c' ∨ c = sep
        · have hleft : Place.next sep .outside c = none := by
            rw [Place.next, if_neg hmark, if_pos hplain]
          rw [hleft] at houtside
          cases houtside
        · rw [not_or] at hplain
          have hleft : Place.next sep .outside c = some .outside := by
            rw [Place.next, if_neg hmark, if_neg (not_or.mpr hplain)]
          have hright : Place.next sep .inside c = some .inside := by
            rw [Place.next, if_neg hmark, if_neg hplain.1]
          rw [hleft] at houtside
          rw [hright] at hinside
          exact ih houtside hinside

/-- A separator that is read stands in a literal. -/
theorem inside_of_next (hmark : sep ≠ '\x22') (hslash : sep ≠ '\x5c')
    {place after : Place} (h : place.next sep sep = some after) :
    after = .inside := by
  cases place with
  | outside =>
      rw [Place.next, if_neg hmark, if_pos (Or.inr rfl)] at h
      cases h
  | inside =>
      rw [Place.next, if_neg hmark, if_neg hslash] at h
      exact (Option.some.inj h).symm
  | escaped => exact (Option.some.inj h).symm

theorem whole_quoted (hmark : sep ≠ '\x22') (hslash : sep ≠ '\x5c') :
    Whole sep (Quoted sep) := by
  intro before last hquoted hlast
  unfold Quoted at hquoted
  rw [List.foldlM_append, Option.bind_eq_bind,
    Option.bind_eq_some_iff] at hquoted
  obtain ⟨place, _, hrest⟩ := hquoted
  rw [List.foldlM_cons, Option.bind_eq_bind,
    Option.bind_eq_some_iff] at hrest
  obtain ⟨after, hnext, hend⟩ := hrest
  rw [inside_of_next hmark hslash hnext] at hend
  exact not_both_outside hlast hend

end Quoting
