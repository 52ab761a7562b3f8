import Mathlib.Data.List.Infix
import Mathlib.Tactic

/-!
# Patterns of a fixed length

A pattern gives a class of letters for each of its places.  A text is
searched for the first place where the pattern occurs, and the occurrences
can be replaced from left to right.
-/

namespace FixedPattern

variable {α : Type*}

abbrev Pattern (α : Type*) := List (α → Bool)

/-- The text starts with a word of the pattern. -/
def matchesAt : Pattern α → List α → Bool
  | [], _ => true
  | _ :: _, [] => false
  | accepts :: pattern, c :: text => accepts c && matchesAt pattern text

/-- A word of the pattern occurs in the text. -/
def Occurs (pattern : Pattern α) (text : List α) : Prop :=
  ∃ tail, tail <:+ text ∧ matchesAt pattern tail = true

/-- The place of the first occurrence, when the text starts at `index`. -/
def search (pattern : Pattern α) (index : ℕ) : List α → Option ℕ
  | [] => none
  | c :: text =>
      if matchesAt pattern (c :: text) then some index
      else search pattern (index + 1) text

/-- The text with its occurrences replaced from left to right, when its first
`skip` letters belong to an occurrence that was replaced. -/
def replaceFrom (pattern : Pattern α) (replacement : List α) :
    ℕ → List α → List α
  | _, [] => []
  | skip + 1, _ :: text => replaceFrom pattern replacement skip text
  | 0, c :: text =>
      if matchesAt pattern (c :: text) then
        replacement ++
          replaceFrom pattern replacement (pattern.length - 1) text
      else c :: replaceFrom pattern replacement 0 text

def replaceAll (pattern : Pattern α) (replacement text : List α) : List α :=
  replaceFrom pattern replacement 0 text

/-! ## Occurrences -/

theorem matchesAt_cons {accepts : α → Bool} {pattern : Pattern α} {c : α}
    {text : List α} : matchesAt (accepts :: pattern) (c :: text) = true ↔
      accepts c = true ∧ matchesAt pattern text = true := by
  rw [matchesAt, Bool.and_eq_true]

theorem matchesAt_nil {pattern : Pattern α} (hne : pattern ≠ []) :
    matchesAt pattern [] = false := by
  cases pattern with
  | nil => exact absurd rfl hne
  | cons accepts rest => rfl

theorem not_occurs_nil {pattern : Pattern α} (hne : pattern ≠ []) :
    ¬ Occurs pattern [] := by
  intro h
  obtain ⟨tail, hsuffix, hmatch⟩ := h
  rw [List.suffix_nil.mp hsuffix, matchesAt_nil hne] at hmatch
  simp at hmatch

theorem occurs_cons {pattern : Pattern α} {c : α} {text : List α} :
    Occurs pattern (c :: text) ↔
      matchesAt pattern (c :: text) = true ∨ Occurs pattern text := by
  unfold Occurs
  constructor
  · intro h
    obtain ⟨tail, hsuffix, hmatch⟩ := h
    rcases List.suffix_cons_iff.mp hsuffix with hall | hrest
    · exact Or.inl (hall ▸ hmatch)
    · exact Or.inr ⟨tail, hrest, hmatch⟩
  · intro h
    rcases h with hmatch | ⟨tail, hrest, hmatch⟩
    · exact ⟨c :: text, List.suffix_refl _, hmatch⟩
    · exact ⟨tail, List.suffix_cons_iff.mpr (Or.inr hrest), hmatch⟩

/-- A letter that the first class rejects starts no occurrence. -/
theorem occurs_cons_of_rejected {accepts : α → Bool} {pattern : Pattern α}
    {c : α} {text : List α} (hc : accepts c = false) :
    Occurs (accepts :: pattern) (c :: text) ↔
      Occurs (accepts :: pattern) text := by
  rw [occurs_cons, matchesAt_cons, hc]
  simp

theorem occurs_append_of_rejected {accepts : α → Bool} {pattern : Pattern α}
    {front text : List α} (hfront : ∀ c ∈ front, accepts c = false) :
    Occurs (accepts :: pattern) (front ++ text) ↔
      Occurs (accepts :: pattern) text := by
  induction front with
  | nil => rw [List.nil_append]
  | cons c front ih =>
      rw [List.cons_append,
        occurs_cons_of_rejected (hfront c List.mem_cons_self),
        ih (fun d hd => hfront d (List.mem_cons_of_mem _ hd))]

/-- The text starts with a word whose letters are accepted by classes of the
pattern. -/
theorem word_of_matchesAt {pattern : Pattern α} {text : List α}
    (h : matchesAt pattern text = true) :
    ∃ word, text = word ++ text.drop pattern.length ∧
      ∀ c ∈ word, ∃ accepts ∈ pattern, accepts c = true := by
  induction pattern generalizing text with
  | nil => exact ⟨[], rfl, by simp⟩
  | cons accepts rest ih =>
      cases text with
      | nil => simp [matchesAt] at h
      | cons c text =>
          obtain ⟨hc, hrest⟩ := matchesAt_cons.mp h
          obtain ⟨word, htext, hword⟩ := ih hrest
          refine ⟨c :: word, ?_, ?_⟩
          · rw [List.length_cons, List.drop_succ_cons, List.cons_append,
              ← htext]
          · intro d hd
            rcases List.mem_cons.mp hd with hfirst | hmem
            · exact ⟨accepts, List.mem_cons_self, hfirst ▸ hc⟩
            · obtain ⟨other, hother, haccepts⟩ := hword d hmem
              exact ⟨other, List.mem_cons_of_mem _ hother, haccepts⟩

theorem Occurs.of_suffix {pattern : Pattern α} {tail text : List α}
    (h : Occurs pattern tail) (hsuffix : tail <:+ text) :
    Occurs pattern text := by
  obtain ⟨found, hfound, hmatch⟩ := h
  exact ⟨found, hfound.trans hsuffix, hmatch⟩

theorem matchesAt_separator {pattern : Pattern α} {c : α}
    (hc : ∀ accepts ∈ pattern, accepts c = false) (front back : List α) :
    matchesAt pattern (front ++ c :: back) = matchesAt pattern front := by
  induction pattern generalizing front with
  | nil => cases front <;> rfl
  | cons accepts rest ih =>
      cases front with
      | nil =>
          change (accepts c && matchesAt rest back) = false
          rw [hc accepts List.mem_cons_self, Bool.false_and]
      | cons d front =>
          rw [List.cons_append, matchesAt, matchesAt,
            ih (fun other hother => hc other (List.mem_cons_of_mem _ hother))]

/-- No occurrence reaches across a letter that every class rejects. -/
theorem occurs_separator {pattern : Pattern α} {c : α} (hne : pattern ≠ [])
    (hc : ∀ accepts ∈ pattern, accepts c = false) (front back : List α) :
    Occurs pattern (front ++ c :: back) ↔
      Occurs pattern front ∨ Occurs pattern back := by
  induction front with
  | nil =>
      have hrejected : matchesAt pattern (c :: back) = false := by
        rw [← List.nil_append (c :: back), matchesAt_separator hc,
          matchesAt_nil hne]
      rw [List.nil_append, occurs_cons, hrejected]
      simp [not_occurs_nil hne]
  | cons d front ih =>
      rw [List.cons_append, occurs_cons, ih, occurs_cons, ← List.cons_append,
        matchesAt_separator hc, or_assoc]

/-- A text without a letter of some class has no occurrence. -/
theorem not_matchesAt_of_absent {pattern : Pattern α} {accepts : α → Bool}
    (hmem : accepts ∈ pattern) {text : List α}
    (habsent : ∀ c ∈ text, accepts c = false) :
    matchesAt pattern text = false := by
  induction pattern generalizing text with
  | nil => simp at hmem
  | cons first rest ih =>
      cases text with
      | nil => rfl
      | cons c text =>
          rw [matchesAt]
          rcases List.mem_cons.mp hmem with hfirst | hrest
          · rw [← hfirst, habsent c List.mem_cons_self, Bool.false_and]
          · rw [ih hrest (fun d hd => habsent d (List.mem_cons_of_mem _ hd)),
              Bool.and_false]

theorem not_occurs_of_absent {pattern : Pattern α} {accepts : α → Bool}
    (hmem : accepts ∈ pattern) {text : List α}
    (habsent : ∀ c ∈ text, accepts c = false) : ¬ Occurs pattern text := by
  intro h
  obtain ⟨tail, hsuffix, hmatch⟩ := h
  rw [not_matchesAt_of_absent hmem
    (fun c hc => habsent c (hsuffix.subset hc))] at hmatch
  simp at hmatch

/-! ## The search -/

theorem search_isSome {pattern : Pattern α} (hne : pattern ≠ []) {index : ℕ}
    {text : List α} :
    (search pattern index text).isSome = true ↔ Occurs pattern text := by
  induction text generalizing index with
  | nil => simp [search, not_occurs_nil hne]
  | cons c text ih =>
      rw [occurs_cons, search]
      by_cases hmatch : matchesAt pattern (c :: text) = true
      · rw [if_pos hmatch]
        simp [hmatch]
      · rw [if_neg hmatch, ih]
        simp [hmatch]

/-! ## Replacing -/

section

variable {pattern : Pattern α} {replacement : List α}

theorem replaceFrom_eq_drop (skip : ℕ) (text : List α) :
    replaceFrom pattern replacement skip text =
      replaceAll pattern replacement (text.drop skip) := by
  induction skip generalizing text with
  | zero => rfl
  | succ skip ih =>
      cases text with
      | nil => rfl
      | cons c text =>
          rw [replaceFrom, List.drop_succ_cons]
          exact ih text

theorem replaceAll_nil : replaceAll pattern replacement [] = [] := rfl

theorem replaceAll_of_match {c : α} {text : List α}
    (hmatch : matchesAt pattern (c :: text) = true) :
    replaceAll pattern replacement (c :: text) =
      replacement ++ replaceAll pattern replacement
        (text.drop (pattern.length - 1)) := by
  unfold replaceAll
  rw [replaceFrom, if_pos hmatch, replaceFrom_eq_drop]
  rfl

theorem replaceAll_of_no_match {c : α} {text : List α}
    (hmatch : matchesAt pattern (c :: text) = false) :
    replaceAll pattern replacement (c :: text) =
      c :: replaceAll pattern replacement text := by
  unfold replaceAll
  rw [replaceFrom, hmatch]
  rfl

/-- Induction along the places where the replacement goes on. -/
theorem replaceAll_induction {motive : List α → Prop} (nil : motive [])
    (found : ∀ c text, matchesAt pattern (c :: text) = true →
      motive (text.drop (pattern.length - 1)) → motive (c :: text))
    (other : ∀ c text, matchesAt pattern (c :: text) = false →
      motive text → motive (c :: text)) (text : List α) : motive text := by
  induction hlength : text.length using Nat.strongRecOn generalizing text with
  | ind n ih =>
      cases text with
      | nil => exact nil
      | cons c rest =>
          rw [List.length_cons] at hlength
          by_cases hmatch : matchesAt pattern (c :: rest) = true
          · refine found c rest hmatch (ih _ ?_ _ rfl)
            rw [List.length_drop]
            omega
          · refine other c rest (by simpa using hmatch) (ih _ ?_ rest rfl)
            omega

end

end FixedPattern
