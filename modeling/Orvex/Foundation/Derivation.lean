import Mathlib.Logic.Relation
import Mathlib.Order.WellFoundedSet

/-!
# Ultimate sources

A relation says what is derived from what.  Where it goes in no circle, every
element of a finite set leads to a source, which is derived from nothing.  A
walk that enters no element twice goes no deeper than the paths of the
relation are long.
-/

namespace Derivation

variable {α : Type*}

def Acyclic (derives : α → α → Prop) : Prop :=
  ∀ a, ¬ Relation.TransGen derives a a

/-- The element is derived from nothing. -/
def Source (derives : α → α → Prop) (s : α) : Prop := ∀ t, ¬ derives s t

/-- The sources to which the members lead. -/
def ultimateSources (derives : α → α → Prop) (members : Set α) : Set α :=
  {s | (∃ a ∈ members, Relation.ReflTransGen derives a s) ∧ Source derives s}

variable {derives derives' : α → α → Prop} {members : Set α}

theorem Acyclic.of_imp (hacyclic : Acyclic derives)
    (himp : ∀ a b, derives' a b → derives a b) : Acyclic derives' := by
  intro a hcircle
  exact hacyclic a (Relation.TransGen.mono himp a a hcircle)

theorem exists_source (hacyclic : Acyclic derives) (hfinite : members.Finite)
    (hclosed : ∀ a b, derives a b → b ∈ members) {a : α} (ha : a ∈ members) :
    ∃ s, Relation.ReflTransGen derives a s ∧ Source derives s := by
  have hirrefl : Std.Irrefl (Function.swap (Relation.TransGen derives)) :=
    ⟨hacyclic⟩
  have htrans : IsTrans α (Function.swap (Relation.TransGen derives)) :=
    ⟨fun a b c hab hbc => Relation.TransGen.trans hbc hab⟩
  have horder : IsStrictOrder α (Function.swap (Relation.TransGen derives)) :=
    ⟨⟩
  have hwell : members.WellFoundedOn
      (Function.swap (Relation.TransGen derives)) := hfinite.wellFoundedOn
  -- Induction along the derivations, from what is derived to its sources.
  apply hwell.induction ha
  intro b hb ih
  by_cases hsource : Source derives b
  · exact ⟨b, Relation.ReflTransGen.refl, hsource⟩
  · unfold Source at hsource
    push Not at hsource
    obtain ⟨c, hc⟩ := hsource
    obtain ⟨s, hs, hlast⟩ := ih c (hclosed b c hc)
      (Relation.TransGen.single hc)
    exact ⟨s, Relation.ReflTransGen.head hc hs, hlast⟩

theorem ultimateSources_nonempty (hacyclic : Acyclic derives)
    (hfinite : members.Finite) (hclosed : ∀ a b, derives a b → b ∈ members)
    (hmembers : members.Nonempty) :
    (ultimateSources derives members).Nonempty := by
  obtain ⟨a, ha⟩ := hmembers
  obtain ⟨s, hs, hsource⟩ := exists_source hacyclic hfinite hclosed ha
  exact ⟨s, ⟨a, ha, hs⟩, hsource⟩

/-- Where every derivation stays among the members, the ultimate sources are
the members that are sources. -/
theorem ultimateSources_of_closed
    (hclosed : ∀ a b, derives a b → b ∈ members) :
    ultimateSources derives members = {s ∈ members | Source derives s} := by
  ext s
  constructor
  · intro hs
    obtain ⟨⟨a, ha, hleads⟩, hsource⟩ := hs
    refine ⟨?_, hsource⟩
    rcases Relation.ReflTransGen.cases_tail hleads with hsame | hlast
    · rw [hsame]
      exact ha
    · obtain ⟨b, -, hderived⟩ := hlast
      exact hclosed b s hderived
  · intro hs
    exact ⟨⟨s, hs.1, Relation.ReflTransGen.refl⟩, hs.2⟩

/-! ## The depth of a walk -/

/-- No path of different elements has this many. -/
def Shallow (derives : α → α → Prop) (depth : ℕ) : Prop :=
  ∀ path : List α, path.IsChain derives → path.Nodup → path.length < depth

/-- No path of different elements that starts here, off what was seen, has
this many. -/
def ShallowFrom (derives : α → α → Prop) (depth : ℕ) (a : α)
    (seen : List α) : Prop :=
  ∀ path : List α, (a :: path).IsChain derives → (a :: path).Nodup →
    (∀ b ∈ a :: path, b ∉ seen) → (a :: path).length < depth

theorem Shallow.start {depth : ℕ} (h : Shallow derives depth) (a : α)
    (seen : List α) : ShallowFrom derives depth a seen :=
  fun path hchain hnodup _ => h (a :: path) hchain hnodup

theorem ShallowFrom.depth_pos {depth : ℕ} {a : α} {seen : List α}
    (h : ShallowFrom derives (depth + 1) a seen) (hnew : a ∉ seen) :
    0 < depth := by
  have hone := h [] (List.isChain_singleton a) (List.nodup_singleton a)
    (fun b hb => by
      rw [List.mem_singleton.mp hb]
      exact hnew)
  simpa using hone

/-- Along a derivation the walk has one step less to go, and has seen where
it comes from. -/
theorem ShallowFrom.step {depth : ℕ} {a b : α} {seen seen' : List α}
    (h : ShallowFrom derives (depth + 1) a seen) (hnew : a ∉ seen)
    (hderives : derives a b) (hseen : ∀ c, c ∈ seen ∨ c = a → c ∈ seen') :
    ShallowFrom derives depth b seen' := by
  intro path hchain hnodup hoff
  have hfresh : a ∉ b :: path := fun hmem =>
    hoff a hmem (hseen a (Or.inr rfl))
  have hlength := h (b :: path) (hchain.cons_cons hderives)
    (List.nodup_cons.mpr ⟨hfresh, hnodup⟩) (by
      intro c hc
      rcases List.mem_cons.mp hc with hhead | hrest
      · rw [hhead]
        exact hnew
      · exact fun hmem => hoff c hrest (hseen c (Or.inl hmem)))
  rw [List.length_cons] at hlength
  omega

end Derivation
