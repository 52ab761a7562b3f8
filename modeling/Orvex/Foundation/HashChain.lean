import Mathlib.Data.List.Induction
import Mathlib.Tactic

/-!
# Hash chains

Each entry carries the hash of the entry before it and a hash of its own,
which is computed over its content and the hash before it.  Without
collisions the last hash of a chain determines everything that was hashed
into it.
-/

/-- What a chain reads of an entry.  `Valid` says that the own hash is the
one computed over the entry. -/
structure HashChain (ε η : Type*) where
  previous : ε → η
  hash : ε → η
  Valid : ε → Prop

namespace HashChain

variable {ε η γ : Type*} (chain : HashChain ε η)

/-- Entries that continue a chain whose last hash is given. -/
def Linked : η → List ε → Prop
  | _, [] => True
  | last, entry :: rest =>
      chain.previous entry = last ∧ chain.Valid entry ∧
        Linked (chain.hash entry) rest

/-- The last hash of a chain that is continued by the entries. -/
def head : η → List ε → η
  | last, [] => last
  | _, entry :: rest => head (chain.hash entry) rest

@[simp] theorem head_nil (last : η) : chain.head last [] = last := rfl

@[simp] theorem head_append_singleton (last : η) (entries : List ε)
    (entry : ε) :
    chain.head last (entries ++ [entry]) = chain.hash entry := by
  induction entries generalizing last with
  | nil => rfl
  | cons first rest ih => exact ih (chain.hash first)

theorem linked_append_singleton {last : η} {entries : List ε} {entry : ε} :
    chain.Linked last (entries ++ [entry]) ↔
      chain.Linked last entries ∧
        chain.previous entry = chain.head last entries ∧
          chain.Valid entry := by
  induction entries generalizing last with
  | nil => simp [Linked, head]
  | cons first rest ih =>
      simp only [List.cons_append, Linked, head, ih]
      tauto

variable {chain}

/-- Each previous hash is the hash of the entry before, the first one the
start. -/
theorem Linked.previous_eq {last : η} {entries : List ε}
    (h : chain.Linked last entries) :
    entries.map chain.previous =
      (last :: entries.map chain.hash).take entries.length := by
  induction entries generalizing last with
  | nil => rfl
  | cons entry rest ih =>
      obtain ⟨hprevious, _, hrest⟩ := h
      rw [List.map_cons, List.map_cons, List.length_cons, List.take_succ_cons,
        hprevious, ih hrest]

theorem Linked.valid {last : η} {entries : List ε}
    (h : chain.Linked last entries) : ∀ entry ∈ entries, chain.Valid entry := by
  induction entries generalizing last with
  | nil => exact fun entry hmem => absurd hmem List.not_mem_nil
  | cons first rest ih =>
      intro entry hmem
      rcases List.mem_cons.mp hmem with rfl | hrest
      · exact h.2.1
      · exact ih h.2.2 entry hrest

theorem head_eq_getLastD {last : η} {entries : List ε} :
    chain.head last entries = (entries.map chain.hash).getLastD last := by
  induction entries generalizing last with
  | nil => rfl
  | cons entry rest ih =>
      rw [List.map_cons, List.getLastD_cons]
      exact ih

/-- Without collisions, chains of one length with one last hash hold the
same contents. -/
theorem contents_eq_of_head {content : ε → γ}
    (hfree : ∀ a b, chain.Valid a → chain.Valid b →
      chain.hash a = chain.hash b →
        chain.previous a = chain.previous b ∧ content a = content b)
    {start : η} {entries others : List ε}
    (hentries : chain.Linked start entries)
    (hothers : chain.Linked start others)
    (hlength : entries.length = others.length)
    (hhead : chain.head start entries = chain.head start others) :
    entries.map content = others.map content := by
  induction entries using List.reverseRecOn generalizing others with
  | nil =>
      have hnil : others = [] := by
        apply List.eq_nil_of_length_eq_zero
        simpa using hlength.symm
      rw [hnil]
  | append_singleton rest entry ih =>
      rcases List.eq_nil_or_concat others with rfl | ⟨shorter, other, rfl⟩
      · simp at hlength
      rw [List.concat_eq_append] at hothers hlength hhead ⊢
      rw [chain.linked_append_singleton] at hentries hothers
      rw [head_append_singleton, head_append_singleton] at hhead
      obtain ⟨hrest, hprevious, hvalid⟩ := hentries
      obtain ⟨hshorter, hbefore, hother⟩ := hothers
      obtain ⟨hlink, hcontent⟩ := hfree entry other hvalid hother hhead
      have hsame : rest.map content = shorter.map content := by
        apply ih hrest hshorter
        · simpa using hlength
        · rw [← hprevious, ← hbefore, hlink]
      rw [List.map_append, List.map_append, hsame]
      simp [hcontent]

/-- The contents of a chain determine its last hash. -/
theorem head_eq_of_contents {content : ε → γ}
    (hdetermined : ∀ a b, chain.Valid a → chain.Valid b →
      chain.previous a = chain.previous b → content a = content b →
        chain.hash a = chain.hash b)
    {start : η} {entries others : List ε}
    (hentries : chain.Linked start entries)
    (hothers : chain.Linked start others)
    (hcontents : entries.map content = others.map content) :
    chain.head start entries = chain.head start others := by
  induction entries generalizing start others with
  | nil =>
      rw [List.map_nil, eq_comm, List.map_eq_nil_iff] at hcontents
      rw [hcontents]
  | cons entry rest ih =>
      cases others with
      | nil => simp at hcontents
      | cons other more =>
          rw [List.map_cons, List.map_cons, List.cons.injEq] at hcontents
          obtain ⟨hprevious, hvalid, hrest⟩ := hentries
          obtain ⟨hbefore, hother, hmore⟩ := hothers
          have hhash : chain.hash entry = chain.hash other :=
            hdetermined entry other hvalid hother
              (hprevious.trans hbefore.symm) hcontents.1
          rw [hhash] at hrest
          have hsame := ih hrest hmore hcontents.2
          change chain.head (chain.hash entry) rest =
            chain.head (chain.hash other) more
          rw [hhash, hsame]

/-! ## Chains that record more than they hash -/

section

variable {δ : Type*} {R : ε → ε → Prop}

/-- What holds of the members at each place of two lists, and what a part of
them says, gives the whole. -/
theorem map_eq_of_zip {f : ε → γ} {g : ε → δ}
    (hstep : ∀ a b, f a = f b → R a b → g a = g b) {l l' : List ε}
    (hmap : l.map f = l'.map f) (hzip : ∀ pair ∈ l.zip l', R pair.1 pair.2) :
    l.map g = l'.map g := by
  induction l generalizing l' with
  | nil =>
      rw [List.map_nil, eq_comm, List.map_eq_nil_iff] at hmap
      rw [hmap]
  | cons a rest ih =>
      cases l' with
      | nil => simp at hmap
      | cons b more =>
          rw [List.map_cons, List.map_cons, List.cons.injEq] at hmap
          rw [List.zip_cons_cons, List.forall_mem_cons] at hzip
          rw [List.map_cons, List.map_cons,
            hstep a b hmap.1 hzip.1, ih hmap.2 hzip.2]

theorem zip_of_map_eq {g : ε → δ} (hstep : ∀ a b, g a = g b → R a b)
    {l l' : List ε} (hmap : l.map g = l'.map g) :
    ∀ pair ∈ l.zip l', R pair.1 pair.2 := by
  induction l generalizing l' with
  | nil => simp
  | cons a rest ih =>
      cases l' with
      | nil => simp
      | cons b more =>
          rw [List.map_cons, List.map_cons, List.cons.injEq] at hmap
          rw [List.zip_cons_cons, List.forall_mem_cons]
          exact ⟨hstep a b hmap.1, ih hmap.2⟩

/-- Two chains record the same exactly if they have one length and one last
hash and agree in the parts that no hash covers. -/
theorem recorded_iff {content : ε → γ} {recorded : ε → δ}
    (hfree : ∀ a b, chain.Valid a → chain.Valid b →
      chain.hash a = chain.hash b →
        chain.previous a = chain.previous b ∧ content a = content b)
    (hdetermined : ∀ a b, chain.Valid a → chain.Valid b →
      chain.previous a = chain.previous b → recorded a = recorded b →
        chain.hash a = chain.hash b)
    (hwhole : ∀ a b, content a = content b → R a b →
      recorded a = recorded b)
    (hrest : ∀ a b, recorded a = recorded b → R a b)
    {start : η} {entries others : List ε}
    (hentries : chain.Linked start entries)
    (hothers : chain.Linked start others) :
    others.map recorded = entries.map recorded ↔
      (others.length = entries.length ∧
        chain.head start others = chain.head start entries) ∧
      ∀ pair ∈ entries.zip others, R pair.1 pair.2 := by
  constructor
  · intro hsame
    refine ⟨⟨?_, head_eq_of_contents hdetermined hothers hentries hsame⟩,
      zip_of_map_eq hrest hsame.symm⟩
    have hlengths := congrArg List.length hsame
    rwa [List.length_map, List.length_map] at hlengths
  · rintro ⟨⟨hlength, hhead⟩, hzip⟩
    have hcontents := contents_eq_of_head hfree hentries hothers
      hlength.symm hhead.symm
    exact (map_eq_of_zip hwhole hcontents hzip).symm

end

end HashChain
