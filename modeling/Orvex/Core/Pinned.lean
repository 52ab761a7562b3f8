import Orvex.Core.Reference

/-!
# A runtime without collisions

The reference runtime with its digests on a list of texts only.  Every other
text is its own digest, behind a mark that no digest has, so that two texts
collide only if two texts of the list do.
-/

namespace Orvex
namespace Reference

/-! ## Texts of numbers are tokens -/

theorem naturalText_injective : Function.Injective naturalText := by
  intro m n h
  have hm := @Nat.ofDigitChars_ten_toDigits m
  have hn := @Nat.ofDigitChars_ten_toDigits n
  unfold naturalText at h
  rw [h] at hm
  exact hm.symm.trans hn

theorem isDigit_of_mem_naturalText {n : ℕ} {c : Char}
    (h : c ∈ naturalText n) : c.isDigit = true :=
  Nat.isDigit_of_mem_toDigits (by norm_num) (by norm_num) h

theorem naturalText_ne_nil (n : ℕ) : naturalText n ≠ [] :=
  Nat.toDigits_ne_nil

theorem minus_not_mem_naturalText (n : ℕ) : '-' ∉ naturalText n := by
  intro h
  exact absurd (isDigit_of_mem_naturalText h) (by decide)

theorem e_not_mem_naturalText (n : ℕ) : 'e' ∉ naturalText n := by
  intro h
  exact absurd (isDigit_of_mem_naturalText h) (by decide)

theorem e_not_mem_integerText (n : ℤ) : 'e' ∉ integerText n := by
  unfold integerText
  split
  · intro h
    rcases List.mem_cons.mp h with heq | hmem
    · exact absurd heq (by decide)
    · exact e_not_mem_naturalText _ hmem
  · exact e_not_mem_naturalText _

theorem integerText_injective : Function.Injective integerText := by
  intro m n h
  unfold integerText at h
  split at h
  next hm =>
    split at h
    next hn =>
      rw [List.cons.injEq] at h
      have hsame := naturalText_injective h.2
      omega
    next hn =>
      refine absurd ?_ (minus_not_mem_naturalText n.natAbs)
      rw [← h]
      exact List.mem_cons_self
  next hm =>
    split at h
    next hn =>
      refine absurd ?_ (minus_not_mem_naturalText m.natAbs)
      rw [h]
      exact List.mem_cons_self
    next hn =>
      have hsame := naturalText_injective h
      omega

/-- The part of a text before its first `e`. -/
def mantissa (text : List Char) : List Char :=
  text.takeWhile (fun c => c != 'e')

theorem mantissa_append {whole rest : List Char} (h : 'e' ∉ whole) :
    mantissa (whole ++ 'e' :: rest) = whole := by
  unfold mantissa
  rw [List.takeWhile_append_of_pos]
  · simp
  · intro c hc
    have hne : c ≠ 'e' := fun heq => h (heq ▸ hc)
    simpa using hne

theorem numberText_injective : Function.Injective numberText := by
  intro x y h
  unfold numberText at h
  split at h
  next hx =>
    split at h
    next hy =>
      have hnum := integerText_injective h
      exact Rat.ext hnum (hx.trans hy.symm)
    next hy =>
      refine absurd ?_ (e_not_mem_integerText x.num)
      rw [h]
      simp
  next hx =>
    split at h
    next hy =>
      refine absurd ?_ (e_not_mem_integerText y.num)
      rw [← h]
      simp
    next hy =>
      have hwhole := congrArg mantissa h
      rw [mantissa_append (e_not_mem_integerText _),
        mantissa_append (e_not_mem_integerText _)] at hwhole
      rw [hwhole, List.append_cancel_left_eq, List.cons.injEq] at h
      exact Rat.ext (integerText_injective hwhole)
        (naturalText_injective h.2)

theorem isNumberChar_of_isDigit {c : Char} (h : c.isDigit = true) :
    JsonText.isNumberChar c = true := by
  simp [JsonText.isNumberChar, h]

theorem integerText_chars {n : ℤ} {c : Char} (h : c ∈ integerText n) :
    JsonText.isNumberChar c = true := by
  unfold integerText at h
  split at h
  · rcases List.mem_cons.mp h with rfl | hmem
    · decide
    · exact isNumberChar_of_isDigit (isDigit_of_mem_naturalText hmem)
  · exact isNumberChar_of_isDigit (isDigit_of_mem_naturalText h)

theorem integerText_ne_nil (n : ℤ) : integerText n ≠ [] := by
  unfold integerText
  split
  · simp
  · exact naturalText_ne_nil _

theorem numberText_tokens : JsonText.NumberTokens numberText := by
  constructor
  · exact numberText_injective
  · intro x
    unfold numberText
    split
    · exact integerText_ne_nil _
    · simp
  · intro x c hc
    unfold numberText at hc
    split at hc
    · exact integerText_chars hc
    · rcases List.mem_append.mp hc with hmem | hmem
      · exact integerText_chars hmem
      · rcases List.mem_cons.mp hmem with rfl | hmem
        · decide
        · exact isNumberChar_of_isDigit (isDigit_of_mem_naturalText hmem)

/-! ## Digests -/

theorem hexDigit_of_mem_sha256Hex {text : String} {c : Char}
    (h : c ∈ (sha256Hex text).toList) : ∃ k < 16, JsonText.hexDigit k = c := by
  unfold sha256Hex at h
  simp only [String.toList_ofList, List.mem_flatMap] at h
  obtain ⟨n, _, hmem⟩ := h
  unfold hexWord at hmem
  obtain ⟨i, _, hdigit⟩ := List.mem_map.mp hmem
  exact ⟨n / 16 ^ (7 - i) % 16, Nat.mod_lt _ (by norm_num), hdigit⟩

theorem tilde_not_mem_sha256Hex (text : String) :
    '~' ∉ (sha256Hex text).toList := by
  intro h
  obtain ⟨k, hk, hdigit⟩ := hexDigit_of_mem_sha256Hex h
  have hnever : ∀ k < 16, JsonText.hexDigit k ≠ '~' := by decide
  exact hnever k hk hdigit

/-- The digest of a text that is given by its characters. -/
def hexDigits (chars : List Char) : List Char :=
  let words := wordsOf (pad (chars.flatMap utf8))
  (blocks (words.length / 16) initialDigest words).flatMap hexWord

theorem sha256Hex_ofList (chars : List Char) :
    sha256Hex (String.ofList chars) = String.ofList (hexDigits chars) := by
  unfold sha256Hex hexDigits
  rw [String.toList_ofList]

theorem join_ofList (parts : List (List Char)) :
    String.join (parts.map String.ofList) = String.ofList parts.flatten := by
  rw [String.ext_iff]
  simp [String.toList_join, List.flatMap_map, List.flatMap_id']

/-- Distinct digests of texts that are given in parts. -/
theorem nodup_digests {texts : List String} {parts : List (List (List Char))}
    (hparts : texts = parts.map (fun text =>
      String.join (text.map String.ofList)))
    (hnodup : (parts.map (fun text => hexDigits text.flatten)).Nodup) :
    (texts.map sha256Hex).Nodup := by
  have hsame : texts.map sha256Hex =
      (parts.map (fun text => hexDigits text.flatten)).map String.ofList := by
    rw [hparts, List.map_map, List.map_map]
    refine List.map_congr_left (fun text _ => ?_)
    simp only [Function.comp_apply, join_ofList, sha256Hex_ofList]
  rw [hsame]
  exact hnodup.map (fun _ _ h => String.ofList_injective h)

/-- The digests of these texts; another text is put behind a mark. -/
def digestOn (texts : List String) (spell : String → String)
    (text : String) : String :=
  if text ∈ texts then sha256Hex text else "~" ++ spell text

/-- Where the texts of the list do not collide, no texts do. -/
theorem digestOn_injective {texts : List String} {spell : String → String}
    (hnodup : (texts.map sha256Hex).Nodup)
    (hspell : Function.Injective spell) :
    Function.Injective (digestOn texts spell) := by
  have hdistinct : ∀ a ∈ texts, ∀ b ∈ texts,
      sha256Hex a = sha256Hex b → a = b :=
    fun a ha b hb => List.inj_on_of_nodup_map hnodup ha hb
  have hmark : ∀ a b, sha256Hex a ≠ "~" ++ b := by
    intro a b heq
    refine tilde_not_mem_sha256Hex a ?_
    rw [heq, String.toList_append]
    simp
  intro a b h
  unfold digestOn at h
  by_cases ha : a ∈ texts
  · by_cases hb : b ∈ texts
    · rw [if_pos ha, if_pos hb] at h
      exact hdistinct a ha b hb h
    · rw [if_pos ha, if_neg hb] at h
      exact absurd h (hmark a (spell b))
  · by_cases hb : b ∈ texts
    · rw [if_neg ha, if_pos hb] at h
      exact absurd h.symm (hmark b (spell a))
    · rw [if_neg ha, if_neg hb] at h
      have hlist := congrArg String.toList h
      rw [String.toList_append, String.toList_append] at hlist
      exact hspell (String.toList_inj.mp (List.append_cancel_left hlist))

end Reference

/-- The reference runtime with its digests on these texts only. -/
def Runtime.pinned (texts : List String) : Runtime :=
  .digesting (fun text =>
    if text ∈ texts then Reference.sha256Hex text else "~" ++ text)

theorem Runtime.pinned_collisionFree {texts : List String}
    (hnodup : (texts.map Reference.sha256Hex).Nodup) :
    (Runtime.pinned texts).CollisionFree := by
  constructor
  · exact Reference.digestOn_injective hnodup Function.injective_id
  · have htokens := Reference.numberText_tokens
    have htext : (fun n => ((Runtime.pinned texts).numberToString n).toList)
        = Reference.numberText := by
      funext n
      exact String.toList_ofList
    rw [htext]
    exact htokens

/-! ## Dates -/

theorem Reference.tilde_not_mem_naturalText (n : ℕ) :
    '~' ∉ naturalText n := by
  intro h
  exact absurd (isDigit_of_mem_naturalText h) (by decide)

theorem Reference.tilde_not_mem_padded (width : ℕ) (n : ℤ) :
    '~' ∉ padded width n := by
  unfold padded
  rw [List.mem_append]
  rintro (h | h)
  · exact absurd (List.eq_of_mem_replicate h) (by decide)
  · exact tilde_not_mem_naturalText _ h

theorem Reference.tilde_not_mem_toISOString (ms : ℤ) :
    '~' ∉ (toISOString ms).toList := by
  unfold toISOString
  simp only [String.toList_ofList, List.mem_append, List.mem_cons,
    List.not_mem_nil, or_false, not_or]
  simp [tilde_not_mem_padded]

/-- The runtime with its dates on these instants only, in ISO form. -/
def Runtime.onDates (rt : Runtime) (instants : List ℤ) : Runtime :=
  { rt with
    parseDate := fun text =>
      instants.find? (fun ms => Reference.toISOString ms = text)
    toISOString := fun ms =>
      if ms ∈ instants then Reference.toISOString ms
      else "~" ++ String.ofList (Reference.integerText ms) }

theorem Runtime.onDates_readBack (rt : Runtime) (instants : List ℤ) :
    (rt.onDates instants).DatesReadBack := by
  intro text instant h
  change instants.find? _ = some instant at h
  have hmem := List.mem_of_find?_eq_some h
  have htext := List.find?_some h
  rw [decide_eq_true_eq] at htext
  change instants.find? (fun ms => Reference.toISOString ms =
    if instant ∈ instants then Reference.toISOString instant else _) = _
  rw [if_pos hmem, htext]
  exact h

/-- Where the instants have different ISO texts, all instants do. -/
theorem Runtime.onDates_injective (rt : Runtime) {instants : List ℤ}
    (hnodup : (instants.map Reference.toISOString).Nodup) :
    Function.Injective (rt.onDates instants).toISOString := by
  have hmark : ∀ ms other,
      Reference.toISOString ms ≠ "~" ++ String.ofList other := by
    intro ms other heq
    refine Reference.tilde_not_mem_toISOString ms ?_
    rw [heq, String.toList_append]
    simp
  intro a b h
  change (if a ∈ instants then Reference.toISOString a else _) =
    (if b ∈ instants then Reference.toISOString b else _) at h
  by_cases ha : a ∈ instants
  · by_cases hb : b ∈ instants
    · rw [if_pos ha, if_pos hb] at h
      exact List.inj_on_of_nodup_map hnodup ha hb h
    · rw [if_pos ha, if_neg hb] at h
      exact absurd h (hmark _ _)
  · by_cases hb : b ∈ instants
    · rw [if_neg ha, if_pos hb] at h
      exact absurd h.symm (hmark _ _)
    · rw [if_neg ha, if_neg hb] at h
      have hlist := congrArg String.toList h
      rw [String.toList_append, String.toList_append] at hlist
      exact Reference.integerText_injective
        (String.ofList_injective
          (String.toList_inj.mp (List.append_cancel_left hlist)))

theorem Runtime.onDates_collisionFree {rt : Runtime} {instants : List ℤ}
    (h : rt.CollisionFree) : (rt.onDates instants).CollisionFree :=
  ⟨h.sha256, h.numbers⟩

end Orvex
