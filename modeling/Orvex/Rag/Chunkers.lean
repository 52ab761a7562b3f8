import Orvex.Core.Python
import Orvex.Foundation.Windows

/-!
# Chunks

A document is cut into windows that overlap.  Nothing of it is lost: the
chunks spell it, and what is not longer than the overlap stands in one chunk.
-/

namespace Orvex
namespace Rag

/-- What Python computes for the ingestion of texts. -/
structure TextPython where
  /-- `c.isspace()`. -/
  isSpace : Char → Bool
  /-- `sha256(text.encode()).hexdigest()`. -/
  sha256 : String → String
  /-- `round(max(0.0, 1.0 - distance), 4)`. -/
  similarity : ℚ → ℚ

/-- There are no words in the text: `text.split()` is empty, and so is
`text.strip()`. -/
def blank (py : TextPython) (text : String) : Bool :=
  text.toList.all py.isSpace

/-- `text[i:j]`, where a negative `j` counts from the end. -/
def slice (text : List Char) (i : ℕ) (j : ℤ) : List Char :=
  let stop := if j < 0 then (j + text.length).toNat else j.toNat
  (text.take stop).drop i

structure Chunk where
  text : String
  index : ℕ
  metadata : PyDict

/-- `max(chunk_size - overlap, 1)`. -/
def stepOf (chunkSize overlap : ℤ) : ℕ := (max (chunkSize - overlap) 1).toNat

/-- The windows of the loop. -/
def windows (text : List Char) (chunkSize overlap : ℤ) : List (List Char) :=
  (Windows.places (stepOf chunkSize overlap) text.length text.length 0).map
    fun (i : ℕ) => slice text i (i + chunkSize)

def chunkText (py : TextPython) (text : String) (chunkSize overlap : ℤ)
    (baseMetadata : PyDict) : List Chunk :=
  if blank py text then []
  else
    (windows text.toList chunkSize overlap).mapIdx fun index window =>
      ⟨String.ofList window, index, baseMetadata⟩

theorem stepOf_pos (chunkSize overlap : ℤ) : 0 < stepOf chunkSize overlap := by
  unfold stepOf
  omega

/-- A window of a positive size starts at its place. -/
theorem slice_eq (text : List Char) (i : ℕ) {chunkSize : ℤ}
    (hsize : 0 < chunkSize) :
    slice text i (i + chunkSize) = (text.drop i).take chunkSize.toNat := by
  have hstop : ((i : ℤ) + chunkSize).toNat = i + chunkSize.toNat := by omega
  unfold slice
  rw [if_neg (by omega), hstop, List.drop_take]
  congr 1
  omega

section

variable {chunkSize overlap : ℤ}

/-- The beginnings of the windows, one step long, are the text. -/
theorem windows_spell (hoverlap : 0 ≤ overlap) (hsize : overlap < chunkSize)
    (text : List Char) :
    (windows text chunkSize overlap).flatMap
        (fun w => w.take (stepOf chunkSize overlap)) = text := by
  have hstep : stepOf chunkSize overlap ≤ chunkSize.toNat := by
    unfold stepOf
    omega
  have hwindow : ∀ i : ℕ,
      (slice text i (i + chunkSize)).take (stepOf chunkSize overlap) =
        (text.drop i).take (stepOf chunkSize overlap) := by
    intro i
    rw [slice_eq text i (by omega), List.take_take, Nat.min_eq_left hstep]
  have hplaces : (Windows.places (stepOf chunkSize overlap) text.length
      text.length 0).flatMap (fun p =>
        (text.drop p).take (stepOf chunkSize overlap)) = text.drop 0 :=
    Windows.flatMap_places (stepOf_pos chunkSize overlap) text (by omega)
  rw [List.drop_zero] at hplaces
  unfold windows
  rw [List.flatMap_map]
  simp only [hwindow]
  exact hplaces

/-- A passage that is at most one longer than the overlap is in a window. -/
theorem passage_in_window (hoverlap : 0 ≤ overlap)
    (hsize : overlap < chunkSize) {text : List Char} {p n : ℕ}
    (hp : p < text.length) (hn : (n : ℤ) ≤ overlap + 1) :
    ∃ w ∈ windows text chunkSize overlap, (text.drop p).take n <:+: w := by
  obtain ⟨q, hq, hle, hlt⟩ := Windows.place_below
    (stepOf_pos chunkSize overlap) hp (Nat.le_refl text.length)
  have hstep : (stepOf chunkSize overlap : ℤ) = chunkSize - overlap := by
    unfold stepOf
    omega
  refine ⟨slice text q (q + chunkSize), List.mem_map_of_mem hq, ?_⟩
  rw [slice_eq text q (by omega)]
  apply Windows.passage_within text hle
  omega

theorem window_length (hoverlap : 0 ≤ overlap) (hsize : overlap < chunkSize)
    {text w : List Char} (hw : w ∈ windows text chunkSize overlap) :
    w ≠ [] ∧ (w.length : ℤ) ≤ chunkSize := by
  obtain ⟨i, hi, heq⟩ := List.mem_map.mp hw
  have hlt := ((Windows.mem_places (stepOf_pos chunkSize overlap)
    (by omega)).mp hi).1
  rw [slice_eq text i (by omega)] at heq
  subst heq
  constructor
  · rw [← List.length_pos_iff, List.length_take, List.length_drop]
    omega
  · rw [List.length_take]
    omega

/-- The chunks of a text are numbered, short, carry the metadata, spell the
text, and hold every passage that is at most one longer than the overlap. -/
theorem chunks_cover (py : TextPython) (text : String) (hoverlap : 0 ≤ overlap)
    (hsize : overlap < chunkSize) (baseMetadata : PyDict)
    (htext : blank py text = false) :
    let chunks := chunkText py text chunkSize overlap baseMetadata
    chunks.flatMap (fun c => c.text.toList.take (stepOf chunkSize overlap)) =
        text.toList ∧
      (∀ (place : ℕ) (c : Chunk), chunks[place]? = some c →
        c.index = place ∧ c.metadata = baseMetadata ∧ c.text ≠ "" ∧
          (c.text.length : ℤ) ≤ chunkSize) ∧
      ∀ p n : ℕ, p < text.length → (n : ℤ) ≤ overlap + 1 →
        ∃ c ∈ chunks, (text.toList.drop p).take n <:+: c.text.toList := by
  have hchunks : chunkText py text chunkSize overlap baseMetadata =
      (windows text.toList chunkSize overlap).mapIdx fun index window =>
        ⟨String.ofList window, index, baseMetadata⟩ := by
    rw [chunkText, htext, if_neg Bool.false_ne_true]
  have htexts : (chunkText py text chunkSize overlap baseMetadata).map
      (fun c => c.text.toList) = windows text.toList chunkSize overlap := by
    rw [hchunks]
    apply List.ext_getElem
    · simp
    · intro i hleft hright
      simp
  refine ⟨?_, ?_, ?_⟩
  · have hspell := windows_spell hoverlap hsize text.toList
    rw [← htexts, List.flatMap_map] at hspell
    exact hspell
  · intro place c hc
    rw [hchunks, List.getElem?_mapIdx] at hc
    obtain ⟨w, hw, hchunk⟩ := Option.map_eq_some_iff.mp hc
    have hlength := window_length hoverlap hsize (List.mem_of_getElem? hw)
    subst hchunk
    refine ⟨rfl, rfl, ?_, ?_⟩
    · intro hempty
      have hlist := congrArg String.toList hempty
      simp at hlist
      exact hlength.1 hlist
    · simp only [String.length_ofList]
      exact hlength.2
  · intro p n hp hn
    rw [← String.length_toList] at hp
    obtain ⟨w, hw, hwithin⟩ := passage_in_window hoverlap hsize hp hn
    rw [← htexts] at hw
    obtain ⟨c, hc, htoList⟩ := List.mem_map.mp hw
    exact ⟨c, hc, by rw [htoList]; exact hwithin⟩

end

/-- Six letters in chunks of three that share one. -/
theorem sample_cover :
    let chunks := chunkText ⟨fun c => decide (c = ' '), id, id⟩ "abcdef" 3 1
      []
    chunks.flatMap (fun c => c.text.toList.take (stepOf 3 1)) =
        "abcdef".toList ∧
      (∀ (place : ℕ) (c : Chunk), chunks[place]? = some c →
        c.index = place ∧ c.metadata = [] ∧ c.text ≠ "" ∧
          (c.text.length : ℤ) ≤ 3) ∧
      ∀ p n : ℕ, p < "abcdef".length → (n : ℤ) ≤ 1 + 1 →
        ∃ c ∈ chunks,
          ("abcdef".toList.drop p).take n <:+: c.text.toList := by
  apply chunks_cover
  · decide
  · decide
  · decide

end Rag
end Orvex
