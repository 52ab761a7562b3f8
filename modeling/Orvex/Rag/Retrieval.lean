import Orvex.Foundation.Action
import Orvex.Foundation.Entries
import Orvex.Rag.Chunkers

/-!
# Ingestion and retrieval

A document goes into the vector store chunk by chunk, with its source and its
trust level.  Whatever a retrieval returns has kept them: it is a window of a
document that was ingested under that source and that trust level.
-/

namespace Orvex
namespace Rag

/-! ## The store -/

structure Entry (ν : Type) where
  vector : ν
  metadata : PyDict
  document : String

/-- A collection of Chroma, which keeps one entry for each identifier. -/
abbrev Collection (ν : Type) := Entries String (Entry ν)

/-- What a query of a collection gives, list by list. -/
structure QueryResult where
  ids : List String
  documents : List String
  metadatas : List PyDict
  distances : List ℚ

/-- The result lists entries of the collection, at most so many. -/
structure Answers {ν : Type} (collection : Collection ν) (topK : ℕ)
    (result : QueryResult) : Prop where
  bounded : result.ids.length ≤ topK
  stored : ∀ (place : ℕ) (id : String), result.ids[place]? = some id →
    ∃ entry, collection.get id = some entry ∧
      result.documents[place]? = some entry.document ∧
      result.metadatas[place]? = some entry.metadata

structure RetrievedChunk where
  chunkId : String
  content : String
  score : ℚ
  metadata : PyDict

def RetrievedChunk.trustLevel (chunk : RetrievedChunk) : PyValue :=
  chunk.metadata.getD "trust_level" (.str "UNKNOWN")

def RetrievedChunk.source (chunk : RetrievedChunk) : PyValue :=
  chunk.metadata.get "source"

/-- `isinstance(value, (str, int, float, bool))`. -/
def scalar : PyValue → Bool
  | .str _ => true
  | .int _ => true
  | .float _ => true
  | .bool _ => true
  | _ => false

namespace ChromaStore

variable {ν : Type}

/-- The values of a metadata that Chroma accepts. -/
def clean (metadata : PyDict) : PyDict :=
  metadata.filter fun field => scalar field.2

/-- `none` is the exception for lists of unequal lengths. -/
def upsert (ids : List String) (vectors : List ν) (metadatas : List PyDict)
    (documents : List String) (collection : Collection ν) :
    Option (Collection ν) :=
  if ids = [] then some collection
  else if vectors.length ≠ ids.length then none
  else
    let entries := List.zipWith (fun vector (rest : PyDict × String) =>
      Entry.mk vector rest.1 rest.2) vectors
        ((metadatas.map clean).zip documents)
    some (collection.setAll Prod.fst Prod.snd (ids.zip entries))

def query (py : TextPython) (result : QueryResult) : List RetrievedChunk :=
  result.ids.mapIdx fun i id =>
    { chunkId := id
      content := (result.documents[i]?).getD ""
      score := py.similarity ((result.distances[i]?).getD 1)
      metadata := (result.metadatas[i]?).getD [] }

end ChromaStore

/-! ## Ingestion -/

structure RawDocument where
  source : String
  content : String
  trustLevel : String
  page : Option ℤ
  docType : String

structure IngestionResult where
  documentId : String
  documentHash : String
  chunkCount : ℕ

inductive IngestionError where
  | emptyDocument
  | embedding
  | unequalLengths

/-- A call of `ingest` with what happens during it: the identifier and the
time that it reads, and the vectors of the embedder, if it does not fail. -/
structure Ingestion (ν : Type) where
  document : RawDocument
  documentId : String
  ingestedAt : String
  embedded : Option (List ν)

/-- `[\x00-\x08\x0b\x0c\x0e-\x1f]`. -/
def control (c : Char) : Bool :=
  decide (c.toNat ≤ 8) || decide (c.toNat = 11) || decide (c.toNat = 12) ||
    (decide (14 ≤ c.toNat) && decide (c.toNat ≤ 31))

def sanitize (text : String) : String :=
  String.ofList (text.toList.filter fun c => !control c)

def documentHash (py : TextPython) (document : RawDocument) : String :=
  "sha256:" ++ py.sha256 (sanitize document.content)

def baseMetadata {ν : Type} (py : TextPython) (call : Ingestion ν) :
    PyDict :=
  [("source", .str call.document.source),
    ("trust_level", .str call.document.trustLevel),
    ("document_id", .str call.documentId),
    ("document_hash", .str (documentHash py call.document)),
    ("ingested_at", .str call.ingestedAt),
    ("doc_type", .str call.document.docType)] ++
    (call.document.page.map fun page => ("page", PyValue.int page)).toList

def chunkId (documentId : String) (index : ℕ) : String :=
  documentId ++ "_chunk_" ++ toString index

def chunkMetadata (py : TextPython) (chunk : Chunk) : PyDict :=
  chunk.metadata ++
    [("chunk_index", .int chunk.index),
      ("content_hash", .str ("sha256:" ++ py.sha256 chunk.text))]

structure IngestionPipeline where
  chunkSize : ℤ
  overlap : ℤ

variable {ν : Type}

def chunksOf (py : TextPython) (pipeline : IngestionPipeline)
    (call : Ingestion ν) : List Chunk :=
  chunkText py (sanitize call.document.content) pipeline.chunkSize
    pipeline.overlap (baseMetadata py call)

def ingest (py : TextPython) (pipeline : IngestionPipeline)
    (call : Ingestion ν) (collection : Collection ν) :
    Except IngestionError IngestionResult × Collection ν :=
  if call.document.content = "" ∨ blank py call.document.content then
    (.error .emptyDocument, collection)
  else
    let chunks := chunksOf py pipeline call
    let result : IngestionResult :=
      ⟨call.documentId, documentHash py call.document, chunks.length⟩
    if chunks = [] then (.ok result, collection)
    else
      match call.embedded with
      | none => (.error .embedding, collection)
      | some vectors =>
          match ChromaStore.upsert
              (chunks.map fun c => chunkId call.documentId c.index) vectors
              (chunks.map (chunkMetadata py)) (chunks.map Chunk.text)
              collection with
          | none => (.error .unequalLengths, collection)
          | some after => (.ok result, after)

/-- The collection after these calls. -/
def ingestAll (py : TextPython) (pipeline : IngestionPipeline)
    (calls : List (Ingestion ν)) : Collection ν :=
  calls.foldl (fun collection call => (ingest py pipeline call collection).2)
    .empty

/-! ## Retrieval -/

structure RetrievalResult where
  chunks : List RetrievedChunk
  grounded : Bool

def retrieve (py : TextPython) (minScore : ℚ) (result : QueryResult) :
    RetrievalResult :=
  let relevant := (ChromaStore.query py result).filter fun c =>
    decide (minScore ≤ c.score)
  ⟨relevant, !relevant.isEmpty⟩

structure RetrievedItem where
  content : String
  score : ℚ
  source : Option String
  trustLevel : String

structure RetrievalOutput where
  grounded : Bool
  items : List RetrievedItem

/-- A text or nothing, as the model of the items requires it. -/
def itemSource : PyValue → Except PyException (Option String)
  | .none => .ok none
  | .str text => .ok (some text)
  | _ => .error .validationError

def itemOf (chunk : RetrievedChunk) : Except PyException RetrievedItem := do
  let source ← itemSource chunk.source
  let trustLevel ← chunk.trustLevel.requireText
  return ⟨chunk.content, chunk.score, source, trustLevel⟩

/-- The output of the retrieval tool. -/
def retrievalOutput (py : TextPython) (minScore : ℚ) (result : QueryResult) :
    Except PyException RetrievalOutput := do
  let retrieved := retrieve py minScore result
  let items ← retrieved.chunks.mapM itemOf
  return ⟨retrieved.grounded, items⟩

/-! ## Provenance -/

/-- The entry holds a window of the document, with its source and its trust
level. -/
structure Entry.From (pipeline : IngestionPipeline) (document : RawDocument)
    (entry : Entry ν) : Prop where
  window : ∃ w ∈ windows (sanitize document.content).toList
    pipeline.chunkSize pipeline.overlap, entry.document = String.ofList w
  source : entry.metadata.get "source" = .str document.source
  trustLevel : entry.metadata.getD "trust_level" (.str "UNKNOWN") =
    .str document.trustLevel

/-- An entry of one of the calls. -/
def Ingested (pipeline : IngestionPipeline) (calls : List (Ingestion ν))
    (entry : Entry ν) : Prop :=
  ∃ call ∈ calls, entry.From pipeline call.document

theorem clean_chunkMetadata (py : TextPython) (call : Ingestion ν)
    {chunk : Chunk} (h : chunk.metadata = baseMetadata py call) :
    ChromaStore.clean (chunkMetadata py chunk) = chunkMetadata py chunk := by
  unfold ChromaStore.clean
  rw [List.filter_eq_self]
  intro field hfield
  unfold chunkMetadata baseMetadata at *
  rw [h] at hfield
  cases hpage : call.document.page with
  | none =>
      simp [hpage] at hfield
      rcases hfield with rfl | rfl | rfl | rfl | rfl | rfl | rfl | rfl <;> rfl
  | some page =>
      simp [hpage] at hfield
      rcases hfield with rfl | rfl | rfl | rfl | rfl | rfl | rfl | rfl | rfl <;>
        rfl

theorem chunksOf_window {py : TextPython} {pipeline : IngestionPipeline}
    {call : Ingestion ν} {chunk : Chunk}
    (h : chunk ∈ chunksOf py pipeline call) :
    chunk.metadata = baseMetadata py call ∧
      ∃ w ∈ windows (sanitize call.document.content).toList
        pipeline.chunkSize pipeline.overlap, chunk.text = String.ofList w := by
  unfold chunksOf chunkText at h
  split at h
  · contradiction
  · obtain ⟨i, hi, hchunk⟩ := List.mem_mapIdx.mp h
    subst hchunk
    exact ⟨rfl, _, List.getElem_mem hi, rfl⟩

theorem entry_from {py : TextPython} {pipeline : IngestionPipeline}
    {call : Ingestion ν} {chunk : Chunk}
    (h : chunk ∈ chunksOf py pipeline call) (vector : ν) :
    (Entry.mk vector (ChromaStore.clean (chunkMetadata py chunk))
      chunk.text).From pipeline call.document := by
  obtain ⟨hmetadata, hwindow⟩ := chunksOf_window h
  refine ⟨hwindow, ?_, ?_⟩
  · simp only [clean_chunkMetadata py call hmetadata]
    simp [chunkMetadata, hmetadata, baseMetadata, PyDict.get, PyDict.getD]
  · simp only [clean_chunkMetadata py call hmetadata]
    simp [chunkMetadata, hmetadata, baseMetadata, PyDict.getD,
      List.lookup_cons]

theorem mem_entries {py : TextPython} {chunks : List Chunk}
    {vectors : List ν} {entry : Entry ν}
    (h : entry ∈ List.zipWith (fun vector (rest : PyDict × String) =>
      Entry.mk vector rest.1 rest.2) vectors
        (((chunks.map (chunkMetadata py)).map ChromaStore.clean).zip
          (chunks.map Chunk.text))) :
    ∃ chunk ∈ chunks, ∃ vector, entry =
      ⟨vector, ChromaStore.clean (chunkMetadata py chunk), chunk.text⟩ := by
  rw [List.map_map, List.zip_map'] at h
  obtain ⟨i, hi, heq⟩ := List.mem_iff_getElem.mp h
  rw [List.getElem_zipWith, List.getElem_map] at heq
  exact ⟨_, List.getElem_mem _, _, heq.symm⟩

/-- What is written for the chunks of a call are entries of its document. -/
theorem upsert_chunks {py : TextPython} {pipeline : IngestionPipeline}
    {call : Ingestion ν} {vectors : List ν} {chunks : List Chunk}
    {ids : List String} {collection after : Collection ν}
    (hchunks : ∀ chunk ∈ chunks, chunk ∈ chunksOf py pipeline call)
    (h : ChromaStore.upsert ids vectors (chunks.map (chunkMetadata py))
      (chunks.map Chunk.text) collection = some after)
    {p : Entry ν → Prop}
    (hnew : ∀ entry : Entry ν, entry.From pipeline call.document → p entry)
    (hold : ∀ id entry, collection.get id = some entry → p entry) :
    ∀ id entry, after.get id = some entry → p entry := by
  unfold ChromaStore.upsert at h
  split at h
  · rw [← Option.some.inj h]
    exact hold
  · split at h
    · contradiction
    · rw [← Option.some.inj h]
      apply Entries.forall_get_setAll _ hold
      intro w hw
      obtain ⟨chunk, hchunk, vector, hentry⟩ :=
        mem_entries (List.of_mem_zip hw).2
      rw [hentry]
      exact hnew _ (entry_from (hchunks chunk hchunk) vector)

theorem Ingested.mono {pipeline : IngestionPipeline}
    {calls more : List (Ingestion ν)} {entry : Entry ν}
    (h : Ingested pipeline calls entry)
    (hsubset : ∀ call ∈ calls, call ∈ more) :
    Ingested pipeline more entry := by
  obtain ⟨call, hcall, hfrom⟩ := h
  exact ⟨call, hsubset call hcall, hfrom⟩

/-- A call adds entries of its document or leaves the collection. -/
theorem ingest_entries (py : TextPython) (pipeline : IngestionPipeline)
    (call : Ingestion ν) {collection : Collection ν} {p : Entry ν → Prop}
    (hnew : ∀ entry : Entry ν, entry.From pipeline call.document → p entry)
    (hold : ∀ id entry, collection.get id = some entry → p entry) :
    ∀ id entry, (ingest py pipeline call collection).2.get id = some entry →
      p entry := by
  unfold ingest
  split
  · exact hold
  · simp only
    split
    · exact hold
    · split
      next => exact hold
      next vectors hembedded =>
        split
        next => exact hold
        next after hafter =>
          exact upsert_chunks (fun _ h => h) hafter hnew hold

theorem ingestAll_entries (py : TextPython) (pipeline : IngestionPipeline)
    (calls : List (Ingestion ν)) :
    ∀ id entry, (ingestAll py pipeline calls).get id = some entry →
      Ingested pipeline calls entry := by
  induction calls using List.reverseRecOn with
  | nil =>
      intro id entry h
      contradiction
  | append_singleton calls call ih =>
      have hlast : ingestAll py pipeline (calls ++ [call]) =
          (ingest py pipeline call (ingestAll py pipeline calls)).2 := by
        unfold ingestAll
        rw [List.foldl_append]
        rfl
      rw [hlast]
      apply ingest_entries py pipeline call
        (p := Ingested pipeline (calls ++ [call]))
      · intro entry hfrom
        exact ⟨call, by simp, hfrom⟩
      · intro id entry hget
        apply (ih id entry hget).mono
        intro other hother
        exact List.mem_append_left _ hother

/-- A retrieved item is a window of a document that was ingested with the
source and the trust level of the item. -/
structure RetrievedItem.Faithful (pipeline : IngestionPipeline)
    (calls : List (Ingestion ν)) (minScore : ℚ) (item : RetrievedItem) :
    Prop where
  relevant : minScore ≤ item.score
  provenance : ∃ call ∈ calls,
    item.source = some call.document.source ∧
      item.trustLevel = call.document.trustLevel ∧
      ∃ w ∈ windows (sanitize call.document.content).toList
        pipeline.chunkSize pipeline.overlap, item.content = String.ofList w

theorem query_entry {py : TextPython} {collection : Collection ν}
    {topK : ℕ} {result : QueryResult} (h : Answers collection topK result)
    {chunk : RetrievedChunk} (hchunk : chunk ∈ ChromaStore.query py result) :
    ∃ id entry, collection.get id = some entry ∧
      chunk.content = entry.document ∧ chunk.metadata = entry.metadata := by
  obtain ⟨i, hi, heq⟩ := List.mem_mapIdx.mp hchunk
  obtain ⟨entry, hget, hdocument, hmetadata⟩ :=
    h.stored i result.ids[i] (List.getElem?_eq_getElem hi)
  refine ⟨result.ids[i], entry, hget, ?_, ?_⟩
  · rw [← heq, hdocument]
    rfl
  · rw [← heq, hmetadata]
    rfl

theorem itemOf_faithful {py : TextPython} {pipeline : IngestionPipeline}
    {calls : List (Ingestion ν)} {topK : ℕ} (minScore : ℚ)
    {result : QueryResult}
    (hresult : Answers (ingestAll py pipeline calls) topK result)
    {chunk : RetrievedChunk}
    (hchunk : chunk ∈ (retrieve py minScore result).chunks) :
    ∃ item, itemOf chunk = .ok item ∧
      item.Faithful pipeline calls minScore := by
  obtain ⟨hquery, hscore⟩ := List.mem_filter.mp hchunk
  obtain ⟨id, entry, hget, hcontent, hmetadata⟩ := query_entry hresult hquery
  obtain ⟨call, hcall, hfrom⟩ := ingestAll_entries py pipeline calls id entry
    hget
  obtain ⟨w, hw, hwindow⟩ := hfrom.window
  have hsource : chunk.source = .str call.document.source := by
    rw [RetrievedChunk.source, hmetadata]
    exact hfrom.source
  have htrust : chunk.trustLevel = .str call.document.trustLevel := by
    rw [RetrievedChunk.trustLevel, hmetadata]
    exact hfrom.trustLevel
  refine ⟨⟨chunk.content, chunk.score, some call.document.source,
    call.document.trustLevel⟩, ?_, of_decide_eq_true hscore, call, hcall, rfl,
    rfl, w, hw, hcontent.trans hwindow⟩
  rw [itemOf, hsource, htrust]
  rfl

theorem length_query (py : TextPython) (result : QueryResult) :
    (ChromaStore.query py result).length = result.ids.length := by
  simp [ChromaStore.query]

/-- Whatever was ingested in any order, a retrieval gives at most so many
items, each with the trust level under which it was ingested. -/
theorem retrieval_keeps_provenance (py : TextPython)
    (pipeline : IngestionPipeline) (calls : List (Ingestion ν)) (topK : ℕ)
    (minScore : ℚ) (result : QueryResult)
    (hresult : Answers (ingestAll py pipeline calls) topK result) :
    ∃ output, retrievalOutput py minScore result = .ok output ∧
      output.items.length ≤ topK ∧
      (output.grounded = true ↔ output.items ≠ []) ∧
      ∀ item ∈ output.items, item.Faithful pipeline calls minScore := by
  obtain ⟨items, hitems, hlength, hall⟩ := Fallible.mapM_all
    (fun chunk hchunk => itemOf_faithful minScore hresult hchunk)
  have hle : (retrieve py minScore result).chunks.length ≤ topK := by
    have hfilter := List.length_filter_le
      (fun c : RetrievedChunk => decide (minScore ≤ c.score))
      (ChromaStore.query py result)
    rw [length_query] at hfilter
    exact hfilter.trans hresult.bounded
  refine ⟨⟨(retrieve py minScore result).grounded, items⟩, ?_, ?_, ?_, hall⟩
  · rw [retrievalOutput, hitems]
    rfl
  · rw [hlength]
    exact hle
  · have hgrounded : (retrieve py minScore result).grounded =
        !(retrieve py minScore result).chunks.isEmpty := rfl
    rw [hgrounded, Bool.not_eq_true', List.isEmpty_eq_false_iff]
    rw [← List.length_pos_iff, ← List.length_pos_iff, hlength]

/-! ## Two documents that are found -/

def samplePython : TextPython where
  isSpace c := decide (c = ' ')
  sha256 := id
  similarity distance := 1 - distance

/-- A note of an unknown author, with one vector. -/
def sampleNote : Ingestion Unit where
  document := ⟨"note", "pay bob", "UNTRUSTED", none, "TEXT"⟩
  documentId := "doc"
  ingestedAt := "now"
  embedded := some [()]

/-- A manual of the company. -/
def sampleManual : Ingestion Unit where
  document := ⟨"manual", "ask first", "TRUSTED", none, "TEXT"⟩
  documentId := "manual"
  ingestedAt := "then"
  embedded := some [()]

def sampleCalls : List (Ingestion Unit) := [sampleManual, sampleNote]

def samplePipeline : IngestionPipeline := ⟨800, 120⟩

def sampleMetadata (call : Ingestion Unit) : PyDict :=
  chunkMetadata samplePython
    ⟨call.document.content, 0, baseMetadata samplePython call⟩

def sampleResult : QueryResult where
  ids := ["doc_chunk_0", "manual_chunk_0"]
  documents := ["pay bob", "ask first"]
  metadatas := [sampleMetadata sampleNote, sampleMetadata sampleManual]
  distances := [1 / 2, 3 / 4]

theorem sample_answers : Answers
    (ingestAll samplePython samplePipeline sampleCalls) 5 sampleResult := by
  constructor
  · decide
  · intro place id hid
    match place, hid with
    | 0, hid =>
        obtain rfl : "doc_chunk_0" = id := Option.some.inj hid
        exact ⟨⟨(), sampleMetadata sampleNote, "pay bob"⟩, rfl, rfl, rfl⟩
    | 1, hid =>
        obtain rfl : "manual_chunk_0" = id := Option.some.inj hid
        exact ⟨⟨(), sampleMetadata sampleManual, "ask first"⟩, rfl, rfl, rfl⟩
    | place + 2, hid => simp [sampleResult] at hid

theorem sample_keeps_provenance :
    ∃ output, retrievalOutput samplePython (3 / 20) sampleResult =
        .ok output ∧
      output.items.map (fun item => item.trustLevel) =
        ["UNTRUSTED", "TRUSTED"] ∧
      output.items.length ≤ 5 ∧
      (output.grounded = true ↔ output.items ≠ []) ∧
      ∀ item ∈ output.items,
        item.Faithful samplePipeline sampleCalls (3 / 20) := by
  obtain ⟨output, houtput, hlaws⟩ := retrieval_keeps_provenance samplePython
    samplePipeline sampleCalls 5 (3 / 20) sampleResult sample_answers
  refine ⟨output, houtput, ?_, hlaws⟩
  have hlevels : (retrievalOutput samplePython (3 / 20) sampleResult).map
      (fun output => output.items.map (fun item => item.trustLevel)) =
        .ok ["UNTRUSTED", "TRUSTED"] := by
    decide +kernel
  rw [houtput] at hlevels
  exact Except.ok.inj hlevels

end Rag
end Orvex
