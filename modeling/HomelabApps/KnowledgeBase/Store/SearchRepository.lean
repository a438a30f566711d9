import HomelabApps.KnowledgeBase.Store.EmbeddingRepository
import Mathlib.Algebra.Order.Field.Rat

universe u

namespace HomelabApps.KnowledgeBase.Store

open HomelabApps.Library.Utf16
open HomelabApps.Library.Json (Value jsonbAccepts)

inductive FullTextMatch
  | any | all
  deriving DecidableEq, Repr

abbrev MetadataFilter := List (JsString × List JsString)

/-- The text search of the database, in a configuration: whether the vector of a chunk matches the
query made of a question, how well, and the snippet of a body. -/
structure TextSearch where
  isMatch : FullTextMatch → String → JsString → Fts → Bool
  rank : FullTextMatch → String → JsString → Fts → ℚ
  snippet : String → JsString → JsString → JsString

/-- The index on the vectors of a model: some of the rows it is asked for, the nearest first as far
as it knows. -/
structure VectorIndex (Vector : Type u) where
  distance : Vector → Vector → ℚ
  scan : Vector → Nat → List (EmbeddingRow Vector) → List (EmbeddingRow Vector)
  scan_subset : ∀ question limit rows, scan question limit rows ⊆ rows

structure SearchHitDTO where
  id : Nat
  kb : String
  externalId : JsString
  anchor : JsString
  title : Option JsString
  heading : JsString
  snippet : JsString
  date : Option JsString
  url : Option JsString
  metadata : Value
  demoted : Bool

def field (key : JsString) : Value → Option Value
  | .object entries => (entries.find? (·.1 = key)).map (·.2)
  | _ => none

def isText (text : JsString) : Value → Bool
  | .string s => s = text
  | _ => false

def holdsText (text : JsString) : Value → Bool
  | .array items => items.any (isText text)
  | _ => false

/-- The two containments of one accepted value, as a scalar and in an array. -/
def acceptsValue (metadata : Value) (key value : JsString) : Bool :=
  (field key metadata).any fun v => isText value v || holdsText value v

def MetadataFilter.accepts (filter : MetadataFilter) (metadata : Value) : Bool :=
  filter.all fun (key, accepted) => accepted.any (acceptsValue metadata key)

def MetadataFilter.accepted (filter : MetadataFilter) : Bool :=
  filter.all fun (key, accepted) => accepted.all fun value => jsonbAccepts (.object [(key, .string value)])

variable {Vector : Type u}

def Database.documentOf (db : Database Vector) (c : ChunkRow) : Option DocumentRow :=
  db.documents.find? (·.id = c.documentId)

/-- Which chunks a leg ranges over: those of its knowledge bases that have a vector of the model, or,
with a model, those that have none of it. -/
inductive Leg
  | vector (kbs : List String) (model : String)
  | fullText (kbs : List String) (withoutVectorFor : Option String)
  deriving DecidableEq, Repr

def Leg.knowledgeBases : Leg → List String
  | .vector kbs _ => kbs
  | .fullText kbs _ => kbs

def Leg.isVector : Leg → Bool
  | .vector _ _ => true
  | .fullText _ _ => false

def Leg.ranges (db : Database Vector) (c : ChunkRow) : Leg → Bool
  | .vector kbs model => kbs.any (db.inKb · c) && db.embedded c.id model
  | .fullText kbs withoutVectorFor =>
    kbs.any (db.inKb · c) && withoutVectorFor.all fun model => !db.embedded c.id model

structure Found where
  id : Nat
  rank : ℚ

variable (db : Database Vector) (tsConfigs : String → Option String) (search : TextSearch)
  (index : VectorIndex Vector)

def fullTextRows (kbs : List String) (question : JsString) («match» : FullTextMatch)
    (filter : MetadataFilter) (withoutVectorFor : Option String) : List Found :=
  db.chunks.filterMap fun c => do
    let d ← db.documentOf c
    let tsConfig ← tsConfigs d.document.kb
    if kbs.contains d.document.kb && search.isMatch «match» tsConfig question c.fts &&
        withoutVectorFor.all (fun model => !db.embedded c.id model) && filter.accepts d.document.metadata then
      some ⟨c.id, search.rank «match» tsConfig question c.fts⟩
    else none

def fullText (kbs : List String) (question : JsString) («match» : FullTextMatch)
    (filter : MetadataFilter) (limit : Nat) (withoutVectorFor : Option String) : Option (List Nat) :=
  if textAccepts question && filter.accepted then
    let rows := fullTextRows db tsConfigs search kbs question «match» filter withoutVectorFor
    some (((rows.insertionSort fun a b => b.rank < a.rank ∨ a.rank = b.rank ∧ a.id ≤ b.id).take limit).map (·.id))
  else none

def vectorRows (kbs : List String) (model : String) (filter : MetadataFilter) :
    List (EmbeddingRow Vector) :=
  db.embeddings.filter fun e =>
    e.model = model && db.chunks.any fun c =>
      c.id = e.chunkId && (db.documentOf c).any fun d =>
        kbs.contains d.document.kb && filter.accepts d.document.metadata

def vector (kbs : List String) (model : String) (question : Vector) (filter : MetadataFilter)
    (limit : Nat) : Option (List Nat) :=
  if filter.accepted then
    let rows := (index.scan question limit (vectorRows db kbs model filter)).take limit
    some ((rows.insertionSort fun a b =>
      index.distance a.embedding question ≤ index.distance b.embedding question).map (·.chunkId))
  else none

def STATUS : JsString := utf16 "status"

def ABANDONED : JsString := utf16 "abandoned"

def SUPERSEDES : JsString := utf16 "supersedes"

/-- An abandoned document, or one that another document of its knowledge base names in `supersedes`. -/
def demoted (d : DocumentRow) : Bool :=
  (field STATUS d.document.metadata).any (isText ABANDONED) ||
    db.documents.any fun s =>
      s.document.kb = d.document.kb && s.id ≠ d.id &&
        (field SUPERSEDES s.document.metadata).any fun v =>
          isText d.document.externalId v || holdsText d.document.externalId v

def hitOf (question : JsString) (c : ChunkRow) : Option SearchHitDTO := do
  let d ← db.documentOf c
  let tsConfig ← tsConfigs d.document.kb
  pure {
    id := c.id
    kb := d.document.kb
    externalId := d.document.externalId
    anchor := c.chunk.anchor
    title := d.document.title
    heading := c.chunk.heading
    snippet := search.snippet tsConfig question c.chunk.body
    date := d.document.date
    url := d.document.url
    metadata := d.document.metadata
    demoted := demoted db d }

def details (ids : List Nat) (question : JsString) : Option (List SearchHitDTO) :=
  if ids.isEmpty then some []
  else if textAccepts question then
    some ((db.chunks.filter (ids.contains ·.id)).filterMap (hitOf db tsConfigs search question))
  else none

variable {db : Database Vector} {tsConfigs : String → Option String} {search : TextSearch}
  {index : VectorIndex Vector} {kbs : List String} {question : JsString} {terms : FullTextMatch}
  {filter : MetadataFilter} {limit id : Nat} {ids : List Nat}

theorem documentOf_eq_some {c : ChunkRow} {d : DocumentRow} (h : db.documentOf c = some d) :
    d ∈ db.documents ∧ d.id = c.documentId :=
  ⟨List.mem_of_find?_eq_some h, by simpa using List.find?_some h⟩

theorem inKb_of_documentOf {c : ChunkRow} {d : DocumentRow} (h : db.documentOf c = some d) :
    db.inKb d.document.kb c = true := by
  obtain ⟨hd, hid⟩ := documentOf_eq_some h
  exact List.any_eq_true.mpr ⟨d, hd, by simp [hid]⟩

theorem mem_fullTextRows {withoutVectorFor : Option String} {row : Found} :
    row ∈ fullTextRows db tsConfigs search kbs question terms filter withoutVectorFor ↔
      ∃ c ∈ db.chunks, ∃ d, db.documentOf c = some d ∧ ∃ tsConfig, tsConfigs d.document.kb = some tsConfig ∧
        kbs.contains d.document.kb = true ∧
        withoutVectorFor.all (fun model => !db.embedded c.id model) = true ∧
        search.isMatch terms tsConfig question c.fts = true ∧ filter.accepts d.document.metadata = true ∧
        row = ⟨c.id, search.rank terms tsConfig question c.fts⟩ := by
  simp only [fullTextRows, List.mem_filterMap, Option.bind_eq_bind, Option.bind_eq_some_iff,
    Option.ite_none_right_eq_some, Option.some.injEq, Bool.and_eq_true]
  constructor
  · rintro ⟨c, hc, d, hd, tsConfig, hts, ⟨⟨⟨hkb, hmatch⟩, hwithout⟩, hfilter⟩, rfl⟩
    exact ⟨c, hc, d, hd, tsConfig, hts, hkb, hwithout, hmatch, hfilter, rfl⟩
  · rintro ⟨c, hc, d, hd, tsConfig, hts, hkb, hwithout, hmatch, hfilter, rfl⟩
    exact ⟨c, hc, d, hd, tsConfig, hts, ⟨⟨⟨hkb, hmatch⟩, hwithout⟩, hfilter⟩, rfl⟩

theorem mem_vectorRows {model : String} {e : EmbeddingRow Vector} :
    e ∈ vectorRows db kbs model filter ↔ e ∈ db.embeddings ∧ e.model = model ∧
      ∃ c ∈ db.chunks, c.id = e.chunkId ∧ ∃ d, db.documentOf c = some d ∧
        kbs.contains d.document.kb = true ∧ filter.accepts d.document.metadata = true := by
  simp only [vectorRows, List.mem_filter, Bool.and_eq_true, decide_eq_true_eq, List.any_eq_true,
    Option.any_eq_true]

theorem ranges_of_mem_fullText {withoutVectorFor : Option String}
    (h : fullText db tsConfigs search kbs question terms filter limit withoutVectorFor = some ids)
    (hid : id ∈ ids) :
    ∃ c ∈ db.chunks, c.id = id ∧ (Leg.fullText kbs withoutVectorFor).ranges db c = true := by
  obtain ⟨-, hids⟩ := Option.ite_none_right_eq_some.mp h
  obtain rfl := Option.some.inj hids
  obtain ⟨row, hrow, rfl⟩ := List.mem_map.mp hid
  have hrow := (List.mem_insertionSort _).mp (List.take_subset _ _ hrow)
  obtain ⟨c, hc, d, hd, -, -, hkb, hwithout, -, -, rfl⟩ := mem_fullTextRows.mp hrow
  refine ⟨c, hc, rfl, Bool.and_eq_true_iff.mpr ⟨?_, hwithout⟩⟩
  exact List.any_eq_true.mpr ⟨d.document.kb, List.contains_iff_mem.mp hkb, inKb_of_documentOf hd⟩

theorem ranges_of_mem_vector {model : String} {nearest : Vector}
    (h : vector db index kbs model nearest filter limit = some ids) (hid : id ∈ ids) :
    ∃ c ∈ db.chunks, c.id = id ∧ (Leg.vector kbs model).ranges db c = true := by
  obtain ⟨-, hids⟩ := Option.ite_none_right_eq_some.mp h
  obtain rfl := Option.some.inj hids
  obtain ⟨e, he, rfl⟩ := List.mem_map.mp hid
  have he := List.take_subset _ _ ((List.mem_insertionSort _).mp he)
  obtain ⟨he, hmodel, c, hc, hchunk, d, hd, hkb, -⟩ := mem_vectorRows.mp (index.scan_subset _ _ _ he)
  refine ⟨c, hc, hchunk, Bool.and_eq_true_iff.mpr ⟨?_, ?_⟩⟩
  · exact List.any_eq_true.mpr ⟨d.document.kb, List.contains_iff_mem.mp hkb, inKb_of_documentOf hd⟩
  · exact List.any_eq_true.mpr ⟨e, he, by simp [hchunk, hmodel]⟩

theorem mem_details {hits : List SearchHitDTO} {hit : SearchHitDTO}
    (h : details db tsConfigs search ids question = some hits) (hhit : hit ∈ hits) :
    ∃ c ∈ db.chunks, c.id = hit.id ∧ db.inKb hit.kb c = true := by
  unfold details at h
  split at h
  · obtain rfl := Option.some.inj h
    cases hhit
  · obtain ⟨-, hhits⟩ := Option.ite_none_right_eq_some.mp h
    obtain rfl := Option.some.inj hhits
    obtain ⟨c, hc, hhit⟩ := List.mem_filterMap.mp hhit
    simp only [hitOf, Option.bind_eq_bind, Option.bind_eq_some_iff] at hhit
    obtain ⟨d, hd, tsConfig, -, hhit⟩ := hhit
    obtain rfl := Option.some.inj hhit
    exact ⟨c, (List.mem_filter.mp hc).1, rfl, inKb_of_documentOf hd⟩

end HomelabApps.KnowledgeBase.Store
