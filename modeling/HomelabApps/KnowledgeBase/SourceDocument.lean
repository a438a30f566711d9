import HomelabApps.KnowledgeBase.Platform
import HomelabApps.KnowledgeBase.Markdown.Chunker
import HomelabApps.KnowledgeBase.Frontmatter
import HomelabApps.KnowledgeBase.Store.DocumentRepository

namespace HomelabApps.KnowledgeBase

open HomelabApps.Library.Utf16
open HomelabApps.Library.Json (Value)
open Markdown Store

structure ChunkingConfig where
  maxChars : Nat
  le_maxChars : 200 ≤ maxChars
  overlapChars : Nat

def ChunkingConfig.shortest : ChunkingConfig := ⟨200, Nat.le_refl _, 0⟩

structure GitSourceConfig where
  «include» : List JsString
  extensions : List JsString

structure KnowledgeBaseConfig where
  id : String
  tsConfig : String
  models : List String
  chunking : ChunkingConfig
  git : GitSourceConfig

structure SourceDocument where
  externalId : JsString
  title : Option JsString
  date : Option JsString
  url : Option JsString
  content : JsString
  version : JsString
  metadata : Record
  chunking : Option ChunkingMode

structure SourceChanges where
  upserts : List SourceDocument
  deletes : List JsString
  cursor : JsString
  complete : Bool

def sourceToStorage (kb : KnowledgeBaseConfig) (document : SourceDocument) : DocumentDTO where
  kb := kb.id
  externalId := document.externalId
  title := document.title
  date := document.date
  url := document.url
  content := document.content
  version := document.version
  metadata := .object document.metadata

def toChunkDTO (c : MarkdownChunk) : ChunkDTO where
  ord := c.ord
  heading := c.heading
  anchor := c.anchor
  body := c.body
  hash := c.hash

def SourceDocument.chunkOptions (document : SourceDocument) (kb : KnowledgeBaseConfig) :
    MarkdownChunkOptions where
  externalId := document.externalId
  title := document.title
  mode := document.chunking.getD .sections
  maxChars := kb.chunking.maxChars
  overlapChars := kb.chunking.overlapChars

def chunksOf (platform : Platform) (kb : KnowledgeBaseConfig) (document : SourceDocument) :
    List ChunkDTO :=
  (chunk platform.sha256 platform.unicode (parseFrontmatter platform.parseYaml document.content).body
    (document.chunkOptions kb)).map toChunkDTO

def nullable : Option JsString → Value
  | none => .null
  | some s => .string s

def chunkingJson : Option ChunkingMode → Record
  | none => []
  | some .sections => [(utf16 "chunking", .string (utf16 "sections"))]
  | some .entries => [(utf16 "chunking", .string (utf16 "entries"))]

def SourceDocument.toJson (document : SourceDocument) : Value :=
  .object ([
    (utf16 "externalId", .string document.externalId),
    (utf16 "title", nullable document.title),
    (utf16 "date", nullable document.date),
    (utf16 "url", nullable document.url),
    (utf16 "content", .string document.content),
    (utf16 "version", .string document.version),
    (utf16 "metadata", .object document.metadata)] ++ chunkingJson document.chunking)

def noNul (s : JsString) : Bool := NUL ∉ s

/-- Whether any text of the document holds NUL; `none` where `JSON.stringify` throws. -/
def holdsNul (document : SourceDocument) : Option Bool :=
  if document.toJson.acyclic then some (!document.toJson.all noNul) else none

theorem noNul_iff {s : JsString} : noNul s ↔ NUL ∉ s := by simp [noNul]

variable {platform : Platform} {kb : KnowledgeBaseConfig} {document : SourceDocument} {x : ChunkDTO}
  {title : Option JsString}

def OwnHash (platform : Platform) (title : Option JsString) (x : ChunkDTO) : Prop :=
  x.hash = Markdown.hash platform.sha256 title x.heading x.body

theorem ownHash_of_mem_chunksOf (h : x ∈ chunksOf platform kb document) :
    OwnHash platform document.title x := by
  obtain ⟨c, hc, rfl⟩ := List.mem_map.mp h
  exact hash_of_mem_chunk hc

theorem OwnHash.encoded (h : OwnHash platform title x) : toWellFormed x.hash = x.hash := by
  rw [h]
  exact toWellFormed_of_hex (platform.sha256_hex _)

theorem ord_chunk {sha256 : JsString → JsString} {unicode : Unicode} {markdown : JsString}
    {options : MarkdownChunkOptions} : (chunk sha256 unicode markdown options).map (·.ord) =
      List.range (chunk sha256 unicode markdown options).length := by
  refine List.ext_getElem (by simp) fun i hi hi' => ?_
  simp [chunk]

theorem ord_chunksOf :
    (chunksOf platform kb document).map (·.ord) = List.range (chunksOf platform kb document).length := by
  rw [chunksOf, List.map_map, List.length_map]
  exact ord_chunk

theorem acyclic_toJson (d : SourceDocument) : d.toJson.acyclic = (Value.object d.metadata).acyclic := by
  have hnullable : ∀ o, (nullable o).acyclic := by
    intro o
    cases o <;> rfl
  rw [Bool.eq_iff_iff, SourceDocument.toJson, Value.acyclic, Library.Json.acyclicEntries_iff]
  cases hmode : d.chunking with
  | none => simp [chunkingJson, hnullable, Value.acyclic]
  | some mode => cases mode <;> simp [chunkingJson, hnullable, Value.acyclic]

def SourceDocument.NoNul (d : SourceDocument) : Prop :=
  noNul d.externalId ∧ d.title.all noNul ∧ d.date.all noNul ∧ d.url.all noNul ∧ noNul d.content ∧
    noNul d.version ∧ (Value.object d.metadata).all noNul

theorem all_toJson (d : SourceDocument) : d.toJson.all noNul ↔ d.NoNul := by
  have hnullable : ∀ o, (nullable o).all noNul = o.all noNul := by
    intro o
    cases o <;> simp [nullable, Value.all]
  have hkeys : ∀ key ∈ ["externalId", "title", "date", "url", "content", "version", "metadata", "chunking",
      "sections", "entries"], noNul (utf16 key) := by decide
  simp only [List.mem_cons, List.not_mem_nil, or_false, forall_eq_or_imp, forall_eq] at hkeys
  rw [SourceDocument.toJson, Value.all, Library.Json.allEntries_iff, SourceDocument.NoNul]
  cases hmode : d.chunking with
  | none => simp [chunkingJson, hnullable, Value.all, hkeys]
  | some mode => cases mode <;> simp [chunkingJson, hnullable, Value.all, hkeys]

theorem holdsNul_eq_none {d : SourceDocument} :
    holdsNul d = none ↔ (Value.object d.metadata).acyclic = false := by
  simp [holdsNul, acyclic_toJson]

theorem holdsNul_eq_false {d : SourceDocument} :
    holdsNul d = some false ↔ (Value.object d.metadata).acyclic ∧ d.NoNul := by
  rw [holdsNul, acyclic_toJson, ← all_toJson]
  split <;> simp_all

theorem holdsNul_congr {d d' : SourceDocument} (hid : d.externalId = d'.externalId)
    (htitle : d.title = d'.title) (hdate : d.date = d'.date) (hurl : d.url.all noNul)
    (hurl' : d'.url.all noNul) (hcontent : d.content = d'.content) (hversion : d.version = d'.version)
    (hmetadata : d.metadata = d'.metadata) : holdsNul d = holdsNul d' := by
  have hall : d.toJson.all noNul = d'.toJson.all noNul := by
    rw [Bool.eq_iff_iff, all_toJson, all_toJson]
    simp only [SourceDocument.NoNul, hid, htitle, hdate, hurl, hurl', hcontent, hversion, hmetadata]
  rw [holdsNul, holdsNul, acyclic_toJson, acyclic_toJson, hmetadata, hall]

end HomelabApps.KnowledgeBase
