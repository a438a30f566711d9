import HomelabApps.KnowledgeBase.Store.Database
import Mathlib.Data.List.Sort

universe u

namespace HomelabApps.KnowledgeBase.Store

open HomelabApps.Library.Utf16

variable {Vector : Type u}

structure PendingChunk where
  id : Nat
  title : Option JsString
  heading : JsString
  body : JsString
  deriving DecidableEq, Repr

def Database.embedded (db : Database Vector) (chunkId : Nat) (model : String) : Bool :=
  db.embeddings.any fun e => e.chunkId = chunkId && e.model = model

def Database.inKb (db : Database Vector) (kb : String) (c : ChunkRow) : Bool :=
  db.documents.any fun d => d.id = c.documentId && d.document.kb = kb

def Database.unembedded (db : Database Vector) (kb model : String) : List ChunkRow :=
  db.chunks.filter fun c => db.inKb kb c && !db.embedded c.id model

def Database.insertEmbeddings (db : Database Vector) : List (EmbeddingRow Vector) → Database Vector
  | [] => db
  | e :: rows =>
    if db.embedded e.chunkId e.model then db.insertEmbeddings rows
    else { db with embeddings := db.embeddings ++ [e] }.insertEmbeddings rows

def Database.twins (db : Database Vector) (model : String) (c : ChunkRow) : List (EmbeddingRow Vector) :=
  db.embeddings.filter fun e => e.model = model && db.chunks.any fun twin =>
    twin.id = e.chunkId && twin.chunk.hash = c.chunk.hash && twin.id ≠ c.id

/-- One row for each chunk that has twins, any one of theirs: `choose` says which. -/
def Database.copies (db : Database Vector) (choose : Nat → Nat) (kb model : String) :
    List (EmbeddingRow Vector) :=
  (db.unembedded kb model).filterMap fun c =>
    let twins := db.twins model c
    (twins[choose c.id % twins.length]?).map fun e =>
      { chunkId := c.id
        model := e.model
        embedding := e.embedding }

def Database.copyByHash (db : Database Vector) (choose : Nat → Nat) (kb model : String) :
    Database Vector :=
  db.insertEmbeddings (db.copies choose kb model)

def Database.countPending (db : Database Vector) (kb model : String) : Nat :=
  (db.unembedded kb model).length

def Database.pendingChunk (db : Database Vector) (c : ChunkRow) : Option PendingChunk :=
  (db.documents.find? (·.id = c.documentId)).map fun d =>
    { id := c.id
      title := d.document.title
      heading := c.chunk.heading
      body := c.chunk.body }

def Database.pending (db : Database Vector) (kb model : String) (limit : Nat) : List PendingChunk :=
  (((db.unembedded kb model).insertionSort fun a b => a.id ≤ b.id).take limit).filterMap db.pendingChunk

/-- A chunk deleted meanwhile is skipped. -/
def Database.insert (db : Database Vector) (model : String) (vectors : List (Nat × Vector)) :
    Database Vector :=
  db.insertEmbeddings ((vectors.filter fun v => db.hasChunk v.1).map fun v =>
    { chunkId := v.1
      model := model
      embedding := v.2 })

variable {db : Database Vector} {rows : List (EmbeddingRow Vector)} {e : EmbeddingRow Vector}

theorem insertEmbeddings_eq (db : Database Vector) (rows : List (EmbeddingRow Vector)) : ∃ added, added.Sublist rows ∧
    db.insertEmbeddings rows = { db with embeddings := db.embeddings ++ added } := by
  induction rows generalizing db with
  | nil => exact ⟨[], List.Sublist.refl _, by simp [Database.insertEmbeddings]⟩
  | cons e rows ih =>
    rw [Database.insertEmbeddings]
    split
    · obtain ⟨added, hsub, h⟩ := ih db
      exact ⟨added, hsub.cons e, h⟩
    · obtain ⟨added, hsub, h⟩ := ih { db with embeddings := db.embeddings ++ [e] }
      exact ⟨e :: added, hsub.cons_cons e, by simp [h]⟩

@[simp] theorem insertEmbeddings_documents :
    (db.insertEmbeddings rows).documents = db.documents := by
  obtain ⟨added, -, h⟩ := insertEmbeddings_eq db rows
  rw [h]

@[simp] theorem insertEmbeddings_chunks : (db.insertEmbeddings rows).chunks = db.chunks := by
  obtain ⟨added, -, h⟩ := insertEmbeddings_eq db rows
  rw [h]

theorem mem_insertEmbeddings (h : e ∈ (db.insertEmbeddings rows).embeddings) :
    e ∈ db.embeddings ∨ e ∈ rows := by
  obtain ⟨added, hsub, heq⟩ := insertEmbeddings_eq db rows
  rw [heq] at h
  exact (List.mem_append.mp h).imp_right fun h => hsub.subset h

theorem mem_copies {choose : Nat → Nat} {kb model : String} (h : e ∈ db.copies choose kb model) :
    ∃ c ∈ db.chunks, ∃ e' ∈ db.embeddings, ∃ twin ∈ db.chunks, c.id = e.chunkId ∧
      twin.id = e'.chunkId ∧ twin.chunk.hash = c.chunk.hash ∧ e'.model = e.model ∧
      e'.embedding = e.embedding := by
  obtain ⟨c, hc, he⟩ := List.mem_filterMap.mp h
  obtain ⟨e', he', rfl⟩ := Option.map_eq_some_iff.mp he
  obtain ⟨he', htwin⟩ := List.mem_filter.mp (List.mem_of_getElem? he')
  simp only [Bool.and_eq_true, decide_eq_true_eq, List.any_eq_true] at htwin
  obtain ⟨-, twin, htwin, ⟨hid, hhash⟩, -⟩ := htwin
  exact ⟨c, (List.mem_filter.mp hc).1, e', he', twin, htwin, rfl, hid, hhash, rfl, rfl⟩

theorem mem_pending {kb model : String} {limit : Nat} {p : PendingChunk}
    (h : p ∈ db.pending kb model limit) :
    ∃ c ∈ db.chunks, ∃ d ∈ db.documents, d.id = c.documentId ∧
      p = ⟨c.id, d.document.title, c.chunk.heading, c.chunk.body⟩ := by
  obtain ⟨c, hc, hp⟩ := List.mem_filterMap.mp h
  have hc := (List.mem_insertionSort _).mp (List.take_subset _ _ hc)
  obtain ⟨d, hd, rfl⟩ := Option.map_eq_some_iff.mp hp
  exact ⟨c, (List.mem_filter.mp hc).1, d, List.mem_of_find?_eq_some hd,
    by simpa using List.find?_some hd, rfl⟩

end HomelabApps.KnowledgeBase.Store
