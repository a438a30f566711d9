import HomelabApps.KnowledgeBase.EmbeddingRun
import HomelabApps.KnowledgeBase.Store.Catalogue

universe u

namespace HomelabApps.KnowledgeBase.Store

open HomelabApps.Library
open HomelabApps.Library.Utf16

variable {Vector : Type u} {db db' : Database Vector} {P : DocumentDTO → ChunkDTO → Prop} {document : DocumentDTO}
  {tsConfig : String} {chunks : List ChunkDTO} {change : DocumentChange} {rows : List (EmbeddingRow Vector)}
  {localeCompare : JsString → JsString → Ordering} {q : DocumentRow → Bool}

def Database.Each (P : DocumentDTO → ChunkDTO → Prop) (db : Database Vector) : Prop :=
  ∀ c ∈ db.chunks, ∀ d ∈ db.documents, d.id = c.documentId → P d.document c.chunk

theorem each_empty : ({} : Database Vector).Each P := fun _ hc => by cases hc

theorem Database.Each.deleteDocuments (h : db.Each P) : (db.deleteDocuments q).Each P := fun c hc d hd hid =>
  h c (mem_deleteDocuments_chunks.mp hc).1 d (mem_deleteDocuments_documents.mp hd).1 hid

theorem Database.Each.insertEmbeddings (h : db.Each P) : (db.insertEmbeddings rows).Each P := by
  rw [Database.Each, insertEmbeddings_chunks, insertEmbeddings_documents]
  exact h

theorem kept_delete {kb : String} {externalIds : List JsString} (h : db.Valid ∧ db.Each P) :
    ((db.delete kb externalIds).getD db).Valid ∧ ((db.delete kb externalIds).getD db).Each P := by
  unfold Database.delete
  split
  · exact ⟨h.1.deleteDocuments, h.2.deleteDocuments⟩
  · exact h

theorem kept_deleteAllExcept {kb : String} {keep : List JsString} (h : db.Valid ∧ db.Each P) :
    ((db.deleteAllExcept kb keep).getD db).Valid ∧ ((db.deleteAllExcept kb keep).getD db).Each P := by
  unfold Database.deleteAllExcept
  split
  · exact ⟨h.1.deleteDocuments, h.2.deleteDocuments⟩
  · exact h

theorem Database.Each.upserted (hvalid : db.Valid)
    (htouched : ∀ stored chunk, P stored chunk → P (stored.touched document) chunk)
    (hwritten : ∀ chunk ∈ chunks, document.accepted → chunk.accepted → P document.stored chunk.stored)
    (h : db.Each P) (hu : Upserted localeCompare db document tsConfig chunks db' change) : db'.Each P := by
  cases hu with
  | unchanged row =>
    intro c hc d hd hid
    rcases Table.mem_update.mp hd with ⟨old, hold, -, rfl⟩ | ⟨hd, -⟩
    · exact htouched old.document c.chunk (h c hc old hold hid)
    · exact h c hc d hd hid
  | written db₁ id haccepted hchunks hw =>
    have hvalid₁ := hw.valid hvalid haccepted
    have hpayload := reconcileChunks_payload id tsConfig document.title chunks hvalid₁.chunkIds
    have hothers := reconcileChunks_others id tsConfig document.title chunks hvalid₁.chunkIds
    intro c hc d hd hid
    rw [reconcileChunks_documents] at hd
    cases Decidable.em (c.documentId = id) with
    | inl hdoc =>
      -- a row of the document holds one of the incoming chunks
      have hmem := hpayload.mem_iff.mp (List.mem_map_of_mem (List.mem_filter.mpr ⟨hc, by simpa using hdoc⟩))
      obtain ⟨chunk, hchunk, heq⟩ := List.mem_map.mp hmem
      have hstored : chunk.stored = c.chunk := congrArg Prod.fst heq
      have hrow : d = ⟨id, document.stored⟩ :=
        Table.eq_of_key hvalid₁.documentIds.nodup hd hw.row (hid.trans hdoc)
      rw [hrow, ← hstored]
      exact hwritten chunk hchunk haccepted (hchunks chunk hchunk)
    | inr hdoc =>
      -- a row of another document is as it was, and so is that document
      have hmem : c ∈ db₁.chunks.filter (·.documentId ≠ id) :=
        hothers ▸ List.mem_filter.mpr ⟨hc, by simpa using hdoc⟩
      have hc := (List.mem_filter.mp hmem).1
      rw [hw.beside.1] at hc
      cases hw.of_mem hd with
      | inl hrow => exact absurd (hid.symm.trans hrow.1) hdoc
      | inr hd => exact h c hc d hd hid

end HomelabApps.KnowledgeBase.Store

namespace HomelabApps.KnowledgeBase.EmbeddingRun

open HomelabApps.Library
open HomelabApps.Library.Utf16
open Store

variable {Vector : Type u} {platform : Platform} {models : Models Vector} {P : DocumentDTO → ChunkDTO → Prop}
  {s t : State Vector} {event : Event} {events : List Event}

structure Brought (platform : Platform) (P : DocumentDTO → ChunkDTO → Prop) : Prop where
  touched : ∀ document stored chunk, P stored chunk → P (stored.touched document) chunk
  written : ∀ kb document, ∀ chunk ∈ chunksOf platform kb document, (sourceToStorage kb document).accepted →
    chunk.accepted → P (sourceToStorage kb document).stored chunk.stored

theorem each_step (hbrought : Brought platform P) (h : s.db.Valid ∧ s.db.Each P)
    (hstep : step platform models s event = some t) : t.db.Valid ∧ t.db.Each P := by
  obtain ⟨hvalid, heach⟩ := h
  cases event with
  | upsert kb document =>
    simp only [step] at hstep
    cases hupsert : s.db.upsert platform.localeCompare (sourceToStorage kb document) kb.tsConfig
        (chunksOf platform kb document) with
    | none =>
      rw [hupsert] at hstep
      cases hstep
      exact ⟨hvalid, heach⟩
    | some result =>
      rw [hupsert] at hstep
      cases hstep
      have hu := upsert_upserted hvalid hupsert
      exact ⟨hvalid.upserted hu,
        heach.upserted hvalid (hbrought.touched _) (hbrought.written kb document) hu⟩
  | delete kb externalIds =>
    cases hstep
    exact kept_delete ⟨hvalid, heach⟩
  | deleteAllExcept kb keep =>
    cases hstep
    exact kept_deleteAllExcept ⟨hvalid, heach⟩
  | copyByHash choose kb model =>
    cases hstep
    exact ⟨hvalid.copyByHash, heach.insertEmbeddings⟩
  | selectPending kb model limit =>
    cases hstep
    exact ⟨hvalid, heach⟩
  | insert i =>
    simp only [step] at hstep
    cases hbatch : s.batches[i]? with
    | none =>
      rw [hbatch] at hstep
      cases hstep
    | some batch =>
      rw [hbatch] at hstep
      cases hstep
      exact ⟨hvalid.insert, heach.insertEmbeddings⟩

theorem each_run (hbrought : Brought platform P) (h : s.db.Valid ∧ s.db.Each P)
    (hrun : run platform models s events = some t) : t.db.Valid ∧ t.db.Each P :=
  Transition.invariant (I := fun s : State Vector => s.db.Valid ∧ s.db.Each P)
    (fun _ _ _ => each_step hbrought) h hrun

end HomelabApps.KnowledgeBase.EmbeddingRun
