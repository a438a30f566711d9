import HomelabApps.KnowledgeBase.Store.Valid
import Mathlib.Data.Multiset.UnionInter

universe u

namespace HomelabApps.KnowledgeBase.Store

open HomelabApps.Library
open HomelabApps.Library.Utf16

variable {Vector : Type u} {db db' : Database Vector} {documentId next : Nat} {tsConfig : String}
  {title : Option JsString} {chunk : ChunkDTO} {chunks : List ChunkDTO} {reusable rows : List ChunkRow}
  {hash : JsString}

theorem takeHash_eq_none (h : takeHash hash rows = none) : hash ∉ rows.map (·.chunk.hash) := by
  induction rows with
  | nil => exact List.not_mem_nil
  | cons row rows ih =>
    rw [takeHash] at h
    split at h
    · cases h
    · rename_i hne
      rw [List.map_cons, List.mem_cons, not_or]
      exact ⟨fun heq => hne heq.symm, ih (Option.map_eq_none_iff.mp h)⟩

theorem writtenIds_matched : List.Forall₂
    (fun id chunk => next ≤ id ∨ ∃ row ∈ reusable, row.id = id ∧ row.chunk.hash = chunk.hash)
    (writtenIds next chunks reusable) chunks := by
  induction chunks generalizing next reusable with
  | nil => exact .nil
  | cons chunk chunks ih =>
    rw [writtenIds]
    cases htake : takeHash chunk.hash reusable with
    | none =>
      refine .cons (.inl (Nat.le_refl _)) (ih.imp fun id chunk h => ?_)
      exact h.imp_left Nat.le_of_succ_le
    | some found =>
      obtain ⟨row, rest⟩ := found
      have hperm := takeHash_perm htake
      refine .cons (.inr ⟨row, hperm.mem_iff.mpr List.mem_cons_self, rfl, takeHash_hash htake⟩)
        (ih.imp fun id chunk h => h.imp_right ?_)
      rintro ⟨old, hold, hsame⟩
      exact ⟨old, hperm.mem_iff.mpr (List.mem_cons_of_mem _ hold), hsame⟩

theorem mem_writtenIds {id : Nat} (h : id ∈ writtenIds next chunks reusable) :
    next ≤ id ∨ ∃ row ∈ reusable, row.id = id := by
  have hall := (List.forall₂_and_left (R := fun _ _ => True)
    (p := fun id => next ≤ id ∨ ∃ row ∈ reusable, row.id = id) _ _).mp
    ((@writtenIds_matched next chunks reusable).imp fun id chunk hid =>
      ⟨hid.imp_right fun ⟨row, hrow, hsame, _⟩ => ⟨row, hrow, hsame⟩, trivial⟩)
  exact hall.1 id h

theorem count_writtenIds {bound : Nat} (hnext : bound ≤ next) (hids : ∀ row ∈ reusable, row.id < bound) :
    ((writtenIds next chunks reusable).filter (· < bound)).length =
      ((↑(chunks.map (·.hash)) : Multiset JsString) ∩ ↑(reusable.map (·.chunk.hash))).card := by
  induction chunks generalizing next reusable with
  | nil => simp [writtenIds]
  | cons chunk chunks ih =>
    rw [writtenIds, List.map_cons, ← Multiset.cons_coe]
    cases htake : takeHash chunk.hash reusable with
    | none =>
      rw [Multiset.cons_inter_of_neg _ (by simpa using takeHash_eq_none htake),
        List.filter_cons_of_neg (by simpa using hnext)]
      exact ih (Nat.le_succ_of_le hnext) hids
    | some found =>
      obtain ⟨row, rest⟩ := found
      have hperm := takeHash_perm htake
      have hhashes : (↑(reusable.map (·.chunk.hash)) : Multiset JsString) =
          chunk.hash ::ₘ ↑(rest.map (·.chunk.hash)) := by
        rw [Multiset.cons_coe, Multiset.coe_eq_coe, ← takeHash_hash htake]
        exact hperm.map _
      have hrow : row.id < bound := hids row (hperm.mem_iff.mpr List.mem_cons_self)
      rw [hhashes, Multiset.cons_inter_of_pos _ (Multiset.mem_cons_self _ _), Multiset.erase_cons_head,
        Multiset.card_cons, List.filter_cons_of_pos (by simpa using hrow), List.length_cons]
      exact congrArg (· + 1) (ih hnext fun old hold => hids old (hperm.mem_iff.mpr (List.mem_cons_of_mem _ hold)))

theorem chunksOf_reconcileChunks (h : FreshIds db.chunkIds db.nextChunk)
    (hord : chunks.map (·.ord) = List.range chunks.length) :
    (reconcileChunks db documentId tsConfig title chunks).chunksOf documentId =
      List.zipWith (writtenRow documentId tsConfig title)
        (writtenIds db.nextChunk chunks (db.chunksOf documentId)) chunks := by
  have hperm := reconcileChunks_rows documentId tsConfig title chunks h
  have hsort := List.pairwise_insertionSort (fun a b : ChunkRow => a.chunk.ord ≤ b.chunk.ord)
    ((reconcileChunks db documentId tsConfig title chunks).chunks.filter (·.documentId = documentId))
  have hrows := List.perm_insertionSort (fun a b : ChunkRow => a.chunk.ord ≤ b.chunk.ord)
    ((reconcileChunks db documentId tsConfig title chunks).chunks.filter (·.documentId = documentId))
  have hords : (List.zipWith (writtenRow documentId tsConfig title)
      (writtenIds db.nextChunk chunks (db.chunksOf documentId)) chunks).map (·.chunk.ord) =
      List.range chunks.length := by
    rw [map_writtenRow (g := ChunkDTO.ord) (fun _ _ => rfl) length_writtenIds, hord]
  have hle : (List.zipWith (writtenRow documentId tsConfig title)
      (writtenIds db.nextChunk chunks (db.chunksOf documentId)) chunks).Pairwise
      fun a b => a.chunk.ord ≤ b.chunk.ord := by
    have hrange := (List.pairwise_lt_range (n := chunks.length)).imp Nat.le_of_lt
    rwa [← hords, List.pairwise_map] at hrange
  have hall := hrows.trans hperm
  refine List.Perm.eq_of_pairwise ?_ hsort hle hall
  intro a b ha hb hab hba
  exact List.inj_on_of_nodup_map (hords ▸ List.nodup_range) (hall.mem_iff.mp ha) hb
    (Nat.le_antisymm hab hba)

theorem ids_writtenRow {ids : List Nat} (h : ids.length = chunks.length) :
    (List.zipWith (writtenRow documentId tsConfig title) ids chunks).map (·.id) = ids := by
  induction chunks generalizing ids with
  | nil => rw [List.length_eq_zero_iff.mp h, List.zipWith_nil_left, List.map_nil]
  | cons chunk chunks ih =>
    cases ids with
    | nil => rfl
    | cons id ids => exact congrArg (id :: ·) (ih (Nat.succ.inj h))

/-- What writing the chunks of a document does to the rows: those of the document hold the incoming
chunks in order, the rows reused have the hashes of their chunks and are as many as they can be, the
other rows of the document are gone, and the other documents are as they were. -/
structure Reconciled (db db' : Database Vector) (document : DocumentDTO) (tsConfig : String)
    (chunks : List ChunkDTO) (id : Nat) : Prop where
  written : ⟨id, document.stored⟩ ∈ db'.documents
  rows : (db'.chunksOf id).map ChunkRow.payload = chunks.map (ChunkDTO.payload tsConfig document.title)
  matched : List.Forall₂
    (fun row chunk => ∀ old ∈ db.chunksOf id, old.id = row.id → old.chunk.hash = chunk.hash)
    (db'.chunksOf id) chunks
  once : ((db'.chunksOf id).map (·.id)).Nodup
  reused : ((db'.chunksOf id).filter fun row => (db.chunksOf id).any (·.id = row.id)).length =
    ((↑(chunks.map (·.hash)) : Multiset JsString) ∩ ↑((db.chunksOf id).map (·.chunk.hash))).card
  deleted : ∀ old ∈ db.chunksOf id, old.id ∉ (db'.chunksOf id).map (·.id) →
    ∀ c ∈ db'.chunks, c.id ≠ old.id
  embeddings : ∀ e ∈ db.embeddings,
    (∀ old ∈ db.chunksOf id, old.id = e.chunkId → old.id ∈ (db'.chunksOf id).map (·.id)) → e ∈ db'.embeddings
  otherRows : db'.chunks.filter (·.documentId ≠ id) = db.chunks.filter (·.documentId ≠ id)
  otherDocuments : ∀ d : DocumentRow, d.key ≠ document.key → (d ∈ db'.documents ↔ d ∈ db.documents)

theorem embeddings_reconcileChunks {e : EmbeddingRow Vector} (he : e ∈ db.embeddings)
    (hkept : ∀ old ∈ db.chunksOf documentId, old.id = e.chunkId →
      old.id ∈ ((reconcileChunks db documentId tsConfig title chunks).chunksOf documentId).map (·.id)) :
    e ∈ (reconcileChunks db documentId tsConfig title chunks).embeddings := by
  have hembeddings := (@reconcile_beside _ db documentId tsConfig title chunks (db.chunksOf documentId)).2.2.1
  refine List.mem_filter.mpr ⟨hembeddings ▸ he, ?_⟩
  simp only [Bool.not_eq_true', List.any_eq_false, Bool.and_eq_true, decide_eq_true_eq, List.any_eq_true,
    not_and, not_exists]
  intro c _ hchunk stale hstale hid
  have hold := reconcile_stale.subset hstale
  obtain ⟨row, hrow, hsame⟩ := List.mem_map.mp (hkept stale hold (hid.trans hchunk))
  have hnotStale := (List.mem_filter.mp (mem_chunksOf.mp hrow).1).2
  simp only [Bool.not_eq_true', List.any_eq_false, decide_eq_true_eq] at hnotStale
  exact hnotStale stale hstale hsame.symm

section Reconciled

variable (h : FreshIds db.chunkIds db.nextChunk)

include h

theorem writtenRow_matched (hreusable : Reusable db documentId reusable) (hrows : reusable ⊆ db.chunks) :
    List.Forall₂ (fun row chunk => ∀ old ∈ reusable, old.id = row.id → old.chunk.hash = chunk.hash)
      (List.zipWith (writtenRow documentId tsConfig title) (writtenIds db.nextChunk chunks reusable) chunks)
      chunks := by
  have hmatched := @writtenIds_matched db.nextChunk chunks reusable
  generalize writtenIds db.nextChunk chunks reusable = ids at hmatched
  induction hmatched with
  | nil => exact .nil
  | cons hid _ ih =>
    refine .cons (fun old hold hsame => ?_) ih
    rcases hid with hnew | ⟨row, hrow, hrowId, hhash⟩
    · have hlt := h.lt_next old.id (List.mem_map_of_mem (hrows hold))
      rw [hsame] at hlt
      exact absurd hlt (Nat.not_lt.mpr hnew)
    · rw [Table.eq_of_key hreusable.nodup hold hrow (hsame.trans hrowId.symm), hhash]

theorem reused_writtenIds (hrows : reusable ⊆ db.chunks) :
    ((writtenIds db.nextChunk chunks reusable).filter fun id => reusable.any (·.id = id)).length =
      ((↑(chunks.map (·.hash)) : Multiset JsString) ∩ ↑(reusable.map (·.chunk.hash))).card := by
  have hids : ∀ row ∈ reusable, row.id < db.nextChunk := fun row hrow =>
    h.lt_next row.id (List.mem_map_of_mem (hrows hrow))
  rw [← count_writtenIds (Nat.le_refl _) hids]
  congr 1
  refine List.filter_congr fun id hid => Bool.eq_iff_iff.mpr ?_
  simp only [List.any_eq_true, decide_eq_true_eq]
  constructor
  · rintro ⟨row, hrow, rfl⟩
    exact hids row hrow
  · exact fun hlt => (mem_writtenIds hid).resolve_left (Nat.not_le.mpr hlt)

theorem reconcileChunks_reconciled (hord : chunks.map (·.ord) = List.range chunks.length)
    (hvalid' : (reconcileChunks db documentId tsConfig title chunks).Valid) :
    let db' := reconcileChunks db documentId tsConfig title chunks
    (db'.chunksOf documentId).map ChunkRow.payload = chunks.map (ChunkDTO.payload tsConfig title) ∧
      List.Forall₂
        (fun row chunk => ∀ old ∈ db.chunksOf documentId, old.id = row.id → old.chunk.hash = chunk.hash)
        (db'.chunksOf documentId) chunks ∧
      ((db'.chunksOf documentId).map (·.id)).Nodup ∧
      ((db'.chunksOf documentId).filter fun row => (db.chunksOf documentId).any (·.id = row.id)).length =
        ((↑(chunks.map (·.hash)) : Multiset JsString) ∩
          ↑((db.chunksOf documentId).map (·.chunk.hash))).card := by
  have hrows : db.chunksOf documentId ⊆ db.chunks := fun c hc => (mem_chunksOf.mp hc).1
  intro db'
  have hnodup := (Database.Valid.reusable documentId hvalid'.chunkIds).nodup
  simp only [db', chunksOf_reconcileChunks h hord] at hnodup ⊢
  refine ⟨?_, writtenRow_matched h (Database.Valid.reusable documentId h) hrows, hnodup, ?_⟩
  · exact map_writtenRow (f := ChunkRow.payload) (g := ChunkDTO.payload tsConfig title) (fun _ _ => rfl)
      length_writtenIds
  · have hids : (List.zipWith (writtenRow documentId tsConfig title)
        (writtenIds db.nextChunk chunks (db.chunksOf documentId)) chunks).map (·.id) =
        writtenIds db.nextChunk chunks (db.chunksOf documentId) := ids_writtenRow length_writtenIds
    rw [← reused_writtenIds h hrows]
    conv_rhs => rw [← hids, List.filter_map, List.length_map]
    rfl

theorem deleted_reconcileChunks {old : ChunkRow} (hold : old ∈ db.chunksOf documentId)
    (hgone : old.id ∉ ((reconcileChunks db documentId tsConfig title chunks).chunksOf documentId).map (·.id)) :
    ∀ c ∈ (reconcileChunks db documentId tsConfig title chunks).chunks, c.id ≠ old.id := by
  intro c hc hid
  obtain ⟨hmem, hdocument⟩ := mem_chunksOf.mp hold
  by_cases hof : c.documentId = documentId
  · exact hgone (List.mem_map.mpr ⟨c, mem_chunksOf.mpr ⟨hc, hof⟩, hid⟩)
  · have hother : c ∈ db.chunks.filter (·.documentId ≠ documentId) := by
      rw [← reconcileChunks_others documentId tsConfig title chunks h]
      exact List.mem_filter.mpr ⟨hc, by simpa using hof⟩
    have hsame : c = old := Table.eq_of_key h.nodup (List.mem_filter.mp hother).1 hmem hid
    exact hof (hsame ▸ hdocument)

end Reconciled

theorem upserted_reconciled {document : DocumentDTO} {localeCompare : JsString → JsString → Ordering}
    (h : db.Valid) (hord : chunks.map (·.ord) = List.range chunks.length)
    (hu : Upserted localeCompare db document tsConfig chunks db' .upsert) :
    ∃ id, Reconciled db db' document tsConfig chunks id := by
  have hvalid' := h.upserted hu
  cases hu with
  | written db₁ id haccepted _ hw =>
    obtain ⟨hchunks, hnext, hembeddings, -⟩ := hw.beside
    have hfresh := (hw.valid h haccepted).chunkIds
    have hold : db₁.chunksOf id = db.chunksOf id := by simp only [Database.chunksOf, hchunks]
    obtain ⟨hrows, hmatched, honce, hreused⟩ := reconcileChunks_reconciled hfresh hord hvalid'
    rw [hold] at hmatched hreused
    refine ⟨id, {
      written := by
        rw [reconcileChunks_documents]
        exact hw.row
      rows := hrows
      matched := hmatched
      once := honce
      reused := hreused
      deleted := fun old hmem hgone => deleted_reconcileChunks hfresh (hold ▸ hmem) hgone
      embeddings := fun e he hkept =>
        embeddings_reconcileChunks (hembeddings ▸ he) fun old hmem => hkept old (hold ▸ hmem)
      otherRows := by
        rw [reconcileChunks_others id tsConfig document.title chunks hfresh, hchunks]
      otherDocuments := fun d hne => by
        rw [reconcileChunks_documents]
        refine ⟨fun hd => (hw.of_mem hd).resolve_left ?_, fun hd => (hw.of_ne h hd hne).1⟩
        rintro ⟨-, hstored⟩
        exact hne (by rw [DocumentRow.key, hstored]; rfl) }⟩

end HomelabApps.KnowledgeBase.Store
