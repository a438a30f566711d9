import HomelabApps.KnowledgeBase.Store.Reconcile
import HomelabApps.KnowledgeBase.Store.EmbeddingRepository

universe u

namespace HomelabApps.KnowledgeBase.Store

open HomelabApps.Library
open HomelabApps.Library.Utf16
open HomelabApps.Library.Json (jsonbAccepts)

variable {Vector : Type u} {db db' : Database Vector} {documentId id : Nat} {tsConfig : String}
  {document : DocumentDTO} {title : Option JsString} {chunks : List ChunkDTO} {change : DocumentChange}
  {localeCompare : JsString → JsString → Ordering} {p : ChunkRow → Bool} {q : DocumentRow → Bool}

structure DocumentDTO.Kept (d : DocumentDTO) : Prop where
  externalId : toWellFormed d.externalId = d.externalId
  title : d.title.map toWellFormed = d.title
  titleText : ∀ t ∈ d.title, NUL ∉ t
  content : toWellFormed d.content = d.content
  date : d.date.all dateAccepts
  acyclic : d.metadata.acyclic
  metadata : jsonbAccepts d.metadata

theorem DocumentDTO.accepted_iff : document.accepted ↔
    textAccepts document.externalId ∧ document.title.all textAccepts ∧ document.date.all dateAccepts ∧
      document.url.all textAccepts ∧ textAccepts document.content ∧ textAccepts document.version ∧
      document.metadata.acyclic ∧ jsonbAccepts document.metadata := by
  simp only [DocumentDTO.accepted, Bool.and_eq_true, and_assoc]

theorem DocumentDTO.kept_stored (h : document.accepted) : document.stored.Kept := by
  obtain ⟨-, htitle, hdate, -, -, -, hacyclic, hmetadata⟩ := DocumentDTO.accepted_iff.mp h
  exact {
    externalId := toWellFormed_idem
    title := by
      cases ht : document.title with
      | none => simp [DocumentDTO.stored, ht]
      | some t => simp [DocumentDTO.stored, ht, toWellFormed_idem]
    titleText := by
      intro t ht
      obtain ⟨s, hs, rfl⟩ := Option.map_eq_some_iff.mp ht
      rw [nul_mem_toWellFormed]
      simpa [hs, textAccepts] using htitle
    content := toWellFormed_idem
    date := hdate
    acyclic := by rw [DocumentDTO.stored, Json.Value.acyclic_jsonb, hacyclic]
    metadata := by
      rw [DocumentDTO.stored, jsonbAccepts, Json.Value.all_jsonb]
      exact hmetadata }

structure Database.Valid (db : Database Vector) : Prop where
  documentIds : FreshIds (db.documents.map (·.id)) db.nextDocument
  documentKeys : (db.documents.map DocumentRow.key).Nodup
  chunkIds : FreshIds db.chunkIds db.nextChunk
  chunkDocument : ∀ c ∈ db.chunks, ∃ d ∈ db.documents, d.id = c.documentId
  embeddingChunk : ∀ e ∈ db.embeddings, ∃ c ∈ db.chunks, c.id = e.chunkId
  kept : ∀ d ∈ db.documents, d.document.Kept

theorem valid_empty : ({} : Database Vector).Valid where
  documentIds := ⟨List.nodup_nil, fun _ h => by simp at h⟩
  documentKeys := List.nodup_nil
  chunkIds := ⟨List.nodup_nil, fun _ h => by simp [Database.chunkIds] at h⟩
  chunkDocument _ h := by simp at h
  embeddingChunk _ h := by simp at h
  kept _ h := by simp at h

abbrev ValidDatabase (Vector : Type u) := { db : Database Vector // db.Valid }

theorem mem_deleteChunks_embeddings {e : EmbeddingRow Vector} (h : e ∈ (db.deleteChunks p).embeddings) :
    e ∈ db.embeddings ∧ ∀ c ∈ db.chunks, c.id = e.chunkId → p c = false := by
  obtain ⟨he, hp⟩ := List.mem_filter.mp h
  refine ⟨he, fun c hc hid => ?_⟩
  simp only [Bool.not_eq_true', List.any_eq_false, Bool.and_eq_true, decide_eq_true_eq, not_and] at hp
  simpa using hp c hc hid

theorem Database.Valid.deleteChunks (h : db.Valid) : (db.deleteChunks p).Valid where
  documentIds := h.documentIds
  documentKeys := h.documentKeys
  chunkIds := h.chunkIds.sublist (List.filter_sublist.map _)
  chunkDocument c hc := h.chunkDocument c (List.mem_filter.mp hc).1
  embeddingChunk e he := by
    obtain ⟨he, hp⟩ := mem_deleteChunks_embeddings he
    obtain ⟨c, hc, hid⟩ := h.embeddingChunk e he
    exact ⟨c, List.mem_filter.mpr ⟨hc, by simp [hp c hc hid]⟩, hid⟩
  kept := h.kept

theorem mem_deleteDocuments_chunks {c : ChunkRow} :
    c ∈ (db.deleteDocuments q).chunks ↔
      c ∈ db.chunks ∧ ∀ d ∈ db.documents, d.id = c.documentId → q d = false := by
  simp only [Database.deleteDocuments, Database.deleteChunks, List.mem_filter, Bool.not_eq_true',
    List.any_eq_false, Bool.and_eq_true, decide_eq_true_eq, not_and, Bool.not_eq_true]

theorem mem_deleteDocuments_documents {d : DocumentRow} :
    d ∈ (db.deleteDocuments q).documents ↔ d ∈ db.documents ∧ q d = false := by
  simp [Database.deleteDocuments]

theorem Database.Valid.deleteDocuments (h : db.Valid) : (db.deleteDocuments q).Valid where
  documentIds := h.documentIds.sublist (List.filter_sublist.map _)
  documentKeys := Table.nodup_filter h.documentKeys
  chunkIds := h.deleteChunks.chunkIds
  chunkDocument c hc := by
    obtain ⟨hc, hq⟩ := mem_deleteDocuments_chunks.mp hc
    obtain ⟨d, hd, hid⟩ := h.chunkDocument c hc
    exact ⟨d, mem_deleteDocuments_documents.mpr ⟨hd, hq d hd hid⟩, hid⟩
  embeddingChunk := h.deleteChunks.embeddingChunk
  kept d hd := h.kept d (mem_deleteDocuments_documents.mp hd).1

theorem Database.Valid.insertEmbeddings {rows : List (EmbeddingRow Vector)} (h : db.Valid)
    (hrows : ∀ e ∈ rows, ∃ c ∈ db.chunks, c.id = e.chunkId) : (db.insertEmbeddings rows).Valid := by
  obtain ⟨added, hsub, heq⟩ := insertEmbeddings_eq db rows
  rw [heq]
  exact {
    documentIds := h.documentIds
    documentKeys := h.documentKeys
    chunkIds := h.chunkIds
    chunkDocument := h.chunkDocument
    embeddingChunk := fun e he =>
      (List.mem_append.mp he).elim (h.embeddingChunk e) fun he => hrows e (hsub.subset he)
    kept := h.kept }

theorem Database.Valid.copyByHash {choose : Nat → Nat} {kb model : String} (h : db.Valid) :
    (db.copyByHash choose kb model).Valid := by
  refine h.insertEmbeddings fun e he => ?_
  obtain ⟨c, hc, -, -, -, -, hid, -⟩ := mem_copies he
  exact ⟨c, hc, hid⟩

theorem Database.Valid.insert {model : String} {vectors : List (Nat × Vector)} (h : db.Valid) :
    (db.insert model vectors).Valid := by
  refine h.insertEmbeddings fun e he => ?_
  obtain ⟨v, hv, rfl⟩ := List.mem_map.mp he
  simpa [Database.hasChunk] using (List.mem_filter.mp hv).2

theorem mem_chunksOf {c : ChunkRow} :
    c ∈ db.chunksOf documentId ↔ c ∈ db.chunks ∧ c.documentId = documentId := by
  rw [Database.chunksOf, List.mem_insertionSort, List.mem_filter, decide_eq_true_eq]

theorem Database.Valid.reusable (documentId : Nat) (h : FreshIds db.chunkIds db.nextChunk) :
    Reusable db documentId (db.chunksOf documentId) where
  fresh := h
  nodup := by
    have hperm := List.perm_insertionSort (fun a b : ChunkRow => a.chunk.ord ≤ b.chunk.ord)
      (db.chunks.filter (·.documentId = documentId))
    exact ((hperm.map ChunkRow.id).nodup_iff).mpr (Table.nodup_filter h.nodup)
  ofDocument r hr := ⟨r, (mem_chunksOf.mp hr).1, rfl, (mem_chunksOf.mp hr).2⟩

theorem settled_chunksOf : settled db documentId (db.chunksOf documentId) = [] := by
  rw [settled, List.filter_eq_nil_iff]
  intro c hc h
  simp only [Bool.and_eq_true, decide_eq_true_eq, Bool.not_eq_true', List.contains_eq_mem,
    decide_eq_false_iff_not] at h
  exact h.2 (List.mem_map.mpr ⟨c, mem_chunksOf.mpr ⟨hc, h.1⟩, rfl⟩)

theorem reconcile_chunkIds_subset : db.chunkIds ⊆ (reconcile documentId tsConfig title chunks
    (db.chunksOf documentId) db).1.chunkIds := by
  refine reconcile_induction (motive := fun db' _ => db.chunkIds ⊆ db'.chunkIds) ?_ (List.Subset.refl _)
  intro chunk _ db₁ reusable db₂ rest ht h
  cases ht with
  | insert =>
    rw [insertChunk_chunkIds]
    exact fun id hid => List.mem_append_left _ (h hid)
  | reuse =>
    rw [updateChunk_chunkIds]
    exact h

theorem reconcileChunks_rows (documentId : Nat) (tsConfig : String) (title : Option JsString)
    (chunks : List ChunkDTO) (h : FreshIds db.chunkIds db.nextChunk) :
    ((reconcileChunks db documentId tsConfig title chunks).chunks.filter
        (·.documentId = documentId)).Perm
      (List.zipWith (writtenRow documentId tsConfig title)
        (writtenIds db.nextChunk chunks (db.chunksOf documentId)) chunks) := by
  have hsettled := settled_rows tsConfig title chunks (Database.Valid.reusable documentId h)
  rw [settled_chunksOf, List.nil_append] at hsettled
  refine (List.Perm.of_eq ?_).trans hsettled
  simp only [reconcileChunks, Database.deleteChunks, settled, List.filter_filter]
  congr 1
  funext c
  simp [List.any_eq, eq_comm]

theorem reconcileChunks_payload (documentId : Nat) (tsConfig : String) (title : Option JsString)
    (chunks : List ChunkDTO) (h : FreshIds db.chunkIds db.nextChunk) :
    (((reconcileChunks db documentId tsConfig title chunks).chunks.filter
        (·.documentId = documentId)).map ChunkRow.payload).Perm
      (chunks.map (ChunkDTO.payload tsConfig title)) := by
  refine ((reconcileChunks_rows documentId tsConfig title chunks h).map ChunkRow.payload).trans
    (List.Perm.of_eq ?_)
  exact map_writtenRow (f := ChunkRow.payload) (g := ChunkDTO.payload tsConfig title) (fun _ _ => rfl)
    length_writtenIds

theorem reconcileChunks_others (documentId : Nat) (tsConfig : String) (title : Option JsString)
    (chunks : List ChunkDTO) (h : FreshIds db.chunkIds db.nextChunk) :
    (reconcileChunks db documentId tsConfig title chunks).chunks.filter (·.documentId ≠ documentId) =
      db.chunks.filter (·.documentId ≠ documentId) := by
  have hreusable := Database.Valid.reusable documentId h
  have hstale := reconcile_reusable tsConfig title chunks hreusable
  rw [← reconcile_others tsConfig title chunks hreusable]
  simp only [reconcileChunks, Database.deleteChunks, List.filter_filter]
  refine List.filter_congr fun c hc => Bool.eq_iff_iff.mpr ?_
  simp only [Bool.and_eq_true, Bool.not_eq_true', List.any_eq_false, decide_eq_true_eq,
    and_iff_left_iff_imp]
  intro hne row hrow hid
  obtain ⟨c', hc', hid', hdoc⟩ := hstale.ofDocument row hrow
  exact hne (Table.eq_of_key hstale.fresh.nodup hc hc' (hid.symm.trans hid'.symm) ▸ hdoc)

@[simp] theorem reconcileChunks_documents :
    (reconcileChunks db documentId tsConfig title chunks).documents = db.documents :=
  reconcile_beside.1

theorem reconcile_documentId {c : ChunkRow} {reusable : List ChunkRow}
    (hc : c ∈ (reconcile documentId tsConfig title chunks reusable db).1.chunks) :
    c.documentId = documentId ∨ ∃ c₀ ∈ db.chunks, c₀.documentId = c.documentId := by
  refine reconcile_induction (motive := fun db' _ => ∀ c ∈ db'.chunks,
    c.documentId = documentId ∨ ∃ c₀ ∈ db.chunks, c₀.documentId = c.documentId) ?_
    (fun c hc => .inr ⟨c, hc, rfl⟩) c hc
  intro chunk _ db₁ reusable db₂ rest ht h c hc
  cases ht with
  | insert =>
    rcases List.mem_append.mp hc with hc | hc
    · exact h c hc
    · exact .inl (by rw [List.mem_singleton.mp hc])
  | reuse =>
    rcases Table.mem_update.mp hc with ⟨x, hx, -, rfl⟩ | ⟨hc, -⟩
    · exact h x hx
    · exact h c hc

theorem Database.Valid.reconcileChunks (h : db.Valid) (hdoc : ∃ d ∈ db.documents, d.id = documentId) :
    (reconcileChunks db documentId tsConfig title chunks).Valid := by
  obtain ⟨hdocuments, hnext, hembeddings, -⟩ := @reconcile_beside _ db documentId tsConfig
    title chunks (db.chunksOf documentId)
  refine Database.Valid.deleteChunks {
    documentIds := by rw [hdocuments, hnext]; exact h.documentIds
    documentKeys := by rw [hdocuments]; exact h.documentKeys
    chunkIds := reconcile_freshIds h.chunkIds
    chunkDocument := ?_
    embeddingChunk := ?_
    kept := by rw [hdocuments]; exact h.kept }
  · intro c hc
    rw [hdocuments]
    rcases reconcile_documentId hc with hid | ⟨c₀, hc₀, hid⟩
    · rw [hid]
      exact hdoc
    · rw [← hid]
      exact h.chunkDocument c₀ hc₀
  · intro e he
    rw [hembeddings] at he
    obtain ⟨c, hc, hid⟩ := h.embeddingChunk e he
    obtain ⟨c', hc', hid'⟩ := List.mem_map.mp
      (@reconcile_chunkIds_subset _ db documentId tsConfig title chunks _ (List.mem_map_of_mem hc))
    exact ⟨c', hc', hid'.trans hid⟩

theorem findDocument_eq_some_iff (h : db.Valid) {kb : String} {externalId : JsString} {d : DocumentRow} :
    db.findDocument kb externalId = some d ↔ d ∈ db.documents ∧ d.key = (kb, toWellFormed externalId) :=
  Table.find?_eq_some_iff h.documentKeys

theorem findDocument_eq_none_iff {kb : String} {externalId : JsString} :
    db.findDocument kb externalId = none ↔ ∀ d ∈ db.documents, d.key ≠ (kb, toWellFormed externalId) := by
  rw [Database.findDocument, List.find?_eq_none]
  simp only [decide_eq_true_eq]

def DocumentDTO.key (d : DocumentDTO) : String × JsString := (d.kb, toWellFormed d.externalId)

inductive Wrote (db : Database Vector) (document : DocumentDTO) : Database Vector → Nat → Prop
  | update (row : DocumentRow) : row ∈ db.documents → row.key = document.key →
      Wrote db document
        { db with
          documents := Table.update DocumentRow.id row.id (DocumentRow.rewrite document) db.documents
          nextDocument := db.nextDocument + 1 } row.id
  | insert : (∀ d ∈ db.documents, d.key ≠ document.key) →
      Wrote db document
        { db with
          documents := db.documents ++ [⟨db.nextDocument, document.stored⟩]
          nextDocument := db.nextDocument + 1 } db.nextDocument

theorem writeDocument_wrote (h : db.Valid) :
    Wrote db document (db.writeDocument document).1 (db.writeDocument document).2 := by
  unfold Database.writeDocument
  cases hfind : db.findDocument document.kb document.externalId with
  | some row =>
    obtain ⟨hrow, hkey⟩ := (findDocument_eq_some_iff h).mp hfind
    exact .update row hrow hkey
  | none => exact .insert (findDocument_eq_none_iff.mp hfind)

theorem Wrote.row (hw : Wrote db document db' id) : ⟨id, document.stored⟩ ∈ db'.documents := by
  cases hw with
  | update row hrow => exact Table.mem_update.mpr (.inl ⟨row, hrow, rfl, rfl⟩)
  | insert => exact List.mem_append_right _ (List.mem_singleton_self _)

theorem Wrote.of_mem (hw : Wrote db document db' id) {d : DocumentRow} (hd : d ∈ db'.documents) :
    (d.id = id ∧ d.document = document.stored) ∨ d ∈ db.documents := by
  cases hw with
  | update row hrow =>
    rcases Table.mem_update.mp hd with ⟨x, -, hid, rfl⟩ | ⟨hd, -⟩
    · exact .inl ⟨hid, rfl⟩
    · exact .inr hd
  | insert =>
    rcases List.mem_append.mp hd with hd | hd
    · exact .inr hd
    · exact .inl (by simp [List.mem_singleton.mp hd])

theorem Wrote.beside (hw : Wrote db document db' id) :
    db'.chunks = db.chunks ∧ db'.nextChunk = db.nextChunk ∧ db'.embeddings = db.embeddings ∧
      db'.cursors = db.cursors := by
  cases hw <;> exact ⟨rfl, rfl, rfl, rfl⟩

theorem Wrote.of_ne (h : db.Valid) (hw : Wrote db document db' id) {d : DocumentRow}
    (hd : d ∈ db.documents) (hne : d.key ≠ document.key) : d ∈ db'.documents ∧ d.id ≠ id := by
  cases hw with
  | update row hrow hkey =>
    have hid : d.id ≠ row.id := fun hid =>
      hne (Table.eq_of_key h.documentIds.nodup hd hrow hid ▸ hkey)
    exact ⟨Table.mem_update.mpr (.inr ⟨hd, hid⟩), hid⟩
  | insert =>
    exact ⟨List.mem_append_left _ hd, Nat.ne_of_lt (h.documentIds.lt_next d.id (List.mem_map_of_mem hd))⟩

theorem Wrote.valid (h : db.Valid) (haccepted : document.accepted) (hw : Wrote db document db' id) :
    db'.Valid := by
  have hkept := DocumentDTO.kept_stored haccepted
  cases hw with
  | update row hrow hkey =>
    have hids : (Table.update DocumentRow.id row.id (DocumentRow.rewrite document) db.documents).map
        (·.id) = db.documents.map (·.id) := Table.map_update (f := DocumentRow.rewrite document) fun _ _ _ => rfl
    refine {
      documentIds := ⟨by rw [hids]; exact h.documentIds.nodup, fun id hid => ?_⟩
      documentKeys := ?_
      chunkIds := h.chunkIds
      chunkDocument := fun c hc => ?_
      embeddingChunk := h.embeddingChunk
      kept := fun d hd => ?_ }
    · rw [hids] at hid
      exact Nat.lt_succ_of_lt (h.documentIds.lt_next id hid)
    · rw [Table.map_update]
      · exact h.documentKeys
      · intro x hx hk
        rw [Table.eq_of_key h.documentIds.nodup hx hrow hk, hkey]
        rfl
    · obtain ⟨d, hd, hid⟩ := h.chunkDocument c hc
      obtain ⟨d', hd', hid'⟩ := List.mem_map.mp (hids ▸ List.mem_map_of_mem (f := DocumentRow.id) hd)
      exact ⟨d', hd', hid'.trans hid⟩
    · rcases Table.mem_update.mp hd with ⟨x, -, -, rfl⟩ | ⟨hd, -⟩
      · exact hkept
      · exact h.kept d hd
  | insert hne =>
    exact {
      documentIds := by rw [List.map_append]; exact h.documentIds.snoc
      documentKeys := by
        refine Table.nodup_append h.documentKeys fun hmem => ?_
        obtain ⟨d, hd, hkey⟩ := List.mem_map.mp hmem
        exact hne d hd hkey
      chunkIds := h.chunkIds
      chunkDocument := fun c hc => by
        obtain ⟨d, hd, hid⟩ := h.chunkDocument c hc
        exact ⟨d, List.mem_append_left _ hd, hid⟩
      embeddingChunk := h.embeddingChunk
      kept := fun d hd => by
        rcases List.mem_append.mp hd with hd | hd
        · exact h.kept d hd
        · rw [List.mem_singleton.mp hd]
          exact hkept }

inductive Upserted (localeCompare : JsString → JsString → Ordering) (db : Database Vector)
    (document : DocumentDTO) (tsConfig : String) (chunks : List ChunkDTO) :
    Database Vector → DocumentChange → Prop
  | unchanged (row : DocumentRow) : row ∈ db.documents → row.key = document.key →
      sameDocument localeCompare row.document document = some true →
      (db.chunksOf row.id).map (·.chunk.hash) = chunks.map (·.hash) →
      Upserted localeCompare db document tsConfig chunks
        { db with
          documents := Table.update DocumentRow.id row.id (DocumentRow.touch document) db.documents }
        .unchanged
  | written (db' : Database Vector) (id : Nat) : document.accepted → (∀ c ∈ chunks, c.accepted) →
      Wrote db document db' id →
      (∀ row ∈ db.documents, row.key = document.key →
        sameDocument localeCompare row.document document = some false ∨
          (db.chunksOf row.id).map (·.chunk.hash) ≠ chunks.map (·.hash)) →
      Upserted localeCompare db document tsConfig chunks
        (reconcileChunks db' id tsConfig document.title chunks) .upsert

theorem write_upserted (h : db.Valid) (hwrite : db.write document tsConfig chunks = some (db', change))
    (hrow : ∀ row ∈ db.documents, row.key = document.key →
      sameDocument localeCompare row.document document = some false ∨
        (db.chunksOf row.id).map (·.chunk.hash) ≠ chunks.map (·.hash)) :
    Upserted localeCompare db document tsConfig chunks db' change := by
  unfold Database.write at hwrite
  split at hwrite
  · rename_i haccepted
    cases hwrite
    rw [Bool.and_eq_true, List.all_eq_true] at haccepted
    exact .written _ _ haccepted.1 haccepted.2 (writeDocument_wrote h) hrow
  · cases hwrite

theorem upsert_upserted (h : db.Valid)
    (hupsert : db.upsert localeCompare document tsConfig chunks = some (db', change)) :
    Upserted localeCompare db document tsConfig chunks db' change := by
  unfold Database.upsert at hupsert
  split at hupsert
  · cases hfind : db.findDocument document.kb document.externalId with
    | none =>
      rw [hfind] at hupsert
      exact write_upserted h hupsert fun row hrow hkey =>
        absurd hkey (findDocument_eq_none_iff.mp hfind row hrow)
    | some row =>
      obtain ⟨hrow, hkey⟩ := (findDocument_eq_some_iff h).mp hfind
      simp only [hfind] at hupsert
      cases hsame : sameDocument localeCompare row.document document with
      | none => simp [hsame] at hupsert
      | some same =>
        simp only [hsame, sameHashes, Bool.and_eq_true, decide_eq_true_eq] at hupsert
        split at hupsert
        · rename_i hboth
          unfold Database.touch at hupsert
          split at hupsert
          · cases hupsert
            exact .unchanged row hrow hkey (hboth.1 ▸ hsame) hboth.2
          · cases hupsert
        · rename_i hboth
          refine write_upserted h hupsert fun row' hrow' hkey' => ?_
          rw [Table.eq_of_key h.documentKeys hrow' hrow (hkey'.trans hkey.symm)]
          cases same with
          | false => exact .inl hsame
          | true => exact .inr fun hhash => hboth ⟨rfl, hhash⟩
  · cases hupsert

theorem Database.Valid.upserted (h : db.Valid)
    (hu : Upserted localeCompare db document tsConfig chunks db' change) : db'.Valid := by
  cases hu with
  | unchanged row hrow hkey =>
    exact {
      documentIds := by
        rw [Table.map_update (f := DocumentRow.touch document) fun _ _ _ => rfl]
        exact h.documentIds
      documentKeys := by
        rw [Table.map_update (f := DocumentRow.touch document) fun _ _ _ => rfl]
        exact h.documentKeys
      chunkIds := h.chunkIds
      chunkDocument := fun c hc => by
        obtain ⟨d, hd, hid⟩ := h.chunkDocument c hc
        by_cases hne : d.id = row.id
        · exact ⟨_, Table.mem_update.mpr (.inl ⟨d, hd, hne, rfl⟩), hid⟩
        · exact ⟨d, Table.mem_update.mpr (.inr ⟨hd, hne⟩), hid⟩
      embeddingChunk := h.embeddingChunk
      kept := fun d hd => by
        rcases Table.mem_update.mp hd with ⟨x, hx, -, rfl⟩ | ⟨hd, -⟩
        · exact { h.kept x hx with }
        · exact h.kept d hd }
  | written db₁ id haccepted _ hw =>
    exact (hw.valid h haccepted).reconcileChunks ⟨_, hw.row, rfl⟩

theorem Upserted.cursors (hu : Upserted localeCompare db document tsConfig chunks db' change) :
    db'.cursors = db.cursors := by
  cases hu with
  | unchanged => rfl
  | written db₁ id _ _ hw => exact reconcile_beside.2.2.2.trans hw.beside.2.2.2

end HomelabApps.KnowledgeBase.Store
