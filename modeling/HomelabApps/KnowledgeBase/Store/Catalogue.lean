import HomelabApps.KnowledgeBase.Store.Reused

universe u

namespace HomelabApps.KnowledgeBase.Store

open HomelabApps.Library
open HomelabApps.Library.Utf16

variable {Vector : Type u} {db db' : Database Vector} {kb kb' : String} {x y : JsString}
  {document : DocumentDTO} {tsConfig : String} {chunks : List ChunkDTO} {change : DocumentChange}
  {localeCompare : JsString → JsString → Ordering}

structure Entry where
  document : DocumentDTO
  hashes : List JsString

def Database.hashes (db : Database Vector) (documentId : Nat) : List JsString :=
  (db.chunksOf documentId).map (·.chunk.hash)

def Database.entry (db : Database Vector) (kb : String) (externalId : JsString) : Option Entry :=
  (db.findDocument kb externalId).map fun d => ⟨d.document, db.hashes d.id⟩

def DocumentDTO.touched (stored document : DocumentDTO) : DocumentDTO :=
  { stored with
    version := toWellFormed document.version
    url := document.url.map toWellFormed }

def Entry.upsert (localeCompare : JsString → JsString → Ordering) (document : DocumentDTO)
    (hashes : List JsString) : Option Entry → Entry
  | none => ⟨document.stored, hashes⟩
  | some e =>
    if sameDocument localeCompare e.document document = some true ∧ e.hashes = hashes then
      ⟨e.document.touched document, hashes⟩
    else ⟨document.stored, hashes⟩

theorem entry_eq_some (h : db.Valid) {e : Entry} : db.entry kb x = some e ↔
    ∃ d ∈ db.documents, d.key = (kb, toWellFormed x) ∧ e = ⟨d.document, db.hashes d.id⟩ := by
  rw [Database.entry, Option.map_eq_some_iff]
  constructor
  · rintro ⟨d, hd, rfl⟩
    obtain ⟨hd, hkey⟩ := (findDocument_eq_some_iff h).mp hd
    exact ⟨d, hd, hkey, rfl⟩
  · rintro ⟨d, hd, hkey, rfl⟩
    exact ⟨d, (findDocument_eq_some_iff h).mpr ⟨hd, hkey⟩, rfl⟩

theorem entry_eq_none : db.entry kb x = none ↔ ∀ d ∈ db.documents, d.key ≠ (kb, toWellFormed x) := by
  rw [Database.entry, Option.map_eq_none_iff, findDocument_eq_none_iff]

theorem entry_of_row (kb : String) (x : JsString) (h : db.Valid) {d : DocumentRow} (hd : d ∈ db.documents)
    (hkey : d.key = (kb, toWellFormed x)) : db.entry kb x = some ⟨d.document, db.hashes d.id⟩ :=
  (entry_eq_some h).mpr ⟨d, hd, hkey, rfl⟩

theorem entry_congr (h : db.Valid) (h' : db'.Valid)
    (hrows : ∀ d : DocumentRow, d.key = (kb, toWellFormed x) → (d ∈ db'.documents ↔ d ∈ db.documents))
    (hhashes : ∀ d ∈ db.documents, d.key = (kb, toWellFormed x) → db'.hashes d.id = db.hashes d.id) :
    db'.entry kb x = db.entry kb x := by
  cases hentry : db.entry kb x with
  | none =>
    rw [entry_eq_none] at hentry ⊢
    exact fun d hd hkey => hentry d ((hrows d hkey).mp hd) hkey
  | some e =>
    obtain ⟨d, hd, hkey, rfl⟩ := (entry_eq_some h).mp hentry
    rw [← hhashes d hd hkey]
    exact entry_of_row _ _ h' ((hrows d hkey).mpr hd) hkey

theorem hashes_congr {documentId : Nat}
    (h : db'.chunks.filter (·.documentId = documentId) = db.chunks.filter (·.documentId = documentId)) :
    db'.hashes documentId = db.hashes documentId := by
  simp only [Database.hashes, Database.chunksOf, h]

theorem filter_of_others {documentId id : Nat} (hne : documentId ≠ id)
    (h : db'.chunks.filter (·.documentId ≠ id) = db.chunks.filter (·.documentId ≠ id)) :
    db'.chunks.filter (·.documentId = documentId) = db.chunks.filter (·.documentId = documentId) := by
  have hfilter : ∀ rows : List ChunkRow, rows.filter (·.documentId = documentId) =
      (rows.filter (·.documentId ≠ id)).filter (·.documentId = documentId) := by
    intro rows
    rw [List.filter_filter]
    refine List.filter_congr fun c _ => ?_
    by_cases hc : c.documentId = documentId
    · simp [hc, hne]
    · simp [hc]
  rw [hfilter db'.chunks, hfilter db.chunks, h]

theorem hashes_reconcileChunks {documentId : Nat} {title : Option JsString}
    (h : FreshIds db.chunkIds db.nextChunk) (hord : chunks.map (·.ord) = List.range chunks.length)
    (hhash : ∀ c ∈ chunks, toWellFormed c.hash = c.hash) :
    (reconcileChunks db documentId tsConfig title chunks).hashes documentId = chunks.map (·.hash) := by
  rw [Database.hashes, chunksOf_reconcileChunks h hord,
    map_writtenRow (g := fun c => toWellFormed c.hash) (fun _ _ => rfl) length_writtenIds]
  exact List.map_congr_left hhash

theorem entry_upserted_self (h : db.Valid) (hord : chunks.map (·.ord) = List.range chunks.length)
    (hhash : ∀ c ∈ chunks, toWellFormed c.hash = c.hash)
    (hu : Upserted localeCompare db document tsConfig chunks db' change) :
    db'.entry document.kb document.externalId = some ((Entry.upsert localeCompare document
      (chunks.map (·.hash)) (db.entry document.kb document.externalId))) := by
  have hvalid := h.upserted hu
  cases hu with
  | unchanged row hrow hkey hsame hhashes =>
    have hmem : row.touch document ∈ Table.update DocumentRow.id row.id (DocumentRow.touch document)
        db.documents := Table.mem_update.mpr (.inl ⟨row, hrow, rfl, rfl⟩)
    rw [entry_of_row _ _ h hrow hkey, entry_of_row _ _ hvalid hmem hkey, Entry.upsert, if_pos ⟨hsame, hhashes⟩]
    exact congrArg some (congrArg _ hhashes)
  | written db₁ id haccepted _ hw hchanged =>
    have hfresh := (hw.valid h haccepted).chunkIds
    have hmem : ⟨id, document.stored⟩ ∈
        (reconcileChunks db₁ id tsConfig document.title chunks).documents := by
      rw [reconcileChunks_documents]
      exact hw.row
    have hself := entry_of_row document.kb document.externalId hvalid hmem rfl
    rw [hself, hashes_reconcileChunks hfresh hord hhash]
    cases hentry : db.entry document.kb document.externalId with
    | none => rfl
    | some e =>
      obtain ⟨row, hrow, hkey, rfl⟩ := (entry_eq_some h).mp hentry
      rw [Entry.upsert, if_neg]
      rintro ⟨hsame, hhashes⟩
      rcases hchanged row hrow hkey with hfalse | hne
      · simp [hfalse] at hsame
      · exact hne hhashes

theorem entry_upserted_ne (h : db.Valid) (hne : (kb, toWellFormed x) ≠ document.key)
    (hu : Upserted localeCompare db document tsConfig chunks db' change) :
    db'.entry kb x = db.entry kb x := by
  have hvalid := h.upserted hu
  cases hu with
  | unchanged row hrow hkey =>
    refine entry_congr h hvalid (fun d hd => ?_) fun d _ _ => rfl
    rw [Table.mem_update]
    constructor
    · rintro (⟨x, hx, hid, rfl⟩ | ⟨hmem, -⟩)
      · rw [Table.eq_of_key h.documentIds.nodup hx hrow hid] at hd
        exact absurd (hd.symm.trans hkey) hne
      · exact hmem
    · intro hmem
      refine .inr ⟨hmem, fun hid => hne ?_⟩
      rw [← hd, Table.eq_of_key h.documentIds.nodup hmem hrow hid, hkey]
  | written db₁ id haccepted _ hw =>
    have hvalid₁ := hw.valid h haccepted
    have hrow : ∀ d ∈ db.documents, d.key = (kb, toWellFormed x) → d ∈ db₁.documents ∧ d.id ≠ id :=
      fun d hd hkey => hw.of_ne h hd (hkey ▸ hne)
    refine entry_congr h hvalid (fun d hkey => ?_) fun d hd hkey => ?_
    · rw [reconcileChunks_documents]
      refine ⟨fun hmem => ?_, fun hmem => (hrow d hmem hkey).1⟩
      refine (hw.of_mem hmem).resolve_left fun ⟨_, hstored⟩ => hne ?_
      rw [← hkey, DocumentRow.key, hstored]
      rfl
    · have hothers := reconcileChunks_others id tsConfig document.title chunks hvalid₁.chunkIds
      rw [hw.beside.1] at hothers
      exact hashes_congr (filter_of_others (hrow d hd hkey).2 hothers)

theorem entry_deleteDocuments {q : DocumentRow → Bool} (h : db.Valid) :
    (db.deleteDocuments q).entry kb x =
      if ∃ d ∈ db.documents, d.key = (kb, toWellFormed x) ∧ q d then none else db.entry kb x := by
  split
  · rename_i hq
    obtain ⟨d, hd, hkey, hq⟩ := hq
    refine entry_eq_none.mpr fun d' hd' hkey' => ?_
    obtain ⟨hd', hq'⟩ := mem_deleteDocuments_documents.mp hd'
    rw [Table.eq_of_key h.documentKeys hd' hd (hkey'.trans hkey.symm), hq] at hq'
    cases hq'
  · rename_i hq
    have hkept : ∀ d ∈ db.documents, d.key = (kb, toWellFormed x) → q d = false := fun d hd hkey => by
      simpa using fun hqd => hq ⟨d, hd, hkey, hqd⟩
    refine entry_congr h h.deleteDocuments (fun d hkey => ?_) fun d hd hkey => hashes_congr ?_
    · rw [mem_deleteDocuments_documents]
      exact ⟨And.left, fun hmem => ⟨hmem, hkept d hmem hkey⟩⟩
    · simp only [Database.deleteDocuments, Database.deleteChunks, List.filter_filter]
      refine List.filter_congr fun c _ => Bool.eq_iff_iff.mpr ?_
      simp only [Bool.and_eq_true, decide_eq_true_eq, Bool.not_eq_true', List.any_eq_false,
        Bool.and_eq_true, not_and, Bool.not_eq_true, and_iff_left_iff_imp]
      intro hid d' hd' hid'
      rw [Table.eq_of_key h.documentIds.nodup hd' hd (hid'.trans hid)]
      exact hkept d hd hkey

theorem entry_deleteByIds {r : JsString → Bool} (h : db.Valid) :
    (db.deleteDocuments fun d => d.document.kb = kb && r d.document.externalId).entry kb x =
      if r (toWellFormed x) then none else db.entry kb x := by
  have hkey : ∀ d : DocumentRow, d.key = (kb, toWellFormed x) →
      ((d.document.kb = kb && r d.document.externalId) = r (toWellFormed x)) := by
    intro d hd
    rw [DocumentRow.key, Prod.mk.injEq] at hd
    simp [hd.1, hd.2]
  rw [entry_deleteDocuments h]
  split
  · rename_i hdeleted
    obtain ⟨d, -, hd, hr⟩ := hdeleted
    rw [if_pos (hkey d hd ▸ hr)]
  · rename_i hkept
    split
    · rename_i hr
      exact entry_eq_none.mpr fun d hd hdkey => hkept ⟨d, hd, hdkey, (hkey d hdkey).trans hr⟩
    · rfl

theorem entry_insertEmbeddings {rows : List (EmbeddingRow Vector)} :
    (db.insertEmbeddings rows).entry kb x = db.entry kb x := by
  obtain ⟨added, -, heq⟩ := insertEmbeddings_eq db rows
  rw [heq]
  rfl

end HomelabApps.KnowledgeBase.Store
