import HomelabApps.KnowledgeBase.Store.SearchRepository
import HomelabApps.KnowledgeBase.Store.Valid
import Mathlib.Data.List.Find

universe u

namespace HomelabApps.KnowledgeBase.Store

open HomelabApps.Library
open HomelabApps.Library.Utf16

variable {Vector : Type u}

def Database.within (db : Database Vector) (kbs : List String) (c : ChunkRow) : Bool :=
  kbs.any (db.inKb · c)

def Database.embeddingWithin (db : Database Vector) (kbs : List String) (e : EmbeddingRow Vector) : Bool :=
  db.chunks.any fun c => c.id = e.chunkId && db.within kbs c

structure Agree (kbs : List String) (db db' : Database Vector) : Prop where
  documents : (db.documents.filter fun d => kbs.contains d.document.kb).Perm
    (db'.documents.filter fun d => kbs.contains d.document.kb)
  chunks : (db.chunks.filter (db.within kbs)).Perm (db'.chunks.filter (db'.within kbs))
  embeddings : (db.embeddings.filter (db.embeddingWithin kbs)).Perm
    (db'.embeddings.filter (db'.embeddingWithin kbs))

/-- The index takes the nearest of the rows it is asked for, and the rows themselves settle which of
two at one distance is first. -/
def VectorIndex.Exact (index : VectorIndex Vector) : Prop :=
  ∀ question, ∃ (nearer : EmbeddingRow Vector → EmbeddingRow Vector → Prop) (_ : DecidableRel nearer),
    Std.Total nearer ∧ IsTrans _ nearer ∧ Std.Antisymm nearer ∧
      (∀ a b, nearer a b → index.distance a.embedding question ≤ index.distance b.embedding question) ∧
      ∀ limit rows, index.scan question limit rows = (rows.insertionSort nearer).take limit

variable {db db' : Database Vector} {kbs group : List String} {ids : List Nat} {c : ChunkRow} {d : DocumentRow}
  {tsConfigs tsConfigs' : String → Option String} {search : TextSearch} {index : VectorIndex Vector}
  {question : Vector} {text : JsString} {terms : FullTextMatch} {filter : MetadataFilter} {limit : Nat}

theorem Agree.symm (h : Agree kbs db db') : Agree kbs db' db :=
  ⟨h.documents.symm, h.chunks.symm, h.embeddings.symm⟩

theorem Agree.mem_documents (h : Agree kbs db db') (hkb : d.document.kb ∈ kbs) :
    d ∈ db.documents ↔ d ∈ db'.documents := by
  have hmem := h.documents.mem_iff (a := d)
  rw [List.mem_filter, List.mem_filter, List.contains_iff_mem] at hmem
  exact (and_iff_left hkb).symm.trans (hmem.trans (and_iff_left hkb))

theorem documentOf_eq (h : db.Valid) (hd : d ∈ db.documents) (hid : d.id = c.documentId) :
    db.documentOf c = some d :=
  (@Table.find?_eq_some_iff _ _ DocumentRow.id _ _ db.documents _ h.documentIds.nodup).mpr ⟨hd, hid⟩

theorem within_of_documentOf (h : db.documentOf c = some d) (hkb : d.document.kb ∈ kbs) :
    db.within kbs c = true :=
  List.any_eq_true.mpr ⟨d.document.kb, hkb, inKb_of_documentOf h⟩

theorem documentOf_of_within (hvalid : db.Valid) (h : db.within kbs c = true) :
    ∃ d, db.documentOf c = some d ∧ d.document.kb ∈ kbs := by
  obtain ⟨kb, hkb, hin⟩ := List.any_eq_true.mp h
  simp only [Database.inKb, List.any_eq_true, Bool.and_eq_true, decide_eq_true_eq] at hin
  obtain ⟨d, hd, hid, rfl⟩ := hin
  exact ⟨d, documentOf_eq hvalid hd hid, hkb⟩

theorem Agree.documentOf (h : Agree kbs db db') (hvalid : db.Valid) (hvalid' : db'.Valid)
    (hwithin : db.within kbs c = true) : db'.documentOf c = db.documentOf c := by
  obtain ⟨d, hdocument, hkb⟩ := documentOf_of_within hvalid hwithin
  obtain ⟨hd, hid⟩ := documentOf_eq_some hdocument
  rw [hdocument, documentOf_eq hvalid' ((h.mem_documents hkb).mp hd) hid]

theorem Agree.mem_embeddings (h : Agree kbs db db') (hc : c ∈ db.chunks)
    (hwithin : db.within kbs c = true) {e : EmbeddingRow Vector} (he : e ∈ db.embeddings)
    (hid : c.id = e.chunkId) : e ∈ db'.embeddings := by
  have hmem : e ∈ db.embeddings.filter (db.embeddingWithin kbs) :=
    List.mem_filter.mpr ⟨he, List.any_eq_true.mpr ⟨c, hc, by simp [hid, hwithin]⟩⟩
  exact (List.mem_filter.mp (h.embeddings.mem_iff.mp hmem)).1

theorem Agree.mem_chunks (h : Agree kbs db db') (hc : c ∈ db.chunks) (hwithin : db.within kbs c = true) :
    c ∈ db'.chunks ∧ db'.within kbs c = true :=
  List.mem_filter.mp (h.chunks.mem_iff.mp (List.mem_filter.mpr ⟨hc, hwithin⟩))

theorem embedded_mono (h : Agree kbs db db') (hc : c ∈ db.chunks) (hwithin : db.within kbs c = true)
    {model : String} (hembedded : db.embedded c.id model = true) : db'.embedded c.id model = true := by
  obtain ⟨e, he, hkey⟩ := List.any_eq_true.mp hembedded
  have hid : e.chunkId = c.id := by simpa using (Bool.and_eq_true_iff.mp hkey).1
  exact List.any_eq_true.mpr ⟨e, h.mem_embeddings hc hwithin he hid.symm, hkey⟩

theorem Agree.embedded (h : Agree kbs db db') (hc : c ∈ db.chunks) (hwithin : db.within kbs c = true)
    (model : String) : db'.embedded c.id model = db.embedded c.id model := by
  obtain ⟨hc', hwithin'⟩ := h.mem_chunks hc hwithin
  exact Bool.eq_iff_iff.mpr ⟨embedded_mono h.symm hc' hwithin', embedded_mono h hc hwithin⟩

theorem filterMap_within {β : Type*} {f : ChunkRow → Option β}
    (hf : ∀ c ∈ db.chunks, ∀ b, f c = some b → db.within kbs c = true) :
    (db.chunks.filter (db.within kbs)).filterMap f = db.chunks.filterMap f := by
  rw [List.filterMap_filter]
  refine List.filterMap_congr fun c hc => ?_
  split
  · rfl
  · rename_i hwithin
    cases hrow : f c with
    | none => rfl
    | some b => exact absurd (hf c hc b hrow) hwithin

theorem Agree.filterMap {β : Type*} {f f' : ChunkRow → Option β} (h : Agree kbs db db')
    (hf : ∀ c ∈ db.chunks, ∀ b, f c = some b → db.within kbs c = true)
    (hf' : ∀ c ∈ db'.chunks, ∀ b, f' c = some b → db'.within kbs c = true)
    (hsame : ∀ c ∈ db.chunks, db.within kbs c = true → f c = f' c) :
    (db.chunks.filterMap f).Perm (db'.chunks.filterMap f') := by
  rw [← filterMap_within hf, ← filterMap_within hf']
  have heq : (db.chunks.filter (db.within kbs)).filterMap f =
      (db.chunks.filter (db.within kbs)).filterMap f' :=
    List.filterMap_congr fun c hc => hsame c (List.mem_filter.mp hc).1 (List.mem_filter.mp hc).2
  rw [heq]
  exact h.chunks.filterMap f'

theorem within_of_fullTextRow {withoutVectorFor : Option String} (hsub : group ⊆ kbs) {row : Found}
    (h : (do
      let d ← db.documentOf c
      let tsConfig ← tsConfigs d.document.kb
      if group.contains d.document.kb && search.isMatch terms tsConfig text c.fts &&
          withoutVectorFor.all (fun model => !db.embedded c.id model) && filter.accepts d.document.metadata then
        some (⟨c.id, search.rank terms tsConfig text c.fts⟩ : Found)
      else none) = some row) : db.within kbs c = true := by
  simp only [Option.bind_eq_bind, Option.bind_eq_some_iff, Option.ite_none_right_eq_some,
    Bool.and_eq_true] at h
  obtain ⟨d, hd, tsConfig, -, ⟨⟨⟨hkb, -⟩, -⟩, -⟩, -⟩ := h
  exact within_of_documentOf hd (hsub (List.contains_iff_mem.mp hkb))

theorem Agree.fullTextRows {withoutVectorFor : Option String} (h : Agree kbs db db') (hvalid : db.Valid)
    (hvalid' : db'.Valid) (hts : ∀ kb ∈ kbs, tsConfigs kb = tsConfigs' kb) (hsub : group ⊆ kbs) :
    (fullTextRows db tsConfigs search group text terms filter withoutVectorFor).Perm
      (fullTextRows db' tsConfigs' search group text terms filter withoutVectorFor) := by
  refine h.filterMap (fun c _ row hrow => within_of_fullTextRow hsub hrow)
    (fun c _ row hrow => within_of_fullTextRow hsub hrow) fun c hc hwithin => ?_
  obtain ⟨d, hd, hkb⟩ := documentOf_of_within hvalid hwithin
  have hall : withoutVectorFor.all (fun model => !db'.embedded c.id model) =
      withoutVectorFor.all (fun model => !db.embedded c.id model) := by
    cases withoutVectorFor with
    | none => rfl
    | some model => simp [h.embedded hc hwithin]
  rw [h.documentOf hvalid hvalid' hwithin, hd, hall]
  simp only [Option.bind_eq_bind, Option.bind_some]
  rw [hts _ hkb]

theorem insertionSort_eq {α : Type*} {r : α → α → Prop} [DecidableRel r] [Std.Total r] [IsTrans α r]
    (hanti : ∀ a b, r a b → r b a → a = b) {rows rows' : List α} (h : rows.Perm rows') :
    rows.insertionSort r = rows'.insertionSort r :=
  List.Perm.eq_of_pairwise (fun a b _ _ => hanti a b) (List.pairwise_insertionSort r rows)
    (List.pairwise_insertionSort r rows')
    ((List.perm_insertionSort r rows).trans (h.trans (List.perm_insertionSort r rows').symm))

theorem insertionSort_found {rows rows' : List Found} (h : rows.Perm rows') :
    rows.insertionSort (fun a b => b.rank < a.rank ∨ a.rank = b.rank ∧ a.id ≤ b.id) =
      rows'.insertionSort (fun a b => b.rank < a.rank ∨ a.rank = b.rank ∧ a.id ≤ b.id) := by
  let r : Found → Found → Prop := fun a b => b.rank < a.rank ∨ a.rank = b.rank ∧ a.id ≤ b.id
  have htotal : Std.Total r := ⟨fun a b => by
    rcases lt_trichotomy a.rank b.rank with hlt | heq | hgt
    · exact .inr (.inl hlt)
    · rcases Nat.le_total a.id b.id with hid | hid
      · exact .inl (.inr ⟨heq, hid⟩)
      · exact .inr (.inr ⟨heq.symm, hid⟩)
    · exact .inl (.inl hgt)⟩
  have htrans : IsTrans Found r := ⟨fun a b c hab hbc => by
    rcases hab with hab | ⟨hab, hid⟩
    · rcases hbc with hbc | ⟨hbc, -⟩
      · exact .inl (hbc.trans hab)
      · exact .inl (hbc ▸ hab)
    · rcases hbc with hbc | ⟨hbc, hid'⟩
      · exact .inl (hab ▸ hbc)
      · exact .inr ⟨hab.trans hbc, hid.trans hid'⟩⟩
  have hanti : ∀ a b : Found, r a b → r b a → a = b := by
    rintro ⟨i, x⟩ ⟨j, y⟩ (hab | ⟨hab, hid⟩) (hba | ⟨hba, hid'⟩)
    · exact absurd hba (lt_asymm hab)
    · exact absurd hab (hba ▸ lt_irrefl _)
    · exact absurd hba (hab ▸ lt_irrefl _)
    · exact congrArg₂ Found.mk (Nat.le_antisymm hid hid') hab
  exact insertionSort_eq hanti h

theorem Agree.fullText {withoutVectorFor : Option String} (h : Agree kbs db db') (hvalid : db.Valid)
    (hvalid' : db'.Valid) (hts : ∀ kb ∈ kbs, tsConfigs kb = tsConfigs' kb) (hsub : group ⊆ kbs) :
    fullText db tsConfigs search group text terms filter limit withoutVectorFor =
      fullText db' tsConfigs' search group text terms filter limit withoutVectorFor := by
  simp only [Store.fullText]
  rw [insertionSort_found (h.fullTextRows hvalid hvalid' hts hsub)]

theorem within_of_vectorRow {e : EmbeddingRow Vector} {model : String} (hsub : group ⊆ kbs)
    (h : e ∈ vectorRows db group model filter) : db.embeddingWithin kbs e = true := by
  obtain ⟨-, -, c, hc, hid, d, hd, hkb, -⟩ := mem_vectorRows.mp h
  refine List.any_eq_true.mpr ⟨c, hc, Bool.and_eq_true_iff.mpr ⟨decide_eq_true hid, ?_⟩⟩
  exact within_of_documentOf hd (hsub (List.contains_iff_mem.mp hkb))

theorem vectorRow_mono {e : EmbeddingRow Vector} (h : Agree kbs db db') (hvalid : db.Valid)
    (hvalid' : db'.Valid) (hsub : group ⊆ kbs)
    (hrow : db.chunks.any (fun c => c.id = e.chunkId && (db.documentOf c).any fun d =>
      group.contains d.document.kb && filter.accepts d.document.metadata) = true) :
    db'.chunks.any (fun c => c.id = e.chunkId && (db'.documentOf c).any fun d =>
      group.contains d.document.kb && filter.accepts d.document.metadata) = true := by
  obtain ⟨c, hc, hrow⟩ := List.any_eq_true.mp hrow
  obtain ⟨hid, hrow⟩ := Bool.and_eq_true_iff.mp hrow
  obtain ⟨d, hd, hrow⟩ := (Option.any_eq_true ..).mp hrow
  have hkb : d.document.kb ∈ group := List.contains_iff_mem.mp (Bool.and_eq_true_iff.mp hrow).1
  have hwithin : db.within kbs c = true := within_of_documentOf hd (hsub hkb)
  refine List.any_eq_true.mpr ⟨c, (h.mem_chunks hc hwithin).1, Bool.and_eq_true_iff.mpr ⟨hid, ?_⟩⟩
  rw [h.documentOf hvalid hvalid' hwithin, hd]
  exact hrow

theorem vectorRows_within {model : String} (hsub : group ⊆ kbs) :
    (db.embeddings.filter (db.embeddingWithin kbs)).filter (fun e =>
      e.model = model && db.chunks.any fun c => c.id = e.chunkId && (db.documentOf c).any fun d =>
        group.contains d.document.kb && filter.accepts d.document.metadata) =
      vectorRows db group model filter := by
  rw [List.filter_filter]
  refine List.filter_congr fun e he => ?_
  refine Bool.eq_iff_iff.mpr ⟨fun h => (Bool.and_eq_true_iff.mp h).1, fun h => ?_⟩
  exact Bool.and_eq_true_iff.mpr ⟨h, within_of_vectorRow hsub (List.mem_filter.mpr ⟨he, h⟩)⟩

theorem Agree.vectorRows {model : String} (h : Agree kbs db db') (hvalid : db.Valid)
    (hvalid' : db'.Valid) (hsub : group ⊆ kbs) :
    (Store.vectorRows db group model filter).Perm (Store.vectorRows db' group model filter) := by
  rw [← vectorRows_within hsub, ← vectorRows_within hsub]
  have hsame : ∀ e : EmbeddingRow Vector,
      db.chunks.any (fun c => c.id = e.chunkId && (db.documentOf c).any fun d =>
        group.contains d.document.kb && filter.accepts d.document.metadata) =
      db'.chunks.any (fun c => c.id = e.chunkId && (db'.documentOf c).any fun d =>
        group.contains d.document.kb && filter.accepts d.document.metadata) := fun e =>
    Bool.eq_iff_iff.mpr ⟨vectorRow_mono h hvalid hvalid' hsub, vectorRow_mono h.symm hvalid' hvalid hsub⟩
  simp only [hsame]
  exact h.embeddings.filter _

theorem VectorIndex.Exact.scan (h : index.Exact) {rows rows' : List (EmbeddingRow Vector)}
    (hperm : rows.Perm rows') : index.scan question limit rows = index.scan question limit rows' := by
  obtain ⟨nearer, _, htotal, htrans, hanti, -, hscan⟩ := h question
  rw [hscan, hscan, insertionSort_eq (fun a b => hanti.antisymm a b) hperm]

theorem Agree.vector {model : String} (h : Agree kbs db db') (hvalid : db.Valid)
    (hvalid' : db'.Valid) (hexact : index.Exact) (hsub : group ⊆ kbs) {nearest : Vector} :
    Store.vector db index group model nearest filter limit =
      Store.vector db' index group model nearest filter limit := by
  simp only [Store.vector]
  rw [hexact.scan (h.vectorRows hvalid hvalid' hsub)]

theorem demoted_mono (h : Agree kbs db db') (hkb : d.document.kb ∈ kbs) (hdemoted : demoted db d = true) :
    demoted db' d = true := by
  rcases Bool.or_eq_true_iff.mp hdemoted with habandoned | hsuperseded
  · exact Bool.or_eq_true_iff.mpr (.inl habandoned)
  · obtain ⟨other, hother, hnames⟩ := List.any_eq_true.mp hsuperseded
    have hsame : other.document.kb = d.document.kb := by
      simpa using (Bool.and_eq_true_iff.mp (Bool.and_eq_true_iff.mp hnames).1).1
    have hmem : other ∈ db'.documents := (h.mem_documents (hsame ▸ hkb)).mp hother
    exact Bool.or_eq_true_iff.mpr (.inr (List.any_eq_true.mpr ⟨other, hmem, hnames⟩))

theorem Agree.hitOf (h : Agree kbs db db') (hvalid : db.Valid) (hvalid' : db'.Valid)
    (hts : ∀ kb ∈ kbs, tsConfigs kb = tsConfigs' kb) (hwithin : db.within kbs c = true) :
    Store.hitOf db tsConfigs search text c = Store.hitOf db' tsConfigs' search text c := by
  obtain ⟨d, hd, hkb⟩ := documentOf_of_within hvalid hwithin
  have hdemoted : demoted db d = demoted db' d :=
    Bool.eq_iff_iff.mpr ⟨demoted_mono h hkb, demoted_mono h.symm hkb⟩
  simp only [Store.hitOf, h.documentOf hvalid hvalid' hwithin, hd, Option.bind_eq_bind, Option.bind_some,
    hts _ hkb, hdemoted]

theorem id_of_hitOf {hit : SearchHitDTO} (h : hitOf db tsConfigs search text c = some hit) :
    hit.id = c.id ∧ db.inKb hit.kb c = true := by
  simp only [hitOf, Option.bind_eq_bind, Option.bind_eq_some_iff] at h
  obtain ⟨d, hd, tsConfig, -, h⟩ := h
  obtain rfl := Option.some.inj h
  exact ⟨rfl, inKb_of_documentOf hd⟩

theorem nodup_details {hits : List SearchHitDTO} (hvalid : db.Valid)
    (h : details db tsConfigs search ids text = some hits) : (hits.map (·.id)).Nodup := by
  unfold details at h
  split at h
  · obtain rfl := Option.some.inj h
    exact List.nodup_nil
  · obtain ⟨-, hhits⟩ := Option.ite_none_right_eq_some.mp h
    obtain rfl := Option.some.inj hhits
    have hkeys : (db.chunks.filter (ids.contains ·.id)).Pairwise fun c c' => c.id ≠ c'.id :=
      List.pairwise_map.mp (Table.nodup_filter hvalid.chunkIds.nodup)
    refine List.pairwise_map.mpr (hkeys.filterMap _ fun c c' hne hit hhit hit' hhit' => ?_)
    rw [(id_of_hitOf hhit).1, (id_of_hitOf hhit').1]
    exact hne

theorem Agree.details (h : Agree kbs db db') (hvalid : db.Valid) (hvalid' : db'.Valid)
    (hts : ∀ kb ∈ kbs, tsConfigs kb = tsConfigs' kb)
    (hids : ∀ id ∈ ids, ∃ c ∈ db.chunks, c.id = id ∧ db.within kbs c = true) :
    Option.Rel List.Perm (Store.details db tsConfigs search ids text)
      (Store.details db' tsConfigs' search ids text) := by
  simp only [Store.details]
  split
  · exact .some (List.Perm.refl [])
  · split
    · refine .some ?_
      rw [List.filterMap_filter, List.filterMap_filter]
      have hwithin : ∀ {db : Database Vector}, db.Valid →
          (∀ id ∈ ids, ∃ c ∈ db.chunks, c.id = id ∧ db.within kbs c = true) →
          ∀ c ∈ db.chunks, ids.contains c.id = true → db.within kbs c = true := by
        intro db hvalid hids c hc hid
        obtain ⟨c', hc', hsame, hwithin⟩ := hids c.id (List.contains_iff_mem.mp hid)
        exact Table.eq_of_key hvalid.chunkIds.nodup hc' hc hsame ▸ hwithin
      have hids' : ∀ id ∈ ids, ∃ c ∈ db'.chunks, c.id = id ∧ db'.within kbs c = true := by
        intro id hid
        obtain ⟨c, hc, hsame, hwithin⟩ := hids id hid
        obtain ⟨hc', hwithin'⟩ := h.mem_chunks hc hwithin
        exact ⟨c, hc', hsame, hwithin'⟩
      refine h.filterMap (fun c hc hit hhit => ?_) (fun c hc hit hhit => ?_) fun c hc hc' => ?_
      · exact hwithin hvalid hids c hc (Option.ite_none_right_eq_some.mp hhit).1
      · exact hwithin hvalid' hids' c hc (Option.ite_none_right_eq_some.mp hhit).1
      · rw [h.hitOf hvalid hvalid' hts hc']
    · exact .none

end HomelabApps.KnowledgeBase.Store
