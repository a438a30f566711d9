import HomelabApps.KnowledgeBase.Store.DocumentRepository

universe u

namespace HomelabApps.KnowledgeBase.Store

open HomelabApps.Library
open HomelabApps.Library.Utf16

variable {Vector : Type u} {db db' : Database Vector} {documentId : Nat} {tsConfig : String}
  {title : Option JsString} {chunk : ChunkDTO} {chunks : List ChunkDTO} {rows reusable stale : List ChunkRow}
  {row : ChunkRow} {rest : List ChunkRow} {hash : JsString}

theorem takeHash_perm (h : takeHash hash rows = some (row, rest)) : rows.Perm (row :: rest) := by
  induction rows generalizing row rest with
  | nil => cases h
  | cons r rows ih =>
    rw [takeHash] at h
    split at h
    · cases h
      exact List.Perm.refl _
    · obtain ⟨⟨found, others⟩, htake, he⟩ := Option.map_eq_some_iff.mp h
      cases he
      exact ((ih htake).cons r).trans (List.Perm.swap _ _ _)

theorem takeHash_hash (h : takeHash hash rows = some (row, rest)) : row.chunk.hash = hash := by
  induction rows generalizing row rest with
  | nil => cases h
  | cons r rows ih =>
    rw [takeHash] at h
    split at h
    · cases h
      assumption
    · obtain ⟨⟨found, others⟩, htake, he⟩ := Option.map_eq_some_iff.mp h
      cases he
      exact ih htake

structure FreshIds (ids : List Nat) (next : Nat) : Prop where
  nodup : ids.Nodup
  lt_next : ∀ id ∈ ids, id < next

theorem FreshIds.snoc {ids : List Nat} {next : Nat} (h : FreshIds ids next) :
    FreshIds (ids ++ [next]) (next + 1) where
  nodup := h.nodup.append (List.nodup_singleton _) fun id hid hnext =>
    Nat.lt_irrefl next (List.mem_singleton.mp hnext ▸ h.lt_next id hid)
  lt_next id hid := by
    rcases List.mem_append.mp hid with hid | hid
    · exact Nat.lt_succ_of_lt (h.lt_next id hid)
    · simp [List.mem_singleton.mp hid]

theorem FreshIds.sublist {ids ids' : List Nat} {next : Nat} (h : FreshIds ids next)
    (hsub : ids'.Sublist ids) : FreshIds ids' next where
  nodup := h.nodup.sublist hsub
  lt_next id hid := h.lt_next id (hsub.subset hid)

def Database.chunkIds (db : Database Vector) : List Nat := db.chunks.map (·.id)

@[simp] theorem updateChunk_chunkIds {id : Nat} {fts : Fts} :
    (db.updateChunk id fts chunk).chunkIds = db.chunkIds :=
  Table.map_update fun _ _ _ => rfl

@[simp] theorem insertChunk_chunkIds {fts : Fts} :
    (db.insertChunk documentId fts chunk).chunkIds = db.chunkIds ++ [db.nextChunk] := by
  simp [Database.chunkIds, Database.insertChunk]

inductive Turn (documentId : Nat) (tsConfig : String) (title : Option JsString) (chunk : ChunkDTO)
    (reusable : List ChunkRow) (db : Database Vector) : Database Vector → List ChunkRow → Prop
  | insert : takeHash chunk.hash reusable = none →
      Turn documentId tsConfig title chunk reusable db
        (db.insertChunk documentId (ftsOf tsConfig title chunk) chunk) reusable
  | reuse (row : ChunkRow) (rest : List ChunkRow) : reusable.Perm (row :: rest) →
      row.chunk.hash = chunk.hash →
      Turn documentId tsConfig title chunk reusable db
        (db.updateChunk row.id (ftsOf tsConfig title chunk) chunk) rest

theorem reconcile_cons : ∃ db' rest, Turn documentId tsConfig title chunk reusable db db' rest ∧
    reconcile documentId tsConfig title (chunk :: chunks) reusable db =
      reconcile documentId tsConfig title chunks rest db' := by
  rw [reconcile]
  cases htake : takeHash chunk.hash reusable with
  | none => exact ⟨_, _, .insert htake, rfl⟩
  | some found =>
    obtain ⟨row, rest⟩ := found
    exact ⟨_, _, .reuse row rest (takeHash_perm htake) (takeHash_hash htake), rfl⟩

theorem reconcile_induction {motive : Database Vector → List ChunkRow → Prop}
    (hturn : ∀ chunk ∈ chunks, ∀ db reusable db' rest,
      Turn documentId tsConfig title chunk reusable db db' rest → motive db reusable → motive db' rest)
    (h : motive db reusable) :
    motive (reconcile documentId tsConfig title chunks reusable db).1
      (reconcile documentId tsConfig title chunks reusable db).2 := by
  induction chunks generalizing db reusable with
  | nil => exact h
  | cons chunk chunks ih =>
    obtain ⟨db', rest, ht, heq⟩ := @reconcile_cons _ db documentId tsConfig title chunk chunks reusable
    rw [heq]
    exact ih (fun c hc => hturn c (List.mem_cons_of_mem _ hc))
      (hturn chunk List.mem_cons_self db reusable db' rest ht h)

def SameBesideChunks (db db' : Database Vector) : Prop :=
  db'.documents = db.documents ∧ db'.nextDocument = db.nextDocument ∧ db'.embeddings = db.embeddings ∧
    db'.cursors = db.cursors

theorem reconcile_beside :
    SameBesideChunks db (reconcile documentId tsConfig title chunks reusable db).1 :=
  reconcile_induction (motive := fun db' _ => SameBesideChunks db db')
    (fun _ _ _ _ _ _ ht h => by cases ht <;> exact h) ⟨rfl, rfl, rfl, rfl⟩

theorem reconcile_freshIds (h : FreshIds db.chunkIds db.nextChunk) :
    FreshIds (reconcile documentId tsConfig title chunks reusable db).1.chunkIds
      (reconcile documentId tsConfig title chunks reusable db).1.nextChunk := by
  refine reconcile_induction (motive := fun db' _ => FreshIds db'.chunkIds db'.nextChunk) ?_ h
  intro chunk _ db reusable db' rest ht h
  cases ht with
  | insert =>
    rw [insertChunk_chunkIds]
    exact h.snoc
  | reuse =>
    rw [updateChunk_chunkIds]
    exact h

theorem reconcile_nextChunk :
    db.nextChunk ≤ (reconcile documentId tsConfig title chunks reusable db).1.nextChunk := by
  refine reconcile_induction (motive := fun db' _ => db.nextChunk ≤ db'.nextChunk) ?_ (Nat.le_refl _)
  intro chunk _ db₁ old db₂ rest ht h
  cases ht with
  | insert => exact Nat.le_succ_of_le h
  | reuse => exact h

theorem reconcile_stale :
    (reconcile documentId tsConfig title chunks reusable db).2.Subperm reusable := by
  refine reconcile_induction (motive := fun _ stale => stale.Subperm reusable) ?_ (List.Subperm.refl _)
  intro chunk _ db old db' rest ht h
  cases ht with
  | insert => exact h
  | reuse row rest hperm => exact ((List.sublist_cons_self row rest).subperm.trans hperm.symm.subperm).trans h

def HashKept (rows : List ChunkRow) (next : Nat) (rows' : List ChunkRow) : Prop :=
  ∀ c' ∈ rows', next ≤ c'.id ∨
    ∃ c ∈ rows, c.id = c'.id ∧ c.documentId = c'.documentId ∧ c.chunk.hash = c'.chunk.hash

theorem reconcile_hashKept (documentId : Nat) (tsConfig : String) (title : Option JsString)
    (hhash : ∀ c ∈ chunks, toWellFormed c.hash = c.hash)
    (hids : FreshIds db.chunkIds db.nextChunk) (hrows : reusable ⊆ db.chunks) :
    HashKept db.chunks db.nextChunk
      (reconcile documentId tsConfig title chunks reusable db).1.chunks := by
  -- the rows not reused yet are still there as they were
  have h := @reconcile_induction _ db documentId tsConfig title chunks reusable
    (fun db' reusable' => FreshIds db'.chunkIds db'.nextChunk ∧ db.nextChunk ≤ db'.nextChunk ∧
      HashKept db.chunks db.nextChunk db'.chunks ∧ reusable' ⊆ reusable) ?_
    ⟨hids, Nat.le_refl _, fun c hc => .inr ⟨c, hc, rfl, rfl, rfl⟩, List.Subset.refl _⟩
  · exact h.2.2.1
  intro chunk hchunk db₁ reusable₁ db₂ rest ht ⟨hids₁, hnext, hkept, hsub⟩
  cases ht with
  | insert =>
    refine ⟨by rw [insertChunk_chunkIds]; exact hids₁.snoc, Nat.le_succ_of_le hnext, ?_, hsub⟩
    intro c hc
    rcases List.mem_append.mp hc with hc | hc
    · exact hkept c hc
    · rw [List.mem_singleton.mp hc]
      exact .inl hnext
  | reuse row _ hperm heq =>
    refine ⟨by rw [updateChunk_chunkIds]; exact hids₁, hnext, ?_, ?_⟩
    · intro c' hc'
      rcases Table.mem_update.mp hc' with ⟨c, hc, hid, rfl⟩ | ⟨hc', -⟩
      · rcases hkept c hc with hnew | ⟨c₀, hc₀, hid₀, hdoc₀, -⟩
        · exact .inl hnew
        · have hrow : row ∈ db.chunks := hrows (hsub (hperm.mem_iff.mpr List.mem_cons_self))
          have hc₀ : c₀ = row := Table.eq_of_key hids.nodup hc₀ hrow (hid₀.trans hid)
          refine .inr ⟨c₀, hc₀ ▸ hrow, hid₀, hdoc₀, ?_⟩
          rw [hc₀, heq]
          exact (hhash chunk hchunk).symm
      · exact hkept c' hc'
    · exact fun c hc => hsub (hperm.mem_iff.mpr (List.mem_cons_of_mem _ hc))

def settled (db : Database Vector) (documentId : Nat) (reusable : List ChunkRow) : List ChunkRow :=
  db.chunks.filter fun c => c.documentId = documentId && !(reusable.map (·.id)).contains c.id

def ChunkRow.payload (c : ChunkRow) : ChunkDTO × Fts := (c.chunk, c.fts)

def ChunkDTO.payload (tsConfig : String) (title : Option JsString) (chunk : ChunkDTO) : ChunkDTO × Fts :=
  (chunk.stored, ftsOf tsConfig title chunk)

structure Reusable (db : Database Vector) (documentId : Nat) (reusable : List ChunkRow) : Prop where
  fresh : FreshIds db.chunkIds db.nextChunk
  nodup : (reusable.map (·.id)).Nodup
  ofDocument : ∀ r ∈ reusable, ∃ c ∈ db.chunks, c.id = r.id ∧ c.documentId = documentId

theorem Reusable.id_ne (h : Reusable db documentId reusable) :
    db.nextChunk ∉ reusable.map (·.id) := by
  intro hmem
  obtain ⟨r, hr, hid⟩ := List.mem_map.mp hmem
  obtain ⟨c, hc, hcr, -⟩ := h.ofDocument r hr
  have := h.fresh.lt_next c.id (List.mem_map_of_mem hc)
  omega

theorem Reusable.turn (h : Reusable db documentId reusable)
    (ht : Turn documentId tsConfig title chunk reusable db db' rest) : Reusable db' documentId rest := by
  cases ht with
  | insert =>
    refine ⟨by rw [insertChunk_chunkIds]; exact h.fresh.snoc, h.nodup, fun r hr => ?_⟩
    obtain ⟨c, hc, hid⟩ := h.ofDocument r hr
    exact ⟨c, List.mem_append_left _ hc, hid⟩
  | reuse row _ hperm =>
    have hnodup := (hperm.map (·.id)).nodup_iff.mp h.nodup
    rw [List.map_cons, List.nodup_cons] at hnodup
    refine ⟨by rw [updateChunk_chunkIds]; exact h.fresh, hnodup.2, fun r hr => ?_⟩
    obtain ⟨c, hc, hid, hdoc⟩ := h.ofDocument r (hperm.mem_iff.mpr (List.mem_cons_of_mem _ hr))
    have hne : c.id ≠ row.id := fun heq => hnodup.1 (List.mem_map.mpr ⟨r, hr, hid ▸ heq⟩)
    exact ⟨c, Table.mem_update.mpr (.inr ⟨hc, hne⟩), hid, hdoc⟩

def writtenRow (documentId : Nat) (tsConfig : String) (title : Option JsString) (id : Nat)
    (chunk : ChunkDTO) : ChunkRow :=
  ⟨id, documentId, chunk.stored, ftsOf tsConfig title chunk⟩

def writtenIds : Nat → List ChunkDTO → List ChunkRow → List Nat
  | _, [], _ => []
  | next, chunk :: chunks, reusable =>
    match takeHash chunk.hash reusable with
    | none => next :: writtenIds (next + 1) chunks reusable
    | some (row, rest) => row.id :: writtenIds next chunks rest

theorem settled_insert (h : Reusable db documentId reusable) :
    settled (db.insertChunk documentId (ftsOf tsConfig title chunk) chunk) documentId reusable =
      settled db documentId reusable ++ [writtenRow documentId tsConfig title db.nextChunk chunk] := by
  have hid := h.id_ne
  simp only [settled, Database.insertChunk, List.filter_append]
  rw [List.filter_cons_of_pos (by simpa using hid)]
  rfl

theorem settled_update (h : Reusable db documentId reusable) (hperm : reusable.Perm (row :: rest)) :
    (settled (db.updateChunk row.id (ftsOf tsConfig title chunk) chunk) documentId rest).Perm
      (settled db documentId reusable ++ [writtenRow documentId tsConfig title row.id chunk]) := by
  obtain ⟨c, hc, hid, hdoc⟩ := h.ofDocument row (hperm.mem_iff.mpr List.mem_cons_self)
  have hnodup := (hperm.map (·.id)).nodup_iff.mp h.nodup
  rw [List.map_cons, List.nodup_cons] at hnodup
  have hmem : ∀ id, id ∈ reusable.map (·.id) ↔ id = row.id ∨ id ∈ rest.map (·.id) := by
    intro id
    rw [(hperm.map (·.id)).mem_iff, List.map_cons, List.mem_cons]
  have hfilter := Table.filter_update_perm (k := row.id)
    (f := fun c : ChunkRow => { c with chunk := chunk.stored, fts := ftsOf tsConfig title chunk })
    (p := fun c => c.documentId = documentId && !(reusable.map (·.id)).contains c.id)
    (q := fun c => c.documentId = documentId && !(rest.map (·.id)).contains c.id)
    h.fresh.nodup hc hid (by simp [hdoc, (hmem c.id).mpr (.inl hid)])
    (by simpa [hdoc, hid] using hnodup.1) ?_
  · rw [writtenRow, ← hid, ← hdoc]
    rw [← hid, ← hdoc] at hfilter
    exact hfilter
  · intro y _ hy
    have hiff := hmem y.id
    rw [or_iff_right hy] at hiff
    simp only [List.contains_eq_mem, decide_eq_decide.mpr hiff]

theorem reconcile_reusable (tsConfig : String) (title : Option JsString) (chunks : List ChunkDTO)
    (h : Reusable db documentId reusable) :
    Reusable (reconcile documentId tsConfig title chunks reusable db).1 documentId
      (reconcile documentId tsConfig title chunks reusable db).2 :=
  reconcile_induction (motive := fun db' rest => Reusable db' documentId rest)
    (fun _ _ _ _ _ _ ht h => h.turn ht) h

theorem settled_rows (tsConfig : String) (title : Option JsString) (chunks : List ChunkDTO)
    (h : Reusable db documentId reusable) :
    (settled (reconcile documentId tsConfig title chunks reusable db).1 documentId
        (reconcile documentId tsConfig title chunks reusable db).2).Perm
      (settled db documentId reusable ++ List.zipWith (writtenRow documentId tsConfig title)
        (writtenIds db.nextChunk chunks reusable) chunks) := by
  induction chunks generalizing db reusable with
  | nil => simp [reconcile, writtenIds]
  | cons chunk chunks ih =>
    rw [reconcile, writtenIds]
    cases htake : takeHash chunk.hash reusable with
    | none =>
      refine (ih (h.turn (.insert htake))).trans (List.Perm.of_eq ?_)
      rw [settled_insert h, List.append_assoc]
      rfl
    | some found =>
      obtain ⟨row, rest⟩ := found
      have hperm := takeHash_perm htake
      refine (ih (h.turn (.reuse row rest hperm (takeHash_hash htake)))).trans ?_
      refine ((settled_update h hperm).append_right _).trans (List.Perm.of_eq ?_)
      rw [List.append_assoc]
      rfl

theorem length_writtenIds {next : Nat} : (writtenIds next chunks reusable).length = chunks.length := by
  induction chunks generalizing next reusable with
  | nil => rfl
  | cons chunk chunks ih =>
    rw [writtenIds]
    split
    · rw [List.length_cons, ih, List.length_cons]
    · rw [List.length_cons, ih, List.length_cons]

theorem map_writtenRow {β : Type*} {f : ChunkRow → β} {g : ChunkDTO → β} {ids : List Nat}
    (hf : ∀ id chunk, f (writtenRow documentId tsConfig title id chunk) = g chunk)
    (hlength : ids.length = chunks.length) :
    (List.zipWith (writtenRow documentId tsConfig title) ids chunks).map f = chunks.map g := by
  induction chunks generalizing ids with
  | nil => simp
  | cons chunk chunks ih =>
    cases ids with
    | nil => cases hlength
    | cons id ids =>
      rw [List.zipWith_cons_cons, List.map_cons, List.map_cons, hf, ih (Nat.succ.inj hlength)]

theorem others_turn (h : Reusable db documentId reusable)
    (ht : Turn documentId tsConfig title chunk reusable db db' rest) :
    db'.chunks.filter (·.documentId ≠ documentId) = db.chunks.filter (·.documentId ≠ documentId) := by
  cases ht with
  | insert => simp [Database.insertChunk]
  | reuse row _ hperm =>
    obtain ⟨c, hc, hid, hdoc⟩ := h.ofDocument row (hperm.mem_iff.mpr List.mem_cons_self)
    refine Table.filter_update fun x hx hk => ?_
    rw [Table.eq_of_key h.fresh.nodup hx hc (hk.trans hid.symm)]
    simp [hdoc]

theorem reconcile_others (tsConfig : String) (title : Option JsString) (chunks : List ChunkDTO)
    (h : Reusable db documentId reusable) :
    (reconcile documentId tsConfig title chunks reusable db).1.chunks.filter (·.documentId ≠ documentId) =
      db.chunks.filter (·.documentId ≠ documentId) :=
  (@reconcile_induction _ db documentId tsConfig title chunks reusable
    (fun db' reusable' => Reusable db' documentId reusable' ∧
      db'.chunks.filter (·.documentId ≠ documentId) = db.chunks.filter (·.documentId ≠ documentId))
    (fun _ _ _ _ _ _ ht h => ⟨h.1.turn ht, (others_turn h.1 ht).trans h.2⟩) ⟨h, rfl⟩).2

end HomelabApps.KnowledgeBase.Store
