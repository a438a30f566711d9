import HomelabApps.KnowledgeBase.EmbeddingRun
import HomelabApps.KnowledgeBase.Store.Valid

/-! The hash of a chunk determines the text it is embedded as, so a vector that follows the hash
always belongs to its chunk's current text. -/

universe u

namespace HomelabApps.KnowledgeBase.EmbeddingRun

open HomelabApps.Library
open HomelabApps.Library.Utf16
open Markdown Store

variable {Vector : Type u} {platform : Platform} {models : Models Vector} {db db' : Database Vector}
  {title title' : Option JsString} {heading heading' body body' s t : JsString}

theorem toWellFormed_documentText :
    toWellFormed (documentText (toWellFormed heading) (toWellFormed body)) =
      toWellFormed (documentText heading body) := by
  unfold documentText
  rw [isNotEmpty_toWellFormed]
  split
  · rw [toWellFormed_append_cons (by decide), toWellFormed_append_cons (by decide),
      toWellFormed_cons (by decide), toWellFormed_cons (by decide), toWellFormed_idem, toWellFormed_idem]
  · exact toWellFormed_idem

theorem hash_stored (sha256 : JsString → JsString) :
    Markdown.hash sha256 (title.map toWellFormed) (toWellFormed heading) (toWellFormed body) =
      Markdown.hash sha256 title heading body := by
  have htitle : toWellFormed ((title.map toWellFormed).getD []) = toWellFormed (title.getD []) := by
    cases title with
    | none => rfl
    | some t => exact toWellFormed_idem
  unfold Markdown.hash
  rw [toWellFormed_append_cons (by decide), toWellFormed_append_cons (by decide),
    toWellFormed_documentText, htitle]

theorem titleText_eq : titleText title = if isNotEmpty (title.getD []) then title.getD [] else MISSING_TITLE := by
  cases title with
  | none => rfl
  | some t => rfl

structure Text (s : JsString) : Prop where
  encoded : toWellFormed s = s
  noNul : NUL ∉ s

theorem text_toWellFormed (h : NUL ∉ s) : Text (toWellFormed s) where
  encoded := toWellFormed_idem
  noNul := by rwa [nul_mem_toWellFormed]

theorem Text.documentText (hh : Text heading) (hb : Text body) : Text (documentText heading body) where
  encoded := by
    have h := @toWellFormed_documentText heading body
    rw [hh.encoded, hb.encoded] at h
    unfold Markdown.documentText
    split
    · rw [toWellFormed_append_cons (by decide), toWellFormed_cons (by decide), hh.encoded, hb.encoded]
    · exact hb.encoded
  noNul := by
    unfold Markdown.documentText
    split
    · simp only [List.mem_append, List.mem_cons, not_or]
      exact ⟨hh.noNul, by decide, by decide, hb.noNul⟩
    · exact hb.noNul

structure Texts (title : Option JsString) (heading body : JsString) : Prop where
  title : Text (title.getD [])
  heading : Text heading
  body : Text body

/-- Equal hashes give equal embedder inputs, whatever the template. -/
theorem documentInput_eq_of_hash_eq (hsha : Function.Injective platform.sha256)
    (h : Texts title heading body) (h' : Texts title' heading' body')
    (heq : Markdown.hash platform.sha256 title heading body =
      Markdown.hash platform.sha256 title' heading' body') (template : JsString) :
    documentInput template title heading body = documentInput template title' heading' body' := by
  have htext := h.heading.documentText h.body
  have htext' := h'.heading.documentText h'.body
  have heq := hsha heq
  rw [toWellFormed_append_cons (by decide), toWellFormed_append_cons (by decide), h.title.encoded,
    h'.title.encoded, htext.encoded, htext'.encoded,
    List.append_cons_inj_of_notMem h.title.noNul htext.noNul] at heq
  obtain ⟨htitle, -, hdocument⟩ := heq
  unfold documentInput
  rw [titleText_eq, titleText_eq, htitle, hdocument]

def Describes (platform : Platform) (models : Models Vector) (hash : JsString) (model : String)
    (vector : Vector) : Prop :=
  ∀ title heading body, Texts title heading body →
    Markdown.hash platform.sha256 title heading body = hash →
      vector = models.embedder model (documentInput (models.template model) title heading body)

theorem describes_of_hash (hsha : Function.Injective platform.sha256) (h : Texts title heading body)
    (model : String) :
    Describes platform models (Markdown.hash platform.sha256 title heading body) model
      (models.embedder model (documentInput (models.template model) title heading body)) :=
  fun _ _ _ h' heq => by rw [documentInput_eq_of_hash_eq hsha h' h heq]

def Hashed (platform : Platform) (db : Database Vector) : Prop :=
  ∀ c ∈ db.chunks, ∀ d ∈ db.documents, d.id = c.documentId →
    Texts d.document.title c.chunk.heading c.chunk.body ∧
      c.chunk.hash = Markdown.hash platform.sha256 d.document.title c.chunk.heading c.chunk.body

def Batch.Sound (platform : Platform) (db : Database Vector) (b : Batch) : Prop :=
  ∀ p ∈ b.chunks, p.id < db.nextChunk ∧ Texts p.title p.heading p.body ∧
    ∀ c ∈ db.chunks, c.id = p.id →
      c.chunk.hash = Markdown.hash platform.sha256 p.title p.heading p.body

structure Invariant (platform : Platform) (models : Models Vector) (s : State Vector) : Prop where
  valid : s.db.Valid
  hashed : Hashed platform s.db
  embeddings : ∀ e ∈ s.db.embeddings, ∀ c ∈ s.db.chunks, c.id = e.chunkId →
    Describes platform models c.chunk.hash e.model e.embedding
  batches : ∀ b ∈ s.batches, b.Sound platform s.db

theorem Invariant.current {s : State Vector} (h : Invariant platform models s) {e : EmbeddingRow Vector}
    (he : e ∈ s.db.embeddings) : Current models s.db e := by
  refine ⟨h.valid.embeddingChunk e he, fun c hc hid => ⟨h.valid.chunkDocument c hc, fun d hd hdoc => ?_⟩⟩
  obtain ⟨htexts, hhash⟩ := h.hashed c hc d hd hdoc
  exact h.embeddings e he c hc hid _ _ _ htexts hhash.symm

theorem invariant_empty : Invariant platform models {} where
  valid := valid_empty
  hashed _ h := by simp at h
  embeddings _ h := by simp at h
  batches _ h := by simp at h

/-- What the statements on documents do to chunks and vectors: chunks go, change under the same hash
or are new, and vectors only go. -/
structure Carried (db db' : Database Vector) : Prop where
  nextChunk : db.nextChunk ≤ db'.nextChunk
  chunks : HashKept db.chunks db.nextChunk db'.chunks
  embeddings : db'.embeddings ⊆ db.embeddings

theorem Batch.Sound.carried {b : Batch} (h : b.Sound platform db) (hc : Carried db db') :
    b.Sound platform db' := by
  intro p hp
  obtain ⟨hlt, htexts, hhash⟩ := h p hp
  refine ⟨Nat.lt_of_lt_of_le hlt hc.nextChunk, htexts, fun c hc' hid => ?_⟩
  rcases hc.chunks c hc' with hnew | ⟨c₀, hc₀, hid₀, -, hhash₀⟩
  · omega
  · rw [← hhash₀]
    exact hhash c₀ hc₀ (hid₀.trans hid)

theorem Invariant.carried {s : State Vector} (h : Invariant platform models s) (hc : Carried s.db db')
    (hvalid : db'.Valid) (hhashed : Hashed platform db') : Invariant platform models { s with db := db' } where
  valid := hvalid
  hashed := hhashed
  embeddings e he c hc' hid := by
    have he₀ := hc.embeddings he
    rcases hc.chunks c hc' with hnew | ⟨c₀, hc₀, hid₀, -, hhash₀⟩
    · obtain ⟨c₁, hc₁, hid₁⟩ := h.valid.embeddingChunk e he₀
      have := h.valid.chunkIds.lt_next c₁.id (List.mem_map_of_mem hc₁)
      omega
    · rw [← hhash₀]
      exact h.embeddings e he₀ c₀ hc₀ (hid₀.trans hid)
  batches b hb := (h.batches b hb).carried hc

theorem Invariant.deleteDocuments {s : State Vector} (h : Invariant platform models s)
    (q : DocumentRow → Bool) : Invariant platform models { s with db := s.db.deleteDocuments q } := by
  refine h.carried ⟨Nat.le_refl _, fun c hc => ?_, fun e he => ?_⟩ h.valid.deleteDocuments ?_
  · exact .inr ⟨c, (mem_deleteDocuments_chunks.mp hc).1, rfl, rfl, rfl⟩
  · exact (mem_deleteChunks_embeddings he).1
  · intro c hc d hd hid
    exact h.hashed c (mem_deleteDocuments_chunks.mp hc).1 d (mem_deleteDocuments_documents.mp hd).1 hid

variable {kb : KnowledgeBaseConfig} {document : SourceDocument} {x : ChunkDTO} {dto : DocumentDTO}
  {tsConfig : String} {chunks : List ChunkDTO} {change : DocumentChange}
  {localeCompare : JsString → JsString → Ordering}

theorem carried_upserted (hvalid : db.Valid) (hown : ∀ x ∈ chunks, OwnHash platform dto.title x)
    (hu : Upserted localeCompare db dto tsConfig chunks db' change) : Carried db db' := by
  cases hu with
  | unchanged =>
    exact ⟨Nat.le_refl _, fun c hc => .inr ⟨c, hc, rfl, rfl, rfl⟩, List.Subset.refl _⟩
  | written db₁ id haccepted _ hw =>
    obtain ⟨hchunks, hnext, hembeddings, -⟩ := hw.beside
    have hrows : db₁.chunksOf id ⊆ db₁.chunks := fun c hc => (mem_chunksOf.mp hc).1
    have hkept := reconcile_hashKept id tsConfig dto.title (fun c hc => (hown c hc).encoded)
      (hw.valid hvalid haccepted).chunkIds hrows
    rw [hchunks, hnext] at hkept
    refine ⟨hnext ▸ reconcile_nextChunk, fun c hc => hkept c (List.mem_filter.mp hc).1, fun e he => ?_⟩
    have he := (mem_deleteChunks_embeddings he).1
    rwa [reconcile_beside.2.2.1, hembeddings] at he

theorem texts_stored (haccepted : dto.accepted) (hx : x.accepted) :
    Texts (dto.title.map toWellFormed) (toWellFormed x.heading) (toWellFormed x.body) := by
  simp only [ChunkDTO.accepted, textAccepts, Bool.and_eq_true, decide_eq_true_eq] at hx
  refine ⟨?_, text_toWellFormed hx.1.1.1, text_toWellFormed hx.1.2⟩
  have htitle := (DocumentDTO.accepted_iff.mp haccepted).2.1
  cases ht : dto.title with
  | none => exact ⟨rfl, by simp⟩
  | some t => exact text_toWellFormed (by simpa [ht, textAccepts] using htitle)

theorem hashed_upserted (hvalid : db.Valid) (hown : ∀ x ∈ chunks, OwnHash platform dto.title x)
    (h : Hashed platform db) (hu : Upserted localeCompare db dto tsConfig chunks db' change) :
    Hashed platform db' := by
  cases hu with
  | unchanged row =>
    intro c hc d hd hid
    rcases Table.mem_update.mp hd with ⟨d₀, hd₀, -, rfl⟩ | ⟨hd, -⟩
    · exact h c hc d₀ hd₀ hid
    · exact h c hc d hd hid
  | written db₁ id haccepted hchunks hw =>
    have hvalid₁ := hw.valid hvalid haccepted
    have hpayload := reconcileChunks_payload id tsConfig dto.title chunks hvalid₁.chunkIds
    have hothers := reconcileChunks_others id tsConfig dto.title chunks hvalid₁.chunkIds
    intro c hc d hd hid
    rw [reconcileChunks_documents] at hd
    by_cases hdoc : c.documentId = id
    · -- a row of the document holds one of the incoming chunks
      have hmem := hpayload.mem_iff.mp (List.mem_map_of_mem (List.mem_filter.mpr ⟨hc, by simpa using hdoc⟩))
      obtain ⟨x, hx, hxc⟩ := List.mem_map.mp hmem
      have hxc : x.stored = c.chunk := congrArg Prod.fst hxc
      have hd' : d = ⟨id, dto.stored⟩ :=
        Table.eq_of_key hvalid₁.documentIds.nodup hd hw.row (hid.trans hdoc)
      rw [hd', ← hxc]
      refine ⟨texts_stored haccepted (hchunks x hx), ?_⟩
      rw [DocumentDTO.stored, ChunkDTO.stored, hash_stored, (hown x hx).encoded]
      exact hown x hx
    · -- a row of another document is as it was, and so is that document
      have hmem : c ∈ db₁.chunks.filter (·.documentId ≠ id) :=
        hothers ▸ List.mem_filter.mpr ⟨hc, by simpa using hdoc⟩
      have hc := (List.mem_filter.mp hmem).1
      rw [hw.beside.1] at hc
      rcases hw.of_mem hd with ⟨hd, -⟩ | hd
      · exact absurd (hid.symm.trans hd) hdoc
      · exact h c hc d hd hid

theorem Invariant.upsert {s : State Vector} (h : Invariant platform models s)
    (hupsert : s.db.upsert platform.localeCompare (sourceToStorage kb document) kb.tsConfig
      (chunksOf platform kb document) = some (db', change)) :
    Invariant platform models { s with db := db' } := by
  have hu := upsert_upserted h.valid hupsert
  have hown : ∀ x ∈ chunksOf platform kb document, OwnHash platform document.title x :=
    fun x hx => ownHash_of_mem_chunksOf hx
  exact h.carried (carried_upserted h.valid hown hu) (h.valid.upserted hu)
    (hashed_upserted h.valid hown h.hashed hu)

theorem Invariant.insertEmbeddings {s : State Vector} (h : Invariant platform models s)
    {rows : List (EmbeddingRow Vector)} (hvalid : (s.db.insertEmbeddings rows).Valid)
    (hrows : ∀ e ∈ rows, ∀ c ∈ s.db.chunks, c.id = e.chunkId →
      Describes platform models c.chunk.hash e.model e.embedding) :
    Invariant platform models { s with db := s.db.insertEmbeddings rows } where
  valid := hvalid
  hashed := by
    rw [Hashed, insertEmbeddings_chunks, insertEmbeddings_documents]
    exact h.hashed
  embeddings e he c hc hid := by
    rw [insertEmbeddings_chunks] at hc
    exact (mem_insertEmbeddings he).elim (fun he => h.embeddings e he c hc hid) fun he =>
      hrows e he c hc hid
  batches b hb := by
    obtain ⟨added, -, heq⟩ := insertEmbeddings_eq s.db rows
    rw [heq]
    exact h.batches b hb

theorem Invariant.copyByHash {s : State Vector} (h : Invariant platform models s)
    (choose : Nat → Nat) (kb model : String) :
    Invariant platform models { s with db := s.db.copyByHash choose kb model } := by
  refine h.insertEmbeddings h.valid.copyByHash fun e he c hc hid => ?_
  obtain ⟨c', hc', e', he', twin, htwin, hid', htid, hhash, hmodel, hvector⟩ := mem_copies he
  obtain rfl : c' = c := Table.eq_of_key h.valid.chunkIds.nodup hc' hc (hid'.trans hid.symm)
  rw [← hhash, ← hmodel, ← hvector]
  exact h.embeddings e' he' twin htwin htid

theorem Invariant.insert (hsha : Function.Injective platform.sha256) {s : State Vector}
    (h : Invariant platform models s) {b : Batch} (hb : b ∈ s.batches) :
    Invariant platform models { s with
      db := s.db.insert b.model (embedDocuments models.embedder models.template b.model b.chunks) } := by
  refine h.insertEmbeddings h.valid.insert fun e he c hc hid => ?_
  obtain ⟨v, hv, rfl⟩ := List.mem_map.mp he
  obtain ⟨p, hp, rfl⟩ := List.mem_map.mp (List.mem_filter.mp hv).1
  obtain ⟨-, htexts, hhash⟩ := h.batches b hb p hp
  rw [hhash c hc hid]
  exact describes_of_hash hsha htexts b.model

theorem Invariant.selectPending {s : State Vector} (h : Invariant platform models s)
    (kb model : String) (limit : Nat) :
    Invariant platform models { s with batches := s.batches ++ [⟨model, s.db.pending kb model limit⟩] } where
  valid := h.valid
  hashed := h.hashed
  embeddings := h.embeddings
  batches b hb := by
    rcases List.mem_append.mp hb with hb | hb
    · exact h.batches b hb
    obtain rfl := List.mem_singleton.mp hb
    intro p hp
    obtain ⟨c, hc, d, hd, hid, rfl⟩ := mem_pending hp
    obtain ⟨htexts, hhash⟩ := h.hashed c hc d hd hid
    refine ⟨h.valid.chunkIds.lt_next c.id (List.mem_map_of_mem hc), htexts, fun c' hc' hid' => ?_⟩
    obtain rfl := Table.eq_of_key h.valid.chunkIds.nodup hc' hc hid'
    exact hhash

theorem invariant_step (hsha : Function.Injective platform.sha256) {s t : State Vector} {event : Event}
    (h : Invariant platform models s) (hstep : step platform models s event = some t) :
    Invariant platform models t := by
  cases event with
  | upsert kb document =>
    simp only [step] at hstep
    split at hstep
    · rename_i db change hupsert
      cases hstep
      exact h.upsert hupsert
    · cases hstep
      exact h
  | delete kb externalIds =>
    cases hstep
    unfold Database.delete
    split
    · exact h.deleteDocuments _
    · exact h
  | deleteAllExcept kb keep =>
    cases hstep
    unfold Database.deleteAllExcept
    split
    · exact h.deleteDocuments _
    · exact h
  | copyByHash choose kb model =>
    cases hstep
    exact h.copyByHash choose kb model
  | selectPending kb model limit =>
    cases hstep
    exact h.selectPending kb model limit
  | insert i =>
    simp only [step] at hstep
    split at hstep
    · rename_i batch hbatch
      cases hstep
      have hinsert := h.insert hsha (List.mem_of_getElem? hbatch)
      exact { hinsert with
        batches := fun b hb => hinsert.batches b (List.mem_of_mem_eraseIdx hb) }
    · cases hstep

theorem embeddings_current (platform : Platform) (models : Models Vector)
    (hsha : Function.Injective platform.sha256) (events : List Event) (s : State Vector)
    (hrun : run platform models {} events = some s) :
    ∀ e ∈ s.db.embeddings, Current models s.db e :=
  fun _ he => (Transition.invariant (I := Invariant platform models)
    (fun _ _ _ h hstep => invariant_step hsha h hstep) invariant_empty hrun).current he

def noteBase : KnowledgeBaseConfig where
  id := "notes"
  tsConfig := "english"
  models := ["m"]
  chunking := .shortest
  git := ⟨[[]], [utf16 ".md"]⟩

def note (title body : String) : SourceDocument where
  externalId := utf16 "t.md"
  title := some (utf16 title)
  date := none
  url := none
  content := utf16 body
  version := utf16 "1"
  metadata := []
  chunking := none

def notePlatform : Platform :=
  Platform.ofTables [(utf16 "t" ++ NUL :: utf16 "hi",
    utf16 "6d367c912c68a0d0926c49e85648c0fc8a9f3c18fbe24a055738247221f89de9")] [] (hexDigests (by decide))

def noteModels : Models JsString where
  template _ := utf16 "title: \x7btitle\x7d | \x7btext\x7d"
  embedder _ text := text

def noteEvents : List Event :=
  [.upsert noteBase (note "t" "hi"), .selectPending "notes" "m" 16, .insert 0]

theorem embeddings_current_note : ∃ s, run notePlatform noteModels {} noteEvents = some s ∧
    s.db.embeddings.map (·.embedding) = [utf16 "title: t | hi"] ∧
    ∀ e ∈ s.db.embeddings, Current noteModels s.db e :=
  ⟨_, rfl, by decide, embeddings_current notePlatform noteModels
    (ofTables_injective (by decide) (by decide)) noteEvents _ rfl⟩

end HomelabApps.KnowledgeBase.EmbeddingRun
