import HomelabApps.KnowledgeBase.SchemaMigrator
import HomelabApps.Library.Lists

universe u

namespace HomelabApps.KnowledgeBase.SchemaMigrator

open HomelabApps.Library
open HomelabApps.Library.Transition
open HomelabApps.Library.Utf16
open Store

variable {Vector : Type u} {localeCompare : JsString → JsString → Ordering}

def Follows (db : Database Vector) (kb tsConfig : String) : Prop :=
  ∀ c ∈ db.chunks, ∀ d ∈ db.documents, d.id = c.documentId → d.document.kb = kb →
    c.fts = ⟨tsConfig, d.document.title, c.chunk.heading, c.chunk.body⟩

def Stage.isRunning : Stage → Bool
  | .running => true
  | _ => false

def Stage.isRewriting : Stage → Bool
  | .rewriting _ _ => true
  | _ => false

/-- Once the last boot is complete and every running pod has its configuration, the vectors follow it. -/
def State.FollowsConfig (s : State Vector) : Prop :=
  ∀ target, s.migrated = some target →
    (∀ pod ∈ s.pods, pod.stage.isRunning = true → pod.target = target) →
      ∀ kb ∈ target.knowledgeBases, Follows s.db kb.id kb.tsConfig

/-- No boot stops between storing a configuration and rewriting the vectors, and a pod writes a
document only under the stored configuration, or before the vectors are rewritten. -/
def State.Orderly (s : State Vector) : Event → Prop
  | .stop n => s.pods[n]?.any (·.stage.isRewriting) = false
  | .upsert n i _ _ =>
    (s.pods[n]?.bind fun pod => pod.target.knowledgeBases[i]?).all
      (fun kb => decide (s.tsConfigs kb.id = some kb.tsConfig) || s.rewriting kb.id) = true
  | _ => True

instance (s : State Vector) (e : Event) : Decidable (s.Orderly e) :=
  match e with
  | .stop _ => inferInstanceAs (Decidable (_ = false))
  | .upsert _ _ _ _ => inferInstanceAs (Decidable (_ = true))
  | .boot _ => .isTrue trivial
  | .lock _ => .isTrue trivial
  | .ensure _ => .isTrue trivial
  | .rewrite _ => .isTrue trivial
  | .unlock _ => .isTrue trivial
  | .delete _ _ => .isTrue trivial
  | .deleteAllExcept _ _ => .isTrue trivial

def State.Settled (s : State Vector) (id : String) : Prop :=
  ∀ (n : Nat) pod, s.pods[n]? = some pod → pod.stage.rewrites id = false

def Stage.remaining : Stage → Option (List KnowledgeBaseConfig)
  | .ensuring rest => some rest
  | .rewriting _ rest => some rest
  | _ => none

structure State.Reached (s : State Vector) (n : Nat) (target : SchemaTarget)
    (rest : List KnowledgeBaseConfig) : Prop where
  holds : s.migrating = some n
  stored : ∃ done, target.knowledgeBases = done ++ rest ∧
    ∀ kb ∈ done, s.tsConfigs kb.id = some kb.tsConfig

structure State.Consistent (s : State Vector) : Prop where
  valid : s.db.Valid
  rows : ∀ d ∈ s.db.documents, (s.tsConfigs d.document.kb).isSome = true
  vectors : ∀ id tsConfig, s.tsConfigs id = some tsConfig →
    s.Settled id → Follows s.db id tsConfig
  reached : ∀ (n : Nat) pod rest, s.pods[n]? = some pod → pod.stage.remaining = some rest →
    s.Reached n pod.target rest
  migrated : ∀ target, s.migrated = some target → s.migrating = none ∧
    ∀ kb ∈ target.knowledgeBases, s.tsConfigs kb.id = some kb.tsConfig

variable {s t : State Vector} {db db' : Database Vector} {n : Nat} {pod : Pod} {stage : Stage}
  {id tsConfig : String}

theorem pods_put {m : Nat} (hpod : s.pods[n]? = some pod) {other : Pod}
    (h : (s.put n stage).pods[m]? = some other) :
    (m = n ∧ other = { pod with stage := stage }) ∨ (m ≠ n ∧ s.pods[m]? = some other) := by
  rw [State.put, List.getElem?_modify] at h
  obtain ⟨before, hbefore, rfl⟩ := Option.map_eq_some_iff.mp h
  by_cases hnm : n = m
  · subst hnm
    rw [hpod] at hbefore
    obtain rfl := Option.some.inj hbefore
    exact .inl ⟨rfl, if_pos rfl⟩
  · rw [if_neg hnm]
    exact .inr ⟨fun heq => hnm heq.symm, hbefore⟩

theorem pods_put_of_ne {m : Nat} (hne : m ≠ n) : (s.put n stage).pods[m]? = s.pods[m]? := by
  rw [State.put, List.getElem?_modify]
  simp [hne.symm]

theorem follows_deleteDocuments (h : Follows db id tsConfig) (q : DocumentRow → Bool) :
    Follows (db.deleteDocuments q) id tsConfig :=
  fun c hc d hd hid hkb =>
    h c (mem_deleteDocuments_chunks.mp hc).1 d (mem_deleteDocuments_documents.mp hd).1 hid hkb

theorem follows_upserted {document : DocumentDTO} {written : String} {chunks : List ChunkDTO}
    {change : DocumentChange} (hvalid : db.Valid)
    (hu : Upserted localeCompare db document written chunks db' change) (h : Follows db id tsConfig)
    (hwritten : document.kb = id → written = tsConfig) : Follows db' id tsConfig := by
  cases hu with
  | unchanged row hrow hkey =>
    intro c hc d hd hid hkb
    rcases Table.mem_update.mp hd with ⟨before, hbefore, -, rfl⟩ | ⟨hd, -⟩
    · exact h c hc before hbefore hid hkb
    · exact h c hc d hd hid hkb
  | written db₁ documentId haccepted _ hw =>
    have hvalid₁ := hw.valid hvalid haccepted
    intro c hc d hd hid hkb
    rw [reconcileChunks_documents] at hd
    by_cases hdocument : c.documentId = documentId
    · have hd' : d = ⟨documentId, document.stored⟩ :=
        Table.eq_of_key hvalid₁.documentIds.nodup hd hw.row (hid.trans hdocument)
      subst hd'
      have hpayload := (reconcileChunks_payload documentId written document.title chunks
        hvalid₁.chunkIds).mem_iff.mp
          (List.mem_map_of_mem (List.mem_filter.mpr ⟨hc, decide_eq_true hdocument⟩))
      obtain ⟨chunk, -, heq⟩ := List.mem_map.mp hpayload
      obtain ⟨hchunk, hfts⟩ := Prod.mk.inj heq
      rw [← hfts, ← hchunk, hwritten hkb]
      rfl
    · have hother : c ∈ (reconcileChunks db₁ documentId written document.title chunks).chunks.filter
          (·.documentId ≠ documentId) := List.mem_filter.mpr ⟨hc, decide_eq_true hdocument⟩
      rw [reconcileChunks_others documentId written document.title chunks hvalid₁.chunkIds,
        hw.beside.1] at hother
      rcases hw.of_mem hd with ⟨hsame, -⟩ | hd
      · exact absurd (hid.symm.trans hsame) hdocument
      · exact h c (List.mem_filter.mp hother).1 d hd hid hkb

theorem kb_upserted {document : DocumentDTO} {written : String} {chunks : List ChunkDTO}
    {change : DocumentChange} (hu : Upserted localeCompare db document written chunks db' change)
    {d : DocumentRow} (hd : d ∈ db'.documents) :
    d.document.kb = document.kb ∨ ∃ before ∈ db.documents, before.document.kb = d.document.kb := by
  cases hu with
  | unchanged row =>
    rcases Table.mem_update.mp hd with ⟨before, hbefore, -, rfl⟩ | ⟨hd, -⟩
    · exact .inr ⟨before, hbefore, rfl⟩
    · exact .inr ⟨d, hd, rfl⟩
  | written db₁ documentId _ _ hw =>
    rw [reconcileChunks_documents] at hd
    rcases hw.of_mem hd with ⟨-, hdocument⟩ | hd
    · exact .inl (by rw [hdocument]; rfl)
    · exact .inr ⟨d, hd, rfl⟩

theorem rewriteChunk_of_document {d : DocumentRow} {c : ChunkRow} (hvalid : db.Valid)
    (hd : d ∈ db.documents) (hid : d.id = c.documentId) : rewriteChunk db id tsConfig c =
      if d.document.kb = id then
        { c with fts := ⟨tsConfig, d.document.title, c.chunk.heading, c.chunk.body⟩ }
      else c := by
  have hids : (db.documents.map DocumentRow.id).Nodup := hvalid.documentIds.nodup
  have hfind : db.documents.find? (·.id = c.documentId) = some d :=
    (Table.find?_eq_some_iff hids).mpr ⟨hd, hid⟩
  rw [rewriteChunk, hfind]

theorem rewriteChunk_keys (c : ChunkRow) : (rewriteChunk db id tsConfig c).id = c.id ∧
    (rewriteChunk db id tsConfig c).documentId = c.documentId := by
  unfold rewriteChunk
  split
  · split <;> exact ⟨rfl, rfl⟩
  · exact ⟨rfl, rfl⟩

@[simp] theorem rewriteVectors_documents {stored : Option String} :
    (rewriteVectors db id stored).documents = db.documents := by
  cases stored <;> rfl

theorem valid_rewriteVectors {stored : Option String} (h : db.Valid) :
    (rewriteVectors db id stored).Valid := by
  cases stored with
  | none => exact h
  | some tsConfig =>
    have hids : (db.chunks.map (rewriteChunk db id tsConfig)).map (·.id) = db.chunks.map (·.id) := by
      rw [List.map_map]
      exact List.map_congr_left fun c _ => (rewriteChunk_keys c).1
    exact {
      documentIds := h.documentIds
      documentKeys := h.documentKeys
      chunkIds := by
        change FreshIds ((db.chunks.map (rewriteChunk db id tsConfig)).map (·.id)) db.nextChunk
        rw [hids]
        exact h.chunkIds
      chunkDocument := fun c hc => by
        obtain ⟨before, hbefore, rfl⟩ := List.mem_map.mp hc
        rw [(rewriteChunk_keys before).2]
        exact h.chunkDocument before hbefore
      embeddingChunk := fun e he => by
        obtain ⟨c, hc, hid⟩ := h.embeddingChunk e he
        exact ⟨_, List.mem_map_of_mem hc, (rewriteChunk_keys c).1.trans hid⟩
      kept := h.kept }

theorem follows_rewriteVectors (hvalid : db.Valid) :
    Follows (rewriteVectors db id (some tsConfig)) id tsConfig := by
  intro c hc d hd hid hkb
  obtain ⟨before, hbefore, rfl⟩ := List.mem_map.mp hc
  rw [(rewriteChunk_keys before).2] at hid
  rw [rewriteChunk_of_document hvalid hd hid, if_pos hkb]

theorem follows_rewriteVectors_of_ne {other : String} {stored : Option String} (hvalid : db.Valid)
    (hne : other ≠ id) (h : Follows db other tsConfig) :
    Follows (rewriteVectors db id stored) other tsConfig := by
  cases stored with
  | none => exact h
  | some current =>
    intro c hc d hd hid hkb
    obtain ⟨before, hbefore, rfl⟩ := List.mem_map.mp hc
    rw [(rewriteChunk_keys before).2] at hid
    rw [rewriteChunk_of_document hvalid hd hid, if_neg fun heq => hne (hkb.symm.trans heq)]
    exact h before hbefore d hd hid hkb

theorem rewrites_of_isRewriting (h : stage.isRewriting = false) : stage.rewrites id = false := by
  cases stage with
  | rewriting => cases h
  | _ => rfl

theorem settled_of_put (hpod : s.pods[n]? = some pod) (hstage : pod.stage.rewrites id = false)
    (h : (s.put n stage).Settled id) : s.Settled id := by
  intro m other hother
  by_cases hne : m = n
  · subst hne
    rw [hpod] at hother
    obtain rfl := Option.some.inj hother
    exact hstage
  · exact h m other ((pods_put_of_ne hne).trans hother)

theorem State.Consistent.alone (h : s.Consistent) {m : Nat} {other : Pod}
    {rest rest' : List KnowledgeBaseConfig} (hpod : s.pods[n]? = some pod)
    (hrest : pod.stage.remaining = some rest) (hother : s.pods[m]? = some other)
    (hrest' : other.stage.remaining = some rest') : m = n :=
  Option.some.inj ((h.reached m other rest' hother hrest').holds.symm.trans
    (h.reached n pod rest hpod hrest).holds)

theorem State.Settled.rewriting (h : s.Settled id) : s.rewriting id = false := by
  refine List.any_eq_false.mpr fun pod hpod => ?_
  obtain ⟨n, hn⟩ := List.mem_iff_getElem?.mp hpod
  rw [h n pod hn]
  exact Bool.false_ne_true

namespace State.Consistent

theorem boot (h : s.Consistent) (target : SchemaTarget) :
    State.Consistent { s with pods := s.pods ++ [⟨target, .booting⟩] } := by
  have hpods : ∀ {m : Nat} {other : Pod}, (s.pods ++ [⟨target, .booting⟩])[m]? = some other →
      s.pods[m]? = some other ∨ other.stage = .booting := by
    intro m other hother
    obtain hother | ⟨-, rfl⟩ := getElem?_concat_cases hother
    · exact .inl hother
    · exact .inr rfl
  exact {
    valid := h.valid
    rows := h.rows
    vectors := fun id tsConfig hstored hsettled => h.vectors id tsConfig hstored fun m other hother =>
      hsettled m other (by
        rw [List.getElem?_append_left (List.getElem?_eq_some_iff.mp hother).1]
        exact hother)
    reached := fun m other rest hother hrest => by
      rcases hpods hother with hother | hbooting
      · exact ⟨(h.reached m other rest hother hrest).holds, (h.reached m other rest hother hrest).stored⟩
      · rw [hbooting] at hrest
        cases hrest
    migrated := h.migrated }

theorem lock {target : SchemaTarget} (h : s.Consistent) (hpod : s.pods[n]? = some ⟨target, .booting⟩)
    (hfree : s.migrating = none) :
    State.Consistent { s.put n (.ensuring target.knowledgeBases) with
      migrating := some n, migrated := none } where
  valid := h.valid
  rows := h.rows
  vectors id tsConfig hstored hsettled := h.vectors id tsConfig hstored (settled_of_put hpod rfl hsettled)
  reached m other rest hother hrest := by
    rcases pods_put hpod hother with ⟨rfl, rfl⟩ | ⟨-, hother⟩
    · cases hrest
      exact ⟨rfl, [], rfl, by simp⟩
    · rw [(h.reached m other rest hother hrest).holds] at hfree
      cases hfree
  migrated target hmigrated := by cases hmigrated

theorem stored_update {target : SchemaTarget} {kb : KnowledgeBaseConfig}
    {rest : List KnowledgeBaseConfig} (h : s.Reached n target (kb :: rest)) :
    ∃ done, target.knowledgeBases = done ++ rest ∧ ∀ other ∈ done,
      Function.update s.tsConfigs kb.id (some kb.tsConfig) other.id = some other.tsConfig := by
  obtain ⟨done, hdone, hstored⟩ := h.stored
  have hnodup := target.nodup
  rw [hdone, List.map_append, List.map_cons] at hnodup
  refine ⟨done ++ [kb], by rw [hdone, List.append_assoc, List.singleton_append], fun other hother => ?_⟩
  rcases List.mem_append.mp hother with hother | hother
  · have hne : other.id ≠ kb.id := fun heq =>
      (List.nodup_middle.mp hnodup).notMem (List.mem_append_left _ (heq ▸ List.mem_map_of_mem hother))
    rw [Function.update_of_ne hne]
    exact hstored other hother
  · rw [List.mem_singleton.mp hother, Function.update_self]

theorem store {target : SchemaTarget} {kb : KnowledgeBaseConfig} {rest : List KnowledgeBaseConfig}
    (h : s.Consistent) (hpod : s.pods[n]? = some ⟨target, .ensuring (kb :: rest)⟩)
    (hremaining : stage.remaining = some rest)
    (hvectors : stage.rewrites kb.id = false → s.Settled kb.id → Follows s.db kb.id kb.tsConfig) :
    State.Consistent ({ s with tsConfigs := Function.update s.tsConfigs kb.id (some kb.tsConfig) }.put n
      stage) := by
  have hreached := h.reached n _ _ hpod rfl
  refine {
    valid := h.valid
    rows := fun d hd => ?_
    vectors := fun id tsConfig hstored hsettled => ?_
    reached := fun m other rest' hother hrest' => ?_
    migrated := fun target hmigrated => ?_ }
  · change (Function.update s.tsConfigs kb.id (some kb.tsConfig) d.document.kb).isSome = true
    by_cases heq : d.document.kb = kb.id
    · rw [heq, Function.update_self]
      rfl
    · rw [Function.update_of_ne heq]
      exact h.rows d hd
  · change Function.update s.tsConfigs kb.id (some kb.tsConfig) id = some tsConfig at hstored
    have hbefore : s.Settled id := settled_of_put hpod rfl hsettled
    by_cases heq : id = kb.id
    · subst heq
      rw [Function.update_self] at hstored
      obtain rfl := Option.some.inj hstored
      refine hvectors (hsettled n ⟨target, stage⟩ ?_) hbefore
      rw [State.put, List.getElem?_modify]
      simp [hpod]
    · rw [Function.update_of_ne heq] at hstored
      exact h.vectors id tsConfig hstored hbefore
  · rcases pods_put (s := { s with tsConfigs := _ }) hpod hother with ⟨rfl, rfl⟩ | ⟨hne, hother⟩
    · obtain rfl := Option.some.inj (hremaining.symm.trans hrest')
      exact ⟨hreached.holds, stored_update hreached⟩
    · exact absurd (h.alone hpod rfl hother hrest') hne
  · exact absurd (hreached.holds.symm.trans (h.migrated target hmigrated).1) (Option.some_ne_none _)

theorem ensure {target : SchemaTarget} {kb : KnowledgeBaseConfig} {rest : List KnowledgeBaseConfig}
    (h : s.Consistent) (hpod : s.pods[n]? = some ⟨target, .ensuring (kb :: rest)⟩) :
    (s.ensure n kb rest).Consistent := by
  unfold State.ensure
  by_cases hprevious : (s.tsConfigs kb.id).any (· ≠ kb.tsConfig) = true
  · rw [if_pos hprevious]
    exact store h hpod rfl fun hrewrites => by simp [Stage.rewrites] at hrewrites
  · rw [if_neg hprevious]
    refine store h hpod rfl fun _ hsettled => ?_
    cases hstored : s.tsConfigs kb.id with
    | none =>
      intro c _ d hd _ hkb
      have hrow := h.rows d hd
      rw [hkb, hstored] at hrow
      cases hrow
    | some previous =>
      refine h.vectors kb.id kb.tsConfig ?_ hsettled
      simpa [hstored] using hprevious

theorem rewrite {target : SchemaTarget} {kb : KnowledgeBaseConfig} {rest : List KnowledgeBaseConfig}
    (h : s.Consistent) (hpod : s.pods[n]? = some ⟨target, .rewriting kb rest⟩) :
    State.Consistent ({ s with db := rewriteVectors s.db kb.id (s.tsConfigs kb.id) }.put n
      (.ensuring rest)) := by
  have hreached := h.reached n _ _ hpod rfl
  refine {
    valid := valid_rewriteVectors h.valid
    rows := fun d hd => h.rows d (rewriteVectors_documents ▸ hd)
    vectors := fun id tsConfig hstored hsettled => ?_
    reached := fun m other rest' hother hrest' => ?_
    migrated := h.migrated }
  · change s.tsConfigs id = some tsConfig at hstored
    by_cases heq : id = kb.id
    · subst heq
      change Follows (rewriteVectors s.db kb.id (s.tsConfigs kb.id)) kb.id tsConfig
      rw [hstored]
      exact follows_rewriteVectors h.valid
    · refine follows_rewriteVectors_of_ne h.valid heq (h.vectors id tsConfig hstored ?_)
      exact settled_of_put hpod (decide_eq_false fun hkb => heq hkb.symm) hsettled
  · rcases pods_put (s := { s with db := _ }) hpod hother with ⟨rfl, rfl⟩ | ⟨hne, hother⟩
    · cases hrest'
      exact ⟨hreached.holds, hreached.stored⟩
    · exact absurd (h.alone hpod rfl hother hrest') hne

theorem unlock {target : SchemaTarget} (h : s.Consistent)
    (hpod : s.pods[n]? = some ⟨target, .ensuring []⟩) :
    State.Consistent { s.put n .running with migrating := none, migrated := some target } where
  valid := h.valid
  rows := h.rows
  vectors id tsConfig hstored hsettled := h.vectors id tsConfig hstored (settled_of_put hpod rfl hsettled)
  reached m other rest hother hrest := by
    rcases pods_put hpod hother with ⟨rfl, rfl⟩ | ⟨hne, hother⟩
    · cases hrest
    · exact absurd (h.alone hpod rfl hother hrest) hne
  migrated target' hmigrated := by
    obtain rfl := Option.some.inj hmigrated
    obtain ⟨done, hdone, hstored⟩ := (h.reached n _ _ hpod rfl).stored
    rw [List.append_nil] at hdone
    exact ⟨rfl, fun kb hkb => hstored kb (hdone ▸ hkb)⟩

theorem stop (h : s.Consistent) (hn : n < s.pods.length) (horderly : s.Orderly (.stop n)) :
    State.Consistent { s.put n .stopped with
      migrating := if s.migrating = some n then none else s.migrating } := by
  have hpod : s.pods[n]? = some s.pods[n] := List.getElem?_eq_getElem hn
  refine {
    valid := h.valid
    rows := h.rows
    vectors := fun id tsConfig hstored hsettled =>
      h.vectors id tsConfig hstored (settled_of_put hpod ?_ hsettled)
    reached := fun m other rest hother hrest => ?_
    migrated := fun target hmigrated => ?_ }
  · rw [State.Orderly, hpod] at horderly
    exact rewrites_of_isRewriting horderly
  · rcases pods_put hpod hother with ⟨rfl, rfl⟩ | ⟨hne, hother⟩
    · cases hrest
    · have hreached := h.reached m other rest hother hrest
      refine ⟨?_, hreached.stored⟩
      rw [if_neg (fun heq => hne (Option.some.inj (hreached.holds.symm.trans heq)))]
      exact hreached.holds
  · obtain ⟨hfree, hstored⟩ := h.migrated target hmigrated
    refine ⟨?_, hstored⟩
    rw [if_neg (by rw [hfree]; exact (Option.some_ne_none n).symm)]
    exact hfree

theorem wrote (h : s.Consistent) (hvalid : db'.Valid)
    (hrows : ∀ d ∈ db'.documents, (s.tsConfigs d.document.kb).isSome = true)
    (hvectors : ∀ id tsConfig, s.tsConfigs id = some tsConfig → s.Settled id →
      Follows s.db id tsConfig → Follows db' id tsConfig) :
    State.Consistent { s with db := db' } where
  valid := hvalid
  rows := hrows
  vectors id tsConfig hstored hsettled :=
    hvectors id tsConfig hstored hsettled (h.vectors id tsConfig hstored hsettled)
  reached m other rest hother hrest :=
    ⟨(h.reached m other rest hother hrest).holds, (h.reached m other rest hother hrest).stored⟩
  migrated := h.migrated

theorem deleteDocuments (h : s.Consistent) (q : DocumentRow → Bool) :
    State.Consistent { s with db := s.db.deleteDocuments q } :=
  h.wrote h.valid.deleteDocuments (fun d hd => h.rows d (mem_deleteDocuments_documents.mp hd).1)
    fun _ _ _ _ hfollows => follows_deleteDocuments hfollows q

theorem delete {kb : String} {externalIds : List JsString} (h : s.Consistent) :
    State.Consistent { s with db := (s.db.delete kb externalIds).getD s.db } := by
  unfold Database.delete
  split
  · exact h.deleteDocuments _
  · exact h

theorem deleteAllExcept {kb : String} {keep : List JsString} (h : s.Consistent) :
    State.Consistent { s with db := (s.db.deleteAllExcept kb keep).getD s.db } := by
  unfold Database.deleteAllExcept
  split
  · exact h.deleteDocuments _
  · exact h

theorem upsert {kb : KnowledgeBaseConfig} {document : DocumentDTO} {chunks : List ChunkDTO}
    (h : s.Consistent) (hkb : document.kb = kb.id)
    (hwritten : s.tsConfigs kb.id = some kb.tsConfig ∨ s.rewriting kb.id = true) :
    (s.upsert localeCompare kb document chunks).Consistent := by
  unfold State.upsert
  split
  · rename_i hrow
    cases hupsert : s.db.upsert localeCompare document kb.tsConfig chunks with
    | none => exact h
    | some written =>
      have hu := upsert_upserted h.valid hupsert
      refine h.wrote (h.valid.upserted hu) (fun d hd => ?_) fun id tsConfig hstored hsettled hfollows =>
        follows_upserted h.valid hu hfollows fun hid => ?_
      · rcases kb_upserted hu hd with hdocument | ⟨before, hbefore, hsame⟩
        · rw [hdocument, hkb]
          exact hrow
        · exact hsame ▸ h.rows before hbefore
      · obtain rfl : kb.id = id := hkb.symm.trans hid
        rcases hwritten with hcurrent | hrewriting
        · exact Option.some.inj (hcurrent.symm.trans hstored)
        · exact absurd (hsettled.rewriting.symm.trans hrewriting) Bool.false_ne_true
  · exact h

end State.Consistent

theorem consistent_step {e : Event} (h : s.Consistent) (horderly : s.Orderly e)
    (hstep : s.step localeCompare e = some t) : t.Consistent := by
  cases e with
  | boot target =>
    obtain rfl := Option.some.inj hstep
    exact h.boot target
  | lock n =>
    simp only [State.step] at hstep
    split at hstep
    · rename_i hpod hfree
      obtain rfl := Option.some.inj hstep
      exact h.lock hpod hfree
    · cases hstep
  | ensure n =>
    simp only [State.step] at hstep
    split at hstep
    · rename_i hpod
      obtain rfl := Option.some.inj hstep
      exact h.ensure hpod
    · cases hstep
  | rewrite n =>
    simp only [State.step] at hstep
    split at hstep
    · rename_i hpod
      obtain rfl := Option.some.inj hstep
      exact h.rewrite hpod
    · cases hstep
  | unlock n =>
    simp only [State.step] at hstep
    split at hstep
    · rename_i hpod
      obtain rfl := Option.some.inj hstep
      exact h.unlock hpod
    · cases hstep
  | stop n =>
    simp only [State.step] at hstep
    split at hstep
    · rename_i hn
      obtain rfl := Option.some.inj hstep
      exact h.stop hn horderly
    · cases hstep
  | upsert n i document chunks =>
    simp only [State.step] at hstep
    split at hstep
    · rename_i hpod
      obtain ⟨kb, hkb, hstep⟩ := Option.bind_eq_some_iff.mp hstep
      split at hstep
      · rename_i hdocument
        obtain rfl := Option.some.inj hstep
        refine h.upsert hdocument ?_
        simpa [State.Orderly, hpod, hkb] using horderly
      · cases hstep
    · cases hstep
  | delete kb externalIds =>
    obtain rfl := Option.some.inj hstep
    exact h.delete
  | deleteAllExcept kb keep =>
    obtain rfl := Option.some.inj hstep
    exact h.deleteAllExcept

theorem consistent_empty : ({} : State Vector).Consistent where
  valid := valid_empty
  rows _ hd := by cases hd
  vectors _ _ hstored := by cases hstored
  reached _ _ _ hother := by cases hother
  migrated _ hmigrated := by cases hmigrated

theorem State.Consistent.followsConfig (h : s.Consistent) : s.FollowsConfig := by
  intro target hmigrated _ kb hkb
  obtain ⟨hfree, hstored⟩ := h.migrated target hmigrated
  refine h.vectors kb.id kb.tsConfig (hstored kb hkb) fun n pod hpod => ?_
  cases hstage : pod.stage with
  | rewriting other rest =>
    have hholds := (h.reached n pod rest hpod (by rw [hstage]; rfl)).holds
    exact absurd (hfree.symm.trans hholds) (Option.some_ne_none n).symm
  | _ => rfl

theorem vectors_follow_config (localeCompare : JsString → JsString → Ordering) (events : List Event)
    (horderly : Along (State.step localeCompare) State.Orderly ({} : State Vector) events) :
    Always (State.step localeCompare) State.FollowsConfig ({} : State Vector) events :=
  (always_of_along (fun _ _ _ hs ho hstep => consistent_step hs ho hstep) consistent_empty
    horderly).mono fun _ hs => hs.followsConfig

def notesKb (tsConfig : String) : KnowledgeBaseConfig where
  id := "notes"
  tsConfig := tsConfig
  models := []
  chunking := .shortest
  git := ⟨[[]], []⟩

def notesTarget (tsConfig : String) : SchemaTarget where
  knowledgeBases := [notesKb tsConfig]
  nodup := List.nodup_singleton _

def englishEvents : List Event :=
  [.boot (notesTarget "english"), .lock 0, .ensure 0, .unlock 0,
    .upsert 0 0 ⟨"notes", [97], none, none, none, [98], [49], .null⟩ [⟨0, [], [], [98], [99]⟩]]

def germanEvents : List Event :=
  englishEvents ++ [.boot (notesTarget "german"), .lock 1, .ensure 1, .rewrite 1, .unlock 1, .stop 0]

def germanRestartedEvents : List Event :=
  englishEvents ++ [.boot (notesTarget "german"), .lock 1, .ensure 1, .stop 1,
    .boot (notesTarget "german"), .lock 2, .ensure 2, .unlock 2, .stop 0]

theorem vectors_follow_config_rewritten : ∃ t : State Nat,
    run (State.step fun _ _ => .eq) {} germanEvents = some t ∧ t.FollowsConfig ∧
      t.db.chunks.map (·.fts.tsConfig) = ["german"] := by
  have hend : (run (State.step fun _ _ => .eq) ({} : State Nat) germanEvents).map
      (fun t => t.db.chunks.map (·.fts.tsConfig)) = some ["german"] := by
    decide +kernel
  have horderly : Along (State.step fun _ _ => .eq) State.Orderly ({} : State Nat) germanEvents := by
    decide +kernel
  obtain ⟨t, ht, hvectors⟩ := Option.map_eq_some_iff.mp hend
  exact ⟨t, ht, (vectors_follow_config _ _ horderly).last ht, hvectors⟩

/-- The restarted boot is complete and its pod the only one that runs; the vectors are those of the
first. -/
theorem vectors_stale_after_restart : ∃ t : State Nat,
    run (State.step fun _ _ => .eq) {} germanRestartedEvents = some t ∧ ¬t.FollowsConfig := by
  refine ⟨_, rfl, fun h => ?_⟩
  have hrunning : ∀ pod ∈ [(⟨notesTarget "english", .stopped⟩ : Pod), ⟨notesTarget "german", .stopped⟩,
      ⟨notesTarget "german", .running⟩], pod.stage.isRunning = true →
        pod.target = notesTarget "german" := by
    intro pod hpod hstage
    simp only [List.mem_cons, List.not_mem_nil, or_false] at hpod
    rcases hpod with rfl | rfl | rfl
    · cases hstage
    · cases hstage
    · rfl
  have hfts := h (notesTarget "german") rfl hrunning (notesKb "german") (List.mem_singleton_self _) _
    (List.mem_singleton_self _) _ (List.mem_singleton_self _) rfl rfl
  exact absurd (congrArg Fts.tsConfig hfts) (by decide +kernel)

end HomelabApps.KnowledgeBase.SchemaMigrator
