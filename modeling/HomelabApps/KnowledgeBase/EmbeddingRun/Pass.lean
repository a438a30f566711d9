import HomelabApps.KnowledgeBase.EmbeddingService
import HomelabApps.KnowledgeBase.Store.Valid

universe u

namespace HomelabApps.KnowledgeBase.EmbeddingRun.Pass

open HomelabApps.Library
open Store

variable {Vector : Type u}

inductive Deletion
  | chunks (p : ChunkRow → Bool)
  | documents (p : DocumentRow → Bool)

def Deletion.apply (db : Database Vector) : Deletion → Database Vector
  | .chunks p => db.deleteChunks p
  | .documents p => db.deleteDocuments p

/-- What happens around one turn of the loop: the deletions before its query and before its insert, whether the signal
is aborted at its start and when its call has failed, and what the embedder answers, none when the call fails. -/
structure Turn (Vector : Type u) where
  deletedBefore : List Deletion := []
  aborted : Bool := false
  answer : List PendingChunk → Option (List Vector)
  deletedMeanwhile : List Deletion := []
  abortedMeanwhile : Bool := false

def checked (declared : Vector → Bool) (batch : List PendingChunk) (vectors : List Vector) : Option (List Vector) :=
  if vectors.length = batch.length ∧ vectors.all declared then some vectors else none

structure Progress (Vector : Type u) where
  db : Database Vector
  embedded : Nat := 0
  completed : List (List (Nat × Vector)) := []

inductive Ending
  | finished
  | failed
  | aborted
  deriving DecidableEq

/-- The loop of `embedPending` for a model whose vectors satisfy `declared`, over the turns from `turn` on; `fuel` bounds
their number. -/
def embedPending (declared : Vector → Bool) (kb model : String) (batchSize : Nat) (turns : Nat → Turn Vector) :
    Nat → Nat → Progress Vector → Option (Progress Vector × Ending)
  | 0, _, _ => none
  | fuel + 1, i, s =>
    let db := (turns i).deletedBefore.foldl Deletion.apply s.db
    if (turns i).aborted then some ({ s with db := db }, .aborted)
    else
      let batch := db.pending kb model batchSize
      if batch = [] then some ({ s with db := db }, .finished)
      else
        let db := (turns i).deletedMeanwhile.foldl Deletion.apply db
        match ((turns i).answer batch).bind (checked declared batch) with
        | none => some ({ s with db := db }, if (turns i).abortedMeanwhile then .aborted else .failed)
        | some vectors =>
          let rows := (batch.map (·.id)).zip vectors
          let stored := db.insert model rows
          let inserted := stored.embeddings.length - db.embeddings.length
          let s :=
            { db := stored
              embedded := s.embedded + inserted
              completed := s.completed ++ [rows] }
          if inserted = 0 then some (s, .finished)
          else embedPending declared kb model batchSize turns fuel (i + 1) s

def lacking (db : Database Vector) (model : String) : List ChunkRow :=
  db.chunks.filter fun c => !db.embedded c.id model

variable {declared : Vector → Bool} {kb model : String} {batchSize fuel i : Nat} {turns : Nat → Turn Vector}
  {db db' : Database Vector} {s : Progress Vector} {deletions : List Deletion} {rows : List (Nat × Vector)}

theorem valid_deletions (h : db.Valid) : (deletions.foldl Deletion.apply db).Valid := by
  induction deletions generalizing db with
  | nil => exact h
  | cons deletion deletions ih =>
    apply ih
    cases deletion with
    | chunks p => exact h.deleteChunks
    | documents p => exact h.deleteDocuments

theorem lacking_deleteChunks (h : db.Valid) {p : ChunkRow → Bool} :
    (lacking (db.deleteChunks p) model).length ≤ (lacking db model).length := by
  have hsub : (lacking (db.deleteChunks p) model).Sublist (lacking db model) := by
    have hfilter : lacking (db.deleteChunks p) model =
        (lacking db model).filter fun c => !p c && !(db.deleteChunks p).embedded c.id model := by
      rw [lacking, lacking, Database.deleteChunks, List.filter_filter, List.filter_filter]
      apply List.filter_congr
      intro c hc
      by_cases hp : p c = true
      · simp [hp]
      · have hkept : db.embedded c.id model = true → (db.deleteChunks p).embedded c.id model = true := by
          rw [Database.embedded, Database.embedded, List.any_eq_true, List.any_eq_true]
          rintro ⟨e, he, hmodel⟩
          refine ⟨e, List.mem_filter.mpr ⟨he, ?_⟩, hmodel⟩
          rw [Bool.not_eq_true', List.any_eq_false]
          intro x hx
          rw [Bool.and_eq_true, decide_eq_true_eq]
          rintro ⟨hid, hpx⟩
          rw [Bool.and_eq_true, decide_eq_true_eq] at hmodel
          rw [Table.eq_of_key h.chunkIds.nodup hx hc (hid.trans hmodel.1)] at hpx
          exact hp hpx
        rw [Database.deleteChunks] at hkept
        cases hdb : db.embedded c.id model with
        | true => simp [hkept hdb]
        | false => simp [hp]
    exact hfilter ▸ List.filter_sublist
  exact hsub.length_le

theorem length_lacking_deletions (h : db.Valid) :
    (lacking (deletions.foldl Deletion.apply db) model).length ≤ (lacking db model).length := by
  induction deletions generalizing db with
  | nil => exact Nat.le_refl _
  | cons deletion deletions ih =>
    cases deletion with
    | chunks p => exact Nat.le_trans (ih h.deleteChunks) (lacking_deleteChunks h)
    | documents p => exact Nat.le_trans (ih h.deleteDocuments) (lacking_deleteChunks h)

theorem insertEmbeddings_added (db : Database Vector) (rows : List (EmbeddingRow Vector)) : ∃ added,
    added.Sublist rows ∧ (∀ e ∈ added, db.embedded e.chunkId e.model = false) ∧
      db.insertEmbeddings rows = { db with embeddings := db.embeddings ++ added } := by
  induction rows generalizing db with
  | nil => exact ⟨[], List.Sublist.refl _, List.forall_mem_nil _, by simp [Database.insertEmbeddings]⟩
  | cons e rows ih =>
    rw [Database.insertEmbeddings]
    split
    · obtain ⟨added, hsub, hnew, h⟩ := ih db
      exact ⟨added, hsub.cons e, hnew, h⟩
    · rename_i habsent
      obtain ⟨added, hsub, hnew, h⟩ := ih { db with embeddings := db.embeddings ++ [e] }
      refine ⟨e :: added, hsub.cons_cons e, List.forall_mem_cons.mpr ⟨by simpa using habsent, fun f hf => ?_⟩, by simp [h]⟩
      have hboth := hnew f hf
      rw [Database.embedded, List.any_append, Bool.or_eq_false_iff] at hboth
      exact hboth.1

theorem length_lacking_insert (hinserted : (db.insert model rows).embeddings.length - db.embeddings.length ≠ 0) :
    (lacking (db.insert model rows) model).length < (lacking db model).length := by
  rw [Database.insert] at hinserted ⊢
  obtain ⟨added, hsub, hnew, heq⟩ := insertEmbeddings_added db
    ((rows.filter fun v => db.hasChunk v.1).map fun v => ⟨v.1, model, v.2⟩)
  rw [heq] at hinserted ⊢
  cases added with
  | nil => simp at hinserted
  | cons e added =>
    obtain ⟨v, hv, rfl⟩ := List.mem_map.mp (hsub.subset List.mem_cons_self)
    have hchunk := (List.mem_filter.mp hv).2
    rw [Database.hasChunk, List.any_eq_true] at hchunk
    obtain ⟨c, hc, hid⟩ := hchunk
    rw [decide_eq_true_eq] at hid
    have hlacking : c ∈ lacking db model := by
      refine List.mem_filter.mpr ⟨hc, ?_⟩
      rw [hid, hnew _ List.mem_cons_self]
      rfl
    have hfilter : lacking { db with embeddings := db.embeddings ++ ⟨v.1, model, v.2⟩ :: added } model =
        (lacking db model).filter fun c =>
          !Database.embedded { db with embeddings := db.embeddings ++ ⟨v.1, model, v.2⟩ :: added } c.id model := by
      rw [lacking, lacking, List.filter_filter]
      apply List.filter_congr
      intro x _
      simp only [Database.embedded, List.any_append, Bool.not_or]
      cases db.embeddings.any fun e => decide (e.chunkId = x.id) && decide (e.model = model) <;> simp
    rw [hfilter, List.length_filter_lt_length_iff_exists]
    refine ⟨c, hlacking, ?_⟩
    simp [Database.embedded, hid]

theorem embedPending_ends (hvalid : s.db.Valid) (hfuel : (lacking s.db model).length < fuel) :
    (embedPending declared kb model batchSize turns fuel i s).isSome := by
  induction fuel generalizing i s with
  | zero => omega
  | succ fuel ih =>
    unfold embedPending
    dsimp only
    split
    · rfl
    · split
      · rfl
      · split
        · rfl
        · split
          · rfl
          · rename_i hinserted
            have hbegun : ((turns i).deletedBefore.foldl Deletion.apply s.db).Valid := valid_deletions hvalid
            refine ih ?_ ?_
            · exact (valid_deletions hbegun).insert
            · have hstored := length_lacking_insert hinserted
              have hmeanwhile := @length_lacking_deletions _ model _ (turns i).deletedMeanwhile hbegun
              have hbefore := @length_lacking_deletions _ model _ (turns i).deletedBefore hvalid
              exact Nat.lt_of_lt_of_le hstored (by omega)

def pendingIds (db : Database Vector) (kb model : String) : List Nat :=
  ((db.unembedded kb model).insertionSort fun a b => a.id ≤ b.id).map (·.id)

theorem mem_pendingIds {id : Nat} : id ∈ pendingIds db kb model ↔
    (∃ c ∈ db.chunks, c.id = id ∧ db.inKb kb c = true) ∧ db.embedded id model = false := by
  rw [pendingIds, List.mem_map]
  constructor
  · rintro ⟨c, hc, rfl⟩
    have hc := List.mem_filter.mp ((List.mem_insertionSort _).mp hc)
    rw [Bool.and_eq_true, Bool.not_eq_true'] at hc
    exact ⟨⟨c, hc.1, rfl, hc.2.1⟩, hc.2.2⟩
  · rintro ⟨⟨c, hc, rfl, hkb⟩, hembedded⟩
    exact ⟨c, (List.mem_insertionSort _).mpr (List.mem_filter.mpr ⟨hc, by simp [hkb, hembedded]⟩), rfl⟩

theorem length_pendingIds : (pendingIds db kb model).length = db.countPending kb model := by
  rw [pendingIds, List.length_map, List.length_insertionSort, Database.countPending]

theorem pairwise_pendingIds (h : db.Valid) : (pendingIds db kb model).Pairwise (· < ·) := by
  have hle : (pendingIds db kb model).Pairwise (· ≤ ·) := by
    rw [pendingIds, List.pairwise_map]
    have : Std.Total fun a b : ChunkRow => a.id ≤ b.id := ⟨fun a b => Nat.le_total a.id b.id⟩
    have : IsTrans ChunkRow fun a b => a.id ≤ b.id := ⟨fun _ _ _ => Nat.le_trans⟩
    exact List.pairwise_insertionSort _ _
  have hnodup : (pendingIds db kb model).Nodup := by
    rw [pendingIds, ((List.perm_insertionSort _ _).map _).nodup_iff]
    exact h.chunkIds.nodup.sublist (List.filter_sublist.map _)
  exact (hle.and hnodup).imp fun h => Nat.lt_of_le_of_ne h.1 h.2

theorem map_id_pending {limit : Nat} :
    (db.pending kb model limit).map (·.id) = (pendingIds db kb model).take limit := by
  have hall : ∀ l : List ChunkRow, (∀ c ∈ l, db.inKb kb c = true) →
      (l.filterMap db.pendingChunk).map (·.id) = l.map (·.id) := by
    intro l hl
    induction l with
    | nil => rfl
    | cons c l ih =>
      obtain ⟨hc, hrest⟩ := List.forall_mem_cons.mp hl
      have hsome : (db.documents.find? (·.id = c.documentId)).isSome = true := by
        rw [Database.inKb, List.any_eq_true] at hc
        obtain ⟨d, hd, hid⟩ := hc
        rw [Bool.and_eq_true] at hid
        exact List.find?_isSome.mpr ⟨d, hd, hid.1⟩
      obtain ⟨d, hd⟩ := Option.isSome_iff_exists.mp hsome
      rw [List.filterMap_cons, Database.pendingChunk, hd]
      exact congrArg (c.id :: ·) (ih hrest)
  rw [Database.pending, hall, pendingIds, List.map_take]
  intro c hc
  have hc := (List.mem_filter.mp ((List.mem_insertionSort _).mp (List.take_subset _ _ hc))).2
  rw [Bool.and_eq_true] at hc
  exact hc.1

def toRow (model : String) (v : Nat × Vector) : EmbeddingRow Vector := ⟨v.1, model, v.2⟩

theorem insertEmbeddings_fresh (hnodup : (rows.map (·.1)).Nodup)
    (hfresh : ∀ v ∈ rows, db.embedded v.1 model = false) :
    db.insertEmbeddings (rows.map (toRow model)) = { db with embeddings := db.embeddings ++ rows.map (toRow model) } := by
  induction rows generalizing db with
  | nil => simp [Database.insertEmbeddings]
  | cons v rows ih =>
    obtain ⟨hv, hrest⟩ := List.forall_mem_cons.mp hfresh
    rw [List.map_cons, List.nodup_cons] at hnodup
    rw [List.map_cons, Database.insertEmbeddings, if_neg (by simpa [toRow] using hv), ih hnodup.2]
    · simp
    · intro w hw
      rw [Database.embedded, List.any_append, ← Database.embedded, hrest w hw, Bool.false_or, List.any_cons, List.any_nil,
        Bool.or_false, Bool.and_eq_false_iff]
      refine .inl (decide_eq_false fun hid => hnodup.1 ?_)
      rw [show v.1 = w.1 from hid]
      exact List.mem_map_of_mem hw

theorem insert_batch (h : db.Valid) {n : Nat} (hrows : rows.map (·.1) = (pendingIds db kb model).take n) :
    db.insert model rows = { db with embeddings := db.embeddings ++ rows.map (toRow model) } ∧
      pendingIds (db.insert model rows) kb model = (pendingIds db kb model).drop n := by
  have hpairwise : (pendingIds db kb model).Pairwise (· < ·) := pairwise_pendingIds h
  have hpending : ∀ v ∈ rows, v.1 ∈ pendingIds db kb model := fun v hv =>
    List.take_subset _ _ (hrows ▸ List.mem_map_of_mem hv)
  have hchunks : rows.filter (fun v => db.hasChunk v.1) = rows := by
    rw [List.filter_eq_self]
    intro v hv
    obtain ⟨⟨c, hc, hid, -⟩, -⟩ := mem_pendingIds.mp (hpending v hv)
    exact List.any_eq_true.mpr ⟨c, hc, by simpa using hid⟩
  have hinsert : db.insert model rows = { db with embeddings := db.embeddings ++ rows.map (toRow model) } := by
    rw [Database.insert, hchunks]
    apply insertEmbeddings_fresh
    · rw [hrows]
      exact hpairwise.nodup.sublist (List.take_sublist _ _)
    · exact fun v hv => (mem_pendingIds.mp (hpending v hv)).2
  refine ⟨hinsert, ?_⟩
  have hvalid : (db.insert model rows).Valid := h.insert
  refine (pairwise_pendingIds hvalid).eq_of_mem_iff (hpairwise.sublist (List.drop_sublist _ _)) fun id => ?_
  have hstored : (db.insert model rows).embedded id model = (db.embedded id model || rows.any (·.1 = id)) := by
    rw [hinsert, Database.embedded, List.any_append, ← Database.embedded, List.any_map]
    congr 2
    funext v
    simp only [Function.comp_apply, toRow, decide_true, Bool.and_true]
    exact decide_eq_decide.mpr Iff.rfl
  have hbatch : rows.any (·.1 = id) = true ↔ id ∈ (pendingIds db kb model).take n := by
    rw [← hrows, List.any_eq_true, List.mem_map]
    simp
  have hpart := hpairwise.nodup
  rw [← List.take_append_drop n (pendingIds db kb model), List.nodup_append] at hpart
  have hmem : id ∈ (pendingIds db kb model).drop n ↔
      id ∈ pendingIds db kb model ∧ id ∉ (pendingIds db kb model).take n := by
    constructor
    · exact fun hdrop => ⟨List.mem_of_mem_drop hdrop, fun htake => hpart.2.2 id htake id hdrop rfl⟩
    · rintro ⟨hall, htake⟩
      rw [← List.take_append_drop n (pendingIds db kb model), List.mem_append] at hall
      exact hall.resolve_left htake
  rw [hmem, ← hbatch, mem_pendingIds, mem_pendingIds, hstored, hinsert, Bool.or_eq_false_iff, Bool.not_eq_true, and_assoc]
  rfl

def Turn.Quiet (turn : Turn Vector) : Prop := turn.deletedBefore = [] ∧ turn.deletedMeanwhile = []

def Turn.Embeds (declared : Vector → Bool) (turn : Turn Vector) (rows : List (Nat × Vector)) : Prop :=
  turn.aborted = false ∧ ∃ batch vectors, turn.answer batch = some vectors ∧ vectors.length = batch.length ∧
    vectors.all declared = true ∧ rows = (batch.map (·.id)).zip vectors

def Turn.Ends (declared : Vector → Bool) (kb model : String) (batchSize : Nat) (turn : Turn Vector)
    (db : Database Vector) : Ending → Prop
  | .finished => turn.aborted = false ∧ pendingIds db kb model = []
  | .failed => turn.aborted = false ∧ turn.abortedMeanwhile = false ∧
      (turn.answer (db.pending kb model batchSize)).bind (checked declared (db.pending kb model batchSize)) = none
  | .aborted => turn.aborted = true ∨ turn.abortedMeanwhile = true ∧
      (turn.answer (db.pending kb model batchSize)).bind (checked declared (db.pending kb model batchSize)) = none

theorem embedPending_quiet (hvalid : s.db.Valid) (hbatch : 1 ≤ batchSize) (hquiet : ∀ j, (turns j).Quiet)
    (hfuel : (pendingIds s.db kb model).length < fuel) :
    ∃ s' ending new, embedPending declared kb model batchSize turns fuel i s = some (s', ending) ∧
      s'.completed = s.completed ++ new ∧ s'.embedded = s.embedded + new.flatten.length ∧
      s'.db = { s.db with embeddings := s.db.embeddings ++ new.flatten.map (toRow model) } ∧
      new.flatten.map (·.1) <+: pendingIds s.db kb model ∧
      (∀ (j : Nat) (rows : List (Nat × Vector)), new[j]? = some rows → (turns (i + j)).Embeds declared rows) ∧
      (turns (i + new.length)).Ends declared kb model batchSize s'.db ending := by
  induction fuel generalizing i s with
  | zero => omega
  | succ fuel ih =>
    have hpending := @map_id_pending _ kb model s.db batchSize
    unfold embedPending
    dsimp only
    rw [(hquiet i).1, (hquiet i).2, List.foldl_nil, List.foldl_nil]
    split
    · rename_i haborted
      exact ⟨_, _, [], rfl, by simp, by simp, by simp, by simp, by simp, .inl haborted⟩
    · rename_i haborted
      rw [Bool.not_eq_true] at haborted
      split
      · rename_i hempty
        refine ⟨_, _, [], rfl, by simp, by simp, by simp, by simp, by simp, haborted, ?_⟩
        rw [hempty] at hpending
        cases hids : pendingIds s.db kb model with
        | nil => rfl
        | cons id ids =>
          obtain ⟨n, hn⟩ := Nat.exists_eq_add_of_le' hbatch
          rw [hids, hn] at hpending
          cases hpending
      · rename_i hnonempty
        split
        · rename_i hanswer
          refine ⟨_, _, [], rfl, by simp, by simp, by simp, by simp, by simp, ?_⟩
          cases hmeanwhile : (turns i).abortedMeanwhile with
          | true => exact .inr ⟨hmeanwhile, hanswer⟩
          | false => exact ⟨haborted, hmeanwhile, hanswer⟩
        · rename_i vectors hanswer
          obtain ⟨answered, hanswered, hchecked⟩ := Option.bind_eq_some_iff.mp hanswer
          unfold checked at hchecked
          split at hchecked
          · rename_i hcheck
            cases hchecked
            have hids : ((((s.db.pending kb model batchSize).map (·.id)).zip vectors).map (·.1)) =
                (pendingIds s.db kb model).take batchSize := by
              rw [← hpending]
              exact List.map_fst_zip (by rw [List.length_map, hcheck.1])
            obtain ⟨hinsert, hrest⟩ := insert_batch hvalid hids
            have hlength : (((s.db.pending kb model batchSize).map (·.id)).zip vectors).length =
                (s.db.pending kb model batchSize).length := by
              rw [List.length_zip, List.length_map, hcheck.1, Nat.min_self]
            have hpositive := List.length_pos_iff.mpr hnonempty
            generalize hrows : ((s.db.pending kb model batchSize).map (·.id)).zip vectors = rows at hids hinsert hrest hlength
            have hinserted : (s.db.insert model rows).embeddings.length - s.db.embeddings.length = rows.length := by
              rw [hinsert, List.length_append, List.length_map, Nat.add_sub_cancel_left]
            have hdrop : (pendingIds (s.db.insert model rows) kb model).length < fuel := by
              have htake := congrArg List.length hids
              rw [List.length_map, hlength, List.length_take] at htake
              rw [hrest, List.length_drop]
              omega
            rw [hinserted, if_neg (by omega)]
            obtain ⟨s', ending, new, hloop, hcompleted, hembedded, hdb, hinit, hturns, hends⟩ :=
              ih (i := i + 1) (s := ⟨s.db.insert model rows, s.embedded + rows.length, s.completed ++ [rows]⟩)
                hvalid.insert hdrop
            refine ⟨s', ending, rows :: new, hloop, ?_, ?_, ?_, ?_, ?_, ?_⟩
            · rw [hcompleted, List.append_assoc]
              rfl
            · rw [hembedded, List.flatten_cons, List.length_append, Nat.add_assoc]
            · rw [hdb, hinsert, List.flatten_cons, List.map_append, List.append_assoc]
            · dsimp only at hinit
              rw [hrest] at hinit
              have hboth := (List.prefix_append_right_inj ((pendingIds s.db kb model).take batchSize)).mpr hinit
              rw [List.take_append_drop] at hboth
              rw [List.flatten_cons, List.map_append, hids]
              exact hboth
            · intro j rows' hj
              cases j with
              | zero =>
                cases hj
                exact ⟨haborted, _, vectors, hanswered, hcheck.1, hcheck.2, hrows.symm⟩
              | succ j =>
                rw [Nat.add_comm j 1, ← Nat.add_assoc]
                exact hturns j rows' hj
            · rw [List.length_cons, Nat.add_comm new.length 1, ← Nat.add_assoc]
              exact hends
          · cases hchecked

theorem ends_finished {turn : Turn Vector} {ending : Ending} (haborted : turn.aborted = false)
    (hanswer : ∀ batch, ∃ vectors, turn.answer batch = some vectors ∧ vectors.length = batch.length ∧
      vectors.all declared = true)
    (h : turn.Ends declared kb model batchSize db ending) : ending = .finished ∧ pendingIds db kb model = [] := by
  obtain ⟨vectors, hvectors, hlength, hall⟩ := hanswer (db.pending kb model batchSize)
  have hsome : (turn.answer (db.pending kb model batchSize)).bind (checked declared (db.pending kb model batchSize)) =
      some vectors := by
    rw [hvectors, Option.bind_some, checked, if_pos ⟨hlength, hall⟩]
  cases ending with
  | finished => exact ⟨rfl, h.2⟩
  | failed => exact absurd (hsome.symm.trans h.2.2) (Option.some_ne_none _)
  | aborted =>
    cases h with
    | inl h => exact absurd (haborted.symm.trans h) Bool.false_ne_true
    | inr h => exact absurd (hsome.symm.trans h.2) (Option.some_ne_none _)

theorem unembedded_of_pendingIds (h : pendingIds db kb model = []) : db.unembedded kb model = [] := by
  rw [← List.length_eq_zero_iff, ← Database.countPending, ← length_pendingIds, h, List.length_nil]

theorem pendingIds_stored {completed : List (Nat × Vector)} (h : db.Valid)
    (hinit : completed.map (·.1) <+: pendingIds db kb model) :
    db.insert model completed = { db with embeddings := db.embeddings ++ completed.map (toRow model) } ∧
      pendingIds (db.insert model completed) kb model = (pendingIds db kb model).drop completed.length := by
  refine insert_batch h ?_
  rw [List.prefix_iff_eq_take.mp hinit, List.length_map]

theorem embedPending_stores (declared : Vector → Bool) (kb model : String) (batchSize : Nat)
    (turns : Nat → Turn Vector) (db : Database Vector) (hvalid : db.Valid) (hbatch : 1 ≤ batchSize) :
    (∀ fuel, db.chunks.length < fuel →
      (embedPending declared kb model batchSize turns fuel 0 { db := db }).isSome) ∧
    ((∀ i, (turns i).Quiet) → ∀ fuel, db.countPending kb model < fuel → ∃ s ending,
      embedPending declared kb model batchSize turns fuel 0 { db := db } = some (s, ending) ∧
      s.db = { db with embeddings := db.embeddings ++ s.completed.flatten.map (toRow model) } ∧
      s.embedded = s.completed.flatten.length ∧
      (s.completed.flatten.map (·.1)).Nodup ∧
      (∀ id ∈ s.completed.flatten.map (·.1), id ∈ pendingIds db kb model ∧ db.embedded id model = false) ∧
      (∀ (i : Nat) (rows : List (Nat × Vector)), s.completed[i]? = some rows → (turns i).Embeds declared rows) ∧
      (turns s.completed.length).Ends declared kb model batchSize s.db ending ∧
      ((∀ i, (turns i).aborted = false) →
        (∀ i batch, ∃ vectors, (turns i).answer batch = some vectors ∧ vectors.length = batch.length ∧
          vectors.all declared = true) →
        ending = .finished ∧ s.db.unembedded kb model = [] ∧ s.embedded = db.countPending kb model)) := by
  refine ⟨fun fuel hfuel => embedPending_ends hvalid ?_, fun hquiet fuel hfuel => ?_⟩
  · exact Nat.lt_of_le_of_lt (List.length_filter_le _ _) hfuel
  · obtain ⟨s, ending, new, hloop, hcompleted, hembedded, hdb, hinit, hturns, hends⟩ :=
      @embedPending_quiet _ declared kb model batchSize fuel 0 turns { db := db } hvalid hbatch hquiet
        (length_pendingIds ▸ hfuel)
    rw [List.nil_append] at hcompleted
    rw [Nat.zero_add] at hembedded hends
    subst hcompleted
    refine ⟨s, ending, hloop, hdb, hembedded, ?_, ?_, ?_, hends, fun haborted hanswer => ?_⟩
    · exact (pairwise_pendingIds hvalid).nodup.sublist hinit.sublist
    · exact fun id hid => ⟨hinit.subset hid, (mem_pendingIds.mp (hinit.subset hid)).2⟩
    · intro i rows hi
      have := hturns i rows hi
      rwa [Nat.zero_add] at this
    · obtain ⟨hfinished, hnone⟩ := ends_finished (haborted _) (hanswer _) hends
      refine ⟨hfinished, unembedded_of_pendingIds hnone, ?_⟩
      obtain ⟨hinsert, hrest⟩ := pendingIds_stored hvalid hinit
      rw [hinsert, ← hdb, hnone] at hrest
      have hall := List.drop_eq_nil_iff.mp hrest.symm
      have hle := hinit.length_le
      rw [List.length_map] at hle
      rw [hembedded, ← length_pendingIds]
      exact Nat.le_antisymm hle hall

def noteDatabase : Database Nat where
  documents := [⟨1, ⟨"kb", [], none, none, none, [], [], .object []⟩⟩]
  nextDocument := 2
  chunks := [⟨1, 1, ⟨0, [], [], [], []⟩, ⟨"english", none, [], []⟩⟩, ⟨2, 1, ⟨1, [], [], [], []⟩, ⟨"english", none, [], []⟩⟩]
  nextChunk := 3

theorem valid_noteDatabase : noteDatabase.Valid where
  documentIds := ⟨by decide, by decide⟩
  documentKeys := List.nodup_singleton _
  chunkIds := ⟨by decide, by decide⟩
  chunkDocument c hc := by
    refine ⟨_, List.mem_singleton_self _, ?_⟩
    rcases List.mem_cons.mp hc with rfl | hc
    · rfl
    · rw [List.mem_singleton.mp hc]
  embeddingChunk e he := absurd he List.not_mem_nil
  kept d hd := by
    rw [List.mem_singleton.mp hd]
    exact ⟨rfl, rfl, fun t ht => absurd ht (by simp), rfl, rfl, rfl, rfl⟩

theorem embedPending_stores_failing : ∃ s ending,
    embedPending (fun _ => true) "kb" "m" 1
      (fun i => { answer := fun batch => if i = 0 then some (batch.map fun _ => 7) else none }) 3 0
      { db := noteDatabase } = some (s, ending) ∧
      s.db = { noteDatabase with
        embeddings := noteDatabase.embeddings ++ s.completed.flatten.map (toRow "m") } := by
  obtain ⟨s, ending, hloop, hdb, -⟩ := (embedPending_stores (fun _ => true) "kb" "m" 1
    (fun i => { answer := fun batch => if i = 0 then some (batch.map fun _ => 7) else none }) noteDatabase
    valid_noteDatabase (by decide)).2 (fun i => ⟨rfl, rfl⟩) 3 (by decide)
  exact ⟨s, ending, hloop, hdb⟩

end HomelabApps.KnowledgeBase.EmbeddingRun.Pass
