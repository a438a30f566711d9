import HomelabApps.KnowledgeBase.KnowledgeBaseAccess
import HomelabApps.KnowledgeBase.SearchService.Coverage
import HomelabApps.KnowledgeBase.Store.Agreement
import Mathlib.Data.Prod.Lex
import Mathlib.Data.String.Basic

/-! A search tells nothing of the knowledge bases that its caller may not read. -/

universe u v

namespace HomelabApps.KnowledgeBase.SearchService

open HomelabApps.Library
open HomelabApps.Library.Utf16
open KnowledgeBaseAccess (ReadableConfig AccessError readable requestedIds resolve)
open RankFusion (fuse mem_fuse)
open Store

inductive AskError
  | access (error : AccessError)
  | search (error : SearchError)
  deriving DecidableEq, Repr

variable {Vector : Type u}

def Services.onto (s : Services Vector) (db : ValidDatabase Vector) (tsConfigs : String → Option String) :
    Services Vector :=
  { s with db := db, tsConfigs := tsConfigs }

def ask (s : Services Vector) (roles : List JsString) (knowledgeBases : List ReadableConfig)
    (requested : Option JsString) (query : SearchQuery) : Except AskError SearchOutcome :=
  match resolve roles knowledgeBases requested with
  | .error e => .error (.access e)
  | .ok kbs => (search s { query with knowledgeBases := kbs.map (·.toKnowledgeBaseConfig) }).mapError .search

variable {s : Services Vector} {db' : ValidDatabase Vector} {tsConfigs' : String → Option String}
  {query : SearchQuery} {kbs group : List String} {gathered : Gathered} {name : String}
  {groups : List (String × List String)}

structure Services.Shares (kbs : List String) (s : Services Vector) (db' : ValidDatabase Vector)
    (tsConfigs' : String → Option String) : Prop where
  rows : Agree kbs s.db.val db'.val
  tsConfigs : ∀ kb ∈ kbs, s.tsConfigs kb = tsConfigs' kb

theorem bind_congr_ok {ε : Type u} {α β : Type v} {x : Except ε α} {f g : α → Except ε β}
    (h : ∀ a, x = .ok a → f a = g a) : (x >>= f) = (x >>= g) := by
  cases x with
  | error e => rfl
  | ok a => exact h a rfl

theorem vectorGroups_subset (h : vectorGroups s query = .ok groups) : ∀ g ∈ groups, g.2 ⊆ query.ids := by
  unfold vectorGroups at h
  split at h
  · exact byModel_subset h
  · obtain rfl := Except.ok.inj h
    intro g hg
    cases hg

section Shares

variable (h : s.Shares kbs db' tsConfigs')

include h

theorem fullTextIds_onto (hsub : group ⊆ kbs) {withoutVectorFor : Option String} :
    fullTextIds (s.onto db' tsConfigs') query group withoutVectorFor =
      fullTextIds s query group withoutVectorFor :=
  congrArg orDatabase (h.rows.fullText s.db.property db'.property h.tsConfigs hsub).symm

theorem unembeddedLeg_onto (hsub : group ⊆ kbs) :
    unembeddedLeg (s.onto db' tsConfigs') query name group gathered =
      unembeddedLeg s query name group gathered := by
  simp only [unembeddedLeg, fullTextIds_onto h hsub]

theorem fullTextLeg_onto (hsub : query.ids ⊆ kbs) :
    fullTextLeg (s.onto db' tsConfigs') query gathered = fullTextLeg s query gathered := by
  unfold fullTextLeg
  by_cases hweight : 0 < (weights s query).fullText.val
  · have hweight' : 0 < (weights (s.onto db' tsConfigs') query).fullText.val := hweight
    simp only [hweight, hweight', decide_true, if_true]
    rw [fullTextIds_onto h hsub]
    rfl
  · have hweight' : ¬ 0 < (weights (s.onto db' tsConfigs') query).fullText.val := hweight
    simp only [hweight, hweight', decide_false, Bool.false_eq_true, if_false]
    rw [fullTextIds_onto h (List.Subset.trans List.filter_sublist.subset hsub)]

variable (hexact : s.index.Exact)

include hexact

theorem vectorLeg_onto (hsub : group ⊆ kbs) :
    vectorLeg (s.onto db' tsConfigs') query gathered name group =
      vectorLeg s query gathered name group := by
  cases hquestion : s.embedQuery name query.question with
  | none =>
    have hquestion' : (s.onto db' tsConfigs').embedQuery name query.question = none := hquestion
    simp only [vectorLeg, hquestion, hquestion']
  | some nearest =>
    have hquestion' : (s.onto db' tsConfigs').embedQuery name query.question = some nearest := hquestion
    have hvector : vector (s.onto db' tsConfigs').db.val (s.onto db' tsConfigs').index group name nearest
        query.filter (s.onto db' tsConfigs').config.candidates =
      vector s.db.val s.index group name nearest query.filter s.config.candidates :=
      (h.rows.vector s.db.property db'.property hexact hsub).symm
    simp only [vectorLeg, hquestion, hquestion', hvector, unembeddedLeg_onto h hsub]
    rfl

theorem vectorLegs_onto (hsub : ∀ g ∈ groups, g.2 ⊆ kbs) :
    vectorLegs (s.onto db' tsConfigs') query gathered groups = vectorLegs s query gathered groups := by
  induction groups generalizing gathered with
  | nil => rfl
  | cons g groups ih =>
    obtain ⟨hfirst, hrest⟩ := List.forall_mem_cons.mp hsub
    simp only [vectorLegs, vectorLeg_onto h hexact hfirst, ih hrest]

theorem gather_onto (hsub : query.ids ⊆ kbs) :
    gather (s.onto db' tsConfigs') query = gather s query := by
  refine bind_congr_ok fun groups hgroups => ?_
  have hgroup : ∀ g ∈ groups, g.2 ⊆ kbs := fun g hg =>
    List.Subset.trans (vectorGroups_subset hgroups g hg) hsub
  rw [vectorLegs_onto h hexact hgroup]
  exact bind_congr_ok fun vectors _ => fullTextLeg_onto h hsub

omit hexact in
theorem rank_onto (hsub : query.ids ⊆ kbs) (hsound : gathered.Sound s query) :
    rank (s.onto db' tsConfigs') query gathered = rank s query gathered := by
  simp only [rank, Services.onto]
  generalize hfused : (fuse s.round s.config.rrfK (gathered.rankings.map (·.toRanking))).take query.limit =
    hits
  have hids : ∀ id ∈ hits.map (·.id), ∃ c ∈ s.db.val.chunks, c.id = id ∧ s.db.val.within kbs c = true := by
    intro id hid
    obtain ⟨hit, hhit, rfl⟩ := List.mem_map.mp hid
    rw [← hfused] at hhit
    obtain ⟨c, hc, hchunk, kb, hkb, hin⟩ := hsound.of_fused (List.take_subset _ _ hhit)
    exact ⟨c, hc, hchunk, List.any_eq_true.mpr ⟨kb, hsub hkb, hin⟩⟩
  have hdetails : Option.Rel List.Perm
      (details s.db.val s.tsConfigs s.text (hits.map (·.id)) query.question)
      (details db'.val tsConfigs' s.text (hits.map (·.id)) query.question) :=
    h.rows.details s.db.property db'.property h.tsConfigs hids
  generalize details db'.val tsConfigs' s.text (hits.map (·.id)) query.question = found' at hdetails ⊢
  generalize hfound : details s.db.val s.tsConfigs s.text (hits.map (·.id)) query.question = found
    at hdetails ⊢
  cases hdetails with
  | none => rfl
  | some hperm =>
    refine congrArg Except.ok (List.filterMap_congr fun hit _ => ?_)
    rw [Table.find?_perm (nodup_details s.db.property hfound) hperm]

theorem search_onto (hsub : query.ids ⊆ kbs) :
    search (s.onto db' tsConfigs') query = search s query := by
  unfold search
  rw [gather_onto h hexact hsub]
  split
  · rfl
  · refine bind_congr_ok fun gathered hgathered => ?_
    rw [rank_onto h hsub (gather_sound hgathered).1]

end Shares

theorem ask_confidential (s : Services Vector) (db' : ValidDatabase Vector)
    (tsConfigs' : String → Option String) (roles : List JsString)
    (knowledgeBases knowledgeBases' : List ReadableConfig) (requested : Option JsString)
    (query : SearchQuery) (hexact : s.index.Exact)
    (hreadable : readable roles knowledgeBases = readable roles knowledgeBases')
    (hshares : s.Shares ((readable roles knowledgeBases).map (·.id)) db' tsConfigs') :
    ask s roles knowledgeBases requested query =
        ask (s.onto db' tsConfigs') roles knowledgeBases' requested query ∧
      ∀ id ∈ requestedIds requested, (∀ kb ∈ readable roles knowledgeBases, utf16 kb.id ≠ id) →
        ask s roles knowledgeBases requested query =
          .error (.access (.notFound "Knowledge base not found.")) := by
  constructor
  · unfold ask
    rw [← KnowledgeBaseAccess.resolve_congr hreadable]
    cases hresolve : resolve roles knowledgeBases requested with
    | error e => rfl
    | ok kbs =>
      refine congrArg (Except.mapError AskError.search) (search_onto hshares hexact ?_).symm
      simp only [SearchQuery.ids, List.map_map]
      exact List.map_subset _ (KnowledgeBaseAccess.resolve_subset hresolve)
  · intro id hid hunreadable
    unfold ask
    rw [KnowledgeBaseAccess.resolve_unreadable hid hunreadable]

def nearness (question : Nat) (row : EmbeddingRow Nat) : Lex (ℚ × Lex (Nat × Lex (String × Nat))) :=
  toLex (|(row.embedding : ℚ) - question|, toLex (row.chunkId, toLex (row.model, row.embedding)))

def exactIndex : VectorIndex Nat where
  distance a b := |(a : ℚ) - b|
  scan question limit rows :=
    (rows.insertionSort fun a b => nearness question a ≤ nearness question b).take limit
  scan_subset _ _ _ _ h := (List.mem_insertionSort _).mp (List.take_subset _ _ h)

theorem exactIndex_exact : exactIndex.Exact := by
  intro question
  refine ⟨fun a b => nearness question a ≤ nearness question b, inferInstance,
    ⟨fun a b => le_total _ _⟩, ⟨fun a b c => le_trans⟩, ⟨?_⟩, ?_, fun limit rows => rfl⟩
  · rintro ⟨_, _, _⟩ ⟨_, _, _⟩ hab hba
    have hsame := le_antisymm hab hba
    simp only [nearness, EmbeddingLike.apply_eq_iff_eq, Prod.mk.injEq] at hsame
    obtain ⟨-, rfl, rfl, rfl⟩ := hsame
    rfl
  · intro a b hab
    exact Prod.Lex.monotone_fst _ _ hab

def besidePrivate : Database Nat :=
  { partlyEmbedded with
    documents := partlyEmbedded.documents ++
      [⟨2, ⟨"private", [97], none, none, none, [98], [49], .null⟩⟩]
    nextDocument := 3
    chunks := ⟨3, 2, ⟨0, [], [], [98], [99]⟩, ⟨"english", none, [], [98]⟩⟩ :: partlyEmbedded.chunks
    nextChunk := 4
    embeddings := ⟨3, "m", 0⟩ :: partlyEmbedded.embeddings }

theorem besidePrivate_valid : besidePrivate.Valid where
  documentIds := ⟨by decide, by decide⟩
  documentKeys := by decide
  chunkIds := ⟨by decide, by decide⟩
  chunkDocument := by simp [besidePrivate, partlyEmbedded]
  embeddingChunk := by simp [besidePrivate, partlyEmbedded]
  kept := by
    simp only [besidePrivate, partlyEmbedded, List.cons_append, List.nil_append, List.forall_mem_cons]
    exact ⟨⟨rfl, rfl, (fun _ h => by cases h), rfl, rfl, rfl, rfl⟩,
      ⟨rfl, rfl, (fun _ h => by cases h), rfl, rfl, rfl, rfl⟩, fun _ h => by cases h⟩

def readableNotes : ReadableConfig :=
  ⟨⟨"notes", "english", ["m"], .shortest, ⟨[[]], []⟩⟩, [[114]]⟩

def unreadable : ReadableConfig :=
  ⟨⟨"private", "english", ["m"], .shortest, ⟨[[]], []⟩⟩, [[115]]⟩

theorem ask_confidential_private :
    let s : Services Nat := { partlyServices with index := exactIndex }
    let s' := s.onto ⟨besidePrivate, besidePrivate_valid⟩ s.tsConfigs
    ask s [[114]] [readableNotes] none partlyQuery =
        ask s' [[114]] [unreadable, readableNotes] none partlyQuery ∧
      ask s [[114]] [readableNotes] (some (utf16 "private")) partlyQuery =
        ask s' [[114]] [unreadable, readableNotes] (some (utf16 "private")) partlyQuery ∧
      ask s [[114]] [readableNotes] (some (utf16 "private")) partlyQuery =
        .error (.access (.notFound "Knowledge base not found.")) := by
  intro s s'
  have hshares : s.Shares ((readable [[114]] [readableNotes]).map (·.id))
      ⟨besidePrivate, besidePrivate_valid⟩ s.tsConfigs :=
    ⟨⟨List.Perm.of_eq rfl, List.Perm.of_eq rfl, List.Perm.of_eq rfl⟩, fun kb hkb => rfl⟩
  have hboth := fun requested => ask_confidential s ⟨besidePrivate, besidePrivate_valid⟩ s.tsConfigs [[114]]
    [readableNotes] [unreadable, readableNotes] requested partlyQuery exactIndex_exact rfl hshares
  refine ⟨(hboth none).1, (hboth _).1, (hboth (some (utf16 "private"))).2 (utf16 "private") ?_ ?_⟩
  · decide +kernel
  · decide +kernel

end HomelabApps.KnowledgeBase.SearchService
