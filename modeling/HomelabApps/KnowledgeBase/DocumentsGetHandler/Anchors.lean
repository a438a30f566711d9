import HomelabApps.KnowledgeBase.DocumentsGetHandler
import HomelabApps.KnowledgeBase.EmbeddingRun.Current
import HomelabApps.KnowledgeBase.EmbeddingRun.EachChunk
import HomelabApps.KnowledgeBase.Markdown.Chunker.Anchors
import HomelabApps.KnowledgeBase.SearchService.Confidential

universe u

namespace HomelabApps.KnowledgeBase.Markdown

open HomelabApps.Library.Utf16

variable {unicode : Unicode} {o : Occurrences} {s text original result : JsString} {texts : List JsString} {u : UInt16}
  {p : Nat → Bool}

theorem notMem_filterPoints (hu : isSurrogate u = false) (hp : p u.toNat = false) : u ∉ filterPoints p s := by
  have hne : ∀ v, p v.toNat = true → u ≠ v := fun v hv heq => by
    rw [← heq, hp] at hv
    cases hv
  induction s using filterPoints.induct (p := p) with
  | case1 => exact List.not_mem_nil
  | case2 v hv =>
    rw [filterPoints, if_pos hv, List.mem_singleton]
    exact hne v hv
  | case3 v hv =>
    rw [filterPoints, if_neg hv]
    exact List.not_mem_nil
  | case4 v w rest hvw hv ih =>
    obtain ⟨hhigh, hlow⟩ := Bool.and_eq_true_iff.mp hvw
    rw [filterPoints, if_pos hvw, if_pos hv, List.mem_cons, List.mem_cons, not_or, not_or]
    refine ⟨fun heq => ?_, fun heq => ?_, ih⟩
    · rw [heq, isSurrogate_of_isHigh hhigh] at hu
      cases hu
    · rw [heq, isSurrogate_of_isLow hlow] at hu
      cases hu
  | case5 v w rest hvw hv ih =>
    rw [filterPoints, if_pos hvw, if_neg hv]
    exact ih
  | case6 v w rest hvw hv ih =>
    rw [filterPoints, if_neg hvw, if_pos hv, List.mem_cons, not_or]
    exact ⟨hne v hv, ih⟩
  | case7 v w rest hvw hv ih =>
    rw [filterPoints, if_neg hvw, if_neg hv]
    exact ih

section Hash

variable (hword : unicode.isWordPoint HASH.toNat = false)

include hword

theorem hash_slugify : HASH ∉ slugify unicode text := by
  intro hmem
  obtain ⟨v, hv, heq⟩ := List.mem_map.mp hmem
  split at heq
  · cases heq
  · subst heq
    refine notMem_filterPoints (by decide) ?_ hv
    rw [hword]
    rfl

omit hword in
theorem hash_numbered {n : Nat} (h : HASH ∉ original) : HASH ∉ numbered original n := by
  have hdigit : ∀ c ∈ (toString n).toList, c.toNat < 0x80 ∧ c.toNat ≠ HASH.toNat := by
    intro c hc
    have hisDigit := Nat.isDigit_of_mem_toDigits (by omega) (by omega) (Nat.toList_repr ▸ hc)
    simp only [Char.isDigit, Bool.and_eq_true, decide_eq_true_eq] at hisDigit
    have hfrom : 48 ≤ c.toNat := hisDigit.1
    have hto : c.toNat ≤ 57 := hisDigit.2
    have hhash : HASH.toNat = 35 := rfl
    omega
  rw [numbered, List.mem_append, List.mem_cons, not_or, not_or]
  refine ⟨h, by decide, fun hmem => ?_⟩
  obtain ⟨c, hc, heq⟩ := mem_utf16 (fun c hc => (hdigit c hc).1) hmem
  exact (hdigit c hc).2 heq.symm

omit hword in
theorem hash_freeSlug {fuel : Nat} (h : HASH ∉ original) (hresult : HASH ∉ result) :
    HASH ∉ (freeSlug original fuel result o).1 := by
  induction fuel generalizing result o with
  | zero => exact hresult
  | succ fuel ih =>
    rw [freeSlug]
    split
    · exact ih (hash_numbered h)
    · exact hresult

theorem hash_slugs : ∀ name ∈ (slugs unicode o texts).1, HASH ∉ name := by
  induction texts generalizing o with
  | nil => exact List.forall_mem_nil _
  | cons text texts ih =>
    intro name hname
    rw [slugs, List.mem_cons] at hname
    cases hname with
    | inl hname =>
      rw [hname, slug]
      exact hash_freeSlug (hash_slugify hword) (hash_slugify hword)
    | inr hname => exact ih name hname

theorem hash_sections {mode : ChunkingMode} {markdown : JsString} {part : Section}
    (hpart : part ∈ sections unicode markdown mode) : ∀ name ∈ part.slug, HASH ∉ name := by
  obtain ⟨kept, hslugs, hkept⟩ := @named_sections unicode markdown mode
  intro name hname
  have hmem : some name ∈ none :: kept.map some := hslugs ▸ hname ▸ List.mem_map_of_mem (f := Section.slug) hpart
  obtain ⟨name', hname', heq⟩ := List.mem_map.mp ((List.mem_cons.mp hmem).resolve_left (Option.some_ne_none name))
  cases heq
  exact hash_slugs hword name (hkept.subset hname')

end Hash

end HomelabApps.KnowledgeBase.Markdown

namespace HomelabApps.KnowledgeBase.DocumentsGetHandler

open HomelabApps.Library.Utf16
open EmbeddingRun (Brought Event Models State Text each_run run text_toWellFormed)
open KnowledgeBaseAccess (ReadableConfig resolve)
open Markdown
open Notes (lastIndexOf lastIndexOf_append)
open SearchService (ScoredHit SearchOutcome SearchQuery Services bind_eq_ok orDatabase_eq_ok search)
open Store

variable {Vector : Type u} {platform : Platform} {db db' : Database Vector} {x anchor : JsString} {kbs : List String}
  {kb : String} {hit : SearchHitDTO} {found : List DocumentDTO}

inductive AnchorOf (externalId : JsString) : JsString → Prop
  | document : AnchorOf externalId externalId
  | heading {slug : JsString} : HASH ∉ slug → AnchorOf externalId (externalId ++ HASH :: slug)

def Addressed (document : DocumentDTO) (chunk : ChunkDTO) : Prop :=
  Text chunk.anchor ∧ AnchorOf document.externalId chunk.anchor

theorem AnchorOf.stored (h : AnchorOf x anchor) : AnchorOf (toWellFormed x) (toWellFormed anchor) := by
  cases h with
  | document => exact .document
  | heading hslug =>
    rw [toWellFormed_append_cons (by decide)]
    exact .heading fun hmem => hslug ((mem_toWellFormed hmem).resolve_right fun hreplaced =>
      absurd hreplaced.1 (by decide))

theorem anchorOf_chunk (hword : platform.unicode.isWordPoint HASH.toNat = false) {kb : KnowledgeBaseConfig}
    {document : SourceDocument} {chunk : ChunkDTO} (h : chunk ∈ chunksOf platform kb document) :
    AnchorOf document.externalId chunk.anchor := by
  obtain ⟨c, hc, rfl⟩ := List.mem_map.mp h
  obtain ⟨i, hi⟩ := List.mem_iff_getElem?.mp hc
  obtain ⟨k, part, -, hpart, -, hanchor⟩ := section_of_chunk hi
  have hslug := hash_sections hword (List.mem_of_getElem? hpart)
  rw [toChunkDTO, hanchor, Section.anchor]
  cases hname : part.slug with
  | none => exact .document
  | some name => exact .heading (hslug name hname)

theorem brought_addressed (hword : platform.unicode.isWordPoint HASH.toNat = false) :
    Brought platform Addressed where
  touched _ _ _ h := h
  written kb document chunk hchunk _ haccepted := by
    simp only [ChunkDTO.accepted, textAccepts, Bool.and_eq_true, decide_eq_true_eq] at haccepted
    exact ⟨text_toWellFormed haccepted.1.1.2, (anchorOf_chunk hword hchunk).stored⟩

theorem details_shows {tsConfigs : String → Option String} {text : TextSearch} {ids : List Nat} {question : JsString}
    {hits : List SearchHitDTO} (h : details db tsConfigs text ids question = some hits) (hhit : hit ∈ hits) :
    ∃ c ∈ db.chunks, ∃ d ∈ db.documents, d.id = c.documentId ∧ hit.externalId = d.document.externalId ∧
      hit.anchor = c.chunk.anchor := by
  unfold details at h
  split at h
  · cases h
    cases hhit
  · obtain ⟨-, hhits⟩ := Option.ite_none_right_eq_some.mp h
    obtain rfl := Option.some.inj hhits
    obtain ⟨c, hc, hhit⟩ := List.mem_filterMap.mp hhit
    simp only [hitOf, Option.bind_eq_bind, Option.bind_eq_some_iff] at hhit
    obtain ⟨d, hd, tsConfig, -, hhit⟩ := hhit
    obtain rfl := Option.some.inj hhit
    obtain ⟨hd, hid⟩ := documentOf_eq_some hd
    exact ⟨c, (List.mem_filter.mp hc).1, d, hd, hid, rfl, rfl⟩

theorem search_shows {services : Services Vector} {query : SearchQuery} {outcome : SearchOutcome} {scored : ScoredHit}
    (h : search services query = .ok outcome) (hscored : scored ∈ outcome.hits) :
    ∃ c ∈ services.db.val.chunks, ∃ d ∈ services.db.val.documents, d.id = c.documentId ∧
      scored.hit.externalId = d.document.externalId ∧ scored.hit.anchor = c.chunk.anchor := by
  unfold search at h
  split at h
  · cases h
    cases hscored
  · obtain ⟨gathered, -, h⟩ := bind_eq_ok.mp h
    obtain ⟨ranked, hranked, h⟩ := bind_eq_ok.mp h
    cases h
    obtain ⟨hits, hhits, hranked⟩ := bind_eq_ok.mp hranked
    cases hranked
    have hmem := (SearchService.demote_stable _).perm.mem_iff.mp hscored
    obtain ⟨fused, -, hfound⟩ := List.mem_filterMap.mp hmem
    obtain ⟨hit, hhit, rfl⟩ := Option.map_eq_some_iff.mp hfound
    exact details_shows (orDatabase_eq_ok.mp hhits) (List.mem_of_find?_eq_some hhit)

theorem query_eq_ok : query db kbs x = .ok found ↔ db.find kbs x = some found := by
  unfold query
  cases db.find kbs x with
  | none => simp
  | some found => simp

theorem find_anchor (hanchor : AnchorOf x anchor) (hname : x ≠ []) {exact : List DocumentDTO}
    (hexact : db.find kbs anchor = some exact) (hdocument : anchor = x → exact ≠ []) :
    find db db' kbs anchor = if exact = [] then query db' kbs x else .ok exact := by
  have hquery := query_eq_ok.2 hexact
  unfold find
  rw [hquery]
  cases hanchor with
  | document =>
    have hfound := hdocument rfl
    cases hlast : lastIndexOf HASH x with
    | none => simp [hfound, bind, Except.bind, pure, Except.pure]
    | some n => simp [hfound, bind, Except.bind, pure, Except.pure]
  | heading hslug =>
    simp [lastIndexOf_append hslug, List.length_pos_iff.mpr hname, bind, Except.bind, pure, Except.pure]

structure Unambiguous (kbs : List String) (kb : String) (x anchor : JsString) (db db' : Database Vector) : Prop where
  anchor : ∀ other ∈ db.documents, other.document.kb ∈ kbs → other.document.externalId = anchor →
    other.document.externalId = x
  id : ∀ other ∈ db.documents ++ db'.documents, other.document.kb ∈ kbs → other.document.externalId = x →
    other.document.kb = kb

theorem find_leads {d d' : DocumentRow} (hvalid : db.Valid) (hvalid' : db'.Valid) (htext : Text anchor)
    (hanchor : AnchorOf x anchor) (hname : x ≠ []) (hd : d ∈ db.documents) (hkey : d.key = (kb, x))
    (hd' : d' ∈ db'.documents) (hkey' : d'.key = (kb, x)) (hkb : kb ∈ kbs) :
    ∃ found, find db db' kbs anchor = .ok found ∧ found ≠ [] ∧
      (∀ e ∈ found, e.kb ∈ kbs ∧ (e.externalId = x ∨ e.externalId = anchor)) ∧
      (Unambiguous kbs kb x anchor db db' →
        ∃ row ∈ db.documents ++ db'.documents, row.key = (kb, x) ∧ found = [row.document]) := by
  obtain ⟨rfl, rfl⟩ := Prod.mk.inj hkey
  obtain ⟨hkb', hid'⟩ := Prod.mk.inj hkey'
  have hencoded : toWellFormed d.document.externalId = d.document.externalId := (hvalid.kept d hd).externalId
  have haccepts : textAccepts anchor = true := decide_eq_true htext.noNul
  have haccepts' : textAccepts d.document.externalId = true := by
    refine decide_eq_true fun hnul => htext.noNul ?_
    cases hanchor with
    | document => exact hnul
    | heading => exact List.mem_append_left _ hnul
  obtain ⟨exact, hexact⟩ : ∃ exact, db.find kbs anchor = some exact := ⟨_, if_pos haccepts⟩
  obtain ⟨cut, hcut⟩ : ∃ cut, db'.find kbs d.document.externalId = some cut := ⟨_, if_pos haccepts'⟩
  have hdocument : anchor = d.document.externalId → exact ≠ [] := fun heq =>
    List.ne_nil_of_mem ((mem_find hexact).2 ⟨d, hd, hkb, by rw [htext.encoded, heq], rfl⟩)
  rw [find_anchor hanchor hname hexact hdocument]
  cases Decidable.em (exact.length = 0) with
  | inl hnone =>
    have hnone := List.length_eq_zero_iff.mp hnone
    refine ⟨cut, by rw [if_pos hnone, query_eq_ok.2 hcut], ?_, fun e he => ?_, fun hunambiguous => ?_⟩
    · exact List.ne_nil_of_mem ((mem_find hcut).2 ⟨d', hd', hkb' ▸ hkb, hid'.trans hencoded.symm, rfl⟩)
    · obtain ⟨row, -, hsearched, hid, rfl⟩ := (mem_find hcut).1 he
      exact ⟨hsearched, .inl (hid.trans hencoded)⟩
    · refine ⟨d', List.mem_append_right _ hd', hkey', ?_⟩
      have honly := find_eq_singleton hvalid' haccepts' hd' (hkb' ▸ hkb) (hid'.trans hencoded.symm)
        fun other hother hsearched hid => (hunambiguous.id other (List.mem_append_right _ hother) hsearched
          (hid.trans hencoded)).trans hkb'.symm
      exact Option.some.inj (hcut.symm.trans honly)
  | inr hsome =>
    have hsome : exact ≠ [] := fun hnone => hsome (List.length_eq_zero_iff.mpr hnone)
    refine ⟨exact, if_neg hsome, hsome, fun e he => ?_, fun hunambiguous => ?_⟩
    · obtain ⟨row, -, hsearched, hid, rfl⟩ := (mem_find hexact).1 he
      exact ⟨hsearched, .inr (hid.trans htext.encoded)⟩
    · refine ⟨d, List.mem_append_left _ hd, rfl, ?_⟩
      obtain ⟨e, he⟩ := List.exists_mem_of_ne_nil exact hsome
      obtain ⟨row, hrow, hsearched, hid, -⟩ := (mem_find hexact).1 he
      have hsame : anchor = d.document.externalId :=
        (hid.trans htext.encoded).symm.trans (hunambiguous.anchor row hrow hsearched (hid.trans htext.encoded))
      have honly := find_eq_singleton hvalid haccepts hd hkb (by rw [htext.encoded, hsame])
        fun other hother hsearched hid => hunambiguous.id other (List.mem_append_left _ hother) hsearched
          (hid.trans (htext.encoded.trans hsame))
      exact Option.some.inj (hexact.symm.trans honly)

theorem execute_of_found {roles : List JsString} {knowledgeBases candidates : List ReadableConfig}
    {requested : Option JsString} (hread : resolve roles knowledgeBases requested = .ok candidates)
    (hkb : kb ∈ candidates.map (·.id)) (hfind : find db db' (candidates.map (·.id)) anchor = .ok found) :
    execute db db' roles knowledgeBases anchor requested =
      match found with
      | [] => .error MISSING
      | [document] => .ok (storageToResponse document)
      | _ :: _ :: _ => .error AMBIGUOUS := by
  have hsome : (candidates.map (·.id)).isEmpty = false := by
    cases hcandidates : candidates.map (·.id) with
    | nil =>
      rw [hcandidates] at hkb
      cases hkb
    | cons => rfl
  unfold execute
  rw [hread]
  simp only [Except.mapError, bind, Except.bind, hsome, Bool.false_eq_true, if_false, hfind]
  cases found with
  | nil => rfl
  | cons document found => cases found <;> rfl

theorem anchor_leads_back (platform : Platform) (models : Models Vector)
    (hword : platform.unicode.isWordPoint HASH.toNat = false) (written later latest : List Event)
    (s t t' : State Vector) (hs : run platform models {} written = some s)
    (ht : run platform models s later = some t) (ht' : run platform models t latest = some t')
    (services : Services Vector) (hdb : services.db.val = s.db) (query : SearchQuery) (outcome : SearchOutcome)
    (hsearch : search services query = .ok outcome) (scored : ScoredHit) (hscored : scored ∈ outcome.hits)
    (hname : scored.hit.externalId ≠ [])
    (hthere : ∃ d ∈ t.db.documents, d.key = (scored.hit.kb, scored.hit.externalId))
    (hthere' : ∃ d ∈ t'.db.documents, d.key = (scored.hit.kb, scored.hit.externalId))
    (roles : List JsString) (knowledgeBases candidates : List ReadableConfig) (requested : Option JsString)
    (hread : resolve roles knowledgeBases requested = .ok candidates)
    (hkb : scored.hit.kb ∈ candidates.map (·.id)) :
    let kbs := candidates.map (·.id)
    let answer := execute t.db t'.db roles knowledgeBases scored.hit.anchor requested
    (answer = .error AMBIGUOUS ∨ ∃ document : DocumentDTO, answer = .ok (storageToResponse document) ∧
      document.kb ∈ kbs ∧
      (document.externalId = scored.hit.externalId ∨ document.externalId = scored.hit.anchor)) ∧
    (Unambiguous kbs scored.hit.kb scored.hit.externalId scored.hit.anchor t.db t'.db →
      ∃ d ∈ t.db.documents ++ t'.db.documents, d.key = (scored.hit.kb, scored.hit.externalId) ∧
        answer = .ok (storageToResponse d.document)) := by
  intro kbs answer
  have hbrought := brought_addressed hword
  obtain ⟨hvalid, hshown⟩ := each_run hbrought ⟨valid_empty, each_empty⟩ hs
  have hlater := each_run hbrought ⟨hvalid, hshown⟩ ht
  have hlatest := each_run hbrought hlater ht'
  obtain ⟨d, hd, hkey⟩ := hthere
  obtain ⟨d', hd', hkey'⟩ := hthere'
  obtain ⟨c, hc, owner, howner, hid, hexternal, hanchor⟩ := search_shows hsearch hscored
  rw [hdb] at hc howner
  have haddressed : Addressed owner.document c.chunk := hshown c hc owner howner hid
  rw [Addressed, ← hexternal, ← hanchor] at haddressed
  obtain ⟨found, hfind, hsome, hall, hunambiguous⟩ := find_leads hlater.1 hlatest.1 haddressed.1 haddressed.2 hname
    hd hkey hd' hkey' hkb
  have hanswer : answer = _ := execute_of_found hread hkb hfind
  constructor
  · cases found with
    | nil => exact absurd rfl hsome
    | cons document found =>
      cases found with
      | nil => exact .inr ⟨document, hanswer, hall document List.mem_cons_self⟩
      | cons => exact .inl hanswer
  · intro hclear
    obtain ⟨row, hrow, hrowKey, rfl⟩ := hunambiguous hclear
    exact ⟨row, hrow, hrowKey, hanswer⟩

def headedNote : SourceDocument := EmbeddingRun.note "t" "# t\n## fact\nhi"

def headedPlatform : Platform :=
  Platform.ofTables [(utf16 "t" ++ NUL :: utf16 "fact\n\nhi",
    utf16 "71e688a8e5d485fbcd6076c9b7ab57ccefbd79542480112e10f307c5f5216b62")] [] (hexDigests (by decide))

def headedEvents : List Event := [.upsert EmbeddingRun.noteBase headedNote]

def headedState : State JsString := (run headedPlatform EmbeddingRun.noteModels {} headedEvents).getD {}

theorem run_headedEvents : run headedPlatform EmbeddingRun.noteModels {} headedEvents = some headedState := by
  have hsome : (run headedPlatform EmbeddingRun.noteModels {} headedEvents).isSome = true := by decide +kernel
  rw [headedState, Option.getD_of_ne_none (Option.isSome_iff_ne_none.mp hsome)]

theorem weight_one : (0 : ℚ) ≤ 1 ∧ (1 : ℚ) ≤ 10 := by decide

theorem weight_zero : (0 : ℚ) ≤ 0 ∧ (0 : ℚ) ≤ 10 := by decide

def headedServices : Services JsString where
  config := ⟨50, 60, ⟨⟨1, weight_one⟩, ⟨0, weight_zero⟩⟩, .any⟩
  db := ⟨headedState.db, (each_run (brought_addressed rfl) ⟨valid_empty, each_empty⟩ run_headedEvents).1⟩
  tsConfigs := fun _ => some "english"
  text := ⟨fun _ _ _ _ => true, fun _ _ _ _ => 0, fun _ _ body => body⟩
  index := ⟨fun _ _ => 0, fun _ _ rows => rows, fun _ _ rows => List.Subset.refl rows⟩
  embedQuery := fun _ _ => none
  round := fun score => score

def headedQuery : SearchQuery where
  question := utf16 "hi"
  knowledgeBases := [EmbeddingRun.noteBase]
  filter := []
  limit := 10

theorem anchor_leads_back_note : ∃ outcome, search headedServices headedQuery = .ok outcome ∧
    outcome.hits.map (·.hit.anchor) = [utf16 "t.md#fact"] ∧
    ∃ d ∈ headedState.db.documents, d.key = ("notes", utf16 "t.md") ∧
      execute headedState.db headedState.db [[114]] [SearchService.readableNotes] (utf16 "t.md#fact") none =
        .ok (storageToResponse d.document) := by
  have hshown : (search headedServices headedQuery).toOption.map
      (fun outcome => outcome.hits.map fun scored => (scored.hit.kb, scored.hit.externalId, scored.hit.anchor)) =
        some [("notes", utf16 "t.md", utf16 "t.md#fact")] := by decide +kernel
  have hrows : headedState.db.documents.map DocumentRow.key = [("notes", utf16 "t.md")] := by decide +kernel
  cases hsearch : search headedServices headedQuery with
  | error e =>
    rw [hsearch] at hshown
    cases hshown
  | ok outcome =>
    rw [hsearch] at hshown
    obtain ⟨scored, rest, hhits, hhit, hrest⟩ := List.map_eq_cons_iff.mp (Option.some.inj hshown)
    obtain rfl := List.map_eq_nil_iff.mp hrest
    obtain ⟨hkb, hid, hanchor⟩ : scored.hit.kb = "notes" ∧ scored.hit.externalId = utf16 "t.md" ∧
        scored.hit.anchor = utf16 "t.md#fact" := by simpa using hhit
    have hscored : scored ∈ outcome.hits := hhits ▸ List.mem_singleton_self scored
    obtain ⟨d, hd, hkey⟩ := List.mem_map.mp
      (hrows ▸ List.mem_singleton_self ("notes", utf16 "t.md") : ("notes", utf16 "t.md") ∈ _)
    have hthere : ∃ d ∈ headedState.db.documents, d.key = (scored.hit.kb, scored.hit.externalId) :=
      ⟨d, hd, by rw [hkb, hid, hkey]⟩
    have honly : ∀ other ∈ headedState.db.documents, other.key = ("notes", utf16 "t.md") := fun other hother =>
      List.mem_singleton.mp (hrows ▸ List.mem_map_of_mem hother)
    have hclear : Unambiguous ["notes"] scored.hit.kb scored.hit.externalId scored.hit.anchor headedState.db
        headedState.db :=
      { anchor := fun other hother _ _ => (congrArg Prod.snd (honly other hother)).trans hid.symm
        id := fun other hother _ _ =>
          (congrArg Prod.fst (honly other ((List.mem_append.mp hother).elim id id))).trans hkb.symm }
    obtain ⟨row, hrow, hrowKey, hanswer⟩ := (anchor_leads_back headedPlatform EmbeddingRun.noteModels rfl
      headedEvents [] [] headedState _ _ run_headedEvents rfl rfl headedServices rfl
      headedQuery outcome hsearch scored hscored (by rw [hid]; decide) hthere hthere [[114]]
      [SearchService.readableNotes] [SearchService.readableNotes] none rfl
      (by rw [hkb]; exact List.mem_singleton_self _)).2 hclear
    refine ⟨outcome, rfl, by rw [hhits, List.map_singleton, hanchor], row, ?_, ?_, ?_⟩
    · exact (List.mem_append.mp hrow).elim id id
    · rw [hrowKey, hkb, hid]
    · rw [← hanchor]
      exact hanswer

end HomelabApps.KnowledgeBase.DocumentsGetHandler
