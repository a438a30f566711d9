import HomelabApps.KnowledgeBase.Indexer.Entries
import HomelabApps.KnowledgeBase.Markdown.NoNul
import HomelabApps.Library.JsonEscapes

universe u

namespace HomelabApps.KnowledgeBase.Indexer

open HomelabApps.Library
open HomelabApps.Library.Utf16
open HomelabApps.Library.Json (Value jsonbAccepts)
open Markdown Store Git

variable {Vector : Type u} {platform : Platform} {kb : KnowledgeBaseConfig} {db : Database Vector}
  {path : GitPath} {text x : JsString} {data record : Record} {e : JsString × Value} {v : Value}

def AREA : JsString := utf16 "area"
def REPOS : JsString := utf16 "repos"

def inFolder (path : JsString) : Bool := 1 < (segments path).length

def mirrored (path : JsString) : Bool := (segments path).getD 0 [] = MIRROR_AREA && 2 < (segments path).length

/-- The entries of a header that its document keeps: the folder replaces `area`, the mirror `repos`. -/
def keptEntries (path : JsString) (data : Record) : Record :=
  data.filter fun e => !(inFolder path && e.1 = AREA) && !(mirrored path && e.1 = REPOS)

def dateOf (data : Record) : Option JsString :=
  (dateField (data.lookup (utf16 "date"))).orElse fun _ => dateField (data.lookup (utf16 "created"))

structure Indexable (path text : JsString) (data : Record) : Prop where
  acyclic : ∀ e ∈ keptEntries path data, e.2.acyclic
  accepted : NUL ∈ text ∨ (∃ e ∈ keptEntries path data, ¬(noNul e.1 ∧ e.2.all noNul)) ∨
    (∀ e ∈ keptEntries path data, isWellFormed e.1 ∧ e.2.all isWellFormed) ∧
      ∀ date ∈ dateOf data, ¬utf16 "0000" <+: date

theorem mem_setKey {key : JsString} : e ∈ setKey record key v ↔ (e ∈ record ∧ e.1 ≠ key) ∨ e = (key, v) := by
  unfold setKey
  split
  · rename_i hsome
    obtain ⟨w, hw⟩ := Option.isSome_iff_exists.mp hsome
    rw [List.mem_map]
    constructor
    · rintro ⟨e', he', rfl⟩
      split
      · exact .inr rfl
      · rename_i hne
        exact .inl ⟨he', hne⟩
    · rintro (⟨he, hne⟩ | rfl)
      · exact ⟨e, he, if_neg hne⟩
      · exact ⟨(key, w), mem_of_lookup hw, if_pos rfl⟩
  · rename_i hnone
    rw [Option.not_isSome_iff_eq_none, List.lookup_eq_none_iff] at hnone
    simp only [List.mem_append, List.mem_singleton]
    refine or_congr_left ⟨fun he => ⟨he, fun heq => ?_⟩, And.left⟩
    simpa [heq] using hnone e he

theorem forall_metadataOf {Q : JsString × Value → Prop}
    (harea : Q (AREA, .string ((segments x).getD 0 [])))
    (hrepos : Q (REPOS, .array [.string ((segments x).getD 1 [])])) :
    (∀ e ∈ metadataOf x data, Q e) ↔ ∀ e ∈ keptEntries x data, Q e := by
  have hkept : ∀ e, e ∈ metadataOf x data ↔ e ∈ keptEntries x data ∨
      (inFolder x ∧ e = (AREA, .string ((segments x).getD 0 []))) ∨
      (mirrored x ∧ e = (REPOS, .array [.string ((segments x).getD 1 [])])) := by
    intro e
    have hne : e = (AREA, .string ((segments x).getD 0 [])) → e.1 ≠ REPOS := by
      rintro rfl
      exact show AREA ≠ REPOS by decide
    have hfolder : (1 < (segments x).length) = (inFolder x : Prop) := by simp [inFolder]
    have hmirror : ((segments x).getD 0 [] = MIRROR_AREA ∧ 2 < (segments x).length) = (mirrored x : Prop) := by
      simp [mirrored]
    simp only [metadataOf, hfolder, hmirror, keptEntries, List.mem_filter, Bool.and_eq_true,
      Bool.not_eq_true', Bool.and_eq_false_iff, decide_eq_false_iff_not]
    cases inFolder x <;> cases mirrored x <;> simp only [Bool.false_eq_true, if_true, if_false, mem_setKey]
    · simp
    · simp [REPOS]
    · simp [AREA]
    · simp only [Bool.true_eq_false, false_or, true_and]
      rw [AREA, REPOS] at *
      tauto
  simp only [hkept]
  constructor
  · exact fun h e he => h e (.inl he)
  · rintro h e (he | ⟨-, rfl⟩ | ⟨-, rfl⟩)
    · exact h e he
    · exact harea
    · exact hrepos

theorem digits?_eq_zero {s : JsString} {n : Nat} (h : digits? s = some n) :
    n = 0 ↔ s = List.replicate s.length 0x30 := by
  induction s generalizing n with
  | nil => simpa [digits?] using h.symm
  | cons u s ih =>
    simp only [digits?, Option.bind_eq_bind, Option.bind_eq_some_iff, Option.pure_def,
      Option.some.injEq] at h
    obtain ⟨d, hd, m, hm, rfl⟩ := h
    have hu : d = 0 ↔ u = 0x30 := by
      unfold digit? at hd
      split at hd
      · rename_i hrange
        rw [UInt16.le_iff_toNat_le, UInt16.le_iff_toNat_le] at hrange
        cases hd
        rw [← UInt16.toNat_inj]
        simp only [UInt16.reduceToNat] at hrange ⊢
        omega
      · cases hd
    rw [Nat.add_eq_zero_iff, Nat.mul_eq_zero, ih hm, hu, List.length_cons, List.replicate_succ,
      List.cons.injEq]
    simp

theorem dateAccepts_iff (h : dateField (some v) = some x) : dateAccepts x ↔ ¬utf16 "0000" <+: x := by
  unfold dateField at h
  split at h
  · rename_i s heq
    split at h
    · rename_i year month day hparts
      split at h
      · rename_i hday
        cases h
        have hreal : 1 ≤ month ∧ month ≤ 12 ∧ 1 ≤ day ∧ day ≤ daysInMonth year month := by
          unfold isoDay at hday
          split at hday
          · rename_i hrange
            split at hday
            · rename_i hle
              exact ⟨hrange.1, hrange.2.1, hrange.2.2.1, hle⟩
            · simp only [Option.some.injEq, Prod.mk.injEq] at hday
              omega
          · cases hday
        have hyear : year = 0 ↔ utf16 "0000" <+: x := by
          unfold dateParts? at hparts
          split at hparts
          · rename_i y1 y2 y3 y4 m1 m2 d1 d2
            simp only [Option.bind_eq_bind, Option.bind_eq_some_iff, Option.pure_def, Option.some.injEq,
              Prod.mk.injEq] at hparts
            obtain ⟨year', hyear, month', -, day', -, rfl, rfl, rfl⟩ := hparts
            rw [digits?_eq_zero hyear, show utf16 "0000" = [0x30, 0x30, 0x30, 0x30] by decide]
            simp [List.replicate_succ, eq_comm]
          · cases hparts
        rw [← hyear, dateAccepts, hparts]
        simp only [Bool.and_eq_true, decide_eq_true_eq]
        omega
      · cases h
    · cases h
  · cases h

theorem eq_of_dateField {o : Option Value} (h : dateField o = some x) : o = some (.string x) := by
  unfold dateField at h
  split at h
  · split at h
    · split at h
      · exact congrArg (fun s => some (Value.string s)) (Option.some.inj h)
      · cases h
    · cases h
  · cases h

theorem mem_of_dateOf (h : dateOf data = some x) : dateField (some (.string x)) = some x ∧
    ∃ key, key ≠ AREA ∧ key ≠ REPOS ∧ (key, .string x) ∈ data := by
  have hfield : ∀ key, dateField (data.lookup key) = some x → dateField (some (.string x)) = some x ∧
      (key, .string x) ∈ data := by
    intro key hkey
    have hstring := eq_of_dateField hkey
    rw [hstring] at hkey
    exact ⟨hkey, mem_of_lookup hstring⟩
  unfold dateOf at h
  cases hdate : dateField (data.lookup (utf16 "date")) with
  | some date =>
    obtain rfl : date = x := by simpa [hdate] using h
    exact ⟨(hfield _ hdate).1, _, by decide, by decide, (hfield _ hdate).2⟩
  | none =>
    have hcreated := (by simpa [hdate] using h : dateField (data.lookup (utf16 "created")) = some x)
    exact ⟨(hfield _ hcreated).1, _, by decide, by decide, (hfield _ hcreated).2⟩

theorem dateOf_accepted (data : Record) : (dateOf data).all dateAccepts ↔ ∀ date ∈ dateOf data, ¬utf16 "0000" <+: date := by
  cases h : dateOf data with
  | none => simp
  | some date => simpa using dateAccepts_iff (mem_of_dateOf h).1

theorem mem_keptEntries (h : e ∈ data) (harea : e.1 ≠ AREA) (hrepos : e.1 ≠ REPOS) : e ∈ keptEntries x data := by
  rw [keptEntries, List.mem_filter]
  exact ⟨h, by simp [harea, hrepos]⟩

theorem mem_of_stringField {o : Option Value} (h : stringField o = some x) :
    ∃ s, o = some (.string s) ∧ x = trim s := by
  unfold stringField at h
  split at h
  · split at h
    · exact ⟨_, rfl, (Option.some.inj h).symm⟩
    · cases h
  · cases h

theorem segments_getD {i : Nat} (h : NUL ∉ x) : NUL ∉ (segments x).getD i [] := by
  rw [List.getD_eq_getElem?_getD]
  cases hpart : (segments x)[i]? with
  | none => exact List.not_mem_nil
  | some part => exact fun hmem => h (mem_of_mem_splitOn (List.mem_of_getElem? hpart) hmem)

theorem wellFormed_segments_getD {i : Nat} (h : toWellFormed x = x) : isWellFormed ((segments x).getD i []) := by
  rw [List.getD_eq_getElem?_getD]
  cases hpart : (segments x)[i]? with
  | none => rfl
  | some part =>
    exact isWellFormed_iff.mpr ((toWellFormed_splitOn (u := SLASH) (by decide) (by decide)).mp h part
      (List.mem_of_getElem? hpart))

variable {blob url : JsString}

theorem nul_title (blob url : JsString) (htext : NUL ∉ text) (hpath : NUL ∉ x)
    (hdata : ∀ e ∈ keptEntries x (parseFrontmatter platform.parseYaml text).data, noNul e.1 ∧ e.2.all noNul) :
    ∀ title ∈ (document platform x text blob url).title, NUL ∉ title := by
  intro title htitle
  obtain rfl := Option.some.inj htitle
  have hbody : NUL ∉ (parseFrontmatter platform.parseYaml text).body := fun hmem =>
    htext ((body_suffix platform.parseYaml text).subset hmem)
  cases hheading : extractTitle (parseFrontmatter platform.parseYaml text).body with
  | some heading => simpa [hheading] using nul_extractTitle hbody hheading
  | none =>
    cases hfield : stringField ((parseFrontmatter platform.parseYaml text).data.lookup (utf16 "title")) with
    | some field =>
      obtain ⟨s, hlookup, rfl⟩ := mem_of_stringField hfield
      have harea : utf16 "title" ≠ AREA := by decide
      have hrepos : utf16 "title" ≠ REPOS := by decide
      have hs := noNul_iff.mp (hdata _ (mem_keptEntries (mem_of_lookup hlookup) harea hrepos)).2
      simpa [hheading, hfield] using fun hmem => hs (trim_subset hmem)
    | none =>
      have hname : NUL ∉ baseName x := by
        have hlast : NUL ∉ (segments x).getLastD [] := by
          rw [List.getLastD_eq_getLast?, List.getLast?_eq_getElem?, ← List.getD_eq_getElem?_getD]
          exact segments_getD hpath
        unfold baseName dropExtension
        simp only
        split
        · exact fun hmem => hlast (List.take_subset _ _ hmem)
        · exact hlast
      simpa [hheading, hfield] using hname

theorem noNul_document (platform : Platform) (text : JsString) (hpath : NUL ∉ x) (hblob : NUL ∉ blob) (hurl : NUL ∉ url) :
    (document platform x text blob url).NoNul ↔ NUL ∉ text ∧
      ∀ e ∈ keptEntries x (parseFrontmatter platform.parseYaml text).data, noNul e.1 ∧ e.2.all noNul := by
  have hmetadata : (Value.object (document platform x text blob url).metadata).all noNul ↔
      ∀ e ∈ keptEntries x (parseFrontmatter platform.parseYaml text).data, noNul e.1 ∧ e.2.all noNul := by
    rw [Value.all, Json.allEntries_iff]
    have harea : noNul AREA := by decide
    have hrepos : noNul REPOS := by decide
    refine forall_metadataOf (Q := fun e => noNul e.1 ∧ e.2.all noNul) ⟨harea, ?_⟩ ⟨hrepos, ?_⟩
    · exact noNul_iff.mpr (segments_getD hpath)
    · rw [Value.all, Json.allItems, Json.allItems, Bool.and_true]
      exact noNul_iff.mpr (segments_getD hpath)
  constructor
  · rintro ⟨-, -, -, -, hcontent, -, hall⟩
    exact ⟨noNul_iff.mp hcontent, hmetadata.mp hall⟩
  · rintro ⟨htext, hdata⟩
    refine ⟨noNul_iff.mpr hpath, ?_, ?_, noNul_iff.mpr hurl, noNul_iff.mpr htext, noNul_iff.mpr hblob,
      hmetadata.mpr hdata⟩
    · exact noNul_iff.mpr (nul_title blob url htext hpath hdata _ rfl)
    · cases hdate : (document platform x text blob url).date with
      | none => rfl
      | some date =>
        obtain ⟨-, key, harea, hrepos, hmem⟩ := mem_of_dateOf hdate
        simpa [Value.all] using (hdata _ (mem_keptEntries hmem harea hrepos)).2

variable {d : SourceDocument} {chunks : List ChunkDTO} {stored incoming : DocumentDTO}
  {localeCompare : JsString → JsString → Ordering} {tsConfig : String}

theorem accepted_chunksOf (platform : Platform) (kb : KnowledgeBaseConfig) (h : d.NoNul) :
    (chunksOf platform kb d).all (·.accepted) := by
  have hbody : NUL ∉ (parseFrontmatter platform.parseYaml d.content).body := fun hmem =>
    noNul_iff.mp h.2.2.2.2.1 ((body_suffix platform.parseYaml d.content).subset hmem)
  rw [List.all_eq_true]
  intro c hc
  have hhash : NUL ∉ c.hash := by
    rw [ownHash_of_mem_chunksOf hc]
    exact fun hmem => isHex_ne_nul (platform.sha256_hex _ _ hmem) rfl
  obtain ⟨c, hchunk, rfl⟩ := List.mem_map.mp hc
  obtain ⟨hheading, hanchor, hbody⟩ := nul_chunk hbody (noNul_iff.mp h.1) hchunk
  simp only [ChunkDTO.accepted, textAccepts, toChunkDTO, Bool.and_eq_true]
  exact ⟨⟨⟨decide_eq_true hheading, decide_eq_true hanchor⟩, decide_eq_true hbody⟩, decide_eq_true hhash⟩

theorem jsonbAccepts_eq : jsonbAccepts v = (v.all noNul && v.all isWellFormed) := Value.all_and ..

theorem accepted_of_same (hkept : stored.Kept)
    (hsame : sameDocument localeCompare stored incoming = some true) :
    incoming.date.all dateAccepts ∧ incoming.metadata.all isWellFormed := by
  unfold sameDocument at hsame
  split at hsame
  · rename_i hfields
    refine ⟨hfields.2.1 ▸ hkept.date, ?_⟩
    simp only [Option.bind_eq_bind, Option.bind_eq_some_iff, Option.pure_def, Option.some.injEq,
      decide_eq_true_eq] at hsame
    obtain ⟨a, ha, b, hb, rfl⟩ := hsame
    have htext : (stored.metadata.sorted localeCompare).text = (incoming.metadata.sorted localeCompare).text := by
      unfold stableJson Json.stringify at ha hb
      split at ha
      · split at hb
        · rw [Option.some.inj ha, Option.some.inj hb]
        · cases hb
      · cases ha
    have hall := Json.all_isWellFormed_of_text htext
    rw [Value.all_sorted, Value.all_sorted] at hall
    have hstored := hkept.metadata
    rw [jsonbAccepts_eq, Bool.and_eq_true] at hstored
    rw [← hall]
    exact hstored.2
  · cases hsame

theorem sameDocument_isSome (localeCompare : JsString → JsString → Ordering) (hkept : stored.Kept)
    (hacyclic : incoming.metadata.acyclic) :
    (sameDocument localeCompare stored incoming).isSome := by
  unfold sameDocument
  split
  · simp [stableJson, Json.stringify, Value.acyclic_sorted, hkept.acyclic, hacyclic]
  · rfl

theorem upsert_isSome (platform : Platform) (kb : KnowledgeBaseConfig)
    (localeCompare : JsString → JsString → Ordering) (tsConfig : String) (d : SourceDocument) (h : db.Valid)
    (hacyclic : (Value.object d.metadata).acyclic) (hnul : d.NoNul) :
    (db.upsert localeCompare (sourceToStorage kb d) tsConfig (chunksOf platform kb d)).isSome ↔
      d.date.all dateAccepts ∧ (Value.object d.metadata).all isWellFormed := by
  have hchunks := accepted_chunksOf platform kb hnul
  obtain ⟨hid, htitle, -, hurl, hcontent, hversion, hmetadata⟩ := hnul
  have haccepted : (sourceToStorage kb d).accepted ↔
      d.date.all dateAccepts ∧ (Value.object d.metadata).all isWellFormed := by
    rw [DocumentDTO.accepted_iff]
    simp only [sourceToStorage, jsonbAccepts_eq, hmetadata, Bool.true_and]
    constructor
    · rintro ⟨-, -, hdate, -, -, -, -, hwell⟩
      exact ⟨hdate, hwell⟩
    · rintro ⟨hdate, hwell⟩
      exact ⟨hid, htitle, hdate, hurl, hcontent, hversion, hacyclic, hwell⟩
  have hwrite : (db.write (sourceToStorage kb d) tsConfig (chunksOf platform kb d)).isSome ↔
      d.date.all dateAccepts ∧ (Value.object d.metadata).all isWellFormed := by
    rw [← haccepted, Database.write, hchunks, Bool.and_true]
    split <;> simp [*]
  unfold Database.upsert
  rw [if_pos (show textAccepts (sourceToStorage kb d).externalId from hid)]
  cases hfind : db.findDocument (sourceToStorage kb d).kb (sourceToStorage kb d).externalId with
  | none => exact hwrite
  | some row =>
    have hkept := h.kept row ((findDocument_eq_some_iff h).mp hfind).1
    obtain ⟨same, hsame⟩ := Option.isSome_iff_exists.mp
      (@sameDocument_isSome _ (sourceToStorage kb d) localeCompare hkept hacyclic)
    simp only [hsame]
    split
    · rename_i hboth
      rw [Bool.and_eq_true] at hboth
      obtain rfl := hboth.1
      have htouch : (textAccepts (sourceToStorage kb d).version &&
          (sourceToStorage kb d).url.all textAccepts) = true := Bool.and_eq_true_iff.mpr ⟨hversion, hurl⟩
      rw [Database.touch, if_pos htouch]
      exact iff_of_true rfl (accepted_of_same hkept hsame)
    · exact hwrite

theorem acyclic_metadataOf (x : JsString) (data : Record) : (Value.object (metadataOf x data)).acyclic ↔
    ∀ e ∈ keptEntries x data, e.2.acyclic := by
  rw [Value.acyclic, Json.acyclicEntries_iff]
  exact forall_metadataOf (Q := fun e => e.2.acyclic) rfl rfl

theorem wellFormed_metadataOf (data : Record) (hx : toWellFormed x = x) :
    (Value.object (metadataOf x data)).all isWellFormed ↔
      ∀ e ∈ keptEntries x data, isWellFormed e.1 ∧ e.2.all isWellFormed := by
  have harea : isWellFormed AREA := by decide
  have hrepos : isWellFormed REPOS := by decide
  rw [Value.all, Json.allEntries_iff]
  refine forall_metadataOf (Q := fun e => isWellFormed e.1 ∧ e.2.all isWellFormed) ⟨harea, ?_⟩ ⟨hrepos, ?_⟩
  · exact wellFormed_segments_getD hx
  · rw [Value.all, Json.allItems, Json.allItems, Bool.and_true]
    exact wellFormed_segments_getD hx

theorem indexed_iff (platform : Platform) (kb : KnowledgeBaseConfig) (repository : Repository)
    (commit blob : Sha) (path : GitPath) (text : JsString) (store : ValidDatabase Vector) :
    (∃ document, parse platform path.val text blob.val commit.val repository.htmlUrl = some document ∧
      (holdsNul document = some true ∨ holdsNul document = some false ∧
        (store.val.upsert platform.localeCompare (sourceToStorage kb document) kb.tsConfig
          (chunksOf platform kb document)).isSome)) ↔
    Indexable path.val text (parseFrontmatter platform.parseYaml text).data := by
  have hparse : parse platform path.val text blob.val commit.val repository.htmlUrl =
      some (document platform path.val text blob.val
        ((fileUrl repository.htmlUrl commit.val path.val).getD [])) := by
    rw [parse, fileUrl_eq]
    rfl
  have hurl : NUL ∉ (fileUrl repository.htmlUrl commit.val path.val).getD [] := nul_url
  generalize (fileUrl repository.htmlUrl commit.val path.val).getD [] = url at hparse hurl
  have hacyclic := acyclic_metadataOf path.val (parseFrontmatter platform.parseYaml text).data
  have hwell := wellFormed_metadataOf (parseFrontmatter platform.parseYaml text).data path.property.2
  have hnul := noNul_document platform text path.property.1 (Sha.noNul blob) hurl
  have hdate := dateOf_accepted (parseFrontmatter platform.parseYaml text).data
  have hnulIff := holdsNul_eq_false (d := document platform path.val text blob.val url)
  have hupsert := upsert_isSome platform kb platform.localeCompare kb.tsConfig
    (document platform path.val text blob.val url) store.property
  simp only [hparse, Option.some.injEq, exists_eq_left']
  constructor
  · rintro (hskipped | ⟨hkept, haccepted⟩)
    · have hall : (Value.object (document platform path.val text blob.val url).metadata).acyclic := by
        by_contra hcyclic
        rw [holdsNul_eq_none.mpr (by simpa using hcyclic)] at hskipped
        cases hskipped
      refine ⟨hacyclic.mp hall, ?_⟩
      by_contra hnot
      simp only [not_or, not_exists, not_and] at hnot
      have hfalse := hnulIff.mpr ⟨hall, hnul.mpr ⟨hnot.1, fun e he => by simpa using hnot.2.1 e he⟩⟩
      simp [hfalse] at hskipped
    · obtain ⟨hall, hnone⟩ := hnulIff.mp hkept
      obtain ⟨hreal, hencoded⟩ := (hupsert hall hnone).mp haccepted
      exact ⟨hacyclic.mp hall, .inr (.inr ⟨hwell.mp hencoded, hdate.mp hreal⟩)⟩
  · rintro ⟨hall, haccepted⟩
    cases hholds : holdsNul (document platform path.val text blob.val url) with
    | none =>
      have hcyclic := holdsNul_eq_none.mp hholds
      rw [show (Value.object (document platform path.val text blob.val url).metadata).acyclic = true from
        hacyclic.mpr hall] at hcyclic
      cases hcyclic
    | some found =>
      cases found with
      | true => exact .inl rfl
      | false =>
        refine .inr ⟨rfl, ?_⟩
        obtain ⟨hobject, hnone⟩ := hnulIff.mp hholds
        obtain ⟨htext, hentries⟩ := hnul.mp hnone
        rcases haccepted with htext' | ⟨e, he, hne⟩ | ⟨hencoded, hreal⟩
        · exact absurd htext' htext
        · exact absurd (hentries e he) hne
        · exact (hupsert hobject hnone).mpr ⟨hdate.mpr hreal, hwell.mpr hencoded⟩

def headerPlatform : Platform :=
  Platform.ofTables
    [(utf16 "a" ++ NUL :: utf16 "hi",
      utf16 "ea57e3ca46dec4446aaf082c2fdfbfd9b67c57caa94c8e3df66e140ec6558772")]
    [(utf16 "a: &x [*x]", .object [(utf16 "a", .array [.ancestor 0])]),
      (utf16 "a: \"\\ud800\"", .object [(utf16 "a", .string [0xD800])]),
      (utf16 "date: 0000-01-01", .object [(utf16 "date", .string (utf16 "0000-01-01"))])]
    (hexDigests (by decide))

def headerKb : KnowledgeBaseConfig where
  id := "notes"
  tsConfig := "english"
  models := ["m"]
  chunking := .shortest
  git := ⟨[[]], [utf16 ".md"]⟩

def withHeader (header : String) : JsString := utf16 "---\n" ++ utf16 header ++ utf16 "\n---\nhi"

def headerDocument (header : String) : Option SourceDocument :=
  parse headerPlatform (utf16 "a.md") (withHeader header) (utf16 "1") (utf16 "ba5e")
    (utf16 "https://github.com/notes/notes")

theorem headers_refused :
    (∃ document, headerDocument "a: &x [*x]" = some document ∧ holdsNul document = none) ∧
    ∀ header ∈ ["a: \"\\ud800\"", "date: 0000-01-01"],
      ∃ document, headerDocument header = some document ∧ holdsNul document = some false ∧
        (({} : Database JsString).upsert headerPlatform.localeCompare (sourceToStorage headerKb document)
          headerKb.tsConfig (chunksOf headerPlatform headerKb document)).isNone := by
  refine ⟨⟨_, rfl, by decide⟩, ?_⟩
  rintro header hheader
  obtain rfl | rfl : header = "a: \"\\ud800\"" ∨ header = "date: 0000-01-01" := by simpa using hheader
  · exact ⟨_, rfl, by decide, by decide⟩
  · exact ⟨_, rfl, by decide, by decide⟩

end HomelabApps.KnowledgeBase.Indexer
