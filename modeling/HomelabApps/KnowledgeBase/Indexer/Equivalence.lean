import HomelabApps.KnowledgeBase.Indexer.Runs

universe u

namespace HomelabApps.KnowledgeBase.Indexer

open HomelabApps.Library
open HomelabApps.Library.Utf16
open HomelabApps.Library.Json (Value)
open Store Git

variable {Vector : Type u} {platform : Platform} {kb : KnowledgeBaseConfig} {repository : Repository}
  {db db' : Database Vector} {base head : Sha} {x : JsString} {b : BlobRef} {e : Option Entry}
  {answers : Answers}

def fields (d : DocumentDTO) : JsString × JsString × Option JsString × Value :=
  (d.externalId, d.content, d.title, d.metadata)

def documentSet (db : Database Vector) (kb : String) : Set (JsString × JsString × Option JsString × Value) :=
  { f | ∃ d ∈ db.documents, d.document.kb = kb ∧ fields d.document = f }

structure Holds (platform : Platform) (kb : KnowledgeBaseConfig) (repository : Repository)
    (db : Database Vector) (commit : Sha) : Prop where
  stored : ∀ b ∈ blobsOf kb.git (repository.tree commit),
    holdsNul (documentOf platform repository commit b) ≠ some true →
      ∃ e, db.entry kb.id b.path.val = some e ∧
        fields e.document = fields (sourceToStorage kb (documentOf platform repository commit b)).stored
  only : ∀ d ∈ db.documents, d.document.kb = kb.id →
    ∃ b ∈ blobsOf kb.git (repository.tree commit), b.path.val = d.document.externalId

def SameFields (e e' : Option Entry) : Prop :=
  e.map (fun e => fields e.document) = e'.map fun e => fields e.document

theorem sameFields_putBlob (hholds : Holds platform kb repository db base)
    (hb : b ∈ blobsOf kb.git (repository.tree base)) :
    SameFields (db.entry kb.id b.path.val)
      (putBlob platform kb repository head b (db.entry kb.id b.path.val)) := by
  unfold putBlob put
  split
  · rename_i hnul
    rw [← holdsNul_documentOf base head] at hnul
    obtain ⟨e, hentry, hfields⟩ := hholds.stored b hb (by simp [hnul])
    rw [hentry, Entry.upsert]
    split
    · rfl
    · exact congrArg some hfields
  · rfl

theorem Holds.entry_eq_none (h : Holds platform kb repository db base) (hx : toWellFormed x = x)
    (hbase : x ∉ Mirror.keys (refs (blobsOf kb.git (repository.tree base)))) :
    db.entry kb.id x = none := by
  refine Store.entry_eq_none.mpr fun d hd hkey => hbase ?_
  rw [DocumentRow.key, hx, Prod.mk.injEq] at hkey
  obtain ⟨b, hb, hpath⟩ := h.only d hd hkey.1
  exact mem_keys_refs.mpr ⟨b, hb, hpath.trans hkey.2⟩

theorem sameFields_runs (hholds : Holds platform kb repository db base) (hx : toWellFormed x = x)
    (hfaithful : Faithful repository base answers) :
    SameFields
      (Mirror.entryAt (putBlob platform kb repository answers.head) x (db.entry kb.id x)
        (runChanges kb.git repository (some base.val) answers))
      (Mirror.entryAt (putBlob platform kb repository answers.head) x (db.entry kb.id x)
        (runChanges kb.git repository none answers)) := by
  rw [runChanges, runChanges, if_pos (show lists none answers from rfl)]
  split
  · rfl
  · rename_i hlists
    refine Mirror.entryAt_delta SameFields
      (delta_of_faithful kb.git hfaithful (by simpa using hlists)) nodup_blobsOf (fun _ => rfl)
      (hholds.entry_eq_none hx) fun b hbase _ => ?_
    obtain ⟨hb, rfl⟩ := mem_refs.mp hbase
    exact sameFields_putBlob hholds hb

theorem mem_documentSet (h : db.Valid) {f : JsString × JsString × Option JsString × Value} {kbId : String} :
    f ∈ documentSet db kbId ↔ toWellFormed f.1 = f.1 ∧
      (db.entry kbId f.1).map (fun e => fields e.document) = some f := by
  constructor
  · rintro ⟨d, hd, rfl, rfl⟩
    have hid := (h.kept d hd).externalId
    refine ⟨hid, ?_⟩
    have hentry := entry_of_row d.document.kb d.document.externalId h hd
      (by rw [DocumentRow.key, hid])
    rw [fields, hentry]
    rfl
  · rintro ⟨hid, hentry⟩
    obtain ⟨e, hentry, rfl⟩ := Option.map_eq_some_iff.mp hentry
    obtain ⟨d, hd, hkey, rfl⟩ := (entry_eq_some h).mp hentry
    exact ⟨d, hd, congrArg Prod.fst hkey, rfl⟩

theorem incremental_eq_full (platform : Platform) (kb : KnowledgeBaseConfig) (repository : Repository)
    (choose choose' : String → Nat → Nat) (base : Sha) (answers : Answers) (store : ValidDatabase Vector)
    (db₁ db₂ : Database Vector) (hcursor : store.val.cursors kb.id = some base.val)
    (hholds : Holds platform kb repository store.val base)
    (hfaithful : Faithful repository base answers)
    (hincremental : index platform kb choose repository false answers store.val = some db₁)
    (hfull : index platform kb choose' repository true answers store.val = some db₂) :
    documentSet db₁ kb.id = documentSet db₂ kb.id := by
  ext f
  rw [mem_documentSet (index_valid store.property hincremental),
    mem_documentSet (index_valid store.property hfull)]
  refine and_congr_right fun hid => ?_
  have h₁ := index_entry store.property hid hincremental
  have h₂ := index_entry store.property hid hfull
  have hsame := sameFields_runs hholds hid hfaithful
  rw [startCursor, if_neg (by simp), hcursor] at h₁
  rw [startCursor, if_pos rfl] at h₂
  rw [← h₁, ← h₂] at hsame
  rw [hsame]

def notesPlatform : Platform :=
  Platform.ofTables
    [(utf16 "a" ++ NUL :: utf16 "one",
        utf16 "7ddf39913dabb4b58d04414c56c426dab0b7a48db6f853e18eb0ad468d1df886"),
      (utf16 "b" ++ NUL :: utf16 "two",
        utf16 "a4142685764a34f4155e21a69f8bbb5e8f3291032160b32b14e8ab035bc2b5ec"),
      (utf16 "a" ++ NUL :: utf16 "two",
        utf16 "daebff40f898cdea809d2a44004c3937e9e42e402b9f204bf674eefdaa7dd676"),
      (utf16 "b" ++ NUL :: utf16 "one",
        utf16 "7cd3116c85e7aca44d883e8b89908d71d479c20e8a5c217bd8b57ba58b782da6")]
    [] (hexDigests (by decide))

def notesKb : KnowledgeBaseConfig where
  id := "notes"
  tsConfig := "english"
  models := ["m"]
  chunking := .shortest
  git := ⟨[[]], [utf16 ".md"]⟩

def shaOne : Sha := ⟨utf16 "1", by decide, List.all_eq_true.mp (by decide)⟩
def shaTwo : Sha := ⟨utf16 "2", by decide, List.all_eq_true.mp (by decide)⟩
def shaBase : Sha := ⟨utf16 "ba5e", by decide, List.all_eq_true.mp (by decide)⟩
def shaHead : Sha := ⟨utf16 "bead", by decide, List.all_eq_true.mp (by decide)⟩
def pathA : GitPath := ⟨utf16 "a.md", by decide, by decide⟩
def pathB : GitPath := ⟨utf16 "b.md", by decide, by decide⟩

def notesUrl : JsString := utf16 "https://github.com/notes/notes"

theorem nul_notesUrl : NUL ∉ notesUrl := by decide

def notesText (blob : Sha) : JsString := if blob = shaTwo then utf16 "two" else utf16 "one"

theorem encoded_notesText (blob : Sha) : toWellFormed (notesText blob) = notesText blob := by
  unfold notesText
  split <;> decide

def swapRepository : Repository where
  htmlUrl := notesUrl
  noNul := nul_notesUrl
  tree commit :=
    if commit = shaHead then [⟨pathA, .blob, shaTwo⟩, ⟨pathB, .blob, shaOne⟩]
    else [⟨pathA, .blob, shaOne⟩, ⟨pathB, .blob, shaTwo⟩]
  nodup commit := by split <;> decide
  text := notesText
  encoded := encoded_notesText

def swapFiles : List CompareFile :=
  [⟨pathA, .renamed, some shaTwo, some pathB⟩, ⟨pathB, .renamed, some shaOne, some pathA⟩]

def swapAnswers : Answers := ⟨shaHead, .found ⟨.ahead, swapFiles⟩, false⟩

theorem swap_indexed : (index notesPlatform notesKb (fun _ _ => 0) swapRepository true
    ⟨shaBase, .notFound, false⟩ ({} : Database JsString)).isSome := by decide

def swapStore : ValidDatabase JsString :=
  ⟨_, index_valid valid_empty (Option.some_get swap_indexed).symm⟩

theorem swap_blobsOf : blobsOf notesKb.git (swapRepository.tree shaBase) = [⟨pathA, shaOne⟩, ⟨pathB, shaTwo⟩] := by
  decide

theorem swap_holds : Holds notesPlatform notesKb swapRepository swapStore.val shaBase where
  stored b hb _ := by
    rw [swap_blobsOf] at hb
    obtain rfl | rfl : b = ⟨pathA, shaOne⟩ ∨ b = ⟨pathB, shaTwo⟩ := by simpa using hb
    · exact ⟨_, rfl, rfl⟩
    · exact ⟨_, rfl, rfl⟩
  only := by
    rw [swap_blobsOf]
    decide

theorem swap_faithful : Faithful swapRepository shaBase swapAnswers := by
  rintro - comparison hcompare -
  cases hcompare
  decide

theorem incremental_eq_full_swap : ∃ db₁ db₂ : Database JsString,
    index notesPlatform notesKb (fun _ _ => 0) swapRepository false swapAnswers swapStore.val = some db₁ ∧
    index notesPlatform notesKb (fun _ _ => 0) swapRepository true swapAnswers swapStore.val = some db₂ ∧
    db₁.documents.map (·.document.content) = [utf16 "two", utf16 "one"] ∧
    documentSet db₁ notesKb.id = documentSet db₂ notesKb.id :=
  ⟨_, _, rfl, rfl, by decide, incremental_eq_full notesPlatform notesKb swapRepository (fun _ _ => 0)
    (fun _ _ => 0) shaBase swapAnswers swapStore _ _ rfl swap_holds swap_faithful rfl rfl⟩

end HomelabApps.KnowledgeBase.Indexer
