import HomelabApps.KnowledgeBase.Indexer.Entries
import HomelabApps.KnowledgeBase.Git.Difference

universe u

namespace HomelabApps.KnowledgeBase.Indexer

open HomelabApps.Library
open HomelabApps.Library.Utf16
open HomelabApps.Library.Mirror (Change entryAt keys Delta)
open Store Git

variable {Vector : Type u} {platform : Platform} {kb : KnowledgeBaseConfig} {choose : String → Nat → Nat}
  {db db' : Database Vector} {x : JsString} {git : GitSourceConfig} {repository : Repository}
  {full : Bool} {answers : Answers} {cursor : Option JsString} {base : Sha} {source : SourceChanges}
  {blobs : List BlobRef} {k : Nat}

def lists (cursor : Option JsString) (answers : Answers) : Bool :=
  match cursor with
  | none => true
  | some base =>
    base ≠ answers.head.val &&
      match answers.compare with
      | .found comparison => !comparison.usable
      | _ => true

def readDifference (git : GitSourceConfig) (cursor : Option JsString) (answers : Answers) : Diff :=
  if cursor = some answers.head.val then ⟨[], []⟩
  else
    match answers.compare with
    | .found comparison => comparison.diff git
    | _ => ⟨[], []⟩

def treeChanges (platform : Platform) (git : GitSourceConfig) (repository : Repository) (head : Sha) :
    SourceChanges where
  upserts := (blobsOf git (repository.tree head)).map (documentOf platform repository head)
  deletes := []
  cursor := head.val
  complete := true

def diffChanges (platform : Platform) (repository : Repository) (head : Sha) (diff : Diff) :
    SourceChanges where
  upserts := diff.changed.map (documentOf platform repository head)
  deletes := diff.deleted.map (·.val)
  cursor := head.val
  complete := false

theorem readTree_eq_some (h : readTree platform git repository answers = some source) :
    source = treeChanges platform git repository answers.head := by
  rw [readTree, fetch_eq] at h
  split at h
  · cases h
  · exact (Option.some.inj h).symm

theorem read_eq_some (h : read platform git repository cursor answers = some source) :
    source = if lists cursor answers then treeChanges platform git repository answers.head
      else diffChanges platform repository answers.head (readDifference git cursor answers) := by
  unfold Git.read at h
  unfold lists readDifference
  cases cursor with
  | none => exact readTree_eq_some h
  | some base =>
    simp only at h ⊢
    split at h
    · rename_i hhead
      cases h
      simp [hhead, diffChanges]
    · rename_i hhead
      simp only [diff] at h
      cases hcompare : answers.compare with
      | failed => simp [hcompare] at h
      | notFound =>
        rw [hcompare] at h
        simpa [hhead] using readTree_eq_some h
      | found comparison =>
        rw [hcompare] at h
        by_cases husable : comparison.usable
        · simp only [husable, if_true, readDiff, fetch_eq] at h
          rw [← Option.some.inj h]
          simp [hhead, husable, diffChanges]
        · simp only [husable, Bool.false_eq_true, if_false] at h
          simpa [hhead, husable] using readTree_eq_some h

def runChanges (git : GitSourceConfig) (repository : Repository) (cursor : Option JsString)
    (answers : Answers) : List (Change JsString BlobRef) :=
  if lists cursor answers then Mirror.full (refs (blobsOf git (repository.tree answers.head)))
  else Mirror.incremental (refs (readDifference git cursor answers).changed)
    ((readDifference git cursor answers).deleted.map (·.val))

theorem flatMap_puts (documents : List SourceDocument) (models : List String) (writes : List Write) :
    (documents.map Write.document ++ models.map Write.copyByHash ++ writes).flatMap Write.changes =
      documents.map (fun d => .put (d.externalId, d)) ++ writes.flatMap Write.changes := by
  have hdocuments : (documents.map Write.document).flatMap Write.changes =
      documents.map fun d => .put (d.externalId, d) := by
    induction documents with
    | nil => rfl
    | cons d documents ih => rw [List.map_cons, List.flatMap_cons, ih]; rfl
  have hmodels : (models.map Write.copyByHash).flatMap Write.changes = [] := by
    induction models with
    | nil => rfl
    | cons m models ih => rw [List.map_cons, List.flatMap_cons, ih]; rfl
  rw [List.flatMap_append, List.flatMap_append, hdocuments, hmodels, List.append_nil]

theorem map_puts {head : Sha} (blobs : List BlobRef) :
    (blobs.map (documentOf platform repository head)).map
      (fun d => (.put (d.externalId, d) : Change JsString SourceDocument)) =
        ((refs blobs).map .put).map (Change.map (documentOf platform repository head)) := by
  simp only [refs, List.map_map]
  rfl

theorem upsertedIds_eq {head : Sha} : (blobs.map (documentOf platform repository head)).map (·.externalId) =
    keys (refs blobs) := by
  rw [keys_refs, List.map_map]
  rfl

theorem changes_documentWrites (h : read platform kb.git repository cursor answers = some source) :
    (documentWrites kb source).flatMap Write.changes =
      (runChanges kb.git repository cursor answers).map
        (Change.map (documentOf platform repository answers.head)) := by
  rw [documentWrites, flatMap_puts, List.flatMap_singleton, read_eq_some h, runChanges]
  split
  · rw [treeChanges, map_puts, Mirror.full, List.map_append]
    simp only [deletion, upsertedIds, upsertedIds_eq, if_true]
    rfl
  · rw [diffChanges, map_puts, Mirror.incremental, List.map_append]
    simp only [deletion, upsertedIds, upsertedIds_eq, Bool.false_eq_true, if_false]
    simp [Write.changes, Change.map, List.contains_eq_mem]

structure Paths (source : SourceChanges) : Prop where
  upserts : ∀ d ∈ source.upserts, toWellFormed d.externalId = d.externalId
  deletes : ∀ id ∈ source.deletes, toWellFormed id = id

theorem paths_of_read (h : read platform git repository cursor answers = some source) : Paths source := by
  have hupserts : ∀ blobs : List BlobRef, ∀ d ∈ blobs.map (documentOf platform repository answers.head),
      toWellFormed d.externalId = d.externalId := by
    intro blobs d hd
    obtain ⟨b, -, rfl⟩ := List.mem_map.mp hd
    exact b.path.property.2
  rw [read_eq_some h]
  split
  · exact ⟨hupserts _, fun id hid => by cases hid⟩
  · refine ⟨hupserts _, fun id hid => ?_⟩
    obtain ⟨path, -, rfl⟩ := List.mem_map.mp hid
    exact path.property.2

theorem Paths.encoded (h : Paths source) : ∀ w ∈ documentWrites kb source, w.Encoded := by
  intro w hw
  simp only [documentWrites, List.mem_append, List.mem_map, List.mem_singleton] at hw
  rcases hw with (⟨d, hd, rfl⟩ | ⟨model, -, rfl⟩) | rfl
  · exact h.upserts d hd
  · trivial
  · unfold deletion
    split
    · intro id hid
      obtain ⟨d, hd, rfl⟩ := List.mem_map.mp hid
      exact h.upserts d hd
    · exact fun id hid => h.deletes id (List.mem_filter.mp hid).1

def startCursor (kb : KnowledgeBaseConfig) (full : Bool) (db : Database Vector) : Option JsString :=
  if full then none else db.cursors kb.id

def putBlob (platform : Platform) (kb : KnowledgeBaseConfig) (repository : Repository) (head : Sha)
    (b : BlobRef) (e : Option Entry) : Option Entry :=
  put platform kb (documentOf platform repository head b) e

theorem index_run (hindex : index platform kb choose repository full answers db = some db') :
    ∃ source, read platform kb.git repository (startCursor kb full db) answers = some source ∧
      (∀ w ∈ documentWrites kb source ++ [.setCursor source.cursor], w.Encoded) ∧
      run platform kb choose db (documentWrites kb source ++ [.setCursor source.cursor]) = some db' := by
  obtain ⟨source, hread, hrun⟩ := Option.bind_eq_some_iff.mp hindex
  refine ⟨source, hread, fun w hw => ?_, hrun⟩
  rcases List.mem_append.mp hw with hw | hw
  · exact (paths_of_read hread).encoded w hw
  · rw [List.mem_singleton.mp hw]
    trivial

theorem index_valid (h : db.Valid)
    (hindex : index platform kb choose repository full answers db = some db') : db'.Valid := by
  obtain ⟨source, -, hencoded, hrun⟩ := index_run hindex
  exact (run_entry (x := []) h hencoded rfl hrun).1

theorem index_entry (h : db.Valid) (hx : toWellFormed x = x)
    (hindex : index platform kb choose repository full answers db = some db') :
    db'.entry kb.id x = entryAt (putBlob platform kb repository answers.head) x (db.entry kb.id x)
      (runChanges kb.git repository (startCursor kb full db) answers) := by
  obtain ⟨source, hread, hencoded, hrun⟩ := index_run hindex
  rw [(run_entry h hencoded hx hrun).2, List.flatMap_append, changes_documentWrites hread,
    List.flatMap_singleton, Write.changes, List.append_nil, Mirror.entryAt_map]
  rfl

def Faithful (repository : Repository) (base : Sha) (answers : Answers) : Prop :=
  base ≠ answers.head → ∀ comparison, answers.compare = .found comparison → comparison.usable →
    Describes repository base answers.head comparison.files

theorem delta_of_faithful (git : GitSourceConfig) (h : Faithful repository base answers)
    (hlists : lists (some base.val) answers = false) :
    Delta (refs (blobsOf git (repository.tree base))) (refs (blobsOf git (repository.tree answers.head)))
      (refs (readDifference git (some base.val) answers).changed)
      ((readDifference git (some base.val) answers).deleted.map (·.val)) := by
  unfold readDifference
  split
  · rename_i hhead
    obtain rfl : base = answers.head := Subtype.ext (Option.some.inj hhead)
    exact Mirror.delta_self
  · rename_i hhead
    have hne : base ≠ answers.head := fun heq => hhead (by rw [heq])
    have hval : base.val ≠ answers.head.val := fun heq => hne (Subtype.ext heq)
    simp only [lists, hval, ne_eq, not_false_eq_true, decide_true, Bool.true_and] at hlists
    cases hcompare : answers.compare with
    | found comparison =>
      rw [hcompare] at hlists
      exact delta_of_describes (h hne comparison hcompare (by simpa using hlists))
    | notFound => simp [hcompare] at hlists
    | failed => simp [hcompare] at hlists

theorem holdsNul_documentOf (base head : Sha) (b : BlobRef) :
    holdsNul (documentOf platform repository base b) = holdsNul (documentOf platform repository head b) := by
  have hurl : ∀ commit : Sha, ((documentOf platform repository commit b).url.all noNul) := by
    intro commit
    simpa [documentOf, document, noNul] using @nul_url repository commit b.path
  exact holdsNul_congr rfl rfl rfl (hurl base) (hurl head) rfl rfl rfl

end HomelabApps.KnowledgeBase.Indexer
