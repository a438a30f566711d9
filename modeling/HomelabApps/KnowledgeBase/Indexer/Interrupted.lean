import HomelabApps.KnowledgeBase.Indexer.Contents
import HomelabApps.KnowledgeBase.Indexer.Equivalence

universe u

namespace HomelabApps.KnowledgeBase.Indexer

open HomelabApps.Library
open HomelabApps.Library.Utf16
open HomelabApps.Library.Mirror (Change entryAt keys Delta)
open Store Git

variable {Vector : Type u} {platform : Platform} {kb : KnowledgeBaseConfig} {choose : String → Nat → Nat}
  {repository : Repository} {full : Bool} {answers : Answers} {db db' : Database Vector}
  {base : Sha} {cursor : Option JsString} {start : Option Sha} {x : JsString} {b : BlobRef}
  {e : Option Entry} {source : SourceChanges} {k : Nat} {git : GitSourceConfig}

def reads (git : GitSourceConfig) (repository : Repository) (cursor : Option JsString) (answers : Answers) :
    List BlobRef :=
  if lists cursor answers then blobsOf git (repository.tree answers.head)
  else (readDifference git cursor answers).changed

def Removed (git : GitSourceConfig) (repository : Repository) (cursor : Option JsString)
    (answers : Answers) (x : JsString) : Prop :=
  x ∉ keys (refs (reads git repository cursor answers)) ∧
    (lists cursor answers ∨ x ∈ (readDifference git cursor answers).deleted.map (·.val))

def removal (git : GitSourceConfig) (repository : Repository) (cursor : Option JsString)
    (answers : Answers) : Change JsString BlobRef :=
  if lists cursor answers then .keep (keys (refs (reads git repository cursor answers)))
  else .drop (((readDifference git cursor answers).deleted.map (·.val)).filter fun x =>
    x ∉ keys (refs (reads git repository cursor answers)))

def deletes (kb : KnowledgeBaseConfig) (repository : Repository) (cursor : Option JsString)
    (answers : Answers) (k : Nat) : Bool :=
  (reads kb.git repository cursor answers).length + kb.models.length < k

def Touched (platform : Platform) (kb : KnowledgeBaseConfig) (repository : Repository)
    (cursor : Option JsString) (answers : Answers) (k : Nat) (x : JsString) : Prop :=
  (∃ b ∈ (reads kb.git repository cursor answers).take k, b.path.val = x ∧
    holdsNul (documentOf platform repository answers.head b) = some false) ∨
  (deletes kb repository cursor answers k ∧ Removed kb.git repository cursor answers x)

def prefixChanges (kb : KnowledgeBaseConfig) (repository : Repository) (cursor : Option JsString)
    (answers : Answers) (k : Nat) : List (Change JsString BlobRef) :=
  (refs ((reads kb.git repository cursor answers).take k)).map .put ++
    if deletes kb repository cursor answers k then [removal kb.git repository cursor answers] else []

def Named (git : GitSourceConfig) (cursor : Option JsString) (answers : Answers) (x : JsString) : Prop :=
  lists cursor answers ∨ x ∈ keys (refs (readDifference git cursor answers).changed) ∨
    x ∈ (readDifference git cursor answers).deleted.map (·.val)

theorem named_iff (repository : Repository) : Named git cursor answers x ↔
    x ∈ keys (refs (reads git repository cursor answers)) ∨ Removed git repository cursor answers x := by
  unfold Named Removed reads
  split
  · rename_i hlists
    simp only [hlists, true_or, and_true, true_iff]
    exact Classical.em _
  · rename_i hlists
    simp only [hlists, Bool.false_eq_true, false_or]
    tauto

theorem at_removal {put : BlobRef → Option Entry → Option Entry}
    (h : Removed git repository cursor answers x) :
    Change.at put x e (removal git repository cursor answers) = none := by
  obtain ⟨hreads, hdropped⟩ := h
  unfold removal
  split
  · rw [Change.at, if_neg hreads]
  · rename_i hlists
    rw [Change.at, if_pos]
    rw [List.mem_filter]
    exact ⟨hdropped.resolve_left hlists, by simpa using hreads⟩

theorem at_removal_of_not {put : BlobRef → Option Entry → Option Entry}
    (h : ¬Removed git repository cursor answers x) :
    Change.at put x e (removal git repository cursor answers) = e := by
  unfold removal
  split
  · rename_i hlists
    rw [Change.at, if_pos]
    by_contra hreads
    exact h ⟨hreads, .inl hlists⟩
  · rw [Change.at, if_neg]
    rw [List.mem_filter]
    rintro ⟨hdropped, hreads⟩
    exact h ⟨by simpa using hreads, .inr hdropped⟩

theorem upserts_of_read (h : read platform git repository cursor answers = some source) :
    source.upserts = (reads git repository cursor answers).map
      (documentOf platform repository answers.head) := by
  rw [read_eq_some h, reads]
  split <;> rfl

theorem deletion_of_read (h : read platform git repository cursor answers = some source) :
    (deletion source).changes = [Change.map (documentOf platform repository answers.head)
      (removal git repository cursor answers)] := by
  have hids : upsertedIds source = keys (refs (reads git repository cursor answers)) := by
    rw [upsertedIds, upserts_of_read h, upsertedIds_eq]
  rw [deletion, hids, removal, read_eq_some h]
  split
  · rfl
  · simp [diffChanges, Write.changes, Change.map, List.contains_eq_mem]

theorem changes_take (h : read platform kb.git repository cursor answers = some source) :
    ((documentWrites kb source).take k).flatMap Write.changes =
      (prefixChanges kb repository cursor answers k).map
        (Change.map (documentOf platform repository answers.head)) := by
  have hlength : source.upserts.length = (reads kb.git repository cursor answers).length := by
    rw [upserts_of_read h, List.length_map]
  rw [documentWrites, List.take_append, List.take_append, ← List.map_take, ← List.map_take, flatMap_puts,
    upserts_of_read h, ← List.map_take, map_puts, prefixChanges, List.map_append]
  congr 1
  unfold deletes
  by_cases hk : (reads kb.git repository cursor answers).length + kb.models.length < k
  · rw [List.take_of_length_le (by simp; omega), List.flatMap_singleton, deletion_of_read h]
    simp [hk]
  · rw [List.take_eq_nil_iff.mpr (.inl (by simp; omega))]
    simp [hk]

structure Sound (git : GitSourceConfig) (repository : Repository) (cursor : Option JsString)
    (answers : Answers) : Prop where
  once : (keys (refs (reads git repository cursor answers))).Nodup
  head : ∀ b ∈ reads git repository cursor answers, b ∈ blobsOf git (repository.tree answers.head)
  removed : ∀ x, Removed git repository cursor answers x →
    x ∉ keys (refs (blobsOf git (repository.tree answers.head)))

theorem sound_of_faithful (h : ∀ base ∈ start, Faithful repository base answers) :
    Sound git repository (start.map (·.val)) answers := by
  cases hlists : lists (start.map (·.val)) answers with
  | true =>
    have hreads : reads git repository (start.map (·.val)) answers =
        blobsOf git (repository.tree answers.head) := if_pos hlists
    exact {
      once := by rw [hreads]; exact nodup_blobsOf
      head := fun b hb => hreads ▸ hb
      removed := fun x hx => hreads ▸ hx.1 }
  | false =>
    cases start with
    | none => cases hlists
    | some base =>
      have hdelta := delta_of_faithful git (h base rfl) hlists
      have hreads : reads git repository (some base.val) answers =
          (readDifference git (some base.val) answers).changed := if_neg (by simpa using hlists)
      refine { once := ?_, head := fun b hb => ?_, removed := fun x hx hhead => ?_ }
      · rw [Option.map_some, hreads]
        exact hdelta.once
      · rw [Option.map_some, hreads] at hb
        exact (mem_refs.mp (hdelta.read (b.path.val, b) (mem_refs.mpr ⟨hb, rfl⟩))).1
      · rw [Removed, Option.map_some, hreads] at hx
        refine hx.1 (hdelta.dropped x (hx.2.resolve_left ?_) hhead)
        simpa using hlists

theorem at_removals {put : BlobRef → Option Entry → Option Entry}
    (h : ¬(deletes kb repository cursor answers k ∧ Removed kb.git repository cursor answers x)) :
    entryAt put x e (if deletes kb repository cursor answers k then
      [removal kb.git repository cursor answers] else []) = e := by
  split
  · rename_i hdeletes
    exact at_removal_of_not fun hremoved => h ⟨hdeletes, hremoved⟩
  · rfl

theorem content_prefix (hsound : Sound kb.git repository cursor answers)
    (h : Touched platform kb repository cursor answers k x) :
    content (entryAt (putBlob platform kb repository answers.head) x e
      (prefixChanges kb repository cursor answers k)) = textAt kb repository answers.head x := by
  rw [prefixChanges, Mirror.entryAt_append]
  rcases h with ⟨b, hb, rfl, hnul⟩ | ⟨hdeletes, hremoved⟩
  · have hread := List.mem_of_mem_take hb
    have hnodup : (keys (refs ((reads kb.git repository cursor answers).take k))).Nodup :=
      (((List.take_sublist k _).map _).map _).nodup hsound.once
    have hkey : b.path.val ∈ keys (refs (reads kb.git repository cursor answers)) :=
      mem_keys_refs.mpr ⟨b, hread, rfl⟩
    rw [Mirror.entryAt_puts hnodup (mem_refs.mpr ⟨hb, rfl⟩), at_removals fun hremoved => hremoved.2.1 hkey,
      content_putBlob hnul, textAt_of_mem (hsound.head b hread)]
  · rw [if_pos hdeletes, textAt_eq_none.mpr (hsound.removed x hremoved)]
    exact congrArg content (at_removal hremoved)

theorem entry_prefix (hsound : Sound kb.git repository cursor answers)
    (h : ¬Touched platform kb repository cursor answers k x) :
    entryAt (putBlob platform kb repository answers.head) x e
      (prefixChanges kb repository cursor answers k) = e := by
  rw [Touched, not_or] at h
  rw [prefixChanges, Mirror.entryAt_append, at_removals h.2]
  by_cases hmem : x ∈ keys (refs ((reads kb.git repository cursor answers).take k))
  · obtain ⟨b, hb, rfl⟩ := mem_keys_refs.mp hmem
    have hnodup : (keys (refs ((reads kb.git repository cursor answers).take k))).Nodup :=
      (((List.take_sublist k _).map _).map _).nodup hsound.once
    rw [Mirror.entryAt_puts hnodup (mem_refs.mpr ⟨hb, rfl⟩), putBlob_of_ne]
    exact fun hnul => h.1 ⟨b, hb, rfl, hnul⟩
  · exact Mirror.entryAt_puts_of_notMem _ _ hmem

theorem runChanges_eq : runChanges kb.git repository cursor answers = prefixChanges kb repository cursor
    answers ((reads kb.git repository cursor answers).length + kb.models.length + 1) := by
  rw [prefixChanges, deletes, if_pos (by simp), List.take_of_length_le (by omega), runChanges, removal, reads]
  split
  · rfl
  · simp [Mirror.incremental]

theorem interrupted_run (hinterrupted : interrupted platform kb choose repository full answers k db = some db') :
    ∃ source, read platform kb.git repository (startCursor kb full db) answers = some source ∧
      run platform kb choose db ((documentWrites kb source).take k) = some db' :=
  Option.bind_eq_some_iff.mp hinterrupted

theorem perform_cursors {w : Write} (h : db.Valid) (hw : ∀ cursor, w ≠ .setCursor cursor)
    (hperform : perform platform kb choose db w = some db') : db'.cursors = db.cursors := by
  cases w with
  | document document =>
    simp only [perform] at hperform
    split at hperform
    · cases hperform
    · cases hperform
      rfl
    · obtain ⟨⟨db₁, change⟩, hupsert, rfl⟩ := Option.map_eq_some_iff.mp hperform
      exact (upsert_upserted h hupsert).cursors
  | copyByHash model =>
    cases hperform
    obtain ⟨added, -, heq⟩ := insertEmbeddings_eq db (db.copies (choose model) kb.id model)
    rw [Database.copyByHash, heq]
  | delete ids =>
    simp only [perform, Database.delete] at hperform
    split at hperform
    · cases hperform
      rfl
    · cases hperform
  | deleteAllExcept keep =>
    simp only [perform, Database.deleteAllExcept] at hperform
    split at hperform
    · cases hperform
      rfl
    · cases hperform
  | setCursor cursor => exact absurd rfl (hw cursor)

theorem run_cursors {writes : List Write} (h : db.Valid) (hencoded : ∀ w ∈ writes, w.Encoded)
    (hwrites : ∀ w ∈ writes, ∀ cursor, w ≠ .setCursor cursor)
    (hrun : run platform kb choose db writes = some db') : db'.cursors = db.cursors := by
  induction writes generalizing db with
  | nil =>
    obtain rfl : db = db' := by simpa [run] using hrun
    rfl
  | cons w writes ih =>
    obtain ⟨db₁, hperform, hrun⟩ := Transition.run_cons_eq_some.mp hrun
    have hvalid := (perform_entry (x := []) h (hencoded w List.mem_cons_self) rfl hperform).1
    rw [← perform_cursors h (hwrites w List.mem_cons_self) hperform]
    exact ih hvalid (fun w hw => hencoded w (List.mem_cons_of_mem _ hw))
      (fun w hw => hwrites w (List.mem_cons_of_mem _ hw)) hrun

theorem ne_setCursor {w : Write} (hw : w ∈ documentWrites kb source) (cursor : JsString) :
    w ≠ .setCursor cursor := by
  rintro rfl
  simp only [documentWrites, List.mem_append, List.mem_map, List.mem_singleton] at hw
  rcases hw with (⟨_, -, h⟩ | ⟨_, -, h⟩) | h
  · cases h
  · cases h
  · unfold deletion at h
    split at h <;> cases h

theorem interrupted_valid (h : db.Valid)
    (hinterrupted : interrupted platform kb choose repository full answers k db = some db') :
    db'.Valid ∧ db'.cursors = db.cursors := by
  obtain ⟨source, hread, hrun⟩ := interrupted_run hinterrupted
  have hencoded : ∀ w ∈ (documentWrites kb source).take k, w.Encoded := fun w hw =>
    (paths_of_read hread).encoded w (List.mem_of_mem_take hw)
  exact ⟨(run_entry (x := []) h hencoded rfl hrun).1,
    run_cursors h hencoded (fun w hw => ne_setCursor (List.mem_of_mem_take hw)) hrun⟩

theorem interrupted_entry (h : db.Valid) (hx : toWellFormed x = x)
    (hinterrupted : interrupted platform kb choose repository full answers k db = some db') :
    db'.entry kb.id x = entryAt (putBlob platform kb repository answers.head) x (db.entry kb.id x)
      (prefixChanges kb repository (startCursor kb full db) answers k) := by
  obtain ⟨source, hread, hrun⟩ := interrupted_run hinterrupted
  have hencoded : ∀ w ∈ (documentWrites kb source).take k, w.Encoded := fun w hw =>
    (paths_of_read hread).encoded w (List.mem_of_mem_take hw)
  rw [(run_entry h hencoded hx hrun).2, changes_take hread, Mirror.entryAt_map]
  rfl

theorem content_index (h : db.Valid) (hx : toWellFormed x = x)
    (hsound : Sound kb.git repository (startCursor kb full db) answers)
    (hindex : index platform kb choose repository full answers db = some db')
    (hnul : ¬NulAt platform kb repository answers.head x)
    (hnamed : Named kb.git (startCursor kb full db) answers x) :
    content (db'.entry kb.id x) = textAt kb repository answers.head x := by
  rw [index_entry h hx hindex, runChanges_eq]
  refine content_prefix hsound ?_
  rcases (named_iff repository).mp hnamed with hread | hremoved
  · obtain ⟨b, hb, rfl⟩ := mem_keys_refs.mp hread
    refine .inl ⟨b, by rwa [List.take_of_length_le (by omega)], rfl, ?_⟩
    obtain ⟨source, hsource, -, hrun⟩ := index_run hindex
    have hmem : Write.document (documentOf platform repository answers.head b) ∈
        documentWrites kb source ++ [.setCursor source.cursor] := by
      simp only [documentWrites, upserts_of_read hsource, List.mem_append, List.mem_map]
      exact .inl (.inl (.inl ⟨_, ⟨b, hb, rfl⟩, rfl⟩))
    cases hdecided : holdsNul (documentOf platform repository answers.head b) with
    | none => simpa [hdecided] using holdsNul_of_run hrun hmem
    | some found =>
      cases found with
      | true => exact absurd ⟨b, hsound.head b hb, rfl, hdecided⟩ hnul
      | false => rfl
  · exact .inr ⟨by simp [deletes], hremoved⟩

theorem entry_index (h : db.Valid) (hx : toWellFormed x = x)
    (hsound : Sound kb.git repository (startCursor kb full db) answers)
    (hindex : index platform kb choose repository full answers db = some db')
    (hnamed : ¬Named kb.git (startCursor kb full db) answers x) :
    db'.entry kb.id x = db.entry kb.id x := by
  rw [index_entry h hx hindex, runChanges_eq]
  refine entry_prefix hsound fun htouched => hnamed ((named_iff repository).mpr ?_)
  rcases htouched with ⟨b, hb, rfl, -⟩ | ⟨-, hremoved⟩
  · exact .inl (mem_keys_refs.mpr ⟨b, List.mem_of_mem_take hb, rfl⟩)
  · exact .inr hremoved

theorem same_of_not_named (platform : Platform) (h : Faithful repository base answers)
    (hnamed : ¬Named kb.git (some base.val) answers x) :
    textAt kb repository base x = textAt kb repository answers.head x ∧
      (NulAt platform kb repository base x → NulAt platform kb repository answers.head x) := by
  simp only [Named, not_or, Bool.not_eq_true] at hnamed
  obtain ⟨hlists, hchanged, hdeleted⟩ := hnamed
  have hdelta := delta_of_faithful kb.git h hlists
  by_cases hhead : x ∈ keys (refs (blobsOf kb.git (repository.tree answers.head)))
  · obtain ⟨b, hb⟩ := Mirror.exists_of_mem_keys hhead
    have hbase := hdelta.unchanged _ hb hchanged
    obtain ⟨hfile, rfl⟩ := mem_refs.mp hb
    refine ⟨by rw [textAt_of_mem (mem_refs.mp hbase).1, textAt_of_mem hfile], ?_⟩
    rintro ⟨b', hb', hpath, hnul⟩
    obtain rfl := Mirror.item_unique nodup_blobsOf hbase (mem_refs.mpr ⟨hb', hpath⟩)
    exact ⟨b, hfile, rfl, (holdsNul_documentOf base answers.head b).symm.trans hnul⟩
  · have hbase : x ∉ keys (refs (blobsOf kb.git (repository.tree base))) := fun hbase =>
      hdeleted (hdelta.gone x hbase hhead)
    refine ⟨by rw [textAt_eq_none.mpr hbase, textAt_eq_none.mpr hhead], ?_⟩
    rintro ⟨b, hb, rfl, -⟩
    exact absurd (mem_keys_refs.mpr ⟨b, hb, rfl⟩) hbase

theorem startCursor_eq (hstart : db.cursors kb.id = start.map (·.val)) :
    startCursor kb full db = (if full then none else start).map (·.val) := by
  rw [startCursor, hstart]
  cases full <;> rfl

theorem sound_of_start (full : Bool) (hstart : db.cursors kb.id = start.map (·.val))
    (hfaithful : ∀ base ∈ start, Faithful repository base answers) :
    Sound kb.git repository (startCursor kb full db) answers := by
  rw [startCursor_eq hstart]
  refine sound_of_faithful fun base hbase => hfaithful base ?_
  cases full with
  | true => cases hbase
  | false => exact hbase

theorem start_of_not_named (hstart : db.cursors kb.id = start.map (·.val))
    (hnamed : ¬Named kb.git (startCursor kb full db) answers x) :
    ∃ base, start = some base ∧ ¬Named kb.git (some base.val) answers x := by
  rw [startCursor_eq hstart] at hnamed
  cases full with
  | true => exact absurd (.inl rfl) hnamed
  | false =>
    cases start with
    | none => exact absurd (.inl rfl) hnamed
    | some base => exact ⟨base, rfl, hnamed⟩

theorem exact_index_iff (h : db.Valid) (hstart : db.cursors kb.id = start.map (·.val))
    (hfaithful : ∀ base ∈ start, Faithful repository base answers)
    (hindex : index platform kb choose repository full answers db = some db') :
    Exact platform kb repository answers.head db' ↔
      ∀ x, toWellFormed x = x → ¬NulAt platform kb repository answers.head x →
        ¬Named kb.git (startCursor kb full db) answers x →
        content (db.entry kb.id x) = textAt kb repository answers.head x := by
  have hsound := sound_of_start full hstart hfaithful
  rw [exact_iff (index_valid h hindex)]
  refine forall_congr' fun x => forall_congr' fun hx => forall_congr' fun hnul => ?_
  by_cases hnamed : Named kb.git (startCursor kb full db) answers x
  · simp [hnamed, content_index h hx hsound hindex hnul hnamed]
  · simp [hnamed, entry_index h hx hsound hindex hnamed]

theorem Synced.content (hsynced : Synced platform kb repository start db) (h : db.Valid)
    (hx : toWellFormed x = x) (hfaithful : ∀ base ∈ start, Faithful repository base answers)
    (hnul : ¬NulAt platform kb repository answers.head x)
    (hnamed : ¬Named kb.git (startCursor kb full db) answers x) :
    content (db.entry kb.id x) = textAt kb repository answers.head x := by
  obtain ⟨base, rfl, hnamed⟩ := start_of_not_named hsynced.start hnamed
  obtain ⟨htext, hnulBase⟩ := same_of_not_named platform (hfaithful base rfl) hnamed
  rw [← htext]
  exact (exact_iff h).mp (hsynced.exact base rfl) x hx fun hbase => hnul (hnulBase hbase)

theorem index_cursor (hindex : index platform kb choose repository full answers db = some db') :
    db'.cursors kb.id = some answers.head.val := by
  obtain ⟨source, hread, -, hrun⟩ := index_run hindex
  obtain ⟨db₁, -, hcursor⟩ := Transition.run_append_eq_some.mp hrun
  obtain rfl : _ = db' := by simpa [Transition.run_cons, perform] using hcursor
  have hsource : source.cursor = answers.head.val := by
    rw [read_eq_some hread]
    split <;> rfl
  simp [hsource]

theorem Synced.index (hsynced : Synced platform kb repository start db) (h : db.Valid)
    (hfaithful : ∀ base ∈ start, Faithful repository base answers)
    (hindex : index platform kb choose repository full answers db = some db') :
    Synced platform kb repository (some answers.head) db' where
  start := index_cursor hindex
  exact := by
    intro base hbase
    obtain rfl := Option.some.inj hbase
    exact (exact_index_iff h hsynced.start hfaithful hindex).mpr fun _ hx hnul hnamed =>
      hsynced.content h hx hfaithful hnul hnamed

theorem recovers_iff (platform : Platform) (kb : KnowledgeBaseConfig) (repository : Repository)
    (choose choose' choose'' : String → Nat → Nat) (full full' : Bool) (answers answers' : Answers)
    (start : Option Sha) (k : Nat) (store : ValidDatabase Vector) (db₁ db₂ : Database Vector)
    (hsynced : Synced platform kb repository start store.val)
    (hfaithful : ∀ base ∈ start, Faithful repository base answers ∧ Faithful repository base answers')
    (hinterrupted : interrupted platform kb choose repository full answers k store.val = some db₁)
    (hindex : index platform kb choose' repository full' answers' db₁ = some db₂) :
    (Exact platform kb repository answers'.head db₂ ∧
      ∀ db₃, index platform kb choose'' repository full' answers' store.val = some db₃ →
        contents platform kb repository answers'.head db₂ =
          contents platform kb repository answers'.head db₃) ↔
    ∀ x, Touched platform kb repository (startCursor kb full store.val) answers k x →
      Named kb.git (startCursor kb full' store.val) answers' x ∨
      NulAt platform kb repository answers'.head x ∨
      textAt kb repository answers.head x = textAt kb repository answers'.head x := by
  obtain ⟨db, h⟩ := store
  obtain ⟨hvalid, hcursors⟩ := interrupted_valid h hinterrupted
  have hfaithful₂ : ∀ base ∈ start, Faithful repository base answers' := fun base hbase =>
    (hfaithful base hbase).2
  have hsound := sound_of_start full hsynced.start fun base hbase => (hfaithful base hbase).1
  have hstart : db₁.cursors kb.id = start.map (·.val) := hcursors ▸ hsynced.start
  have hcursor : startCursor kb full' db₁ = startCursor kb full' db := by
    rw [startCursor, startCursor, hcursors]
  have hexact := exact_index_iff hvalid hstart hfaithful₂ hindex
  rw [hcursor] at hexact
  have htouched : ∀ x, toWellFormed x = x →
      Touched platform kb repository (startCursor kb full db) answers k x →
      content (db₁.entry kb.id x) = textAt kb repository answers.head x := fun x hx htouched => by
    rw [interrupted_entry h hx hinterrupted]
    exact content_prefix hsound htouched
  constructor
  · rintro ⟨hdb₂, -⟩ x htouch
    by_contra hnot
    simp only [not_or] at hnot
    obtain ⟨hnamed, hnul, htext⟩ := hnot
    by_cases hx : toWellFormed x = x
    · exact htext ((htouched x hx htouch).symm.trans (hexact.mp hdb₂ x hx hnul hnamed))
    · exact htext (by rw [textAt_of_ne hx, textAt_of_ne hx])
  · intro hall
    have hdb₂ : Exact platform kb repository answers'.head db₂ := by
      refine hexact.mpr fun x hx hnul hnamed => ?_
      by_cases htouch : Touched platform kb repository (startCursor kb full db) answers k x
      · rw [htouched x hx htouch]
        exact ((hall x htouch).resolve_left hnamed).resolve_left hnul
      · rw [interrupted_entry h hx hinterrupted, entry_prefix hsound htouch]
        exact hsynced.content h hx hfaithful₂ hnul hnamed
    refine ⟨hdb₂, fun db₃ halone => ?_⟩
    exact hdb₂.trans ((hsynced.index h hfaithful₂ halone).exact _ rfl).symm

def shaRevert : Sha := ⟨utf16 "c0de", by decide, List.all_eq_true.mp (by decide)⟩

def revertRepository : Repository where
  htmlUrl := notesUrl
  noNul := nul_notesUrl
  tree commit := [⟨pathA, .blob, if commit = shaHead then shaTwo else shaOne⟩]
  nodup _ := List.nodup_singleton _
  text := notesText
  encoded := encoded_notesText

def editAnswers : Answers :=
  ⟨shaHead, .found ⟨.ahead, [⟨pathA, .modified, some shaTwo, none⟩]⟩, false⟩

def revertAnswers : Answers := ⟨shaRevert, .found ⟨.ahead, []⟩, false⟩

theorem revert_indexed : (index notesPlatform notesKb (fun _ _ => 0) revertRepository
    true ⟨shaBase, .notFound, false⟩ ({} : Database JsString)).isSome := by decide

def revertStore : ValidDatabase JsString :=
  ⟨_, index_valid valid_empty (Option.some_get revert_indexed).symm⟩

theorem synced_empty : Synced platform kb repository none ({} : Database Vector) :=
  ⟨rfl, fun _ h => by cases h⟩

theorem revert_synced : Synced notesPlatform notesKb revertRepository (some shaBase) revertStore.val :=
  synced_empty.index valid_empty (fun _ h => by cases h) (Option.some_get revert_indexed).symm

theorem edit_faithful : Faithful revertRepository shaBase editAnswers := by
  rintro - comparison hcompare -
  cases hcompare
  decide

theorem revert_faithful : Faithful revertRepository shaBase revertAnswers := by
  rintro - comparison hcompare -
  cases hcompare
  decide

theorem recovers_iff_same_head : ∃ db₁ db₂ : Database JsString,
    interrupted notesPlatform notesKb (fun _ _ => 0) revertRepository false editAnswers 1 revertStore.val =
      some db₁ ∧
    index notesPlatform notesKb (fun _ _ => 0) revertRepository false editAnswers db₁ = some db₂ ∧
    Exact notesPlatform notesKb revertRepository shaHead db₂ :=
  ⟨_, _, rfl, rfl, ((recovers_iff notesPlatform notesKb revertRepository (fun _ _ => 0) (fun _ _ => 0)
    (fun _ _ => 0) false false editAnswers editAnswers (some shaBase) 1 revertStore _ _ revert_synced
    (by rintro _ ⟨⟩; exact ⟨edit_faithful, edit_faithful⟩) rfl rfl).mpr fun _ _ => .inr (.inr rfl)).1⟩

/-- The changed text stays when the change is reverted before the next run. -/
theorem reverted_text_stays : Synced notesPlatform notesKb revertRepository (some shaBase) revertStore.val ∧
    Faithful revertRepository shaBase editAnswers ∧ Faithful revertRepository shaBase revertAnswers ∧
    ∃ db₁ db₂ : Database JsString,
      interrupted notesPlatform notesKb (fun _ _ => 0) revertRepository false editAnswers 1
        revertStore.val = some db₁ ∧
      index notesPlatform notesKb (fun _ _ => 0) revertRepository false revertAnswers db₁ = some db₂ ∧
      db₂.documents.map (fun d => (d.document.externalId, d.document.content)) =
        [(utf16 "a.md", utf16 "two")] ∧
      textAt notesKb revertRepository shaRevert (utf16 "a.md") = some (utf16 "one") ∧
      ¬Exact notesPlatform notesKb revertRepository shaRevert db₂ := by
  refine ⟨revert_synced, edit_faithful, revert_faithful, _, _, rfl, rfl, by decide, by decide, fun hexact => ?_⟩
  have hstored : (utf16 "a.md", utf16 "two") ∈
      files notesPlatform notesKb revertRepository shaRevert := by
    rw [← show _ = files notesPlatform notesKb revertRepository shaRevert from hexact]
    exact ⟨by decide, ⟨_, List.mem_cons_self, rfl, rfl⟩⟩
  obtain ⟨-, b, hb, heq⟩ := hstored
  obtain rfl : b = ⟨pathA, shaOne⟩ := List.mem_singleton.mp hb
  cases heq

end HomelabApps.KnowledgeBase.Indexer
