import HomelabApps.KnowledgeBase.Git.SourceAdapter
import HomelabApps.Library.Mirror

namespace HomelabApps.KnowledgeBase.Git

open HomelabApps.Library
open HomelabApps.Library.Utf16
open Mirror (Delta keys)

def blobAt (repository : Repository) (commit : Sha) (path : GitPath) : Option Sha :=
  ((repository.tree commit).find? fun entry => entry.path = path && entry.type = .blob).map (·.sha)

/-- The files of a comparison describe the difference of two commits: each path to read once, with
its blob at head; each path removed or moved away gone from head, or listed as what replaced it. -/
structure Describes (repository : Repository) (base head : Sha) (files : List CompareFile) : Prop where
  once : ((files.filter CompareFile.present).map (·.filename)).Nodup
  read : ∀ file ∈ files, file.present → ∀ sha, file.sha = some sha →
    blobAt repository head file.filename = some sha
  dropped : ∀ file ∈ files, ∀ path, file.deleted = some path →
    blobAt repository head path = none ∨
      ∃ other ∈ files, other.present ∧ other.filename = path ∧ other.sha.isSome
  listed : ∀ path sha, blobAt repository head path = some sha → blobAt repository base path ≠ some sha →
    ∃ file ∈ files, file.present ∧ file.filename = path ∧ file.sha = some sha
  gone : ∀ path, blobAt repository head path = none → (blobAt repository base path).isSome →
    ∃ file ∈ files, file.deleted = some path

def refs (blobs : List BlobRef) : List (JsString × BlobRef) := blobs.map fun b => (b.path.val, b)

variable {repository : Repository} {commit base head : Sha} {git : GitSourceConfig} {path : GitPath}
  {b : BlobRef} {blobs : List BlobRef} {comparison : Compare} {file : CompareFile} {x : JsString}

theorem mem_refs : (x, b) ∈ refs blobs ↔ b ∈ blobs ∧ b.path.val = x := by
  simp only [refs, List.mem_map, Prod.mk.injEq]
  constructor
  · rintro ⟨b, hb, rfl, rfl⟩
    exact ⟨hb, rfl⟩
  · rintro ⟨hb, rfl⟩
    exact ⟨b, hb, rfl, rfl⟩

theorem keys_refs : keys (refs blobs) = blobs.map (·.path.val) := by
  simp [keys, refs]

theorem mem_keys_refs : x ∈ keys (refs blobs) ↔ ∃ b ∈ blobs, b.path.val = x := by
  rw [keys_refs, List.mem_map]

theorem blobAt_eq_some {sha : Sha} : blobAt repository commit path = some sha ↔
    ⟨path, .blob, sha⟩ ∈ repository.tree commit := by
  rw [blobAt, Option.map_eq_some_iff]
  constructor
  · rintro ⟨entry, hfind, rfl⟩
    have h := List.find?_some hfind
    simp only [Bool.and_eq_true, decide_eq_true_eq] at h
    obtain ⟨rfl, htype⟩ := h
    exact htype ▸ List.mem_of_find?_eq_some hfind
  · intro hmem
    cases hfind : (repository.tree commit).find? fun entry => entry.path = path && entry.type = .blob with
    | none => simpa using List.find?_eq_none.mp hfind _ hmem
    | some entry =>
      have h := List.find?_some hfind
      simp only [Bool.and_eq_true, decide_eq_true_eq] at h
      have heq := List.inj_on_of_nodup_map (repository.nodup commit) (List.mem_of_find?_eq_some hfind)
        hmem h.1
      exact ⟨entry, rfl, by rw [heq]⟩

theorem describes_iff {files : List CompareFile} : Describes repository base head files ↔
    ((files.filter CompareFile.present).map (·.filename)).Nodup ∧
    (∀ file ∈ files, file.present → ∀ sha ∈ file.sha, blobAt repository head file.filename = some sha) ∧
    (∀ file ∈ files, ∀ path ∈ file.deleted, blobAt repository head path = none ∨
      ∃ other ∈ files, other.present ∧ other.filename = path ∧ other.sha.isSome) ∧
    (∀ entry ∈ repository.tree head, entry.type = .blob →
      blobAt repository base entry.path ≠ some entry.sha →
        ∃ file ∈ files, file.present ∧ file.filename = entry.path ∧ file.sha = some entry.sha) ∧
    (∀ entry ∈ repository.tree base, entry.type = .blob → blobAt repository head entry.path = none →
      ∃ file ∈ files, file.deleted = some entry.path) := by
  have hentry : ∀ {commit : Sha} {entry : TreeEntry}, entry ∈ repository.tree commit → entry.type = .blob →
      blobAt repository commit entry.path = some entry.sha := fun hmem htype =>
    blobAt_eq_some.mpr (htype ▸ hmem)
  constructor
  · intro h
    refine ⟨h.once, h.read, h.dropped, fun entry hmem htype hne => ?_, fun entry hmem htype hnone => ?_⟩
    · exact h.listed entry.path entry.sha (hentry hmem htype) hne
    · exact h.gone entry.path hnone (by rw [hentry hmem htype]; rfl)
  · rintro ⟨honce, hread, hdropped, hlisted, hgone⟩
    refine ⟨honce, hread, hdropped, fun path sha hhead hbase => ?_, fun path hnone hbase => ?_⟩
    · exact hlisted _ (blobAt_eq_some.mp hhead) rfl hbase
    · obtain ⟨sha, hsha⟩ := Option.isSome_iff_exists.mp hbase
      exact hgone _ (blobAt_eq_some.mp hsha) rfl hnone

set_option synthInstance.maxSize 512 in
instance {files : List CompareFile} : Decidable (Describes repository base head files) :=
  decidable_of_iff _ describes_iff.symm

theorem mem_blobsOf : b ∈ blobsOf git (repository.tree commit) ↔
    blobAt repository commit b.path = some b.sha ∧ included git b.path := by
  rw [blobAt_eq_some]
  simp only [blobsOf, List.mem_map, List.mem_filter, Bool.and_eq_true, decide_eq_true_eq]
  constructor
  · rintro ⟨⟨path, type, sha⟩, ⟨hmem, htype, hincluded⟩, rfl⟩
    exact ⟨htype ▸ hmem, hincluded⟩
  · rintro ⟨hmem, hincluded⟩
    exact ⟨_, ⟨hmem, rfl, hincluded⟩, rfl⟩

theorem nodup_blobsOf : (keys (refs (blobsOf git (repository.tree commit)))).Nodup := by
  rw [keys_refs]
  have hsub : ((blobsOf git (repository.tree commit)).map (·.path)).Sublist
      ((repository.tree commit).map (·.path)) := by
    rw [blobsOf, List.map_map]
    exact List.filter_sublist.map _
  have hnodup := (hsub.nodup (repository.nodup commit)).map Subtype.val_injective
  rwa [List.map_map] at hnodup

theorem mem_changed : b ∈ (comparison.diff git).changed ↔ included git b.path ∧
    ∃ file ∈ comparison.files, file.present ∧ file.filename = b.path ∧ file.sha = some b.sha := by
  simp only [Compare.diff, List.mem_filter, List.mem_filterMap, CompareFile.changed]
  constructor
  · rintro ⟨⟨file, hfile, hchanged⟩, hincluded⟩
    split at hchanged
    · rename_i hpresent
      obtain ⟨sha, hsha, rfl⟩ := Option.map_eq_some_iff.mp hchanged
      exact ⟨hincluded, file, hfile, hpresent, rfl, hsha⟩
    · cases hchanged
  · rintro ⟨hincluded, file, hfile, hpresent, hname, hsha⟩
    refine ⟨⟨file, hfile, ?_⟩, hincluded⟩
    rw [if_pos hpresent, hsha, hname]
    rfl

theorem mem_deleted : path ∈ (comparison.diff git).deleted ↔
    included git path ∧ ∃ file ∈ comparison.files, file.deleted = some path := by
  simp only [Compare.diff, List.mem_filter, List.mem_filterMap]
  exact and_comm

theorem changed_sublist (files : List CompareFile) :
    ((files.filterMap CompareFile.changed).map (·.path)).Sublist
      ((files.filter CompareFile.present).map (·.filename)) := by
  induction files with
  | nil => exact List.Sublist.slnil
  | cons file files ih =>
    by_cases hpresent : file.present
    · rw [List.filter_cons_of_pos hpresent, List.map_cons]
      cases hsha : file.sha with
      | none =>
        rw [List.filterMap_cons_none (by simp [CompareFile.changed, hsha])]
        exact ih.cons _
      | some sha =>
        rw [List.filterMap_cons_some (b := ⟨file.filename, sha⟩) (by simp [CompareFile.changed, hpresent, hsha])]
        exact ih.cons_cons _
    · rw [List.filter_cons_of_neg hpresent, List.filterMap_cons_none (by simp [CompareFile.changed, hpresent])]
      exact ih

theorem delta_of_describes (h : Describes repository base head comparison.files) :
    Delta (refs (blobsOf git (repository.tree base))) (refs (blobsOf git (repository.tree head)))
      (refs (comparison.diff git).changed) ((comparison.diff git).deleted.map (·.val)) where
  once := by
    have hsub : ((comparison.diff git).changed.map (·.path)).Sublist
        ((comparison.files.filter CompareFile.present).map (·.filename)) :=
      (List.filter_sublist.map _).trans (changed_sublist _)
    have hnodup := (hsub.nodup h.once).map Subtype.val_injective
    rw [keys_refs]
    rwa [List.map_map] at hnodup
  read := by
    rintro ⟨x, b⟩ hmem
    obtain ⟨hb, rfl⟩ := mem_refs.mp hmem
    obtain ⟨hincluded, file, hfile, hpresent, hname, hsha⟩ := mem_changed.mp hb
    exact mem_refs.mpr ⟨mem_blobsOf.mpr ⟨hname ▸ h.read file hfile hpresent _ hsha, hincluded⟩, rfl⟩
  dropped := by
    intro x hx hhead
    obtain ⟨path, hpath, rfl⟩ := List.mem_map.mp hx
    obtain ⟨hincluded, file, hfile, hdeleted⟩ := mem_deleted.mp hpath
    obtain ⟨b, hb, hbpath⟩ := mem_keys_refs.mp hhead
    obtain rfl : b.path = path := Subtype.ext hbpath
    rcases h.dropped file hfile b.path hdeleted with hnone | ⟨other, hother, hpresent, hname, hsha⟩
    · simp [(mem_blobsOf.mp hb).1] at hnone
    · obtain ⟨sha, hsha⟩ := Option.isSome_iff_exists.mp hsha
      exact mem_keys_refs.mpr ⟨⟨b.path, sha⟩,
        mem_changed.mpr ⟨hincluded, other, hother, hpresent, hname, hsha⟩, rfl⟩
  unchanged := by
    rintro ⟨x, b⟩ hmem hx
    obtain ⟨hb, rfl⟩ := mem_refs.mp hmem
    obtain ⟨hblob, hincluded⟩ := mem_blobsOf.mp hb
    refine mem_refs.mpr ⟨mem_blobsOf.mpr ⟨?_, hincluded⟩, rfl⟩
    by_contra hne
    obtain ⟨file, hfile, hpresent, hname, hsha⟩ := h.listed b.path b.sha hblob hne
    exact hx (mem_keys_refs.mpr
      ⟨b, mem_changed.mpr ⟨hincluded, file, hfile, hpresent, hname, hsha⟩, rfl⟩)
  gone := by
    intro x hx hhead
    obtain ⟨b, hb, rfl⟩ := mem_keys_refs.mp hx
    obtain ⟨hblob, hincluded⟩ := mem_blobsOf.mp hb
    have hnone : blobAt repository head b.path = none := by
      cases hsome : blobAt repository head b.path with
      | none => rfl
      | some sha =>
        exact absurd (mem_keys_refs.mpr ⟨⟨b.path, sha⟩, mem_blobsOf.mpr ⟨hsome, hincluded⟩, rfl⟩) hhead
    obtain ⟨file, hfile, hdeleted⟩ := h.gone b.path hnone (by simp [hblob])
    exact List.mem_map_of_mem (mem_deleted.mpr ⟨hincluded, file, hfile, hdeleted⟩)

end HomelabApps.KnowledgeBase.Git
