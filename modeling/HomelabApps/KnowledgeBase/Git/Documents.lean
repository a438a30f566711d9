import HomelabApps.KnowledgeBase.Git.SourceAdapter

namespace HomelabApps.KnowledgeBase.Git

open HomelabApps.Library.Utf16
open HomelabApps.Library.Json (Value)
open Markdown Store

variable {platform : Platform} {repository : Repository} {commit base head blob : Sha} {git : GitSourceConfig}
  {path : GitPath} {b : BlobRef} {s t htmlUrl url url' : JsString}

theorem upperHexDigit_ne_nul (n : Nat) : upperHexDigit (n % 0x10) ≠ NUL := by
  have hdigit : ∀ k < 0x10, upperHexDigit k ≠ NUL := by decide
  exact hdigit _ (Nat.mod_lt _ (by decide))

theorem nul_encodePoint (n : Nat) : NUL ∉ encodePoint n := by
  unfold encodePoint
  split
  · rename_i h
    simp only [Bool.and_eq_true] at h
    rw [List.mem_singleton]
    intro heq
    rw [← heq] at h
    exact absurd h.2 (by decide)
  · simp only [List.mem_flatMap, List.mem_cons, List.not_mem_nil, or_false, not_exists, not_and, not_or]
    exact fun k _ => ⟨by decide, (upperHexDigit_ne_nul _).symm, (upperHexDigit_ne_nul _).symm⟩

theorem nul_encodeURIComponent (h : encodeURIComponent s = some t) : NUL ∉ t := by
  unfold encodeURIComponent at h
  split at h
  · cases h
    simp only [List.mem_flatMap, not_exists, not_and]
    exact fun n _ => nul_encodePoint n
  · cases h

theorem encodeAll (parts : List JsString) : match parts.mapM encodeURIComponent with
    | some encoded => (∀ t ∈ parts, toWellFormed t = t) ∧ ∀ t ∈ encoded, NUL ∉ t
    | none => ¬ ∀ t ∈ parts, toWellFormed t = t := by
  induction parts with
  | nil => simp
  | cons s parts ih =>
    rw [List.mapM_cons]
    cases hs : encodeURIComponent s with
    | none =>
      have hwf : ¬ isWellFormed s := fun h => by simp [encodeURIComponent, h] at hs
      rw [isWellFormed_iff] at hwf
      simp [hwf]
    | some t =>
      have hwf : isWellFormed s := by
        by_contra h
        simp [encodeURIComponent, h] at hs
      rw [isWellFormed_iff] at hwf
      cases hparts : parts.mapM encodeURIComponent with
      | none =>
        rw [hparts] at ih
        simpa [hwf] using ih
      | some encoded =>
        rw [hparts] at ih
        simpa [hwf, nul_encodeURIComponent hs] using ih

theorem fileUrl_isSome (htmlUrl c p : JsString) : (fileUrl htmlUrl c p).isSome ↔ toWellFormed p = p := by
  have h := encodeAll (segments p)
  rw [toWellFormed_splitOn (u := SLASH) (by decide) (by decide), fileUrl, Option.isSome_map]
  cases hparts : (segments p).mapM encodeURIComponent with
  | none =>
    rw [hparts] at h
    simpa [segments] using h
  | some encoded =>
    rw [hparts] at h
    simpa [segments] using h.1

theorem nul_fileUrl {c p : JsString} (h : fileUrl htmlUrl c p = some url) :
    NUL ∈ url ↔ NUL ∈ htmlUrl ∨ NUL ∈ c := by
  obtain ⟨encoded, hencoded, rfl⟩ := Option.map_eq_some_iff.mp h
  have hall := encodeAll (segments p)
  rw [hencoded] at hall
  have hjoin : NUL ∉ [SLASH].intercalate encoded := notMem_intercalate (by decide) hall.2
  have hblob : NUL ∉ utf16 "/blob/" := by decide
  simp only [List.mem_append, List.mem_cons, hjoin, hblob, or_false,
    show NUL ≠ SLASH by decide]

theorem isHex_ne_nul {u : UInt16} (h : isHex u) : u ≠ NUL := by
  rintro rfl
  exact absurd h (by decide)

theorem Sha.noNul (sha : Sha) : NUL ∉ sha.val := fun h => isHex_ne_nul (sha.property.2 _ h) rfl

def documentOf (platform : Platform) (repository : Repository) (commit : Sha) (b : BlobRef) :
    SourceDocument :=
  document platform b.path.val (repository.text b.sha) b.sha.val
    ((fileUrl repository.htmlUrl commit.val b.path.val).getD [])

theorem fileUrl_eq : fileUrl repository.htmlUrl commit.val path.val =
    some ((fileUrl repository.htmlUrl commit.val path.val).getD []) := by
  obtain ⟨url, h⟩ := Option.isSome_iff_exists.mp
    ((fileUrl_isSome repository.htmlUrl commit.val path.val).mpr path.property.2)
  rw [h]
  rfl

theorem nul_url : NUL ∉ (fileUrl repository.htmlUrl commit.val path.val).getD [] := by
  rw [nul_fileUrl fileUrl_eq, not_or]
  exact ⟨repository.noNul, Sha.noNul commit⟩

theorem fetch_eq (blobs : List BlobRef) : fetch platform repository commit blobs =
    some (blobs.map (documentOf platform repository commit)) := by
  induction blobs with
  | nil => rfl
  | cons b blobs ih =>
    rw [fetch, List.mapM_cons]
    rw [fetch] at ih
    rw [ih, parse, fileUrl_eq]
    rfl

end HomelabApps.KnowledgeBase.Git
