import HomelabApps.KnowledgeBase.Git.DocumentParser

/-! `GitSourceAdapter`: what changed in a git knowledge base since its cursor, read through the
GitHub API. -/

namespace HomelabApps.KnowledgeBase.Git

open HomelabApps.Library.Utf16

def GITHUB_COMPARE_FILE_LIMIT : Nat := 300

abbrev GitPath := { s : JsString // NUL ∉ s ∧ toWellFormed s = s }

abbrev Sha := { s : JsString // s ≠ [] ∧ ∀ u ∈ s, isHex u }

inductive CompareStatus
  | ahead | behind | diverged | identical
  deriving DecidableEq, Repr

inductive FileStatus
  | added | removed | modified | renamed | copied | changed | unchanged
  deriving DecidableEq, Repr

structure CompareFile where
  filename : GitPath
  status : FileStatus
  sha : Option Sha
  previousFilename : Option GitPath
  deriving DecidableEq

structure Compare where
  status : CompareStatus
  files : List CompareFile

inductive TreeEntryType
  | blob | tree | commit
  deriving DecidableEq, Repr

structure TreeEntry where
  path : GitPath
  type : TreeEntryType
  sha : Sha
  deriving DecidableEq

/-- What the commits and the blobs of the repository hold; a blob is read as UTF-8. -/
structure Repository where
  htmlUrl : JsString
  noNul : NUL ∉ htmlUrl
  tree : Sha → List TreeEntry
  nodup : ∀ commit, ((tree commit).map (·.path)).Nodup
  text : Sha → JsString
  encoded : ∀ blob, toWellFormed (text blob) = text blob

inductive CompareAnswer
  | found (comparison : Compare)
  | notFound
  | failed

/-- What GitHub answers to one run: the tip of the branch, the comparison of the cursor with it, and
whether its listing of the tree is cut short. -/
structure Answers where
  head : Sha
  compare : CompareAnswer
  truncated : Bool

structure BlobRef where
  path : GitPath
  sha : Sha
  deriving DecidableEq

structure Diff where
  changed : List BlobRef
  deleted : List GitPath

def included (git : GitSourceConfig) (path : GitPath) : Bool :=
  git.«include».any (fun start => start.isPrefixOf path.val) &&
    git.extensions.any fun extension => extension.isSuffixOf path.val

def CompareFile.present (file : CompareFile) : Bool :=
  file.status ≠ .unchanged && file.status ≠ .removed

def CompareFile.deleted (file : CompareFile) : Option GitPath :=
  match file.status with
  | .removed => some file.filename
  | .renamed => file.previousFilename
  | _ => none

def CompareFile.changed (file : CompareFile) : Option BlobRef :=
  if file.present then file.sha.map fun sha => ⟨file.filename, sha⟩ else none

def Compare.usable (comparison : Compare) : Bool :=
  (comparison.status = .ahead || comparison.status = .identical) &&
    comparison.files.length < GITHUB_COMPARE_FILE_LIMIT

def Compare.diff (git : GitSourceConfig) (comparison : Compare) : Diff where
  changed := (comparison.files.filterMap CompareFile.changed).filter fun blob => included git blob.path
  deleted := (comparison.files.filterMap CompareFile.deleted).filter (included git)

/-- The difference when it can be used, `some none` when a full listing is needed, `none` when the
call throws. -/
def diff (git : GitSourceConfig) : CompareAnswer → Option (Option Diff)
  | .failed => none
  | .notFound => some none
  | .found comparison => some (if comparison.usable then some (comparison.diff git) else none)

def fetch (platform : Platform) (repository : Repository) (commit : Sha) (blobs : List BlobRef) :
    Option (List SourceDocument) :=
  blobs.mapM fun blob =>
    parse platform blob.path.val (repository.text blob.sha) blob.sha.val commit.val repository.htmlUrl

def blobsOf (git : GitSourceConfig) (tree : List TreeEntry) : List BlobRef :=
  (tree.filter fun entry => entry.type = .blob && included git entry.path).map fun entry =>
    ⟨entry.path, entry.sha⟩

def readTree (platform : Platform) (git : GitSourceConfig) (repository : Repository) (answers : Answers) :
    Option SourceChanges :=
  if answers.truncated then none
  else
    (fetch platform repository answers.head (blobsOf git (repository.tree answers.head))).map fun upserts =>
      { upserts := upserts
        deletes := []
        cursor := answers.head.val
        complete := true }

def readDiff (platform : Platform) (repository : Repository) (answers : Answers) (diff : Diff) :
    Option SourceChanges :=
  (fetch platform repository answers.head diff.changed).map fun upserts =>
    { upserts := upserts
      deletes := diff.deleted.map (·.val)
      cursor := answers.head.val
      complete := false }

def read (platform : Platform) (git : GitSourceConfig) (repository : Repository) (cursor : Option JsString)
    (answers : Answers) : Option SourceChanges :=
  match cursor with
  | none => readTree platform git repository answers
  | some base =>
    if base = answers.head.val then
      some
        { upserts := []
          deletes := []
          cursor := base
          complete := false }
    else
      match diff git answers.compare with
      | none => none
      | some none => readTree platform git repository answers
      | some (some diff) => readDiff platform repository answers diff

end HomelabApps.KnowledgeBase.Git
