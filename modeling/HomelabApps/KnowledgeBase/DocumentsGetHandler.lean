import HomelabApps.KnowledgeBase.KnowledgeBaseAccess
import HomelabApps.KnowledgeBase.NoteRenderService.Slug
import HomelabApps.KnowledgeBase.Store.Valid

universe u

namespace HomelabApps.KnowledgeBase.Store

open HomelabApps.Library
open HomelabApps.Library.Utf16

variable {Vector : Type u} {db : Database Vector} {kbs : List String} {x : JsString} {found : List DocumentDTO}
  {d : DocumentRow}

/-- The document with this id in any of the given knowledge bases, more than one when ids collide; an id that
holds NUL is refused. -/
def Database.find (db : Database Vector) (kbs : List String) (externalId : JsString) : Option (List DocumentDTO) :=
  if textAccepts externalId then
    some (((db.documents.filter fun d =>
        kbs.contains d.document.kb && d.document.externalId = toWellFormed externalId).insertionSort
      fun a b => a.document.kb ≤ b.document.kb).map (·.document))
  else none

theorem mem_find {document : DocumentDTO} (h : db.find kbs x = some found) : document ∈ found ↔
    ∃ d ∈ db.documents, d.document.kb ∈ kbs ∧ d.document.externalId = toWellFormed x ∧ d.document = document := by
  obtain ⟨-, hfound⟩ := Option.ite_none_right_eq_some.mp h
  obtain rfl := Option.some.inj hfound
  simp only [List.mem_map, List.mem_insertionSort, List.mem_filter, Bool.and_eq_true, decide_eq_true_eq,
    List.contains_iff_mem, and_assoc]

theorem find_eq_singleton (hvalid : db.Valid) (haccepts : textAccepts x = true) (hd : d ∈ db.documents)
    (hkb : d.document.kb ∈ kbs) (hid : d.document.externalId = toWellFormed x)
    (honly : ∀ other ∈ db.documents, other.document.kb ∈ kbs → other.document.externalId = toWellFormed x →
      other.document.kb = d.document.kb) :
    db.find kbs x = some [d.document] := by
  have hrows : db.documents.filter (fun d =>
      kbs.contains d.document.kb && d.document.externalId = toWellFormed x) = [d] := by
    apply List.perm_singleton.1
    apply (List.perm_ext_iff_of_nodup (hvalid.documentKeys.of_map _ |>.filter _) (List.nodup_singleton d)).2
    intro other
    rw [List.mem_filter, List.mem_singleton, Bool.and_eq_true, List.contains_iff_mem, decide_eq_true_eq]
    constructor
    · rintro ⟨hother, hsearched, hsame⟩
      exact Table.eq_of_key hvalid.documentKeys hother hd
        (Prod.ext (honly other hother hsearched hsame) (hsame.trans hid.symm))
    · rintro rfl
      exact ⟨hd, hkb, hid⟩
  rw [Database.find, if_pos haccepts, hrows]
  rfl

end HomelabApps.KnowledgeBase.Store

namespace HomelabApps.KnowledgeBase.DocumentsGetHandler

open HomelabApps.Library.Json (Value)
open HomelabApps.Library.Utf16
open KnowledgeBaseAccess (AccessError ReadableConfig resolve)
open Markdown (HASH)
open Notes (lastIndexOf)
open Store

structure DocumentsGetResponse where
  kb : String
  externalId : JsString
  title : Option JsString
  date : Option JsString
  url : Option JsString
  version : JsString
  metadata : Value
  content : JsString

def storageToResponse (document : DocumentDTO) : DocumentsGetResponse where
  kb := document.kb
  externalId := document.externalId
  title := document.title
  date := document.date
  url := document.url
  version := document.version
  metadata := document.metadata
  content := document.content

inductive GetError
  | access (error : AccessError)
  | notFound (message : String)
  | conflict (message : String)
  | database
  deriving DecidableEq, Repr

def MISSING : GetError := .notFound "Document not found."

def AMBIGUOUS : GetError := .conflict "More than one knowledge base holds this id; pass kb."

variable {Vector : Type u}

def query (db : Database Vector) (kbs : List String) (externalId : JsString) : Except GetError (List DocumentDTO) :=
  match db.find kbs externalId with
  | some found => .ok found
  | none => .error .database

/-- The id as given and, where nothing has it, what stands before its last `#`; `db` and `db'` are the database at
the first and at the second query. -/
def find (db db' : Database Vector) (kbs : List String) (id : JsString) : Except GetError (List DocumentDTO) := do
  let exact ← query db kbs id
  match lastIndexOf HASH id with
  | some anchor => if exact.isEmpty && 0 < anchor then query db' kbs (id.take anchor) else pure exact
  | none => pure exact

def execute (db db' : Database Vector) (roles : List JsString) (knowledgeBases : List ReadableConfig)
    (id : JsString) (kb : Option JsString) : Except GetError DocumentsGetResponse := do
  let candidates ← (resolve roles knowledgeBases kb).mapError .access
  let kbs := candidates.map (·.id)
  let found ← if kbs.isEmpty then pure [] else find db db' kbs id
  match found with
  | [] => throw MISSING
  | [document] => pure (storageToResponse document)
  | _ :: _ :: _ => throw AMBIGUOUS

end HomelabApps.KnowledgeBase.DocumentsGetHandler
