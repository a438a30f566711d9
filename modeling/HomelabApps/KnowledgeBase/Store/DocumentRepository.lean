import HomelabApps.KnowledgeBase.Store.Database
import HomelabApps.Library.Table

universe u

namespace HomelabApps.KnowledgeBase.Store

open HomelabApps.Library
open HomelabApps.Library.Utf16
open HomelabApps.Library.Json (Value stringify)

variable {Vector : Type u}

inductive DocumentChange
  | upsert | unchanged
  deriving DecidableEq, Repr

/-- JSON with object keys sorted, `none` where it throws. -/
def stableJson (localeCompare : JsString → JsString → Ordering) (value : Value) : Option JsString :=
  stringify (value.sorted localeCompare)

/-- The metadata is compared only when everything else is the same, and may throw. -/
def sameDocument (localeCompare : JsString → JsString → Ordering) (stored incoming : DocumentDTO) :
    Option Bool :=
  if stored.title = incoming.title ∧ stored.date = incoming.date ∧ stored.content = incoming.content then do
    let a ← stableJson localeCompare stored.metadata
    let b ← stableJson localeCompare incoming.metadata
    pure (a = b)
  else some false

def sameHashes (stored : List JsString) (chunks : List ChunkDTO) : Bool :=
  stored = chunks.map (·.hash)

def Database.findDocument (db : Database Vector) (kb : String) (externalId : JsString) :
    Option DocumentRow :=
  db.documents.find? fun d => d.key = (kb, toWellFormed externalId)

def Database.chunksOf (db : Database Vector) (documentId : Nat) : List ChunkRow :=
  (db.chunks.filter (·.documentId = documentId)).insertionSort fun a b => a.chunk.ord ≤ b.chunk.ord

def takeHash (hash : JsString) : List ChunkRow → Option (ChunkRow × List ChunkRow)
  | [] => none
  | row :: rows =>
    if row.chunk.hash = hash then some (row, rows)
    else (takeHash hash rows).map fun (found, rest) => (found, row :: rest)

def ftsOf (tsConfig : String) (title : Option JsString) (chunk : ChunkDTO) : Fts :=
  ⟨tsConfig, title.map toWellFormed, toWellFormed chunk.heading, toWellFormed chunk.body⟩

def Database.insertChunk (db : Database Vector) (documentId : Nat) (fts : Fts) (chunk : ChunkDTO) :
    Database Vector :=
  { db with
    chunks := db.chunks ++ [⟨db.nextChunk, documentId, chunk.stored, fts⟩]
    nextChunk := db.nextChunk + 1 }

def Database.updateChunk (db : Database Vector) (id : Nat) (fts : Fts) (chunk : ChunkDTO) :
    Database Vector :=
  { db with
    chunks := Table.update ChunkRow.id id (fun c => { c with chunk := chunk.stored, fts := fts }) db.chunks }

def reconcile (documentId : Nat) (tsConfig : String) (title : Option JsString) :
    List ChunkDTO → List ChunkRow → Database Vector → Database Vector × List ChunkRow
  | [], reusable, db => (db, reusable)
  | chunk :: chunks, reusable, db =>
    let fts := ftsOf tsConfig title chunk
    match takeHash chunk.hash reusable with
    | none => reconcile documentId tsConfig title chunks reusable (db.insertChunk documentId fts chunk)
    | some (row, rest) => reconcile documentId tsConfig title chunks rest (db.updateChunk row.id fts chunk)

def reconcileChunks (db : Database Vector) (documentId : Nat) (tsConfig : String)
    (title : Option JsString) (chunks : List ChunkDTO) : Database Vector :=
  let (db', stale) := reconcile documentId tsConfig title chunks (db.chunksOf documentId) db
  db'.deleteChunks fun c => stale.any (·.id = c.id)

def DocumentRow.rewrite (document : DocumentDTO) (d : DocumentRow) : DocumentRow where
  id := d.id
  document := document.stored

def DocumentRow.touch (document : DocumentDTO) (d : DocumentRow) : DocumentRow where
  id := d.id
  document :=
    { d.document with
      version := toWellFormed document.version
      url := document.url.map toWellFormed }

def Database.writeDocument (db : Database Vector) (document : DocumentDTO) :
    Database Vector × Nat :=
  match db.findDocument document.kb document.externalId with
  | some row =>
    ({ db with
        documents := Table.update DocumentRow.id row.id (DocumentRow.rewrite document) db.documents
        nextDocument := db.nextDocument + 1 }, row.id)
  | none =>
    ({ db with
        documents := db.documents ++ [⟨db.nextDocument, document.stored⟩]
        nextDocument := db.nextDocument + 1 }, db.nextDocument)

def Database.write (db : Database Vector) (document : DocumentDTO) (tsConfig : String)
    (chunks : List ChunkDTO) : Option (Database Vector × DocumentChange) :=
  if document.accepted && chunks.all (·.accepted) then
    let (db', id) := db.writeDocument document
    some (reconcileChunks db' id tsConfig document.title chunks, .upsert)
  else none

def Database.touch (db : Database Vector) (id : Nat) (document : DocumentDTO) :
    Option (Database Vector × DocumentChange) :=
  if textAccepts document.version && document.url.all textAccepts then
    some ({ db with
      documents := Table.update DocumentRow.id id (DocumentRow.touch document) db.documents }, .unchanged)
  else none

/-- One transaction; `none` when a statement fails or the runtime throws, and nothing is written. -/
def Database.upsert (localeCompare : JsString → JsString → Ordering) (db : Database Vector)
    (document : DocumentDTO) (tsConfig : String) (chunks : List ChunkDTO) :
    Option (Database Vector × DocumentChange) :=
  if textAccepts document.externalId then
    match db.findDocument document.kb document.externalId with
    | none => db.write document tsConfig chunks
    | some row =>
      match sameDocument localeCompare row.document document with
      | none => none
      | some same =>
        if same && sameHashes ((db.chunksOf row.id).map (·.chunk.hash)) chunks then
          db.touch row.id document
        else db.write document tsConfig chunks
  else none

def Database.delete (db : Database Vector) (kb : String) (externalIds : List JsString) :
    Option (Database Vector) :=
  if externalIds.all textAccepts then
    some (db.deleteDocuments fun d =>
      d.document.kb = kb && (externalIds.map toWellFormed).contains d.document.externalId)
  else none

def Database.deleteAllExcept (db : Database Vector) (kb : String) (keep : List JsString) :
    Option (Database Vector) :=
  if keep.all textAccepts then
    some (db.deleteDocuments fun d =>
      d.document.kb = kb && !(keep.map toWellFormed).contains d.document.externalId)
  else none

end HomelabApps.KnowledgeBase.Store
