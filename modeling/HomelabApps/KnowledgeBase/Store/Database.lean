import HomelabApps.Library.Json

/-! The database of the knowledge bases: its tables, what their columns accept and keep, and the
deletions that cascade through them. -/

universe u

namespace HomelabApps.KnowledgeBase.Store

open HomelabApps.Library.Utf16
open HomelabApps.Library.Json (Value jsonbAccepts)

structure DocumentDTO where
  kb : String
  externalId : JsString
  title : Option JsString
  date : Option JsString
  url : Option JsString
  content : JsString
  version : JsString
  metadata : Value

structure ChunkDTO where
  ord : Nat
  heading : JsString
  anchor : JsString
  body : JsString
  hash : JsString
  deriving DecidableEq, Repr

structure Fts where
  tsConfig : String
  title : Option JsString
  heading : JsString
  body : JsString
  deriving DecidableEq, Repr

structure DocumentRow where
  id : Nat
  document : DocumentDTO

def DocumentRow.key (d : DocumentRow) : String × JsString := (d.document.kb, d.document.externalId)

structure ChunkRow where
  id : Nat
  documentId : Nat
  chunk : ChunkDTO
  fts : Fts
  deriving DecidableEq, Repr

structure EmbeddingRow (Vector : Type u) where
  chunkId : Nat
  model : String
  embedding : Vector

/-- The tables, with the next value of each sequence of ids, and the cursors of the knowledge bases
(every boot makes the row of each one it knows). -/
structure Database (Vector : Type u) where
  documents : List DocumentRow := []
  nextDocument : Nat := 1
  chunks : List ChunkRow := []
  nextChunk : Nat := 1
  embeddings : List (EmbeddingRow Vector) := []
  cursors : String → Option JsString := fun _ => none

def textAccepts (s : JsString) : Bool := NUL ∉ s

def daysInMonth (year month : Nat) : Nat :=
  if month = 2 then
    if year % 4 = 0 ∧ (year % 100 ≠ 0 ∨ year % 400 = 0) then 29 else 28
  else if month = 4 ∨ month = 6 ∨ month = 9 ∨ month = 11 then 30
  else 31

def digit? (u : UInt16) : Option Nat :=
  if 0x30 ≤ u ∧ u ≤ 0x39 then some (u.toNat - 0x30) else none

def digits? : JsString → Option Nat
  | [] => some 0
  | u :: s => do
    let d ← digit? u
    let n ← digits? s
    pure (d * 10 ^ s.length + n)

def dateParts? : JsString → Option (Nat × Nat × Nat)
  | [y1, y2, y3, y4, 0x2D, m1, m2, 0x2D, d1, d2] => do
    let year ← digits? [y1, y2, y3, y4]
    let month ← digits? [m1, m2]
    let day ← digits? [d1, d2]
    pure (year, month, day)
  | _ => none

def dateAccepts (s : JsString) : Bool :=
  match dateParts? s with
  | some (year, month, day) =>
    1 ≤ year && 1 ≤ month && month ≤ 12 && 1 ≤ day && day ≤ daysInMonth year month
  | none => false

def DocumentDTO.accepted (d : DocumentDTO) : Bool :=
  textAccepts d.externalId && d.title.all textAccepts && d.date.all dateAccepts &&
    d.url.all textAccepts && textAccepts d.content && textAccepts d.version &&
    d.metadata.acyclic && jsonbAccepts d.metadata

def ChunkDTO.accepted (c : ChunkDTO) : Bool :=
  textAccepts c.heading && textAccepts c.anchor && textAccepts c.body && textAccepts c.hash

/-- What the columns keep of a document: encoded text, and `jsonb`. -/
def DocumentDTO.stored (d : DocumentDTO) : DocumentDTO where
  kb := d.kb
  externalId := toWellFormed d.externalId
  title := d.title.map toWellFormed
  date := d.date
  url := d.url.map toWellFormed
  content := toWellFormed d.content
  version := toWellFormed d.version
  metadata := d.metadata.jsonb

def ChunkDTO.stored (c : ChunkDTO) : ChunkDTO where
  ord := c.ord
  heading := toWellFormed c.heading
  anchor := toWellFormed c.anchor
  body := toWellFormed c.body
  hash := toWellFormed c.hash

variable {Vector : Type u}

def Database.hasChunk (db : Database Vector) (id : Nat) : Bool := db.chunks.any (·.id = id)

def Database.deleteChunks (db : Database Vector) (p : ChunkRow → Bool) : Database Vector :=
  { db with
    chunks := db.chunks.filter fun c => !p c
    embeddings := db.embeddings.filter fun e => !db.chunks.any fun c => c.id = e.chunkId && p c }

def Database.deleteDocuments (db : Database Vector) (p : DocumentRow → Bool) : Database Vector :=
  let kept := db.deleteChunks fun c => db.documents.any fun d => d.id = c.documentId && p d
  { kept with documents := db.documents.filter fun d => !p d }

end HomelabApps.KnowledgeBase.Store
