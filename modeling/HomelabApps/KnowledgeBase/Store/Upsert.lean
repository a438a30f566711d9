import HomelabApps.KnowledgeBase.Store.Reused
import HomelabApps.Library.Transaction

/-! `DocumentRepository.upsert` statement by statement, inside `PostgresService.transaction`. -/

universe u

namespace HomelabApps.KnowledgeBase.Store

open HomelabApps.Library.Transaction
open HomelabApps.Library.Utf16

variable {Vector : Type u}

def selectDocument (kb : String) (externalId : JsString) (db : Database Vector) :
    Option (Option (DocumentRow × List JsString) × Database Vector) :=
  if textAccepts externalId then
    some ((db.findDocument kb externalId).map fun row => (row, (db.chunksOf row.id).map (·.chunk.hash)), db)
  else none

def touchDocument (id : Nat) (document : DocumentDTO) (db : Database Vector) :
    Option (DocumentChange × Database Vector) :=
  (db.touch id document).map Prod.swap

def insertDocument (document : DocumentDTO) (db : Database Vector) : Option (Nat × Database Vector) :=
  if document.accepted then some (db.writeDocument document).swap else none

def selectChunks (documentId : Nat) (db : Database Vector) : Option (List ChunkRow × Database Vector) :=
  some (db.chunksOf documentId, db)

def writeChunk (chunk : ChunkDTO) (write : Database Vector → Database Vector) (db : Database Vector) :
    Option (Unit × Database Vector) :=
  if chunk.accepted then some ((), write db) else none

def deleteChunks (stale : List ChunkRow) (db : Database Vector) : Option (Unit × Database Vector) :=
  some ((), db.deleteChunks fun c => stale.any (·.id = c.id))

section Statements

variable (fails : Nat → Bool)

def reconcileStatements (documentId : Nat) (tsConfig : String) (title : Option JsString) :
    List ChunkDTO → List ChunkRow → Tx (Database Vector) (List ChunkRow)
  | [], reusable => pure reusable
  | chunk :: chunks, reusable =>
    let fts := ftsOf tsConfig title chunk
    match takeHash chunk.hash reusable with
    | none => do
      statement fails (writeChunk chunk (·.insertChunk documentId fts chunk))
      reconcileStatements documentId tsConfig title chunks reusable
    | some (row, rest) => do
      statement fails (writeChunk chunk (·.updateChunk row.id fts chunk))
      reconcileStatements documentId tsConfig title chunks rest

def reconcileChunksStatements (documentId : Nat) (tsConfig : String) (title : Option JsString)
    (chunks : List ChunkDTO) : Tx (Database Vector) Unit := do
  let old ← statement fails (selectChunks documentId)
  let stale ← reconcileStatements fails documentId tsConfig title chunks old
  if stale.isEmpty then pure () else statement fails (deleteChunks stale)

def writeStatements (document : DocumentDTO) (tsConfig : String) (chunks : List ChunkDTO) :
    Tx (Database Vector) DocumentChange := do
  let id ← statement fails (insertDocument document)
  reconcileChunksStatements fails id tsConfig document.title chunks
  pure .upsert

def upsertStatements (localeCompare : JsString → JsString → Ordering) (document : DocumentDTO)
    (tsConfig : String) (chunks : List ChunkDTO) : Tx (Database Vector) DocumentChange := do
  let existing ← statement fails (selectDocument document.kb document.externalId)
  match existing with
  | none => writeStatements fails document tsConfig chunks
  | some (row, hashes) =>
    let same ← Tx.ofOption (sameDocument localeCompare row.document document)
    if same && sameHashes hashes chunks then statement fails (touchDocument row.id document)
    else writeStatements fails document tsConfig chunks

/-- What an upsert answers, `none` where it throws, and the database after it. -/
def upsert (localeCompare : JsString → JsString → Ordering) (document : DocumentDTO) (tsConfig : String)
    (chunks : List ChunkDTO) (db : Database Vector) : Option DocumentChange × Database Vector :=
  transaction fails (upsertStatements fails localeCompare document tsConfig chunks) db

end Statements

variable {fails : Nat → Bool} {db : Database Vector} {documentId : Nat} {tsConfig : String}
  {title : Option JsString} {chunks : List ChunkDTO} {reusable : List ChunkRow} {document : DocumentDTO}
  {localeCompare : JsString → JsString → Ordering}

theorem reconcileStatements_refines : Refines fails
    (reconcileStatements fails documentId tsConfig title chunks reusable : Tx (Database Vector) _)
    fun db => if chunks.all (·.accepted) then
      some (reconcile documentId tsConfig title chunks reusable db).swap else none := by
  induction chunks generalizing reusable with
  | nil => exact Refines.pure
  | cons chunk chunks ih =>
    rw [reconcileStatements]
    cases htake : takeHash chunk.hash reusable with
    | none =>
      refine (Refines.bind Refines.statement fun _ => ih).congr fun db => ?_
      rw [reconcile, htake, writeChunk, List.all_cons]
      cases chunk.accepted with
      | false => rfl
      | true => rfl
    | some found =>
      refine (Refines.bind Refines.statement fun _ => ih).congr fun db => ?_
      rw [reconcile, htake, writeChunk, List.all_cons]
      cases chunk.accepted with
      | false => rfl
      | true => rfl

theorem deleteChunks_nil : deleteChunks [] db = some ((), db) := by
  have hany : db.chunks.any (fun _ => false) = false := List.any_eq_false.mpr fun _ _ h => Bool.false_ne_true h
  simp [deleteChunks, Database.deleteChunks, hany]

theorem reconcileChunksStatements_refines : Refines fails
    (reconcileChunksStatements fails documentId tsConfig title chunks : Tx (Database Vector) _)
    fun db => if chunks.all (·.accepted) then
      some ((), reconcileChunks db documentId tsConfig title chunks) else none := by
  have hdelete : ∀ stale : List ChunkRow, Refines fails
      (if stale.isEmpty then pure () else statement fails (deleteChunks stale) : Tx (Database Vector) Unit)
      (deleteChunks stale) := by
    intro stale
    cases stale with
    | nil => exact Refines.pure.congr fun _ => deleteChunks_nil.symm
    | cons row rest =>
      rw [if_neg (by simp)]
      exact Refines.statement
  refine (Refines.bind Refines.statement fun old =>
    Refines.bind reconcileStatements_refines hdelete).congr fun db => ?_
  cases haccepted : chunks.all (·.accepted) with
  | false => simp [selectChunks]
  | true => simp [selectChunks, reconcileChunks, deleteChunks]

theorem writeStatements_refines : Refines fails
    (writeStatements fails document tsConfig chunks : Tx (Database Vector) _)
    fun db => (db.write document tsConfig chunks).map Prod.swap := by
  refine (Refines.bind Refines.statement fun id =>
    Refines.bind reconcileChunksStatements_refines fun _ => Refines.pure).congr fun db => ?_
  simp only [insertDocument, Database.write]
  cases document.accepted with
  | false => rfl
  | true =>
    cases chunks.all (·.accepted) with
    | false => rfl
    | true => rfl

theorem upsertStatements_refines : Refines fails
    (upsertStatements fails localeCompare document tsConfig chunks : Tx (Database Vector) _)
    fun db => (db.upsert localeCompare document tsConfig chunks).map Prod.swap := by
  have hexisting : ∀ existing : Option (DocumentRow × List JsString), Refines fails
      (match existing with
        | none => writeStatements fails document tsConfig chunks
        | some (row, hashes) => do
          let same ← Tx.ofOption (sameDocument localeCompare row.document document)
          if same && sameHashes hashes chunks then statement fails (touchDocument row.id document)
          else writeStatements fails document tsConfig chunks : Tx (Database Vector) DocumentChange)
      fun db => match existing with
        | none => (db.write document tsConfig chunks).map Prod.swap
        | some (row, hashes) => (sameDocument localeCompare row.document document).bind fun same =>
          if same && sameHashes hashes chunks then touchDocument row.id document db
          else (db.write document tsConfig chunks).map Prod.swap := by
    rintro (_ | ⟨row, hashes⟩)
    · exact writeStatements_refines
    · refine (Refines.bind (g := fun same db =>
        if same && sameHashes hashes chunks then touchDocument row.id document db
        else (db.write document tsConfig chunks).map Prod.swap) Refines.ofOption fun same => ?_).congr
          fun db => ?_
      · split
        · exact Refines.statement
        · exact writeStatements_refines
      · change ((sameDocument localeCompare row.document document).map (·, db)).bind _ =
          (sameDocument localeCompare row.document document).bind _
        rw [Option.bind_map]
        rfl
  refine (Refines.bind Refines.statement hexisting).congr fun db => ?_
  unfold selectDocument Database.upsert
  split
  · cases db.findDocument document.kb document.externalId with
    | none => rfl
    | some row =>
      simp only [Option.map_some, Option.bind_some]
      cases sameDocument localeCompare row.document document with
      | none => rfl
      | some same =>
        simp only [Option.bind_some]
        split
        · rfl
        · rfl
  · rfl

theorem upsert_of_some {change : DocumentChange}
    (h : (upsert fails localeCompare document tsConfig chunks db).1 = some change) :
    db.upsert localeCompare document tsConfig chunks =
      some ((upsert fails localeCompare document tsConfig chunks db).2, change) := by
  have hsome : (db.upsert localeCompare document tsConfig chunks).map Prod.swap =
      some (change, (upsert fails localeCompare document tsConfig chunks db).2) :=
    transaction_some upsertStatements_refines h
  obtain ⟨result, hresult, hswap⟩ := Option.map_eq_some_iff.mp hsome
  rw [hresult]
  exact congrArg some (Prod.swap_injective hswap)

theorem upsert_complete {db' : Database Vector} {change : DocumentChange} (hfails : ∀ n, fails n = false)
    (h : db.upsert localeCompare document tsConfig chunks = some (db', change)) :
    upsert fails localeCompare document tsConfig chunks db = (some change, db') :=
  transaction_complete upsertStatements_refines hfails (by rw [h]; rfl)

theorem upsert_reconciles (fails : Nat → Bool) (localeCompare : JsString → JsString → Ordering)
    (document : DocumentDTO) (tsConfig : String) (chunks : List ChunkDTO) (db : Database Vector)
    (h : db.Valid) (hord : chunks.map (·.ord) = List.range chunks.length) :
    ((upsert fails localeCompare document tsConfig chunks db).1 = none →
        (upsert fails localeCompare document tsConfig chunks db).2 = db) ∧
      ((upsert fails localeCompare document tsConfig chunks db).1 = some .upsert →
        ∃ id, Reconciled db (upsert fails localeCompare document tsConfig chunks db).2 document tsConfig
          chunks id) ∧
      ∀ db' change, (∀ n, fails n = false) →
        db.upsert localeCompare document tsConfig chunks = some (db', change) →
        upsert fails localeCompare document tsConfig chunks db = (some change, db') :=
  ⟨transaction_none upsertStatements_refines,
    fun hupsert => upserted_reconciled h hord (upsert_upserted h (upsert_of_some hupsert)),
    fun _ _ => upsert_complete⟩

def threeChunks : Database Nat where
  documents := [⟨1, ⟨"notes", [97], none, none, none, [98], [49], .null⟩⟩]
  nextDocument := 2
  chunks := [⟨1, 1, ⟨0, [], [], [98], [120]⟩, ⟨"english", none, [], [98]⟩⟩,
    ⟨2, 1, ⟨1, [], [], [98], [120]⟩, ⟨"english", none, [], [98]⟩⟩,
    ⟨3, 1, ⟨2, [], [], [99], [121]⟩, ⟨"english", none, [], [99]⟩⟩]
  nextChunk := 4

theorem threeChunks_valid : threeChunks.Valid where
  documentIds := ⟨List.nodup_singleton _, by decide⟩
  documentKeys := List.nodup_singleton _
  chunkIds := ⟨by decide, by decide⟩
  chunkDocument := by simp [threeChunks]
  embeddingChunk := by simp [threeChunks]
  kept := by
    intro d hd
    obtain rfl := List.mem_singleton.mp hd
    exact ⟨rfl, rfl, (fun _ h => by cases h), rfl, rfl, rfl, rfl⟩

def moved : List ChunkDTO := [⟨0, [], [], [99], [121]⟩, ⟨1, [], [], [98], [120]⟩, ⟨2, [], [], [100], [122]⟩]

def movedDocument : DocumentDTO := ⟨"notes", [97], none, none, none, [100], [50], .null⟩

theorem upsert_reconciles_moved :
    ((upsert (· == 4) (fun _ _ => .eq) movedDocument "english" moved threeChunks).1 = none ∧
      (upsert (· == 4) (fun _ _ => .eq) movedDocument "english" moved threeChunks).2 = threeChunks) ∧
    ((upsert (fun _ => false) (fun _ _ => .eq) movedDocument "english" moved threeChunks).1 = some .upsert ∧
      ∃ id, Reconciled threeChunks
        (upsert (fun _ => false) (fun _ _ => .eq) movedDocument "english" moved threeChunks).2 movedDocument
        "english" moved id) := by
  have hfailed : (upsert (· == 4) (fun _ _ => .eq) movedDocument "english" moved threeChunks).1 = none := by
    decide +kernel
  have hdone : (upsert (fun _ => false) (fun _ _ => .eq) movedDocument "english" moved threeChunks).1 =
      some .upsert := by decide +kernel
  exact ⟨⟨hfailed, (upsert_reconciles (· == 4) (fun _ _ => .eq) movedDocument "english" moved threeChunks
      threeChunks_valid rfl).1 hfailed⟩,
    hdone, (upsert_reconciles (fun _ => false) (fun _ _ => .eq) movedDocument "english" moved threeChunks
      threeChunks_valid rfl).2.1 hdone⟩

theorem upsert_replaces_surrogate :
    (upsert (fun _ => false) (fun _ _ => .eq) movedDocument "english" [⟨0, [], [], [0xD800], [121]⟩]
        ({} : Database Nat)).1 = some .upsert ∧
      ((upsert (fun _ => false) (fun _ _ => .eq) movedDocument "english" [⟨0, [], [], [0xD800], [121]⟩]
        ({} : Database Nat)).2.chunksOf 1).map (·.chunk) ≠ [⟨0, [], [], [0xD800], [121]⟩] := by
  decide +kernel

end HomelabApps.KnowledgeBase.Store
