import HomelabApps.KnowledgeBase.Store.Catalogue
import HomelabApps.Library.JsonCanonical

universe u

namespace HomelabApps.KnowledgeBase.Store

open HomelabApps.Library
open HomelabApps.Library.Utf16
open HomelabApps.Library.Json (text_sorted_jsonb_iff jsonb_eq_of_text)

variable {Vector : Type u} {db db' : Database Vector} {document stored : DocumentDTO} {tsConfig : String}
  {chunks : List ChunkDTO} {change : DocumentChange} {row : DocumentRow}
  {localeCompare : JsString → JsString → Ordering}

def DocumentDTO.reread (document : DocumentDTO) (version : JsString) (url : Option JsString) : DocumentDTO :=
  { document with
    version := version
    url := url }

def Database.touched (db : Database Vector) (id : Nat) (document : DocumentDTO) : Database Vector :=
  { db with documents := Table.update DocumentRow.id id (DocumentRow.touch document) db.documents }

structure ExactShortcut (Vector : Type u) (localeCompare : JsString → JsString → Ordering)
    (document : DocumentDTO) (tsConfig : String) (chunks : List ChunkDTO) : Prop where
  repeated : ∀ db : Database Vector, db.Valid → ∀ db' change,
    db.upsert localeCompare document tsConfig chunks = some (db', change) →
    ∀ version url, textAccepts version = true → url.all textAccepts = true →
      ∃ id, db'.upsert localeCompare (document.reread version url) tsConfig chunks =
        some (db'.touched id (document.reread version url), .unchanged)
  faithful : ∀ db : Database Vector, db.Valid → (∀ d ∈ db.documents, d.document.metadata.keyed = true) →
    ∀ db', db.upsert localeCompare document tsConfig chunks = some (db', .unchanged) →
      ∃ row ∈ db.documents, row.key = document.key ∧ row.document.title = document.title ∧
        row.document.date = document.date ∧ row.document.content = document.content ∧
        row.document.metadata.jsonb = document.metadata.jsonb ∧ db.hashes row.id = chunks.map (·.hash)

theorem sameDocument_eq_true (h : sameDocument localeCompare stored document = some true) :
    stored.title = document.title ∧ stored.date = document.date ∧ stored.content = document.content ∧
      stored.metadata.acyclic = true ∧ document.metadata.acyclic = true ∧
      (stored.metadata.sorted localeCompare).text = (document.metadata.sorted localeCompare).text := by
  rw [sameDocument] at h
  split at h
  · rename_i hfields
    simp only [Option.bind_eq_bind, Option.bind_eq_some_iff, stableJson, Json.stringify,
      Option.ite_none_right_eq_some, Json.Value.acyclic_sorted] at h
    obtain ⟨_, ⟨hstored, ha⟩, _, ⟨hincoming, hb⟩, hsame⟩ := h
    obtain rfl := Option.some.inj ha
    obtain rfl := Option.some.inj hb
    exact ⟨hfields.1, hfields.2.1, hfields.2.2, hstored, hincoming, by simpa using hsame⟩
  · cases h

theorem sameDocument_of_text (htitle : stored.title = document.title) (hdate : stored.date = document.date)
    (hcontent : stored.content = document.content) (hstored : stored.metadata.acyclic = true)
    (hincoming : document.metadata.acyclic = true)
    (htext : (stored.metadata.sorted localeCompare).text = (document.metadata.sorted localeCompare).text) :
    sameDocument localeCompare stored document = some true := by
  simp [sameDocument, stableJson, Json.stringify, Json.Value.acyclic_sorted, htitle, hdate, hcontent, hstored,
    hincoming, htext]

theorem sameDocument_stored_iff [Std.TransCmp localeCompare] (htitle : document.title.map toWellFormed = document.title)
    (hcontent : toWellFormed document.content = document.content)
    (hkeyed : document.metadata.keyed = true) (hacyclic : document.metadata.acyclic = true) :
    sameDocument localeCompare document.stored document = some true ↔
      document.metadata.settled localeCompare = true := by
  rw [← text_sorted_jsonb_iff hkeyed hacyclic]
  constructor
  · intro h
    obtain ⟨-, -, -, -, -, htext⟩ := sameDocument_eq_true h
    exact htext
  · intro htext
    refine sameDocument_of_text htitle rfl hcontent ?_ hacyclic htext
    rw [DocumentDTO.stored, Json.Value.acyclic_jsonb, hacyclic]

theorem externalId_of_upsert (h : db.upsert localeCompare document tsConfig chunks = some (db', change)) :
    textAccepts document.externalId = true := by
  unfold Database.upsert at h
  exact (Option.ite_none_right_eq_some.mp h).1

theorem upsert_unchanged (h : db.Valid) (hrow : row ∈ db.documents) (hkey : row.key = document.key)
    (hexternalId : textAccepts document.externalId = true) (hversion : textAccepts document.version = true)
    (hurl : document.url.all textAccepts = true)
    (hsame : sameDocument localeCompare row.document document = some true)
    (hhashes : db.hashes row.id = chunks.map (·.hash)) :
    db.upsert localeCompare document tsConfig chunks = some (db.touched row.id document, .unchanged) := by
  have hfind := (findDocument_eq_some_iff h).mpr ⟨hrow, hkey⟩
  have hboth : sameHashes ((db.chunksOf row.id).map (·.chunk.hash)) chunks = true := decide_eq_true hhashes
  rw [Database.upsert, if_pos hexternalId, hfind]
  simp only [hsame, hboth, Bool.and_self, if_true]
  rw [Database.touch, if_pos (Bool.and_eq_true_iff.mpr ⟨hversion, hurl⟩)]
  rfl

theorem upsert_empty (h : document.accepted = true) (hchunks : chunks.all (·.accepted) = true) :
    ∃ db', ({} : Database Vector).upsert localeCompare document tsConfig chunks = some (db', .upsert) ∧
      ∀ row ∈ db'.documents, row.document = document.stored := by
  have hexternalId := (DocumentDTO.accepted_iff.mp h).1
  refine ⟨_, by
    rw [Database.upsert, if_pos hexternalId, Database.findDocument, List.find?_nil, Database.write,
      if_pos (Bool.and_eq_true_iff.mpr ⟨h, hchunks⟩)], fun row hrow => ?_⟩
  rw [reconcileChunks_documents] at hrow
  rw [List.mem_singleton.mp hrow]

theorem repeated_of_settled [Std.TransCmp localeCompare] (htitle : document.title.map toWellFormed = document.title)
    (hcontent : toWellFormed document.content = document.content)
    (hkeyed : document.metadata.keyed = true)
    (hord : chunks.map (·.ord) = List.range chunks.length)
    (hhash : ∀ c ∈ chunks, toWellFormed c.hash = c.hash)
    (hsettled : document.accepted = true → chunks.all (·.accepted) = true →
      document.metadata.settled localeCompare = true)
    (h : db.Valid) (hfirst : db.upsert localeCompare document tsConfig chunks = some (db', change))
    {version : JsString} {url : Option JsString} (hversion : textAccepts version = true)
    (hurl : url.all textAccepts = true) :
    ∃ id, db'.upsert localeCompare (document.reread version url) tsConfig chunks =
      some (db'.touched id (document.reread version url), .unchanged) := by
  have hexternalId := externalId_of_upsert hfirst
  have hupserted := upsert_upserted h hfirst
  have hvalid := h.upserted hupserted
  cases hupserted with
  | unchanged row hrow hkey hsame hhashes =>
    have hmem : row.touch document ∈ Table.update DocumentRow.id row.id (DocumentRow.touch document)
        db.documents := Table.mem_update.mpr (.inl ⟨row, hrow, rfl, rfl⟩)
    exact ⟨_, upsert_unchanged hvalid hmem hkey hexternalId hversion hurl hsame hhashes⟩
  | written db₁ id haccepted hchunks hw =>
    have hmem : ⟨id, document.stored⟩ ∈
        (reconcileChunks db₁ id tsConfig document.title chunks).documents := by
      rw [reconcileChunks_documents]
      exact hw.row
    have hacyclic := (DocumentDTO.kept_stored haccepted).acyclic
    rw [DocumentDTO.stored, Json.Value.acyclic_jsonb] at hacyclic
    have hsame := (sameDocument_stored_iff htitle hcontent hkeyed hacyclic).mpr
      (hsettled haccepted (List.all_eq_true.mpr hchunks))
    exact ⟨_, upsert_unchanged hvalid hmem rfl hexternalId hversion hurl hsame
      (hashes_reconcileChunks (hw.valid h haccepted).chunkIds hord hhash)⟩

theorem faithful_of_unchanged (hkeyed : document.metadata.keyed = true) (h : db.Valid)
    (hstored : ∀ d ∈ db.documents, d.document.metadata.keyed = true)
    (hunchanged : db.upsert localeCompare document tsConfig chunks = some (db', .unchanged)) :
    ∃ row ∈ db.documents, row.key = document.key ∧ row.document.title = document.title ∧
      row.document.date = document.date ∧ row.document.content = document.content ∧
      row.document.metadata.jsonb = document.metadata.jsonb ∧ db.hashes row.id = chunks.map (·.hash) := by
  cases upsert_upserted h hunchanged with
  | unchanged row hrow hkey hsame hhashes =>
    obtain ⟨htitle, hdate, hcontent, hstoredAcyclic, hacyclic, htext⟩ := sameDocument_eq_true hsame
    exact ⟨row, hrow, hkey, htitle, hdate, hcontent,
      jsonb_eq_of_text (hstored row hrow) hkeyed hstoredAcyclic hacyclic htext, hhashes⟩

theorem exactShortcut_iff (Vector : Type u) (localeCompare : JsString → JsString → Ordering)
    [Std.TransCmp localeCompare] (document : DocumentDTO) (tsConfig : String) (chunks : List ChunkDTO)
    (htitle : document.title.map toWellFormed = document.title)
    (hcontent : toWellFormed document.content = document.content)
    (hkeyed : document.metadata.keyed = true)
    (hord : chunks.map (·.ord) = List.range chunks.length)
    (hhash : ∀ c ∈ chunks, toWellFormed c.hash = c.hash) :
    ExactShortcut Vector localeCompare document tsConfig chunks ↔
      (document.accepted = true → chunks.all (·.accepted) = true →
        document.metadata.settled localeCompare = true) := by
  constructor
  · intro hexact haccepted hchunks
    obtain ⟨-, -, -, -, -, hversion, hacyclic, -⟩ := DocumentDTO.accepted_iff.mp haccepted
    have hurl := (DocumentDTO.accepted_iff.mp haccepted).2.2.2.1
    have hempty : ∃ db', ({} : Database Vector).upsert localeCompare document tsConfig chunks =
        some (db', .upsert) ∧ ∀ row ∈ db'.documents, row.document = document.stored :=
      upsert_empty haccepted hchunks
    obtain ⟨db', hfirst, hrows⟩ := hempty
    obtain ⟨id, hsecond⟩ := hexact.repeated {} valid_empty db' .upsert hfirst document.version document.url
      hversion hurl
    have hvalid := valid_empty.upserted (upsert_upserted valid_empty hfirst)
    have hupserted := upsert_upserted hvalid hsecond
    generalize db'.touched id _ = db'' at hupserted
    cases hupserted with
    | unchanged row hrow hkey hsame hhashes =>
      rw [hrows row hrow] at hsame
      exact (sameDocument_stored_iff htitle hcontent hkeyed hacyclic).mp hsame
  · intro hsettled
    exact {
      repeated := fun db h db' change hfirst version url hversion hurl =>
        repeated_of_settled htitle hcontent hkeyed hord hhash hsettled h hfirst hversion hurl
      faithful := fun db h hstored db' hunchanged => faithful_of_unchanged hkeyed h hstored hunchanged }

/-- `localeCompare` in miniature: an accented letter is its letter and the accent. -/
def accentCompare (a b : JsString) : Ordering :=
  compareOn (fun s : JsString => s.flatMap fun u => if u = 0xE9 then [0x65, 0x301] else [u]) a b

instance : Std.TransCmp accentCompare :=
  inferInstanceAs (Std.TransCmp (compareOn fun s : JsString =>
    s.flatMap fun u => if u = 0xE9 then [0x65, 0x301] else [u]))

def accented : DocumentDTO :=
  ⟨"notes", [97], none, none, none, [98], [49],
    .object [([0x65, 0x301], .bool true), ([0xE9], .bool false)]⟩

def settledAccents : DocumentDTO :=
  ⟨"notes", [97], none, none, none, [98], [49],
    .object [([0xE9], .bool false), ([0x65, 0x301], .bool true)]⟩

theorem exactShortcut_accented : ExactShortcut Nat accentCompare settledAccents "english" [] ∧
    ¬ ExactShortcut Nat accentCompare accented "english" [] := by
  constructor
  · exact (exactShortcut_iff Nat accentCompare settledAccents "english" [] rfl rfl (by decide) rfl
      (fun _ h => by cases h)).mpr fun _ _ => by decide +kernel
  · intro hexact
    have hsettled := (exactShortcut_iff Nat accentCompare accented "english" [] rfl rfl (by decide) rfl
      (fun _ h => by cases h)).mp hexact (by decide +kernel) rfl
    exact absurd hsettled (by decide +kernel)

/-- A document written twice in a row is written again, though nothing of it has changed. -/
theorem upsert_accented_again : accentCompare [0x65, 0x301] [0xE9] = .eq ∧
    ((({} : Database Nat).upsert accentCompare accented "english" []).bind fun first =>
      first.1.upsert accentCompare accented "english" []).map Prod.snd = some .upsert := by
  decide +kernel

end HomelabApps.KnowledgeBase.Store
