import HomelabApps.Auth.Authenticator
import HomelabApps.KnowledgeBase.DocumentValidationService
import HomelabApps.KnowledgeBase.DocumentWrite.CommitMessage
import HomelabApps.KnowledgeBase.DocumentWrite.Protocol
import HomelabApps.KnowledgeBase.KnowledgeBaseAccess
import HomelabApps.Library.Utf8

namespace HomelabApps.KnowledgeBase.DocumentHandlers

open HomelabApps.Auth (Principal)
open HomelabApps.Library
open HomelabApps.Library.Utf16
open HomelabApps.Library.Json (Value)
open HomelabApps.Library.Utf8 (textOf)
open DocumentValidation
open DocumentWrite (Base Call SourceFile commitMessage held)
open KnowledgeBaseAccess (AccessError ReadableConfig)
open Notes (NotesPostRequest RenderedNote TitleUnicode)

structure DocumentsPutRequest where
  kb : JsString
  id : JsString
  content : JsString
  version : Option String
  message : Option JsString

structure DocumentsDeleteRequest where
  kb : JsString
  id : JsString
  version : String
  reason : JsString

structure Service where
  knowledgeBases : List ReadableConfig
  parseYaml : JsString → Except String Value
  titles : TitleUnicode
  kindOf : KindOf

structure Caller where
  principal : Principal
  header : Option JsString

inductive Refusal
  | badRequest (message : JsString)
  | notFound (message : String)
  | type
  deriving DecidableEq

def UNAUTHENTICATED_ISSUER : JsString := utf16 "unauthenticated"

def author (caller : Caller) : Checked JsString :=
  if caller.header = none ∧ caller.principal.issuer = UNAUTHENTICATED_ISSUER then
    onBehalfOf (some caller.principal.subject)
  else onBehalfOf caller.header

/-- The one that is named; no id that the routes admit leaves none. -/
def knowledgeBase (service : Service) (caller : Caller) (kb : JsString) : Except Refusal ReadableConfig :=
  match KnowledgeBaseAccess.resolve caller.principal.roles service.knowledgeBases (some kb) with
  | .error (.notFound message) => .error (.notFound message)
  | .ok [] => .error .type
  | .ok (kb :: _) => .ok kb

/-- Every source is a git repository, which has a writer. -/
def writable (kb : ReadableConfig) : DocumentWrite.KnowledgeBaseConfig where
  id := kb.id
  source := "GIT"
  writable := true

def checked {α : Type} (result : Checked α) : Except Refusal α := result.mapError .badRequest

/-- `DocumentsPutHandler.execute`, up to its call of the queue. -/
def put (service : Service) (caller : Caller) (request : DocumentsPutRequest) : Except Refusal Call := do
  let onBehalfOf ← checked (author caller)
  let kb ← knowledgeBase service caller request.kb
  let title ← checked (workDocument service.parseYaml service.kindOf request.id request.content)
  checked (refuseSecrets service.kindOf (request.message.getD []) (utf16 "the message"))
  pure {
    kb := writable kb
    id := textOf request.id
    command := .write (textOf request.content) request.version
    message := textOf (commitMessage { onBehalfOf, subject := title, body := request.message }) }

def delete (service : Service) (caller : Caller) (request : DocumentsDeleteRequest) : Except Refusal Call := do
  let onBehalfOf ← checked (author caller)
  let kb ← knowledgeBase service caller request.kb
  checked (deletablePath request.id)
  checked (refuseSecrets service.kindOf request.reason (utf16 "the reason"))
  pure {
    kb := writable kb
    id := textOf request.id
    command := .delete request.version
    message := textOf (commitMessage
      { onBehalfOf, subject := utf16 "delete " ++ request.id, reason := some request.reason }) }

/-- `NotesPostHandler.execute`, up to its first await; `today` is the date a note without one gets. -/
def post (service : Service) (caller : Caller) (kb : JsString) (request : NotesPostRequest) (today : JsString) :
    Except Refusal Call := do
  let onBehalfOf ← checked (author caller)
  let kb ← knowledgeBase service caller kb
  let note ← checked (Notes.render service.titles today request onBehalfOf)
  checked (refuseSecrets service.kindOf note.content (utf16 "the note"))
  pure {
    kb := writable kb
    id := textOf note.id
    command := .write (textOf note.content) none
    message := textOf (commitMessage { onBehalfOf, subject := note.title }) }

/-- A note that waits for the read of the note it supersedes; `read` is what the source answered. -/
structure Pending where
  call : Call
  supersedes : String
  read : Option (Option SourceFile) := none

structure State where
  writes : DocumentWrite.State := {}
  pending : List Pending := []
  refused : List Refusal := []

def State.refuse (s : State) (refusal : Refusal) : State := { s with refused := s.refused ++ [refusal] }

def notSuperseded (supersedes : String) : Refusal :=
  .badRequest (utf16 "supersedes: " ++ utf16 supersedes ++ utf16 " does not exist.")

/-- `read` and `readFails` are the source's answers to the read of a pending note, which `resume` goes on with;
`source` is what the queue and the source do. -/
inductive Event
  | put (caller : Caller) (request : DocumentsPutRequest)
  | delete (caller : Caller) (request : DocumentsDeleteRequest)
  | post (caller : Caller) (kb : JsString) (request : NotesPostRequest) (today : JsString)
  | read (i : Nat)
  | readFails (i : Nat)
  | resume (i : Nat)
  | source (event : DocumentWrite.Event)

def State.advance (base : Base) (s : State) (event : DocumentWrite.Event) : Option State :=
  (DocumentWrite.step base s.writes event).map fun writes => { s with writes := writes }

def State.submit (base : Base) (s : State) : Except Refusal Call → Option State
  | .ok call => s.advance base (.arrive call)
  | .error refusal => some (s.refuse refusal)

def State.take (s : State) (i : Nat) : State := { s with pending := s.pending.eraseIdx i }

def step (service : Service) (base : Base) (s : State) : Event → Option State
  | .put caller request => s.submit base (put service caller request)
  | .delete caller request => s.submit base (delete service caller request)
  | .post caller kb request today =>
    match request.supersedes, post service caller kb request today with
    | some supersedes, .ok call => some { s with pending := s.pending ++ [{ call, supersedes := textOf supersedes }] }
    | _, result => s.submit base result
  | .read i =>
    match s.pending[i]? with
    | some ⟨call, supersedes, none⟩ =>
      let found := held base s.writes.commits call.kb.id supersedes
      some { s with pending := s.pending.set i ⟨call, supersedes, some found⟩ }
    | _ => none
  | .readFails i =>
    match s.pending[i]? with
    | some ⟨_, _, none⟩ => some (s.take i)
    | _ => none
  | .resume i =>
    match s.pending[i]? with
    | some ⟨call, _, some (some _)⟩ => (s.take i).advance base (.arrive call)
    | some ⟨_, supersedes, some none⟩ => some ((s.take i).refuse (notSuperseded supersedes))
    | _ => none
  | .source (.arrive _) => none
  | .source event => s.advance base event

def run (service : Service) (base : Base) : State → List Event → Option State := Transition.run (step service base)

end HomelabApps.KnowledgeBase.DocumentHandlers
