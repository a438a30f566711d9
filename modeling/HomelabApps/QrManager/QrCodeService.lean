import HomelabApps.Library.Table
import HomelabApps.Library.Transition
import Mathlib.Data.List.DropRight

/-! `QrCodeService` and the handlers over it: codes created, changed, deleted and scanned, interleaved at the
calls of the database. -/

namespace HomelabApps.QrManager

open HomelabApps.Library

inductive QrType
  | iotDevice | plant | other
  deriving DecidableEq, Repr

inductive QrImageFormat
  | svg | png
  deriving DecidableEq, Repr

def QrImageFormat.extension : QrImageFormat → String
  | .svg => "svg"
  | .png => "png"

def SLUG_LENGTH : Nat := 4

def SLUG_ALPHABET : List Char := "0123456789abcdefghijklmnopqrstuvwxyz".toList

def INSERT_ATTEMPTS : Nat := 5

def MONGO_DUPLICATE_KEY : Nat := 11000

def SLUG_REGEX (slug : String) : Bool :=
  slug.toList.length = SLUG_LENGTH && slug.toList.all fun c => ('a' ≤ c ∧ c ≤ 'z') ∨ ('0' ≤ c ∧ c ≤ '9')

def generates (slug : String) : Bool := slug.toList.length = SLUG_LENGTH && slug.toList.all (· ∈ SLUG_ALPHABET)

structure QrCode where
  id : String
  slug : String
  targetURL : String
  label : String
  type : QrType
  active : Bool
  deriving DecidableEq, Repr

structure QrCodeEntity where
  targetURL : String
  label : String
  type : QrType
  active : Bool
  deriving DecidableEq, Repr

structure QrCodeCreateRequest where
  targetURL : String
  label : String
  type : QrType
  deriving DecidableEq, Repr

structure QrCodeUpdateRequest where
  targetURL : Option String := none
  label : Option String := none
  type : Option QrType := none
  active : Option Bool := none
  deriving DecidableEq, Repr

structure QrCodeListFilter where
  type : Option QrType := none
  active : Option Bool := none
  deriving DecidableEq, Repr

/-- The `$set` of an update; what it leaves out is kept. -/
def QrCode.set (code : QrCode) (data : QrCodeUpdateRequest) : QrCode :=
  { code with
    targetURL := data.targetURL.getD code.targetURL
    label := data.label.getD code.label
    type := data.type.getD code.type
    active := data.active.getD code.active }

def QrCodeListFilter.admits (filter : QrCodeListFilter) (code : QrCode) : Bool :=
  filter.type.all (· = code.type) && filter.active.all (· = code.active)

structure MongoLikeError where
  code : Option Nat
  keyPattern : Option (List (String × Int))
  deriving DecidableEq, Repr

inductive Failure
  | mongo (error : MongoLikeError)
  | brokenCircuit
  | taskCancelled
  deriving DecidableEq, Repr

def isSlugCollision : Failure → Bool
  | .mongo error =>
    error.code = some MONGO_DUPLICATE_KEY && (error.keyPattern.bind (·.lookup "slug")).any (· ≠ 0)
  | .brokenCircuit => false
  | .taskCancelled => false

def duplicateKey (index : String) : Failure := .mongo ⟨some MONGO_DUPLICATE_KEY, some [(index, 1)]⟩

inductive Call
  | findAll (filter : QrCodeListFilter)
  | findById (id : String)
  | findBySlug (slug : String)
  | create (entity : QrCodeEntity) (slug : String)
  | updateById (id : String) (data : QrCodeUpdateRequest)
  | deleteById (id : String)
  deriving DecidableEq, Repr

inductive Answer
  | codes (codes : List QrCode)
  | code (code : Option QrCode)
  | done
  | failed (failure : Failure)
  deriving DecidableEq, Repr

def QrCodeEntity.code (entity : QrCodeEntity) (id slug : String) : QrCode :=
  ⟨id, slug, entity.targetURL, entity.label, entity.type, entity.active⟩

/-- A call as the database carries it out; `id` is the one a new code is given. Ids stand for what they are cast to,
hex in lower case; an id that is none finds no code. -/
def Call.execute (id : String) (codes : List QrCode) : Call → List QrCode × Answer
  | .findAll filter => (codes, .codes (codes.filter filter.admits))
  | .findById id => (codes, .code (codes.find? (·.id = id)))
  | .findBySlug slug => (codes, .code (codes.find? (·.slug = slug)))
  | .create entity slug =>
    if id ∈ codes.map (·.id) then (codes, .failed (duplicateKey "_id"))
    else if slug ∈ codes.map (·.slug) then (codes, .failed (duplicateKey "slug"))
    else (codes ++ [entity.code id slug], .code (some (entity.code id slug)))
  | .updateById id data =>
    let codes := Table.update (·.id) id (·.set data) codes
    (codes, .code (codes.find? (·.id = id)))
  | .deleteById id => (codes.filter (·.id ≠ id), .done)

inductive Exception
  | badRequest
  | notFound (message : String)
  | conflict (message : String)
  | serviceUnavailable (message : String)
  | gatewayTimeout (message : String)
  | failure (failure : Failure)
  deriving DecidableEq, Repr

structure QrCodeResponse extends QrCode where
  qrURL : String
  deriving DecidableEq, Repr

inductive Result
  | response (response : QrCodeResponse)
  | items (items : List QrCodeResponse)
  | deleted
  | image (url filename : String)
  | redirect (targetURL : String)
  deriving DecidableEq, Repr

def composeQrURL (baseURL slug : String) : String :=
  String.ofList (baseURL.toList.rdropWhile (· = '/')) ++ "/" ++ slug

def toResponse (baseURL : String) (code : QrCode) : QrCodeResponse :=
  { code with qrURL := composeQrURL baseURL code.slug }

inductive Request
  | create (request : QrCodeCreateRequest)
  | list (filter : QrCodeListFilter)
  | get (id : String)
  | update (id : String) (request : QrCodeUpdateRequest)
  | delete (id : String)
  | image (id : String) (format : QrImageFormat)
  | redirect (slug : String)
  deriving DecidableEq, Repr

/-- Where a handler waits for the database; `attempt` counts the inserts before this one. -/
inductive Handler
  | create (entity : QrCodeEntity) (attempt : Nat) (slug : String)
  | list (filter : QrCodeListFilter)
  | get (id : String)
  | update (id : String) (request : QrCodeUpdateRequest)
  | deleteGet (id : String)
  | delete (id : String)
  | image (id : String) (format : QrImageFormat)
  | redirect (slug : String)
  deriving DecidableEq, Repr

def Handler.call : Handler → Call
  | .create entity _ slug => .create entity slug
  | .list filter => .findAll filter
  | .get id => .findById id
  | .update id request => .updateById id request
  | .deleteGet id => .findById id
  | .delete id => .deleteById id
  | .image id _ => .findById id
  | .redirect slug => .findBySlug slug

inductive Stage
  | waiting (handler : Handler) (answer : Option Answer)
  | settled (outcome : Except Exception Result)

def QrCodeCreateRequest.entity (request : QrCodeCreateRequest) : QrCodeEntity :=
  ⟨request.targetURL, request.label, request.type, true⟩

def Request.start (generated : String) : Request → Stage
  | .create request => .waiting (.create request.entity 0 generated) none
  | .list filter => .waiting (.list filter) none
  | .get id => .waiting (.get id) none
  | .update id request => .waiting (.update id request) none
  | .delete id => .waiting (.deleteGet id) none
  | .image id format => .waiting (.image id format) none
  | .redirect slug =>
    if SLUG_REGEX slug then .waiting (.redirect slug) none else .settled (.error .badRequest)

def qrCodeNotFound (key : String) : Exception := .notFound ("QR code " ++ key ++ " not found.")

def slugsExhausted : Exception :=
  .conflict ("Failed to allocate a unique slug after " ++ toString INSERT_ATTEMPTS ++ " attempts.")

def QrCodeService.create (baseURL generated : String) (entity : QrCodeEntity) (attempt : Nat) : Answer → Option Stage
  | .code (some code) => some (.settled (.ok (.response (toResponse baseURL code))))
  | .failed failure =>
    if isSlugCollision failure then
      if attempt + 1 < INSERT_ATTEMPTS then some (.waiting (.create entity (attempt + 1) generated) none)
      else some (.settled (.error slugsExhausted))
    else some (.settled (.error (.failure failure)))
  | .code none => none
  | .codes _ => none
  | .done => none

def RedirectHandler.lookup (aborted : Bool) : Failure → Exception
  | .brokenCircuit => .serviceUnavailable "QR code lookup is unavailable (circuit open)."
  | .taskCancelled =>
    if aborted then .failure .taskCancelled else .gatewayTimeout "QR code lookup did not respond in time."
  | .mongo error => .failure (.mongo error)

def RedirectHandler.execute (slug : String) (code : Option QrCode) : Except Exception Result :=
  match code with
  | none => .error (qrCodeNotFound slug)
  | some code => if code.active then .ok (.redirect code.targetURL) else .error (qrCodeNotFound slug)

def withCode (id : String) (next : QrCode → Stage) : Answer → Option Stage
  | .code none => some (.settled (.error (qrCodeNotFound id)))
  | .code (some code) => some (next code)
  | .failed failure => some (.settled (.error (.failure failure)))
  | .codes _ => none
  | .done => none

def Handler.resume (baseURL generated : String) (aborted : Bool) : Handler → Answer → Option Stage
  | .create entity attempt _, answer => QrCodeService.create baseURL generated entity attempt answer
  | .list _, .codes codes => some (.settled (.ok (.items (codes.map (toResponse baseURL)))))
  | .list _, .failed failure => some (.settled (.error (.failure failure)))
  | .list _, _ => none
  | .get id, answer => withCode id (fun code => .settled (.ok (.response (toResponse baseURL code)))) answer
  | .update id _, answer => withCode id (fun code => .settled (.ok (.response (toResponse baseURL code)))) answer
  | .deleteGet id, answer => withCode id (fun _ => .waiting (.delete id) none) answer
  | .delete _, .done => some (.settled (.ok .deleted))
  | .delete _, .failed failure => some (.settled (.error (.failure failure)))
  | .delete _, _ => none
  | .image id format, answer =>
    withCode id (fun code => .settled (.ok
      (.image (composeQrURL baseURL code.slug) (code.slug ++ "." ++ format.extension)))) answer
  | .redirect slug, .code code => some (.settled (RedirectHandler.execute slug code))
  | .redirect _, .failed failure => some (.settled (.error (RedirectHandler.lookup aborted failure)))
  | .redirect _, _ => none

/-- Why no answer comes from the database; none of it is a report of a unique index. -/
inductive Outage
  | brokenCircuit
  | taskCancelled
  | other (code : Option Nat)
  deriving DecidableEq, Repr

def Outage.failure : Outage → Failure
  | .brokenCircuit => .brokenCircuit
  | .taskCancelled => .taskCancelled
  | .other code => .mongo ⟨code, none⟩

/-- `lost`: carried out, but the answer does not arrive. -/
inductive Delivery
  | answered
  | lost (outage : Outage)
  | rejected (outage : Outage)
  deriving DecidableEq, Repr

structure Entry where
  task : Nat
  call : Call
  id : String
  delivery : Delivery
  found : List QrCode
  deriving DecidableEq, Repr

def Entry.carried (e : Entry) : Bool :=
  match e.delivery with
  | .answered => true
  | .lost _ => true
  | .rejected _ => false

def Entry.left (e : Entry) : List QrCode := if e.carried then (e.call.execute e.id e.found).1 else e.found

def Entry.answer (e : Entry) : Answer :=
  match e.delivery with
  | .answered => (e.call.execute e.id e.found).2
  | .lost outage => .failed outage.failure
  | .rejected outage => .failed outage.failure

structure Task where
  request : Request
  stage : Stage

/-- `log` is what the database has dealt with, in order. -/
structure Manager where
  codes : List QrCode := []
  tasks : List Task := []
  log : List Entry := []

inductive Event
  | request (request : Request) (generated : String)
  | deal (i : Nat) (id : String) (delivery : Delivery)
  | resume (i : Nat) (generated : String) (aborted : Bool)
  deriving DecidableEq, Repr

def Manager.receive (s : Manager) (request : Request) (generated : String) : Manager :=
  { s with tasks := s.tasks ++ [⟨request, request.start generated⟩] }

def Manager.put (s : Manager) (i : Nat) (task : Task) : Manager := { s with tasks := s.tasks.set i task }

def Manager.deal (s : Manager) (i : Nat) (task : Task) (handler : Handler) (id : String) (delivery : Delivery) :
    Manager :=
  let entry : Entry := ⟨i, handler.call, id, delivery, s.codes⟩
  { codes := entry.left
    tasks := s.tasks.set i { task with stage := .waiting handler (some entry.answer) }
    log := s.log ++ [entry] }

def Task.resume (baseURL generated : String) (aborted : Bool) (task : Task) : Option Task :=
  match task.stage with
  | .waiting handler (some answer) =>
    (handler.resume baseURL generated aborted answer).map fun stage => { task with stage := stage }
  | .waiting _ none => none
  | .settled _ => none

def Manager.step (baseURL : String) (s : Manager) : Event → Option Manager
  | .request request generated => if generates generated then some (s.receive request generated) else none
  | .deal i id delivery =>
    match s.tasks[i]? with
    | some ⟨request, .waiting handler none⟩ =>
      some (s.deal i ⟨request, .waiting handler none⟩ handler id delivery)
    | some ⟨_, .waiting _ (some _)⟩ => none
    | some ⟨_, .settled _⟩ => none
    | none => none
  | .resume i generated aborted =>
    if generates generated then
      (s.tasks[i]?.bind (Task.resume baseURL generated aborted)).map (s.put i)
    else none

end HomelabApps.QrManager
