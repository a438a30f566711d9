import HomelabApps.KnowledgeBase.Platform
import HomelabApps.Library.KeyedMap
import HomelabApps.Library.Transition

/-! The repository of each git knowledge base, discovered through the GitHub App or the token it is
configured with, and the client that calls on it go through. -/

namespace HomelabApps.KnowledgeBase.GitHub

open HomelabApps.Library
open HomelabApps.Library.Utf16

/-- `toLowerCase`, which takes ASCII letter by letter, and the hex digest of a text. -/
structure Language where
  toLowerCase : JsString → JsString
  ascii : ∀ s, (∀ u ∈ s, u < 0x80) → toLowerCase s = asciiLower s
  sha256 : JsString → JsString

inductive GitHubSecret
  | value (value : JsString)
  | file (path : JsString)
  deriving DecidableEq

structure GitHubClientOptions where
  baseUrl : JsString
  timeoutMs : Nat
  retries : Nat
  deriving DecidableEq

inductive GitHubConfig
  | app (clientId : JsString) (privateKey : GitHubSecret) (options : GitHubClientOptions)
  | token (token : GitHubSecret) (options : GitHubClientOptions)
  deriving DecidableEq

def isOwnerUnit (u : UInt16) : Bool :=
  (0x30 ≤ u && u ≤ 0x39) || (0x41 ≤ u && u ≤ 0x5A) || (0x61 ≤ u && u ≤ 0x7A) || u = 0x5F || u = 0x2D

def isNameUnit (u : UInt16) : Bool := isOwnerUnit u || u = 0x2E

/-- `/^[A-Za-z0-9_-]+\/[A-Za-z0-9._-]+$/` -/
def GITHUB_REPOSITORY_PATTERN (s : JsString) : Bool :=
  match s.takeWhile isOwnerUnit, s.dropWhile isOwnerUnit with
  | _ :: _, 0x2F :: u :: name => (u :: name).all isNameUnit
  | _, _ => false

structure GitKnowledgeBase where
  id : JsString
  repository : Option JsString
  github : Option GitHubConfig
  deriving DecidableEq

structure Config where
  github : Option GitHubConfig
  knowledgeBases : List GitKnowledgeBase
  pattern : ∀ kb ∈ knowledgeBases, ∀ repository, kb.repository = some repository →
    GITHUB_REPOSITORY_PATTERN repository = true
  credentials : ∀ kb ∈ knowledgeBases, (kb.github.or github).isSome = true
  named : ∀ kb ∈ knowledgeBases, ∀ token options, kb.github.or github = some (.token token options) →
    kb.repository.isSome = true

structure GitHubRepository where
  owner : JsString
  name : JsString
  deriving DecidableEq

def key (repo : GitHubRepository) : JsString := repo.owner ++ utf16 "/" ++ repo.name

structure GitHubClient where
  credential : JsString
  octokit : GitHubConfig
  deriving DecidableEq

inductive PickError
  | notCovered (kb : JsString) (repositories : Nat)
  | several (repositories : Nat) (kb : JsString)
  | notOne (repositories : Nat)

/-- How far a discovery has come: what a listing has yielded yet, a token's read, what was discovered, or
a failure, which `catch` has dropped the discovery for or not. -/
inductive Progress
  | listing (repositories : List GitHubRepository)
  | reading
  | resolved (repository : GitHubRepository)
  | rejected (dropped : Bool)
  deriving DecidableEq

structure Discovery where
  kb : GitKnowledgeBase
  credentials : GitHubConfig
  octokit : GitHubConfig
  progress : Progress

/-- A call that was made for a knowledge base, and the client it went through; without one it is refused. -/
structure Call where
  kb : Nat
  repository : GitHubRepository
  client : Option GitHubClient
  deriving DecidableEq

/-- `apps` has what each App was created with, `asked` what each knowledge base has been given. -/
structure State where
  apps : KeyedMap JsString GitHubConfig := []
  clients : KeyedMap JsString GitHubClient := []
  discoveries : KeyedMap JsString Nat := []
  started : List Discovery := []
  asked : List (Nat × Nat) := []
  calls : List Call := []

inductive Event
  | repository (kb : Nat) (readable : Bool)
  | forget (kb : Nat)
  | yield (discovery : Nat) (repository : GitHubRepository)
  | listed (discovery : Nat)
  | found (discovery : Nat) (repository : GitHubRepository)
  | fail (discovery : Nat)
  | drop (discovery : Nat)
  | call (kb discovery : Nat)

variable (language : Language) (config : Config)

def gitHubCredentialKey : GitHubConfig → JsString
  | .app clientId _ _ => utf16 "app:" ++ clientId
  | .token (.file path) _ => utf16 "token:file:" ++ path
  | .token (.value value) _ => utf16 "token:value:" ++ (language.sha256 value).take 16

def credentials (kb : GitKnowledgeBase) : Option GitHubConfig := kb.github.or config.github

def discoveryKey (credentials : GitHubConfig) (kb : GitKnowledgeBase) : JsString :=
  gitHubCredentialKey language credentials ++ utf16 ":" ++ language.toLowerCase (kb.repository.getD [])

def pick (kb : GitKnowledgeBase) (repositories : List GitHubRepository) : Except PickError GitHubRepository :=
  match kb.repository with
  | some configured =>
    match repositories.find? fun candidate =>
        language.toLowerCase (key candidate) = language.toLowerCase configured with
    | some repository => .ok repository
    | none => .error (.notCovered kb.id repositories.length)
  | none =>
    match repositories with
    | [repository] => .ok repository
    | _ => if repositories.length > 1 then .error (.several repositories.length kb.id) else .error (.notOne repositories.length)

/-- What the App of a client ID was created with: it is built once, which reads its private key. -/
def getApp (apps : KeyedMap JsString GitHubConfig) (config : GitHubConfig) (clientId : JsString) (readable : Bool) :
    Option (KeyedMap JsString GitHubConfig × GitHubConfig) :=
  match apps.get clientId with
  | some app => some (apps, app)
  | none => if readable then some (apps.set clientId config, config) else none

def discover (apps : KeyedMap JsString GitHubConfig) (kb : GitKnowledgeBase) (credentials : GitHubConfig) (readable : Bool) :
    KeyedMap JsString GitHubConfig × Discovery :=
  match credentials with
  | .token _ _ => (apps, {
      kb := kb
      credentials := credentials
      octokit := credentials
      progress := if kb.repository.isSome && readable then .reading else .rejected false })
  | .app clientId _ _ =>
    match getApp apps credentials clientId readable with
    | some (apps, app) => (apps, { kb := kb, credentials := credentials, octokit := app, progress := .listing [] })
    | none => (apps, { kb := kb, credentials := credentials, octokit := credentials, progress := .rejected false })

def State.repository (s : State) (k : Nat) (kb : GitKnowledgeBase) (credentials : GitHubConfig) (readable : Bool) : State :=
  match s.discoveries.get (discoveryKey language credentials kb) with
  | some d => { s with asked := s.asked ++ [(k, d)] }
  | none =>
    let (apps, discovery) := discover s.apps kb credentials readable
    { s with
      apps := apps
      discoveries := s.discoveries.set (discoveryKey language credentials kb) s.started.length
      started := s.started ++ [discovery]
      asked := s.asked ++ [(k, s.started.length)] }

def State.advance (s : State) (d : Nat) (discovery : Discovery) (progress : Progress) : State :=
  { s with started := s.started.set d { discovery with progress := progress } }

def Discovery.client (discovery : Discovery) : GitHubClient where
  credential := gitHubCredentialKey language discovery.credentials
  octokit := discovery.octokit

/-- The clients once a listing has succeeded: those of the App go that it does not list, and its own come. -/
def relist (clients : KeyedMap JsString GitHubClient) (discovery : Discovery) (repositories : List GitHubRepository) :
    KeyedMap JsString GitHubClient :=
  let listed := KeyedMap.setAll [] (repositories.map fun repo => (key repo, discovery.client language))
  KeyedMap.setAll
    (clients.filter fun e =>
      !(e.2.credential = gitHubCredentialKey language discovery.credentials && (listed.get e.1).isNone)) listed

def State.listed (s : State) (d : Nat) (discovery : Discovery) (repositories : List GitHubRepository) : State :=
  { s.advance d discovery (match pick language discovery.kb repositories with
      | .ok repository => .resolved repository
      | .error _ => .rejected false) with
    clients := relist language s.clients discovery repositories }

def State.found (s : State) (d : Nat) (discovery : Discovery) (repository : GitHubRepository) : State :=
  { s.advance d discovery (.resolved repository) with
    clients := s.clients.set (key repository) (discovery.client language) }

def step (s : State) : Event → Option State
  | .repository k readable =>
    config.knowledgeBases[k]?.bind fun kb => (credentials config kb).map fun credentials =>
      s.repository language k kb credentials readable
  | .forget k =>
    config.knowledgeBases[k]?.bind fun kb => (credentials config kb).map fun credentials =>
      { s with discoveries := s.discoveries.delete (discoveryKey language credentials kb) }
  | .yield d repository =>
    s.started[d]?.bind fun discovery =>
      match discovery.progress with
      | .listing repositories => some (s.advance d discovery (.listing (repositories ++ [repository])))
      | _ => none
  | .listed d =>
    s.started[d]?.bind fun discovery =>
      match discovery.progress with
      | .listing repositories => some (s.listed language d discovery repositories)
      | _ => none
  | .found d repository =>
    s.started[d]?.bind fun discovery =>
      match discovery.progress with
      | .reading => some (s.found language d discovery repository)
      | _ => none
  | .fail d =>
    s.started[d]?.bind fun discovery =>
      match discovery.progress with
      | .listing _ | .reading => some (s.advance d discovery (.rejected false))
      | _ => none
  | .drop d =>
    s.started[d]?.bind fun discovery =>
      match discovery.progress with
      | .rejected false =>
        some { s.advance d discovery (.rejected true) with
          discoveries := s.discoveries.delete (discoveryKey language discovery.credentials discovery.kb) }
      | _ => none
  | .call k d =>
    if (k, d) ∈ s.asked then
      s.started[d]?.bind fun discovery =>
        match discovery.progress with
        | .resolved repository =>
          some { s with calls := s.calls ++ [{ kb := k, repository := repository, client := s.clients.get (key repository) }] }
        | _ => none
    else none

end HomelabApps.KnowledgeBase.GitHub
