import HomelabApps.KnowledgeBase.RankFusion
import HomelabApps.KnowledgeBase.SourceDocument
import HomelabApps.KnowledgeBase.Store.SearchRepository
import HomelabApps.KnowledgeBase.Store.Valid

/-! `SearchService`: a full-text leg and one vector leg for each model, merged by rank, the superseded
hits last. -/

universe u

namespace HomelabApps.KnowledgeBase.SearchService

open HomelabApps.Library.Utf16
open RankFusion (Ranking FusedHit fuse)
open Store

abbrev Weight := { weight : ℚ // 0 ≤ weight ∧ weight ≤ 10 }

structure SearchWeights where
  fullText : Weight
  vector : Weight

structure SearchConfig where
  candidates : Nat
  rrfK : Nat
  weights : SearchWeights
  fullTextMatch : FullTextMatch

structure RequestedWeights where
  fullText : Option Weight := none
  vector : Option Weight := none

structure SearchQuery where
  question : JsString
  knowledgeBases : List KnowledgeBaseConfig
  filter : MetadataFilter
  limit : Nat
  model : Option String := none
  weights : RequestedWeights := {}

def SearchQuery.ids (query : SearchQuery) : List String := query.knowledgeBases.map (·.id)

inductive SearchMode
  | hybrid | vector | fullText
  deriving DecidableEq, Repr

inductive SearchError
  | badRequest (message : String)
  | database
  deriving DecidableEq, Repr

/-- Weight of the full-text leg when it stands in for a vector leg that could not run. -/
def FALLBACK_WEIGHT : ℚ := 1

structure ScoredHit where
  hit : SearchHitDTO
  score : ℚ

structure LegRanking extends Ranking Nat where
  leg : Leg

/-- What the search gathers before the fusion; `asked` are all the legs that were answered, those with
nothing to rank among them. -/
structure Gathered where
  asked : List Leg := []
  rankings : List LegRanking := []
  models : List String := []
  fullTextAnswered : Bool := false
  covered : List String := []

structure SearchOutcome where
  mode : SearchMode
  models : List String
  hits : List ScoredHit
  gathered : Gathered
  ranked : List ScoredHit

/-- What the service works with; `embedQuery` is the vector of a question under a model, none where it
throws, and `round` the rounding of the runtime's numbers. -/
structure Services (Vector : Type u) where
  config : SearchConfig
  db : ValidDatabase Vector
  tsConfigs : String → Option String
  text : TextSearch
  index : VectorIndex Vector
  embedQuery : String → JsString → Option Vector
  round : ℚ → ℚ

variable {Vector : Type u}

def addToGroup (model id : String) : List (String × List String) → List (String × List String)
  | [] => [(model, [id])]
  | (name, ids) :: groups =>
    if name = model then (name, ids ++ [id]) :: groups else (name, ids) :: addToGroup model id groups

def modelOf (model : Option String) (kb : KnowledgeBaseConfig) : Option String :=
  (model <|> kb.models.head?).filter kb.models.contains

def byModel (query : SearchQuery) : Except SearchError (List (String × List String)) :=
  if query.model.any fun model => !query.knowledgeBases.any (·.models.contains model) then
    .error (.badRequest "No knowledge base searched is embedded with that model.")
  else
    .ok (query.knowledgeBases.foldl
      (fun groups kb =>
        match modelOf query.model kb with
        | some model => addToGroup model kb.id groups
        | none => groups)
      [])

def SearchQuery.weightsOver (query : SearchQuery) (configured : SearchWeights) : SearchWeights where
  fullText := query.weights.fullText.getD configured.fullText
  vector := query.weights.vector.getD configured.vector

def orDatabase {α : Type*} : Option α → Except SearchError α
  | some a => .ok a
  | none => .error .database

variable (s : Services Vector) (query : SearchQuery)

def weights : SearchWeights := query.weightsOver s.config.weights

def fullTextIds (kbs : List String) (withoutVectorFor : Option String) : Except SearchError (List Nat) :=
  orDatabase (fullText s.db.val s.tsConfigs s.text kbs query.question s.config.fullTextMatch query.filter
    s.config.candidates withoutVectorFor)

def Gathered.ask (gathered : Gathered) (leg : Leg) : Gathered :=
  { gathered with asked := gathered.asked ++ [leg] }

def Gathered.push (gathered : Gathered) (leg : Leg) (ids : List Nat) (weight : ℚ) : Gathered :=
  { gathered with rankings := gathered.rankings ++ [⟨⟨ids, weight⟩, leg⟩] }

def Gathered.pushVector (gathered : Gathered) (name : String) (group : List String) (ids : List Nat)
    (weight : ℚ) : Gathered :=
  let leg := .vector group name
  { (gathered.ask leg).push leg ids weight with
    models := gathered.models ++ [name]
    covered := gathered.covered ++ group }

def Gathered.pushText (gathered : Gathered) (leg : Leg) (ids : List Nat) (weight : ℚ) : Gathered :=
  { gathered.push leg ids weight with fullTextAnswered := true }

/-- The chunks that the vector leg of a model cannot see, found by full-text. -/
def unembeddedLeg (name : String) (group : List String) (gathered : Gathered) :
    Except SearchError Gathered := do
  let unembedded ← fullTextIds s query group (some name)
  let leg := .fullText group (some name)
  let gathered := gathered.ask leg
  if unembedded.isEmpty then pure gathered
  else pure (gathered.pushText leg unembedded FALLBACK_WEIGHT)

/-- The vector leg of one model; a question that cannot be embedded leaves its group uncovered. -/
def vectorLeg (gathered : Gathered) (name : String) (group : List String) :
    Except SearchError Gathered :=
  match s.embedQuery name query.question with
  | none => pure gathered
  | some question => do
    let ids ← orDatabase (vector s.db.val s.index group name question query.filter s.config.candidates)
    let gathered := gathered.pushVector name group ids (weights s query).vector
    if (weights s query).fullText.val ≤ 0 then unembeddedLeg s query name group gathered
    else pure gathered

def vectorLegs : Gathered → List (String × List String) → Except SearchError Gathered
  | gathered, [] => pure gathered
  | gathered, (name, group) :: groups => do
    let gathered ← vectorLeg s query gathered name group
    vectorLegs gathered groups

/-- Full-text over every knowledge base when it is weighted in; otherwise only where no vector leg
ran. -/
def fullTextLeg (gathered : Gathered) : Except SearchError Gathered :=
  let weighted : Bool := 0 < (weights s query).fullText.val
  let fullTextKbs := if weighted then query.ids else query.ids.filter fun id => !gathered.covered.contains id
  if fullTextKbs.isEmpty then pure gathered
  else do
    let found ← fullTextIds s query fullTextKbs none
    let weight := if weighted then (weights s query).fullText.val else FALLBACK_WEIGHT
    let leg := .fullText fullTextKbs none
    pure ((gathered.ask leg).pushText leg found weight)

def vectorGroups : Except SearchError (List (String × List String)) :=
  if 0 < (weights s query).vector.val then byModel query else pure []

def gather : Except SearchError Gathered := do
  let groups ← vectorGroups s query
  let gathered ← vectorLegs s query {} groups
  fullTextLeg s query gathered

def Gathered.mode (gathered : Gathered) : SearchMode :=
  if gathered.models.isEmpty then .fullText
  else if gathered.fullTextAnswered then .hybrid
  else .vector

def rank (gathered : Gathered) : Except SearchError (List ScoredHit) := do
  let fused := (fuse s.round s.config.rrfK (gathered.rankings.map (·.toRanking))).take query.limit
  let details ← orDatabase (details s.db.val s.tsConfigs s.text (fused.map (·.id)) query.question)
  pure (fused.filterMap fun hit => (details.find? (·.id = hit.id)).map fun found => ⟨found, hit.score⟩)

/-- Stable: within each group the fusion order holds. -/
def demote (ranked : List ScoredHit) : List ScoredHit :=
  ranked.filter (fun scored => !scored.hit.demoted) ++ ranked.filter (·.hit.demoted)

def search : Except SearchError SearchOutcome :=
  if query.knowledgeBases.isEmpty then
    pure { mode := .fullText, models := [], hits := [], gathered := {}, ranked := [] }
  else do
    let gathered ← gather s query
    let ranked ← rank s query gathered
    pure {
      mode := gathered.mode
      models := gathered.models
      hits := demote ranked
      gathered := gathered
      ranked := ranked }

end HomelabApps.KnowledgeBase.SearchService
