import RelationExpansion.Config.Config
import RelationExpansion.Projection.Envelope
import RelationExpansion.Request.Backend
import RelationExpansion.Request.Query

/-! # Serving requests

A request is served in four steps: its directives are read against the schema of the resource, the
roots are loaded or created, the gateway attaches the relations that were asked for, and the result
is put into an envelope.  The first step that fails ends the request.

Only creation changes the state, and it does so before the relations are attached.  The identifier
and the time of a new record are given from outside.
-/

namespace RelationExpansion

/-- Why a request has no envelope. -/
inductive RequestError where
  | failed (failure : Failure)
  | overflow (error : Overflow)
  | unsorted (error : Disorder)
  deriving DecidableEq, Repr, Inhabited

namespace RequestError

/-- The error of a step that fails for reasons of its own. -/
def ofUnfinished {ε : Type} (failure : ε → Failure) : Unfinished ε → RequestError
  | .failed error => .failed (failure error)
  | .unsorted error => .unsorted error

end RequestError

/-- What is missing for serving requests. -/
inductive BuildError where
  | schema (error : SchemaError)
  | missingService
  | missingGateway
  deriving DecidableEq, Repr, Inhabited

namespace BuildError

def message : BuildError → String
  | .schema error => error.message
  | .missingService => "ResourceService is required. Call .with_service()"
  | .missingGateway => "PopulationGateway is required. Call .with_gateway()"

end BuildError

/-- All that stays the same from request to request. -/
structure Api (σ : Type) where
  registry : Registry
  limits : Limits
  gatewayBudget : Option Nat
  service : Service σ
  gateway : Gateway σ

namespace Api

variable {σ : Type}

def build (config : Config) (service : Option (Service σ)) (gateway : Option (Gateway σ)) :
    Except BuildError (Api σ) := do
  let registry ← config.registry.mapError BuildError.schema
  match service, gateway with
  | none, _ => .error .missingService
  | _, none => .error .missingGateway
  | some service, some gateway =>
    .ok ⟨registry, config.limits, config.gatewayBudget, service, gateway⟩

def view (api : Api σ) (resource : String) : Except RequestError View :=
  match api.registry.view? resource with
  | some view => .ok view
  | none => .error (.failed (.unknownResource resource))

def collectionUrl (api : Api σ) (resource : String) : String :=
  match api.registry.resource? resource with
  | some declaration => declaration.collectionUrl
  | none => "/" ++ resource

/-- The expansion set of a request. -/
def expansionSet (api : Api σ) (resource : String) (query : Query) :
    Except RequestError ExpansionSet := do
  let view ← api.view resource
  pure (ExpansionSet.ofDirectives view api.limits query.directives)

def populate (api : Api σ) (state : σ) (roots : List Document) (set : ExpansionSet) :
    Except RequestError (List Document) :=
  ((api.gateway.populate state roots set).await api.gatewayBudget).mapError
    (RequestError.ofUnfinished Failure.populate)

def envelope (root : RootResult) (url : String) (set : ExpansionSet) (view : View) :
    Except RequestError Envelope :=
  (Envelope.build root url set (some view)).mapError RequestError.overflow

/-- Populates one document and answers with its envelope. -/
def single (api : Api σ) (state : σ) (resource : String) (document : Document)
    (set : ExpansionSet) (view : View) : Except RequestError Envelope := do
  let populated ← api.populate state [document] set
  let url := itemUrl (api.collectionUrl resource) document.id.text
  envelope (.single (populated.head?.map Document.entity)) url set view

/-- One page of a resource. -/
def list (api : Api σ) (state : σ) (resource : String) (query : Query) :
    Except RequestError Envelope := do
  let view ← api.view resource
  let set ← api.expansionSet resource query
  let selection := query.rootSelection api.limits
  let (roots, total) ← (api.service.list state resource selection).mapError
    (RequestError.ofUnfinished Failure.internal)
  let populated ← api.populate state roots set
  let root := RootResult.collection (populated.map Document.entity) total (some selection)
  envelope root (api.collectionUrl resource) set view

/-- One record. -/
def get (api : Api σ) (state : σ) (resource : String) (id : Uuid) (query : Query) :
    Except RequestError Envelope := do
  let view ← api.view resource
  let set ← api.expansionSet resource query
  let found ← (api.service.get state resource id).mapError fun message =>
    .failed (.internal message)
  match found with
  | some document => api.single state resource document set view
  | none => .error (.failed (.notFound resource id.text))

/-- Creates a record under a new identifier, at the time `now`, and answers with it. -/
def create (api : Api σ) (state : σ) (id : Uuid) (now resource : String) (record : Record)
    (query : Query) : Except RequestError Envelope × σ :=
  match api.view resource, api.expansionSet resource query with
  | .error error, _ => (.error error, state)
  | _, .error error => (.error error, state)
  | .ok view, .ok set =>
    match api.service.create state id now resource record with
    | (.error message, changed) => (.error (.failed (.internal message)), changed)
    | (.ok document, changed) => (api.single changed resource document set view, changed)

end Api

end RelationExpansion
