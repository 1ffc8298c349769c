import RelationExpansion.Http.Pattern
import RelationExpansion.Http.Request
import RelationExpansion.Request.Api

/-! # HTTP

A server answers requests over an `Api`.  Every resource has a collection, which can be listed and
added to, and items; besides there are health checks and fixed texts under paths of their own.
-/

namespace RelationExpansion.Http

structure Response where
  status : Nat
  body : String
  deriving DecidableEq, Repr, Inhabited

structure Server (σ : Type) where
  api : Api σ
  /-- Path patterns with the texts found there. -/
  pages : List (String × String) := []

/-- Why there is no answer to a request. -/
inductive Abort where
  | overflow (error : Overflow)
  | unsorted (error : Disorder)
  deriving DecidableEq, Repr, Inhabited

namespace Response

def empty (status : Nat) : Response := ⟨status, ""⟩

def ofJson (status : Nat) (value : Json) : Response := ⟨status, value.render⟩

def ofFailure (failure : Failure) : Response := ofJson failure.status failure.body

/-- Answers with an envelope under the given status, or with the failure under its own. -/
def ofResult (status : Nat) : Except RequestError Envelope → Except Abort Response
  | .ok envelope => .ok (ofJson status envelope.json)
  | .error (.failed failure) => .ok (ofFailure failure)
  | .error (.overflow error) => .error (.overflow error)
  | .error (.unsorted error) => .error (.unsorted error)

end Response

/-! ## Routes -/

/-- What is found under a path. -/
inductive Endpoint where
  | page (text : String)
  | health
  | collection
  | item
  deriving DecidableEq, Repr, Inhabited

/-- Where a target leads; segments are as they were sent. -/
inductive Route where
  | page (text : String)
  | health
  | collection (resource : List Char)
  | item (resource id : List Char)
  deriving DecidableEq, Repr, Inhabited

def endpoints (pages : List (String × String)) : Patterns Endpoint :=
  [ (Pattern.ofText "/health", .health),
    (Pattern.ofText "/healthz", .health),
    ([.char '/', .segment], .collection),
    ([.char '/', .segment, .char '/', .segment], .item) ] ++
  pages.map fun page => (Pattern.ofText page.1, .page page.2)

def route? (pages : List (String × String)) (target : Target) : Option Route :=
  match (endpoints pages).find? target.path with
  | some (.page text, _) => some (.page text)
  | some (.health, _) => some .health
  | some (.collection, [resource]) => some (.collection resource)
  | some (.item, [resource, id]) => some (.item resource id)
  | _ => none

/-! ## Answers -/

def healthBody : Json := .object [("status", .string "ok"), ("service", .string "unfold-rs")]

/-- Resolves the escapes of a segment, or says that they make no text. -/
def decodeSegment (place : String) (segment : List Char) : Except Response String :=
  match Text.Percent.decode? segment with
  | some text => .ok (String.ofList text)
  | none => .error ⟨400, "Invalid URL: Invalid UTF-8 in `" ++ place ++ "`"⟩

/-- The record in the body of a request. -/
def readRecord (request : Request) : Except Failure Record :=
  if !(request.contentTypes.head?.any MediaType.isJson) then
    .error (.invalidBody "Expected request with `Content-Type: application/json`")
  else
    match Json.read? request.body with
    | none => .error (.invalidBody "Failed to parse the request body as JSON: ...")
    | some (.object members) => .ok members
    | some _ => .error (.invalidBody "expected a JSON object")

namespace Server

variable {σ : Type}

def answerList (server : Server σ) (state : σ) (request : Request) (resource : List Char) :
    Except Abort Response :=
  match decodeSegment "resource" resource with
  | .error response => .ok response
  | .ok resource =>
    Response.ofResult 200 (server.api.list state resource request.target.parameters)

def answerItem (server : Server σ) (state : σ) (request : Request) (resource id : List Char) :
    Except Abort Response :=
  match decodeSegment "resource" resource, decodeSegment "id" id with
  | .error response, _ => .ok response
  | _, .error response => .ok response
  | .ok resource, .ok id =>
    match Uuid.ofText? id with
    | none => .ok (Response.ofFailure (.invalidId id))
    | some uuid =>
      Response.ofResult 200 (server.api.get state resource uuid request.target.parameters)

def answerGet (server : Server σ) (state : σ) (request : Request) :
    Route → Except Abort Response
  | .page text => .ok ⟨200, text⟩
  | .health => .ok (Response.ofJson 200 healthBody)
  | .collection resource => server.answerList state request resource
  | .item resource id => server.answerItem state request resource id

/-- Adds the record in the body to a collection.  The body is checked before the resource. -/
def answerPost (server : Server σ) (state : σ) (id : Uuid) (now : String) (request : Request)
    (resource : List Char) : Except Abort Response × σ :=
  match decodeSegment "resource" resource, readRecord request with
  | .error response, _ => (.ok response, state)
  | _, .error failure => (.ok (Response.ofFailure failure), state)
  | .ok resource, .ok record =>
    let (result, changed) :=
      server.api.create state id now resource record request.target.parameters
    (Response.ofResult 201 result, changed)

/-- Answers a request that arrives at the time `now`.  A record that it adds gets the given
identifier. -/
def respond (server : Server σ) (state : σ) (id : Uuid) (now : String) (request : Request) :
    Except Abort Response × σ :=
  if request.method = "OPTIONS" then (.ok (Response.empty 200), state)
  else
    match route? server.pages request.target with
    | none => (.ok (Response.empty 404), state)
    | some route =>
      match request.method, route with
      | "GET", _ => (server.answerGet state request route, state)
      | "HEAD", _ =>
        ((server.answerGet state request route).map fun response => Response.empty response.status,
          state)
      | "POST", .collection resource => server.answerPost state id now request resource
      | _, _ => (.ok (Response.empty 405), state)

end Server

end RelationExpansion.Http
