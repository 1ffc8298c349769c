import RelationExpansion.Json.Printer
import RelationExpansion.Schema.Registry

/-! # Failures

What makes a request fail, and how each cause is answered: a status, a code for programs, a message
for people, and for some causes details.
-/

namespace RelationExpansion

/-- Why a configuration cannot be used. -/
inductive ConfigError where
  | unreadable (message : String)
  | schema (error : SchemaError)
  | inaccessible (message : String)
  deriving DecidableEq, Repr, Inhabited

namespace ConfigError

def message : ConfigError → String
  | .unreadable message => "Failed to parse config: " ++ message
  | .schema error => error.message
  | .inaccessible message => "IO error: " ++ message

end ConfigError

/-- Why related records could not be attached. -/
inductive PopulateError where
  | unknownRelation (kind relation : String)
  | timeout (millis : Nat)
  | backend (message : String)
  deriving DecidableEq, Repr, Inhabited

inductive Failure where
  | notFound (resource id : String)
  | unknownResource (resource : String)
  | populate (error : PopulateError)
  | config (error : ConfigError)
  | invalidId (id : String)
  | invalidBody (message : String)
  | internal (message : String)
  deriving DecidableEq, Repr, Inhabited

namespace PopulateError

def message : PopulateError → String
  | .unknownRelation kind relation =>
    "Relation '" ++ relation ++ "' is not defined for " ++ kind
  | .timeout millis => "Population timed out after " ++ toString millis ++ "ms"
  | .backend message => "Population failed: " ++ message

end PopulateError

namespace Failure

def status : Failure → Nat
  | .notFound _ _ | .unknownResource _ => 404
  | .invalidId _ | .invalidBody _ => 400
  | .populate (.timeout _) => 504
  | .populate _ | .config _ | .internal _ => 500

def code : Failure → String
  | .notFound _ _ => "RESOURCE_NOT_FOUND"
  | .unknownResource _ => "UNKNOWN_RESOURCE"
  | .populate (.unknownRelation _ _) => "UNKNOWN_RELATION"
  | .populate (.timeout _) => "POPULATE_TIMEOUT"
  | .populate (.backend _) => "POPULATE_FAILED"
  | .config _ => "CONFIG_ERROR"
  | .invalidId _ => "INVALID_ENTITY_ID"
  | .invalidBody _ => "INVALID_BODY"
  | .internal _ => "INTERNAL_ERROR"

def message : Failure → String
  | .notFound resource id => resource ++ " with id '" ++ id ++ "' not found"
  | .unknownResource resource => "Unknown resource: " ++ resource
  | .populate error => error.message
  | .config error => error.message
  | .invalidId id => "Invalid entity ID format: '" ++ id ++ "'"
  | .invalidBody message => "Invalid request body: " ++ message
  | .internal message => "Internal error: " ++ message

/-- The message of the cause, where the failure has one of its own kind. -/
def cause? : Failure → Option String
  | .internal _ => none
  | failure => some failure.message

def details? : Failure → Option Json
  | .notFound resource id => some (.object [("resource", .string resource), ("id", .string id)])
  | .populate (.unknownRelation kind relation) =>
    some (.object [("resource", .string kind), ("relation", .string relation)])
  | _ => none

/-- The body of the response. -/
def body (failure : Failure) : Json :=
  .object <|
    [("code", .string failure.code), ("message", .string failure.message)] ++
    (failure.details?.map fun details => ("details", details)).toList

end Failure

end RelationExpansion
