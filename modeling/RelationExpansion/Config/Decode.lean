import RelationExpansion.Config.Config
import RelationExpansion.Config.Reading
import RelationExpansion.Request.Query

/-! # Reading and writing configurations

Configurations, their declarations and queries are structures.  In JSON they have no shared data.
Mappings may stand in each other 128 deep.
-/

namespace RelationExpansion

namespace Datum

/-! ## Configurations -/

def readLimits (datum : Datum) : Reading Limits := do
  match ← datum.readStructure [["default_limit"], ["max_limit"]] with
  | [defaultLimit, maxLimit] =>
    pure {
      defaultLimit := ← withDefault 20 readCount defaultLimit
      maxLimit := ← withDefault 100 readCount maxLimit }
  | _ => Reading.fail

/-- A relation in which there may be so many relations in each other.  Within no more than that, it
can only be blank. -/
def readRelationWithin : Nat → Datum → Reading DistinctRelation
  | 0, datum => do
    match ← datum.resolved with
    | .scalar value => if value.isBlank then pure ⟨⟨none, none, []⟩, trivial⟩ else Reading.fail
    | _ => Reading.fail
  | levels + 1, datum => do
    match ← datum.readStructure [["route"], ["resource"], ["relations"]] with
    | [route, resource, relations] =>
      let route ← withDefault none (readOptional readText) route
      let resource ← withDefault none (readOptional readText) resource
      let relations ← withDefault .empty (readEntries (readRelationWithin levels)) relations
      pure ⟨⟨route, resource, levelOf relations⟩, distinctNames_levelOf relations⟩
    | _ => Reading.fail

/-- A relation.  There are four mappings around it, and each level of relations has two. -/
def readRelation (datum : Datum) : Reading DistinctRelation := readRelationWithin 62 datum

def readResource (datum : Datum) : Reading ResourceDecl := do
  match ← datum.readStructure [["name"], ["url"], ["depth"], ["relations"]] with
  | [name, url, depth, relations] =>
    let name ← withDefault "" readText name
    let url ← withDefault none (readOptional readText) url
    let depth ← withDefault none (readOptional readCount) depth
    let relations ← withDefault .empty (readEntries readRelation) relations
    pure ⟨name, url, depth, levelOf relations, distinctNames_levelOf relations⟩
  | _ => Reading.fail

def readConfig (datum : Datum) : Reading Config := do
  match ← datum.readStructure [["pagination"], ["gateway_timeout_ms"], ["resources"]] with
  | [limits, budget, resources] =>
    let limits ← withDefault {} readLimits limits
    let budget ← withDefault none (readOptional readCount) budget
    let resources ← withDefault .empty (readEntries readResource) resources
    pure ⟨limits, budget, resources⟩
  | _ => Reading.fail

/-! ## Queries -/

def readQuery (datum : Datum) : Reading Query := do
  let fields := [["page"], ["per_page", "limit"], ["sort"], ["filter"], ["include"]]
  let given ← datum.readStructure fields
  match ← given.mapM (withDefault none (readOptional readText)) with
  | [page, perPage, sort, filter, expand] => pure ⟨page, perPage, sort, filter, expand⟩
  | _ => Reading.fail

end Datum

/-! ## JSON and YAML -/

namespace Reading

variable {α : Type}

def ofJson? (read : Datum → Reading α) (value : Json) : Option α :=
  (read (Datum.ofJson value)).run? [] 0

/-- How often references may be followed for each part of a text. -/
def referencesPerPart : Nat := 100

/-- Reads a text in YAML.  Of the anchored nodes with one number, the last one is shared. -/
def ofYaml? (read : Datum → Reading α) (text : String) : Option α := do
  let node ← Yaml.Node.ofText? text
  let shared := Assoc.ofList (node.anchors.map fun anchor => (anchor.1, Datum.ofYaml anchor.2))
  (read (Datum.ofYaml node)).run? shared (referencesPerPart * node.size)

end Reading

def Limits.ofJson? (value : Json) : Option Limits := Reading.ofJson? Datum.readLimits value

def ResourceDecl.ofJson? (value : Json) : Option ResourceDecl :=
  Reading.ofJson? Datum.readResource value

def Query.ofJson? (value : Json) : Option Query := Reading.ofJson? Datum.readQuery value

namespace Config

def ofJson? (value : Json) : Option Config := Reading.ofJson? Datum.readConfig value

def ofYaml? (text : String) : Option Config := Reading.ofYaml? Datum.readConfig text

end Config

/-! ## Writing configurations -/

mutual
/-- A relation without the fields that are not given. -/
def RelationDecl.json : RelationDecl → Json
  | ⟨route, resource, relations⟩ =>
    .object <|
      (route.map fun text => ("route", Json.string text)).toList ++
      (resource.map fun text => ("resource", Json.string text)).toList ++
      (match relations with
        | [] => []
        | first :: rest => [("relations", .object (relationMembers (first :: rest)))])

def relationMembers : List (String × RelationDecl) → List (String × Json)
  | [] => []
  | (name, relation) :: rest => (name, relation.json) :: relationMembers rest
end

def ResourceDecl.json (resource : ResourceDecl) : Json :=
  .object <|
    ("name", .string resource.name) ::
    (resource.url.map fun text => ("url", Json.string text)).toList ++
    (resource.depth.map fun depth => ("depth", Json.ofNat depth)).toList ++
    [("relations", .object (relationMembers resource.relations))]

def Limits.json (limits : Limits) : Json :=
  .object [("default_limit", .ofNat limits.defaultLimit), ("max_limit", .ofNat limits.maxLimit)]

namespace Config

def json (config : Config) : Json :=
  .object <|
    ("pagination", config.limits.json) ::
    (config.gatewayBudget.map fun millis => ("gateway_timeout_ms", Json.ofNat millis)).toList ++
    [("resources", .object
      (config.resources.entries.map fun entry => (entry.1, entry.2.json)))]

end Config

end RelationExpansion
