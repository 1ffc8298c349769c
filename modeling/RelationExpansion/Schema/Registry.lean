import RelationExpansion.Schema.Declaration

/-! # Registries

A registry is a map of resource declarations that has been checked: relation names are plain
identifiers, references lead to declared resources, and every resource has a depth.

The depth of a resource is the length of the longest chain of relations below it, or the declared
depth if that is smaller.  A chain that comes back to a resource that it has gone through can be
continued for ever; a resource with such a chain has only the depth that it declares.
-/

namespace RelationExpansion

inductive SchemaError where
  | unknownReference (resource relation target : String)
  | invalidRelationName (resource relation : String)
  | unboundedDepth (resource : String)
  deriving DecidableEq, Repr, Inhabited

namespace SchemaError

def message : SchemaError → String
  | .unknownReference resource relation target =>
    "Relation '" ++ relation ++ "' of '" ++ resource ++ "' references unknown resource '" ++
      target ++ "'"
  | .invalidRelationName resource relation =>
    "Invalid relation name '" ++ relation ++ "' in '" ++ resource ++ "'"
  | .unboundedDepth resource =>
    "Schema '" ++ resource ++ "' is cyclic and must declare an explicit depth"

end SchemaError

structure Registry where
  resources : OrderedMap String ResourceDecl

namespace Registry

def empty : Registry := ⟨OrderedMap.empty⟩

instance : Inhabited Registry := ⟨empty⟩

/-- Keys the declarations by name; of several with one name the last is kept. -/
def collect (declarations : List ResourceDecl) : Registry :=
  ⟨OrderedMap.ofList (declarations.map fun resource => (resource.name, resource))⟩

def resource? (registry : Registry) (name : String) : Option ResourceDecl :=
  registry.resources.get? name

def names (registry : Registry) : List String := registry.resources.keys

/-! ## Checking relations -/

/-- Checks the name of a relation, and then what it refers to. -/
def checkDeclared (registry : Registry) (owner name : String) (target : Option String) :
    Except SchemaError Unit :=
  if !isPlainIdentifier name then .error (.invalidRelationName owner name)
  else
    match target with
    | none => .ok ()
    | some target =>
      if registry.resources.contains target then .ok ()
      else .error (.unknownReference owner name target)

mutual
def checkRelation (registry : Registry) (owner name : String) :
    RelationDecl → Except SchemaError Unit
  | ⟨_, target, inner⟩ => do
    registry.checkDeclared owner name target
    checkRelations registry owner inner
termination_by structural relation => relation

/-- Checks relations in order, each before the ones inside it and those before the next. -/
def checkRelations (registry : Registry) (owner : String) :
    List (String × RelationDecl) → Except SchemaError Unit
  | [] => .ok ()
  | (name, relation) :: rest => do
    checkRelation registry owner name relation
    checkRelations registry owner rest
termination_by structural relations => relations
end

/-! ## Depth -/

/-- The resources that a walk has not gone through yet. -/
def unvisited (registry : Registry) (visited : List String) : List String :=
  registry.names.filter (· ∉ visited)

theorem unvisited_lt {registry : Registry} {visited : List String} {target : String}
    {resource : ResourceDecl} (fresh : target ∉ visited)
    (found : registry.resource? target = some resource) :
    (registry.unvisited (target :: visited)).length < (registry.unvisited visited).length := by
  have known : target ∈ registry.names := by
    apply OrderedMap.contains_iff_mem_keys.1
    exact Option.isSome_of_eq_some found
  have split : registry.unvisited (target :: visited) =
      (registry.unvisited visited).filter (· ≠ target) := by
    simp [unvisited, List.filter_filter]
  rw [split]
  refine List.length_filter_lt_length_iff_exists.2 ⟨target, ?_, by simp⟩
  simp [unvisited, known, fresh]

mutual
/-- The length of the longest chain of relations that starts with one relation. -/
def chain? (registry : Registry) (visited : List String) : RelationDecl → Option Nat
  | ⟨_, none, inner⟩ => (height? registry visited inner).map (· + 1)
  | ⟨_, some target, _⟩ =>
    if _fresh : target ∈ visited then none
    else
      match _found : registry.resource? target with
      | none => none
      | some resource => (height? registry (target :: visited) resource.relations).map (· + 1)
termination_by relation => ((registry.unvisited visited).length, sizeOf relation)
decreasing_by
  · exact .right _ (by decreasing_tactic)
  · exact .left _ _ (unvisited_lt _fresh _found)

/-- The length of the longest chain of relations; nothing if some chain comes back to a resource
that was visited before, or leads to one that is not there. -/
def height? (registry : Registry) (visited : List String) :
    List (String × RelationDecl) → Option Nat
  | [] => some 0
  | (_, relation) :: rest => do
    let longest ← chain? registry visited relation
    let others ← height? registry visited rest
    pure (max longest others)
termination_by relations => ((registry.unvisited visited).length, sizeOf relations)
end

/-- How many relations may follow one another below a resource. -/
def depthOf? (registry : Registry) (resource : ResourceDecl) : Option Nat :=
  match registry.height? [resource.name] resource.relations, resource.depth with
  | some height, some cap => some (min height cap)
  | some height, none => some height
  | none, cap => cap

def checkDepth (registry : Registry) (resource : ResourceDecl) : Except SchemaError Unit :=
  match registry.depthOf? resource with
  | some _ => .ok ()
  | none => .error (.unboundedDepth resource.name)

/-! ## Building -/

/-- Checks the relations of all resources before the depth of any. -/
def build (declarations : List ResourceDecl) : Except SchemaError Registry := do
  let registry := collect declarations
  let resources := registry.resources.entries.map Prod.snd
  resources.forM fun resource => checkRelations registry resource.name resource.relations
  resources.forM (checkDepth registry)
  pure registry

end Registry

end RelationExpansion
