import RelationExpansion.Schema.Registry

/-! # Views

A view is one level of a schema: the relations declared there, and how many relations may still
follow one another.  Views are reached by name through the registry, so resources may refer to each
other without end.
-/

namespace RelationExpansion

structure View where
  registry : Registry
  relations : List (String × RelationDecl)
  depth : Nat
  deriving Inhabited

namespace Registry

/-- The level that a resource declares. -/
def view? (registry : Registry) (name : String) : Option View :=
  (registry.resource? name).map fun resource =>
    ⟨registry, resource.relations, (registry.depthOf? resource).getD 0⟩

/-- The relations below a declaration: none at a leaf, else those of the resource that it refers
to, else its own. -/
def relationsBelow? (registry : Registry) (relation : RelationDecl) :
    Option (List (String × RelationDecl)) :=
  if relation.isLeaf then none
  else
    match relation.resource with
    | some target => (registry.resource? target).map (·.relations)
    | none => some relation.relations

end Registry

namespace View

def relationNames (view : View) : List String := Assoc.keys view.relations

def relation? (view : View) (name : String) : Option RelationDecl := Assoc.get? name view.relations

/-- The next level below a relation. -/
def children? (view : View) (name : String) : Option View := do
  let relation ← view.relation? name
  let relations ← view.registry.relationsBelow? relation
  pure { view with relations := relations, depth := view.depth - 1 }

/-- The declaration that a path of relation names leads to; the empty path leads to none. -/
def relationAt? (view : View) : List String → Option RelationDecl
  | [] => none
  | [name] => view.relation? name
  | name :: next :: rest => (view.children? name).bind fun child => child.relationAt? (next :: rest)

/-- The view that a path of relation names leads to. -/
def descend? (view : View) : List String → Option View
  | [] => some view
  | name :: rest => (view.children? name).bind fun child => child.descend? rest

def declares (view : View) (path : List String) : Bool := (view.relationAt? path).isSome

def routeTemplate? (view : View) (path : List String) : Option String :=
  (view.relationAt? path).bind (·.route)

end View

end RelationExpansion
