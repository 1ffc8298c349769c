import RelationExpansion.Json.Printer

/-! # Entities

An entity is anything that can be rendered in a response: its wire form, the identifier by which
routes refer to it, and the records it is related to.  A plain entity has no relations that could
be expanded and is rendered as it stands.
-/

namespace RelationExpansion

mutual
inductive Entity where
  | plain (identifier : Option String) (wire : Json)
  | record (identifier : Option String) (wire : Json) (relations : List (String × Related))

/-- What a relation of an entity leads to.  `total` is the size of the whole relation where
`items` is only one page of it. -/
inductive Related where
  | many (items : List Entity) (total : Option Nat)
  | one (item : Entity)
  | absent
end

instance : Inhabited Entity := ⟨.plain none .null⟩

instance : Inhabited Related := ⟨.absent⟩

namespace Entity

def identifier : Entity → Option String
  | .plain identifier _ => identifier
  | .record identifier _ _ => identifier

def wire : Entity → Json
  | .plain _ wire => wire
  | .record _ wire _ => wire

end Entity

namespace Related

/-- The number of related records. -/
def totalCount : Related → Nat
  | .many items total => total.getD items.length
  | .one _ => 1
  | .absent => 0

/-- The identifier of the one related record. -/
def itemIdentifier : Related → Option String
  | .one item => item.identifier
  | _ => none

end Related

namespace Json

mutual
/-- A string or number is a reference and identifies itself; an object is identified by its `id`
member. -/
def identifier? : Json → Option String
  | .string text => some text
  | .number value => some (String.ofList (numberChars value))
  | .object members => identifierIn? members
  | _ => none

def identifierIn? : List (String × Json) → Option String
  | [] => none
  | (name, value) :: rest => if name = "id" then identifier? value else identifierIn? rest
end

/-- JSON data is a plain entity. -/
def entity (value : Json) : Entity := .plain value.identifier? value

end Json

end RelationExpansion
