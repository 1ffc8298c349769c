import RelationExpansion.Projection.Projection

/-! # Envelopes

A response is an envelope: what it is about, and the projected data.  Relations are expanded below
the root as deep as the schema goes, so the ceiling for the stack is one less than its depth.
-/

namespace RelationExpansion

/-- The URL of one item of a collection. -/
def itemUrl (collectionUrl id : String) : String :=
  let base := (collectionUrl.toList.reverse.dropWhile (· = '/')).reverse
  String.ofList base ++ "/" ++ id

/-- What a request found: one entity or none, or a page of a collection.  Without a selection the
collection is not paginated. -/
inductive RootResult where
  | single (entity : Option Entity)
  | collection (entities : List Entity) (total : Nat) (selection : Option Selection)

structure Envelope where
  url : String
  paginator : Option Paginator
  data : Json

namespace Envelope

def json (envelope : Envelope) : Json :=
  .object [
    ("meta", .object (("url", .string envelope.url) ::
      (envelope.paginator.map fun paginator => ("paginator", paginator.json)).toList)),
    ("data", envelope.data)]

def build (root : RootResult) (url : String) (set : ExpansionSet) (schema : Option View) :
    Except Overflow Envelope := do
  let projector : Projector := {
    set := set
    ceiling := schema.map (·.depth - 1)
    schema := schema }
  match root with
  | .single none => pure ⟨url, none, .null⟩
  | .single (some entity) => pure ⟨url, none, ← projectEntity projector entity⟩
  | .collection entities total selection =>
    let data ← projectAll projector entities
    let paginator ← selection.mapM (Paginator.ofSelection total)
    pure ⟨url, paginator, data⟩

end Envelope

end RelationExpansion
