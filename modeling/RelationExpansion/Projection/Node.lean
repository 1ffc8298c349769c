import RelationExpansion.Expansion.Selection
import RelationExpansion.Json.Printer
import RelationExpansion.Text.Cut

/-! # Nodes

A relation is rendered as a node.  A collapsed node tells where the related records are found and
how many there are; an expanded one tells which page of them it holds, and holds it.
-/

namespace RelationExpansion

/-- Writes identifiers into the places of a route, the parent's first; one that is missing leaves
nothing. -/
def expandRoute (template : String) (parent item : Option String) : String :=
  let withParent :=
    Text.replaceAll ":parentId".toList (parent.getD "").toList template.toList
  String.ofList (Text.replaceAll ":itemId".toList (item.getD "").toList withParent)

namespace SortSpec

def json (spec : SortSpec) : Json :=
  .object (spec.entries.map fun entry => (entry.1, .string entry.2.name))

end SortSpec

/-- What a response tells about a page: its place in the collection and its order. -/
structure Paginator where
  totalEntries : Nat
  totalPages : Nat
  page : Nat
  perPage : Nat
  sort : Option SortSpec

namespace Paginator

def ofSelection (total : Nat) (selection : Selection) : Except Overflow Paginator := do
  let page ← selection.page
  pure {
    totalEntries := total
    totalPages := Count.ceilDiv total selection.perPage
    page := page
    perPage := selection.perPage
    sort := selection.sort }

def json (paginator : Paginator) : Json :=
  .object <|
    [("totalEntries", .ofNat paginator.totalEntries), ("totalPages", .ofNat paginator.totalPages),
      ("page", .ofNat paginator.page), ("perPage", .ofNat paginator.perPage)] ++
    (paginator.sort.map fun spec => ("sort", spec.json)).toList

end Paginator

inductive Node where
  | collapsed (url : String) (count : Nat)
  | expanded (url : String) (paginator : Paginator) (data : Json)

namespace Node

def metaJson : Node → Json
  | .collapsed url count => .object [("url", .string url), ("count", .ofNat count)]
  | .expanded url paginator _ => .object [("url", .string url), ("paginator", paginator.json)]

def json (node : Node) : Json :=
  match node with
  | .collapsed _ _ => .object [("meta", node.metaJson)]
  | .expanded _ _ data => .object [("meta", node.metaJson), ("data", data)]

end Node

end RelationExpansion
