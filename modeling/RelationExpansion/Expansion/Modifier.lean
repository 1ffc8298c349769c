import RelationExpansion.Expansion.Selection
import RelationExpansion.Json.Reader
import RelationExpansion.Text.Percent

/-! # Modifiers

A modifier such as `per_page(5)` or `sort(name|desc)` adjusts a selection.  Text that is no modifier
gives none.  `Selection.ofModifiers` starts from the standard selection and applies modifiers from
left to right: the last page size, page number and filter decide, while sorts add up.
-/

namespace RelationExpansion

/-- A filter is JSON text, as it stands or percent-escaped; text that is neither is no filter. -/
def Filter.ofText? (text : List Char) : Option Json :=
  match Text.trim text with
  | [] => none
  | blob =>
    match Json.ofChars? blob with
    | some value => some value
    | none => (Text.Percent.decode? blob).bind Json.ofChars?

inductive Modifier where
  | page (number : Nat)
  | perPage (size : Nat)
  | sort (spec : SortSpec)
  | filter (value : Json)
  deriving Inhabited

namespace Modifier

/-- Pages are counted from one; page zero is the first. -/
def ofCall? (name arguments : List Char) : Option Modifier :=
  if name = "page".toList then
    (Count.ofText? (String.ofList arguments)).map fun number => .page (max number 1)
  else if name = "per_page".toList ∨ name = "limit".toList then
    (Count.ofText? (String.ofList arguments)).map .perPage
  else if name = "sort".toList then some (.sort (SortSpec.ofText (String.ofList arguments)))
  else if name = "filter".toList then (Filter.ofText? arguments).map .filter
  else none

/-- A name, an opening parenthesis, arguments, and a closing parenthesis at the very end. -/
def ofText? (text : String) : Option Modifier := do
  let (name, rest) ← Text.cutAt? '(' (Text.trim text.toList)
  let arguments ← Text.dropEnd? [')'] rest
  ofCall? (Text.trim name) arguments

end Modifier

namespace Selection

/-- Adjusts a selection and the page number that goes with it. -/
def adjust (limits : Limits) (current : Selection × Nat) : Modifier → Selection × Nat
  | .perPage size => ({ current.1 with limit := limits.clamp size }, current.2)
  | .page number => (current.1, max number 1)
  | .sort spec =>
    let sorted := (current.1.sort.getD OrderedMap.empty).insertMany spec.entries
    ({ current.1 with sort := some sorted }, current.2)
  | .filter value => ({ current.1 with filter := some value }, current.2)

/-- Modifiers in turn, over the standard selection.  The page number becomes a number of records to
skip once the page size is known; it stops at the largest count. -/
def ofModifiers (limits : Limits) (modifiers : List Modifier) : Selection :=
  let (selection, page) := modifiers.foldl (adjust limits) (standard limits, 1)
  { selection with skip := Count.mulSaturating selection.limit (page - 1) }

end Selection

end RelationExpansion
