import RelationExpansion.Expansion.ExpansionSet
import RelationExpansion.Expansion.Modifier
import RelationExpansion.Schema.View

/-! # Include directives

A directive such as `tags.articles:per_page(5):sort(name)` asks for a path of relations and adjusts
the selection of the last one.  Directives that name no declared path, or one that is deeper than
the schema allows, are passed over, and so are modifiers that mean nothing.

`ExpansionSet.ofDirectives` gives every accepted path the selection of its last directive.  The
paths above an accepted one are expanded too, with the standard selection unless they were asked
for themselves.
-/

namespace RelationExpansion

structure Directive where
  segments : List String
  modifiers : List Modifier
  deriving Inhabited

namespace Directive

/-- The directives in the value of an include parameter; repetitions of one text are dropped. -/
def splitList (text : String) : List String := (Text.pieces ',' text).eraseDups

def readSegments (path : String) : List String :=
  (Text.cutEvery '.' path.toList).map fun segment => String.ofList (Text.trim segment)

/-- Reads a directive; there is none if a segment of its path is blank. -/
def ofText? (text : String) : Option Directive :=
  match Text.pieces ':' text with
  | [] => none
  | path :: modifiers =>
    let segments := readSegments path
    if segments.contains "" then none
    else some ⟨segments, modifiers.filterMap Modifier.ofText?⟩

/-- Whether a schema declares the path and is deep enough for it. -/
def isAccepted (view : View) (directive : Directive) : Bool :=
  directive.segments.length ≤ view.depth && view.declares directive.segments

def path (directive : Directive) : Path := Path.ofSegments directive.segments

def accepted (view : View) (texts : List String) : List Directive :=
  (texts.filterMap ofText?).filter (isAccepted view)

end Directive

namespace ExpansionSet

/-- Adds what lies above the paths of a set, where it is not there yet. -/
def addAncestors (limits : Limits) (set : ExpansionSet) : ExpansionSet :=
  (set.keys.flatMap Path.ancestors).foldl
    (fun grown path => grown.insertIfNew path (Selection.standard limits)) set

def ofDirectives (view : View) (limits : Limits) (texts : List String) : ExpansionSet :=
  let asked := (Directive.accepted view texts).map fun directive =>
    (directive.path, Selection.ofModifiers limits directive.modifiers)
  addAncestors limits (OrderedMap.ofList asked)

end ExpansionSet

end RelationExpansion
