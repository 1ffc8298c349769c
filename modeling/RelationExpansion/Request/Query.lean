import RelationExpansion.Expansion.Directive

/-! # Queries

The parameters of a request, all of them optional texts.  A page or page size that is no count and a
filter that is none are passed over.
-/

namespace RelationExpansion

structure Query where
  page : Option String := none
  perPage : Option String := none
  sort : Option String := none
  filter : Option String := none
  expand : Option String := none
  deriving DecidableEq, Repr, Inhabited

namespace Query

/-- The include directives, without repetitions. -/
def directives (query : Query) : List String :=
  match query.expand with
  | some text => Directive.splitList text
  | none => []

/-- The parameters of the root collection as modifiers. -/
def modifiers (query : Query) : List Modifier :=
  ((query.perPage.bind Count.ofText?).map Modifier.perPage).toList ++
  ((query.page.bind Count.ofText?).map Modifier.page).toList ++
  (query.sort.map fun text => Modifier.sort (SortSpec.ofText text)).toList ++
  ((query.filter.bind fun text => Filter.ofText? text.toList).map Modifier.filter).toList

/-- The selection of the root collection, by the same rules as for a relation. -/
def rootSelection (query : Query) (limits : Limits) : Selection :=
  Selection.ofModifiers limits query.modifiers

end Query

end RelationExpansion
