import RelationExpansion.OrderedMap
import RelationExpansion.Text.Cut
import RelationExpansion.Text.Pieces

/-! # Sort expressions

A sort expression such as `id|desc,name` is a list of tokens, each a field and perhaps a direction.
It is read into an ordered map from fields to directions: a field that comes again keeps its place
and takes the later direction.
-/

namespace RelationExpansion

inductive Direction where
  | ascending
  | descending
  deriving DecidableEq, Repr, Inhabited

namespace Direction

def name : Direction → String
  | .ascending => "asc"
  | .descending => "desc"

/-- `desc` and `-1` mean descending, in any case and with blanks around them; all else ascending. -/
def ofToken (token : List Char) : Direction :=
  let word := (Text.trim token).map Char.toLower
  if word = "desc".toList ∨ word = "-1".toList then .descending else .ascending

end Direction

/-- Fields in order of importance, each with its direction. -/
abbrev SortSpec := OrderedMap String Direction

namespace SortSpec

/-- The field and the direction of a token; nothing if the field is blank. -/
def ofToken? (token : List Char) : Option (String × Direction) :=
  let (field, direction) :=
    match Text.cutAt? '|' token with
    | some (field, raw) => (field, Direction.ofToken raw)
    | none => (token, Direction.ascending)
  match Text.trim field with
  | [] => none
  | name => some (String.ofList name, direction)

def ofTokens (tokens : List String) : SortSpec :=
  OrderedMap.ofList (tokens.filterMap fun token => ofToken? token.toList)

def ofText (text : String) : SortSpec := ofTokens (Text.pieces ',' text)

end SortSpec

end RelationExpansion
