import RelationExpansion.Text.Cut

/-! # Media types

A media type is a type, a subtype, perhaps a suffix after the last plus sign of the subtype, and
parameters.  `isJson` holds for `application` types whose subtype or suffix is `json`, in any case.
-/

namespace RelationExpansion.Http

namespace MediaType

def isTokenChar (c : Char) : Bool :=
  c.isAlphanum || "!#$%&'*+-.^_`|~".toList.contains c

/-- What may stand in a quoted parameter; a quote only at its start. -/
def isQuotedChar (c : Char) : Bool := ' ' ≤ c && c ≤ '~'

/-- What has been read of a list of parameters. -/
inductive ParameterScan where
  | name (started : Bool)
  | value (started : Bool)
  | quoted (started : Bool)
  | afterQuoted
  deriving DecidableEq, Repr, Inhabited

namespace ParameterScan

/-- One more character of a list of parameters; nothing if it cannot stand there. -/
def step? : ParameterScan → Char → Option ParameterScan
  | .name started, c =>
    if c = ' ' ∧ !started then some (.name false)
    else if isTokenChar c then some (.name true)
    else if c = '=' ∧ started then some (.value false)
    else none
  | .value started, c =>
    if c = '"' ∧ !started then some (.quoted false)
    else if isTokenChar c then some (.value true)
    else if c = ';' ∧ started then some (.name false)
    else none
  | .quoted started, c =>
    if c = '"' ∧ started then some .afterQuoted
    else if isQuotedChar c then some (.quoted true)
    else none
  | .afterQuoted, c =>
    if c = ';' then some (.name false)
    else if c = ' ' then some .afterQuoted
    else none

/-- Whether a list of parameters may end here. -/
def mayEnd : ParameterScan → Bool
  | .name started => !started
  | .value _ => true
  | .quoted _ => false
  | .afterQuoted => true

end ParameterScan

def validParameters (text : List Char) : Bool :=
  match text.foldlM ParameterScan.step? (.name false) with
  | some scan => scan.mayEnd
  | none => false

/-- The part of a subtype before its last plus sign, and what follows that sign.  A plus sign at
the start marks no suffix. -/
def splitSuffix (subtype : List Char) : List Char × Option (List Char) :=
  let suffix := (subtype.reverse.takeWhile (· ≠ '+')).reverse
  let base := subtype.take (subtype.length - suffix.length - 1)
  if subtype.contains '+' ∧ base ≠ [] then (base, some suffix) else (subtype, none)

def isJson (text : String) : Bool :=
  match Text.cutAt? '/' text.toList with
  | none => false
  | some (type, rest) =>
    let subtype := rest.takeWhile (· ≠ ';')
    let parameters := (rest.dropWhile (· ≠ ';')).drop 1
    let lower (word : List Char) : String := String.ofList (word.map Char.toLower)
    let (base, suffix) := splitSuffix subtype
    type.all isTokenChar && subtype.all isTokenChar && validParameters parameters &&
      (subtype ≠ [] || !rest.contains ';') &&
      lower type = "application" && (lower base = "json" || suffix.map lower = some "json")

end MediaType

end RelationExpansion.Http
