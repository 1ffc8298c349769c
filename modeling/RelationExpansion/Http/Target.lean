import RelationExpansion.Http.Authority
import RelationExpansion.Request.Query
import RelationExpansion.Text.Percent

/-! # Request targets

A target is a path and perhaps a query, as they are sent.  A fragment is no part of it.  It is
written as a path, as an address with a scheme and an authority before the path, as an authority
alone, whose path is empty, or as an asterisk.

The query holds the fields of a form; where a field that means something is given twice, under
whichever of its names, the query as a whole counts as empty.
-/

namespace RelationExpansion.Http

structure Target where
  path : List Char
  query : Option (List Char)
  deriving DecidableEq, Repr, Inhabited

namespace Target

/-- The characters that may stand in a path.  Quotes, braces and all characters beyond ASCII should
be escaped but are taken. -/
def isPathChar (c : Char) : Bool :=
  c = '!' || ('$' ≤ c && c ≤ ';') || c = '=' || ('@' ≤ c && c ≤ '_') || ('a' ≤ c && c ≤ '~') ||
    c = '"' || '\x80' ≤ c

def isQueryChar (c : Char) : Bool :=
  c = '!' || ('$' ≤ c && c ≤ ';') || c = '=' || ('?' ≤ c && c ≤ '~') || '\x80' ≤ c

/-- Splits a path and a query; there are none if other characters stand in them. -/
def ofPath? (text : List Char) : Option Target :=
  let sent := text.takeWhile (· ≠ '#')
  let path := sent.takeWhile (· ≠ '?')
  let query :=
    match sent.dropWhile (· ≠ '?') with
    | [] => none
    | _ :: rest => some rest
  if path.all isPathChar ∧ (query.getD []).all isQueryChar then some ⟨path, query⟩ else none

/-! ## Addresses -/

def isSchemeChar (c : Char) : Bool := c.isAlphanum || c = '+' || c = '-' || c = '.'

/-- The scheme of an address and what follows its slashes. -/
def splitScheme? (text : List Char) : Option (List Char × List Char) :=
  let scheme := text.takeWhile isSchemeChar
  match text.drop scheme.length with
  | ':' :: '/' :: '/' :: rest => some (scheme, rest)
  | _ => none

def longestScheme : Nat := 64

/-- A target with a scheme, or else an authority alone.  After a scheme there must be an authority,
and an empty path counts as a slash. -/
def ofAddress? (text : List Char) : Option Target :=
  match splitScheme? text with
  | some (scheme, rest) => do
    let (authority, below) ← Authority.split? rest
    if longestScheme < scheme.length ∨ authority = [] then none
    else
      let target ← ofPath? below
      pure { target with path := if target.path = [] then ['/'] else target.path }
  | none => do
    let (_, rest) ← Authority.split? text
    if rest = [] then pure ⟨[], none⟩ else none

/-- In bytes. -/
def longest : Nat := 65534

def ofText? (text : String) : Option Target :=
  if longest < text.utf8ByteSize then none
  else
    match text.toList with
    | [] => none
    | ['*'] => some ⟨['*'], none⟩
    | '/' :: rest => ofPath? ('/' :: rest)
    | address => ofAddress? address

end Target

/-! ## Forms -/

/-- The fields of a form, decoded; a field without an equals sign is empty. -/
def formFields (form : List Char) : List (String × String) :=
  ((Text.cutEvery '&' form).filter (· ≠ [])).map fun field =>
    let (name, value) := (Text.cutAt? '=' field).getD (field, [])
    (String.ofList (Text.Percent.decodeForm name), String.ofList (Text.Percent.decodeForm value))

/-- Gives a parameter its value, unless it has one already. -/
def setOnce (current : Option String) (value : String) : Option (Option String) :=
  match current with
  | none => some (some value)
  | some _ => none

def addField (query : Query) (field : String × String) : Option Query :=
  match field.1 with
  | "page" => (setOnce query.page field.2).map fun value => { query with page := value }
  | "per_page" => (setOnce query.perPage field.2).map fun value => { query with perPage := value }
  | "limit" => (setOnce query.perPage field.2).map fun value => { query with perPage := value }
  | "sort" => (setOnce query.sort field.2).map fun value => { query with sort := value }
  | "filter" => (setOnce query.filter field.2).map fun value => { query with filter := value }
  | "include" => (setOnce query.expand field.2).map fun value => { query with expand := value }
  | _ => some query

def Target.parameters (target : Target) : Query :=
  ((formFields (target.query.getD [])).foldlM addField {}).getD {}

end RelationExpansion.Http
