import RelationExpansion.Json.Value
import RelationExpansion.Number.Count
import RelationExpansion.Text.Hex
import RelationExpansion.Yaml.Node

/-! # Configuration data

Configurations are read from JSON and from YAML.  A `Datum` is what both have in common: for a
scalar, all the ways in which it can be understood, and for a collection, its entries in order.  A
datum may also be one that is shared between places, and is then known by a number.

The scalar `5` of a YAML text is a count and a text alike, and an empty one may stand for an empty
mapping; in JSON every scalar has one meaning.  A structure may be given as the list of its fields
in JSON, but not in YAML.
-/

namespace RelationExpansion

/-- Whether a scalar stands for a value that is not given.  One whose tag says so although its text
does not is faulty where a value may be absent. -/
inductive Presence where
  | present
  | absent
  | faulty
  deriving DecidableEq, Repr, Inhabited

/-- The ways to understand a scalar. -/
structure ScalarDatum where
  text : Option String := none
  count : Option Nat := none
  presence : Presence := .present
  /-- It stands for a collection without entries. -/
  isBlank : Bool := false
  deriving DecidableEq, Repr, Inhabited

inductive Datum where
  | scalar (value : ScalarDatum)
  /-- Entries under names, which are to be read as texts and may repeat. -/
  | fields (entries : List (Datum × Datum))
  /-- The fields of a structure by their places. -/
  | positions (items : List Datum)
  | shared (number : Nat)
  /-- A collection that nothing in a configuration is made of. -/
  | other
  deriving Repr, Inhabited

namespace Datum

def ofName (name : String) : Datum := .scalar { text := some name }

/-! ## JSON -/

mutual
def ofJson : Json → Datum
  | .null => .scalar { presence := .absent }
  | .bool _ => .scalar {}
  | .number (.int value) => .scalar { count := if 0 ≤ value then some value.toNat else none }
  | .number (.double _) => .scalar {}
  | .string text => .scalar { text := some text }
  | .array items => .positions (ofJsonItems items)
  | .object members => .fields (ofJsonMembers members)

def ofJsonItems : List Json → List Datum
  | [] => []
  | item :: rest => ofJson item :: ofJsonItems rest

def ofJsonMembers : List (String × Json) → List (Datum × Datum)
  | [] => []
  | (name, value) :: rest => (ofName name, ofJson value) :: ofJsonMembers rest
end

/-! ## YAML -/

def isNullWord (text : String) : Bool := ["null", "Null", "NULL", "~"].contains text

/-- The value of digits in a base. -/
def ofBase? (base : Nat) (digits : List Char) : Option Nat :=
  if digits = [] then none
  else
    digits.foldlM (fun value c =>
      ((Text.hexValue? c).filter (· < base)).map (base * value + ·)) 0

/-- A count in base 16, 8 or 2 behind its mark, or a decimal one that does not start with a zero
before other digits; one plus sign may come first. -/
def yamlCount? (text : String) : Option Nat :=
  let digits :=
    match text.toList with
    | '+' :: rest => rest
    | all => all
  let value :=
    match digits with
    | '0' :: 'x' :: rest => ofBase? 16 rest
    | '0' :: 'o' :: rest => ofBase? 8 rest
    | '0' :: 'b' :: rest => ofBase? 2 rest
    | '0' :: _ :: _ => none
    | all => ofBase? 10 all
  value.filter (· ≤ Count.largest)

/-- Only a plain scalar can be absent: by its text, or by its tag and its text. -/
def yamlPresence (tag : Option Yaml.Tag) (text : String) : Presence :=
  match tag with
  | none => if text = "" ∨ isNullWord text then .absent else .present
  | some tag =>
    if tag ≠ Yaml.Tag.null then .present
    else if isNullWord text then .absent
    else .faulty

def yamlScalar (style : Yaml.ScalarStyle) (tag : Option Yaml.Tag) (text : String) : ScalarDatum :=
  let plain := style = .plain
  let mayBeCount := plain || (style = .literal && tag = some Yaml.Tag.int)
  { text := some text
    count := if mayBeCount then yamlCount? text else none
    presence := if plain then yamlPresence tag text else .present
    isBlank := plain && text = "" }

mutual
def ofYaml : Yaml.Node → Datum
  | .scalar style tag text => .scalar (yamlScalar style tag text)
  | .sequence _ => .other
  | .mapping entries => .fields (ofYamlEntries entries)
  | .anchored _ node => ofYaml node
  | .alias number => .shared number

def ofYamlEntries : List (Yaml.Node × Yaml.Node) → List (Datum × Datum)
  | [] => []
  | (key, value) :: rest => (ofYaml key, ofYaml value) :: ofYamlEntries rest
end

end Datum

end RelationExpansion
