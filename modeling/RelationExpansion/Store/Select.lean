import RelationExpansion.Expansion.Selection
import RelationExpansion.Sorting.LongLists
import RelationExpansion.Store.Store

/-! # Selecting records

A selection keeps the records that match its filter, sorts them and cuts out one page.

A filter is an object.  Its members name fields, perhaps with an operator at the end, and a record
matches if every member holds; a filter that is no object matches every record.  Records are sorted
by the fields of the sort in turn.  A field that is missing or null comes before all values, and
values of different types count as equal.

Where a field mixes types, this is no order.  Sorting may then break off, and nothing is selected.
-/

namespace RelationExpansion

/-- How a filter member compares a field with the expected value. -/
inductive Comparison where
  | equal
  | unequal
  | greater
  | greaterOrEqual
  | less
  | lessOrEqual
  deriving DecidableEq, Repr, Inhabited

namespace Json

/-- The order of two values of the same type: numbers, strings or truth values. -/
def compare? : Json → Json → Option Ordering
  | .number left, .number right => left.compare? right
  | .string left, .string right => some (compare left right)
  | .bool left, .bool right => some (compare left.toNat right.toNat)
  | _, _ => none

end Json

namespace Comparison

/-- The operators, the longer ones first. -/
def operators : List (String × Comparison) :=
  [(">=", .greaterOrEqual), ("<=", .lessOrEqual), ("!=", .unequal), (">", .greater), ("<", .less)]

def ofKeyWith : List (String × Comparison) → List Char → List Char × Comparison
  | [], key => (key, .equal)
  | (operator, comparison) :: rest, key =>
    match Text.dropEnd? operator.toList key with
    | some field => (Text.trimRight field, comparison)
    | none => ofKeyWith rest key

/-- The field and the comparison that a filter member is about. -/
def ofKey (key : String) : String × Comparison :=
  let (field, comparison) := ofKeyWith operators key.toList
  (String.ofList field, comparison)

def holds (comparison : Comparison) (actual expected : Json) : Bool :=
  match comparison with
  | .equal => actual.same expected
  | .unequal => !actual.same expected
  | .greater => actual.compare? expected = some .gt
  | .greaterOrEqual => actual.compare? expected = some .gt || actual.compare? expected = some .eq
  | .less => actual.compare? expected = some .lt
  | .lessOrEqual => actual.compare? expected = some .lt || actual.compare? expected = some .eq

end Comparison

namespace Record

def matchesMember (record : Record) (member : String × Json) : Bool :=
  let (field, comparison) := Comparison.ofKey member.1
  comparison.holds ((Assoc.get? field record).getD .null) member.2

def matchesFilter (record : Record) : Json → Bool
  | .object members => members.all (matchesMember record)
  | _ => true

/-- The value of a field, if it has one other than null. -/
def present? (record : Record) (field : String) : Option Json :=
  (Assoc.get? field record).filter (!·.isNull)

def compareField (field : String) (left right : Record) : Ordering :=
  match present? left field, present? right field with
  | none, none => .eq
  | none, some _ => .lt
  | some _, none => .gt
  | some left, some right => (left.compare? right).getD .eq

end Record

namespace Direction

def apply : Direction → Ordering → Ordering
  | .ascending, ordering => ordering
  | .descending, ordering => ordering.swap

end Direction

namespace Record

def compareBy : List (String × Direction) → Record → Record → Ordering
  | [], _, _ => .eq
  | (field, direction) :: rest, left, right =>
    (direction.apply (compareField field left right)).then (compareBy rest left right)

end Record

namespace Selection

/-- The records that match the filter, sorted. -/
def arrange (selection : Selection) (records : List (Uuid × Record)) :
    Except Disorder (List (Uuid × Record)) :=
  let matching :=
    match selection.filter with
    | some filter => records.filter fun entry => entry.2.matchesFilter filter
    | none => records
  match selection.sort with
  | some spec =>
    Sorting.sortBy (fun left right => Record.compareBy spec.entries left.2 right.2) matching
  | none => .ok matching

/-- One page of the records, and the number of records that match. -/
def select (selection : Selection) (records : List (Uuid × Record)) :
    Except Disorder (List (Uuid × Record) × Nat) :=
  (selection.arrange records).map fun arranged =>
    ((arranged.drop selection.skip).take selection.limit, arranged.length)

end Selection

namespace Store

/-- One page of the records of a kind as documents, and the number of records that match. -/
def list (store : Store) (kind : String) (selection : Selection) :
    Except Disorder (List Document × Nat) :=
  (selection.select (store.records kind)).map fun (page, total) =>
    (page.map fun entry => store.document kind entry.1 entry.2, total)

end Store

end RelationExpansion
