import RelationExpansion.OrderedMap
import RelationExpansion.Number.Decimal

/-! # JSON values

A number is an integer or a double, and the two are different values even where they are equal as
numbers.  An object is a list of members in order; readers and writers keep the names distinct.

`Json.same` is equality of values: objects are compared as maps, in whatever order their members
come, and doubles as numbers, so that the two zeros are equal.
-/

namespace RelationExpansion

inductive Number where
  | int (value : Int)
  | double (value : Double)
  deriving DecidableEq, Repr, Inhabited

inductive Json where
  | null
  | bool (value : Bool)
  | number (value : Number)
  | string (value : String)
  | array (items : List Json)
  | object (members : List (String × Json))
  deriving Repr, Inhabited

namespace Number

def same : Number → Number → Bool
  | .int left, .int right => left = right
  | .double left, .double right => left.rank = right.rank
  | _, _ => false

/-- The nearest double.  Integers that fit in 64 bits always have one. -/
def toDouble? : Number → Option Double
  | .int value => (Double.ofNat? value.natAbs).map fun x => { x with negative := value < 0 }
  | .double value => some value

/-- The order of two numbers after each has been rounded to a double. -/
def compare? (left right : Number) : Option Ordering := do
  let left ← left.toDouble?
  let right ← right.toDouble?
  pure (compare left.rank right.rank)

end Number

namespace Json

def isNull : Json → Bool
  | .null => true
  | _ => false

mutual
/-- Whether two values are equal. -/
def same : Json → Json → Bool
  | .null, .null => true
  | .bool left, .bool right => left = right
  | .number left, .number right => left.same right
  | .string left, .string right => left = right
  | .array left, .array right => sameItems left right
  | .object left, .object right => left.length = right.length && sameMembers left right
  | _, _ => false

def sameItems : List Json → List Json → Bool
  | [], [] => true
  | left :: lefts, right :: rights => same left right && sameItems lefts rights
  | _, _ => false

/-- Whether every member has an equal one of the same name among the others. -/
def sameMembers : List (String × Json) → List (String × Json) → Bool
  | [], _ => true
  | (name, value) :: rest, others =>
    (match Assoc.get? name others with
      | some other => same value other
      | none => false) &&
    sameMembers rest others
end

def ofNat (value : Nat) : Json := .number (.int value)

def member? (name : String) : Json → Option Json
  | .object members => Assoc.get? name members
  | _ => none

def string? : Json → Option String
  | .string value => some value
  | _ => none

end Json

end RelationExpansion
