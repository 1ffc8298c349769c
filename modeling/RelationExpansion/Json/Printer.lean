import RelationExpansion.Json.Value

/-! # Compact JSON text

Values are written without blanks.  A string escapes the quote, the backslash and the characters
below U+0020; all others stand for themselves.  A double is written so that it always shows a point
or an exponent, which keeps it apart from an integer.
-/

namespace RelationExpansion.Json

/-- Doubles are written in full from `1e-5` up to, but not including, `1e16`. -/
def doubleLayout : Decimal.Layout where
  plainFrom := -5
  plainBelow := 16
  wholeEnding := ".0"
  exponentMark := "e"

/-- How a character is written inside a string. -/
def escape (c : Char) : List Char :=
  if c = '"' then ['\\', '"']
  else if c = '\\' then ['\\', '\\']
  else if c = '\x08' then ['\\', 'b']
  else if c = '\t' then ['\\', 't']
  else if c = '\n' then ['\\', 'n']
  else if c = '\x0c' then ['\\', 'f']
  else if c = '\r' then ['\\', 'r']
  else if c.toNat < 32 then
    ['\\', 'u', '0', '0', Nat.digitChar (c.toNat / 16), Nat.digitChar (c.toNat % 16)]
  else [c]

def quote (text : String) : List Char := '"' :: text.toList.flatMap escape ++ ['"']

def intChars (value : Int) : List Char :=
  if value < 0 then '-' :: Nat.toDigits 10 value.natAbs else Nat.toDigits 10 value.natAbs

def numberChars : Number → List Char
  | .int value => intChars value
  | .double value => (value.render doubleLayout).toList

mutual
def chars : Json → List Char
  | .null => "null".toList
  | .bool true => "true".toList
  | .bool false => "false".toList
  | .number value => numberChars value
  | .string value => quote value
  | .array items => '[' :: itemChars items
  | .object members => '\x7b' :: memberChars members

/-- The items of an array with the commas between them and the closing bracket. -/
def itemChars : List Json → List Char
  | [] => [']']
  | [item] => chars item ++ [']']
  | item :: next :: rest => chars item ++ ',' :: itemChars (next :: rest)

/-- The members of an object with the commas between them and the closing brace. -/
def memberChars : List (String × Json) → List Char
  | [] => ['\x7d']
  | [(name, value)] => quote name ++ ':' :: (chars value ++ ['\x7d'])
  | (name, value) :: next :: rest =>
    quote name ++ ':' :: (chars value ++ ',' :: memberChars (next :: rest))
end

def render (value : Json) : String := String.ofList value.chars

end RelationExpansion.Json
