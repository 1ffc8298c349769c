import RelationExpansion.Json.Value
import RelationExpansion.Number.Count
import RelationExpansion.Text.Hex

/-! # Reading JSON text

The reader takes one value with blanks around it and nothing else.  A repeated member name keeps
its first place and takes the last value.  More than `maxDepth` arrays and objects inside each
other are refused.

An integer literal that fits in 64 bits, signed or unsigned, is exact.  Any other number is a
double: its leading digits, as many as make a whole number below `2 ^ 64`, are rounded to a double
and then scaled by the power of ten that the rest of the literal calls for.  A literal beyond the
largest double is refused, and `-0` is the negative zero.

Every reading function takes the text that is left, and gives what it found with the text after it.
-/

namespace RelationExpansion.Json

def maxDepth : Nat := 127

def isJsonBlank (c : Char) : Bool := c = ' ' || c = '\t' || c = '\n' || c = '\r'

def skipBlanks (text : List Char) : List Char := text.dropWhile isJsonBlank

/-! ## Numbers -/

/-- Takes up digits while the number they make stays below `2 ^ 64`; gives the number and how many
digits went into it. -/
def absorb (start : Nat) : List Char → Nat × Nat
  | [] => (start, 0)
  | c :: rest =>
    let next := 10 * start + Count.digitValue c
    if next ≤ Count.largest then
      let (value, taken) := absorb next rest
      (value, taken + 1)
    else (start, 0)

def takeDigits (text : List Char) : List Char × List Char :=
  (text.takeWhile Char.isDigit, text.dropWhile Char.isDigit)

/-- The digits before the point: one zero, or digits that start with another. -/
def readWhole : List Char → Option (List Char × List Char)
  | [] => none
  | '0' :: rest => if (rest.head?.map Char.isDigit).getD false then none else some (['0'], rest)
  | text =>
    match takeDigits text with
    | ([], _) => none
    | found => some found

/-- The digits after a point, if there is one. -/
def readFraction : List Char → Option (Option (List Char) × List Char)
  | '.' :: rest =>
    match takeDigits rest with
    | ([], _) => none
    | (digits, left) => some (some digits, left)
  | text => some (none, text)

/-- The exponent after its mark: an optional sign and digits. -/
def readExponentDigits (text : List Char) : Option (Int × List Char) :=
  let (negative, text) :=
    match text with
    | '+' :: rest => (false, rest)
    | '-' :: rest => (true, rest)
    | rest => (false, rest)
  match takeDigits text with
  | ([], _) => none
  | (digits, left) =>
    let value : Int := ((digits.foldl (fun n c => 10 * n + Count.digitValue c) 0 : Nat) : Int)
    some (if negative then -value else value, left)

def readExponent : List Char → Option (Option Int × List Char)
  | c :: rest =>
    if c = 'e' ∨ c = 'E' then (readExponentDigits rest).map fun found => (some found.1, found.2)
    else some (none, c :: rest)
  | [] => some (none, [])

def signedDouble (negative : Bool) (x : Double) : Double := { x with negative := negative }

/-- The number that a literal stands for, from its parts. -/
def number? (negative : Bool) (whole : List Char) (fraction : Option (List Char))
    (exponent : Option Int) : Option Number :=
  let (start, taken) := absorb 0 whole
  let dropped := whole.length - taken
  if dropped = 0 ∧ fraction.isNone ∧ exponent.isNone ∧
      (negative → 0 < start ∧ start ≤ Nat.pow 2 63) then
    some (.int (if negative then -(start : Int) else start))
  else
    let (digits, used) := absorb start (fraction.getD [])
    let scale : Int := (dropped : Int) - used + exponent.getD 0
    (Double.ofDecimal? digits scale).map fun x => .double (signedDouble negative x)

def readUnsigned (negative : Bool) (text : List Char) : Option (Number × List Char) := do
  let (whole, text) ← readWhole text
  let (fraction, text) ← readFraction text
  let (exponent, text) ← readExponent text
  let value ← number? negative whole fraction exponent
  pure (value, text)

def readNumber : List Char → Option (Number × List Char)
  | '-' :: rest => readUnsigned true rest
  | text => readUnsigned false text

/-! ## Strings -/

/-- The code unit that four hexadecimal digits stand for. -/
def unit? (a b c d : Char) : Option Nat := do
  let a ← Text.hexValue? a
  let b ← Text.hexValue? b
  let c ← Text.hexValue? c
  let d ← Text.hexValue? d
  pure (((a * 16 + b) * 16 + c) * 16 + d)

/-- The character that a backslash and a single character stand for. -/
def escaped? : Char → Option Char
  | '"' => some '"'
  | '\\' => some '\\'
  | '/' => some '/'
  | 'b' => some '\x08'
  | 'f' => some '\x0c'
  | 'n' => some '\n'
  | 'r' => some '\r'
  | 't' => some '\t'
  | _ => none

/-- The code points and escaped code units up to the closing quote. -/
def readUnits : List Char → Option (List Nat × List Char)
  | [] => none
  | c :: rest =>
    if c = '"' then some ([], rest)
    else if c = '\\' then
      match rest with
      | 'u' :: first :: second :: third :: fourth :: left =>
        (unit? first second third fourth).bind fun unit =>
          (readUnits left).map fun found => (unit :: found.1, found.2)
      | mark :: left =>
        (escaped? mark).bind fun plain =>
          (readUnits left).map fun found => (plain.toNat :: found.1, found.2)
      | [] => none
    else if c.toNat < 32 then none
    else (readUnits rest).map fun found => (c.toNat :: found.1, found.2)

def isLeading (unit : Nat) : Bool := 0xD800 ≤ unit && unit ≤ 0xDBFF

def isTrailing (unit : Nat) : Bool := 0xDC00 ≤ unit && unit ≤ 0xDFFF

/-- Joins a leading surrogate with the trailing one after it; a surrogate alone is refused. -/
def joinUnits : List Nat → Option (List Char)
  | [] => some []
  | unit :: rest =>
    if isTrailing unit then none
    else if isLeading unit then
      match rest with
      | low :: rest =>
        if isTrailing low then
          (joinUnits rest).map
            (Char.ofNat (0x10000 + (unit - 0xD800) * 0x400 + (low - 0xDC00)) :: ·)
        else none
      | [] => none
    else (joinUnits rest).map (Char.ofNat unit :: ·)

def readString : List Char → Option (String × List Char)
  | '"' :: rest => do
    let (units, left) ← readUnits rest
    let text ← joinUnits units
    pure (String.ofList text, left)
  | _ => none

/-! ## Values -/

/-- Takes a given word off the front. -/
def readWord : List Char → List Char → Option (List Char)
  | [], text => some text
  | _ :: _, [] => none
  | c :: word, d :: text => if c = d then readWord word text else none

mutual
/-- One value with blanks before it; `depth` arrays and objects may still be opened. -/
def readValue : Nat → Nat → List Char → Option (Json × List Char)
  | 0, _, _ => none
  | fuel + 1, depth, text =>
    match skipBlanks text with
    | [] => none
    | 'n' :: rest => (readWord "ull".toList rest).map fun left => (.null, left)
    | 't' :: rest => (readWord "rue".toList rest).map fun left => (.bool true, left)
    | 'f' :: rest => (readWord "alse".toList rest).map fun left => (.bool false, left)
    | '"' :: rest => (readString ('"' :: rest)).map fun found => (.string found.1, found.2)
    | '[' :: rest =>
      if depth = 0 then none
      else
        match skipBlanks rest with
        | ']' :: left => some (.array [], left)
        | _ => (readItems fuel (depth - 1) rest).map fun found => (.array found.1, found.2)
    | '\x7b' :: rest =>
      if depth = 0 then none
      else
        match skipBlanks rest with
        | '\x7d' :: left => some (.object [], left)
        | _ =>
          (readMembers fuel (depth - 1) rest).map fun found =>
            (.object (Assoc.ofList found.1), found.2)
    | c :: rest => (readNumber (c :: rest)).map fun found => (.number found.1, found.2)

/-- The items of an array that has at least one, and the closing bracket. -/
def readItems : Nat → Nat → List Char → Option (List Json × List Char)
  | 0, _, _ => none
  | fuel + 1, depth, text => do
    let (item, text) ← readValue fuel depth text
    match skipBlanks text with
    | ',' :: rest =>
      let (items, left) ← readItems fuel depth rest
      pure (item :: items, left)
    | ']' :: left => pure ([item], left)
    | _ => none

/-- The members of an object that has at least one, and the closing brace. -/
def readMembers : Nat → Nat → List Char → Option (List (String × Json) × List Char)
  | 0, _, _ => none
  | fuel + 1, depth, text => do
    let (name, text) ← readString (skipBlanks text)
    match skipBlanks text with
    | ':' :: rest =>
      let (value, text) ← readValue fuel depth rest
      match skipBlanks text with
      | ',' :: rest =>
        let (members, left) ← readMembers fuel depth rest
        pure ((name, value) :: members, left)
      | '\x7d' :: left => pure ([(name, value)], left)
      | _ => none
    | _ => none
end

/-- The value of a whole text.  Each call of a reader takes at least one character, so twice the
length of the text is more than enough fuel. -/
def ofChars? (text : List Char) : Option Json :=
  match readValue (2 * text.length + 1) maxDepth text with
  | some (value, rest) => if skipBlanks rest = [] then some value else none
  | none => none

def read? (text : String) : Option Json := ofChars? text.toList

end RelationExpansion.Json
