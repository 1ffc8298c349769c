import RelationExpansion.Text.Utf8
import RelationExpansion.Yaml.Scalar

/-! # Tags

A tag says what a node is.  It is written as an address between angle brackets, or as a handle and a
suffix, where the handle stands for the start of an address.  An address is kept in bytes, because
its escapes need not make a text.
-/

namespace RelationExpansion.Yaml

/-- What a node is said to be. -/
structure Tag where
  address : List UInt8
  deriving DecidableEq, Repr, Inhabited

def isNameChar (c : Char) : Bool := c.isAlphanum || c = '_' || c = '-'

namespace Tag

def ofText (text : String) : Tag := ⟨Text.Utf8.encode text.toList⟩

/-- The start of the addresses of the common tags. -/
def common : String := "tag:yaml.org,2002:"

def null : Tag := ofText (common ++ "null")

def int : Tag := ofText (common ++ "int")

/-! ## Addresses -/

/-- The characters of an address.  Commas and brackets count only where they cannot end the tag. -/
def isAddressChar (bounded : Bool) (c : Char) : Bool :=
  isNameChar c || ";/?:@&=+$.%!~*'()".toList.contains c || (bounded && ",[]".toList.contains c)

/-- How many bytes follow the first one of a character. -/
def trailing? (byte : UInt8) : Option Nat :=
  if byte < 0x80 then some 0
  else if byte < 0xC0 then none
  else if byte < 0xE0 then some 1
  else if byte < 0xF0 then some 2
  else if byte < 0xF8 then some 3
  else none

/-- Reads an address up to the first character that cannot stand in it, and tells how many
characters that takes.  The escapes of one character stand together; `owed` of them are still to
come. -/
def readAddress (bounded : Bool) (owed : Nat) : List Char → Option (List UInt8 × Nat)
  | '%' :: high :: low :: rest => do
    let byte := UInt8.ofNat (← hexNumber? 2 [high, low])
    let owed ←
      if owed = 0 then trailing? byte
      else if Text.Utf8.isContinuation byte then some (owed - 1)
      else none
    let (bytes, size) ← readAddress bounded owed rest
    pure (byte :: bytes, size + 3)
  | c :: rest =>
    if owed ≠ 0 || c = '%' then none
    else if isAddressChar bounded c then
      (readAddress bounded 0 rest).map fun found => (UInt8.ofNat c.toNat :: found.1, found.2 + 1)
    else some ([], 0)
  | [] => if owed = 0 then some ([], 0) else none

/-! ## Handles -/

/-- The handle that a text starts with: an exclamation mark alone, or two with a name between them
that may be empty. -/
def readHandle? : List Char → Option (List Char)
  | '!' :: rest =>
    let name := rest.takeWhile isNameChar
    some (if rest[name.length]? = some '!' then '!' :: name ++ ['!'] else ['!'])
  | _ => none

/-- The handles that need not be declared. -/
def standardHandles : List (String × List UInt8) :=
  [("!", (ofText "!").address), ("!!", (ofText common).address)]

/-- The tag of a handle and a suffix, where an empty handle stands for nothing.  A byte of zero ends
either part. -/
def resolve? (handles : List (String × List UInt8)) (handle : String) (suffix : List UInt8) :
    Option Tag := do
  let start ← if handle = "" then some [] else (handles.find? (·.1 = handle)).map Prod.snd
  pure ⟨start.takeWhile (· ≠ 0) ++ suffix.takeWhile (· ≠ 0)⟩

/-- Reads a tag: its handle, its suffix and the number of its characters.  A lone exclamation mark
is a tag of its own. -/
def read? (text : List Char) : Option (String × List UInt8 × Nat) := do
  match text with
  | '!' :: '<' :: rest =>
    let (address, size) ← readAddress true 0 rest
    if size ≠ 0 ∧ rest[size]? = some '>' then pure ("", address, size + 3) else none
  | _ =>
    let handle ← readHandle? text
    let (suffix, size) ← readAddress false 0 (text.drop handle.length)
    if handle ≠ ['!'] then
      if size ≠ 0 then pure (String.ofList handle, suffix, handle.length + size) else none
    else if suffix.head?.all (· = 0) then pure ("", (ofText "!").address, size + 1)
    else pure ("!", suffix, size + 1)

end Tag

/-! ## Directives -/

/-- A line before a document that says how to read it. -/
inductive Directive where
  | version (major minor : Nat)
  | handle (name : String) (start : List UInt8)
  deriving DecidableEq, Repr, Inhabited

namespace Directive

def startsBlank (text : List Char) : Bool := text.head?.all isSpaceOrTab

/-- A number of at most nine digits. -/
def readNumber? (text : List Char) : Option (Nat × List Char) :=
  let digits := text.takeWhile Char.isDigit
  if digits = [] ∨ 9 < digits.length then none
  else
    some (digits.foldl (fun value c => 10 * value + (c.toNat - '0'.toNat)) 0,
      text.drop digits.length)

def readVersion? (text : List Char) : Option (Directive × List Char) := do
  let (major, rest) ← readNumber? text
  match rest with
  | '.' :: rest =>
    let (minor, rest) ← readNumber? rest
    pure (.version major minor, rest)
  | _ => none

def readTagHandle? (text : List Char) : Option (Directive × List Char) := do
  let handle ← Tag.readHandle? text
  let rest := text.drop handle.length
  let (start, size) ← Tag.readAddress true 0 (rest.dropWhile isSpaceOrTab)
  let after := (rest.dropWhile isSpaceOrTab).drop size
  if rest ≠ [] ∧ startsBlank rest ∧ size ≠ 0 ∧ startsBlank after then
    pure (.handle (String.ofList handle) start, after)
  else none

/-- Reads a line behind its percent sign.  A comment may end it. -/
def ofLine? (line : List Char) : Option Directive := do
  let name := line.takeWhile isNameChar
  let value := line.drop name.length
  let given := value.dropWhile isSpaceOrTab
  if !startsBlank value then none
  else
    let (directive, rest) ←
      match String.ofList name with
      | "YAML" => readVersion? given
      | "TAG" => readTagHandle? given
      | _ => none
    match rest.dropWhile isSpaceOrTab with
    | [] => pure directive
    | c :: _ => if c = '#' then pure directive else none

/-- The versions that a text may name. -/
def isKnownVersion (version : Nat × Nat) : Bool := version = (1, 1) || version = (1, 2)

/-- The handles that directives declare, and the standard ones.  No handle may be declared twice,
nor the version be given twice. -/
def handles? (directives : List Directive) : Option (List (String × List UInt8)) :=
  let versions := directives.filterMap fun directive =>
    match directive with
    | .version major minor => some (major, minor)
    | .handle _ _ => none
  let declared := directives.filterMap fun directive =>
    match directive with
    | .version _ _ => none
    | .handle name start => some (name, start)
  if versions.length ≤ 1 ∧ versions.all isKnownVersion ∧ (declared.map Prod.fst).Nodup then
    some (declared ++ Tag.standardHandles)
  else none

end Directive

end RelationExpansion.Yaml
