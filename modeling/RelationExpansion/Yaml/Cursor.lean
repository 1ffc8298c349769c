/-! # Places in a YAML text

A cursor is the text that is left with the line and the column at which it starts.
-/

namespace RelationExpansion.Yaml

structure Cursor where
  rest : List Char
  line : Nat := 0
  column : Nat := 0
  /-- How many bytes have been passed. -/
  index : Nat := 0
  deriving Inhabited

/-- A line break; the other ways to write one have been replaced by a line feed. -/
def isBreak (c : Char) : Bool := c = '\n' || c = '\u2028' || c = '\u2029'

def isSpaceOrTab (c : Char) : Bool := c = ' ' || c = '\t'

namespace Cursor

def next (cursor : Cursor) : Cursor :=
  match cursor.rest with
  | [] => cursor
  | c :: rest =>
    if isBreak c then ⟨rest, cursor.line + 1, 0, cursor.index + c.utf8Size⟩
    else ⟨rest, cursor.line, cursor.column + 1, cursor.index + c.utf8Size⟩

def skip (cursor : Cursor) : Nat → Cursor
  | 0 => cursor
  | count + 1 => cursor.next.skip count

def peek? (cursor : Cursor) (ahead : Nat) : Option Char := (cursor.rest.drop ahead).head?

/-- Whether the text ends some way ahead, or has a space, a tab or a line break there. -/
def blankAt (cursor : Cursor) (ahead : Nat) : Bool :=
  match cursor.peek? ahead with
  | none => true
  | some c => isSpaceOrTab c || isBreak c

def isOneOf (c : Option Char) (marks : String) : Bool :=
  match c with
  | none => false
  | some c => marks.toList.contains c

/-- Whether a line starts here with three of a mark and nothing directly after them. -/
def atDocumentMark (cursor : Cursor) (mark : Char) : Bool :=
  cursor.column = 0 && [mark, mark, mark].isPrefixOf cursor.rest && cursor.blankAt 3

def atAnyDocumentMark (cursor : Cursor) : Bool :=
  cursor.atDocumentMark '-' || cursor.atDocumentMark '.'

/-- Passes the characters up to a line break or the end. -/
def skipLine (cursor : Cursor) : Cursor :=
  cursor.skip (cursor.rest.takeWhile fun c => !isBreak c).length

def skipSpacesAndTabs (cursor : Cursor) : Cursor :=
  cursor.skip (cursor.rest.takeWhile isSpaceOrTab).length

end Cursor

/-! ## Characters -/

/-- Whether a character may stand in a YAML text. -/
def isAllowed (c : Char) : Bool :=
  let code := c.toNat
  code == 0x09 || code == 0x0A || code == 0x0D || (0x20 ≤ code && code ≤ 0x7E) || code == 0x85 ||
    (0xA0 ≤ code && code ≤ 0xD7FF) || (0xE000 ≤ code && code ≤ 0xFFFD) || 0x10000 ≤ code

/-- Writes every line break of one line feed, carriage return, both, or U+0085 as a line feed. -/
def normalizeBreaks : List Char → List Char
  | [] => []
  | '\r' :: '\n' :: rest => '\n' :: normalizeBreaks rest
  | c :: rest => (if c = '\r' ∨ c = '\u0085' then '\n' else c) :: normalizeBreaks rest

/-- The start of a text, if all its characters are allowed. -/
def Cursor.ofText? (text : String) : Option Cursor :=
  let chars := text.toList
  if chars.all isAllowed then some { rest := normalizeBreaks chars } else none

end RelationExpansion.Yaml
