import RelationExpansion.Text.Blank

/-! # Splitting outside brackets and strings

`pieces separator text` splits a text at the separators that stand outside all brackets and outside
double-quoted strings.  Any closing bracket closes any open one, one too many is ignored, and a
string or bracket that is never closed lasts to the end.  A quote or bracket is always read as such,
so it never separates.

Pieces are trimmed, and empty ones are dropped.
-/

namespace RelationExpansion.Text

/-- Where a scan stands towards double quotes. -/
inductive Quoting where
  | outside
  | inside
  | escaping
  deriving DecidableEq, Repr, Inhabited

/-- How many brackets are open, and whether a string is. -/
structure Scan where
  depth : Nat
  quoting : Quoting
  deriving DecidableEq, Repr, Inhabited

namespace Scan

def start : Scan := ⟨0, .outside⟩

def opens (c : Char) : Bool := c = '(' || c = '[' || c = '\x7b'

def closes (c : Char) : Bool := c = ')' || c = ']' || c = '\x7d'

def isTop (scan : Scan) : Bool := scan.depth = 0 && scan.quoting = .outside

/-- The state after one more character. -/
def step (scan : Scan) (c : Char) : Scan :=
  match scan.quoting with
  | .escaping => { scan with quoting := .inside }
  | .inside =>
    if c = '\\' then { scan with quoting := .escaping }
    else if c = '"' then { scan with quoting := .outside }
    else scan
  | .outside =>
    if c = '"' then { scan with quoting := .inside }
    else if opens c then { scan with depth := scan.depth + 1 }
    else if closes c then { scan with depth := scan.depth - 1 }
    else scan

/-- Whether the next character ends a piece. -/
def cuts (scan : Scan) (separator c : Char) : Bool :=
  scan.isTop && c = separator && c ≠ '"' && !opens c && !closes c

end Scan

/-- The parts between separators, as they stand; there is always at least one. -/
def cutTop (separator : Char) : Scan → List Char → List (List Char)
  | _, [] => [[]]
  | scan, c :: rest =>
    if scan.cuts separator c then [] :: cutTop separator scan rest
    else
      match cutTop separator (scan.step c) rest with
      | [] => [[c]]
      | part :: parts => (c :: part) :: parts

def pieceChars (separator : Char) (text : List Char) : List (List Char) :=
  ((cutTop separator Scan.start text).map trim).filter (· ≠ [])

def pieces (separator : Char) (text : String) : List String :=
  (pieceChars separator text.toList).map String.ofList

/-! ## Laws -/

theorem cutTop_ne_nil (separator : Char) (scan : Scan) (text : List Char) :
    cutTop separator scan text ≠ [] := by
  cases text with
  | nil => simp [cutTop]
  | cons c rest =>
    simp only [cutTop]
    split
    · simp
    · split <;> simp

end RelationExpansion.Text
