/-! # Path patterns

A pattern is a path in which a name between braces stands for one segment, and a name after an
asterisk between braces for all that is left of the path.  A doubled brace stands for itself.

Of several patterns that a path fits, the one counts that goes on with the path's own character at
the first place where they differ; there a segment comes after a character, and the rest of the path
after both.
-/

namespace RelationExpansion.Http

inductive PatternPart where
  | char (c : Char)
  /-- The characters up to the next slash.  There may be none, but not at the end of the path. -/
  | segment
  /-- All characters to the end, of which there is at least one. -/
  | rest
  deriving DecidableEq, Repr, Inhabited

abbrev Pattern := List PatternPart

/-- Patterns with what is found under them.  The patterns differ, and none has a segment where
another has the rest. -/
abbrev Patterns (α : Type) := List (Pattern × α)

namespace Pattern

/-- The parts of a pattern; `named` tells whether the text starts inside a name. -/
def ofChars (named : Bool) : List Char → Pattern
  | [] => []
  | c :: rest =>
    if named then ofChars (c ≠ '\x7d') rest
    else
      match c, rest with
      | '\x7b', '\x7b' :: rest => .char '\x7b' :: ofChars false rest
      | '\x7d', '\x7d' :: rest => .char '\x7d' :: ofChars false rest
      | '\x7b', '*' :: rest => .rest :: ofChars true rest
      | '\x7b', rest => .segment :: ofChars true rest
      | c, rest => .char c :: ofChars false rest

def ofText (text : String) : Pattern := ofChars false text.toList

end Pattern

namespace Patterns

variable {α : Type}

/-- What follows a part in the patterns that start with it. -/
def past (part : PatternPart) (patterns : Patterns α) : Patterns α :=
  patterns.filterMap fun (pattern, value) =>
    match pattern with
    | [] => none
    | first :: rest => if first = part then some (rest, value) else none

/-- What is found under a pattern without parts. -/
def ended? (patterns : Patterns α) : Option α :=
  (patterns.find? fun entry => entry.1.isEmpty).map Prod.snd

/-- What is found under a path, with the segments that names stand for. -/
def find? (patterns : Patterns α) (path : List Char) : Option (α × List (List Char)) :=
  match path with
  | [] => patterns.ended?.map fun value => (value, [])
  | c :: rest =>
    if patterns.isEmpty then none
    else
      let segment := (c :: rest).takeWhile (· ≠ '/')
      let below := (c :: rest).dropWhile (· ≠ '/')
      let named := patterns.past .segment
      find? (patterns.past (.char c)) rest <|>
        (if below = [] then named.ended?.map fun value => (value, [segment])
        else
          (find? (named.past (.char '/')) (below.drop 1)).map fun found =>
            (found.1, segment :: found.2)) <|>
        (patterns.past .rest).ended?.map fun value => (value, [c :: rest])
termination_by path.length
decreasing_by
  · simp
  · have shorter := (List.dropWhile_suffix (· ≠ '/') (l := c :: rest)).length_le
    simp only [List.length_drop, List.length_cons] at shorter ⊢
    omega

end Patterns

end RelationExpansion.Http
