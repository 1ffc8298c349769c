/-! # Authorities

An authority names a host, perhaps with a user and an at sign before it and a number after it.  It
ends where a slash, a question mark or a number sign begins the next part of an address.  A host may
stand in one pair of brackets, and at most one colon separates it from the number.  Only a user or a
host in brackets can hold escapes.
-/

namespace RelationExpansion.Http

/-- What has been read of an authority. -/
structure Authority where
  /-- The colons since the last at sign or closing bracket. -/
  colons : Nat := 0
  opened : Bool := false
  closed : Bool := false
  /-- Whether there are escapes since the last at sign or closing bracket. -/
  escaped : Bool := false
  deriving DecidableEq, Repr, Inhabited

namespace Authority

/-- The characters that mean nothing of their own. -/
def isPlainChar (c : Char) : Bool := c.isAlphanum || "!$&'()*+,-.;=_~".toList.contains c

def startsNextPart (c : Char) : Bool := c = '/' || c = '?' || c = '#'

/-- One more character; nothing if it cannot stand there. -/
def step? (read : Authority) (c : Char) : Option Authority :=
  match c with
  | ':' => if read.colons < 8 then some { read with colons := read.colons + 1 } else none
  | '[' => if read.escaped || read.opened then none else some { read with opened := true }
  | ']' =>
    if read.opened && !read.closed then
      some { read with closed := true, colons := 0, escaped := false }
    else none
  | '@' => some { read with colons := 0, escaped := false }
  | '%' => some { read with escaped := true }
  | _ => if isPlainChar c then some read else none

def mayEnd (read : Authority) : Bool :=
  read.opened = read.closed && read.colons ≤ 1 && !read.escaped

/-- Splits a text into the authority that it starts with, which may be empty, and the rest. -/
def split? (text : List Char) : Option (List Char × List Char) := do
  let authority := text.takeWhile fun c => !startsNextPart c
  let read ← authority.foldlM step? {}
  if read.mayEnd && authority.getLast? ≠ some '@' then
    pure (authority, text.drop authority.length)
  else none

end Authority

end RelationExpansion.Http
