import RelationExpansion.Text.Hex
import RelationExpansion.Yaml.Cursor

/-! # Scalars of a YAML text

The text of a scalar in each of its styles: plain, in single or double quotes, and as a block that
keeps (`|`) or folds (`>`) its line breaks.  Folding turns a single line break into a space and
drops the first of several.

Every reading function starts at a cursor and gives the text with the cursor after it.
-/

namespace RelationExpansion.Yaml

inductive ScalarStyle where
  | plain
  | quoted
  | literal
  | folded
  deriving DecidableEq, Repr, Inhabited

/-! ## Gaps -/

/-- What stands between two words: spaces on one line, or line breaks. -/
inductive Gap where
  | spaces (text : List Char)
  | breaks (first : Option Char) (more : List Char)
  deriving Inhabited

namespace Gap

def empty : Gap := .spaces []

def hasBreak : Gap → Bool
  | .spaces _ => false
  | .breaks _ _ => true

def fold : Gap → List Char
  | .spaces text => text
  | .breaks (some '\n') [] => [' ']
  | .breaks (some '\n') more => more
  | .breaks (some first) more => first :: more
  | .breaks none more => more

def add (gap : Gap) (c : Char) : Gap :=
  match gap with
  | .spaces text => if isBreak c then .breaks (some c) [] else .spaces (text ++ [c])
  | .breaks first more => if isBreak c then .breaks first (more ++ [c]) else gap

end Gap

/-- Reads a gap.  A tab may not stand before column `least` of a line. -/
def readGap (least : Nat) : Nat → Gap → Cursor → Option (Gap × Cursor)
  | 0, gap, cursor => some (gap, cursor)
  | fuel + 1, gap, cursor =>
    match cursor.rest with
    | [] => some (gap, cursor)
    | c :: _ =>
      if isSpaceOrTab c || isBreak c then
        if gap.hasBreak && cursor.column < least && c = '\t' then none
        else readGap least fuel (gap.add c) cursor.next
      else some (gap, cursor)

/-! ## Plain scalars -/

/-- The characters of a plain scalar up to the next blank or to what ends the scalar. -/
def plainWord (inFlow : Bool) : List Char → Option (List Char)
  | [] => some []
  | c :: rest =>
    let following := rest.head?
    let blankFollows := following.isNone || following.any fun d => isSpaceOrTab d || isBreak d
    if isSpaceOrTab c || isBreak c then some []
    else if inFlow && c = ':' && Cursor.isOneOf following ",?[]\x7b\x7d" then none
    else if c = ':' && blankFollows then some []
    else if inFlow && Cursor.isOneOf (some c) ",[]\x7b\x7d" then some []
    else (plainWord inFlow rest).map (c :: ·)

/-- Reads the words of a plain scalar; in block context the lines after the first must start at
column `least` or beyond.  Tells also whether a line break follows the last word. -/
def readPlain (inFlow : Bool) (least : Nat) :
    Nat → List Char → Gap → Cursor → Option (List Char × Bool × Cursor)
  | 0, _, _, _ => none
  | fuel + 1, text, gap, cursor =>
    if cursor.atAnyDocumentMark || cursor.peek? 0 = some '#' then
      some (text, gap.hasBreak, cursor)
    else do
      let word ← plainWord inFlow cursor.rest
      let reached := cursor.skip word.length
      let joined := if word = [] then text else text ++ gap.fold ++ word
      let open_gap := if word = [] then gap else Gap.empty
      if reached.rest.isEmpty || !reached.blankAt 0 then
        some (joined, open_gap.hasBreak, reached)
      else do
        let (found, after) ← readGap least (reached.rest.length + 1) open_gap reached
        if !inFlow && after.column < least then some (joined, found.hasBreak, after)
        else readPlain inFlow least fuel joined found after

/-! ## Quoted scalars -/

/-- The number that exactly `count` hexadecimal digits stand for. -/
def hexNumber? (count : Nat) (text : List Char) : Option Nat :=
  let digits := text.take count
  if digits.length = count then
    digits.foldlM (fun value c => (Text.hexValue? c).map (16 * value + ·)) 0
  else none

/-- What a backslash and the text after it stand for in double quotes, and how many characters that
text has. -/
def escapeAt? : List Char → Option (Char × Nat)
  | [] => none
  | c :: rest =>
    let numbered (count : Nat) : Option (Char × Nat) := do
      let code ← hexNumber? count rest
      if code.isValidChar then some (Char.ofNat code, count + 1) else none
    match c with
    | '0' => some ('\x00', 1)
    | 'a' => some ('\x07', 1)
    | 'b' => some ('\x08', 1)
    | 't' => some ('\t', 1)
    | '\t' => some ('\t', 1)
    | 'n' => some ('\n', 1)
    | 'v' => some ('\x0b', 1)
    | 'f' => some ('\x0c', 1)
    | 'r' => some ('\r', 1)
    | 'e' => some ('\x1b', 1)
    | ' ' => some (' ', 1)
    | '"' => some ('"', 1)
    | '/' => some ('/', 1)
    | '\\' => some ('\\', 1)
    | 'N' => some ('\u0085', 1)
    | '_' => some ('\u00a0', 1)
    | 'L' => some ('\u2028', 1)
    | 'P' => some ('\u2029', 1)
    | 'x' => numbered 2
    | 'u' => numbered 4
    | 'U' => numbered 8
    | _ => none

/-- Reads a quoted scalar behind its opening quote, up to and with the closing one. -/
def readQuoted (quote : Char) : Nat → List Char → Cursor → Option (List Char × Cursor)
  | 0, _, _ => none
  | fuel + 1, text, cursor =>
    if cursor.atAnyDocumentMark then none
    else
      match cursor.rest with
      | [] => none
      | c :: rest =>
        if c = quote then
          if quote = '\'' && rest.head? = some '\'' then
            readQuoted quote fuel (text ++ ['\'']) (cursor.skip 2)
          else some (text, cursor.next)
        else if quote = '"' && c = '\\' then
          if rest.head?.any isBreak then do
            let (gap, after) ← readGap 0 (rest.length + 1) (.breaks none []) (cursor.skip 2)
            readQuoted quote fuel (text ++ gap.fold) after
          else do
            let (escaped, size) ← escapeAt? rest
            readQuoted quote fuel (text ++ [escaped]) (cursor.skip (size + 1))
        else if isSpaceOrTab c || isBreak c then do
          let (gap, after) ← readGap 0 (rest.length + 2) Gap.empty cursor
          readQuoted quote fuel (text ++ gap.fold) after
        else readQuoted quote fuel (text ++ [c]) cursor.next

/-! ## Block scalars -/

/-- What happens to the line breaks at the end of a block. -/
inductive Chomping where
  | strip
  | clip
  | keep
  deriving DecidableEq, Repr, Inhabited

/-- The marks behind the one that opens a block: how to end it and how far it is indented, in either
order. -/
def blockHeader? (cursor : Cursor) : Option (Chomping × Option Nat × Cursor) :=
  let chomping? (c : Option Char) : Option Chomping :=
    match c with
    | some '+' => some .keep
    | some '-' => some .strip
    | _ => none
  let digit? (c : Option Char) : Option Nat :=
    (c.filter Char.isDigit).map fun d => d.toNat - '0'.toNat
  let first := cursor.peek? 0
  let second := cursor.peek? 1
  let header : Chomping × Option Nat × Nat :=
    match chomping? first, digit? first with
    | some chomping, _ =>
      match digit? second with
      | some digit => (chomping, some digit, 2)
      | none => (chomping, none, 1)
    | none, some digit =>
      match chomping? second with
      | some chomping => (chomping, some digit, 2)
      | none => (.clip, some digit, 1)
    | none, none => (.clip, none, 0)
  if header.2.1 = some 0 then none else some (header.1, header.2.1, cursor.skip header.2.2)

/-- Passes the indentation and the empty lines before a line of a block.  While the indentation is
not known, the widest one seen is recorded. -/
def readBlockBreaks (indent : Option Nat) :
    Nat → List Char → Nat → Cursor → Option (List Char × Nat × Cursor)
  | 0, _, _, _ => none
  | fuel + 1, breaks, widest, cursor =>
    let spaces := (cursor.rest.takeWhile (· = ' ')).length
    let room := match indent with
      | none => spaces
      | some indent => min spaces (indent - cursor.column)
    let reached := cursor.skip room
    let widest := max widest reached.column
    let inside := match indent with
      | none => true
      | some indent => reached.column < indent
    match reached.rest with
    | '\t' :: _ => if inside then none else some (breaks, widest, reached)
    | c :: _ =>
      if isBreak c then readBlockBreaks indent fuel (breaks ++ [c]) widest reached.next
      else some (breaks, widest, reached)
    | [] => some (breaks, widest, reached)

/-- Reads the lines of a block.  `lineBreak` is the break after the line before, `breaks` are those
of the empty lines since, and `wasBlank` tells whether that line began with a blank. -/
def readBlockLines (folds : Bool) (chomping : Chomping) (indent : Nat) :
    Nat → List Char → List Char → List Char → Bool → Cursor → Option (List Char × Cursor)
  | 0, _, _, _, _, _ => none
  | fuel + 1, text, lineBreak, breaks, wasBlank, cursor =>
    if cursor.column = indent && !cursor.rest.isEmpty then do
      let isBlank := cursor.rest.head?.any isSpaceOrTab
      let joint :=
        if folds && lineBreak.head? = some '\n' && !wasBlank && !isBlank then
          if breaks = [] then [' '] else breaks
        else lineBreak ++ breaks
      let line := cursor.rest.takeWhile fun c => !isBreak c
      let ended := cursor.skip line.length
      let (breaks, _, after) ←
        readBlockBreaks (some indent) (ended.rest.length + 2) [] 0 ended.next
      readBlockLines folds chomping indent fuel (text ++ joint ++ line) (ended.rest.take 1) breaks
        isBlank after
    else
      let ending :=
        match chomping with
        | .strip => []
        | .clip => lineBreak
        | .keep => lineBreak ++ breaks
      some (text ++ ending, cursor)

/-- Reads a block behind the mark that opens it.  `outer` is the indentation of the collection that
the block stands in, if it stands in one. -/
def readBlock (folds : Bool) (outer : Option Nat) (cursor : Cursor) :
    Option (List Char × Cursor) := do
  let (chomping, increment, cursor) ← blockHeader? cursor
  let cursor := cursor.skipSpacesAndTabs
  let cursor := if cursor.peek? 0 = some '#' then cursor.skipLine else cursor
  let fuel := cursor.rest.length + 2
  if cursor.rest.head?.all isBreak then
    let start := cursor.next
    let least := match outer with
      | some column => column + 1
      | none => 1
    match increment with
    | some increment =>
      let indent := outer.getD 0 + increment
      let (breaks, _, after) ← readBlockBreaks (some indent) fuel [] 0 start
      readBlockLines folds chomping indent fuel [] [] breaks false after
    | none =>
      let (breaks, widest, after) ← readBlockBreaks none fuel [] 0 start
      readBlockLines folds chomping (max widest least) fuel [] [] breaks false after
  else none

end RelationExpansion.Yaml
