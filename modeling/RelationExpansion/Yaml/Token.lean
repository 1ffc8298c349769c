import RelationExpansion.Yaml.Tag

/-! # Tokens of a YAML text

Tokens mark where documents, collections and their entries begin and end.  In block context that is
told by columns: a collection begins with the first entry at a new column, and ends at the first
token at a smaller one.

A key of one line is only known to be one when the colon after it is reached.  Until then the place
of its first token is kept as a candidate, and the token that says "here is a key" is put in later.
-/

namespace RelationExpansion.Yaml

inductive Token where
  | directive (value : Directive)
  | documentStart
  | documentEnd
  | blockSequenceStart
  | blockMappingStart
  | blockEnd
  | flowSequenceStart
  | flowSequenceEnd
  | flowMappingStart
  | flowMappingEnd
  | blockEntry
  | flowEntry
  | key
  | value
  | alias (name : String)
  | anchor (name : String)
  | tag (handle : String) (suffix : List UInt8)
  | scalar (style : ScalarStyle) (text : String)
  | streamEnd
  deriving DecidableEq, Repr, Inhabited

/-- A token that may turn out to begin a key. -/
structure Candidate where
  tokenIndex : Nat
  line : Nat
  column : Nat
  index : Nat
  /-- Nothing but a key can stand here. -/
  required : Bool
  deriving Inhabited

structure Scanner where
  cursor : Cursor
  /-- The tokens, the latest first. -/
  tokens : List Token := []
  /-- How many tokens there are. -/
  count : Nat := 0
  /-- The columns of the open block collections, innermost first. -/
  indents : List Nat := []
  /-- The candidates of the open flow collections, innermost first, and of the block context. -/
  candidates : List (Option Candidate) := [none]
  keyAllowed : Bool := true
  deriving Inhabited

namespace Scanner

def flowLevel (scanner : Scanner) : Nat := scanner.candidates.length - 1

def inFlow (scanner : Scanner) : Bool := scanner.flowLevel ≠ 0

def emit (scanner : Scanner) (token : Token) : Scanner :=
  { scanner with tokens := token :: scanner.tokens, count := scanner.count + 1 }

/-- Puts a token in behind the first `place` tokens. -/
def emitAt (scanner : Scanner) (place : Nat) (token : Token) : Scanner :=
  let later := scanner.count - place
  { scanner with
    tokens := scanner.tokens.take later ++ token :: scanner.tokens.drop later
    count := scanner.count + 1 }

/-- Emits a token that stands for the next characters. -/
def emitSkipping (scanner : Scanner) (count : Nat) (token : Token) : Scanner :=
  { scanner.emit token with cursor := scanner.cursor.skip count }

def allowKey (scanner : Scanner) (allowed : Bool) : Scanner :=
  { scanner with keyAllowed := allowed }

/-! ## Block collections -/

/-- Whether a column lies beyond that of the innermost block collection. -/
def isDeeper (scanner : Scanner) (column : Nat) : Bool :=
  match scanner.indents with
  | [] => true
  | indent :: _ => indent < column

/-- Opens a block collection at a column if none is open there yet. -/
def openBlock (scanner : Scanner) (column place : Nat) (token : Token) : Scanner :=
  if scanner.inFlow || !scanner.isDeeper column then scanner
  else { scanner.emitAt place token with indents := column :: scanner.indents }

/-- Closes the block collections beyond a column; without a column, all of them. -/
def closeBlocks (scanner : Scanner) (column : Option Nat) : Scanner :=
  if scanner.inFlow then scanner
  else
    let closing := scanner.indents.takeWhile fun indent => column.all (· < indent)
    let closed := closing.foldl (fun scanner _ => scanner.emit .blockEnd) scanner
    { closed with indents := scanner.indents.drop closing.length }

/-! ## Candidates for keys -/

def candidate? (scanner : Scanner) : Option Candidate := scanner.candidates.head?.join

def setCandidate (scanner : Scanner) (candidate : Option Candidate) : Scanner :=
  { scanner with candidates := candidate :: scanner.candidates.drop 1 }

/-- A key lies on one line and has at most 1024 bytes. -/
def isLive (scanner : Scanner) (candidate : Candidate) : Bool :=
  candidate.line = scanner.cursor.line && scanner.cursor.index ≤ candidate.index + 1024

/-- Gives up candidates that can be no key any more, unless a key is required there. -/
def dropStale (scanner : Scanner) : Option Scanner :=
  let stale (candidate : Option Candidate) : Bool := candidate.any fun c => !scanner.isLive c
  if scanner.candidates.any fun candidate => stale candidate && candidate.any (·.required) then none
  else
    some { scanner with
      candidates := scanner.candidates.map fun candidate =>
        if stale candidate then none else candidate }

def dropCandidate (scanner : Scanner) : Option Scanner :=
  if scanner.candidate?.any (·.required) then none else some (scanner.setCandidate none)

/-- Makes the next token a candidate where a key may stand. -/
def markCandidate (scanner : Scanner) : Option Scanner :=
  if scanner.keyAllowed then do
    let cleared ← scanner.dropCandidate
    let cursor := scanner.cursor
    pure (cleared.setCandidate (some {
      tokenIndex := scanner.count
      line := cursor.line
      column := cursor.column
      index := cursor.index
      required := !scanner.inFlow && scanner.indents.head? = some cursor.column }))
  else some scanner

/-! ## Single tokens -/

def readBlockEntry (scanner : Scanner) : Option Scanner := do
  let opened ←
    if scanner.inFlow then some scanner
    else if scanner.keyAllowed then
      some (scanner.openBlock scanner.cursor.column scanner.count .blockSequenceStart)
    else none
  let cleared ← opened.dropCandidate
  pure ((cleared.allowKey true).emitSkipping 1 .blockEntry)

def readKeyMark (scanner : Scanner) : Option Scanner := do
  let opened ←
    if scanner.inFlow then some scanner
    else if scanner.keyAllowed then
      some (scanner.openBlock scanner.cursor.column scanner.count .blockMappingStart)
    else none
  let cleared ← opened.dropCandidate
  pure ((cleared.allowKey (!scanner.inFlow)).emitSkipping 1 .key)

def readValueMark (scanner : Scanner) : Option Scanner :=
  match scanner.candidate?.filter scanner.isLive with
  | some candidate =>
    let keyed := scanner.emitAt candidate.tokenIndex .key
    let opened := keyed.openBlock candidate.column candidate.tokenIndex .blockMappingStart
    some (((opened.setCandidate none).allowKey false).emitSkipping 1 .value)
  | none => do
    let opened ←
      if scanner.inFlow then some scanner
      else if scanner.keyAllowed then
        some (scanner.openBlock scanner.cursor.column scanner.count .blockMappingStart)
      else none
    pure ((opened.allowKey (!scanner.inFlow)).emitSkipping 1 .value)

def readFlowStart (scanner : Scanner) (token : Token) : Option Scanner := do
  let marked ← scanner.markCandidate
  let nested := { marked with candidates := none :: marked.candidates }
  pure ((nested.allowKey true).emitSkipping 1 token)

def readFlowEnd (scanner : Scanner) (token : Token) : Option Scanner := do
  let cleared ← scanner.dropCandidate
  let outer :=
    if scanner.inFlow then { cleared with candidates := cleared.candidates.drop 1 } else cleared
  pure ((outer.allowKey false).emitSkipping 1 token)

def readFlowEntry (scanner : Scanner) : Option Scanner := do
  let cleared ← scanner.dropCandidate
  pure ((cleared.allowKey true).emitSkipping 1 .flowEntry)

def readDocumentMark (scanner : Scanner) (token : Token) : Option Scanner := do
  let cleared ← (scanner.closeBlocks none).dropCandidate
  pure ((cleared.allowKey false).emitSkipping 3 token)

/-- A line that starts with a percent sign. -/
def readDirective (scanner : Scanner) : Option Scanner := do
  let cleared ← (scanner.closeBlocks none).dropCandidate
  let line := scanner.cursor.rest.takeWhile fun c => !isBreak c
  let directive ← Directive.ofLine? (line.drop 1)
  let cursor := (scanner.cursor.skip line.length).next
  pure { (cleared.allowKey false).emit (.directive directive) with cursor := cursor }

def readName (scanner : Scanner) (token : String → Token) : Option Scanner := do
  let marked ← scanner.markCandidate
  let name := (scanner.cursor.rest.drop 1).takeWhile isNameChar
  let after := scanner.cursor.skip (name.length + 1)
  if name ≠ [] ∧ (after.blankAt 0 ∨ Cursor.isOneOf (after.peek? 0) "?:,]\x7d%@`") then
    pure { (marked.allowKey false).emit (token (String.ofList name)) with cursor := after }
  else none

/-- A tag ends before a blank, or in flow context before a comma. -/
def readTag (scanner : Scanner) : Option Scanner := do
  let marked ← scanner.markCandidate
  let (handle, suffix, size) ← Tag.read? scanner.cursor.rest
  let after := scanner.cursor.skip size
  if after.blankAt 0 ∨ (scanner.inFlow ∧ after.peek? 0 = some ',') then
    pure { (marked.allowKey false).emit (.tag handle suffix) with cursor := after }
  else none

def readBlockScalar (scanner : Scanner) (style : ScalarStyle) : Option Scanner := do
  let cleared ← scanner.dropCandidate
  let (text, after) ←
    readBlock (style = .folded) scanner.indents.head? scanner.cursor.next
  pure { (cleared.allowKey true).emit (.scalar style (String.ofList text)) with cursor := after }

def readQuotedScalar (scanner : Scanner) (quote : Char) : Option Scanner := do
  let marked ← scanner.markCandidate
  let fuel := scanner.cursor.rest.length + 1
  let (text, after) ← readQuoted quote fuel [] scanner.cursor.next
  pure { (marked.allowKey false).emit (.scalar .quoted (String.ofList text)) with cursor := after }

def readPlainScalar (scanner : Scanner) : Option Scanner := do
  let marked ← scanner.markCandidate
  let least := match scanner.indents with
    | [] => 0
    | indent :: _ => indent + 1
  let fuel := scanner.cursor.rest.length + 1
  let (text, broken, after) ← readPlain scanner.inFlow least fuel [] Gap.empty scanner.cursor
  pure { (marked.allowKey broken).emit (.scalar .plain (String.ofList text)) with cursor := after }

/-! ## The whole text -/

/-- Whether a line starts here with a byte order mark. -/
def startsMarked (cursor : Cursor) : Bool := cursor.column = 0 && cursor.peek? 0 = some '\uFEFF'

/-- Passes spaces, comments and line breaks, and a byte order mark at the start of a line.  Tabs are
passed where no key may begin. -/
def skipToToken : Nat → Scanner → Scanner
  | 0, scanner => scanner
  | fuel + 1, scanner =>
    match scanner.cursor.rest with
    | [] => scanner
    | c :: _ =>
      if c = ' ' || (c = '\t' && (scanner.inFlow || !scanner.keyAllowed)) ||
          startsMarked scanner.cursor then
        skipToToken fuel { scanner with cursor := scanner.cursor.next }
      else if c = '#' then
        skipToToken fuel { scanner with cursor := scanner.cursor.skipLine }
      else if isBreak c then
        skipToToken fuel
          { scanner with
            cursor := scanner.cursor.next
            keyAllowed := scanner.keyAllowed || !scanner.inFlow }
      else scanner

/-- Whether a plain scalar may start here. -/
def startsPlain (scanner : Scanner) (c : Char) : Bool :=
  let blankNext := scanner.cursor.blankAt 1
  let spaceNext := (scanner.cursor.peek? 1).any isSpaceOrTab
  !(isSpaceOrTab c || isBreak c || Cursor.isOneOf (some c) "-?:,[]\x7b\x7d#&*!|>'\"%@`") ||
    (c = '-' && !spaceNext) || (!scanner.inFlow && (c = '?' || c = ':') && !blankNext)

/-- Reads one token from the place where it starts. -/
def readToken (scanner : Scanner) (c : Char) : Option Scanner :=
  let cursor := scanner.cursor
  let blankNext := cursor.blankAt 1
  if cursor.column = 0 && c = '%' then scanner.readDirective
  else if cursor.atDocumentMark '-' then scanner.readDocumentMark .documentStart
  else if cursor.atDocumentMark '.' then scanner.readDocumentMark .documentEnd
  else if c = '[' then scanner.readFlowStart .flowSequenceStart
  else if c = '\x7b' then scanner.readFlowStart .flowMappingStart
  else if c = ']' then scanner.readFlowEnd .flowSequenceEnd
  else if c = '\x7d' then scanner.readFlowEnd .flowMappingEnd
  else if c = ',' then scanner.readFlowEntry
  else if c = '-' && blankNext then scanner.readBlockEntry
  else if c = '?' && (scanner.inFlow || blankNext) then scanner.readKeyMark
  else if c = ':' && (scanner.inFlow || blankNext) then scanner.readValueMark
  else if c = '*' then scanner.readName .alias
  else if c = '&' then scanner.readName .anchor
  else if c = '!' then scanner.readTag
  else if c = '|' && !scanner.inFlow then scanner.readBlockScalar .literal
  else if c = '>' && !scanner.inFlow then scanner.readBlockScalar .folded
  else if c = '\'' || c = '"' then scanner.readQuotedScalar c
  else if scanner.startsPlain c then scanner.readPlainScalar
  else none

def finish (scanner : Scanner) : Option (List Token) := do
  let cleared ← (scanner.closeBlocks none).dropCandidate
  pure (cleared.emit .streamEnd).tokens.reverse

/-- Reads all tokens.  Each takes at least one character, so the length of the text bounds their
number. -/
def run : Nat → Scanner → Option (List Token)
  | 0, _ => none
  | fuel + 1, scanner => do
    let reached := skipToToken (scanner.cursor.rest.length + 1) scanner
    let fresh ← reached.dropStale
    let aligned := fresh.closeBlocks (some fresh.cursor.column)
    match aligned.cursor.rest with
    | [] => finish aligned
    | c :: _ => do
      let after ← aligned.readToken c
      run fuel after

end Scanner

/-- The tokens of a text, if it is made of tokens. -/
def tokens? (text : String) : Option (List Token) := do
  let cursor ← Cursor.ofText? text
  Scanner.run (cursor.rest.length + 2) { cursor := cursor }

end RelationExpansion.Yaml
