import RelationExpansion.OrderedMap
import RelationExpansion.Yaml.Token

/-! # YAML nodes

A text holds at most one document, and a document is one node: a scalar, a sequence or a mapping.

A node may be anchored under a name, and an alias refers to the last node before it that has its
name.  It does so by a number: the number of different names before that node.  Where a name is
given again, two nodes can get the same number; all aliases with that number then stand for the one
that begins later.  So an alias can stand for a node that it is a part of, or for one behind it.
-/

namespace RelationExpansion.Yaml

inductive Node where
  | scalar (style : ScalarStyle) (tag : Option Tag) (text : String)
  | sequence (items : List Node)
  | mapping (entries : List (Node × Node))
  | anchored (number : Nat) (node : Node)
  | alias (number : Nat)
  deriving Repr, Inhabited

namespace Node

def blank : Node := .scalar .plain none ""

mutual
/-- The scalars, the aliases, and the ends of the collections in a node. -/
def size : Node → Nat
  | .scalar _ _ _ => 1
  | .sequence items => sizeOfItems items + 2
  | .mapping entries => sizeOfEntries entries + 2
  | .anchored _ node => node.size
  | .alias _ => 1

def sizeOfItems : List Node → Nat
  | [] => 0
  | item :: rest => item.size + sizeOfItems rest

def sizeOfEntries : List (Node × Node) → Nat
  | [] => 0
  | (key, value) :: rest => key.size + value.size + sizeOfEntries rest
end

mutual
/-- The anchored nodes in the order in which they begin. -/
def anchors : Node → List (Nat × Node)
  | .scalar _ _ _ => []
  | .sequence items => anchorsOfItems items
  | .mapping entries => anchorsOfEntries entries
  | .anchored number node => (number, node) :: node.anchors
  | .alias _ => []

def anchorsOfItems : List Node → List (Nat × Node)
  | [] => []
  | item :: rest => item.anchors ++ anchorsOfItems rest

def anchorsOfEntries : List (Node × Node) → List (Nat × Node)
  | [] => []
  | (key, value) :: rest => key.anchors ++ value.anchors ++ anchorsOfEntries rest
end

end Node

/-- The tokens that are left, with what they refer to. -/
structure Parse where
  tokens : List Token
  handles : List (String × List UInt8) := []
  /-- The numbers that aliases refer by. -/
  numbers : List (String × Nat) := []
  deriving Inhabited

namespace Parse

def peek (parse : Parse) : Token := parse.tokens.head?.getD .streamEnd

def drop (parse : Parse) : Parse := { parse with tokens := parse.tokens.drop 1 }

/-- What stands before a node: an anchor and a tag, each at most once. -/
structure Properties where
  anchor : Option String := none
  tag : Option Tag := none
  deriving Inhabited

def Properties.isEmpty (properties : Properties) : Bool :=
  properties.anchor.isNone && properties.tag.isNone

def readProperties : Nat → Properties → Parse → Option (Properties × Parse)
  | 0, properties, parse => some (properties, parse)
  | most + 1, properties, parse =>
    match parse.peek with
    | .anchor name =>
      if properties.anchor.isSome then some (properties, parse)
      else readProperties most { properties with anchor := some name } parse.drop
    | .tag handle suffix =>
      if properties.tag.isSome then some (properties, parse)
      else do
        let tag ← Tag.resolve? parse.handles handle suffix
        readProperties most { properties with tag := some tag } parse.drop
    | _ => some (properties, parse)

/-- Gives the number of the next anchored node to a name. -/
def number (name : String) (parse : Parse) : Parse :=
  { parse with numbers := Assoc.put name parse.numbers.length parse.numbers }

mutual
/-- One node.  Block collections count only in block context, and a sequence without indentation
of its own only where a mapping allows it. -/
def readNode : Nat → Bool → Bool → Parse → Option (Node × Parse)
  | 0, _, _, _ => none
  | fuel + 1, inBlock, bareEntries, parse =>
    match parse.peek with
    | .alias name =>
      (Assoc.get? name parse.numbers).map fun number => (.alias number, parse.drop)
    | _ => do
      let (properties, parse) ← readProperties 2 {} parse
      match properties.anchor with
      | none => readContent fuel inBlock bareEntries properties parse
      | some name =>
        let (node, after) ←
          readContent fuel inBlock bareEntries properties (parse.number name)
        pure (.anchored parse.numbers.length node, after)

def readContent : Nat → Bool → Bool → Properties → Parse → Option (Node × Parse)
  | 0, _, _, _, _ => none
  | fuel + 1, inBlock, bareEntries, properties, parse =>
    match parse.peek, inBlock, bareEntries with
    | .blockEntry, _, true => readBareEntries fuel [] parse
    | .scalar style text, _, _ => some (.scalar style properties.tag text, parse.drop)
    | .flowSequenceStart, _, _ => readFlowSequence fuel [] parse.drop
    | .flowMappingStart, _, _ => readFlowMapping fuel [] parse.drop
    | .blockSequenceStart, true, _ => readBlockSequence fuel [] parse.drop
    | .blockMappingStart, true, _ => readBlockMapping fuel [] parse.drop
    | _, _, _ =>
      if properties.isEmpty then none else some (.scalar .plain properties.tag "", parse)

/-- A node, or a blank one if one of the given tokens comes next. -/
def readOptional : Nat → Bool → Bool → List Token → Parse → Option (Node × Parse)
  | 0, _, _, _, _ => none
  | fuel + 1, inBlock, bareEntries, endings, parse =>
    if parse.peek ∈ endings then some (.blank, parse)
    else readNode fuel inBlock bareEntries parse

/-- The value of an entry whose key has been read. -/
def readEntryValue : Nat → Bool → List Token → Parse → Option (Node × Parse)
  | 0, _, _, _ => none
  | fuel + 1, inBlock, endings, parse =>
    if parse.peek = .value then readOptional fuel inBlock inBlock endings parse.drop
    else some (.blank, parse)

def readBareEntries : Nat → List Node → Parse → Option (Node × Parse)
  | 0, _, _ => none
  | fuel + 1, items, parse =>
    if parse.peek = .blockEntry then do
      let (item, parse) ←
        readOptional fuel true false [.blockEntry, .key, .value, .blockEnd] parse.drop
      readBareEntries fuel (items ++ [item]) parse
    else some (.sequence items, parse)

def readBlockSequence : Nat → List Node → Parse → Option (Node × Parse)
  | 0, _, _ => none
  | fuel + 1, items, parse =>
    match parse.peek with
    | .blockEntry => do
      let (item, parse) ← readOptional fuel true false [.blockEntry, .blockEnd] parse.drop
      readBlockSequence fuel (items ++ [item]) parse
    | .blockEnd => some (.sequence items, parse.drop)
    | _ => none

def readBlockMapping : Nat → List (Node × Node) → Parse → Option (Node × Parse)
  | 0, _, _ => none
  | fuel + 1, entries, parse =>
    match parse.peek with
    | .key => do
      let (key, parse) ← readOptional fuel true true [.key, .value, .blockEnd] parse.drop
      let (value, parse) ← readEntryValue fuel true [.key, .value, .blockEnd] parse
      readBlockMapping fuel (entries ++ [(key, value)]) parse
    | .blockEnd => some (.mapping entries, parse.drop)
    | _ => none

/-- The key of a pair in brackets.  A token that can follow a key, where the key itself should be,
stands for a blank key. -/
def readPairKey : Nat → Parse → Option (Node × Parse)
  | 0, _ => none
  | fuel + 1, parse =>
    if parse.peek ∈ [.value, .flowEntry, .flowSequenceEnd] then some (.blank, parse.drop)
    else readNode fuel false false parse

/-- The items of a sequence in brackets.  An item that is a key with its value is a mapping of one
entry. -/
def readFlowSequence : Nat → List Node → Parse → Option (Node × Parse)
  | 0, _, _ => none
  | fuel + 1, items, parse =>
    if parse.peek = .flowSequenceEnd then some (.sequence items, parse.drop)
    else do
      let parse ←
        if items = [] then some parse
        else if parse.peek = .flowEntry then some parse.drop
        else none
      match parse.peek with
      | .flowSequenceEnd => pure (.sequence items, parse.drop)
      | .key =>
        let (key, parse) ← readPairKey fuel parse.drop
        let (value, parse) ← readEntryValue fuel false [.flowEntry, .flowSequenceEnd] parse
        readFlowSequence fuel (items ++ [.mapping [(key, value)]]) parse
      | _ =>
        let (item, parse) ← readNode fuel false false parse
        readFlowSequence fuel (items ++ [item]) parse

/-- The entries of a mapping in braces.  A key without a colon has a blank value. -/
def readFlowMapping : Nat → List (Node × Node) → Parse → Option (Node × Parse)
  | 0, _, _ => none
  | fuel + 1, entries, parse =>
    if parse.peek = .flowMappingEnd then some (.mapping entries, parse.drop)
    else do
      let parse ←
        if entries = [] then some parse
        else if parse.peek = .flowEntry then some parse.drop
        else none
      match parse.peek with
      | .flowMappingEnd => pure (.mapping entries, parse.drop)
      | .key =>
        let (key, parse) ←
          readOptional fuel false false [.value, .flowEntry, .flowMappingEnd] parse.drop
        let (value, parse) ← readEntryValue fuel false [.flowEntry, .flowMappingEnd] parse
        readFlowMapping fuel (entries ++ [(key, value)]) parse
      | _ =>
        let (key, parse) ← readNode fuel false false parse
        readFlowMapping fuel (entries ++ [(key, .blank)]) parse
end

/-- Passes the marks that end a document. -/
def dropEnds (parse : Parse) : Parse :=
  { parse with tokens := parse.tokens.dropWhile (· = .documentEnd) }

/-- The directives that come next. -/
def takeDirectives : List Token → List Directive × List Token
  | .directive value :: rest =>
    let (directives, after) := takeDirectives rest
    (value :: directives, after)
  | tokens => ([], tokens)

/-- The start of the first document, and the tokens before which it is blank.  It may go without a
mark unless there are directives, and is then blank only if the text has no tokens at all. -/
def readStart (tokens : List Token) : Option (List Token × Parse) := do
  let (directives, rest) := takeDirectives tokens
  let start : Parse := { tokens := rest, handles := ← Directive.handles? directives }
  if start.peek = .documentStart then
    pure ([.documentStart, .documentEnd, .streamEnd], start.drop)
  else if directives = [] then pure ([.streamEnd], start)
  else none

/-- The only document of a text; a text without any content is a blank node. -/
def readText (tokens : List Token) : Option Node := do
  let (endings, start) ← readStart tokens
  let fuel := 8 * start.tokens.length + 8
  let (node, after) ← readOptional fuel true false endings start
  if after.dropEnds.peek = .streamEnd then pure node else none

end Parse

/-- The node that a text holds. -/
def Node.ofText? (text : String) : Option Node := (tokens? text).bind Parse.readText

end RelationExpansion.Yaml
