import RelationExpansion.Text.Utf8
import RelationExpansion.Text.Hex

/-! # Percent escapes

A percent sign and two hexadecimal digits stand for a byte.  A percent sign without them stands for
itself.
-/

namespace RelationExpansion.Text.Percent

/-- The byte that two hexadecimal digits stand for. -/
def unescape? (first second : UInt8) : Option UInt8 := do
  let high ← hexValue? (Char.ofNat first.toNat)
  let low ← hexValue? (Char.ofNat second.toNat)
  pure (UInt8.ofNat (high * 16 + low))

def decodeBytes : List UInt8 → List UInt8
  | [] => []
  | byte :: rest =>
    if byte = 0x25 then
      match rest with
      | first :: second :: left =>
        match unescape? first second with
        | some value => value :: decodeBytes left
        | none => byte :: decodeBytes (first :: second :: left)
      | short => byte :: short
    else byte :: decodeBytes rest

/-- The text with its escapes resolved, if the bytes are those of a text. -/
def decode? (text : List Char) : Option (List Char) :=
  Utf8.text? (decodeBytes (Utf8.encode text))

/-- A component of a submitted form: a plus sign is a blank, and bytes that are no text are
replaced. -/
def decodeForm (text : List Char) : List Char :=
  Utf8.lossyText (decodeBytes (Utf8.encode (text.map fun c => if c = '+' then ' ' else c)))

end RelationExpansion.Text.Percent
