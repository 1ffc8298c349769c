import RelationExpansion.Text.Cut
import RelationExpansion.Text.Hex

/-! # Identifiers of records

A record is known by 128 bits.  They are written as 32 lower-case hexadecimal digits with hyphens
after the 8th, 12th, 16th and 20th.  Reading takes that form with digits in any case, also within
braces or after `urn:uuid:` in any case, and the digits alone without hyphens.
-/

namespace RelationExpansion

structure Uuid where
  bits : BitVec 128
  deriving DecidableEq, Repr, Inhabited

namespace Uuid

def chars (id : Uuid) : List Char :=
  let digits := Text.hexDigits id.bits.toNat 32
  digits.take 8 ++ '-' :: (digits.drop 8).take 4 ++ '-' :: (digits.drop 12).take 4 ++
    '-' :: (digits.drop 16).take 4 ++ '-' :: digits.drop 20

def text (id : Uuid) : String := String.ofList id.chars

/-! ## Reading -/

def ofHex? (digits : List Char) : Option Uuid :=
  if digits.length = 32 then
    (digits.foldlM (fun value c => (Text.hexValue? c).map (16 * value + ·)) 0).map fun value =>
      ⟨BitVec.ofNat 128 value⟩
  else none

/-- Five groups of digits with hyphens between them. -/
def ofGroups? (text : List Char) : Option Uuid :=
  let groups := Text.cutEvery '-' text
  if groups.map List.length = [8, 4, 4, 4, 12] then ofHex? groups.flatten else none

/-- What stands between braces or after the name of the notation, or else the text itself. -/
def bare (text : List Char) : List Char :=
  let urn := "urn:uuid:".toList
  if (text.take urn.length).map Char.toLower = urn then text.drop urn.length
  else
    match text with
    | '\x7b' :: rest => (Text.dropEnd? ['\x7d'] rest).getD text
    | _ => text

def ofChars? (text : List Char) : Option Uuid :=
  if text.length = 32 then ofHex? text else ofGroups? (bare text)

def ofText? (text : String) : Option Uuid := ofChars? text.toList

/-! ## New identifiers -/

/-- The identifier of version 4 whose other bits are those of a number. -/
def ofRandom (value : Nat) : Uuid :=
  let bits := BitVec.ofNat 128 value
  let version := (0xF : BitVec 128) <<< 76
  let variant := (0x3 : BitVec 128) <<< 62
  ⟨(bits &&& ~~~version &&& ~~~variant) ||| (0x4 : BitVec 128) <<< 76 ||| (0x2 : BitVec 128) <<< 62⟩

end Uuid

end RelationExpansion
