/-! # UTF-8

`Utf8.decode` reads bytes as characters.  Bytes that cannot belong to any character give `none`
once for each longest run that could have begun one.  `Utf8.text?` refuses such bytes, and
`Utf8.lossyText` writes U+FFFD for each run.
-/

namespace RelationExpansion.Text.Utf8

def encode (text : List Char) : List UInt8 := text.flatMap String.utf8EncodeChar

/-- What a leading byte calls for: how many more bytes, and the range of the first of them. -/
def lead? (byte : UInt8) : Option (Nat × UInt8 × UInt8) :=
  if byte < 0xC2 then none
  else if byte ≤ 0xDF then some (1, 0x80, 0xBF)
  else if byte = 0xE0 then some (2, 0xA0, 0xBF)
  else if byte = 0xED then some (2, 0x80, 0x9F)
  else if byte ≤ 0xEF then some (2, 0x80, 0xBF)
  else if byte = 0xF0 then some (3, 0x90, 0xBF)
  else if byte ≤ 0xF3 then some (3, 0x80, 0xBF)
  else if byte = 0xF4 then some (3, 0x80, 0x8F)
  else none

def isContinuation (byte : UInt8) : Bool := 0x80 ≤ byte && byte ≤ 0xBF

/-- The low bits of a byte, below `bound`. -/
def payload (bound : Nat) (byte : UInt8) : Nat := byte.toNat % bound

def pairChar (a b : UInt8) : Char := Char.ofNat (payload 32 a * 64 + payload 64 b)

def tripleChar (a b c : UInt8) : Char :=
  Char.ofNat ((payload 16 a * 64 + payload 64 b) * 64 + payload 64 c)

def quadrupleChar (a b c d : UInt8) : Char :=
  Char.ofNat (((payload 8 a * 64 + payload 64 b) * 64 + payload 64 c) * 64 + payload 64 d)

def decode : List UInt8 → List (Option Char)
  | [] => []
  | a :: afterA =>
    match lead? a with
    | none => (if a < 0x80 then some (Char.ofNat a.toNat) else none) :: decode afterA
    | some (more, low, high) =>
      match afterA with
      | [] => [none]
      | b :: afterB =>
        if low ≤ b && b ≤ high then
          if more = 1 then some (pairChar a b) :: decode afterB
          else
            match afterB with
            | [] => [none]
            | c :: afterC =>
              if isContinuation c then
                if more = 2 then some (tripleChar a b c) :: decode afterC
                else
                  match afterC with
                  | [] => [none]
                  | d :: afterD =>
                    if isContinuation d then some (quadrupleChar a b c d) :: decode afterD
                    else none :: decode (d :: afterD)
              else none :: decode (c :: afterC)
        else none :: decode (b :: afterB)

def text? (bytes : List UInt8) : Option (List Char) := (decode bytes).mapM id

def lossyText (bytes : List UInt8) : List Char :=
  (decode bytes).map (·.getD (Char.ofNat 0xFFFD))

end RelationExpansion.Text.Utf8
