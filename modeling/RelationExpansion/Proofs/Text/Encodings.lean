import Mathlib.Data.List.Basic
import RelationExpansion.Text.Blank
import RelationExpansion.Text.Percent

/-! # Reading back what was encoded

A text that is written in UTF-8 is read as the same text (`Utf8.text?_encode`).  Decoding goes by
the leading byte of a character, so there is one equation of `decode` for each length, and the rest
is arithmetic on the code.

`Percent.Writes` relates bytes to the texts in which all but the unreserved ones are escaped.  Such
a text consists of unreserved characters and percent signs only, and its escapes stand for the bytes
again (`Percent.decodeBytes_of_writes`).
-/

namespace RelationExpansion.Text

/-! ## UTF-8 -/

namespace Utf8

section Bytes

variable {a b c d low high : UInt8} {rest : List UInt8} {n : Nat}

theorem lead?_ofNat (byte : n < 256) :
    lead? (UInt8.ofNat n) =
      if n < 0xC2 then none
      else if n ≤ 0xDF then some (1, 0x80, 0xBF)
      else if n = 0xE0 then some (2, 0xA0, 0xBF)
      else if n = 0xED then some (2, 0x80, 0x9F)
      else if n ≤ 0xEF then some (2, 0x80, 0xBF)
      else if n = 0xF0 then some (3, 0x90, 0xBF)
      else if n ≤ 0xF3 then some (3, 0x80, 0xBF)
      else if n = 0xF4 then some (3, 0x80, 0x8F)
      else none := by
  simp [lead?, UInt8.lt_iff_toNat_lt, UInt8.le_iff_toNat_le, ← UInt8.toNat_inj,
    Nat.mod_eq_of_lt byte]

theorem isContinuation_ofNat (n : Nat) : isContinuation (UInt8.ofNat (n % 64 + 0x80)) = true := by
  simp [isContinuation, UInt8.le_iff_toNat_le]
  omega

theorem payload_ofNat {bound : Nat} (byte : n < 256) :
    payload bound (UInt8.ofNat n) = n % bound := by
  simp [payload, Nat.mod_eq_of_lt byte]

theorem decode_single (ascii : n < 0x80) :
    decode (UInt8.ofNat n :: rest) = some (Char.ofNat n) :: decode rest := by
  have alone : lead? (UInt8.ofNat n) = none := by
    rw [lead?_ofNat (by omega), if_pos (by omega)]
  have below : UInt8.ofNat n < 0x80 := by
    simp [UInt8.lt_iff_toNat_lt]
    omega
  have code : n % 256 = n := by omega
  rw [decode, alone]
  simp [below, code]

theorem decode_pair (lead : lead? a = some (1, low, high)) (second : low ≤ b ∧ b ≤ high) :
    decode (a :: b :: rest) = some (pairChar a b) :: decode rest := by
  rw [decode, lead]
  simp [second]

theorem decode_triple (lead : lead? a = some (2, low, high)) (second : low ≤ b ∧ b ≤ high)
    (third : isContinuation c = true) :
    decode (a :: b :: c :: rest) = some (tripleChar a b c) :: decode rest := by
  rw [decode, lead]
  simp [second, third]

theorem decode_quadruple (lead : lead? a = some (3, low, high)) (second : low ≤ b ∧ b ≤ high)
    (third : isContinuation c = true) (fourth : isContinuation d = true) :
    decode (a :: b :: c :: d :: rest) = some (quadrupleChar a b c d) :: decode rest := by
  rw [decode, lead]
  simp [second, third, fourth]

end Bytes

section Codes

variable {code : Nat}

theorem lead?_two (above : 0x7f < code) (below : code ≤ 0x7ff) :
    lead? (UInt8.ofNat (code / 64 % 0x20 + 0xc0)) = some (1, 0x80, 0xBF) := by
  rw [lead?_ofNat (by omega), if_neg (by omega), if_pos (by omega)]

-- After `0xE0` and `0xF0` the lower bound keeps out codes that have a shorter form, after `0xED`
-- the upper bound keeps out surrogates, and after `0xF4` codes beyond the last one.
theorem lead?_three (above : 0x7ff < code) (below : code ≤ 0xffff)
    (scalar : code < 0xD800 ∨ 0xDFFF < code) :
    ∃ low high, lead? (UInt8.ofNat (code / 4096 % 0x10 + 0xe0)) = some (2, low, high) ∧
      low ≤ UInt8.ofNat (code / 64 % 0x40 + 0x80) ∧
      UInt8.ofNat (code / 64 % 0x40 + 0x80) ≤ high := by
  rw [lead?_ofNat (by omega), if_neg (by omega), if_neg (by omega)]
  split
  · exact ⟨_, _, rfl, by simp [UInt8.le_iff_toNat_le]; omega⟩
  split
  · exact ⟨_, _, rfl, by simp [UInt8.le_iff_toNat_le]; omega⟩
  · rw [if_pos (by omega)]
    exact ⟨_, _, rfl, by simp [UInt8.le_iff_toNat_le]; omega⟩

theorem lead?_four (above : 0xffff < code) (below : code < 0x110000) :
    ∃ low high, lead? (UInt8.ofNat (code / 262144 % 0x08 + 0xf0)) = some (3, low, high) ∧
      low ≤ UInt8.ofNat (code / 4096 % 0x40 + 0x80) ∧
      UInt8.ofNat (code / 4096 % 0x40 + 0x80) ≤ high := by
  rw [lead?_ofNat (by omega), if_neg (by omega), if_neg (by omega), if_neg (by omega),
    if_neg (by omega), if_neg (by omega)]
  split
  · exact ⟨_, _, rfl, by simp [UInt8.le_iff_toNat_le]; omega⟩
  split
  · exact ⟨_, _, rfl, by simp [UInt8.le_iff_toNat_le]; omega⟩
  · rw [if_pos (by omega)]
    exact ⟨_, _, rfl, by simp [UInt8.le_iff_toNat_le]; omega⟩

end Codes

theorem decode_encodeChar (c : Char) (rest : List UInt8) :
    decode (String.utf8EncodeChar c ++ rest) = some c :: decode rest := by
  have scalar : c.toNat < 0xD800 ∨ 0xDFFF < c.toNat ∧ c.toNat < 0x110000 := c.valid
  have whole : ∀ {n : Nat}, n = c.toNat → Char.ofNat n = c := by
    intro n same
    rw [same, Char.ofNat_toNat]
  have code : c.val.toNat = c.toNat := rfl
  rw [String.utf8EncodeChar, code]
  -- One case for each number of bytes.
  split
  · rw [List.singleton_append, decode_single (by omega), whole rfl]
  split
  · have second := isContinuation_ofNat c.toNat
    simp only [isContinuation, Bool.and_eq_true, decide_eq_true_eq] at second
    rw [List.cons_append, List.singleton_append,
      decode_pair (lead?_two (by omega) (by omega)) second, pairChar, payload_ofNat (by omega),
      payload_ofNat (by omega), whole (by omega)]
  split
  · have above : 0x7ff < c.toNat := by omega
    obtain ⟨low, high, lead, second⟩ := lead?_three above (by omega) (by omega)
    rw [List.cons_append, List.cons_append, List.singleton_append,
      decode_triple lead second (isContinuation_ofNat _), tripleChar, payload_ofNat (by omega),
      payload_ofNat (by omega), payload_ofNat (by omega), whole (by omega)]
  · have above : 0xffff < c.toNat := by omega
    obtain ⟨low, high, lead, second⟩ := lead?_four above (by omega)
    rw [List.cons_append, List.cons_append, List.cons_append, List.singleton_append,
      decode_quadruple lead second (isContinuation_ofNat _) (isContinuation_ofNat _),
      quadrupleChar, payload_ofNat (by omega), payload_ofNat (by omega),
      payload_ofNat (by omega), payload_ofNat (by omega), whole (by omega)]

theorem text?_encode (text : List Char) : text? (encode text) = some text := by
  have decoded : decode (encode text) = text.map some := by
    induction text with
    | nil => rfl
    | cons c rest ih =>
      rw [encode, List.flatMap_cons, decode_encodeChar, List.map_cons]
      exact congrArg _ ih
  rw [text?, decoded, List.mapM_map]
  exact List.mapM_pure.trans (by simp)

theorem encode_cons_of_ascii {c : Char} (ascii : c.toNat < 0x80) (rest : List Char) :
    encode (c :: rest) = UInt8.ofNat c.toNat :: encode rest := by
  have code : c.val.toNat ≤ 0x7f := Nat.le_of_lt_succ ascii
  rw [encode, List.flatMap_cons, String.utf8EncodeChar, if_pos code]
  rfl

end Utf8

/-! ## Percent escapes -/

namespace Percent

/-- Letters, digits and four marks stand for themselves. -/
def isUnreserved (c : Char) : Bool := c.isAlphanum || c = '-' || c = '_' || c = '.' || c = '~'

/-- How bytes are written when all but the unreserved ones are escaped.  The digits of an escape
may be of either case. -/
inductive Writes : List UInt8 → List Char → Prop where
  | nil : Writes [] []
  | plain : isUnreserved (Char.ofNat byte.toNat) = true → Writes bytes text →
      Writes (byte :: bytes) (Char.ofNat byte.toNat :: text)
  | escape : isUnreserved (Char.ofNat byte.toNat) = false →
      hexValue? high = some (byte.toNat / 16) → hexValue? low = some (byte.toNat % 16) →
      Writes bytes text → Writes (byte :: bytes) ('%' :: high :: low :: text)

def upperDigit (n : Nat) : Char := (Nat.digitChar n).toUpper

def escapeByte (byte : UInt8) : List Char :=
  if isUnreserved (Char.ofNat byte.toNat) then [Char.ofNat byte.toNat]
  else ['%', upperDigit (byte.toNat / 16), upperDigit (byte.toNat % 16)]

/-- The escaped form of a text, with the digits of escapes in upper case. -/
def encode (text : List Char) : List Char := (Utf8.encode text).flatMap escapeByte

variable {byte : UInt8} {bytes : List UInt8} {text : List Char} {c high low : Char} {value : Nat}

theorem hexValue?_upperDigit {n : Nat} (digit : n < 16) : hexValue? (upperDigit n) = some n := by
  revert n
  decide

theorem writes_encode (text : List Char) : Writes (Utf8.encode text) (encode text) := by
  rw [encode]
  induction Utf8.encode text with
  | nil => exact .nil
  | cons byte rest ih =>
    have small := byte.toNat_lt
    rw [List.flatMap_cons, escapeByte]
    split
    · rename_i unreserved
      exact .plain unreserved ih
    · rename_i reserved
      exact .escape (by simpa using reserved) (hexValue?_upperDigit (by omega))
        (hexValue?_upperDigit (by omega)) ih

/-! ### The characters of an escaped text -/

theorem isAlphanum_of_hexValue? (digit : hexValue? c = some value) : c.isAlphanum = true := by
  rw [isAlphanum_iff]
  unfold hexValue? at digit
  split at digit
  · rename_i decimal
    exact .inr (Char.isDigit_iff_toNat.1 decimal)
  split at digit
  · rename_i lower
    have above : 97 ≤ c.toNat := UInt32.le_iff_toNat_le.1 lower.1
    have below : c.toNat ≤ 102 := UInt32.le_iff_toNat_le.1 lower.2
    omega
  split at digit
  · rename_i upper
    have above : 65 ≤ c.toNat := UInt32.le_iff_toNat_le.1 upper.1
    have below : c.toNat ≤ 70 := UInt32.le_iff_toNat_le.1 upper.2
    omega
  · cases digit

theorem isUnreserved_of_hexValue? (digit : hexValue? c = some value) : isUnreserved c = true := by
  simp [isUnreserved, isAlphanum_of_hexValue? digit]

theorem toNat_of_isUnreserved (unreserved : isUnreserved c = true) : c.toNat < 0x80 := by
  simp only [isUnreserved, Bool.or_eq_true, decide_eq_true_eq] at unreserved
  rcases unreserved with (((alphanum | rfl) | rfl) | rfl) | rfl
  · have code := isAlphanum_iff.1 alphanum
    omega
  all_goals decide

theorem toNat_of_hexValue? (digit : hexValue? c = some value) : c.toNat < 0x80 :=
  toNat_of_isUnreserved (isUnreserved_of_hexValue? digit)

theorem isBlank_of_isUnreserved (unreserved : isUnreserved c = true) : isBlank c = false := by
  simp only [isUnreserved, Bool.or_eq_true, decide_eq_true_eq] at unreserved
  rcases unreserved with (((alphanum | rfl) | rfl) | rfl) | rfl
  · exact isBlank_of_isAlphanum alphanum
  all_goals rfl

theorem isBlank_of_writes (writes : Writes bytes text) : ∀ c ∈ text, isBlank c = false := by
  induction writes with
  | nil => simp
  | plain unreserved _ ih =>
    exact List.forall_mem_cons.2 ⟨isBlank_of_isUnreserved unreserved, ih⟩
  | escape _ high low _ ih =>
    simp only [List.forall_mem_cons]
    exact ⟨rfl, isBlank_of_isUnreserved (isUnreserved_of_hexValue? high),
      isBlank_of_isUnreserved (isUnreserved_of_hexValue? low), ih⟩

theorem ofNat_toNat_of_ascii (ascii : c.toNat < 0x80) :
    Char.ofNat (UInt8.ofNat c.toNat).toNat = c := by
  rw [UInt8.toNat_ofNat', Nat.mod_eq_of_lt (by omega), Char.ofNat_toNat]

/-- A text of unreserved characters is written as it stands. -/
theorem eq_of_writes {encoded : List Char} (plain : ∀ c ∈ text, isUnreserved c = true)
    (writes : Writes (Utf8.encode text) encoded) : encoded = text := by
  induction text generalizing encoded with
  | nil =>
    cases writes
    rfl
  | cons c rest ih =>
    obtain ⟨unreserved, others⟩ := List.forall_mem_cons.1 plain
    have ascii := toNat_of_isUnreserved unreserved
    rw [Utf8.encode_cons_of_ascii ascii] at writes
    cases writes with
    | plain _ later => rw [ofNat_toNat_of_ascii ascii, ih others later]
    | escape reserved _ _ _ =>
      rw [ofNat_toNat_of_ascii ascii, unreserved] at reserved
      cases reserved

theorem cons_of_writes {encoded : List Char} (ascii : c.toNat < 0x80)
    (reserved : isUnreserved c = false) (writes : Writes (Utf8.encode (c :: text)) encoded) :
    ∃ rest, encoded = '%' :: rest := by
  rw [Utf8.encode_cons_of_ascii ascii] at writes
  cases writes with
  | plain unreserved _ =>
    rw [ofNat_toNat_of_ascii ascii, reserved] at unreserved
    cases unreserved
  | escape _ _ _ _ => exact ⟨_, rfl⟩

/-! ### Decoding -/

theorem decodeBytes_cons_of_ne (other : byte ≠ 0x25) (rest : List UInt8) :
    decodeBytes (byte :: rest) = byte :: decodeBytes rest := by
  rw [decodeBytes.eq_def]
  simp [other]

theorem ofNat_toNat_ofNat (byte : UInt8) : UInt8.ofNat (Char.ofNat byte.toNat).toNat = byte := by
  have small := byte.toNat_lt
  have code : (Char.ofNat byte.toNat).toNat = byte.toNat := by
    rw [Char.ofNat, dif_pos (.inl (by omega))]
    rfl
  rw [code, UInt8.ofNat_toNat]

theorem unescape?_digits (first : hexValue? high = some (byte.toNat / 16))
    (second : hexValue? low = some (byte.toNat % 16)) :
    unescape? (UInt8.ofNat high.toNat) (UInt8.ofNat low.toNat) = some byte := by
  have whole : byte.toNat / 16 * 16 + byte.toNat % 16 = byte.toNat := by omega
  rw [unescape?, ofNat_toNat_of_ascii (toNat_of_hexValue? first),
    ofNat_toNat_of_ascii (toNat_of_hexValue? second), first, second]
  simp only [Option.bind_eq_bind, Option.bind_some, whole, UInt8.ofNat_toNat]
  rfl

theorem decodeBytes_of_writes (writes : Writes bytes text) :
    decodeBytes (Utf8.encode text) = bytes := by
  induction writes with
  | nil => rfl
  | plain unreserved _ ih =>
    have ascii := toNat_of_isUnreserved unreserved
    rw [Utf8.encode_cons_of_ascii ascii, ofNat_toNat_ofNat, decodeBytes_cons_of_ne, ih]
    rintro rfl
    cases unreserved
  | escape _ high low _ ih =>
    have sign : UInt8.ofNat '%'.toNat = 0x25 := rfl
    rw [Utf8.encode_cons_of_ascii (by decide), Utf8.encode_cons_of_ascii (toNat_of_hexValue? high),
      Utf8.encode_cons_of_ascii (toNat_of_hexValue? low), sign, decodeBytes, if_pos rfl,
      unescape?_digits high low]
    exact congrArg _ ih

theorem decode?_of_writes {encoded : List Char} (writes : Writes (Utf8.encode text) encoded) :
    decode? encoded = some text := by
  rw [decode?, decodeBytes_of_writes writes, Utf8.text?_encode]

end Percent

end RelationExpansion.Text
