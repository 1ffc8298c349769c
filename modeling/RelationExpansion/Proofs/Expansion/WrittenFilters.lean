import RelationExpansion.Proofs.Expansion.WrittenModifiers
import RelationExpansion.Proofs.Json.ReadingBack
import RelationExpansion.Proofs.Text.Encodings

/-! # Writing filters

A filter is read as the value that was written, whether its text stands as it is or percent-escaped,
and with any blanks around it (`Filter.ofText?_written`).  The reader tries the text as it stands
first.  An escaped text is never mistaken for another value there: either nothing in it is escaped,
and then it is the text itself, or it starts with a percent sign, as no JSON text does.
-/

namespace RelationExpansion

open Text (isBlank)
open Text.Percent (Writes isUnreserved)

namespace Json

variable {value : Json} {levels : Nat}

theorem ofChars?_percent (rest : List Char) : ofChars? ('%' :: rest) = none := by
  have unmarked : '%' ∉ valueMarks := by decide
  have unread : readNumber ('%' :: rest) = none := by
    simp [readNumber, readUnsigned, readWhole, takeDigits]
  rw [ofChars?, readValue_of_unmarked unmarked, unread]
  rfl

/-- The words and the integers hold nothing that would be escaped, and all other values start with
a mark that is. -/
theorem FitsIn.chars_cases (fits : FitsIn levels value) :
    (∀ c ∈ value.chars, isUnreserved c = true) ∨
      ∃ c rest, value.chars = c :: rest ∧ c.toNat < 0x80 ∧ isUnreserved c = false := by
  cases fits with
  | null => exact .inl (List.all_eq_true.1 (by decide))
  | @bool _ value => cases value <;> exact .inl (List.all_eq_true.1 (by decide))
  | @integer value _ =>
    apply Or.inl
    have digits : ∀ c ∈ Nat.toDigits 10 value.natAbs, isUnreserved c = true := by
      intro c mem
      simp [isUnreserved, Char.isAlphanum, Text.isDigit_toDigits _ c mem]
    rw [chars, numberChars, intChars]
    split
    · exact List.forall_mem_cons.2 ⟨rfl, digits⟩
    · exact digits
  | string => exact .inr ⟨_, _, rfl, by decide, rfl⟩
  | array _ => exact .inr ⟨_, _, rfl, by decide, rfl⟩
  | object _ _ => exact .inr ⟨_, _, rfl, by decide, rfl⟩

end Json

namespace Filter

variable {value : Json} {front back encoded : List Char}

theorem ofText?_around (before : ∀ c ∈ front, isBlank c = true)
    (after : ∀ c ∈ back, isBlank c = true) (text : List Char) :
    ofText? (front ++ text ++ back) = ofText? text := by
  rw [ofText?, Text.trim_around before after, ← ofText?]

theorem ofText?_of_writes (fits : value.FitsIn Json.maxDepth)
    (writes : Writes (Text.Utf8.encode value.chars) encoded) : ofText? encoded = some value := by
  have reads := Json.ofChars?_chars fits
  cases fits.chars_cases with
  | inl plain =>
    rw [Text.Percent.eq_of_writes plain writes]
    exact ofText?_chars reads
  | inr marked =>
    obtain ⟨c, rest, shape, ascii, reserved⟩ := marked
    -- The escaped text is turned down as it stands, and only then decoded.
    have decoded := Text.Percent.decode?_of_writes writes
    have blankless := Text.Percent.isBlank_of_writes writes
    obtain ⟨others, rfl⟩ : ∃ others, encoded = '%' :: others := by
      rw [shape] at writes
      exact Text.Percent.cons_of_writes ascii reserved writes
    have solid : Text.IsSolid ('%' :: others) :=
      Text.isSolid_of_forall (List.cons_ne_nil _ _) blankless
    simp only [ofText?, solid.trim, Json.ofChars?_percent, decoded, Option.bind_some, reads]

/-- A filter is the value that was written, with its text as it stands or percent-escaped, and with
blanks around it or without. -/
theorem ofText?_written (fits : value.FitsIn 127) (before : ∀ c ∈ front, isBlank c = true)
    (after : ∀ c ∈ back, isBlank c = true) :
    ofText? (front ++ value.chars ++ back) = some value ∧
      (∀ encoded, Writes (Text.Utf8.encode value.chars) encoded →
        ofText? (front ++ encoded ++ back) = some value) ∧
      ∀ text, ofText? (front ++ text ++ back) = ofText? text := by
  have around := ofText?_around before after
  refine ⟨?_, ?_, around⟩
  · rw [around]
    exact ofText?_chars (Json.ofChars?_chars fits)
  · intro encoded writes
    rw [around]
    exact ofText?_of_writes fits writes

/-- A value whose strings hold percent signs, what looks like escapes, and marks of other kinds. -/
def percents : Json :=
  .object [("50%", .string "%41%7B\u00e9\u2003\"\\\n"),
    ("ids", .array [.number (.int (-9223372036854775808)), .number (.int 18446744073709551615)])]

theorem fitsIn_percents : percents.FitsIn 127 := by
  have ids : ∀ item ∈ [Json.number (.int (-9223372036854775808)),
      .number (.int 18446744073709551615)], item.FitsIn 125 := by
    simp only [List.forall_mem_cons, List.not_mem_nil, false_implies, implies_true, and_true]
    exact ⟨.integer ⟨by omega, by omega⟩, .integer ⟨by omega, by omega⟩⟩
  apply Json.FitsIn.object (by decide)
  simp only [List.forall_mem_cons, List.not_mem_nil, false_implies, implies_true, and_true]
  exact ⟨.string, .array ids⟩

theorem ofText?_written_percents :
    let text := "\x7b\"50%\":\"%41%7B\u00e9\u2003\\\"\\\\\\n\"," ++
      "\"ids\":[-9223372036854775808,18446744073709551615]\x7d"
    let escaped := "%7B%2250%25%22%3A%22%2541%257B%C3%A9%E2%80%83%5C%22%5C%5C%5Cn%22%2C" ++
      "%22ids%22%3A%5B-9223372036854775808%2C18446744073709551615%5D%7D"
    ofText? ("\u2003 " ++ text ++ "\n").toList = some percents ∧
      ofText? ("\u2003 " ++ escaped ++ "\n").toList = some percents := by
  intro text escaped
  have written : percents.chars = text.toList := by decide +kernel
  have encoded : Text.Percent.encode percents.chars = escaped.toList := by decide +kernel
  have before : ∀ c ∈ "\u2003 ".toList, isBlank c = true := List.all_eq_true.1 (by decide)
  have after : ∀ c ∈ "\n".toList, isBlank c = true := List.all_eq_true.1 (by decide)
  obtain ⟨plain, decoded, -⟩ := ofText?_written fitsIn_percents before after
  have unescaped := decoded _ (Text.Percent.writes_encode _)
  rw [written] at plain
  rw [encoded] at unescaped
  constructor
  · rw [String.toList_append, String.toList_append]
    exact plain
  · rw [String.toList_append, String.toList_append]
    exact unescaped

end Filter

end RelationExpansion
