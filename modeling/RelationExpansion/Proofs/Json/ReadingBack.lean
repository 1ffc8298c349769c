import RelationExpansion.Json.Printer
import RelationExpansion.Json.Reader
import RelationExpansion.Proofs.Number.Rounding
import RelationExpansion.Proofs.Text.Splitting

/-! # Reading back what was written

The text of a value is read as the same value (`ofChars?_chars`), if the value holds no double, its
integers fit in 64 bits, and no more arrays and objects are inside each other than the reader takes.

A reader stops at the first character that cannot go on, so each statement is about a text with
anything behind it that may stand after a value (`EndsValue`).
-/

namespace RelationExpansion.Json

/-- A value without doubles that a text can hold: its integers fit in 64 bits, no object has two
members of one name, and at most `levels` arrays and objects are inside each other. -/
inductive FitsIn : Nat → Json → Prop where
  | null : FitsIn levels .null
  | bool : FitsIn levels (.bool value)
  | integer : Number.Fits (.int value) → FitsIn levels (.number (.int value))
  | string : FitsIn levels (.string value)
  | array : (∀ item ∈ items, FitsIn levels item) → FitsIn (levels + 1) (.array items)
  | object : (Assoc.keys members).Nodup → (∀ entry ∈ members, FitsIn levels entry.2) →
      FitsIn (levels + 1) (.object members)

/-- What may stand after a value: nothing, a comma, or the bracket that closes what it is in. -/
def EndsValue : List Char → Prop
  | [] => True
  | c :: _ => c = ',' ∨ c = ']' ∨ c = '\x7d'

variable {rest text : List Char} {c : Char} {fuel levels n : Nat} {value : Json}

/-! ## Numbers -/

/-- The number that digits make after a number that was read before them. -/
def digitsValue (start : Nat) (digits : List Char) : Nat :=
  digits.foldl (fun value c => 10 * value + Count.digitValue c) start

theorem le_digitsValue (start : Nat) (digits : List Char) : start ≤ digitsValue start digits := by
  induction digits generalizing start with
  | nil => exact Nat.le_refl start
  | cons c rest ih =>
    have later : 10 * start + Count.digitValue c ≤ digitsValue start (c :: rest) := ih _
    omega

theorem absorb_of_fits {start : Nat} {digits : List Char}
    (fits : digitsValue start digits ≤ Count.largest) :
    absorb start digits = (digitsValue start digits, digits.length) := by
  induction digits generalizing start with
  | nil => rfl
  | cons c rest ih =>
    -- What the first digits make is no larger than the whole, so none of them is turned down.
    have small : 10 * start + Count.digitValue c ≤ Count.largest :=
      Nat.le_trans (le_digitsValue _ rest) fits
    rw [absorb]
    dsimp only
    rw [if_pos small, ih fits]
    rfl

theorem toDigits_cons_of_pos (positive : 0 < n) :
    ∃ c rest, Nat.toDigits 10 n = c :: rest ∧ c ≠ '0' := by
  induction n using Nat.strongRecOn with
  | _ n ih =>
    by_cases small : n < 10
    · refine ⟨Nat.digitChar n, [], Nat.toDigits_of_lt_base small, ?_⟩
      simp
      omega
    · obtain ⟨c, rest, shape, other⟩ := ih (n / 10) (by omega) (by omega)
      refine ⟨c, rest ++ [Nat.digitChar (n % 10)], ?_, other⟩
      rw [Nat.toDigits_of_base_le (by decide) (by omega), shape, List.cons_append]

theorem toDigits_cons (n : Nat) :
    ∃ c rest, Nat.toDigits 10 n = c :: rest ∧ c.isDigit = true := by
  have digital := Text.isDigit_toDigits n
  obtain ⟨c, rest, shape⟩ := List.exists_cons_of_ne_nil (Nat.toDigits_ne_nil (n := n) (b := 10))
  rw [shape] at digital
  exact ⟨c, rest, shape, digital c (List.mem_cons_self ..)⟩

theorem takeDigits_append {digits : List Char} (digital : ∀ c ∈ digits, c.isDigit = true)
    (ends : EndsValue rest) : takeDigits (digits ++ rest) = (digits, rest) := by
  have undigital : rest.takeWhile Char.isDigit = [] ∧ rest.dropWhile Char.isDigit = rest := by
    cases rest with
    | nil => exact ⟨rfl, rfl⟩
    | cons c others => rcases ends with rfl | rfl | rfl <;> exact ⟨rfl, rfl⟩
  rw [takeDigits, List.takeWhile_append_of_pos digital, List.dropWhile_append_of_pos digital,
    undigital.1, undigital.2, List.append_nil]

theorem readWhole_toDigits (n : Nat) (ends : EndsValue rest) :
    readWhole (Nat.toDigits 10 n ++ rest) = some (Nat.toDigits 10 n, rest) := by
  cases Nat.eq_zero_or_pos n with
  | inl zero =>
    have alone : (rest.head?.map Char.isDigit).getD false = false := by
      cases rest with
      | nil => rfl
      | cons c others => rcases ends with rfl | rfl | rfl <;> rfl
    rw [zero, Nat.toDigits_zero, List.singleton_append, readWhole, alone]
    rfl
  | inr positive =>
    obtain ⟨c, more, shape, other⟩ := toDigits_cons_of_pos positive
    have taken := takeDigits_append (Text.isDigit_toDigits n) ends
    rw [shape, List.cons_append] at taken ⊢
    rw [readWhole, taken]
    · simp
    · simpa using other

theorem readFraction_of_ends (ends : EndsValue rest) : readFraction rest = some (none, rest) := by
  cases rest with
  | nil => rfl
  | cons c others => rcases ends with rfl | rfl | rfl <;> rfl

theorem readExponent_of_ends (ends : EndsValue rest) : readExponent rest = some (none, rest) := by
  cases rest with
  | nil => rfl
  | cons c others => rcases ends with rfl | rfl | rfl <;> rfl

theorem readUnsigned_toDigits {negative : Bool} (fits : n ≤ Count.largest)
    (signed : negative = true → 0 < n ∧ n ≤ Nat.pow 2 63) (ends : EndsValue rest) :
    readUnsigned negative (Nat.toDigits 10 n ++ rest) =
      some (.int (if negative then -(n : Int) else n), rest) := by
  have whole : digitsValue 0 (Nat.toDigits 10 n) = n := Nat.ofDigitChars_ten_toDigits
  have absorbed : absorb 0 (Nat.toDigits 10 n) = (n, (Nat.toDigits 10 n).length) := by
    rw [absorb_of_fits (by omega), whole]
  have number : number? negative (Nat.toDigits 10 n) none none =
      some (.int (if negative then -(n : Int) else n)) := by
    rw [number?, absorbed]
    exact if_pos ⟨Nat.sub_self _, rfl, rfl, signed⟩
  simp [readUnsigned, readWhole_toDigits n ends, readFraction_of_ends ends,
    readExponent_of_ends ends, number]

theorem intChars_cons (value : Int) :
    ∃ c text, intChars value = c :: text ∧ (c = '-' ∨ c.isDigit = true) := by
  rw [intChars]
  split
  · exact ⟨_, _, rfl, .inl rfl⟩
  · obtain ⟨c, text, shape, digit⟩ := toDigits_cons value.natAbs
    exact ⟨c, text, shape, .inr digit⟩

theorem readNumber_intChars {value : Int} (fits : Number.Fits (.int value))
    (ends : EndsValue rest) :
    readNumber (intChars value ++ rest) = some (.int value, rest) := by
  obtain ⟨low, high⟩ := fits
  have small : value.natAbs ≤ Count.largest := by
    rw [Count.largest, Nat.pow_eq]
    omega
  rw [intChars]
  split
  · -- The smallest integer is one further from zero than the largest signed one.
    have signed : 0 < value.natAbs ∧ value.natAbs ≤ Nat.pow 2 63 := by
      rw [Nat.pow_eq]
      omega
    have same : -(value.natAbs : Int) = value := by omega
    rw [List.cons_append, readNumber, readUnsigned_toDigits small (fun _ => signed) ends,
      if_pos rfl, same]
  · have same : (value.natAbs : Int) = value := by omega
    have unsigned : false = true → 0 < value.natAbs ∧ value.natAbs ≤ Nat.pow 2 63 :=
      fun signed => absurd signed Bool.false_ne_true
    have read := readUnsigned_toDigits small unsigned ends
    rw [if_neg Bool.false_ne_true, same] at read
    obtain ⟨c, more, shape, digit⟩ := toDigits_cons value.natAbs
    rw [shape, List.cons_append] at read ⊢
    rw [readNumber]
    · exact read
    · -- A digit is no sign.
      intro left signed
      rw [(List.cons.inj signed).1] at digit
      cases digit

/-! ## Strings -/

theorem unit?_digits (control : n < 32) :
    unit? '0' '0' (Nat.digitChar (n / 16)) (Nat.digitChar (n % 16)) = some n := by
  revert n
  decide

theorem readUnits_escape (c : Char) (rest : List Char) :
    readUnits (escape c ++ rest) =
      (readUnits rest).map fun found => (c.toNat :: found.1, found.2) := by
  unfold escape
  -- Seven characters have an escape of one character after the backslash.
  iterate 7
    split
    · subst c
      rfl
  split
  · rename_i control
    rw [List.cons_append, List.cons_append, readUnits.eq_def]
    simp [unit?_digits control]
  · rename_i unquoted unescaped _ _ _ _ _ control
    rw [List.singleton_append, readUnits.eq_def]
    simp [unquoted, unescaped, control]

theorem joinUnits_codes (text : List Char) : joinUnits (text.map Char.toNat) = some text := by
  induction text with
  | nil => rfl
  | cons c rest ih =>
    have scalar : c.toNat < 0xD800 ∨ 0xDFFF < c.toNat ∧ c.toNat < 0x110000 := c.valid
    have trailing : isTrailing c.toNat = false := by
      simp [isTrailing]
      omega
    have leading : isLeading c.toNat = false := by
      simp [isLeading]
      omega
    rw [List.map_cons, joinUnits.eq_def]
    simp [trailing, leading, ih]

theorem readString_quote (text : String) (rest : List Char) :
    readString (quote text ++ rest) = some (text, rest) := by
  have inside : ∀ chars : List Char, readUnits (chars.flatMap escape ++ '"' :: rest) =
      some (chars.map Char.toNat, rest) := by
    intro chars
    induction chars with
    | nil =>
      rw [List.flatMap_nil, List.nil_append, readUnits.eq_def]
      rfl
    | cons c others ih =>
      rw [List.flatMap_cons, List.append_assoc, readUnits_escape, ih]
      rfl
  rw [quote, List.append_assoc]
  simp [readString, inside, joinUnits_codes]

/-! ## Values -/

/-- Whether a value is read back from its text, if so many arrays and objects may still be opened.
Each reader that calls another one has taken a character, and there are at most two such calls for
one character. -/
def ReadsBack (levels : Nat) (value : Json) : Prop :=
  ∀ (fuel : Nat) (rest : List Char), 2 * value.chars.length ≤ fuel → EndsValue rest →
    readValue (fuel + 1) levels (value.chars ++ rest) = some (value, rest)

theorem skipBlanks_cons (solid : isJsonBlank c = false) (rest : List Char) :
    skipBlanks (c :: rest) = c :: rest := by
  rw [skipBlanks, List.dropWhile_cons, solid]
  rfl

/-- The characters that blanks and the values other than numbers start with. -/
def valueMarks : List Char := [' ', '\t', '\n', '\r', 'n', 't', 'f', '"', '[', '\x7b']

theorem readValue_of_unmarked (unmarked : c ∉ valueMarks) (text : List Char) :
    readValue (fuel + 1) levels (c :: text) =
      (readNumber (c :: text)).map fun found => (.number found.1, found.2) := by
  simp only [valueMarks, List.mem_cons, List.not_mem_nil, or_false, not_or] at unmarked
  have solid : isJsonBlank c = false := by simp [isJsonBlank, unmarked]
  simp [readValue, skipBlanks_cons solid, unmarked]

theorem readsBack_integer {value : Int} (fits : Number.Fits (.int value)) :
    ReadsBack levels (.number (.int value)) := by
  intro fuel rest _ ends
  obtain ⟨c, text, shape, start⟩ := intChars_cons value
  have unmarked : c ∉ valueMarks := by
    cases start with
    | inl sign =>
      subst c
      decide
    | inr digit =>
      intro mem
      simp only [valueMarks, List.mem_cons, List.not_mem_nil, or_false] at mem
      rcases mem with rfl | rfl | rfl | rfl | rfl | rfl | rfl | rfl | rfl | rfl <;> cases digit
  have read := readNumber_intChars fits ends
  rw [chars, numberChars]
  rw [shape, List.cons_append] at read ⊢
  rw [readValue_of_unmarked unmarked, read]
  rfl

theorem readsBack_string (text : String) : ReadsBack levels (.string text) := by
  intro fuel rest _ _
  have read := readString_quote text rest
  rw [chars]
  rw [quote, List.cons_append, List.cons_append] at read ⊢
  rw [readValue, skipBlanks_cons rfl]
  exact congrArg (Option.map _) read

/-! ### Arrays -/

theorem readItems_of_closed {left : List Char} (closed : skipBlanks text = ']' :: left) :
    readItems fuel levels text = none := by
  cases fuel with
  | zero => rfl
  | succ fuel =>
    have unread : readValue fuel levels text = none := by
      cases fuel with
      | zero => rfl
      | succ fuel => simp [readValue, closed, readNumber, readUnsigned, readWhole, takeDigits]
    simp [readItems, unread]

theorem readItems_next {item : Json} {left : List Char}
    (read : readValue fuel levels text = some (item, ',' :: left)) :
    readItems (fuel + 1) levels text =
      (readItems fuel levels left).map fun found => (item :: found.1, found.2) := by
  rw [readItems, read, Option.map_eq_bind]
  rfl

theorem readItems_last {item : Json} {left : List Char}
    (read : readValue fuel levels text = some (item, ']' :: left)) :
    readItems (fuel + 1) levels text = some ([item], left) := by
  rw [readItems, read]
  rfl

theorem readItems_itemChars {items : List Json} (nonempty : items ≠ [])
    (each : ∀ item ∈ items, ReadsBack levels item)
    (enough : 2 * (itemChars items).length ≤ fuel) :
    readItems fuel levels (itemChars items ++ rest) = some (items, rest) := by
  induction items generalizing fuel with
  | nil => exact absurd rfl nonempty
  | cons item others ih =>
    have first := each item (List.mem_cons_self ..)
    cases others with
    | nil =>
      simp only [itemChars, List.length_append, List.length_singleton] at enough
      obtain ⟨spare, rfl⟩ : ∃ spare, fuel = spare + 2 := ⟨fuel - 2, by omega⟩
      have read := first spare (']' :: rest) (by omega) (.inr (.inl rfl))
      rw [itemChars, List.append_assoc, List.singleton_append, readItems_last read]
    | cons next more =>
      simp only [itemChars, List.length_append, List.length_cons] at enough
      obtain ⟨spare, rfl⟩ : ∃ spare, fuel = spare + 2 := ⟨fuel - 2, by omega⟩
      have read := first spare (',' :: (itemChars (next :: more) ++ rest)) (by omega) (.inl rfl)
      have later : readItems (spare + 1) levels (itemChars (next :: more) ++ rest) =
          some (next :: more, rest) :=
        ih (List.cons_ne_nil _ _) (fun item mem => each item (List.mem_cons_of_mem _ mem))
          (by omega)
      rw [itemChars, List.append_assoc, List.cons_append, readItems_next read, later]
      rfl

theorem readsBack_array {items : List Json} (each : ∀ item ∈ items, ReadsBack levels item) :
    ReadsBack (levels + 1) (.array items) := by
  intro fuel rest enough _
  rw [chars, List.length_cons] at enough
  rw [chars, List.cons_append]
  cases items with
  | nil => rfl
  | cons item others =>
    have read : readItems fuel levels (itemChars (item :: others) ++ rest) =
        some (item :: others, rest) :=
      readItems_itemChars (List.cons_ne_nil _ _) each (by omega)
    simp only [readValue, skipBlanks_cons (c := '[') rfl, Nat.add_one_ne_zero, if_false,
      Nat.add_sub_cancel]
    split
    · -- Items that could be read do not start with the closing bracket.
      rename_i closed
      rw [readItems_of_closed closed] at read
      cases read
    · exact congrArg (Option.map _) read

/-! ### Objects -/

theorem readMembers_of_closed {left : List Char} (closed : skipBlanks text = '\x7d' :: left) :
    readMembers fuel levels text = none := by
  cases fuel with
  | zero => rfl
  | succ fuel => simp [readMembers, closed, readString]

theorem readMembers_next {name : String} {left : List Char}
    (read : readValue fuel levels text = some (value, ',' :: left)) :
    readMembers (fuel + 1) levels (quote name ++ ':' :: text) =
      (readMembers fuel levels left).map fun found => ((name, value) :: found.1, found.2) := by
  have quoted : skipBlanks (quote name ++ ':' :: text) = quote name ++ ':' :: text :=
    skipBlanks_cons rfl _
  rw [readMembers, quoted, readString_quote]
  cases later : readMembers fuel levels left with
  | none => simp [skipBlanks_cons, isJsonBlank, read, later]
  | some found => simp [skipBlanks_cons, isJsonBlank, read, later]

theorem readMembers_last {name : String} {left : List Char}
    (read : readValue fuel levels text = some (value, '\x7d' :: left)) :
    readMembers (fuel + 1) levels (quote name ++ ':' :: text) = some ([(name, value)], left) := by
  have quoted : skipBlanks (quote name ++ ':' :: text) = quote name ++ ':' :: text :=
    skipBlanks_cons rfl _
  rw [readMembers, quoted, readString_quote]
  simp [skipBlanks_cons, isJsonBlank, read]

theorem readMembers_memberChars {members : List (String × Json)} (nonempty : members ≠ [])
    (each : ∀ entry ∈ members, ReadsBack levels entry.2)
    (enough : 2 * (memberChars members).length ≤ fuel) :
    readMembers fuel levels (memberChars members ++ rest) = some (members, rest) := by
  induction members generalizing fuel with
  | nil => exact absurd rfl nonempty
  | cons entry others ih =>
    obtain ⟨name, value⟩ := entry
    have first : ReadsBack levels value := each (name, value) (List.mem_cons_self ..)
    cases others with
    | nil =>
      simp only [memberChars, List.length_append, List.length_cons, List.length_nil] at enough
      obtain ⟨spare, rfl⟩ : ∃ spare, fuel = spare + 2 := ⟨fuel - 2, by omega⟩
      have read := first spare ('\x7d' :: rest) (by omega) (.inr (.inr rfl))
      rw [memberChars, List.append_assoc, List.cons_append, List.append_assoc,
        List.singleton_append, readMembers_last read]
    | cons next more =>
      simp only [memberChars, List.length_append, List.length_cons] at enough
      obtain ⟨spare, rfl⟩ : ∃ spare, fuel = spare + 2 := ⟨fuel - 2, by omega⟩
      have read := first spare (',' :: (memberChars (next :: more) ++ rest)) (by omega) (.inl rfl)
      have later : readMembers (spare + 1) levels (memberChars (next :: more) ++ rest) =
          some (next :: more, rest) :=
        ih (List.cons_ne_nil _ _) (fun entry mem => each entry (List.mem_cons_of_mem _ mem))
          (by omega)
      rw [memberChars, List.append_assoc, List.cons_append, List.append_assoc, List.cons_append,
        readMembers_next read, later]
      rfl

theorem readsBack_object {members : List (String × Json)} (distinct : (Assoc.keys members).Nodup)
    (each : ∀ entry ∈ members, ReadsBack levels entry.2) :
    ReadsBack (levels + 1) (.object members) := by
  intro fuel rest enough _
  rw [chars, List.length_cons] at enough
  rw [chars, List.cons_append]
  cases members with
  | nil => rfl
  | cons entry others =>
    have read : readMembers fuel levels (memberChars (entry :: others) ++ rest) =
        some (entry :: others, rest) :=
      readMembers_memberChars (List.cons_ne_nil _ _) each (by omega)
    have written : Assoc.ofList (entry :: others) = entry :: others :=
      Assoc.putAll_eq_append (by simpa using distinct)
    simp only [readValue, skipBlanks_cons (c := '\x7b') rfl, Nat.add_one_ne_zero, if_false,
      Nat.add_sub_cancel]
    split
    · rename_i closed
      rw [readMembers_of_closed closed] at read
      cases read
    · rw [read, Option.map_some, written]

/-! ### All values -/

theorem FitsIn.readsBack (fits : FitsIn levels value) : ReadsBack levels value := by
  induction fits with
  | null => exact fun _ _ _ _ => rfl
  | @bool _ value => exact fun _ _ _ _ => by cases value <;> rfl
  | integer bounds => exact readsBack_integer bounds
  | string => exact readsBack_string _
  | array _ each => exact readsBack_array each
  | object distinct _ each => exact readsBack_object distinct each

theorem ofChars?_chars (fits : FitsIn maxDepth value) : ofChars? value.chars = some value := by
  have read := fits.readsBack (2 * value.chars.length) [] (Nat.le_refl _) trivial
  rw [List.append_nil] at read
  rw [ofChars?, read]
  rfl

end RelationExpansion.Json
