import RelationExpansion.Json.Printer
import RelationExpansion.Proofs.Text.Splitting

/-! # Scanning over JSON text

Inside a bracket the text of a value is never cut, whatever its strings hold: a string is closed by
its own quote only, since quotes and backslashes inside it are escaped (`crosses_quote`), and every
bracket outside a string is closed by its own (`crosses_chars`).  A text also starts and ends with
something that trimming leaves alone (`isSolid_chars`).
-/

namespace RelationExpansion.Json

open Text (Crosses Scan IsSolid isBlank isOrdinary isWordChar isWordChar_toDigits crosses_nested
  crosses_opening crosses_closing isSolid_word isSolid_of_forall)

variable {separator : Char} {depth : Nat}

/-! ## Strings -/

theorem crosses_inside {text : List Char} (plain : ∀ c ∈ text, c ≠ '"' ∧ c ≠ '\\') :
    Crosses separator ⟨depth, .inside⟩ text ⟨depth, .inside⟩ := by
  induction text with
  | nil => exact .nil
  | cons c rest ih =>
    obtain ⟨unquoted, unescaped⟩ := plain c (by simp)
    have stays : Scan.step ⟨depth, .inside⟩ c = ⟨depth, .inside⟩ := by
      simp [Scan.step, unquoted, unescaped]
    refine .cons (by simp [Scan.cuts, Scan.isTop]) ?_
    rw [stays]
    exact ih fun c mem => plain c (List.mem_cons_of_mem _ mem)

/-- After a backslash any character is passed over. -/
theorem crosses_escaped (c : Char) :
    Crosses separator ⟨depth, .inside⟩ ['\\', c] ⟨depth, .inside⟩ :=
  .cons (by simp [Scan.cuts, Scan.isTop]) (.cons (by simp [Scan.cuts, Scan.isTop, Scan.step]) .nil)

/-- A character stands for itself, or is written with a backslash before one other character, or
with a backslash before its code. -/
theorem escape_cases (c : Char) :
    (c ≠ '"' ∧ c ≠ '\\' ∧ escape c = [c]) ∨ (∃ mark, escape c = ['\\', mark]) ∨
      ∃ high low, escape c = ['\\', 'u', '0', '0', Nat.digitChar high, Nat.digitChar low] := by
  unfold escape
  grind

theorem crosses_escape (c : Char) :
    Crosses separator ⟨depth, .inside⟩ (escape c) ⟨depth, .inside⟩ := by
  rcases escape_cases c with ⟨unquoted, unescaped, shape⟩ | ⟨mark, shape⟩ | ⟨high, low, shape⟩
  · rw [shape]
    exact crosses_inside (by simp [unquoted, unescaped])
  · rw [shape]
    exact crosses_escaped mark
  · rw [shape]
    have digits : ∀ n, Nat.digitChar n ≠ '"' ∧ Nat.digitChar n ≠ '\\' := fun n =>
      ⟨Nat.digitChar_ne _ rfl, Nat.digitChar_ne _ rfl⟩
    exact (crosses_escaped 'u').append (crosses_inside (by simp [digits]))

theorem crosses_quote (text : String) :
    Crosses separator ⟨depth, .outside⟩ (quote text) ⟨depth, .outside⟩ := by
  have inside : ∀ chars : List Char,
      Crosses separator ⟨depth, .inside⟩ (chars.flatMap escape) ⟨depth, .inside⟩ := by
    intro chars
    induction chars with
    | nil => exact .nil
    | cons c rest ih => exact (crosses_escape c).append ih
  have opened : Crosses separator ⟨depth, .outside⟩ ['"'] ⟨depth, .inside⟩ :=
    .single (by simp [Scan.cuts])
  have closed : Crosses separator ⟨depth, .inside⟩ ['"'] ⟨depth, .outside⟩ :=
    .single (by simp [Scan.cuts])
  exact opened.append ((inside text.toList).append closed)

/-! ## Numbers -/

theorem isWordChar_zeros (count : Nat) :
    ∀ c ∈ (Decimal.zeros count).toList, isWordChar c = true := by
  intro c mem
  rw [Decimal.zeros, String.toList_ofList] at mem
  rw [(List.mem_replicate.1 mem).2]
  rfl

theorem isWordChar_renderPlain {digits : List Char} (exponent : Int)
    (digital : ∀ c ∈ digits, isWordChar c = true) :
    ∀ c ∈ (Decimal.renderPlain doubleLayout digits exponent).toList, isWordChar c = true := by
  have ending : ∀ c ∈ doubleLayout.wholeEnding.toList, isWordChar c = true :=
    List.all_eq_true.1 (by decide)
  have point : ∀ c ∈ ".".toList, isWordChar c = true :=
    List.all_eq_true.1 (by decide)
  have below : ∀ c ∈ "0.".toList, isWordChar c = true :=
    List.all_eq_true.1 (by decide)
  unfold Decimal.renderPlain
  dsimp only
  split
  · simp only [String.toList_append, String.toList_ofList, List.forall_mem_append]
    exact ⟨⟨digital, isWordChar_zeros _⟩, ending⟩
  · split
    · simp only [String.toList_append, String.toList_ofList, List.forall_mem_append]
      exact ⟨⟨fun c mem => digital c (List.mem_of_mem_take mem), point⟩,
        fun c mem => digital c (List.mem_of_mem_drop mem)⟩
    · simp only [String.toList_append, String.toList_ofList, List.forall_mem_append]
      exact ⟨⟨below, isWordChar_zeros _⟩, digital⟩

theorem isWordChar_renderScientific {digits : List Char} (leading : Int)
    (digital : ∀ c ∈ digits, isWordChar c = true) :
    ∀ c ∈ (Decimal.renderScientific doubleLayout digits leading).toList,
      isWordChar c = true := by
  have sign : ∀ c ∈ (if leading < 0 then "-" else "+").toList, isWordChar c = true := by
    split <;> exact List.all_eq_true.1 (by decide)
  have mark : ∀ c ∈ doubleLayout.exponentMark.toList, isWordChar c = true :=
    List.all_eq_true.1 (by decide)
  have fraction : ∀ c ∈ (if digits.length ≤ 1 then "" else
      "." ++ String.ofList (digits.drop 1)).toList, isWordChar c = true := by
    have point : ∀ c ∈ ".".toList, isWordChar c = true :=
    List.all_eq_true.1 (by decide)
    split
    · exact List.all_eq_true.1 (by decide)
    · simp only [String.toList_append, String.toList_ofList, List.forall_mem_append]
      exact ⟨point, fun c mem => digital c (List.mem_of_mem_drop mem)⟩
  unfold Decimal.renderScientific
  simp only [String.toList_append, String.toList_ofList, List.forall_mem_append]
  exact ⟨⟨⟨⟨fun c mem => digital c (List.mem_of_mem_take mem), fraction⟩, mark⟩, sign⟩,
    isWordChar_toDigits _⟩

theorem isWordChar_render (decimal : Decimal) :
    ∀ c ∈ (decimal.render doubleLayout).toList, isWordChar c = true := by
  have zero : ∀ c ∈ ("0" ++ doubleLayout.wholeEnding).toList, isWordChar c = true :=
    List.all_eq_true.1 (by decide)
  unfold Decimal.render
  split
  · exact zero
  · dsimp only
    split
    · exact isWordChar_renderPlain _ (isWordChar_toDigits _)
    · exact isWordChar_renderScientific _ (isWordChar_toDigits _)

theorem isWordChar_numberChars (value : Number) :
    ∀ c ∈ numberChars value, isWordChar c = true := by
  cases value with
  | int value =>
    rw [numberChars, intChars]
    split
    · exact List.forall_mem_cons.2 ⟨rfl, isWordChar_toDigits _⟩
    · exact isWordChar_toDigits _
  | double value =>
    have sign : ∀ c ∈ (if value.negative then "-" else "").toList, isWordChar c = true := by
      split <;> exact List.all_eq_true.1 (by decide)
    rw [numberChars, Double.render, String.toList_append, List.forall_mem_append]
    exact ⟨sign, isWordChar_render _⟩

/-! ## Values -/

theorem crosses_numberChars (value : Number) :
    Crosses separator ⟨depth + 1, .outside⟩ (numberChars value) ⟨depth + 1, .outside⟩ :=
  crosses_nested fun c mem => Text.isOrdinary_of_isWordChar (isWordChar_numberChars value c mem)

/-- A comma or a colon inside a bracket. -/
theorem crosses_mark {mark : Char} (ordinary : isOrdinary mark = true) :
    Crosses separator ⟨depth + 1, .outside⟩ [mark] ⟨depth + 1, .outside⟩ :=
  crosses_nested (by simpa using ordinary)

mutual
theorem crosses_chars (value : Json) (depth : Nat) :
    Crosses separator ⟨depth + 1, .outside⟩ value.chars ⟨depth + 1, .outside⟩ := by
  match value with
  | .null => exact crosses_nested (List.all_eq_true.1 (by decide))
  | .bool true => exact crosses_nested (List.all_eq_true.1 (by decide))
  | .bool false => exact crosses_nested (List.all_eq_true.1 (by decide))
  | .number value => exact crosses_numberChars value
  | .string value => exact crosses_quote value
  | .array items => exact (crosses_opening rfl).append (crosses_itemChars items depth)
  | .object members => exact (crosses_opening rfl).append (crosses_memberChars members depth)
termination_by sizeOf value

-- The items bring the bracket that closes the array, so their text ends one bracket further out.
theorem crosses_itemChars (items : List Json) (depth : Nat) :
    Crosses separator ⟨depth + 2, .outside⟩ (itemChars items) ⟨depth + 1, .outside⟩ := by
  match items with
  | [] => exact crosses_closing rfl
  | [item] => exact (crosses_chars item (depth + 1)).append (crosses_closing rfl)
  | item :: next :: rest =>
    exact (crosses_chars item (depth + 1)).append
      ((crosses_mark rfl).append (crosses_itemChars (next :: rest) depth))
termination_by sizeOf items

theorem crosses_memberChars (members : List (String × Json)) (depth : Nat) :
    Crosses separator ⟨depth + 2, .outside⟩ (memberChars members) ⟨depth + 1, .outside⟩ := by
  match members with
  | [] => exact crosses_closing rfl
  | [(name, value)] =>
    exact (crosses_quote name).append ((crosses_mark rfl).append
      ((crosses_chars value (depth + 1)).append (crosses_closing rfl)))
  | (name, value) :: next :: rest =>
    exact (crosses_quote name).append ((crosses_mark rfl).append
      ((crosses_chars value (depth + 1)).append
        ((crosses_mark rfl).append (crosses_memberChars (next :: rest) depth))))
termination_by sizeOf members
end

/-! ## Both ends of a text -/

theorem itemChars_closed (items : List Json) : ∃ inner, itemChars items = inner ++ [']'] := by
  induction items with
  | nil => exact ⟨[], rfl⟩
  | cons item rest ih =>
    obtain ⟨inner, shape⟩ := ih
    cases rest with
    | nil => exact ⟨chars item, rfl⟩
    | cons next others => exact ⟨chars item ++ ',' :: inner, by simp [itemChars, shape]⟩

theorem memberChars_closed (members : List (String × Json)) :
    ∃ inner, memberChars members = inner ++ ['\x7d'] := by
  induction members with
  | nil => exact ⟨[], rfl⟩
  | cons entry rest ih =>
    obtain ⟨name, value⟩ := entry
    obtain ⟨inner, shape⟩ := ih
    cases rest with
    | nil => exact ⟨quote name ++ ':' :: chars value, by simp [memberChars]⟩
    | cons next others =>
      exact ⟨quote name ++ ':' :: (chars value ++ ',' :: inner), by simp [memberChars, shape]⟩

theorem isSolid_chars {value : Json} (nonempty : value.chars ≠ []) : IsSolid value.chars := by
  -- A string, an array or an object starts and ends with marks of its own.
  have enclosed : ∀ {opening closing : Char} (inner : List Char), isBlank opening = false →
      isBlank closing = false → IsSolid (opening :: (inner ++ [closing])) := by
    intro opening closing inner first last
    have front : IsSolid [opening] := isSolid_of_forall (by simp) (by simpa using first)
    have back : IsSolid [closing] := isSolid_of_forall (by simp) (by simpa using last)
    exact front.around back inner
  cases value with
  | null => exact isSolid_word (by decide) (List.all_eq_true.1 (by decide))
  | bool value => cases value <;> exact isSolid_word (by decide) (List.all_eq_true.1 (by decide))
  | number value =>
    exact isSolid_word nonempty (isWordChar_numberChars value)
  | string value => exact enclosed (value.toList.flatMap escape) rfl rfl
  | array items =>
    obtain ⟨inner, shape⟩ := itemChars_closed items
    rw [chars, shape]
    exact enclosed inner rfl rfl
  | object members =>
    obtain ⟨inner, shape⟩ := memberChars_closed members
    rw [chars, shape]
    exact enclosed inner rfl rfl

end RelationExpansion.Json
