import Mathlib.Data.List.Basic
import RelationExpansion.Expansion.Modifier
import RelationExpansion.Proofs.Json.Scanning

/-! # Writing modifiers

A modifier is written as its name and its arguments in parentheses, and what was written is read as
the same modifier (`Modifier.ofText?_chars`).  Inside the parentheses the arguments are never cut,
so that a modifier can stand in a directive and a directive in a list (`Modifier.crosses_chars`).
-/

namespace RelationExpansion

open Text (Crosses Scan IsSolid isOrdinary isWordChar)

/-! ## Numbers -/

theorem Count.ofText?_toDigits {value : Nat} (fits : value ≤ Count.largest) :
    Count.ofText? (String.ofList (Nat.toDigits 10 value)) = some value := by
  have digital := Text.isDigit_toDigits value
  have solid := Text.isSolid_word Nat.toDigits_ne_nil (Text.isWordChar_toDigits value)
  have digits : ofDigits? (Nat.toDigits 10 value) = some value := by
    have sum : (Nat.toDigits 10 value).foldl (fun sum c => 10 * sum + digitValue c) 0 = value :=
      Nat.ofDigitChars_ten_toDigits
    have nonempty : Nat.toDigits 10 value ≠ [] := Nat.toDigits_ne_nil
    simpa [ofDigits?, nonempty, sum] using digital
  have unsigned : ofSigned? (Nat.toDigits 10 value) = some value := by
    unfold ofSigned?
    split
    · rename_i rest shape
      have plus := digital '+' (by simp [shape])
      cases plus
    · exact digits
  simp [ofText?, solid.trim, unsigned, fits]

/-! ## Sort expressions -/

/-- The marks with a meaning of their own in a sort expression or around it. -/
def isFieldMark (c : Char) : Bool :=
  c = ',' || c = '|' || c = '"' || Scan.opens c || Scan.closes c

/-- A field name that can stand in a sort expression. -/
structure IsPlainField (field : String) : Prop where
  nonempty : field ≠ ""
  trimmed : Text.trimmed field = field
  unmarked : ∀ c ∈ field.toList, isFieldMark c = false

instance (field : String) : Decidable (IsPlainField field) :=
  decidable_of_iff (field ≠ "" ∧ Text.trimmed field = field ∧ field.toList.all (!isFieldMark ·))
    ⟨fun ⟨nonempty, trimmed, unmarked⟩ => ⟨nonempty, trimmed, by simpa using unmarked⟩,
      fun plain => ⟨plain.nonempty, plain.trimmed, by simpa using plain.unmarked⟩⟩

theorem IsPlainField.isSolid {field : String} (plain : IsPlainField field) :
    IsSolid field.toList := by
  refine Text.isSolid_iff.2 ⟨by simpa using plain.nonempty, ?_⟩
  simpa [Text.trimmed] using congrArg String.toList plain.trimmed

theorem IsPlainField.isOrdinary {field : String} (plain : IsPlainField field) :
    ∀ c ∈ field.toList, isOrdinary c = true := by
  intro c mem
  have unmarked := plain.unmarked c mem
  simp only [isFieldMark, Bool.or_eq_false_iff, decide_eq_false_iff_not] at unmarked
  simp [Text.isOrdinary, unmarked]

namespace SortSpec

def tokenChars (entry : String × Direction) : List Char :=
  entry.1.toList ++ '|' :: entry.2.name.toList

def chars (spec : SortSpec) : List Char := Text.joinWith ',' (spec.entries.map tokenChars)

variable {entry : String × Direction} {spec : SortSpec}

theorem isWordChar_name (direction : Direction) :
    ∀ c ∈ direction.name.toList, isWordChar c = true := by
  cases direction <;> exact List.all_eq_true.1 (by decide)

theorem isOrdinary_tokenChars (plain : IsPlainField entry.1) :
    ∀ c ∈ tokenChars entry, isOrdinary c = true := by
  simp only [tokenChars, List.forall_mem_append, List.forall_mem_cons]
  exact ⟨plain.isOrdinary, rfl, fun c mem =>
    Text.isOrdinary_of_isWordChar (isWordChar_name entry.2 c mem)⟩

theorem comma_not_mem_tokenChars (plain : IsPlainField entry.1) : ',' ∉ tokenChars entry := by
  intro mem
  simp only [tokenChars, List.mem_append, List.mem_cons] at mem
  rcases mem with field | same | direction
  · cases plain.unmarked ',' field
  · cases same
  · cases isWordChar_name entry.2 ',' direction

theorem isSolid_tokenChars (plain : IsPlainField entry.1) : IsSolid (tokenChars entry) := by
  have named : IsSolid entry.2.name.toList :=
    Text.isSolid_word (by cases entry.2 <;> decide) (isWordChar_name entry.2)
  simpa [tokenChars] using plain.isSolid.around named ['|']

theorem ofToken?_tokenChars (plain : IsPlainField entry.1) :
    ofToken? (tokenChars entry) = some entry := by
  obtain ⟨field, direction⟩ := entry
  have free : '|' ∉ field.toList := fun mem => by cases plain.unmarked '|' mem
  have read : Direction.ofToken direction.name.toList = direction := by
    cases direction <;> decide
  have trimmed : Text.trim field.toList = field.toList := plain.isSolid.trim
  simp only [ofToken?, tokenChars, Text.cutAt?_append_mark free, read, trimmed]
  split
  · rename_i empty
    exact absurd (by simpa using empty) plain.nonempty
  · simp

theorem ofText_chars (plain : ∀ field ∈ spec.keys, IsPlainField field) :
    ofText (String.ofList spec.chars) = spec := by
  have fields : ∀ entry ∈ spec.entries, IsPlainField entry.1 := fun entry mem =>
    plain entry.1 (List.mem_map_of_mem mem)
  have split : Text.pieceChars ',' spec.chars = spec.entries.map tokenChars := by
    refine Text.pieceChars_joinWith (by decide) (List.forall_mem_map.2 fun entry mem => ?_)
    have field := fields entry mem
    exact ⟨isSolid_tokenChars field,
      Text.crosses_ordinary (isOrdinary_tokenChars field) (.inr (comma_not_mem_tokenChars field))⟩
  have tokens : spec.entries.filterMap (fun entry => ofToken? (tokenChars entry)) =
      spec.entries.map id :=
    List.filterMap_eq_map_iff_forall_eq_some.2 fun entry mem =>
      ofToken?_tokenChars (fields entry mem)
  simpa [ofText, ofTokens, Text.pieces, split, List.filterMap_map, Function.comp_def, tokens]
    using OrderedMap.ofList_entries spec

/-- Inside a bracket a sort expression is never cut. -/
theorem crosses_chars {separator : Char} (plain : ∀ field ∈ spec.keys, IsPlainField field) :
    Crosses separator ⟨1, .outside⟩ spec.chars ⟨1, .outside⟩ := by
  refine Text.crosses_nested fun c mem => ?_
  rcases Text.mem_joinWith mem with rfl | ⟨part, inside, mem⟩
  · rfl
  · obtain ⟨entry, known, rfl⟩ := List.mem_map.1 inside
    exact isOrdinary_tokenChars (plain entry.1 (List.mem_map_of_mem known)) c mem

end SortSpec

/-! ## Filters -/

theorem Filter.ofText?_chars {value : Json} (reads : Json.ofChars? value.chars = some value) :
    Filter.ofText? value.chars = some value := by
  have nonempty : value.chars ≠ [] := by
    intro empty
    rw [empty] at reads
    cases reads
  simp only [Filter.ofText?, (Json.isSolid_chars nonempty).trim, reads]

/-! ## Modifiers -/

namespace Modifier

def name : Modifier → String
  | .page _ => "page"
  | .perPage _ => "per_page"
  | .sort _ => "sort"
  | .filter _ => "filter"

def arguments : Modifier → List Char
  | .page number => Nat.toDigits 10 number
  | .perPage size => Nat.toDigits 10 size
  | .sort spec => spec.chars
  | .filter value => value.chars

def chars (modifier : Modifier) : List Char :=
  modifier.name.toList ++ '(' :: modifier.arguments ++ [')']

/-- What a modifier must hold to be written: counts that fit, plain fields, and a filter that can be
read back from its text. -/
def IsWritable : Modifier → Prop
  | .page number => number ≤ Count.largest
  | .perPage size => size ≤ Count.largest
  | .sort spec => ∀ field ∈ spec.keys, IsPlainField field
  | .filter value => Json.ofChars? value.chars = some value

/-- Pages are counted from one, so page zero is read as the first. -/
def asRead : Modifier → Modifier
  | .page number => .page (max number 1)
  | other => other

variable {modifier : Modifier}

theorem isWordChar_name (modifier : Modifier) :
    ∀ c ∈ modifier.name.toList, isWordChar c = true := by
  cases modifier <;> exact List.all_eq_true.1 (by simp only [name]; decide)

theorem isSolid_name (modifier : Modifier) : IsSolid modifier.name.toList :=
  Text.isSolid_word (by cases modifier <;> simp [name]) (isWordChar_name modifier)

theorem isSolid_chars (modifier : Modifier) : IsSolid modifier.chars := by
  have closing : IsSolid [')'] := Text.isSolid_of_forall (by simp) (by simp; rfl)
  simpa [chars] using (isSolid_name modifier).around closing ('(' :: modifier.arguments)

theorem crosses_arguments {separator : Char} (writable : modifier.IsWritable) :
    Crosses separator ⟨1, .outside⟩ modifier.arguments ⟨1, .outside⟩ := by
  have digits : ∀ value, Crosses separator ⟨1, .outside⟩ (Nat.toDigits 10 value) ⟨1, .outside⟩ :=
    fun value => Text.crosses_nested fun c mem =>
      Text.isOrdinary_of_isWordChar (Text.isWordChar_toDigits value c mem)
  cases modifier with
  | page number => exact digits number
  | perPage size => exact digits size
  | sort spec => exact SortSpec.crosses_chars writable
  | filter value => exact Json.crosses_chars value 0

theorem crosses_chars {separator : Char} (other : isWordChar separator = false)
    (writable : modifier.IsWritable) :
    Crosses separator Scan.start modifier.chars Scan.start := by
  have named : Crosses separator Scan.start modifier.name.toList Scan.start :=
    Text.crosses_word (isWordChar_name modifier) other
  have opened : Crosses separator Scan.start ['('] ⟨1, .outside⟩ := Text.crosses_opening rfl
  have closed : Crosses separator ⟨1, .outside⟩ [')'] Scan.start := Text.crosses_closing rfl
  simpa [chars] using named.append (opened.append ((crosses_arguments writable).append closed))

theorem ofCall?_arguments (writable : modifier.IsWritable) :
    ofCall? modifier.name.toList modifier.arguments = some modifier.asRead := by
  cases modifier with
  | page number =>
    simp [ofCall?, name, arguments, asRead, Count.ofText?_toDigits writable]
  | perPage size =>
    simp [ofCall?, name, arguments, asRead, Count.ofText?_toDigits writable]
  | sort spec =>
    simp [ofCall?, name, arguments, asRead, SortSpec.ofText_chars writable]
  | filter value =>
    simp [ofCall?, name, arguments, asRead, Filter.ofText?_chars writable]

/-- A name and anything in parentheses behind it, brackets and blanks included. -/
theorem ofText?_call {name : List Char} (named : IsSolid name) (free : '(' ∉ name)
    (arguments : List Char) :
    ofText? (String.ofList (name ++ '(' :: arguments ++ [')'])) = ofCall? name arguments := by
  have closing : IsSolid [')'] := Text.isSolid_of_forall (by simp) (by simp; rfl)
  have solid : IsSolid (name ++ '(' :: arguments ++ [')']) := named.around closing _
  have split : Text.cutAt? '(' (name ++ '(' :: arguments ++ [')']) =
      some (name, arguments ++ [')']) := by
    simpa using Text.cutAt?_append_mark free (arguments ++ [')'])
  simp only [ofText?, String.toList_ofList, solid.trim, split, Option.bind_eq_bind,
    Option.bind_some, Text.dropEnd?_append, named.trim]

theorem ofText?_chars (writable : modifier.IsWritable) :
    ofText? (String.ofList modifier.chars) = some modifier.asRead := by
  have free : '(' ∉ modifier.name.toList := fun mem => by
    cases isWordChar_name modifier '(' mem
  rw [chars, ofText?_call (isSolid_name modifier) free, ofCall?_arguments writable]

end Modifier

end RelationExpansion
