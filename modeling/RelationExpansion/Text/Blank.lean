/-! # Blanks

A blank is a character with the Unicode property `White_Space`.  Trimming takes blanks off both
ends of a text.  A trimmed text neither starts nor ends with a blank (`trim_head_not_blank`,
`trim_last_not_blank`), and blanks around a text change nothing of what is left (`trim_around`).
-/

namespace RelationExpansion.Text

/-- The characters with the Unicode property `White_Space`. -/
def isBlank (c : Char) : Bool :=
  let code := c.toNat
  (0x09 ≤ code && code ≤ 0x0D) || code == 0x20 || code == 0x85 || code == 0xA0 || code == 0x1680 ||
    (0x2000 ≤ code && code ≤ 0x200A) || code == 0x2028 || code == 0x2029 || code == 0x202F ||
    code == 0x205F || code == 0x3000

def trimLeft (text : List Char) : List Char := text.dropWhile isBlank

def trimRight (text : List Char) : List Char := (text.reverse.dropWhile isBlank).reverse

def trim (text : List Char) : List Char := trimRight (trimLeft text)

def trimmed (text : String) : String := String.ofList (trim text.toList)

/-! ## Laws -/

theorem isAlphanum_iff {c : Char} :
    c.isAlphanum = true ↔ ((65 ≤ c.toNat ∧ c.toNat ≤ 90) ∨ 97 ≤ c.toNat ∧ c.toNat ≤ 122) ∨
      48 ≤ c.toNat ∧ c.toNat ≤ 57 := by
  show ((decide (c.val ≥ 65 ∧ c.val ≤ 90) || c.val ≥ 97 && c.val ≤ 122) ||
    c.val ≥ 48 && c.val ≤ 57) = true ↔ _
  simp only [Bool.or_eq_true, Bool.and_eq_true, decide_eq_true_eq]
  exact Iff.rfl

theorem isBlank_of_isAlphanum {c : Char} (alphanum : c.isAlphanum = true) : isBlank c = false := by
  have code := isAlphanum_iff.1 alphanum
  simp only [isBlank, Bool.or_eq_false_iff, Bool.and_eq_false_iff, decide_eq_false_iff_not,
    beq_eq_false_iff_ne]
  omega

theorem trimLeft_head_not_blank {text : List Char} {c : Char} {rest : List Char}
    (shape : trimLeft text = c :: rest) : isBlank c = false := by
  induction text with
  | nil => simp [trimLeft] at shape
  | cons first others ih =>
    by_cases blank : isBlank first
    · exact ih (by simpa [trimLeft, List.dropWhile_cons, blank] using shape)
    · simp only [trimLeft, List.dropWhile_cons, blank] at shape
      simp only [Bool.false_eq_true, if_false, List.cons.injEq] at shape
      simpa [shape.1] using blank

theorem trimRight_last_not_blank {text : List Char} {c : Char}
    (last : (trimRight text).getLast? = some c) : isBlank c = false := by
  rw [trimRight, List.getLast?_reverse] at last
  obtain ⟨rest, shape⟩ := List.head?_eq_some_iff.1 last
  have left : trimLeft text.reverse = c :: rest := shape
  exact trimLeft_head_not_blank left

theorem trimRight_isPrefix (text : List Char) : trimRight text <+: text := by
  have suffix := List.dropWhile_suffix isBlank (l := text.reverse)
  simpa [trimRight] using List.reverse_prefix.2 suffix

theorem trim_around {front back : List Char} (before : ∀ c ∈ front, isBlank c = true)
    (after : ∀ c ∈ back, isBlank c = true) (text : List Char) :
    trim (front ++ text ++ back) = trim text := by
  have left : trimLeft (front ++ text ++ back) = trimLeft (text ++ back) := by
    rw [List.append_assoc]
    exact List.dropWhile_append_of_pos before
  rw [trim, left, trimLeft, List.dropWhile_append]
  split
  · -- A blank text leaves nothing to be found behind it either.
    rename_i blank
    have nothing : (back ++ []).dropWhile isBlank = [] := List.dropWhile_append_of_pos after
    rw [List.append_nil] at nothing
    rw [nothing, trim, trimLeft, List.isEmpty_iff.1 blank]
  · rw [trim, trimRight, List.reverse_append, List.dropWhile_append_of_pos (by simpa using after)]
    rfl

theorem mem_of_mem_trim {text : List Char} {c : Char} (mem : c ∈ trim text) : c ∈ text :=
  (List.dropWhile_suffix isBlank).subset ((trimRight_isPrefix (trimLeft text)).subset mem)

theorem trim_last_not_blank {text : List Char} {c : Char}
    (last : (trim text).getLast? = some c) : isBlank c = false :=
  trimRight_last_not_blank last

theorem trim_head_not_blank {text : List Char} {c : Char} {rest : List Char}
    (shape : trim text = c :: rest) : isBlank c = false := by
  obtain ⟨after, whole⟩ := trimRight_isPrefix (trimLeft text)
  rw [trim] at shape
  rw [shape, List.cons_append] at whole
  exact trimLeft_head_not_blank whole.symm

end RelationExpansion.Text
