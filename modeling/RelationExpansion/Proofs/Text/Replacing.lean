import RelationExpansion.Text.Cut

/-! # Replacing a marked word

A word is marked if its first character does not come again in it.  Two occurrences of such a word
cannot overlap, so that a text is replaced part by part (`replaceAll_append`), and how much longer or
shorter it becomes is told by the number of occurrences (`length_replaceAll`).
-/

namespace RelationExpansion.Text

/-- Whether the first character of a word does not come again. -/
def IsMarked : List Char → Prop
  | [] => False
  | mark :: rest => mark ∉ rest

/-- The number of places at which a word starts. -/
def occurrences (word : List Char) : List Char → Nat
  | [] => 0
  | c :: rest => occurrences word rest + if word.isPrefixOf (c :: rest) then 1 else 0

variable {word replacement text front back : List Char}

/-! ## Where a marked word starts -/

/-- A marked word does not start in front of an occurrence and end inside it. -/
theorem isPrefixOf_append (marked : IsMarked word) {c : Char} (rest back : List Char) :
    word.isPrefixOf (c :: rest ++ (word ++ back)) = word.isPrefixOf (c :: rest) := by
  rw [Bool.eq_iff_iff, List.isPrefixOf_iff_prefix, List.isPrefixOf_iff_prefix]
  constructor
  · intro starts
    have front : c :: rest <+: c :: rest ++ (word ++ back) := List.prefix_append _ _
    cases List.prefix_or_prefix_of_prefix starts front with
    | inl within => exact within
    | inr shorter =>
      obtain ⟨beyond, whole⟩ := shorter
      cases beyond with
      | nil => simp [← whole]
      | cons d others =>
        -- What lies beyond the front starts as the word does, but it is its inner part too.
        have start : d :: others <+: word ++ back := by
          rw [← whole] at starts
          exact (List.prefix_append_right_inj (c :: rest)).1 (whole ▸ starts)
        have first : d = c := by
          rw [← whole] at start
          exact (List.cons_prefix_cons.1 start).1
        rw [← whole, first] at marked
        exact absurd (by simp) marked
  · intro within
    exact within.trans (List.prefix_append _ _)

theorem occurrences_cons {c : Char} {rest : List Char} (other : ¬ word <+: c :: rest) :
    occurrences word (c :: rest) = occurrences word rest := by
  rw [← List.isPrefixOf_iff_prefix] at other
  rw [occurrences, if_neg other, Nat.add_zero]

/-- Behind its first character a marked word does not start before it ends. -/
theorem occurrences_append_of_not_mem {mark : Char} {tail skipped : List Char}
    (free : mark ∉ skipped) (back : List Char) :
    occurrences (mark :: tail) (skipped ++ back) = occurrences (mark :: tail) back := by
  induction skipped with
  | nil => rfl
  | cons c rest ih =>
    simp only [List.mem_cons, not_or] at free
    simp [occurrences, ih free.2, free.1]

theorem occurrences_append (marked : IsMarked word) (front back : List Char) :
    occurrences word (front ++ (word ++ back)) =
      occurrences word front + 1 + occurrences word back := by
  induction front with
  | nil =>
    cases word with
    | nil => cases marked
    | cons mark tail =>
      have behind : occurrences (mark :: tail) (tail ++ back) = occurrences (mark :: tail) back :=
        occurrences_append_of_not_mem marked back
      have here : (mark :: tail).isPrefixOf (mark :: (tail ++ back)) = true :=
        List.isPrefixOf_iff_prefix.2 (List.prefix_append (mark :: tail) back)
      have start : occurrences (mark :: tail) (mark :: (tail ++ back)) =
          occurrences (mark :: tail) (tail ++ back) + 1 := by rw [occurrences, if_pos here]
      rw [List.nil_append, List.cons_append, start, behind, occurrences]
      omega
  | cons c rest ih =>
    have same := isPrefixOf_append marked (c := c) rest back
    rw [List.cons_append] at same ⊢
    rw [occurrences, occurrences, ih, same]
    omega

theorem occurrences_word_append (marked : IsMarked word) (back : List Char) :
    occurrences word (word ++ back) = occurrences word back + 1 := by
  have none_before := occurrences_append marked [] back
  rw [List.nil_append, occurrences] at none_before
  omega

/-- A text that holds a word can be cut at its first occurrence. -/
theorem exists_first_occurrence (found : occurrences word text ≠ 0) :
    ∃ front back, text = front ++ (word ++ back) ∧ occurrences word front = 0 := by
  induction text with
  | nil => exact absurd rfl found
  | cons c rest ih =>
    by_cases starts : word.isPrefixOf (c :: rest) = true
    · obtain ⟨back, whole⟩ := List.isPrefixOf_iff_prefix.1 starts
      exact ⟨[], back, whole.symm, rfl⟩
    · have later : occurrences word rest ≠ 0 := by simpa [occurrences, starts] using found
      obtain ⟨front, back, rfl, free⟩ := ih later
      refine ⟨c :: front, back, rfl, ?_⟩
      have before : word.isPrefixOf (c :: front) = false := by
        rw [← Bool.not_eq_true]
        intro within
        apply starts
        rw [List.isPrefixOf_iff_prefix] at within ⊢
        exact within.trans (List.prefix_append (c :: front) (word ++ back))
      simp [occurrences, free, before]

/-- A text is free of a word, or is such a text with the word and another text behind it. -/
theorem occurrences_induction (marked : IsMarked word) {motive : List Char → Prop}
    (free : ∀ text, occurrences word text = 0 → motive text)
    (step : ∀ front back, occurrences word front = 0 → motive back →
      motive (front ++ (word ++ back)))
    (text : List Char) : motive text := by
  induction count : occurrences word text generalizing text with
  | zero => exact free text count
  | succ count ih =>
    obtain ⟨front, back, rfl, before⟩ :=
      exists_first_occurrence (by omega : occurrences word text ≠ 0)
    rw [occurrences_append marked, before] at count
    exact step front back before (ih back (by omega))

/-! ## Replacing part by part -/

theorem replaceFrom_length_append (skipped back : List Char) :
    replaceFrom word replacement skipped.length (skipped ++ back) =
      replaceAll word replacement back := by
  induction skipped with
  | nil => rfl
  | cons c rest ih => exact ih

theorem replaceAll_word_append (marked : IsMarked word) (back : List Char) :
    replaceAll word replacement (word ++ back) = replacement ++ replaceAll word replacement back := by
  cases word with
  | nil => cases marked
  | cons mark tail =>
    have here : (mark :: tail).isPrefixOf (mark :: (tail ++ back)) = true :=
      List.isPrefixOf_iff_prefix.2 (List.prefix_append (mark :: tail) back)
    have length : (mark :: tail).length - 1 = tail.length := by simp
    rw [List.cons_append, replaceAll, replaceFrom, if_pos here, length, replaceFrom_length_append]

theorem replaceAll_cons {c : Char} {rest : List Char} (other : ¬ word <+: c :: rest) :
    replaceAll word replacement (c :: rest) = c :: replaceAll word replacement rest := by
  rw [← List.isPrefixOf_iff_prefix] at other
  rw [replaceAll, replaceFrom, if_neg other]
  rfl

/-- Text without the first character of the word is passed over. -/
theorem replaceAll_append_of_not_mem {mark : Char} {tail skipped : List Char}
    (free : mark ∉ skipped) (back : List Char) :
    replaceAll (mark :: tail) replacement (skipped ++ back) =
      skipped ++ replaceAll (mark :: tail) replacement back := by
  induction skipped with
  | nil => rfl
  | cons c rest ih =>
    simp only [List.mem_cons, not_or] at free
    have other : ¬ mark :: tail <+: c :: (rest ++ back) := fun starts =>
      free.1 (List.cons_prefix_cons.1 starts).1
    rw [List.cons_append, replaceAll_cons other, ih free.2]
    rfl

/-- The induction is on the front, of which some characters may still be passed over; an occurrence
that starts there ends there. -/
theorem replaceFrom_append (marked : IsMarked word) (front back : List Char) {skip : Nat}
    (within : skip ≤ front.length) :
    replaceFrom word replacement skip (front ++ (word ++ back)) =
      replaceFrom word replacement skip front ++ replacement ++
        replaceAll word replacement back := by
  induction front generalizing skip with
  | nil =>
    cases Nat.le_zero.1 within
    rw [List.nil_append]
    exact replaceAll_word_append marked back
  | cons c rest ih =>
    cases skip with
    | succ skip => exact ih (Nat.le_of_succ_le_succ within)
    | zero =>
      have same := isPrefixOf_append marked (c := c) rest back
      rw [List.cons_append] at same ⊢
      rw [replaceFrom, replaceFrom, same]
      by_cases starts : word.isPrefixOf (c :: rest) = true
      · have short := (List.isPrefixOf_iff_prefix.1 starts).length_le
        rw [List.length_cons] at short
        rw [if_pos starts, if_pos starts, ih (by omega)]
        simp
      · rw [if_neg starts, if_neg starts, ih (Nat.zero_le _)]
        simp

theorem replaceAll_append (marked : IsMarked word) (front back : List Char) :
    replaceAll word replacement (front ++ (word ++ back)) =
      replaceAll word replacement front ++ replacement ++ replaceAll word replacement back :=
  replaceFrom_append marked front back (Nat.zero_le _)

theorem replaceAll_of_occurrences_eq_zero (free : occurrences word text = 0) :
    replaceAll word replacement text = text := by
  induction text with
  | nil => rfl
  | cons c rest ih =>
    have none_here : ¬ word <+: c :: rest := by
      intro starts
      simp [occurrences, List.isPrefixOf_iff_prefix.2 starts] at free
    have none_later : occurrences word rest = 0 := by
      rw [occurrences] at free
      omega
    rw [replaceAll_cons none_here, ih none_later]

theorem replaceAll_self (marked : IsMarked word) (text : List Char) :
    replaceAll word word text = text := by
  induction text using occurrences_induction marked with
  | free text absent => exact replaceAll_of_occurrences_eq_zero absent
  | step front back before ih =>
    rw [replaceAll_append marked, replaceAll_of_occurrences_eq_zero before, ih, List.append_assoc]

/-- What a text becomes longer or shorter by. -/
theorem length_replaceAll (marked : IsMarked word) (replacement text : List Char) :
    (replaceAll word replacement text).length + occurrences word text * word.length =
      text.length + occurrences word text * replacement.length := by
  induction text using occurrences_induction marked with
  | free text absent => rw [replaceAll_of_occurrences_eq_zero absent, absent]; omega
  | step front back before ih =>
    rw [replaceAll_append marked, replaceAll_of_occurrences_eq_zero before,
      occurrences_append marked, before]
    simp only [List.length_append, Nat.add_mul, Nat.zero_mul, Nat.one_mul]
    omega

end RelationExpansion.Text
