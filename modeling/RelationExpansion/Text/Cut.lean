/-! # Cutting and replacing

Plain operations on texts as lists of characters: cutting at a mark, joining with a mark, and
replacing every occurrence of a word.  Cutting at every mark and joining undo each other, which
`joinWith_cutEvery` and `cutEvery_joinWith` state.
-/

namespace RelationExpansion.Text

/-- The parts before and after the first mark, which belongs to neither. -/
def cutAt? (mark : Char) : List Char → Option (List Char × List Char)
  | [] => none
  | c :: rest =>
    if c = mark then some ([], rest)
    else (cutAt? mark rest).map fun parts => (c :: parts.1, parts.2)

/-- The parts between marks; there is always at least one. -/
def cutEvery (mark : Char) : List Char → List (List Char)
  | [] => [[]]
  | c :: rest =>
    if c = mark then [] :: cutEvery mark rest
    else
      match cutEvery mark rest with
      | [] => [[c]]
      | part :: parts => (c :: part) :: parts

def joinWith (mark : Char) : List (List Char) → List Char
  | [] => []
  | [part] => part
  | part :: next :: rest => part ++ mark :: joinWith mark (next :: rest)

/-- Takes a word off the end of a text. -/
def dropEnd? (word text : List Char) : Option (List Char) :=
  if word.isSuffixOf text then some (text.take (text.length - word.length)) else none

/-- Replaces each occurrence of a word, from left to right; `skip` characters of an occurrence
that has been replaced are still to be passed over. -/
def replaceFrom (word replacement : List Char) : Nat → List Char → List Char
  | _, [] => []
  | skip + 1, _ :: rest => replaceFrom word replacement skip rest
  | 0, c :: rest =>
    if word.isPrefixOf (c :: rest) then
      replacement ++ replaceFrom word replacement (word.length - 1) rest
    else c :: replaceFrom word replacement 0 rest

def replaceAll (word replacement text : List Char) : List Char :=
  replaceFrom word replacement 0 text

/-! ## Laws -/

theorem cutAt?_append_mark {mark : Char} {front : List Char} (free : mark ∉ front)
    (back : List Char) : cutAt? mark (front ++ mark :: back) = some (front, back) := by
  induction front with
  | nil => simp [cutAt?]
  | cons c others ih =>
    simp only [List.mem_cons, not_or] at free
    simp [cutAt?, Ne.symm free.1, ih free.2]

theorem dropEnd?_append (text word : List Char) : dropEnd? word (text ++ word) = some text := by
  have suffix : word.isSuffixOf (text ++ word) = true :=
    List.isSuffixOf_iff_suffix.2 (List.suffix_append text word)
  simp [dropEnd?, suffix]

theorem dropEnd?_eq_none {word text : List Char} (other : ¬ word <:+ text) :
    dropEnd? word text = none := by
  have different : word.isSuffixOf text = false := by
    rwa [← Bool.not_eq_true, List.isSuffixOf_iff_suffix]
  simp [dropEnd?, different]

theorem mem_joinWith {mark c : Char} {parts : List (List Char)} (mem : c ∈ joinWith mark parts) :
    c = mark ∨ ∃ part ∈ parts, c ∈ part := by
  induction parts with
  | nil => cases mem
  | cons part rest ih =>
    cases rest with
    | nil => exact .inr ⟨part, by simp, mem⟩
    | cons next others =>
      rw [joinWith, List.mem_append, List.mem_cons] at mem
      rcases mem with here | same | later
      · exact .inr ⟨part, by simp, here⟩
      · exact .inl same
      · exact (ih later).imp_right fun ⟨other, inside, mem⟩ =>
          ⟨other, List.mem_cons_of_mem _ inside, mem⟩

theorem cutEvery_ne_nil (mark : Char) (text : List Char) : cutEvery mark text ≠ [] := by
  cases text with
  | nil => simp [cutEvery]
  | cons c rest =>
    simp only [cutEvery]
    split
    · simp
    · split <;> simp

theorem cutEvery_cons_of_ne {mark c : Char} (rest : List Char) (other : c ≠ mark) :
    ∃ part parts, cutEvery mark rest = part :: parts ∧
      cutEvery mark (c :: rest) = (c :: part) :: parts := by
  cases shape : cutEvery mark rest with
  | nil => exact absurd shape (cutEvery_ne_nil mark rest)
  | cons part parts => exact ⟨part, parts, rfl, by simp [cutEvery, other, shape]⟩

theorem joinWith_cutEvery (mark : Char) (text : List Char) :
    joinWith mark (cutEvery mark text) = text := by
  induction text with
  | nil => rfl
  | cons c rest ih =>
    by_cases same : c = mark
    · subst same
      cases shape : cutEvery c rest with
      | nil => exact absurd shape (cutEvery_ne_nil c rest)
      | cons part parts =>
        rw [shape] at ih
        simp [cutEvery, shape, joinWith, ih]
    · obtain ⟨part, parts, shape, cut⟩ := cutEvery_cons_of_ne rest same
      rw [cut]
      rw [shape] at ih
      cases parts with
      | nil => simpa [joinWith] using ih
      | cons next others => simpa [joinWith] using ih

theorem cutEvery_of_not_mem {mark : Char} {text : List Char} (free : mark ∉ text) :
    cutEvery mark text = [text] := by
  induction text with
  | nil => rfl
  | cons c rest ih =>
    simp only [List.mem_cons, not_or] at free
    simp [cutEvery, Ne.symm free.1, ih free.2]

theorem not_mem_of_mem_cutEvery {mark : Char} {text part : List Char}
    (mem : part ∈ cutEvery mark text) : mark ∉ part := by
  induction text generalizing part with
  | nil =>
    cases List.mem_singleton.1 mem
    exact List.not_mem_nil
  | cons c rest ih =>
    by_cases same : c = mark
    · simp only [cutEvery, same, if_true, List.mem_cons] at mem
      rcases mem with rfl | later
      · exact List.not_mem_nil
      · exact ih later
    · obtain ⟨first, others, shape, cut⟩ := cutEvery_cons_of_ne rest same
      rw [cut, List.mem_cons] at mem
      rcases mem with rfl | later
      · simp only [List.mem_cons, not_or]
        exact ⟨Ne.symm same, ih (by simp [shape])⟩
      · exact ih (by simp [shape, later])

theorem cutEvery_append_mark {mark : Char} {part : List Char} (free : mark ∉ part)
    (rest : List Char) : cutEvery mark (part ++ mark :: rest) = part :: cutEvery mark rest := by
  induction part with
  | nil => simp [cutEvery]
  | cons c others ih =>
    simp only [List.mem_cons, not_or] at free
    simp [cutEvery, Ne.symm free.1, ih free.2]

theorem cutEvery_joinWith {mark : Char} {parts : List (List Char)} (nonempty : parts ≠ [])
    (free : ∀ part ∈ parts, mark ∉ part) : cutEvery mark (joinWith mark parts) = parts := by
  induction parts with
  | nil => exact absurd rfl nonempty
  | cons part rest ih =>
    cases rest with
    | nil => exact cutEvery_of_not_mem (free part (by simp))
    | cons next others =>
      rw [joinWith, cutEvery_append_mark (free part (by simp)),
        ih (by simp) fun other mem => free other (List.mem_cons_of_mem _ mem)]

theorem length_cutEvery_append (mark : Char) (front rest : List Char) :
    (cutEvery mark (front ++ mark :: rest)).length =
      (cutEvery mark front).length + (cutEvery mark rest).length := by
  induction front with
  | nil => simp [cutEvery, Nat.add_comm]
  | cons c others ih =>
    by_cases same : c = mark
    · subst same
      simp [cutEvery, ih]; omega
    · obtain ⟨part, parts, shape, cut⟩ := cutEvery_cons_of_ne others same
      obtain ⟨part', parts', shape', cut'⟩ := cutEvery_cons_of_ne (others ++ mark :: rest) same
      rw [List.cons_append, cut, cut']
      rw [shape, shape'] at ih
      simpa using ih

/-- Joining cannot lose parts: the joined text has at least as many as went into it. -/
theorem length_le_cutEvery_joinWith (mark : Char) (parts : List (List Char)) :
    parts.length ≤ (cutEvery mark (joinWith mark parts)).length := by
  induction parts with
  | nil => simp
  | cons part rest ih =>
    cases rest with
    | nil =>
      exact List.length_pos_iff.2 (cutEvery_ne_nil mark (joinWith mark [part]))
    | cons next others =>
      rw [joinWith, length_cutEvery_append]
      have := List.length_pos_iff.2 (cutEvery_ne_nil mark part)
      simp only [List.length_cons] at ih ⊢
      omega

end RelationExpansion.Text
