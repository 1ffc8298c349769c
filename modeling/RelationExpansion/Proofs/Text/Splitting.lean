import RelationExpansion.Text.Cut
import RelationExpansion.Text.Pieces

/-! # Splitting what was joined

`Crosses` says that a scan goes over a text, from one state to another, without meeting a place to
cut.  Such judgments are put together as texts are.  A text that is crossed from the start back to
the start is one piece, and such pieces, joined, are split again where they were joined
(`pieceChars_joinWith`).
-/

namespace RelationExpansion.Text

/-- Whether a text starts and ends with something other than a blank. -/
structure IsSolid (text : List Char) : Prop where
  first : ∃ c rest, text = c :: rest ∧ isBlank c = false
  last : ∃ rest c, text = rest ++ [c] ∧ isBlank c = false

/-- The scan goes over the text without cutting it, and is in a new state afterwards. -/
inductive Crosses (separator : Char) : Scan → List Char → Scan → Prop where
  | nil : Crosses separator scan [] scan
  | cons : scan.cuts separator c = false → Crosses separator (scan.step c) rest after →
      Crosses separator scan (c :: rest) after

variable {text : List Char} {parts : List (List Char)} {separator mark c : Char}

/-! ## Texts that trimming leaves alone -/

theorem IsSolid.trim (solid : IsSolid text) : trim text = text := by
  obtain ⟨first, back, shape, head⟩ := solid.first
  obtain ⟨front, last, whole, tail⟩ := solid.last
  have left : trimLeft text = text := by
    rw [shape, trimLeft, List.dropWhile_cons, head]
    rfl
  rw [Text.trim, left, trimRight, whole, List.reverse_append, List.reverse_singleton,
    List.singleton_append, List.dropWhile_cons, tail]
  simp

theorem isSolid_trim (nonempty : Text.trim text ≠ []) : IsSolid (Text.trim text) := by
  obtain ⟨first, rest, shape⟩ := List.exists_cons_of_ne_nil nonempty
  obtain ⟨front, last, whole⟩ : ∃ front last, Text.trim text = front ++ [last] :=
    ⟨_, _, (List.dropLast_concat_getLast nonempty).symm⟩
  have final : (Text.trim text).getLast? = some last := by rw [whole, List.getLast?_concat]
  exact ⟨⟨first, rest, shape, trim_head_not_blank shape⟩,
    ⟨front, last, whole, trim_last_not_blank final⟩⟩

theorem isSolid_iff : IsSolid text ↔ text ≠ [] ∧ trim text = text := by
  constructor
  · intro solid
    obtain ⟨first, rest, shape, -⟩ := solid.first
    exact ⟨by simp [shape], solid.trim⟩
  · rintro ⟨nonempty, trimmed⟩
    have solid : IsSolid (Text.trim text) := isSolid_trim (by rwa [trimmed])
    rwa [trimmed] at solid

theorem isSolid_of_forall (nonempty : text ≠ []) (blankless : ∀ c ∈ text, isBlank c = false) :
    IsSolid text := by
  obtain ⟨first, rest, shape⟩ := List.exists_cons_of_ne_nil nonempty
  obtain ⟨front, last, whole⟩ : ∃ front last, text = front ++ [last] :=
    ⟨_, _, (List.dropLast_concat_getLast nonempty).symm⟩
  exact ⟨⟨first, rest, shape, blankless first (by simp [shape])⟩,
    ⟨front, last, whole, blankless last (by simp [whole])⟩⟩

theorem IsSolid.around {front back : List Char} (first : IsSolid front) (last : IsSolid back)
    (middle : List Char) : IsSolid (front ++ middle ++ back) := by
  obtain ⟨c, rest, rfl, head⟩ := first.first
  obtain ⟨others, d, rfl, tail⟩ := last.last
  exact ⟨⟨c, rest ++ middle ++ (others ++ [d]), by simp, head⟩,
    ⟨c :: rest ++ middle ++ others, d, by simp, tail⟩⟩

theorem IsSolid.joinWith (nonempty : parts ≠ []) (solid : ∀ part ∈ parts, IsSolid part) :
    IsSolid (joinWith mark parts) := by
  induction parts with
  | nil => exact absurd rfl nonempty
  | cons part rest ih =>
    cases rest with
    | nil => exact solid part (by simp)
    | cons next others =>
      have later := ih (by simp) fun other mem => solid other (List.mem_cons_of_mem _ mem)
      simpa [Text.joinWith] using (solid part (by simp)).around later [mark]

/-! ## Scanning over a text -/

variable {scan middle after : Scan} {depth : Nat} {front back : List Char}

theorem Crosses.append (first : Crosses separator scan front middle)
    (second : Crosses separator middle back after) :
    Crosses separator scan (front ++ back) after := by
  induction first with
  | nil => exact second
  | cons uncut _ ih => exact .cons uncut (ih second)

theorem Crosses.single (uncut : scan.cuts separator c = false) :
    Crosses separator scan [c] (scan.step c) :=
  .cons uncut .nil

theorem cutTop_of_crosses (crosses : Crosses separator scan text after) :
    cutTop separator scan text = [text] := by
  induction crosses with
  | nil => rfl
  | cons uncut _ ih => simp [cutTop, uncut, ih]

theorem cutTop_append_of_crosses (crosses : Crosses separator scan text after)
    (cut : after.cuts separator c = true) (rest : List Char) :
    cutTop separator scan (text ++ c :: rest) = text :: cutTop separator after rest := by
  induction crosses with
  | nil => simp [cutTop, cut]
  | cons uncut _ ih => simp [cutTop, uncut, ih cut]

/-! ## What is crossed -/

/-- Neither a quote nor a bracket. -/
def isOrdinary (c : Char) : Bool := c ≠ '"' && !Scan.opens c && !Scan.closes c

theorem isOrdinary_iff :
    isOrdinary c = true ↔ c ≠ '"' ∧ Scan.opens c = false ∧ Scan.closes c = false := by
  simp [isOrdinary, and_assoc]

theorem crosses_ordinary (ordinary : ∀ c ∈ text, isOrdinary c = true)
    (elsewhere : depth ≠ 0 ∨ separator ∉ text) :
    Crosses separator ⟨depth, .outside⟩ text ⟨depth, .outside⟩ := by
  induction text with
  | nil => exact .nil
  | cons c rest ih =>
    have plain := isOrdinary_iff.1 (ordinary c (by simp))
    have stays : Scan.step ⟨depth, .outside⟩ c = ⟨depth, .outside⟩ := by
      simp [Scan.step, plain]
    have uncut : Scan.cuts ⟨depth, .outside⟩ separator c = false := by
      rcases elsewhere with nested | absent
      · simp [Scan.cuts, Scan.isTop, nested]
      · have other : c ≠ separator := fun same => absent (by simp [same])
        simp [Scan.cuts, other]
    have others := ih (fun c mem => ordinary c (List.mem_cons_of_mem _ mem))
      (elsewhere.imp_right fun absent mem => absent (List.mem_cons_of_mem _ mem))
    refine .cons uncut ?_
    rwa [stays]

/-- Inside a bracket nothing is cut. -/
theorem crosses_nested (ordinary : ∀ c ∈ text, isOrdinary c = true) :
    Crosses separator ⟨depth + 1, .outside⟩ text ⟨depth + 1, .outside⟩ :=
  crosses_ordinary ordinary (.inl (Nat.succ_ne_zero depth))

theorem crosses_opening (opens : Scan.opens c = true) :
    Crosses separator ⟨depth, .outside⟩ [c] ⟨depth + 1, .outside⟩ := by
  have unquoted : c ≠ '"' := by rintro rfl; cases opens
  have opened : Scan.step ⟨depth, .outside⟩ c = ⟨depth + 1, .outside⟩ := by
    simp [Scan.step, unquoted, opens]
  exact opened ▸ .single (by simp [Scan.cuts, opens])

theorem crosses_closing (closes : Scan.closes c = true) :
    Crosses separator ⟨depth + 1, .outside⟩ [c] ⟨depth, .outside⟩ := by
  have unquoted : c ≠ '"' := by rintro rfl; cases closes
  have different : Scan.opens c = false := by
    simp only [Scan.closes, Bool.or_eq_true, decide_eq_true_eq] at closes
    rcases closes with (rfl | rfl) | rfl <;> rfl
  have closed : Scan.step ⟨depth + 1, .outside⟩ c = ⟨depth, .outside⟩ := by
    simp [Scan.step, unquoted, different, closes]
  exact closed ▸ .single (by simp [Scan.cuts, closes])

theorem crosses_joinWith (ordinary : isOrdinary mark = true) (other : mark ≠ separator)
    (each : ∀ part ∈ parts, Crosses separator Scan.start part Scan.start) :
    Crosses separator Scan.start (joinWith mark parts) Scan.start := by
  induction parts with
  | nil => exact .nil
  | cons part rest ih =>
    cases rest with
    | nil => exact each part (by simp)
    | cons next others =>
      have between : Crosses separator Scan.start [mark] Scan.start :=
        crosses_ordinary (by simpa using ordinary) (.inr (by simpa using Ne.symm other))
      have later := ih fun part mem => each part (List.mem_cons_of_mem _ mem)
      simpa [joinWith] using (each part (by simp)).append (between.append later)

/-! ## Words -/

/-- A letter, a digit, or a mark that stands in names or numbers. -/
def isWordChar (c : Char) : Bool :=
  c.isAlphanum || c = '_' || c = '-' || c = '+' || c = '.'

theorem ne_of_isWordChar (word : isWordChar c = true) (other : isWordChar mark = false) :
    c ≠ mark := by
  rintro rfl
  rw [word] at other
  cases other

theorem isDigit_toDigits (value : Nat) : ∀ c ∈ Nat.toDigits 10 value, c.isDigit = true :=
  fun _ mem => Nat.isDigit_of_mem_toDigits (by decide) (by decide) mem

theorem isWordChar_toDigits (value : Nat) : ∀ c ∈ Nat.toDigits 10 value, isWordChar c = true := by
  intro c mem
  simp [isWordChar, Char.isAlphanum, isDigit_toDigits value c mem]

theorem isOrdinary_of_isWordChar (word : isWordChar c = true) : isOrdinary c = true := by
  have other : ∀ {mark}, isWordChar mark = false → c ≠ mark := ne_of_isWordChar word
  have unquoted : c ≠ '"' := other rfl
  have unopened : Scan.opens c = false := by
    simp only [Scan.opens, Bool.or_eq_false_iff, decide_eq_false_iff_not]
    exact ⟨⟨other rfl, other rfl⟩, other rfl⟩
  have unclosed : Scan.closes c = false := by
    simp only [Scan.closes, Bool.or_eq_false_iff, decide_eq_false_iff_not]
    exact ⟨⟨other rfl, other rfl⟩, other rfl⟩
  simp [isOrdinary, unquoted, unopened, unclosed]

theorem isBlank_of_isWordChar (word : isWordChar c = true) : isBlank c = false := by
  simp only [isWordChar, Bool.or_eq_true, decide_eq_true_eq] at word
  rcases word with (((alphanum | rfl) | rfl) | rfl) | rfl
  · exact isBlank_of_isAlphanum alphanum
  all_goals rfl

theorem crosses_word (word : ∀ c ∈ text, isWordChar c = true)
    (other : isWordChar separator = false) :
    Crosses separator ⟨depth, .outside⟩ text ⟨depth, .outside⟩ :=
  crosses_ordinary (fun c mem => isOrdinary_of_isWordChar (word c mem))
    (.inr fun mem => ne_of_isWordChar (word separator mem) other rfl)

theorem isSolid_word (nonempty : text ≠ []) (word : ∀ c ∈ text, isWordChar c = true) :
    IsSolid text :=
  isSolid_of_forall nonempty fun c mem => isBlank_of_isWordChar (word c mem)

/-! ## Splitting -/

theorem cutTop_joinWith (cut : Scan.start.cuts separator separator = true) (nonempty : parts ≠ [])
    (each : ∀ part ∈ parts, Crosses separator Scan.start part Scan.start) :
    cutTop separator Scan.start (joinWith separator parts) = parts := by
  induction parts with
  | nil => exact absurd rfl nonempty
  | cons part rest ih =>
    have here := each part (by simp)
    cases rest with
    | nil => exact cutTop_of_crosses here
    | cons next others =>
      rw [joinWith, cutTop_append_of_crosses here cut,
        ih (by simp) fun part mem => each part (List.mem_cons_of_mem _ mem)]

theorem pieceChars_joinWith (cut : Scan.start.cuts separator separator = true)
    (each : ∀ part ∈ parts, IsSolid part ∧ Crosses separator Scan.start part Scan.start) :
    pieceChars separator (joinWith separator parts) = parts := by
  by_cases nothing : parts = []
  · subst nothing
    rfl
  · rw [pieceChars, cutTop_joinWith cut nothing fun part mem => (each part mem).2]
    have trimmed : parts.map trim = parts :=
      (List.map_congr_left fun part mem => (each part mem).1.trim).trans (List.map_id' parts)
    rw [trimmed, List.filter_eq_self]
    intro part mem
    simpa using (isSolid_iff.1 (each part mem).1).1

end RelationExpansion.Text
