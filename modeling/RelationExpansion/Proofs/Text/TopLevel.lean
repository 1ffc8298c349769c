import RelationExpansion.Proofs.Text.Splitting

/-! # Separators at the top level

A separator cuts where the scan of all that stands before it is outside brackets and strings.  A
text that ends there can be continued after a separator without any effect on its own pieces
(`cutTop_append`), however its brackets and quotes are set.  What lies between two cuts is crossed
from the start, and so is what trimming leaves of it, so that a piece is its own only piece
(`pieceChars_of_mem`).
-/

namespace RelationExpansion.Text

/-- The state after a whole text. -/
def Scan.run (scan : Scan) (text : List Char) : Scan := text.foldl Scan.step scan

/-- Whether a text ends outside all brackets and strings. -/
def EndsClosed (text : List Char) : Prop := (Scan.start.run text).isTop = true

/-- Whether a separator stands outside all brackets and strings. -/
def HasTopLevel (separator : Char) (text : List Char) : Prop :=
  ∃ front back, text = front ++ separator :: back ∧ EndsClosed front

/-- Whether a text can stand between separators: it is trimmed, it leaves no bracket or string open,
and it would not be cut itself. -/
structure StandsBetween (separator : Char) (text : String) : Prop where
  nonempty : text ≠ ""
  trimmed : Text.trimmed text = text
  closed : EndsClosed text.toList
  uncut : ¬ HasTopLevel separator text.toList

variable {separator c : Char} {scan after : Scan} {text front back part : List Char}

/-! ## The top level -/

theorem Scan.eq_start_of_isTop (top : scan.isTop = true) : scan = Scan.start := by
  obtain ⟨depth, quoting⟩ := scan
  simp only [Scan.isTop, Bool.and_eq_true, decide_eq_true_eq] at top
  obtain ⟨rfl, rfl⟩ := top
  rfl

theorem endsClosed_iff : EndsClosed text ↔ Scan.start.run text = Scan.start :=
  ⟨Scan.eq_start_of_isTop, fun same => by rw [EndsClosed, same]; rfl⟩

theorem Scan.step_start (ordinary : isOrdinary c = true) : Scan.start.step c = Scan.start := by
  obtain ⟨unquoted, unopened, unclosed⟩ := isOrdinary_iff.1 ordinary
  simp [Scan.step, Scan.start, unquoted, unopened, unclosed]

theorem Scan.eq_start_of_cuts (cut : scan.cuts separator c = true) : scan = Scan.start := by
  simp only [Scan.cuts, Bool.and_eq_true] at cut
  exact Scan.eq_start_of_isTop cut.1.1.1.1

theorem Scan.cuts_iff (ordinary : isOrdinary separator = true) :
    scan.cuts separator c = true ↔ scan = Scan.start ∧ c = separator := by
  constructor
  · intro cut
    refine ⟨Scan.eq_start_of_cuts cut, ?_⟩
    simp only [Scan.cuts, Bool.and_eq_true, decide_eq_true_eq] at cut
    exact cut.1.1.1.2
  · rintro ⟨rfl, rfl⟩
    obtain ⟨unquoted, unopened, unclosed⟩ := isOrdinary_iff.1 ordinary
    simp [Scan.cuts, Scan.isTop, Scan.start, unquoted, unopened, unclosed]

theorem Scan.cuts_start (ordinary : isOrdinary separator = true) :
    Scan.start.cuts separator separator = true :=
  (Scan.cuts_iff ordinary).2 ⟨rfl, rfl⟩

instance : Decidable (EndsClosed text) := inferInstanceAs (Decidable (_ = true))

theorem hasTopLevel_iff :
    HasTopLevel separator text ↔
      ∃ n < text.length, text[n]? = some separator ∧ EndsClosed (text.take n) := by
  constructor
  · rintro ⟨front, back, rfl, closed⟩
    exact ⟨front.length, by simp, by simp, by simpa using closed⟩
  · rintro ⟨n, -, found, closed⟩
    obtain ⟨inside, rfl⟩ := List.getElem?_eq_some_iff.1 found
    exact ⟨text.take n, text.drop (n + 1), by simp, closed⟩

instance : Decidable (HasTopLevel separator text) := decidable_of_iff _ hasTopLevel_iff.symm

/-! ## Going on after a separator -/

theorem cutTop_append (ordinary : isOrdinary separator = true)
    (closed : scan.run front = Scan.start) (back : List Char) :
    cutTop separator scan (front ++ separator :: back) =
      cutTop separator scan front ++ cutTop separator Scan.start back := by
  induction front generalizing scan with
  | nil =>
    obtain rfl : scan = Scan.start := closed
    simp [cutTop, Scan.cuts_start ordinary]
  | cons c rest ih =>
    have later : (scan.step c).run rest = Scan.start := closed
    by_cases cut : scan.cuts separator c = true
    · -- The separator itself changes nothing at the top level.
      obtain ⟨rfl, rfl⟩ := (Scan.cuts_iff ordinary).1 cut
      rw [Scan.step_start ordinary] at later
      simp [cutTop, cut, ih later]
    · simp only [List.cons_append, cutTop, cut, Bool.false_eq_true, if_false, ih later]
      cases shape : cutTop separator (scan.step c) rest with
      | nil => exact absurd shape (cutTop_ne_nil separator (scan.step c) rest)
      | cons part parts => rfl

theorem pieceChars_append (ordinary : isOrdinary separator = true) (closed : EndsClosed front)
    (back : List Char) :
    pieceChars separator (front ++ separator :: back) =
      pieceChars separator front ++ pieceChars separator back := by
  rw [pieceChars, cutTop_append ordinary (endsClosed_iff.1 closed), List.map_append,
    List.filter_append]
  rfl

/-! ## Texts between separators -/

theorem crosses_of_uncut (ordinary : isOrdinary separator = true)
    (uncut : ∀ front back, text = front ++ separator :: back → scan.run front ≠ Scan.start) :
    Crosses separator scan text (scan.run text) := by
  induction text generalizing scan with
  | nil => exact .nil
  | cons c rest ih =>
    refine .cons (Bool.eq_false_iff.2 fun cut => ?_) (ih fun front back split => ?_)
    · obtain ⟨same, rfl⟩ := (Scan.cuts_iff ordinary).1 cut
      exact uncut [] rest rfl same
    · exact uncut (c :: front) back (congrArg (c :: ·) split)

theorem StandsBetween.isSolid {text : String} (stands : StandsBetween separator text) :
    IsSolid text.toList := by
  refine isSolid_iff.2 ⟨fun nothing => stands.nonempty ?_, ?_⟩
  · rw [← String.toList_inj, nothing]
    rfl
  · simpa [Text.trimmed] using congrArg String.toList stands.trimmed

theorem StandsBetween.crosses {text : String} (ordinary : isOrdinary separator = true)
    (stands : StandsBetween separator text) :
    Crosses separator Scan.start text.toList Scan.start := by
  have closed : Scan.start.run text.toList = Scan.start := endsClosed_iff.1 stands.closed
  have crosses : Crosses separator Scan.start text.toList (Scan.start.run text.toList) :=
    crosses_of_uncut ordinary fun front back split top =>
      stands.uncut ⟨front, back, split, endsClosed_iff.2 top⟩
  rwa [closed] at crosses

/-! ## The pieces of a text -/

theorem Crosses.exists_front (crosses : Crosses separator scan (front ++ back) after) :
    ∃ middle, Crosses separator scan front middle := by
  induction front generalizing scan with
  | nil => exact ⟨scan, .nil⟩
  | cons c rest ih =>
    cases crosses with
    | cons uncut later =>
      obtain ⟨middle, crosses⟩ := ih later
      exact ⟨middle, .cons uncut crosses⟩

theorem isOrdinary_of_isBlank (blank : isBlank c = true) : isOrdinary c = true := by
  refine isOrdinary_iff.2 ⟨?_, ?_, ?_⟩
  · rintro rfl
    cases blank
  · simp only [Scan.opens, Bool.or_eq_false_iff, decide_eq_false_iff_not]
    refine ⟨⟨?_, ?_⟩, ?_⟩ <;> rintro rfl <;> cases blank
  · simp only [Scan.closes, Bool.or_eq_false_iff, decide_eq_false_iff_not]
    refine ⟨⟨?_, ?_⟩, ?_⟩ <;> rintro rfl <;> cases blank

/-- Leading blanks leave the scan at the start. -/
theorem Crosses.trimLeft (crosses : Crosses separator Scan.start text after) :
    Crosses separator Scan.start (trimLeft text) after := by
  induction text with
  | nil => exact crosses
  | cons c rest ih =>
    by_cases blank : isBlank c = true
    · cases crosses with
      | cons uncut later =>
        rw [Scan.step_start (isOrdinary_of_isBlank blank)] at later
        simpa [Text.trimLeft, List.dropWhile_cons, blank] using ih later
    · simpa [Text.trimLeft, List.dropWhile_cons, blank] using crosses

theorem Crosses.exists_trim (crosses : Crosses separator Scan.start text after) :
    ∃ middle, Crosses separator Scan.start (trim text) middle := by
  obtain ⟨dropped, whole⟩ := trimRight_isPrefix (Text.trimLeft text)
  have kept := crosses.trimLeft
  rw [← whole] at kept
  exact kept.exists_front

/-- The first part is crossed from where the scan stands, and every other one from a cut on. -/
theorem crosses_of_cutTop {parts : List (List Char)}
    (cut : cutTop separator scan text = part :: parts) :
    (∃ after, Crosses separator scan part after) ∧
      ∀ other ∈ parts, ∃ after, Crosses separator Scan.start other after := by
  induction text generalizing scan part parts with
  | nil =>
    cases cut
    exact ⟨⟨scan, .nil⟩, by simp⟩
  | cons c rest ih =>
    rw [cutTop] at cut
    by_cases here : scan.cuts separator c = true
    · -- A cut is made at the start of a scan only, where the next part is crossed from as well.
      cases Scan.eq_start_of_cuts here
      obtain ⟨next, others, shape⟩ :=
        List.exists_cons_of_ne_nil (cutTop_ne_nil separator Scan.start rest)
      obtain ⟨crossed, behind⟩ := ih shape
      simp only [here, if_true, shape, List.cons.injEq] at cut
      obtain ⟨rfl, rfl⟩ := cut
      exact ⟨⟨Scan.start, .nil⟩, List.forall_mem_cons.2 ⟨crossed, behind⟩⟩
    · obtain ⟨first, others, shape⟩ :=
        List.exists_cons_of_ne_nil (cutTop_ne_nil separator (scan.step c) rest)
      obtain ⟨⟨after, crosses⟩, behind⟩ := ih shape
      simp only [here, shape, Bool.false_eq_true, if_false, List.cons.injEq] at cut
      obtain ⟨rfl, rfl⟩ := cut
      exact ⟨⟨after, .cons (Bool.eq_false_iff.2 here) crosses⟩, behind⟩

theorem exists_crosses_of_mem (mem : part ∈ cutTop separator Scan.start text) :
    ∃ after, Crosses separator Scan.start part after := by
  obtain ⟨first, others, shape⟩ :=
    List.exists_cons_of_ne_nil (cutTop_ne_nil separator Scan.start text)
  have each : ∀ other ∈ first :: others, ∃ after, Crosses separator Scan.start other after :=
    List.forall_mem_cons.2 (crosses_of_cutTop shape)
  exact each part (shape ▸ mem)

/-- A piece has nothing to trim and nothing to cut. -/
theorem pieceChars_of_mem (mem : part ∈ pieceChars separator text) :
    IsSolid part ∧ pieceChars separator part = [part] := by
  rw [pieceChars, List.mem_filter, List.mem_map] at mem
  obtain ⟨⟨raw, among, rfl⟩, nonempty⟩ := mem
  have solid : IsSolid (trim raw) := isSolid_trim (by simpa using nonempty)
  obtain ⟨after, crosses⟩ := exists_crosses_of_mem among
  obtain ⟨middle, trimmed⟩ := crosses.exists_trim
  refine ⟨solid, ?_⟩
  rw [pieceChars, cutTop_of_crosses trimmed, List.map_singleton, solid.trim]
  exact List.filter_eq_self.2 fun other same => by rwa [List.mem_singleton.1 same]

/-! ## Texts as strings -/

theorem joinWith_eq_intercalate (mark : Char) (parts : List (List Char)) :
    joinWith mark parts = [mark].intercalate parts := by
  induction parts with
  | nil => rfl
  | cons part rest ih =>
    cases rest with
    | nil => simp [joinWith]
    | cons next others => simp [joinWith, ih, List.intercalate_cons_cons]

/-- Pieces are whole, splitting goes on after a separator, and joining what can stand between
separators is undone by splitting. -/
theorem pieces_append_and_join (separator : Char) :
    (∀ text, ∀ piece ∈ pieces separator text,
      piece ≠ "" ∧ trimmed piece = piece ∧ pieces separator piece = [piece]) ∧
    (isOrdinary separator = true →
      (∀ front back : String, EndsClosed front.toList →
        pieces separator (front ++ String.singleton separator ++ back) =
          pieces separator front ++ pieces separator back) ∧
      ∀ parts : List String, (∀ part ∈ parts, StandsBetween separator part) →
        pieces separator ((String.singleton separator).intercalate parts) = parts) := by
  refine ⟨fun text piece mem => ?_, fun ordinary =>
    ⟨fun front back closed => ?_, fun parts each => ?_⟩⟩
  · obtain ⟨part, inside, rfl⟩ := List.mem_map.1 mem
    obtain ⟨solid, whole⟩ := pieceChars_of_mem inside
    obtain ⟨nonempty, trims⟩ := isSolid_iff.1 solid
    refine ⟨fun nothing => nonempty (String.ofList_eq_empty_iff.1 nothing), ?_, ?_⟩
    · rw [trimmed, String.toList_ofList, trims]
    · rw [pieces, String.toList_ofList, whole]
      rfl
  · have joined : (front ++ String.singleton separator ++ back).toList =
        front.toList ++ separator :: back.toList := by simp
    rw [pieces, joined, pieceChars_append ordinary closed, List.map_append]
    rfl
  · have joined : ((String.singleton separator).intercalate parts).toList =
        joinWith separator (parts.map String.toList) := by
      simp [joinWith_eq_intercalate]
    rw [pieces, joined, pieceChars_joinWith (Scan.cuts_start ordinary) (List.forall_mem_map.2
      fun part mem => ⟨(each part mem).isSolid, (each part mem).crosses ordinary⟩)]
    simp [Function.comp_def]

/-- The bracket in front closes nothing, and the commas stand in brackets. -/
theorem pieces_append_and_join_sorts :
    let front := ") tags:sort(name,id|desc)"
    let parts := ["tags:sort(name,id|desc)", "[\"a,(\"]", "category"]
    isOrdinary ',' = true ∧ EndsClosed front.toList ∧
      (∀ part ∈ parts, StandsBetween ',' part) ∧
      pieces ',' (front ++ String.singleton ',' ++ "(a,b") =
        pieces ',' front ++ pieces ',' "(a,b" ∧
      pieces ',' ((String.singleton ',').intercalate parts) = parts ∧
      "(a,b" ∈ pieces ',' " (a,b " ∧ pieces ',' "(a,b" = ["(a,b"] := by
  intro front parts
  have closed : EndsClosed front.toList := by decide +kernel
  have each : ∀ part ∈ parts, StandsBetween ',' part := by
    simp only [parts, List.forall_mem_cons]
    refine ⟨?_, ?_, ?_, by simp⟩ <;>
      exact ⟨by decide, by decide +kernel, by decide +kernel, by decide +kernel⟩
  have mem : "(a,b" ∈ pieces ',' " (a,b " := by decide +kernel
  obtain ⟨whole, append⟩ := pieces_append_and_join ','
  obtain ⟨continues, joins⟩ := append rfl
  exact ⟨rfl, closed, each, continues _ _ closed, joins _ each, mem, (whole _ _ mem).2.2⟩

end RelationExpansion.Text
