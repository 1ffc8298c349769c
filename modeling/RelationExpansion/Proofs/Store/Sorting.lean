import RelationExpansion.Proofs.Number.Rounding
import RelationExpansion.Proofs.Store.Arranging

/-! # Sorted selections

Where each field of a sort holds values of one type, none mixes types.  So a selection shows one page
of an ordered list of the records that match, in which records that the sort holds equal stand as
they stood before (`arrangesInOrder`).
-/

namespace RelationExpansion

/-! ## Fields of one type -/

namespace Record

variable {field : String} {records : List Record}

/-- Whether all records that have a value in a field have a number there, one that a text can hold,
or all a text, or all a truth value. -/
def IsUniform (field : String) (records : List Record) : Prop :=
  (∀ record ∈ records, ∀ value, record.present? field = some value →
    ∃ number, value = .number number ∧ number.Fits) ∨
  (∀ record ∈ records, ∀ value, record.present? field = some value →
    ∃ text, value = .string text) ∨
  ∀ record ∈ records, ∀ value, record.present? field = some value → ∃ truth, value = .bool truth

theorem IsUniform.not_mixesTypes (uniform : IsUniform field records) :
    ¬ MixesTypes field records := by
  rintro ⟨low, high, other, inLow, -, inOther, x, y, z, hx, -, hz, -, apart⟩
  rcases uniform with numbers | texts | truths
  · obtain ⟨number, rfl, fits⟩ := numbers low inLow x hx
    obtain ⟨last, rfl, fits'⟩ := numbers other inOther z hz
    have compared : (last.compare? number).isSome = true := fits'.compare?_isSome fits
    rw [show last.compare? number = none from apart] at compared
    cases compared
  · obtain ⟨text, rfl⟩ := texts low inLow x hx
    obtain ⟨last, rfl⟩ := texts other inOther z hz
    cases apart
  · obtain ⟨truth, rfl⟩ := truths low inLow x hx
    obtain ⟨last, rfl⟩ := truths other inOther z hz
    cases apart

/-- Whether a record without a value in a field comes before those with one, or after them, as a
direction puts it. -/
def AbsentInPlace (field : String) (earlier later : Record) : Direction → Prop
  | .ascending => later.present? field = none → earlier.present? field = none
  | .descending => earlier.present? field = none → later.present? field = none

theorem absent_of_isLE_compareField {earlier later : Record}
    (ordered : (compareField field earlier later).isLE) (absent : later.present? field = none) :
    earlier.present? field = none := by
  cases present : earlier.present? field with
  | none => rfl
  | some value => simp [compareField, present, absent] at ordered

theorem absentInPlace_of_isLE {before after : List (String × Direction)} {direction : Direction}
    {earlier later : Record} (tied : compareBy before earlier later = .eq)
    (ordered : (compareBy (before ++ (field, direction) :: after) earlier later).isLE) :
    AbsentInPlace field earlier later direction := by
  induction before with
  | nil =>
    have first := Ordering.isLE_left_of_isLE_then ordered
    cases direction with
    | ascending => exact absent_of_isLE_compareField first
    | descending =>
      -- Reversed, the later record is the one that compares first.
      rw [Direction.apply, ← compareField_swap] at first
      exact absent_of_isLE_compareField first
  | cons entry rest ih =>
    obtain ⟨here, there⟩ := Ordering.then_eq_eq.1 tied
    rw [List.cons_append, compareBy, here] at ordered
    exact ih there ordered

end Record

/-! ## Selections -/

namespace Selection

open Record (AbsentInPlace compareBy)

variable {selection : Selection} {records : List (Uuid × Record)}

/-- What a sorted selection shows: the records that match, in the order of the sort, those that it
holds equal in the order in which they came, and of these one page. -/
structure ArrangesInOrder (selection : Selection) (records arranged page : List (Uuid × Record))
    (total : Nat) : Prop where
  arranges : selection.arrange records = .ok arranged
  selects : selection.select records = .ok (page, total)
  complete : arranged.Perm (records.filter fun entry => selection.admits entry.2)
  unsorted : selection.sort = none →
    arranged = records.filter fun entry => selection.admits entry.2
  ordered : ∀ spec, selection.sort = some spec → arranged.Pairwise
    fun earlier later => (compareBy spec.entries earlier.2 later.2).isLE
  absent : ∀ spec, selection.sort = some spec → ∀ before field direction after,
    spec.entries = before ++ (field, direction) :: after →
    arranged.Pairwise fun earlier later =>
      compareBy before earlier.2 later.2 = .eq →
        AbsentInPlace field earlier.2 later.2 direction
  stable : ∀ spec, selection.sort = some spec →
    ∀ one ∈ records, selection.admits one.2 = true →
      arranged.filter (fun entry => compareBy spec.entries one.2 entry.2 = .eq) =
        (records.filter fun entry => selection.admits entry.2).filter
          fun entry => compareBy spec.entries one.2 entry.2 = .eq
  window : ∀ index, page[index]? =
    if index < selection.limit then arranged[selection.skip + index]? else none
  counted : total = (records.filter fun entry => selection.admits entry.2).length

theorem sortsAlike_of_isUniform (uniform : ∀ spec, selection.sort = some spec →
      ∀ field ∈ spec.keys, Record.IsUniform field (records.map Prod.snd)) :
    selection.SortsAlike (selection.matching records) := by
  intro spec sorted field mem mixes
  refine (uniform spec sorted field mem).not_mixesTypes (mixes.mono ?_)
  exact (List.filter_sublist.map Prod.snd).subset

/-- A selection over fields that hold values of one type each shows one page of an ordered list. -/
theorem arrangesInOrder (selection : Selection) (records : List (Uuid × Record))
    (uniform : ∀ spec, selection.sort = some spec → ∀ field ∈ spec.keys,
      Record.IsUniform field (records.map Prod.snd)) :
    ∃ arranged page total, selection.ArrangesInOrder records arranged page total := by
  have alike := sortsAlike_of_isUniform uniform
  obtain ⟨arranged, arranges⟩ := exists_arrange (.inl alike)
  have complete := perm_of_arrange arranges
  refine ⟨arranged, _, _, arranges, select_eq_ok_iff.2 ⟨arranged, arranges, rfl, rfl⟩, complete,
    fun none => ?unsorted, fun spec sorted => pairwise_of_arrange sorted alike arranges,
    fun spec sorted before field direction after split => ?absent,
    fun spec sorted one mem admitted => ?stable, fun index => ?window, complete.length_eq⟩
  case unsorted =>
    rw [arrange_unsorted none] at arranges
    cases arranges
    rfl
  case absent =>
    refine (pairwise_of_arrange sorted alike arranges).imp fun {earlier later} ordered tied => ?_
    rw [split] at ordered
    exact Record.absentInPlace_of_isLE tied ordered
  case stable =>
    exact filter_of_arrange sorted alike arranges (List.mem_filter.2 ⟨mem, admitted⟩)
  case window => rw [List.getElem?_take, List.getElem?_drop]

def shelf : List (Uuid × Record) := [
  (Uuid.ofRandom 1, [("name", .string "b"), ("rank", .number (.int 2))]),
  (Uuid.ofRandom 2, [("name", .string "a")]),
  (Uuid.ofRandom 3, [("name", .string "a"), ("rank", .number (.int 7))]),
  (Uuid.ofRandom 4, [("name", .string "b"), ("rank", .null)]),
  (Uuid.ofRandom 5, [("name", .string "b"), ("rank", .number (.int 2))]),
  (Uuid.ofRandom 6, [("name", .string "z"), ("rank", .number (.int 1))])]

theorem isUniform_shelf :
    ∀ field ∈ ["name", "rank"], Record.IsUniform field (shelf.map Prod.snd) := by
  intro field mem
  simp only [List.mem_cons, List.not_mem_nil, or_false] at mem
  rcases mem with rfl | rfl
  · refine .inr (.inl ?_)
    simp [shelf, Record.present?, Assoc.get?, Json.isNull]
  · refine .inl ?_
    simp [shelf, Record.present?, Assoc.get?, Json.isNull, Number.Fits]

/-- A descending field with values missing, and an ascending one that does not tell all apart. -/
theorem arrangesInOrder_shelf :
    let selection : Selection := {
      limit := 3
      skip := 1
      sort := some (SortSpec.ofText "name|desc,rank")
      filter := some (.object [("name!=", .string "z")]) }
    (∀ spec, selection.sort = some spec → ∀ field ∈ spec.keys,
        Record.IsUniform field (shelf.map Prod.snd)) ∧
      ∃ arranged page, selection.ArrangesInOrder shelf arranged page 5 ∧
        arranged.map Prod.fst =
          [Uuid.ofRandom 4, Uuid.ofRandom 1, Uuid.ofRandom 5, Uuid.ofRandom 2, Uuid.ofRandom 3] ∧
        page.map Prod.fst = [Uuid.ofRandom 1, Uuid.ofRandom 5, Uuid.ofRandom 2] := by
  intro selection
  have uniform : ∀ spec, selection.sort = some spec → ∀ field ∈ spec.keys,
      Record.IsUniform field (shelf.map Prod.snd) := by
    intro spec sorted
    cases sorted
    exact isUniform_shelf
  obtain ⟨arranged, page, total, shows⟩ := arrangesInOrder selection shelf uniform
  have whole : (selection.arrange shelf).map (·.map Prod.fst) = .ok [Uuid.ofRandom 4,
    Uuid.ofRandom 1, Uuid.ofRandom 5, Uuid.ofRandom 2, Uuid.ofRandom 3] := rfl
  have shown : (selection.select shelf).map (fun shown => (shown.1.map Prod.fst, shown.2)) =
    .ok ([Uuid.ofRandom 1, Uuid.ofRandom 5, Uuid.ofRandom 2], 5) := rfl
  rw [shows.arranges] at whole
  rw [shows.selects] at shown
  obtain ⟨ids, rfl⟩ := Prod.mk.inj (Except.ok.inj shown)
  exact ⟨uniform, arranged, page, shows, Except.ok.inj whole, ids⟩

end Selection

end RelationExpansion
