import RelationExpansion.Store.Select

/-! # How records are compared

Compared the other way round, two records give the reverse.  Values of one type are totally ordered
and a missing value comes before them all, so records are, too, as long as every field that they are
compared by holds values of one type.

Values of different types count as equal.  A value may then be equal to two others that differ, and
by a field that holds three such values the comparison is no order (`compareBy_preorder_exact`).
-/

namespace RelationExpansion

open Std (OrientedCmp OrientedOrd TransCmp TransOrd)

/-! ## Values -/

namespace Number

variable {left right : Number} {order : Ordering}

theorem compare?_eq_some_iff : left.compare? right = some order ↔ ∃ x y,
    left.toDouble? = some x ∧ right.toDouble? = some y ∧ compare x.rank y.rank = order := by
  unfold compare?
  cases left.toDouble? <;> cases right.toDouble? <;> simp [bind, pure]

theorem compare?_swap (left right : Number) :
    right.compare? left = (left.compare? right).map Ordering.swap := by
  unfold compare?
  cases left.toDouble? with
  | none => cases right.toDouble? <;> rfl
  | some x =>
    cases right.toDouble? with
    | none => rfl
    | some y => exact congrArg some OrientedOrd.eq_swap

end Number

namespace Json

variable {left middle right value : Json}

theorem compare?_swap (left right : Json) :
    right.compare? left = (left.compare? right).map Ordering.swap := by
  cases left <;> cases right <;> try rfl
  case bool.bool => exact congrArg some OrientedOrd.eq_swap
  case number.number x y => exact Number.compare?_swap x y
  case string.string => exact congrArg some OrientedOrd.eq_swap

/-- What can be compared with one value can be compared, and goes on in the same direction. -/
theorem compare?_trans : ∀ {left middle right : Json} {first second : Ordering},
    left.compare? middle = some first → middle.compare? right = some second →
    ∃ order, left.compare? right = some order ∧ (first.isLE → second.isLE → order.isLE)
  | .number _, .number _, .number _, _, _, before, after => by
    obtain ⟨x, y, hx, hy, rfl⟩ := Number.compare?_eq_some_iff.1 before
    obtain ⟨y', z, hy', hz, rfl⟩ := Number.compare?_eq_some_iff.1 after
    cases hy.symm.trans hy'
    exact ⟨_, Number.compare?_eq_some_iff.2 ⟨x, z, hx, hz, rfl⟩, TransOrd.isLE_trans⟩
  | .string _, .string _, .string _, _, _, rfl, rfl => ⟨_, rfl, TransOrd.isLE_trans⟩
  | .bool _, .bool _, .bool _, _, _, rfl, rfl => ⟨_, rfl, TransOrd.isLE_trans⟩

theorem compare?_eq_none_comm : left.compare? right = none ↔ right.compare? left = none := by
  rw [compare?_swap left right, Option.map_eq_none_iff]

/-- A value that cannot be compared with one of two comparable values cannot be compared with the
other. -/
theorem compare?_eq_none_of_comparable (comparable : (left.compare? right).isSome = true)
    (apart : value.compare? left = none) : value.compare? right = none := by
  obtain ⟨order, compared⟩ := Option.isSome_iff_exists.1 comparable
  cases together : value.compare? right with
  | none => rfl
  | some other =>
    have back : right.compare? left = some order.swap := by rw [compare?_swap left, compared]; rfl
    obtain ⟨_, found, -⟩ := compare?_trans together back
    rw [apart] at found
    cases found

/-- Only a value of another type stands between a value and a smaller one. -/
theorem compare?_eq_none_of_between (above : left.compare? right = some .gt)
    (first : ((left.compare? middle).getD .eq).isLE)
    (second : ((middle.compare? right).getD .eq).isLE) : middle.compare? right = none := by
  cases before : left.compare? middle with
  | none =>
    exact compare?_eq_none_of_comparable (Option.isSome_of_eq_some above)
      (compare?_eq_none_comm.1 before)
  | some order =>
    cases after : middle.compare? right with
    | none => rfl
    | some other =>
      obtain ⟨_, found, follows⟩ := compare?_trans before after
      rw [before] at first
      rw [after] at second
      rw [above] at found
      cases found
      exact absurd (follows first second) Bool.false_ne_true

end Json

/-! ## One field -/

namespace Record

variable {field : String} {direction : Direction} {entries : List (String × Direction)}
  {a b c : Record} {records : List Record}

/-- Whether some records have two different values of one type in a field and a value of another
type. -/
def MixesTypes (field : String) (records : List Record) : Prop :=
  ∃ low high other, low ∈ records ∧ high ∈ records ∧ other ∈ records ∧
    ∃ x y z, low.present? field = some x ∧ high.present? field = some y ∧
      other.present? field = some z ∧ x.compare? y = some .lt ∧ z.compare? x = none

theorem MixesTypes.mono {others : List Record} (within : records ⊆ others)
    (mixes : MixesTypes field records) : MixesTypes field others := by
  obtain ⟨low, high, other, inLow, inHigh, inOther, values⟩ := mixes
  exact ⟨low, high, other, within inLow, within inHigh, within inOther, values⟩

theorem compareField_swap (field : String) (a b : Record) :
    compareField field b a = (compareField field a b).swap := by
  unfold compareField
  cases a.present? field with
  | none => cases b.present? field <;> rfl
  | some x =>
    cases b.present? field with
    | none => rfl
    | some y =>
      simp only [Json.compare?_swap x y]
      cases x.compare? y <;> rfl

theorem isLE_trans_compareField (pure : ¬ MixesTypes field [a, b, c])
    (first : (compareField field a b).isLE) (second : (compareField field b c).isLE) :
    (compareField field a c).isLE := by
  cases ha : a.present? field with
  | none => cases hc : c.present? field <;> simp [compareField, ha, hc]
  | some x =>
    cases hb : b.present? field with
    | none => simp [compareField, ha, hb] at first
    | some y =>
      cases hc : c.present? field with
      | none => simp [compareField, hb, hc] at second
      | some z =>
        simp only [compareField, ha, hb, hc] at first second ⊢
        rw [Ordering.isLE_iff_ne_gt]
        intro greater
        have above : x.compare? z = some .gt := by
          cases compared : x.compare? z <;> simp_all
        have below : z.compare? x = some .lt := by
          rw [Json.compare?_swap x, above]
          rfl
        have apart : y.compare? z = none := Json.compare?_eq_none_of_between above first second
        exact pure ⟨c, a, b, by simp, by simp, by simp, z, x, y, hc, ha, hb, below, apart⟩

/-- A value of another type is equal to both of two values that differ. -/
theorem compareField_of_mixesTypes (mixes : MixesTypes field records) :
    ∃ low high other, low ∈ records ∧ high ∈ records ∧ other ∈ records ∧
      compareField field low high = .lt ∧ compareField field other low = .eq ∧
      compareField field other high = .eq := by
  obtain ⟨low, high, other, inLow, inHigh, inOther, x, y, z, hx, hy, hz, below, apart⟩ := mixes
  have apart' : z.compare? y = none := Json.compare?_eq_none_of_comparable (by rw [below]; rfl) apart
  refine ⟨low, high, other, inLow, inHigh, inOther, ?_, ?_, ?_⟩
  · simp [compareField, hx, hy, below]
  · simp [compareField, hx, hz, apart]
  · simp [compareField, hy, hz, apart']

/-! ## Several fields -/

instance orientedCmp_compareBy : OrientedCmp (compareBy entries) where
  eq_swap {a b} := by
    induction entries with
    | nil => rfl
    | cons entry rest ih =>
      obtain ⟨field, direction⟩ := entry
      rw [compareBy, compareBy, Ordering.swap_then, ← ih, compareField_swap field a b]
      cases direction <;> simp [Direction.apply]

/-- Records that do not mix types in any of the fields are totally ordered by them. -/
theorem transCmp_compareBy (pure : ∀ entry ∈ entries, ¬ MixesTypes entry.1 records) :
    TransCmp fun a b : {record // record ∈ records} => compareBy entries a.1 b.1 := by
  induction entries with
  | nil =>
    exact { eq_swap := rfl, isLE_trans := fun _ _ => rfl }
  | cons entry rest ih =>
    obtain ⟨field, direction⟩ := entry
    have later := ih fun entry mem => pure entry (List.mem_cons_of_mem _ mem)
    have byField : TransCmp fun a b : {record // record ∈ records} =>
        compareField field a.1 b.1 := {
      eq_swap := compareField_swap field _ _
      isLE_trans := fun {a b c} => by
        have among : [a.1, b.1, c.1] ⊆ records := by simp [a.2, b.2, c.2]
        exact isLE_trans_compareField (mt (.mono among) (pure _ List.mem_cons_self)) }
    have directed : TransCmp fun a b : {record // record ∈ records} =>
        direction.apply (compareField field a.1 b.1) := by
      cases direction with
      | ascending => exact byField
      | descending =>
        simp only [Direction.apply, ← compareField_swap]
        exact TransCmp.opposite
    exact inferInstanceAs (TransCmp (compareLex _ _))

/-- When comparing by fields is a total preorder of some records.  It is always oriented; it is
transitive unless a field mixes types, and by a single field exactly then. -/
theorem compareBy_preorder_exact (entries : List (String × Direction)) (records : List Record) :
    let transitive := ∀ a ∈ records, ∀ b ∈ records, ∀ c ∈ records,
      (compareBy entries a b).isLE → (compareBy entries b c).isLE → (compareBy entries a c).isLE
    (∀ a b, compareBy entries b a = (compareBy entries a b).swap) ∧
    ((∀ entry ∈ entries, ¬ MixesTypes entry.1 records) → transitive) ∧
    ∀ field direction, entries = [(field, direction)] →
      (transitive ↔ ¬ MixesTypes field records) := by
  intro transitive
  have preorder (pure : ∀ entry ∈ entries, ¬ MixesTypes entry.1 records) : transitive := by
    intro a ha b hb c hc
    have ordered := transCmp_compareBy pure
    exact ordered.isLE_trans (a := ⟨a, ha⟩) (b := ⟨b, hb⟩) (c := ⟨c, hc⟩)
  refine ⟨fun _ _ => OrientedCmp.eq_swap, preorder, ?_⟩
  rintro field direction rfl
  refine ⟨fun trans mixes => ?_, fun pure => preorder (by simpa using pure)⟩
  -- The value of another type stands between the two that differ, in either direction.
  obtain ⟨low, high, other, inLow, inHigh, inOther, below, equalLow, equalHigh⟩ :=
    compareField_of_mixesTypes mixes
  have upward := trans high inHigh other inOther low inLow
  have downward := trans low inLow other inOther high inHigh
  cases direction <;>
    simp_all [compareBy, Direction.apply, compareField_swap field low high,
      compareField_swap field other high, compareField_swap field other low]

def ranked (rank : Json) : Record := [("rank", rank)]

/-- A text stands between two numbers that differ, and keeps them from being sorted. -/
theorem mixed_types_break_order :
    let two := ranked (.number (.int 2))
    let text := ranked (.string "x")
    let one := ranked (.number (.int 1))
    let byRank := [("rank", Direction.ascending)]
    let upward : Selection := { limit := 3, sort := some (SortSpec.ofText "rank") }
    compareBy byRank two text = .eq ∧ compareBy byRank text one = .eq ∧
      compareBy byRank two one = .gt ∧ ¬ TransCmp (compareBy byRank) ∧
      (upward.arrange [(Uuid.ofRandom 1, two), (Uuid.ofRandom 2, text),
        (Uuid.ofRandom 3, one)]).map (·.map Prod.fst) =
          .ok [Uuid.ofRandom 1, Uuid.ofRandom 2, Uuid.ofRandom 3] := by
  intro two text one byRank upward
  refine ⟨by decide, by decide, by decide, fun ordered => ?_, rfl⟩
  have trans : (compareBy byRank two one).isLE :=
    ordered.isLE_trans (a := two) (b := text) (c := one) (by decide) (by decide)
  exact absurd trans (by decide)

end Record

end RelationExpansion
