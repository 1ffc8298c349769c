import RelationExpansion.Proofs.Sorting.Sorts

/-! # Short lists are sorted

Insertion always ends.  Merging from both ends does if the halves are ordered: what is taken off the
front of them is parted from the rest by the order (`Parts`), and so is what is taken off the back,
and of two such partings one lies within the other (`Parts.le`).
-/

namespace RelationExpansion

namespace Sorting

open Std (OrientedCmp TransCmp)

variable {α : Type u} {compare : α → α → Ordering} {left right sorted sortedLeft sortedRight : List α}

/-! ## Insertion -/

theorem insertDescending_perm (isLess : α → α → Bool) (item : α) (items : List α) :
    (insertDescending isLess item items).Perm (item :: items) := by
  induction items with
  | nil => exact .refl _
  | cons first rest ih =>
    rw [insertDescending]
    split
    · exact (ih.cons first).trans (.swap item first rest)
    · exact .refl _

theorem pairwise_insertDescending [TransCmp compare] {item : α} {items : List α}
    (descending : items.Pairwise fun earlier later => (compare later earlier).isLE) :
    (insertDescending (isBefore compare) item items).Pairwise
      fun earlier later => (compare later earlier).isLE := by
  induction items with
  | nil => simp [insertDescending]
  | cons first rest ih =>
    obtain ⟨largest, ordered⟩ := List.pairwise_cons.1 descending
    rw [insertDescending]
    split
    · -- The item goes past a greater one.
      rename_i less
      refine List.pairwise_cons.2 ⟨fun later mem => ?_, ih ordered⟩
      rcases List.mem_cons.1 ((insertDescending_perm _ item rest).mem_iff.1 mem) with rfl | inside
      · exact Ordering.isLE_of_eq_lt (of_decide_eq_true less)
      · exact largest later inside
    · -- The item stops before one that is not greater, and no later one is greater than that.
      rename_i greater
      have least : (compare first item).isLE := isLE_of_not_isBefore (by simpa using greater)
      refine List.pairwise_cons.2 ⟨fun later mem => ?_, descending⟩
      rcases List.mem_cons.1 mem with rfl | inside
      · exact least
      · exact TransCmp.isLE_trans (largest later inside) least

/-- An item goes past greater ones only. -/
theorem keeps_insertDescending (item : α) (items : List α) :
    Keeps compare (item :: items) (insertDescending (isBefore compare) item items) := by
  induction items with
  | nil => exact .refl _
  | cons first rest ih =>
    rw [insertDescending]
    split
    · rename_i less
      have past : Keeps compare ([item] ++ [first]) ([first] ++ [item]) := by
        refine .swap fun _ x here y there => ?_
        obtain rfl := List.mem_singleton.1 here
        obtain rfl := List.mem_singleton.1 there
        exact of_decide_eq_true less
      exact (past.append (.refl rest)).trans ((Keeps.refl [first]).append ih)
    · exact .refl _

theorem Sorts.insert {front : List α} (sorts : Sorts compare front sorted) (item : α) :
    Sorts compare (front ++ [item])
      (insertDescending (isBefore compare) item sorted.reverse).reverse where
  toKeeps := by
    refine (sorts.toKeeps.append (.refl [item])).trans ?_
    have inserted : Keeps compare (item :: sorted.reverse).reverse _ :=
      (keeps_insertDescending item sorted.reverse).reverse
    rwa [List.reverse_cons, List.reverse_reverse] at inserted
  ordered trans :=
    List.pairwise_reverse.2 (pairwise_insertDescending (List.pairwise_reverse.2 (sorts.ordered trans)))

theorem Sorts.insertAll {front : List α} (sorts : Sorts compare front sorted) (items : List α) :
    Sorts compare (front ++ items) (insertAll (isBefore compare) sorted items) := by
  induction items generalizing front sorted with
  | nil => simpa [Sorting.insertAll] using sorts
  | cons item rest ih =>
    have step := ih (sorts.insert item)
    simpa [Sorting.insertAll] using step

theorem sorts_insertionSort (items : List α) :
    Sorts compare items (insertionSort (isBefore compare) items) := by
  have empty : Sorts compare ([] : List α) [] := .of_length (by simp)
  exact empty.insertAll items

/-! ## Four items -/

theorem ne_lt_of_isLE [OrientedCmp compare] {x y : α} (ordered : (compare x y).isLE) :
    compare y x ≠ .lt := by
  intro less
  rw [OrientedCmp.gt_of_lt less] at ordered
  cases ordered

theorem perm_sortPair (isLess : α → α → Bool) (x y : α) :
    [(sortPair isLess x y).1, (sortPair isLess x y).2].Perm [x, y] := by
  unfold sortPair
  split
  · exact .swap x y []
  · exact .refl _

/-- Two items are sorted as the merge of two lists of one item. -/
theorem sortPair_eq_merge (isLess : α → α → Bool) (x y : α) :
    [(sortPair isLess x y).1, (sortPair isLess x y).2] =
      [x].merge [y] fun x y => !isLess y x := by
  unfold sortPair
  cases less : isLess y x <;> simp [less]

theorem sorts_sortPair (x y : α) :
    Sorts compare [x, y]
      [(sortPair (isBefore compare) x y).1, (sortPair (isBefore compare) x y).2] := by
  have single (item : α) : Sorts compare [item] [item] := .of_length (by simp)
  rw [sortPair_eq_merge]
  exact (single x).merge_up (single y)

theorem perm_mergePairs (isLess : α → α → Bool) (a b c d : α) :
    (mergePairs isLess a b c d).Perm [a, b, c, d] := by
  have := Classical.decEq α
  refine (((perm_sortPair isLess _ _).append_right _).cons _).trans ?_
  refine List.perm_iff_count.2 fun item => ?_
  cases isLess c a <;> cases isLess d b <;>
    simp only [Bool.false_eq_true, if_true, if_false, List.cons_append, List.nil_append,
      List.count_cons, List.count_nil] <;> omega

/-- By a total preorder, the least item is one of the first two and the greatest one of the last. -/
theorem mergePairs_eq_merge [TransCmp compare] {a b c d : α} (ab : (compare a b).isLE)
    (cd : (compare c d).isLE) :
    mergePairs (isBefore compare) a b c d = [a, b].merge [c, d] fun x y => !isBefore compare y x := by
  have ba := ne_lt_of_isLE ab
  have dc := ne_lt_of_isLE cd
  by_cases ca : compare c a = .lt
  · by_cases db : compare d b = .lt
    · by_cases da : compare d a = .lt <;> simp [mergePairs, sortPair, ca, db, da]
    · have da : compare d a ≠ .lt := fun less => db (TransCmp.lt_of_lt_of_isLE less ab)
      simp [mergePairs, sortPair, ca, db, da, ba]
  · by_cases db : compare d b = .lt
    · have cb : compare c b = .lt := TransCmp.lt_of_isLE_of_lt cd db
      simp [mergePairs, sortPair, ca, db, cb, dc]
    · by_cases cb : compare c b = .lt <;> simp [mergePairs, sortPair, ca, db, cb]

theorem Sorts.mergePairs {a b c d : α} (before : Sorts compare left [a, b])
    (after : Sorts compare right [c, d]) :
    Sorts compare (left ++ right) (mergePairs (isBefore compare) a b c d) := by
  have merged := before.merge_up after
  have same (trans : TransCmp compare) := mergePairs_eq_merge
    (List.rel_of_pairwise_cons (before.ordered trans) (List.mem_singleton_self b))
    (List.rel_of_pairwise_cons (after.ordered trans) (List.mem_singleton_self d))
  refine ⟨⟨(perm_mergePairs _ a b c d).trans (before.perm.append after.perm), fun trans => ?_⟩,
    fun trans => ?_⟩
  · rw [same trans]
    exact merged.stable trans
  · rw [same trans]
    exact merged.ordered trans

theorem sorts_sortFour (first second third fourth : α) :
    Sorts compare [first, second, third, fourth]
      (sortFour (isBefore compare) first second third fourth) :=
  (sorts_sortPair first second).mergePairs (sorts_sortPair third fourth)

theorem sorts_sortHalf (four : Bool) (items : List α) :
    Sorts compare items (sortHalf (isBefore compare) four items) := by
  unfold sortHalf
  split
  · split
    · exact (sorts_sortFour _ _ _ _).insertAll _
    · exact sorts_insertionSort _
  · exact sorts_insertionSort _

/-! ## Taking items off the front -/

theorem fromLeft_takeFirst_le (isLess : α → α → Bool) (count : Nat) (left right : List α) :
    (takeFirst isLess count left right).fromLeft ≤ left.length := by
  fun_induction takeFirst isLess count left right with
  | case1 count x left y right less later ih => exact ih
  | case2 count x left y right less later ih => exact Nat.succ_le_succ ih
  | case3 => exact Nat.zero_le _

theorem fromRight_takeFirst_le (isLess : α → α → Bool) (count : Nat) (left right : List α) :
    (takeFirst isLess count left right).fromRight ≤ right.length := by
  fun_induction takeFirst isLess count left right with
  | case1 count x left y right less later ih => exact Nat.succ_le_succ ih
  | case2 count x left y right less later ih => exact ih
  | case3 => exact Nat.zero_le _

/-- As long as neither list is used up, an item is taken every time. -/
theorem count_takeFirst {isLess : α → α → Bool} {count : Nat} {left right : List α}
    (enough : count ≤ left.length) (enough' : count ≤ right.length) :
    (takeFirst isLess count left right).fromLeft + (takeFirst isLess count left right).fromRight =
      count := by
  fun_induction takeFirst isLess count left right with
  | case1 count x left y right less later ih =>
    have taken : later.fromLeft + later.fromRight = count :=
      ih (Nat.le_of_succ_le enough) (Nat.le_of_succ_le_succ enough')
    show later.fromLeft + (later.fromRight + 1) = count + 1
    omega
  | case2 count x left y right less later ih =>
    have taken : later.fromLeft + later.fromRight = count :=
      ih (Nat.le_of_succ_le_succ enough) (Nat.le_of_succ_le enough')
    show later.fromLeft + 1 + later.fromRight = count + 1
    omega
  | case3 count left right stopped =>
    cases count with
    | zero => rfl
    | succ count =>
      obtain ⟨x, left, rfl⟩ := List.exists_cons_of_length_pos (Nat.zero_lt_of_lt enough)
      obtain ⟨y, right, rfl⟩ := List.exists_cons_of_length_pos (Nat.zero_lt_of_lt enough')
      exact absurd rfl (stopped count x left y right rfl rfl)

theorem items_takeFirst (isLess : α → α → Bool) (count : Nat) (left right : List α) :
    (takeFirst isLess count left right).items =
      (left.take (takeFirst isLess count left right).fromLeft).merge
        (right.take (takeFirst isLess count left right).fromRight) fun x y => !isLess y x := by
  fun_induction takeFirst isLess count left right with
  | case1 count x left y right less later ih =>
    simp only [ih, later, List.take_succ_cons]
    cases (takeFirst isLess count (x :: left) right).fromLeft <;> simp [less]
  | case2 count x left y right less later ih =>
    simp only [ih, later, List.take_succ_cons]
    cases (takeFirst isLess count left (y :: right)).fromRight <;> simp [less]
  | case3 => simp

/-- What is taken is sorted if the lists are. -/
theorem sorts_takeFirst (count : Nat) {left right : List α}
    (ordered : TransCmp compare → left.Pairwise fun earlier later => (compare earlier later).isLE)
    (ordered' : TransCmp compare →
      right.Pairwise fun earlier later => (compare earlier later).isLE) :
    let taken := takeFirst (isBefore compare) count left right
    Sorts compare (left.take taken.fromLeft ++ right.take taken.fromRight) taken.items := by
  intro taken
  rw [items_takeFirst]
  exact (Sorts.of_ordered fun trans => (ordered trans).take).merge_up
    (.of_ordered fun trans => (ordered' trans).take)

/-! ## Parting two lists -/

/-- Whether the first items of two lists come before the other ones of both: none of the left list
comes after any of the right list, and those of the right list are less than those of the left. -/
structure Parts (compare : α → α → Ordering) (left right : List α) (fromLeft fromRight : Nat) :
    Prop where
  left_right : ∀ x ∈ left.take fromLeft, ∀ y ∈ right.drop fromRight, (compare x y).isLE
  right_left : ∀ y ∈ right.take fromRight, ∀ x ∈ left.drop fromLeft, compare y x = .lt

theorem parts_takeFirst [TransCmp compare] (count : Nat) {left right : List α}
    (ordered : left.Pairwise fun earlier later => (compare earlier later).isLE)
    (ordered' : right.Pairwise fun earlier later => (compare earlier later).isLE) :
    Parts compare left right (takeFirst (isBefore compare) count left right).fromLeft
      (takeFirst (isBefore compare) count left right).fromRight := by
  fun_induction takeFirst (isBefore compare) count left right with
  | case1 count x left y right less later ih =>
    obtain ⟨least, rest⟩ := List.pairwise_cons.1 ordered
    obtain ⟨before, after⟩ := ih ordered ordered'.of_cons
    refine ⟨before, fun y' mem x' inside => ?_⟩
    rcases List.mem_cons.1 mem with rfl | mem
    · have less : compare y' x = .lt := of_decide_eq_true less
      rcases List.mem_cons.1 (List.mem_of_mem_drop inside) with rfl | inside
      · exact less
      · exact TransCmp.lt_of_lt_of_isLE less (least x' inside)
    · exact after y' mem x' inside
  | case2 count x left y right less later ih =>
    obtain ⟨least, rest⟩ := List.pairwise_cons.1 ordered'
    obtain ⟨before, after⟩ := ih ordered.of_cons ordered'
    refine ⟨fun x' mem y' inside => ?_, after⟩
    rcases List.mem_cons.1 mem with rfl | mem
    · have first : (compare x' y).isLE := isLE_of_not_isBefore (by simpa using less)
      rcases List.mem_cons.1 (List.mem_of_mem_drop inside) with rfl | inside
      · exact first
      · exact TransCmp.isLE_trans first (least y' inside)
    · exact before x' mem y' inside
  | case3 => exact ⟨by simp, by simp⟩

theorem exists_mem_take_of_lt {items : List α} {start stop : Nat} (short : start < stop)
    (within : stop ≤ items.length) : ∃ item ∈ items.take stop, item ∈ items.drop start := by
  have inside : start < items.length := by omega
  refine ⟨items[start], List.mem_take_iff_getElem.2 ⟨start, by omega, rfl⟩,
    List.mem_drop_iff_getElem.2 ⟨0, by omega, by simp⟩⟩

namespace Parts

variable {fromLeft fromRight fromLeft' fromRight' : Nat}

/-- Of two ways to part the lists, one takes more of both. -/
theorem le [OrientedCmp compare] (parts : Parts compare left right fromLeft fromRight)
    (parts' : Parts compare left right fromLeft' fromRight')
    (within : fromLeft ≤ left.length ∧ fromRight ≤ right.length)
    (within' : fromLeft' ≤ left.length ∧ fromRight' ≤ right.length)
    (fewer : fromLeft + fromRight ≤ fromLeft' + fromRight') :
    fromLeft ≤ fromLeft' ∧ fromRight ≤ fromRight' := by
  -- Otherwise one takes more of the left list and the other more of the right list, and of two items
  -- that only one of them takes either would come before the other.
  constructor
  · by_contra more
    have less : fromRight < fromRight' := by omega
    obtain ⟨x, before, after⟩ := exists_mem_take_of_lt (Nat.lt_of_not_le more) within.1
    obtain ⟨y, before', after'⟩ := exists_mem_take_of_lt less within'.2
    exact ne_lt_of_isLE (parts.left_right x before y after') (parts'.right_left y before' x after)
  · by_contra more
    have less : fromLeft < fromLeft' := by omega
    obtain ⟨y, before, after⟩ := exists_mem_take_of_lt (Nat.lt_of_not_le more) within.2
    obtain ⟨x, before', after'⟩ := exists_mem_take_of_lt less within'.1
    exact ne_lt_of_isLE (parts'.left_right x before' y after) (parts.right_left y before x after')

/-- Lists are parted from their ends by parting them backwards with the comparison turned round. -/
theorem reverse
    (parts : Parts (fun x y => compare y x) right.reverse left.reverse fromRight fromLeft) :
    Parts compare left right (left.length - fromLeft) (right.length - fromRight) := by
  obtain ⟨after, before⟩ := parts
  simp only [List.take_reverse, List.drop_reverse, List.mem_reverse] at after before
  exact ⟨fun x first y last => after y last x first, fun y first x last => before x last y first⟩

/-- What comes first is nowhere greater than what comes after it. -/
theorem isLE (parts : Parts compare left right fromLeft fromRight)
    (ordered : left.Pairwise fun earlier later => (compare earlier later).isLE)
    (ordered' : right.Pairwise fun earlier later => (compare earlier later).isLE) :
    ∀ x ∈ left.take fromLeft ++ right.take fromRight,
      ∀ y ∈ left.drop fromLeft ++ right.drop fromRight, (compare x y).isLE := by
  intro x before y after
  rcases List.mem_append.1 before with before | before <;>
    rcases List.mem_append.1 after with after | after
  · exact ordered.rel_of_mem_take_of_mem_drop before after
  · exact parts.left_right x before y after
  · exact Ordering.isLE_of_eq_lt (parts.right_left x before y after)
  · exact ordered'.rel_of_mem_take_of_mem_drop before after

theorem take (parts : Parts compare left right fromLeft fromRight) {leftEnd rightEnd : Nat}
    (within : fromLeft ≤ leftEnd) (within' : fromRight ≤ rightEnd) :
    Parts compare (left.take leftEnd) (right.take rightEnd) fromLeft fromRight := by
  constructor
  · rw [List.take_take, Nat.min_eq_left within]
    exact fun x first y last =>
      parts.left_right x first y ((List.take_sublist _ _).drop _ |>.subset last)
  · rw [List.take_take, Nat.min_eq_left within']
    exact fun y first x last =>
      parts.right_left y first x ((List.take_sublist _ _).drop _ |>.subset last)

/-- Lists are merged by merging what comes first and what comes last. -/
theorem sorts (parts : TransCmp compare → Parts compare left right fromLeft fromRight)
    (ordered : TransCmp compare →
      left.Pairwise fun earlier later => (compare earlier later).isLE)
    (ordered' : TransCmp compare →
      right.Pairwise fun earlier later => (compare earlier later).isLE)
    (first : Sorts compare (left.take fromLeft ++ right.take fromRight) sortedLeft)
    (last : Sorts compare (left.drop fromLeft ++ right.drop fromRight) sortedRight) :
    Sorts compare (left ++ right) (sortedLeft ++ sortedRight) := by
  -- What comes first on the right goes past what comes last on the left.
  have past : Keeps compare (left.drop fromLeft ++ right.take fromRight)
      (right.take fromRight ++ left.drop fromLeft) :=
    .symm (.swap fun trans => (parts trans).right_left)
  have moved := ((Keeps.refl (left.take fromLeft)).append past).append (.refl (right.drop fromRight))
  simp only [List.append_assoc, List.take_append_drop] at moved
  rw [← List.append_assoc, List.take_append_drop, ← List.append_assoc] at moved
  exact .of_keeps moved <| first.append last fun trans =>
    (parts trans).isLE (ordered trans) (ordered' trans)

end Parts

/-! ## Merging from both ends -/

section Ends

variable (count : Nat)
  (ordered : TransCmp compare → left.Pairwise fun earlier later => (compare earlier later).isLE)
  (ordered' : TransCmp compare → right.Pairwise fun earlier later => (compare earlier later).isLE)

include ordered ordered'

/-- What is taken off the back stands for the ends of the lists. -/
theorem sorts_takeLast :
    let back := takeFirst (isBefore fun x y => compare y x) count right.reverse left.reverse
    Sorts compare (left.drop (left.length - back.fromRight) ++
      right.drop (right.length - back.fromLeft)) back.items.reverse := by
  intro back
  have backwards : Sorts (fun x y => compare y x)
      (right.reverse.take back.fromLeft ++ left.reverse.take back.fromRight) back.items :=
    sorts_takeFirst count (fun trans => List.pairwise_reverse.2 (ordered' trans.opposite))
      (fun trans => List.pairwise_reverse.2 (ordered trans.opposite))
  refine .reverse ?_
  rwa [List.reverse_append, ← List.take_reverse, ← List.take_reverse]

theorem parts_takeLast [trans : TransCmp compare] :
    let back := takeFirst (isBefore fun x y => compare y x) count right.reverse left.reverse
    Parts compare left right (left.length - back.fromRight) (right.length - back.fromLeft) := by
  intro back
  have : TransCmp fun x y => compare y x := TransCmp.opposite
  exact .reverse (parts_takeFirst count (List.pairwise_reverse.2 (ordered' trans))
    (List.pairwise_reverse.2 (ordered trans)))

end Ends

theorem settles_mergeEnds {before after : List α} (sorts : Sorts compare before left)
    (sorts' : Sorts compare after right) (short : left.length ≤ right.length)
    (long : right.length ≤ left.length + 1) :
    Settles compare (mergeEnds (isBefore compare) left right) (Sorts compare (before ++ after)) := by
  have ordered := sorts.ordered
  have ordered' := sorts'.ordered
  let front := takeFirst (isBefore compare) left.length left right
  let back := takeFirst (isBefore fun x y => compare y x) left.length right.reverse left.reverse
  have inLeft : front.fromLeft ≤ left.length := fromLeft_takeFirst_le _ _ _ _
  have inRight : front.fromRight ≤ right.length := fromRight_takeFirst_le _ _ _ _
  have counted : front.fromLeft + front.fromRight = left.length :=
    count_takeFirst (Nat.le_refl _) short
  have counted' : back.fromLeft + back.fromRight = left.length :=
    count_takeFirst (by simpa using short) (by simp)
  have parts : TransCmp compare → Parts compare left right front.fromLeft front.fromRight :=
    fun trans => parts_takeFirst left.length (ordered trans) (ordered' trans)
  have parts' : TransCmp compare →
      Parts compare left right (left.length - back.fromRight) (right.length - back.fromLeft) :=
    fun trans => parts_takeLast left.length ordered ordered'
  show Settles compare (if front.fromLeft ≤ left.length - back.fromRight ∧
    front.fromRight ≤ right.length - back.fromLeft then _ else _) _
  split
  · rename_i apart
    refine .ok (.of_keeps (sorts.toKeeps.append sorts'.toKeeps) ?_)
    refine Parts.sorts parts' ordered ordered' ?_ (sorts_takeLast left.length ordered ordered')
    refine Parts.sorts (fun trans => (parts trans).take apart.1 apart.2)
      (fun trans => (ordered trans).take) (fun trans => (ordered' trans).take) ?_ (.of_length ?_)
    · rw [List.take_take, List.take_take, Nat.min_eq_left apart.1, Nat.min_eq_left apart.2]
      exact sorts_takeFirst left.length ordered ordered'
    · -- At most one item lies between what the two ends have taken.
      simp only [List.length_append, List.length_drop, List.length_take]
      omega
  · rename_i overlapping
    refine ⟨nofun, fun trans => absurd ?_ overlapping⟩
    exact (parts trans).le (parts' trans) ⟨inLeft, inRight⟩ ⟨Nat.sub_le _ _, Nat.sub_le _ _⟩
      (by omega)

theorem settles_sortHalves (items : List α) :
    Settles compare (sortHalves (isBefore compare) items) (Sorts compare items) := by
  let half := items.length / 2
  let four : Bool := 8 ≤ items.length
  have before : Sorts compare (items.take half) _ := sorts_sortHalf four (items.take half)
  have after : Sorts compare (items.drop half) _ := sorts_sortHalf four (items.drop half)
  have size := before.perm.length_eq
  have size' := after.perm.length_eq
  rw [List.length_take] at size
  rw [List.length_drop] at size'
  show Settles compare (if items.length < 2 then _ else _) _
  split
  · exact .ok (.of_length ‹_›)
  · have merged := settles_mergeEnds before after (by omega) (by omega)
    rwa [List.take_append_drop] at merged

end Sorting

end RelationExpansion
