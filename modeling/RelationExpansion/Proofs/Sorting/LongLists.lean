import RelationExpansion.Proofs.Sorting.ShortLists

/-! # Long lists are sorted

Every run stands for a stretch of the list: it is the stretch sorted, or the stretch itself if it was
left for later (`Run.Of`).  Joining runs joins their stretches, so in the end there is one run, of the
whole list.  Partitions part a list into items that are less than those after them.

A sort gives the items of the list and none else, and always ends for a list of at most twenty items
and by a total preorder of the items (`settles_sortBy`).
-/

namespace RelationExpansion

namespace Sorting

open Std (OrientedCmp TransCmp)

variable {α : Type u} {compare : α → α → Ordering}

/-! ## Runs that are there -/

theorem leading_initial (follows : α → α → Bool) (items : List α) :
    leading follows items <+: items := by
  fun_induction leading follows items with
  | case1 first second rest here ih => exact (List.prefix_cons_inj first).2 ih
  | case2 first second rest => simp
  | case3 => exact List.prefix_rfl

theorem isChain_leading (follows : α → α → Bool) (items : List α) :
    (leading follows items).IsChain fun earlier later => follows earlier later = true := by
  fun_induction leading follows items with
  | case1 first second rest here ih =>
    -- The chain goes on with the second item, which the rest of the run begins with.
    obtain ⟨others, same⟩ : ∃ others, leading follows (second :: rest) = second :: others := by
      cases rest with
      | nil => exact ⟨[], rfl⟩
      | cons third rest =>
        rw [leading]
        split
        · exact ⟨_, rfl⟩
        · exact ⟨[], rfl⟩
    rw [same] at ih ⊢
    exact .cons_cons here ih
  | case2 first second rest => exact .singleton first
  | case3 items single =>
    match items with
    | [] => exact .nil
    | [item] => exact .singleton item
    | first :: second :: rest => exact absurd rfl (single first second rest)

/-- A list that goes down is turned round. -/
theorem Keeps.reverse_of_descending {items : List α}
    (descending : TransCmp compare → items.Pairwise fun earlier later => compare later earlier = .lt) :
    Keeps compare items items.reverse := by
  induction items with
  | nil => exact .refl _
  | cons first rest ih =>
    rw [List.reverse_cons]
    refine ((Keeps.refl [first]).append (ih fun trans => (descending trans).of_cons)).trans ?_
    refine .symm (.swap fun trans later mem only same => ?_)
    obtain rfl := List.mem_singleton.1 same
    exact List.rel_of_pairwise_cons (descending trans) (List.mem_reverse.1 mem)

/-- The run at the front is the front of the list, sorted. -/
theorem sorts_existingRun (items : List α) :
    Sorts compare (items.take (existingRun (isBefore compare) items).length)
      (existingRun (isBefore compare) items) := by
  unfold existingRun
  split
  · rename_i first second rest
    split
    · let down := leading (fun earlier later => isBefore compare later earlier)
        (first :: second :: rest)
      have descending (trans : TransCmp compare) :
          down.Pairwise fun earlier later => compare later earlier = .lt := by
        -- Every step goes strictly down, so none of the items that change places are equal.
        have steps : down.IsChain fun earlier later => compare later earlier = .lt :=
          (isChain_leading _ _).imp fun _ _ => of_decide_eq_true
        have : Trans (fun a b : α => compare b a = .lt) (fun a b => compare b a = .lt)
          fun a b => compare b a = .lt := ⟨fun ab bc => TransCmp.lt_trans bc ab⟩
        exact List.isChain_iff_pairwise.1 steps
      rw [List.length_reverse, ← List.prefix_iff_eq_take.1 (leading_initial _ _)]
      refine .of_keeps (.reverse_of_descending descending) (.of_ordered fun trans => ?_)
      exact List.pairwise_reverse.2 ((descending trans).imp Ordering.isLE_of_eq_lt)
    · let up := leading (fun earlier later => !isBefore compare later earlier)
        (first :: second :: rest)
      rw [← List.prefix_iff_eq_take.1 (leading_initial _ _)]
      refine .of_ordered fun trans => ?_
      have steps : up.IsChain fun earlier later => (compare earlier later).isLE = true :=
        (isChain_leading _ _).imp fun _ _ => isLE_of_not_isBefore
      have : Trans (fun a b : α => (compare a b).isLE = true) (fun a b => (compare a b).isLE = true)
        fun a b => (compare a b).isLE = true := ⟨TransCmp.isLE_trans⟩
      exact List.isChain_iff_pairwise.1 steps
  · rename_i short
    rw [List.take_length]
    refine .of_length ?_
    match items with
    | [] | [_] => simp
    | first :: second :: rest => exact absurd rfl (short first second rest)

/-! ## Cutting runs -/

/-- Whether a run stands for a stretch of a list. -/
structure Run.Of (compare : α → α → Ordering) (stretch : List α) (run : Run α) : Prop where
  sorted : run.isSorted = true → Sorts compare stretch run.items
  later : run.isSorted = false → run.items = stretch

/-- Whether runs stand for a whole list, one after the other. -/
inductive Runs (compare : α → α → Ordering) : List α → List (Run α) → Prop where
  | nil : Runs compare [] []
  | cons {stretch rest : List α} {run : Run α} {others : List (Run α)} :
      run.Of compare stretch → Runs compare rest others →
      Runs compare (stretch ++ rest) (run :: others)

variable {stretch before after rest : List α} {run left right : Run α}

theorem Run.Of.of_sorts {sorted : List α} (sorts : Sorts compare stretch sorted) :
    Run.Of compare stretch ⟨sorted, true⟩ :=
  ⟨fun _ => sorts, nofun⟩

theorem Run.Of.of_later : Run.Of compare stretch ⟨stretch, false⟩ := ⟨nofun, fun _ => rfl⟩

theorem Run.Of.perm (is : run.Of compare stretch) : run.items.Perm stretch := by
  cases state : run.isSorted with
  | true => exact (is.sorted state).perm
  | false => exact .of_eq (is.later state)

theorem length_existingRun_pos (isLess : α → α → Bool) {items : List α} (some : items ≠ []) :
    0 < (existingRun isLess items).length := by
  unfold existingRun
  split
  · rename_i first second rest
    have starts (follows : α → α → Bool) :
        0 < (leading follows (first :: second :: rest)).length := by
      rw [leading]
      split <;> simp
    split
    · rw [List.length_reverse]
      exact starts _
    · exact starts _
  · exact List.length_pos_of_ne_nil some

/-- What is cut off stands for the front of the list, and is not empty. -/
theorem settles_nextRun (atOnce : Bool) (enough : Nat) {items : List α} (some : items ≠ []) :
    Settles compare (nextRun (isBefore compare) atOnce enough items) fun run =>
      0 < run.items.length ∧ run.Of compare (items.take run.items.length) := by
  have length := List.length_pos_of_ne_nil some
  have found := length_existingRun_pos (isBefore compare) some
  unfold nextRun
  dsimp only
  split
  · exact .ok ⟨found, .of_sorts (sorts_existingRun items)⟩
  · split
    · -- A run that is too short is thrown away and a fixed length is sorted instead.
      refine (settles_sortHalves (items.take halvesLength)).map fun sorted sorts => ?_
      have size : sorted.length = min halvesLength items.length := by
        rw [sorts.perm.length_eq, List.length_take]
      have same : items.take sorted.length = items.take halvesLength := by
        rw [size, List.take_eq_take_iff]
        omega
      refine ⟨?_, same ▸ .of_sorts sorts⟩
      rw [size]
      exact Nat.lt_min.2 ⟨by decide, length⟩
    · rename_i few _
      refine .ok ⟨?_, ?_⟩
      · rw [List.length_take]
        omega
      · simp only [List.length_take]
        rw [← List.take_eq_take_min]
        exact .of_later

theorem settles_cutRuns (atOnce : Bool) (enough : Nat) (items : List α) :
    Settles compare (cutRuns (isBefore compare) atOnce enough items) (Runs compare items) := by
  cases items with
  | nil =>
    rw [cutRuns]
    exact .ok .nil
  | cons first rest =>
    rw [cutRuns]
    refine (settles_nextRun atOnce enough (List.cons_ne_nil first rest)).bind fun run cut => ?_
    obtain ⟨some, is⟩ := cut
    refine (settles_cutRuns atOnce enough (rest.drop (run.items.length - 1))).bind
      fun others cut => .ok ?_
    have whole := Runs.cons is cut
    obtain ⟨fewer, same⟩ := Nat.exists_eq_add_of_le' some
    rwa [same, List.take_succ_cons, Nat.add_sub_cancel, List.cons_append, List.take_append_drop]
      at whole
termination_by items.length
decreasing_by
  simp only [List.length_drop, List.length_cons]
  omega

/-! ## Joining runs -/

/-- Whether pending runs, the last one first, stand for a whole list. -/
inductive Pending (compare : α → α → Ordering) : List α → List (Run α × Nat) → Prop where
  | nil : Pending compare [] []
  | cons {before stretch : List α} {run : Run α} {joined : Nat} {others : List (Run α × Nat)} :
      run.Of compare stretch → Pending compare before others →
      Pending compare (before ++ stretch) ((run, joined) :: others)

section Joining

variable {finish : List α → Except Disorder (List α)}
  (finishes : ∀ items, Settles compare (finish items) (Sorts compare items))

include finishes

theorem settles_sorted (is : run.Of compare stretch) :
    Settles compare (run.sorted finish) (Sorts compare stretch) := by
  unfold Run.sorted
  split
  · exact .ok (is.sorted ‹_›)
  · rename_i unsorted
    rw [is.later (by simpa using unsorted)]
    exact finishes stretch

theorem settles_join {room : Nat} (is : left.Of compare before) (is' : right.Of compare after) :
    Settles compare (join (isBefore compare) finish room left right)
      (Run.Of compare (before ++ after)) := by
  unfold join
  split
  · refine (settles_sorted finishes is).bind fun sorted sorts => ?_
    exact (settles_sorted finishes is').bind fun sorted' sorts' => .ok (.of_sorts (sorts.merge sorts'))
  · rename_i unsorted
    simp only [Bool.or_eq_true, decide_eq_true_eq, not_or, Bool.not_eq_true] at unsorted
    rw [is.later unsorted.1.1, is'.later unsorted.1.2]
    exact .ok .of_later

/-- Whatever is joined, the runs go on to stand for the same list.  At depth 0 all are joined. -/
theorem settles_collapse {room depth : Nat} {pending : List (Run α × Nat)}
    (are : Pending compare before pending) (is : run.Of compare stretch) :
    Settles compare (collapse (isBefore compare) finish room depth pending run) fun left =>
      (∃ front back, front ++ back = before ++ stretch ∧ Pending compare front left.1 ∧
        left.2.Of compare back) ∧ (depth = 0 → left.1 = []) := by
  induction are generalizing run stretch with
  | nil => exact .ok ⟨⟨[], stretch, rfl, .nil, is⟩, fun _ => rfl⟩
  | cons was others ih =>
    rw [collapse]
    split
    · -- The last two stretches become one, and the runs before them stand for what they did.
      refine (settles_join finishes was is).bind fun whole joined => ?_
      rw [List.append_assoc]
      exact ih joined
    · rename_i deeper
      refine .ok ⟨⟨_, stretch, rfl, .cons was others, is⟩, fun zero => ?_⟩
      exact absurd (zero ▸ Nat.zero_le _) deeper

theorem settles_joinAll {total stop : Nat} {pending : List (Run α × Nat)} {others : List (Run α)}
    (are : Pending compare before pending) (is : run.Of compare stretch)
    (follow : Runs compare rest others) :
    Settles compare (joinAll (isBefore compare) finish total stop pending run others)
      (Run.Of compare (before ++ stretch ++ rest)) := by
  induction follow generalizing stop pending before stretch run with
  | nil =>
    rw [joinAll]
    refine (settles_collapse finishes are is).bind fun left joined => .ok ?_
    obtain ⟨⟨front, back, same, pending, whole⟩, all⟩ := joined
    rw [all rfl] at pending
    cases pending
    rwa [List.append_nil, ← same]
  | cons next _ ih =>
    rw [joinAll]
    refine (settles_collapse finishes are is).bind fun left joined => ?_
    obtain ⟨⟨front, back, same, pending, whole⟩, -⟩ := joined
    rw [← same, ← List.append_assoc]
    exact ih (.cons whole pending) next

theorem settles_sortRuns (atOnce : Bool) (items : List α) :
    Settles compare (sortRuns (isBefore compare) finish atOnce items) (Sorts compare items) := by
  refine (settles_cutRuns atOnce (enoughFor items.length) items).bind fun runs cut => ?_
  cases cut with
  | nil => exact .ok (.of_length (by simp))
  | cons is others =>
    refine (settles_joinAll finishes .nil is others).bind fun whole joined => ?_
    exact settles_sorted finishes joined

end Joining

theorem settles_sortAtOnce (items : List α) :
    Settles compare (sortAtOnce (isBefore compare) items) (Sorts compare items) :=
  settles_sortRuns settles_sortHalves true items

/-! ## Partitions -/

section Partitions

variable {items sorted sorted' : List α} {middle : α}

theorem partition_eq (test : α → Bool) (items : List α) :
    items.partition test = (items.filter test, items.filter (!test ·)) :=
  List.partition_eq_filter_filter

theorem Sorts.of_less
    (before : Sorts compare (items.filter (isBefore compare · middle)) sorted)
    (after : Sorts compare (items.filter (!isBefore compare · middle)) sorted') :
    Sorts compare items (sorted ++ sorted') := by
  have apart (trans : TransCmp compare) (x y : α) (less : isBefore compare x middle = true)
      (others : (!isBefore compare y middle) = true) : compare x y = .lt :=
    TransCmp.lt_of_lt_of_isLE (of_decide_eq_true less) (isLE_of_not_isBefore others)
  refine .of_keeps (.partition (isBefore compare · middle) fun trans x _ less y _ others => ?_)
    (.append before after fun trans x hx y hy => ?_)
  · exact apart trans x y less (by simpa using others)
  · exact Ordering.isLE_of_eq_lt <|
      apart trans x y (List.mem_filter.1 hx).2 (List.mem_filter.1 hy).2

/-- If no item is less than the pivot, the items that are not greater are equal to it. -/
theorem Sorts.of_equal
    (least : TransCmp compare → ∀ item ∈ items, compare item middle ≠ .lt)
    (after : Sorts compare (items.filter (!!isBefore compare middle ·)) sorted) :
    Sorts compare items (items.filter (!isBefore compare middle ·) ++ sorted) := by
  have apart (trans : TransCmp compare) (x y : α) (equal : (!isBefore compare middle x) = true)
      (greater : (!!isBefore compare middle y) = true) : compare x y = .lt :=
    TransCmp.lt_of_isLE_of_lt (isLE_of_not_isBefore equal)
      (of_decide_eq_true (by simpa using greater))
  have equal : Sorts compare (items.filter (!isBefore compare middle ·))
      (items.filter (!isBefore compare middle ·)) := by
    refine .of_ordered fun trans => List.pairwise_of_forall_mem_list fun x hx y hy => ?_
    have up : (compare x middle).isLE := isLE_of_not_isBefore (List.mem_filter.1 hx).2
    have down : (compare middle y).isLE :=
      isLE_of_not_isBefore (by simpa using least trans y (List.mem_filter.1 hy).1)
    exact TransCmp.isLE_trans up down
  refine .of_keeps (.partition (!isBefore compare middle ·) fun trans x _ equal y _ greater => ?_)
    (.append equal after fun trans x hx y hy => ?_)
  · exact apart trans x y equal (by simpa using greater)
  · exact Ordering.isLE_of_eq_lt <|
      apart trans x y (List.mem_filter.1 hx).2 (List.mem_filter.1 hy).2

/-- No item is less than a pivot that is not greater than the bound, or where nothing is less. -/
theorem ne_lt_middle [TransCmp compare] {bound : Option α} {item : α}
    (above : ∀ least ∈ bound, ∀ item ∈ items, compare item least ≠ .lt)
    (lowest : (bound.any (!isBefore compare · middle) ||
      (items.filter (isBefore compare · middle)).isEmpty) = true)
    (mem : item ∈ items) : compare item middle ≠ .lt := by
  rcases (Bool.or_eq_true _ _).mp lowest with within | none
  · cases bound with
    | none => cases within
    | some least =>
      have up : (compare least item).isLE :=
        isLE_of_not_isBefore (by simpa using above least rfl item mem)
      exact ne_lt_of_isLE (TransCmp.isLE_trans (isLE_of_not_isBefore within) up)
  · intro less
    have absent := List.filter_eq_nil_iff.1 (List.isEmpty_iff.1 none) item mem
    exact absent (decide_eq_true less)

/-- No item is less than the bound, here and within every part. -/
theorem settles_quicksort (partitions : Nat) (bound : Option α) (items : List α)
    (above : TransCmp compare → ∀ least ∈ bound, ∀ item ∈ items, compare item least ≠ .lt) :
    Settles compare (quicksort (isBefore compare) partitions bound items)
      (Sorts compare items) := by
  induction partitions generalizing bound items with
  | zero =>
    cases items with
    | nil => exact .ok (.of_length (by simp))
    | cons first rest =>
      rw [quicksort]
      split
      · exact settles_sortHalves _
      · exact settles_sortAtOnce _
  | succ partitions ih =>
    cases items with
    | nil => exact .ok (.of_length (by simp))
    | cons first rest =>
      rw [quicksort]
      -- From here on only the choice of the pivot needs that there is an item.
      generalize first :: rest = items at above ⊢
      simp only [partition_eq]
      split
      · exact settles_sortHalves items
      · generalize pivot (isBefore compare) first items.length items = middle
        split
        · rename_i lowest
          have least (trans : TransCmp compare) (item : α) (mem : item ∈ items) :
              compare item middle ≠ .lt := ne_lt_middle (above trans) lowest mem
          -- The items that are left are greater than the pivot, and nothing else is known of them.
          exact (ih none _ fun _ _ none => by cases none).bind fun after sorts =>
            .ok (sorts.of_equal least)
        · -- The lesser items keep the bound, and the pivot is one for the other items.
          have within (trans : TransCmp compare) (least : α) (is : least ∈ bound) (item : α)
              (mem : item ∈ items.filter (isBefore compare · middle)) : compare item least ≠ .lt :=
            above trans least is item (List.mem_of_mem_filter mem)
          have beyond (trans : TransCmp compare) (least : α) (is : least ∈ some middle) (item : α)
              (mem : item ∈ items.filter (!isBefore compare · middle)) :
              compare item least ≠ .lt := by
            obtain rfl := Option.mem_some.1 is
            simpa using (List.mem_filter.1 mem).2
          exact (ih bound _ within).bind fun before sorts =>
            (ih (some middle) _ beyond).bind fun after sorts' => .ok (sorts.of_less sorts')

end Partitions

/-! ## Sorting -/

theorem settles_sort (items : List α) :
    Settles compare (sort (isBefore compare) items) (Sorts compare items) := by
  unfold sort
  split
  · exact .ok (sorts_insertionSort items)
  · split
    · exact settles_sortAtOnce items
    · exact settles_sortRuns (fun items => settles_quicksort _ none items nofun) false items

/-! Only items of the list are compared, so it does not matter how others would be. -/

section ByComparison

variable {items sorted : List α}

/-- A comparison, of the items of a list. -/
abbrev within (compare : α → α → Ordering) (items : List α) (left right : {item // item ∈ items}) :
    Ordering :=
  compare left.1 right.1

theorem settles_sortBy (compare : α → α → Ordering) (items : List α) :
    Settles (within compare items) (sortBy compare items) fun sorted =>
      ∃ inner, Sorts (within compare items) items.attach inner ∧ inner.map Subtype.val = sorted :=
  (settles_sort items.attach).map fun inner sorts => ⟨inner, sorts, rfl⟩

theorem perm_of_sortBy (sorts : sortBy compare items = .ok sorted) : sorted.Perm items := by
  obtain ⟨inner, kept, rfl⟩ := (settles_sortBy compare items).result sorted sorts
  have perm := kept.perm.map Subtype.val
  rwa [List.attach_map_subtype_val] at perm

theorem exists_sortBy_of_short (compare : α → α → Ordering)
    (short : items.length ≤ insertionLength) : ∃ sorted, sortBy compare items = .ok sorted := by
  have short : items.attach.length ≤ insertionLength := by rwa [List.length_attach]
  exact ⟨_, by rw [sortBy, sort, if_pos short, Except.map]⟩

variable (ordered : TransCmp (within compare items))

include ordered

theorem exists_sortBy : ∃ sorted, sortBy compare items = .ok sorted :=
  (settles_sortBy compare items).ends ordered

theorem pairwise_of_sortBy (sorts : sortBy compare items = .ok sorted) :
    sorted.Pairwise fun earlier later => (compare earlier later).isLE := by
  obtain ⟨inner, kept, rfl⟩ := (settles_sortBy compare items).result sorted sorts
  exact List.pairwise_map.2 (kept.ordered ordered)

theorem filter_of_sortBy (sorts : sortBy compare items = .ok sorted) {one : α} (mem : one ∈ items) :
    sorted.filter (fun other => compare one other = .eq) =
      items.filter fun other => compare one other = .eq := by
  obtain ⟨inner, kept, rfl⟩ := (settles_sortBy compare items).result sorted sorts
  have stable := congrArg (List.map Subtype.val) (kept.stable ordered ⟨one, mem⟩)
  rw [List.filter_map]
  refine stable.trans ?_
  conv_rhs => rw [← List.attach_map_subtype_val items, List.filter_map]
  rfl

end ByComparison

end Sorting

end RelationExpansion
