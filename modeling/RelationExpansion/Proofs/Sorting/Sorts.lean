import RelationExpansion.Proofs.Outcome
import RelationExpansion.Sorting.LongLists

/-! # What a sort does

Whatever the comparison, a sort loses and adds nothing.  By a total preorder it also keeps the order
of items that compare equal (`Keeps`) and gives an ordered list (`Sorts`), and it always gives one
(`Settles`).

Sorted lists are put together where nothing in one comes after anything in the other
(`Sorts.append`), and are merged from either end (`Sorts.merge`).
-/

namespace RelationExpansion

namespace Sorting

open Std (OrientedCmp TransCmp)

variable {α : Type u} {β γ : Type v} {compare : α → α → Ordering}

/-- What may become of a list: it has the same items, and those that compare equal stand in the same
order. -/
structure Keeps (compare : α → α → Ordering) (items others : List α) : Prop where
  perm : others.Perm items
  stable : TransCmp compare → ∀ one,
    others.filter (fun other => compare one other = .eq) =
      items.filter fun other => compare one other = .eq

/-- What a sort makes of a list. -/
structure Sorts (compare : α → α → Ordering) (items sorted : List α) : Prop extends
    Keeps compare items sorted where
  ordered : TransCmp compare →
    sorted.Pairwise fun earlier later => (compare earlier later).isLE

/-- Whether an outcome is right: a result has a property, and there is one if the comparison is a
total preorder. -/
structure Settles (compare : α → α → Ordering) (outcome : Except Disorder β) (holds : β → Prop) :
    Prop where
  result : ∀ value, outcome = .ok value → holds value
  ends : TransCmp compare → ∃ value, outcome = .ok value

namespace Settles

theorem ok {value : β} {holds : β → Prop} (holding : holds value) :
    Settles compare (.ok value) holds where
  result _ same := by
    cases same
    exact holding
  ends _ := ⟨value, rfl⟩

theorem bind {outcome : Except Disorder β} {next : β → Except Disorder γ} {first : β → Prop}
    {second : γ → Prop} (settles : Settles compare outcome first)
    (further : ∀ value, first value → Settles compare (next value) second) :
    Settles compare (outcome >>= next) second where
  result result succeeded := by
    obtain ⟨value, here, there⟩ := bind_eq_ok_iff.1 succeeded
    exact (further value (settles.result value here)).result result there
  ends ordered := by
    obtain ⟨value, here⟩ := settles.ends ordered
    obtain ⟨result, there⟩ := (further value (settles.result value here)).ends ordered
    exact ⟨result, bind_eq_ok_iff.2 ⟨value, here, there⟩⟩

theorem map {outcome : Except Disorder β} {f : β → γ} {first : β → Prop} {second : γ → Prop}
    (settles : Settles compare outcome first) (further : ∀ value, first value → second (f value)) :
    Settles compare (outcome.map f) second where
  result _ succeeded := by
    obtain ⟨value, here, rfl⟩ := map_eq_ok_iff.1 succeeded
    exact further value (settles.result value here)
  ends ordered := by
    obtain ⟨value, here⟩ := settles.ends ordered
    exact ⟨f value, map_eq_ok_iff.2 ⟨value, here, rfl⟩⟩

end Settles

variable {items others left right sorted sortedLeft sortedRight : List α}

/-! ## Keeping the order of equal items -/

namespace Keeps

protected theorem refl (items : List α) : Keeps compare items items :=
  ⟨.refl _, fun _ _ => rfl⟩

theorem symm (keeps : Keeps compare items others) : Keeps compare others items :=
  ⟨keeps.perm.symm, fun ordered one => (keeps.stable ordered one).symm⟩

theorem trans {further : List α} (first : Keeps compare items others)
    (second : Keeps compare others further) : Keeps compare items further where
  perm := second.perm.trans first.perm
  stable ordered one := (second.stable ordered one).trans (first.stable ordered one)

theorem append (before : Keeps compare left sortedLeft) (after : Keeps compare right sortedRight) :
    Keeps compare (left ++ right) (sortedLeft ++ sortedRight) where
  perm := before.perm.append after.perm
  stable ordered one := by
    rw [List.filter_append, List.filter_append, before.stable ordered, after.stable ordered]

theorem reverse (keeps : Keeps compare items others) :
    Keeps compare items.reverse others.reverse where
  perm := others.reverse_perm.trans (keeps.perm.trans items.reverse_perm.symm)
  stable trans one := by rw [List.filter_reverse, keeps.stable trans, List.filter_reverse]

/-- Lists change places if everything in one is less than everything in the other. -/
theorem swap
    (apart : TransCmp compare → ∀ x ∈ left, ∀ y ∈ right, compare x y = .lt) :
    Keeps compare (left ++ right) (right ++ left) where
  perm := List.perm_append_comm
  stable ordered one := by
    rw [List.filter_append, List.filter_append]
    by_cases none : left.filter (fun other => compare one other = .eq) = []
    · rw [none, List.nil_append, List.append_nil]
    · -- Nothing on the right is equal to what is equal to something on the left.
      obtain ⟨x, mem⟩ := List.exists_mem_of_ne_nil _ none
      obtain ⟨inside, same⟩ := List.mem_filter.1 mem
      have beyond : right.filter (fun other => compare one other = .eq) = [] := by
        refine List.filter_eq_nil_iff.2 fun y outside => ?_
        rw [TransCmp.congr_left (of_decide_eq_true same), apart ordered x inside y outside]
        exact nofun
      rw [beyond, List.nil_append, List.append_nil]

/-- A list is put together from the items that pass a test and the other ones, if those that pass
are less. -/
theorem partition (test : α → Bool)
    (apart : TransCmp compare → ∀ x ∈ items, test x = true → ∀ y ∈ items, test y = false →
      compare x y = .lt) :
    Keeps compare items (items.filter test ++ items.filter (!test ·)) := by
  induction items with
  | nil => exact .refl _
  | cons item rest ih =>
    have kept := (Keeps.refl [item]).append <| ih fun ordered x hx inside y hy =>
      apart ordered x (List.mem_cons_of_mem _ hx) inside y (List.mem_cons_of_mem _ hy)
    cases passes : test item with
    | true => simpa [passes] using kept
    | false =>
      -- The item goes past those that pass, which are all less.
      have past : Keeps compare ([item] ++ rest.filter test) (rest.filter test ++ [item]) := by
        refine .symm (.swap fun ordered x mem y only => ?_)
        obtain ⟨inside, passed⟩ := List.mem_filter.1 mem
        obtain rfl := List.mem_singleton.1 only
        exact apart ordered x (List.mem_cons_of_mem _ inside) passed y List.mem_cons_self passes
      have whole := kept.trans <| List.append_assoc [item] _ _ ▸
        past.append (.refl (rest.filter (!test ·)))
      simpa [passes] using whole

end Keeps

/-! ## Sorted lists -/

namespace Sorts

theorem of_ordered
    (ordered : TransCmp compare → items.Pairwise fun earlier later => (compare earlier later).isLE) :
    Sorts compare items items :=
  ⟨.refl items, ordered⟩

theorem of_length (short : items.length < 2) : Sorts compare items items := by
  refine of_ordered fun _ => ?_
  match items with
  | [] => exact .nil
  | [item] => exact List.pairwise_singleton _ item

theorem of_keeps (keeps : Keeps compare items others) (sorts : Sorts compare others sorted) :
    Sorts compare items sorted :=
  ⟨keeps.trans sorts.toKeeps, sorts.ordered⟩

theorem append (before : Sorts compare left sortedLeft) (after : Sorts compare right sortedRight)
    (along : TransCmp compare → ∀ x ∈ left, ∀ y ∈ right, (compare x y).isLE) :
    Sorts compare (left ++ right) (sortedLeft ++ sortedRight) where
  toKeeps := before.toKeeps.append after.toKeeps
  ordered trans := List.pairwise_append.2 ⟨before.ordered trans, after.ordered trans,
    fun x hx y hy => along trans x (before.perm.mem_iff.1 hx) y (after.perm.mem_iff.1 hy)⟩

/-- A list is sorted by sorting it backwards with the comparison turned round. -/
theorem reverse (sorts : Sorts (fun x y => compare y x) items.reverse sorted) :
    Sorts compare items sorted.reverse where
  perm := sorted.reverse_perm.trans (sorts.perm.trans items.reverse_perm)
  ordered trans := List.pairwise_reverse.2 (sorts.ordered TransCmp.opposite)
  stable trans one := by
    have kept := sorts.stable TransCmp.opposite one
    have comm (other : α) : compare other one = .eq ↔ compare one other = .eq :=
      OrientedCmp.eq_comm
    simp only [comm] at kept
    rw [List.filter_reverse, kept, List.filter_reverse, List.reverse_reverse]

theorem flip (sorts : Sorts compare items sorted) :
    Sorts (fun x y => compare y x) items.reverse sorted.reverse :=
  reverse (by simpa using sorts)

end Sorts

/-! ## Merging -/

theorem not_isBefore [OrientedCmp compare] (x y : α) :
    (!isBefore compare y x) = (compare x y).isLE := by
  have swap : compare y x = (compare x y).swap := OrientedCmp.eq_swap
  rw [isBefore, swap]
  cases compare x y <;> rfl

theorem isLE_of_not_isBefore [OrientedCmp compare] {x y : α}
    (upward : (!isBefore compare y x) = true) : (compare x y).isLE := by
  rwa [← not_isBefore]

theorem pairwise_merge [TransCmp compare]
    (ordered : left.Pairwise fun earlier later => (compare earlier later).isLE)
    (ordered' : right.Pairwise fun earlier later => (compare earlier later).isLE) :
    (left.merge right fun x y => !isBefore compare y x).Pairwise
      fun earlier later => (compare earlier later).isLE := by
  simp only [not_isBefore]
  refine List.pairwise_merge (fun _ _ _ => TransCmp.isLE_trans) (fun x y => ?_) _ _ ordered ordered'
  have swap : compare y x = (compare x y).swap := OrientedCmp.eq_swap
  rw [swap]
  cases compare x y <;> rfl

theorem keeps_merge
    (ordered : TransCmp compare →
      left.Pairwise fun earlier later => (compare earlier later).isLE) :
    Keeps compare (left ++ right) (left.merge right fun x y => !isBefore compare y x) := by
  induction left generalizing right with
  | nil => simpa using .refl right
  | cons x left ih =>
    induction right with
    | nil => simpa using .refl (x :: left)
    | cons y right ih' =>
      rw [List.cons_merge_cons]
      split
      · exact (Keeps.refl [x]).append (ih fun trans => (ordered trans).of_cons)
      · -- The item on the right goes before everything on the left.
        rename_i less
        have past : Keeps compare ((x :: left) ++ [y]) ([y] ++ (x :: left)) := by
          refine .symm (.swap fun trans y' only x' mem => ?_)
          obtain rfl := List.mem_singleton.1 only
          have below : compare y' x = .lt := by simpa using less
          rcases List.mem_cons.1 mem with rfl | inside
          · exact below
          · exact TransCmp.lt_of_lt_of_isLE below (List.rel_of_pairwise_cons (ordered trans) inside)
        have moved := past.append (.refl right)
        rw [List.append_assoc, List.append_assoc] at moved
        exact moved.trans ((Keeps.refl [y]).append ih')

theorem Sorts.merge_up (before : Sorts compare left sortedLeft)
    (after : Sorts compare right sortedRight) :
    Sorts compare (left ++ right)
      (sortedLeft.merge sortedRight fun x y => !isBefore compare y x) where
  toKeeps := (before.toKeeps.append after.toKeeps).trans (keeps_merge before.ordered)
  ordered trans := pairwise_merge (before.ordered trans) (after.ordered trans)

/-- Merging from the end is merging backwards with the comparison turned round. -/
theorem Sorts.merge (before : Sorts compare left sortedLeft)
    (after : Sorts compare right sortedRight) :
    Sorts compare (left ++ right) (merge (isBefore compare) sortedLeft sortedRight) := by
  unfold Sorting.merge
  split
  · exact before.merge_up after
  · refine Sorts.reverse ?_
    rw [List.reverse_append]
    exact after.flip.merge_up before.flip

end Sorting

end RelationExpansion
