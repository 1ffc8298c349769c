import RelationExpansion.Sorting.ShortLists

/-! # Sorting long lists

A list that is not short is cut into runs.  A run that is there already is taken as it is; otherwise
a stretch of the list is sorted at once, or is left for later if the list is long.  Runs are merged
two by two, in the order of a nearly balanced tree, and stretches that are not sorted yet are only
put together as long as there is room.  What is left in the end is sorted by partitions.

The result is stable.  Where the comparison is no total preorder, the order of the result means
nothing, or there is no result.
-/

namespace RelationExpansion

namespace Sorting

/-- Up to this length a list is sorted by insertion. -/
def insertionLength : Nat := 20

/-- Up to this length a list is sorted in two halves. -/
def halvesLength : Nat := 32

/-- The number of items that there is always room for when stretches are put together. -/
def ampleRoom : Nat := 333333

variable {α : Type u} (isLess : α → α → Bool)

/-- Merges two sorted lists, beginning at the end where the shorter one is used up first. -/
def merge (left right : List α) : List α :=
  if left.length ≤ right.length then left.merge right fun x y => !isLess y x
  else (right.reverse.merge left.reverse fun x y => !isLess x y).reverse

/-! ## Runs -/

/-- A stretch of a list, which may be sorted already. -/
structure Run (α : Type u) where
  items : List α
  isSorted : Bool

/-- The items at the front each of which follows on the one before it. -/
def leading (follows : α → α → Bool) : List α → List α
  | first :: second :: rest =>
    if follows first second then first :: leading follows (second :: rest) else [first]
  | items => items

/-- The sorted run at the front of a list; a run that goes down is turned round. -/
def existingRun : List α → List α
  | first :: second :: rest =>
    if isLess second first then
      (leading (fun earlier later => isLess later earlier) (first :: second :: rest)).reverse
    else leading (fun earlier later => !isLess later earlier) (first :: second :: rest)
  | items => items

/-- The run that is cut off the front of a list. -/
def nextRun (atOnce : Bool) (enough : Nat) (items : List α) : Except Disorder (Run α) :=
  let found := existingRun isLess items
  if enough ≤ found.length then .ok ⟨found, true⟩
  else if atOnce then (sortHalves isLess (items.take halvesLength)).map (⟨·, true⟩)
  else .ok ⟨items.take enough, false⟩

def cutRuns (atOnce : Bool) (enough : Nat) : List α → Except Disorder (List (Run α))
  | [] => .ok []
  | first :: rest => do
    let run ← nextRun isLess atOnce enough (first :: rest)
    let others ← cutRuns atOnce enough (rest.drop (run.items.length - 1))
    pure (run :: others)
termination_by items => items.length
decreasing_by
  simp only [List.length_drop, List.length_cons]
  omega

/-- The length from which on a run that is there is long enough. -/
def enoughFor (total : Nat) : Nat :=
  if total ≤ 64 * 64 then min (total - total / 2) 64
  else
    -- Close to the square root.
    let shift := (1 + total.log2) / 2
    (Nat.pow 2 shift + total / Nat.pow 2 shift) / 2

/-- How deep in the tree the run from `start` to `middle` is merged with the one from there to
`stop`: the number of binary digits that the places of their middles have in common. -/
def mergeDepth (total start middle stop : Nat) : Nat :=
  let scale := (Nat.pow 2 62 + total - 1) / total
  63 - (scale * (start + middle) ^^^ scale * (middle + stop)).log2

/-- The number of items that there is room for when a list of the given length is sorted. -/
def roomFor (total : Nat) : Nat := max (total - total / 2) (min total ampleRoom)

section Runs

variable (finish : List α → Except Disorder (List α))

def Run.sorted (run : Run α) : Except Disorder (List α) :=
  if run.isSorted then .ok run.items else finish run.items

/-- Merges two neighbours, or puts them together if neither is sorted and there is room. -/
def join (room : Nat) (left right : Run α) : Except Disorder (Run α) :=
  if left.isSorted || right.isSorted || room < left.items.length + right.items.length then do
    let before ← left.sorted finish
    let after ← right.sorted finish
    pure ⟨merge isLess before after, true⟩
  else .ok ⟨left.items ++ right.items, false⟩

/-- Joins a run with those before it that are to be merged at a certain depth or deeper.  The runs
before it come last one first, each with the depth at which it is merged with its successor. -/
def collapse (room depth : Nat) :
    List (Run α × Nat) → Run α → Except Disorder (List (Run α × Nat) × Run α)
  | [], run => .ok ([], run)
  | (left, joined) :: before, run =>
    if depth ≤ joined then do
      let whole ← join isLess finish room left run
      collapse room depth before whole
    else .ok ((left, joined) :: before, run)

/-- Joins all runs, those that are pending and the ones that follow on the last, which ends at
`stop`. -/
def joinAll (total : Nat) :
    Nat → List (Run α × Nat) → Run α → List (Run α) → Except Disorder (Run α)
  | _, pending, last, [] => do
    let (_, whole) ← collapse isLess finish (roomFor total) 0 pending last
    pure whole
  | stop, pending, last, next :: others => do
    let depth := mergeDepth total (stop - last.items.length) stop (stop + next.items.length)
    let (pending, whole) ← collapse isLess finish (roomFor total) depth pending last
    joinAll total (stop + next.items.length) ((whole, depth) :: pending) next others

def sortRuns (atOnce : Bool) (items : List α) : Except Disorder (List α) := do
  match ← cutRuns isLess atOnce (enoughFor items.length) items with
  | [] => pure []
  | first :: others => do
    let whole ← joinAll isLess finish items.length first.items.length [] first others
    whole.sorted finish

end Runs

/-- Sorts a list by runs none of which is left for later. -/
def sortAtOnce (items : List α) : Except Disorder (List α) :=
  sortRuns isLess (sortHalves isLess) true items

/-! ## Partitions -/

def median (a b c : α) : α :=
  let above := isLess a b
  if isLess a c = above then if isLess b c = above then b else c else a

/-- The median of three items, each of them found likewise within an eighth of a stretch if the
stretch is long enough. -/
def pivot (otherwise : α) (count : Nat) (items : List α) : α :=
  if count < 8 then items.headD otherwise
  else
    let eighth := count / 8
    median isLess (pivot otherwise eighth items) (pivot otherwise eighth (items.drop (4 * eighth)))
      (pivot otherwise eighth (items.drop (7 * eighth)))
termination_by count
decreasing_by all_goals omega

/-- Sorts a list by partitions, so many of them within each other.  None of the items is less than
the bound.  Where the pivot is not greater than the bound, or is the least item, the items equal to
it are put first. -/
def quicksort : Nat → Option α → List α → Except Disorder (List α)
  | _, _, [] => .ok []
  | partitions, bound, first :: rest =>
    let items := first :: rest
    if items.length ≤ halvesLength then sortHalves isLess items
    else
      match partitions with
      | 0 => sortAtOnce isLess items
      | partitions + 1 =>
        let middle := pivot isLess first items.length items
        let (less, others) := items.partition (isLess · middle)
        if bound.any (!isLess · middle) || less.isEmpty then do
          let (equal, greater) := items.partition (!isLess middle ·)
          let after ← quicksort partitions none greater
          pure (equal ++ after)
        else do
          let before ← quicksort partitions bound less
          let after ← quicksort partitions (some middle) others
          pure (before ++ after)

/-! ## Sorting -/

def sort (items : List α) : Except Disorder (List α) :=
  if items.length ≤ insertionLength then .ok (insertionSort isLess items)
  else if items.length ≤ 2 * halvesLength then sortAtOnce isLess items
  else
    sortRuns isLess (fun items => quicksort isLess (2 * items.length.log2) none items) false items

abbrev isBefore (compare : α → α → Ordering) (left right : α) : Bool := compare left right = .lt

/-- Sorts a list by a comparison.  Only items of the list are compared. -/
def sortBy (compare : α → α → Ordering) (items : List α) : Except Disorder (List α) :=
  (sort (isBefore fun left right : {item // item ∈ items} => compare left.1 right.1)
    items.attach).map (·.map Subtype.val)

end Sorting

end RelationExpansion
