/-! # Sorting short lists

A short list is sorted by insertion.  A longer one is cut into two halves, which are sorted by
insertion and then merged from both ends at once, half of the items from either end.

If the comparison is an order, the two ends meet.  If it is none, they may overlap.  That is noticed,
and then there is no result.
-/

namespace RelationExpansion

/-- Why a sort breaks off. -/
inductive Disorder where
  | inconsistentComparison
  deriving DecidableEq, Repr, Inhabited

namespace Sorting

variable {α : Type u} (isLess : α → α → Bool)

/-! ## Insertion -/

/-- Puts an item into a list that is kept with its greatest item first, before the first item that
is not greater. -/
def insertDescending (item : α) : List α → List α
  | [] => [item]
  | first :: rest =>
    if isLess item first then first :: insertDescending item rest else item :: first :: rest

/-- Puts items into a sorted list, one after the other. -/
def insertAll (sorted items : List α) : List α :=
  (items.foldl (fun descending item => insertDescending isLess item descending)
    sorted.reverse).reverse

def insertionSort (items : List α) : List α := insertAll isLess [] items

/-- Sorts two items. -/
def sortPair (first second : α) : α × α :=
  if isLess second first then (second, first) else (first, second)

/-- Merges two sorted pairs: finds the least and the greatest item, and then sorts the other two. -/
def mergePairs (a b c d : α) : List α :=
  let least := if isLess c a then c else a
  let greatest := if isLess d b then b else d
  let left := if isLess c a then a else if isLess d b then c else b
  let right := if isLess d b then d else if isLess c a then b else c
  let (low, high) := sortPair isLess left right
  [least, low, high, greatest]

def sortFour (first second third fourth : α) : List α :=
  let (a, b) := sortPair isLess first second
  let (c, d) := sortPair isLess third fourth
  mergePairs isLess a b c d

/-- Sorts half of a list, perhaps beginning with four items at once. -/
def sortHalf (four : Bool) : List α → List α
  | first :: second :: third :: fourth :: rest =>
    if four then insertAll isLess (sortFour isLess first second third fourth) rest
    else insertionSort isLess (first :: second :: third :: fourth :: rest)
  | items => insertionSort isLess items

/-! ## Merging from both ends -/

/-- Items that were taken off the fronts of two lists, and how many of them each list gave. -/
structure Taken (α : Type u) where
  items : List α
  fromLeft : Nat
  fromRight : Nat

/-- Takes so many items off two lists, always the lesser one of the first items, and the one of the
left list if neither is less. -/
def takeFirst : Nat → List α → List α → Taken α
  | count + 1, x :: left, y :: right =>
    if isLess y x then
      let later := takeFirst count (x :: left) right
      ⟨y :: later.items, later.fromLeft, later.fromRight + 1⟩
    else
      let later := takeFirst count left (y :: right)
      ⟨x :: later.items, later.fromLeft + 1, later.fromRight⟩
  | _, _, _ => ⟨[], 0, 0⟩

/-- Merges two halves, as many items from either end as the left half has.  From its end, a list is
read backwards and compared the other way round.  One item is left over in the middle if the right
half is longer. -/
def mergeEnds (left right : List α) : Except Disorder (List α) :=
  let front := takeFirst isLess left.length left right
  let back := takeFirst (fun x y => isLess y x) left.length right.reverse left.reverse
  let leftEnd := left.length - back.fromRight
  let rightEnd := right.length - back.fromLeft
  if front.fromLeft ≤ leftEnd ∧ front.fromRight ≤ rightEnd then
    .ok (front.items ++ ((left.take leftEnd).drop front.fromLeft ++
      (right.take rightEnd).drop front.fromRight) ++ back.items.reverse)
  else .error .inconsistentComparison

/-- Sorts a list in two halves. -/
def sortHalves (items : List α) : Except Disorder (List α) :=
  let half := items.length / 2
  let four : Bool := 8 ≤ items.length
  if items.length < 2 then .ok items
  else
    mergeEnds isLess (sortHalf isLess four (items.take half))
      (sortHalf isLess four (items.drop half))

end Sorting

end RelationExpansion
