import RelationExpansion.Expansion.Sort
import RelationExpansion.Json.Value
import RelationExpansion.Number.Count

/-! # Selecting one page of a collection

A `Selection` says which records of a collection are asked for: a filter, an order, how many records
to skip and how many to take.  `Limits` holds the page size that applies when none is asked for and
the largest one that is granted.
-/

namespace RelationExpansion

structure Limits where
  defaultLimit : Nat := 20
  maxLimit : Nat := 100
  deriving DecidableEq, Repr, Inhabited

namespace Limits

/-- The granted page size: at least one, and at most the largest unless that is zero. -/
def clamp (limits : Limits) (limit : Nat) : Nat := min (max limit 1) (max limits.maxLimit 1)

theorem one_le_clamp (limits : Limits) (limit : Nat) : 1 ≤ limits.clamp limit := by
  unfold clamp; omega

theorem clamp_le (limits : Limits) (limit : Nat) : limits.clamp limit ≤ max limits.maxLimit 1 :=
  Nat.min_le_right _ _

end Limits

structure Selection where
  limit : Nat
  skip : Nat := 0
  sort : Option SortSpec := none
  filter : Option Json := none
  deriving Inhabited

namespace Selection

/-- The first page of the default size, unfiltered and unsorted. -/
def standard (limits : Limits) : Selection := { limit := limits.clamp limits.defaultLimit }

def perPage (selection : Selection) : Nat := max selection.limit 1

/-- The number of the page, counted from one, on which the first record that is not skipped lies. -/
def page (selection : Selection) : Except Overflow Nat :=
  Count.add (selection.skip / selection.perPage) 1

end Selection

end RelationExpansion
