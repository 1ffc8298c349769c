import Mathlib.Algebra.Ring.Nat
import RelationExpansion.Proofs.Expansion.Adjusting
import RelationExpansion.Proofs.Expansion.WrittenModifiers

/-! # The page that modifiers ask for

A page number stands for a number of items to skip, which stops at the largest count.  It stops only
where no item could lie, so whatever size and number are asked for, the items that are shown are
those of the page (`itemsBetween_eq`), and the number of the page is read back where it does not
stop.

Modifiers of different kinds do not meet, so it only matters in which order those of one kind come
(`Selection.ofModifiers_congr`).
-/

namespace RelationExpansion

/-! ## Positions in a list -/

section Positions

variable {α : Type u}

/-- The items at the positions from one position up to another, which is left out. -/
def itemsBetween (items : List α) (start stop : Nat) : List α :=
  (items.zipIdx.filter fun entry => start ≤ entry.2 ∧ entry.2 < stop).map Prod.fst

theorem filter_zipIdx_eq (items : List α) (start count offset : Nat) :
    ((items.zipIdx offset).filter fun entry =>
        offset + start ≤ entry.2 ∧ entry.2 < offset + start + count).map Prod.fst =
      (items.drop start).take count := by
  induction items generalizing start count offset with
  | nil => simp
  | cons item rest ih =>
    rw [List.zipIdx_cons]
    cases start with
    | succ start =>
      have shift : offset + (start + 1) = offset + 1 + start := by omega
      have before : ¬ offset + 1 + start ≤ offset := by omega
      rw [shift, List.filter_cons_of_neg (by simp [before]), ih, List.drop_succ_cons]
    | zero =>
      cases count with
      | zero => simp
      | succ count =>
        have later := ih 0 count (offset + 1)
        rw [List.drop_zero] at later
        rw [List.filter_cons_of_pos (by simp), List.map_cons, List.drop_zero, List.take_succ_cons,
          ← later]
        -- All others lie behind the first item, so it does not matter where the window starts.
        congr 2
        refine List.filter_congr fun entry mem => ?_
        have behind := List.le_snd_of_mem_zipIdx mem
        simp only [decide_eq_decide]
        omega

theorem itemsBetween_eq (items : List α) (start count : Nat) :
    itemsBetween items start (start + count) = (items.drop start).take count := by
  simpa [itemsBetween] using filter_zipIdx_eq items start count 0

theorem drop_min {items : List α} {bound : Nat} (short : items.length ≤ bound) (start : Nat) :
    items.drop (min start bound) = items.drop start := by
  rcases Nat.le_total start bound with within | beyond
  · rw [Nat.min_eq_left within]
  · rw [Nat.min_eq_right beyond, List.drop_of_length_le short,
      List.drop_of_length_le (Nat.le_trans short beyond)]

end Positions

/-! ## Modifiers of one kind -/

namespace Modifier

variable {left right : List Modifier}

/-- The same modifiers of each kind in the same order. -/
def AlikeByKind (left right : List Modifier) : Prop :=
  ∀ kind, left.filter (·.name = kind) = right.filter (·.name = kind)

theorem AlikeByKind.filterMap_eq {α : Type} (alike : AlikeByKind left right)
    (part : Modifier → Option α) (kind : String)
    (only : ∀ modifier value, part modifier = some value → modifier.name = kind) :
    left.filterMap part = right.filterMap part := by
  have ofKind : ∀ modifiers : List Modifier,
      (modifiers.filter (·.name = kind)).filterMap part = modifiers.filterMap part := by
    intro modifiers
    rw [List.filterMap_filter]
    congr 1
    funext modifier
    cases read : part modifier with
    | none => simp
    | some value => simp [only modifier value read]
  rw [← ofKind left, alike kind, ofKind right]

/-- Where no two modifiers are of one kind, any order will do. -/
theorem alikeByKind_of_perm (perm : left.Perm right) (distinct : (right.map name).Nodup) :
    AlikeByKind left right := by
  intro kind
  have same := perm.filter fun modifier => modifier.name = kind
  have apart : (right.filter (·.name = kind)).Pairwise fun one other => one.name ≠ other.name :=
    (List.pairwise_map.1 distinct).filter _
  have ofKind : ∀ modifier ∈ right.filter (·.name = kind), modifier.name = kind := by simp
  cases only : right.filter (·.name = kind) with
  | nil => exact (only ▸ same).eq_nil
  | cons first rest =>
    cases rest with
    | nil => exact List.perm_singleton.1 (only ▸ same)
    | cons second others =>
      rw [only] at apart ofKind
      have differ := (List.pairwise_cons.1 apart).1 second (by simp)
      rw [ofKind first (by simp), ofKind second (by simp)] at differ
      exact absurd rfl differ

/-- The page number that counts, which is at least one. -/
def askedPage (modifiers : List Modifier) : Nat :=
  max ((modifiers.filterMap page?).getLast?.getD 1) 1

/-- The page size that counts, before it is clamped. -/
def askedSize (limits : Limits) (modifiers : List Modifier) : Nat :=
  (modifiers.filterMap perPage?).getLast?.getD limits.defaultLimit

end Modifier

namespace Selection

open Modifier (AlikeByKind askedPage askedSize)

variable {limits : Limits} {modifiers left right : List Modifier}

/-- Modifiers of different kinds may be written in any order. -/
theorem ofModifiers_congr (alike : AlikeByKind left right) :
    ofModifiers limits left = ofModifiers limits right := by
  have pages := alike.filterMap_eq Modifier.page? "page" fun modifier value read => by
    cases modifier <;> cases read
    rfl
  have sizes := alike.filterMap_eq Modifier.perPage? "per_page" fun modifier value read => by
    cases modifier <;> cases read
    rfl
  have sorts := alike.filterMap_eq Modifier.sort? "sort" fun modifier value read => by
    cases modifier <;> cases read
    rfl
  have filters := alike.filterMap_eq Modifier.filter? "filter" fun modifier value read => by
    cases modifier <;> cases read
    rfl
  rw [ofModifiers_eq, ofModifiers_eq, pages, sizes, sorts, filters]

/-! ## The parts of a selection -/

/-- What limits and modifiers come to, with the page that is shown. -/
structure ComesFrom (limits : Limits) (modifiers : List Modifier) (selection : Selection) :
    Prop where
  limit : selection.limit = min (max (askedSize limits modifiers) 1) (max limits.maxLimit 1)
  skip : selection.skip = min (selection.limit * (askedPage modifiers - 1)) (2 ^ 64 - 1)
  filter : selection.filter = (modifiers.filterMap Modifier.filter?).getLast?
  sort : selection.sort.isSome = true ↔ ∃ spec, .sort spec ∈ modifiers
  page : ∃ number, selection.page = .ok number ∧
    (selection.limit * (askedPage modifiers - 1) < 2 ^ 64 → number = askedPage modifiers)
  window : ∀ {α : Type} (items : List α), items.length ≤ 2 ^ 64 - 1 →
    (items.drop selection.skip).take selection.limit =
      itemsBetween items (selection.limit * (askedPage modifiers - 1))
        (selection.limit * askedPage modifiers)

theorem one_le_askedPage (modifiers : List Modifier) : 1 ≤ askedPage modifiers :=
  Nat.le_max_right _ _

theorem skip_ofModifiers :
    (ofModifiers limits modifiers).skip =
      min ((ofModifiers limits modifiers).limit * (askedPage modifiers - 1)) (2 ^ 64 - 1) := by
  have page : askedPage modifiers - 1 =
      (modifiers.filterMap Modifier.page?).getLast?.getD 1 - 1 := by
    unfold askedPage
    omega
  rw [page, ofModifiers_eq]
  rfl

theorem isSome_foldl_addSort (specs : List SortSpec) (start : Option SortSpec) :
    (specs.foldl addSort start).isSome = true ↔ specs ≠ [] ∨ start.isSome = true := by
  induction specs generalizing start with
  | nil => simp
  | cons spec rest ih => simp [ih, addSort]

theorem mem_filterMap_sort?_iff {spec : SortSpec} :
    spec ∈ modifiers.filterMap Modifier.sort? ↔ .sort spec ∈ modifiers := by
  rw [List.mem_filterMap]
  constructor
  · rintro ⟨modifier, mem, read⟩
    cases modifier <;> cases read
    exact mem
  · intro mem
    exact ⟨.sort spec, mem, rfl⟩

theorem sort_ofModifiers_isSome_iff :
    (ofModifiers limits modifiers).sort.isSome = true ↔ ∃ spec, .sort spec ∈ modifiers := by
  simp only [ofModifiers_eq, isSome_foldl_addSort, Option.isSome_none, Bool.false_eq_true, or_false,
    ← mem_filterMap_sort?_iff]
  exact ⟨List.exists_mem_of_ne_nil _, fun ⟨_, mem⟩ => List.ne_nil_of_mem mem⟩

/-- What is skipped is the pages before the one that was asked for, unless it stops. -/
theorem page_ofModifiers_eq
    (counts : ∀ number, .page number ∈ modifiers → number ≤ Count.largest) :
    ∃ number, (ofModifiers limits modifiers).page = .ok number ∧
      ((ofModifiers limits modifiers).limit * (askedPage modifiers - 1) < 2 ^ 64 →
        number = askedPage modifiers) := by
  obtain ⟨number, paged⟩ : ∃ number, (ofModifiers limits modifiers).page = .ok number :=
    page_ofModifiers counts
  refine ⟨number, paged, fun fits => ?_⟩
  have positive : 1 ≤ (ofModifiers limits modifiers).limit := one_le_limit_ofModifiers
  have asked := one_le_askedPage modifiers
  obtain ⟨-, rfl⟩ := Count.add_eq_ok_iff.1 paged
  rw [perPage, Nat.max_eq_left positive, skip_ofModifiers, Nat.min_eq_left (by omega),
    Nat.mul_div_cancel_left _ positive]
  omega

theorem window_ofModifiers {α : Type} (items : List α) (short : items.length ≤ 2 ^ 64 - 1) :
    (items.drop (ofModifiers limits modifiers).skip).take (ofModifiers limits modifiers).limit =
      itemsBetween items ((ofModifiers limits modifiers).limit * (askedPage modifiers - 1))
        ((ofModifiers limits modifiers).limit * askedPage modifiers) := by
  have stop : (ofModifiers limits modifiers).limit * askedPage modifiers =
      (ofModifiers limits modifiers).limit * (askedPage modifiers - 1) +
        (ofModifiers limits modifiers).limit := by
    rw [← Nat.mul_succ, Nat.succ_eq_add_one, Nat.sub_add_cancel (one_le_askedPage modifiers)]
  rw [stop, itemsBetween_eq, skip_ofModifiers, drop_min short]

/-- What any modifiers come to, and which orders of them come to the same. -/
theorem comesFrom_ofModifiers (limits : Limits) (modifiers : List Modifier)
    (counts : ∀ number, .page number ∈ modifiers → number ≤ Count.largest) :
    (ofModifiers limits modifiers).ComesFrom limits modifiers ∧
      ∀ reordered, AlikeByKind reordered modifiers →
        ofModifiers limits reordered = ofModifiers limits modifiers := by
  refine ⟨⟨?limit, skip_ofModifiers, ?filter, sort_ofModifiers_isSome_iff,
    page_ofModifiers_eq counts, window_ofModifiers⟩, fun reordered alike => ofModifiers_congr alike⟩
  case limit => rw [ofModifiers_eq]; rfl
  case filter => rw [ofModifiers_eq]

/-- The third page of a size of which two pages are more than all counts. -/
theorem comesFrom_ofModifiers_beyond :
    let limits : Limits := { maxLimit := 18446744073709551615 }
    let byName := SortSpec.ofText "name|desc"
    let modifiers : List Modifier :=
      [.page 2, .perPage 5, .sort byName, .page 3, .perPage 9223372036854775808]
    let reordered : List Modifier :=
      [.perPage 5, .sort byName, .perPage 9223372036854775808, .page 2, .page 3]
    (∀ number, .page number ∈ modifiers → number ≤ Count.largest) ∧
      AlikeByKind reordered modifiers ∧
      (ofModifiers limits modifiers).ComesFrom limits modifiers ∧
      ofModifiers limits reordered = ofModifiers limits modifiers ∧
      (ofModifiers limits modifiers).skip = 18446744073709551615 ∧
      (ofModifiers limits modifiers).page = .ok 2 := by
  intro limits byName modifiers reordered
  have counts : ∀ number, .page number ∈ modifiers → number ≤ Count.largest := by
    simp [modifiers, Count.largest]
  have alike : AlikeByKind reordered modifiers := by
    intro kind
    by_cases paged : "page" = kind
    · subst paged
      rfl
    · by_cases sized : "per_page" = kind
      · subst sized
        rfl
      · simp [reordered, modifiers, Modifier.name, List.filter_cons, paged, sized]
  obtain ⟨comes, same⟩ := comesFrom_ofModifiers limits modifiers counts
  exact ⟨counts, alike, comes, same reordered alike, by decide, by decide⟩

end Selection

end RelationExpansion
