import RelationExpansion.Expansion.Modifier

/-! # What a list of modifiers comes to

Each kind of modifier adjusts a part of the selection that no other kind touches, so every part can
be told from the modifiers of its own kind (`Selection.ofModifiers_eq`): the last page size, page
number and filter decide, and the sorts add up from left to right.
-/

namespace RelationExpansion

namespace Modifier

@[simp]
def page? : Modifier → Option Nat
  | .page number => some number
  | _ => none

@[simp]
def perPage? : Modifier → Option Nat
  | .perPage size => some size
  | _ => none

@[simp]
def sort? : Modifier → Option SortSpec
  | .sort spec => some spec
  | _ => none

@[simp]
def filter? : Modifier → Option Json
  | .filter value => some value
  | _ => none

/-- A page number that is read is a count. -/
theorem page_le_of_ofText? {text : String} {number : Nat}
    (read : ofText? text = some (.page number)) : number ≤ Count.largest := by
  unfold ofText? at read
  obtain ⟨⟨name, rest⟩, -, read⟩ := Option.bind_eq_some_iff.1 read
  obtain ⟨arguments, -, read⟩ := Option.bind_eq_some_iff.1 read
  unfold ofCall? at read
  split at read
  · obtain ⟨count, found, same⟩ := Option.map_eq_some_iff.1 read
    cases same
    have fits : count ≤ Count.largest := by simpa using (Option.filter_eq_some_iff.1 found).2
    exact Nat.max_le.2 ⟨fits, by decide⟩
  -- No other modifier is a page number.
  split at read
  · obtain ⟨count, -, same⟩ := Option.map_eq_some_iff.1 read
    cases same
  split at read
  · cases read
  split at read
  · obtain ⟨value, -, same⟩ := Option.map_eq_some_iff.1 read
    cases same
  · cases read

end Modifier

namespace Selection

variable {limits : Limits} {modifiers : List Modifier}

def addSort (sort : Option SortSpec) (spec : SortSpec) : Option SortSpec :=
  some ((sort.getD OrderedMap.empty).insertMany spec.entries)

theorem getLast?_map_cons_getD {α β : Type} (f : α → β) (first : α) (rest : List α)
    (standard : β) :
    ((first :: rest).getLast?.map f).getD standard = (rest.getLast?.map f).getD (f first) := by
  rw [List.getLast?_cons]
  cases rest.getLast? <;> rfl

theorem getLast?_cons_or {α : Type} (first : α) (rest : List α) (earlier : Option α) :
    (first :: rest).getLast?.or earlier = rest.getLast?.or (some first) := by
  rw [List.getLast?_cons]
  cases rest.getLast? <;> rfl

theorem foldl_adjust (start : Selection × Nat) :
    modifiers.foldl (adjust limits) start =
      ({ limit := ((modifiers.filterMap Modifier.perPage?).getLast?.map limits.clamp).getD
            start.1.limit
         skip := start.1.skip
         sort := (modifiers.filterMap Modifier.sort?).foldl addSort start.1.sort
         filter := (modifiers.filterMap Modifier.filter?).getLast?.or start.1.filter },
        ((modifiers.filterMap Modifier.page?).getLast?.map (max · 1)).getD start.2) := by
  induction modifiers generalizing start with
  | nil => rfl
  | cons modifier rest ih =>
    rw [List.foldl_cons, ih]
    -- The first modifier counts only where no later one of its kind does, or is added to.
    cases modifier with
    | page number =>
      have last := getLast?_map_cons_getD (max · 1) number (rest.filterMap Modifier.page?) start.2
      simpa [adjust, List.filterMap_cons] using last.symm
    | perPage size =>
      have last := getLast?_map_cons_getD limits.clamp size (rest.filterMap Modifier.perPage?)
        start.1.limit
      simpa [adjust, List.filterMap_cons] using last.symm
    | sort spec =>
      simp [adjust, addSort, List.filterMap_cons]
    | filter value =>
      have last := getLast?_cons_or value (rest.filterMap Modifier.filter?) start.1.filter
      simpa [adjust, List.filterMap_cons] using last.symm

theorem ofModifiers_eq :
    let limit := limits.clamp
      ((modifiers.filterMap Modifier.perPage?).getLast?.getD limits.defaultLimit)
    ofModifiers limits modifiers =
      { limit
        skip := Count.mulSaturating limit
          ((modifiers.filterMap Modifier.page?).getLast?.getD 1 - 1)
        sort := (modifiers.filterMap Modifier.sort?).foldl addSort none
        filter := (modifiers.filterMap Modifier.filter?).getLast? } := by
  have size : ((modifiers.filterMap Modifier.perPage?).getLast?.map limits.clamp).getD
      (standard limits).limit = limits.clamp
        ((modifiers.filterMap Modifier.perPage?).getLast?.getD limits.defaultLimit) := by
    cases (modifiers.filterMap Modifier.perPage?).getLast? <;> rfl
  have before : ((modifiers.filterMap Modifier.page?).getLast?.map (max · 1)).getD 1 - 1 =
      (modifiers.filterMap Modifier.page?).getLast?.getD 1 - 1 := by
    cases (modifiers.filterMap Modifier.page?).getLast? with
    | none => rfl
    | some number => simp only [Option.map_some, Option.getD_some]; omega
  simp only [ofModifiers, foldl_adjust, size, before]
  simp [standard]

/-! ## Page numbers -/

theorem one_le_limit_ofModifiers : 1 ≤ (ofModifiers limits modifiers).limit := by
  rw [ofModifiers_eq]
  exact limits.one_le_clamp _

theorem limit_ofModifiers_le : (ofModifiers limits modifiers).limit ≤ max limits.maxLimit 1 := by
  rw [ofModifiers_eq]
  exact limits.clamp_le _

/-- What is skipped is at most the pages before the one that was asked for, so the page that it
amounts to is no later one, and its number fits. -/
theorem page_ofModifiers (counts : ∀ number, .page number ∈ modifiers → number ≤ Count.largest) :
    ∃ page, (ofModifiers limits modifiers).page = .ok page := by
  let asked := (modifiers.filterMap Modifier.page?).getLast?.getD 1
  have fits : asked ≤ Count.largest := by
    cases last : (modifiers.filterMap Modifier.page?).getLast? with
    | none => simpa [asked, last] using (by decide : 1 ≤ Count.largest)
    | some number =>
      obtain ⟨modifier, mem, same⟩ := List.mem_filterMap.1 (List.mem_of_getLast? last)
      cases modifier with
      | page other =>
        cases same
        simpa [asked, last] using counts number mem
      | _ => cases same
  have positive : 1 ≤ (ofModifiers limits modifiers).limit := one_le_limit_ofModifiers
  have skipped : (ofModifiers limits modifiers).skip ≤
      (ofModifiers limits modifiers).limit * (asked - 1) := by
    rw [ofModifiers_eq]
    exact Nat.min_le_left _ _
  have before : (ofModifiers limits modifiers).skip / (ofModifiers limits modifiers).limit ≤
      asked - 1 := by
    exact Nat.div_le_of_le_mul skipped
  refine ⟨_, Count.add_eq_ok_iff.2 ⟨?_, rfl⟩⟩
  rw [perPage, Nat.max_eq_left positive]
  have one : 1 ≤ Count.largest := by decide
  omega

end Selection

end RelationExpansion
