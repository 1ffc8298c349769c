import RelationExpansion.Proofs.Expansion.AcceptedPaths
import RelationExpansion.Proofs.Outcome
import RelationExpansion.Store.Populate

/-! # Following relations through a store

A store can populate records of a kind exactly when it can follow every path that is asked for.
Since the paths above an accepted one are followed on the way, only the accepted ones count
(`checkPaths_ofDirectives_eq_ok_iff`).
-/

namespace RelationExpansion

namespace Store

/-- The kind of record that a path of relations leads to. -/
def follow? (store : Store) (kind : String) : List String → Option String
  | [] => some kind
  | relation :: rest =>
    (store.relation? kind relation).bind fun definition => store.follow? definition.target rest

variable {store : Store} {kind : String} {segments front : List String} {error : PopulateError}

theorem follow?_isSome_of_prefix (within : front <+: segments)
    (followed : (store.follow? kind segments).isSome = true) :
    (store.follow? kind front).isSome = true := by
  induction front generalizing kind segments with
  | nil => rfl
  | cons relation front ih =>
    obtain ⟨back, rfl⟩ := within
    rw [List.cons_append, follow?, Option.isSome_bind] at followed
    rw [follow?]
    cases defined : store.relation? kind relation with
    | none => simp [defined] at followed
    | some definition =>
      rw [defined] at followed
      exact ih (List.prefix_append front back) followed

theorem checkSegments_eq_ok_iff :
    store.checkSegments kind segments = .ok () ↔ (store.follow? kind segments).isSome = true := by
  induction segments generalizing kind with
  | nil => simp [checkSegments, follow?]
  | cons relation rest ih =>
    cases defined : store.relation? kind relation with
    | none => simp [checkSegments, follow?, defined]
    | some definition => simpa [checkSegments, follow?, defined] using ih

/-- A path is refused at the first relation that is not defined where the path comes to it. -/
theorem checkSegments_eq_error (refused : store.checkSegments kind segments = .error error) :
    ∃ front relation reached, front ++ [relation] <+: segments ∧
      store.follow? kind front = some reached ∧ store.relation? reached relation = none ∧
      error = .unknownRelation reached relation := by
  induction segments generalizing kind with
  | nil => cases refused
  | cons relation rest ih =>
    rw [checkSegments] at refused
    cases defined : store.relation? kind relation with
    | none =>
      rw [defined] at refused
      cases refused
      exact ⟨[], relation, kind, by simp, rfl, defined, rfl⟩
    | some definition =>
      rw [defined] at refused
      obtain ⟨front, last, reached, within, followed, undefined, rfl⟩ := ih refused
      refine ⟨relation :: front, last, reached, ?_, ?_, undefined, rfl⟩
      · rwa [List.cons_append, List.cons_prefix_cons, eq_self, true_and]
      · rwa [follow?, defined]

theorem checkPaths_eq_ok_iff {set : ExpansionSet} :
    store.checkPaths kind set = .ok () ↔
      ∀ path ∈ set.keys, (store.follow? kind path.segments).isSome = true := by
  rw [checkPaths, forM_eq_ok_iff]
  simp only [checkSegments_eq_ok_iff]

theorem checkPaths_ofDirectives_eq_ok_iff {view : View} {limits : Limits} {texts : List String} :
    store.checkPaths kind (ExpansionSet.ofDirectives view limits texts) = .ok () ↔
      ∀ text ∈ texts, ∀ directive, Directive.Accepts view text directive →
        (store.follow? kind directive.segments).isSome = true := by
  simp only [checkPaths_eq_ok_iff, ExpansionSet.mem_keys_ofDirectives_iff]
  constructor
  · intro followed text inside directive accepts
    rw [← accepts.segments_path]
    exact followed directive.path
      ⟨text, inside, directive, accepts, accepts.segments_path ▸ List.prefix_rfl⟩
  · rintro followed path ⟨text, inside, directive, accepts, within⟩
    exact follow?_isSome_of_prefix within (followed text inside directive accepts)

/-- The relation that is refused stands on an accepted path, and all before it are defined. -/
theorem checkPaths_ofDirectives_eq_error {view : View} {limits : Limits} {texts : List String}
    (refused : store.checkPaths kind (ExpansionSet.ofDirectives view limits texts) =
      .error error) :
    ∃ text ∈ texts, ∃ directive, Directive.Accepts view text directive ∧
      ∃ front relation reached, front ++ [relation] <+: directive.segments ∧
        store.follow? kind front = some reached ∧ store.relation? reached relation = none ∧
        error = .unknownRelation reached relation := by
  obtain ⟨path, mem, wrong⟩ := forM_eq_error refused
  obtain ⟨text, inside, directive, accepts, within⟩ := ExpansionSet.mem_keys_ofDirectives_iff.1 mem
  obtain ⟨front, relation, reached, here, followed, undefined, rfl⟩ := checkSegments_eq_error wrong
  exact ⟨text, inside, directive, accepts, front, relation, reached, here.trans within, followed,
    undefined, rfl⟩

/-- An empty set has no paths that could be refused. -/
theorem checkPaths_of_isEmpty {set : ExpansionSet} (nothing : set.isEmpty = true) :
    store.checkPaths kind set = .ok () := by
  have none : set.keys = [] := by
    simpa [OrderedMap.isEmpty, OrderedMap.keys, Assoc.keys] using nothing
  rw [checkPaths, none]
  rfl

/-! ## Refusing -/

/-- Populating is refused with the error of a path, before anything is attached. -/
theorem populate_failed_iff {roots : List Document} {set : ExpansionSet} :
    store.populate roots set = .error (.failed error) ↔ set.isEmpty = false ∧
      (roots.forM fun root => store.checkPaths root.kind set) = .error error := by
  rw [populate]
  split
  · rename_i nothing
    simp [nothing]
  · rename_i something
    rw [bind_eq_error_iff, mapError_eq_error_iff]
    constructor
    · rintro (⟨reason, refused, same⟩ | ⟨_, -, unsorted⟩)
      · cases same
        exact ⟨by simpa using something, refused⟩
      · obtain ⟨_, -, other⟩ := mapError_eq_error_iff.1 unsorted
        cases other
    · rintro ⟨-, refused⟩
      exact .inl ⟨error, refused, rfl⟩

theorem populate_singleton_failed_iff {root : Document} {set : ExpansionSet} :
    store.populate [root] set = .error (.failed error) ↔
      store.checkPaths root.kind set = .error error := by
  rw [populate_failed_iff, List.forM_eq_forM, List.forM_cons, List.forM_nil, bind_eq_error_iff]
  cases nothing : set.isEmpty with
  | true => simp [checkPaths_of_isEmpty nothing]
  | false => simp [pure, Except.pure]

end Store

end RelationExpansion
