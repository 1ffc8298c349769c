import RelationExpansion.Expansion.Directive
import RelationExpansion.Proofs.Expansion.Paths
import RelationExpansion.Proofs.Schema.Navigation

/-! # What a list of directives expands

`Directive.Accepts` says how a text is read and when its path counts.  The expansion set of a list
of texts holds the paths of the accepted directives and every path above one of them, and nothing
else (`mem_keys_ofDirectives_iff`).  A path that was asked for has the selection of the last
directive that asked for it; any other has the standard one.
-/

namespace RelationExpansion

namespace Directive

/-- The text is read as the directive, and the schema has the path that it asks for. -/
structure Accepts (view : View) (text : String) (directive : Directive) : Prop where
  reads : ∃ path modifiers, Text.pieces ':' text = path :: modifiers ∧
    directive = ⟨readSegments path, modifiers.filterMap Modifier.ofText?⟩
  named : "" ∉ directive.segments
  shallow : directive.segments.length ≤ view.depth
  declared : view.declares directive.segments = true

variable {view : View} {text : String} {texts before after : List String} {directive : Directive}

/-! ## Reading one text -/

theorem readSegments_ne_nil (path : String) : readSegments path ≠ [] := by
  simpa [readSegments] using Text.cutEvery_ne_nil '.' path.toList

theorem dotFree_readSegments (path : String) : DotFree (readSegments path) := by
  intro segment mem
  obtain ⟨part, inside, rfl⟩ := List.mem_map.1 mem
  intro dot
  rw [String.toList_ofList] at dot
  exact Text.not_mem_of_mem_cutEvery inside (Text.mem_of_mem_trim dot)

theorem ofText?_eq_some_iff :
    ofText? text = some directive ↔ "" ∉ directive.segments ∧
      ∃ path modifiers, Text.pieces ':' text = path :: modifiers ∧
        directive = ⟨readSegments path, modifiers.filterMap Modifier.ofText?⟩ := by
  unfold ofText?
  cases Text.pieces ':' text with
  | nil => simp
  | cons path modifiers =>
    by_cases blank : "" ∈ readSegments path
    · simp only [List.contains_iff_mem, blank, if_true, reduceCtorEq, false_iff]
      rintro ⟨named, _, _, split, rfl⟩
      cases split
      exact named blank
    · simp only [List.contains_iff_mem, blank, if_false, Option.some.injEq]
      constructor
      · rintro rfl
        exact ⟨blank, path, modifiers, rfl, rfl⟩
      · rintro ⟨-, _, _, split, rfl⟩
        cases split
        rfl

theorem accepts_iff :
    Accepts view text directive ↔
      ofText? text = some directive ∧ isAccepted view directive = true := by
  simp only [ofText?_eq_some_iff, isAccepted, Bool.and_eq_true, decide_eq_true_eq]
  constructor
  · rintro ⟨reads, named, shallow, declared⟩
    exact ⟨⟨named, reads⟩, shallow, declared⟩
  · rintro ⟨⟨named, reads⟩, shallow, declared⟩
    exact ⟨reads, named, shallow, declared⟩

theorem Accepts.segments_path (accepts : Accepts view text directive) :
    directive.path.segments = directive.segments := by
  obtain ⟨path, modifiers, -, rfl⟩ := accepts.reads
  exact Path.segments_ofSegments (readSegments_ne_nil path) (dotFree_readSegments path)

/-! ## Reading a list of texts -/

theorem mem_accepted_iff :
    directive ∈ accepted view texts ↔ ∃ text ∈ texts, Accepts view text directive := by
  simp only [accepted, List.mem_filter, List.mem_filterMap, accepts_iff]
  constructor
  · rintro ⟨⟨text, mem, reads⟩, passes⟩
    exact ⟨text, mem, reads, passes⟩
  · rintro ⟨text, mem, reads, passes⟩
    exact ⟨⟨text, mem, reads⟩, passes⟩

theorem accepted_append :
    accepted view (before ++ after) = accepted view before ++ accepted view after := by
  simp [accepted]

theorem accepted_cons (accepts : Accepts view text directive) :
    accepted view (text :: after) = directive :: accepted view after := by
  obtain ⟨reads, passes⟩ := accepts_iff.1 accepts
  simp [accepted, reads, passes]

theorem accepted_cons_of_not (rejected : ∀ directive, ¬ Accepts view text directive) :
    accepted view (text :: after) = accepted view after := by
  unfold accepted
  cases reads : ofText? text with
  | none => simp [reads]
  | some directive =>
    have fails : ¬ isAccepted view directive = true := fun passes =>
      rejected directive (accepts_iff.2 ⟨reads, passes⟩)
    simp [reads, fails]

end Directive

namespace ExpansionSet

open Directive

variable {view : View} {limits : Limits} {texts before after : List String} {text : String}
  {directive : Directive} {path : Path}

/-! ## Paths above those of a set -/

theorem get?_addAncestors (set : ExpansionSet) :
    (addAncestors limits set).get? path = (set.get? path).or
      (if ∃ key ∈ set.keys, path ∈ key.ancestors then some (Selection.standard limits)
        else none) := by
  rw [addAncestors, OrderedMap.get?_foldl_insertIfNew]
  simp only [List.mem_flatMap]

theorem mem_keys_addAncestors_iff {set : ExpansionSet} :
    path ∈ (addAncestors limits set).keys ↔ ∃ key ∈ set.keys, path.segments <+: key.segments := by
  have here : (set.get? path).isSome = true ↔ path ∈ set.keys := OrderedMap.contains_iff_mem_keys
  rw [← OrderedMap.contains_iff_mem_keys, OrderedMap.contains, get?_addAncestors, Option.isSome_or,
    Bool.or_eq_true, here]
  simp only [Path.mem_ancestors_iff, Option.isSome_ite]
  constructor
  · rintro (mem | ⟨key, mem, within, -⟩)
    · exact ⟨path, mem, List.prefix_rfl⟩
    · exact ⟨key, mem, within⟩
  · rintro ⟨key, mem, within⟩
    -- No key lies above itself, so a key counts in its own right.
    by_cases same : path = key
    · exact .inl (same ▸ mem)
    · exact .inr ⟨key, mem, within, same⟩

/-! ## The paths that are asked for -/

/-- The paths of directives, without those above them. -/
def asked (limits : Limits) (directives : List Directive) : ExpansionSet :=
  OrderedMap.ofList (directives.map fun directive =>
    (directive.path, Selection.ofModifiers limits directive.modifiers))

theorem mem_keys_asked_iff {directives : List Directive} :
    path ∈ (asked limits directives).keys ↔ ∃ directive ∈ directives, directive.path = path := by
  rw [asked, OrderedMap.mem_keys_ofList_iff]
  simp [Assoc.keys]

theorem get?_asked_last {earlier later : List Directive}
    (last : ∀ other ∈ later, other.path ≠ directive.path) :
    (asked limits (earlier ++ directive :: later)).get? directive.path =
      some (Selection.ofModifiers limits directive.modifiers) := by
  rw [asked, OrderedMap.get?_ofList_eq_some_iff, List.map_append, List.map_cons]
  refine ⟨_, _, rfl, fun again => ?_⟩
  simp only [Assoc.keys, List.map_map, List.mem_map, Function.comp_apply] at again
  obtain ⟨other, mem, same⟩ := again
  exact last other mem same

theorem ofDirectives_eq_addAncestors :
    ofDirectives view limits texts = addAncestors limits (asked limits (accepted view texts)) :=
  rfl

/-! ## The set of a list of texts -/

theorem mem_keys_ofDirectives_iff :
    path ∈ (ofDirectives view limits texts).keys ↔ ∃ text ∈ texts, ∃ directive,
      Accepts view text directive ∧ path.segments <+: directive.segments := by
  simp only [ofDirectives_eq_addAncestors, mem_keys_addAncestors_iff, mem_keys_asked_iff,
    mem_accepted_iff]
  constructor
  · rintro ⟨_, ⟨directive, ⟨text, mem, accepts⟩, rfl⟩, within⟩
    exact ⟨text, mem, directive, accepts, accepts.segments_path ▸ within⟩
  · rintro ⟨text, mem, directive, accepts, within⟩
    exact ⟨_, ⟨directive, ⟨text, mem, accepts⟩, rfl⟩, accepts.segments_path.symm ▸ within⟩

theorem get?_ofDirectives_last (accepts : Accepts view text directive)
    (last : ∀ later ∈ after, ∀ other, Accepts view later other → other.path ≠ directive.path) :
    (ofDirectives view limits (before ++ text :: after)).get? directive.path =
      some (Selection.ofModifiers limits directive.modifiers) := by
  have unmatched : ∀ other ∈ accepted view after, other.path ≠ directive.path := by
    intro other mem
    obtain ⟨later, inside, acceptsOther⟩ := mem_accepted_iff.1 mem
    exact last later inside other acceptsOther
  -- What lies above other paths is only added where nothing was asked for.
  rw [ofDirectives_eq_addAncestors, get?_addAncestors, accepted_append, accepted_cons accepts,
    get?_asked_last unmatched, Option.some_or]

theorem get?_ofDirectives_implied (mem : path ∈ (ofDirectives view limits texts).keys)
    (unasked : ∀ text ∈ texts, ∀ directive, Accepts view text directive → directive.path ≠ path) :
    (ofDirectives view limits texts).get? path = some (Selection.standard limits) := by
  have absent : (asked limits (accepted view texts)).get? path = none := by
    rw [OrderedMap.get?, Assoc.get?_eq_none_iff]
    intro known
    obtain ⟨directive, inside, same⟩ := mem_keys_asked_iff.1 known
    obtain ⟨text, inside, accepts⟩ := mem_accepted_iff.1 inside
    exact unasked text inside directive accepts same
  -- So the path is there because it lies above another one.
  have found := OrderedMap.contains_iff_mem_keys.2 mem
  rw [OrderedMap.contains, ofDirectives_eq_addAncestors, get?_addAncestors, absent,
    Option.none_or] at found
  rw [ofDirectives_eq_addAncestors, get?_addAncestors, absent, Option.none_or,
    if_pos (by simpa using found)]

/-- Every selection comes from a directive or is the standard one. -/
theorem get?_ofDirectives_cases {selection : Selection}
    (found : (ofDirectives view limits texts).get? path = some selection) :
    (∃ text ∈ texts, ∃ directive, Accepts view text directive ∧
      selection = Selection.ofModifiers limits directive.modifiers) ∨
    selection = Selection.standard limits := by
  rw [ofDirectives_eq_addAncestors, get?_addAncestors, Option.or_eq_some_iff] at found
  rcases found with own | ⟨-, implied⟩
  · obtain ⟨before, after, split, -⟩ := OrderedMap.get?_ofList_eq_some_iff.1 own
    have mem : (path, selection) ∈ (accepted view texts).map fun directive =>
        (directive.path, Selection.ofModifiers limits directive.modifiers) := by
      simp [split]
    obtain ⟨directive, inside, same⟩ := List.mem_map.1 mem
    obtain ⟨text, asked, accepts⟩ := mem_accepted_iff.1 inside
    cases same
    exact .inl ⟨text, asked, directive, accepts, rfl⟩
  · split at implied
    · exact .inr (Option.some.inj implied).symm
    · cases implied

theorem declares_of_mem_keys (mem : path ∈ (ofDirectives view limits texts).keys) :
    view.declares path.segments = true ∧ path.depth ≤ view.depth := by
  obtain ⟨text, -, directive, accepts, within⟩ := mem_keys_ofDirectives_iff.1 mem
  exact ⟨View.declares_of_prefix path.segments_ne_nil within accepts.declared,
    Nat.le_trans within.length_le accepts.shallow⟩

theorem mem_keys_of_prefix {above : Path} (mem : path ∈ (ofDirectives view limits texts).keys)
    (within : above.segments <+: path.segments) :
    above ∈ (ofDirectives view limits texts).keys := by
  obtain ⟨text, inside, directive, accepts, rest⟩ := mem_keys_ofDirectives_iff.1 mem
  exact mem_keys_ofDirectives_iff.2 ⟨text, inside, directive, accepts, within.trans rest⟩

theorem ofDirectives_drop (rejected : ∀ directive, ¬ Accepts view text directive) :
    ofDirectives view limits (before ++ text :: after) =
      ofDirectives view limits (before ++ after) := by
  simp only [ofDirectives_eq_addAncestors, accepted_append, accepted_cons_of_not rejected]

/-- The expansion set of any texts, under any schema and any limits. -/
theorem ofDirectives_exact (view : View) (limits : Limits) (texts : List String) :
    let set := ofDirectives view limits texts
    set.keys.Nodup ∧
    (∀ path, path ∈ set.keys ↔ ∃ text ∈ texts, ∃ directive, Accepts view text directive ∧
      ∃ front, front ≠ [] ∧ front <+: directive.segments ∧ path = Path.ofSegments front) ∧
    (∀ before text after directive, texts = before ++ text :: after →
      Accepts view text directive →
      (∀ later ∈ after, ∀ other, Accepts view later other → other.path ≠ directive.path) →
      set.get? directive.path = some (Selection.ofModifiers limits directive.modifiers)) ∧
    (∀ path ∈ set.keys,
      (∀ text ∈ texts, ∀ directive, Accepts view text directive → directive.path ≠ path) →
      set.get? path = some (Selection.standard limits)) ∧
    (∀ path ∈ set.keys, view.declares path.segments = true ∧ path.depth ≤ view.depth ∧
      ∀ above ∈ path.ancestors, above ∈ set.keys) ∧
    (∀ before text after, texts = before ++ text :: after →
      (∀ directive, ¬ Accepts view text directive) →
      set = ofDirectives view limits (before ++ after)) := by
  intro set
  refine ⟨set.distinct, fun path => ?keys, ?asked, fun path => get?_ofDirectives_implied,
    fun path mem => ?closed, ?dropped⟩
  case keys =>
    rw [mem_keys_ofDirectives_iff]
    constructor
    · rintro ⟨text, inside, directive, accepts, within⟩
      exact ⟨text, inside, directive, accepts, path.segments, path.segments_ne_nil, within,
        path.ofSegments_segments.symm⟩
    · rintro ⟨text, inside, directive, accepts, front, nonempty, within, rfl⟩
      refine ⟨text, inside, directive, accepts, ?_⟩
      have free : DotFree front := by
        have := directive.path.dotFree_segments
        rw [accepts.segments_path] at this
        exact this.of_prefix within
      rwa [Path.segments_ofSegments nonempty free]
  case asked =>
    rintro before text after directive rfl accepts last
    exact get?_ofDirectives_last accepts last
  case closed =>
    obtain ⟨declared, shallow⟩ := declares_of_mem_keys mem
    exact ⟨declared, shallow, fun above inside =>
      mem_keys_of_prefix mem (Path.mem_ancestors_iff.1 inside).1⟩
  case dropped =>
    rintro before text after rfl rejected
    exact ofDirectives_drop rejected

end ExpansionSet

end RelationExpansion
