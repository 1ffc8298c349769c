import RelationExpansion.Proofs.Expansion.AcceptedPaths
import RelationExpansion.Proofs.Expansion.Adjusting
import RelationExpansion.Proofs.Expansion.WrittenModifiers
import RelationExpansion.Proofs.Json.ReadingBack
import RelationExpansion.Proofs.Schema.DeclaredNames

/-! # Writing directives

A written directive is a path with any of the four modifiers in any order.  The text of a list of
them is scanned at its commas, each part at its colons, and the arguments of a sort at its commas
again.  Every scan cuts exactly where the text was put together, so the list is read back as it was
written, and the expansion set holds what was asked for and what lies above it.
-/

namespace RelationExpansion

open Text (Crosses Scan IsSolid isWordChar)

/-! ## Paths -/

namespace IsPlainPath

variable {segments : List String}

theorem text (plain : IsPlainPath segments) :
    IsSolid (Path.ofSegments segments).text.toList ∧
      ∀ c ∈ (Path.ofSegments segments).text.toList, isWordChar c = true := by
  simp only [Path.ofSegments, String.toList_ofList]
  constructor
  · exact IsSolid.joinWith (by simpa using plain.nonempty)
      (List.forall_mem_map.2 plain.isSolid_segment)
  · intro c mem
    rcases Text.mem_joinWith mem with rfl | ⟨part, inside, mem⟩
    · rfl
    · obtain ⟨segment, known, rfl⟩ := List.mem_map.1 inside
      exact ((isWordChar_of_isPlainIdentifier (plain.plain segment known)).2 c mem).1

theorem readSegments (plain : IsPlainPath segments) :
    Directive.readSegments (Path.ofSegments segments).text = segments := by
  have free : ∀ part ∈ segments.map String.toList, '.' ∉ part :=
    List.forall_mem_map.2 plain.dotFree
  have trimmed : ∀ segment ∈ segments, Text.trim segment.toList = segment.toList :=
    fun segment mem => (plain.isSolid_segment segment mem).trim
  rw [Directive.readSegments, Path.ofSegments, String.toList_ofList,
    Text.cutEvery_joinWith (by simpa using plain.nonempty) free, List.map_map]
  refine (List.map_congr_left fun segment mem => ?_).trans (List.map_id segments)
  simp [trimmed segment mem]

end IsPlainPath

/-! ## Written directives -/

/-- The modifiers that are there, each of its own kind. -/
def optionalModifiers (perPage page : Option Nat) (sort : Option SortSpec)
    (filter : Option Json) : List Modifier :=
  (perPage.map Modifier.perPage).toList ++ (page.map Modifier.page).toList ++
    (sort.map Modifier.sort).toList ++ (filter.map Modifier.filter).toList

structure WrittenDirective where
  segments : List String
  perPage : Option Nat := none
  page : Option Nat := none
  sort : Option SortSpec := none
  filter : Option Json := none
  modifiers : List Modifier := optionalModifiers perPage page sort filter
  arranged : modifiers.Perm (optionalModifiers perPage page sort filter) := by rfl

namespace WrittenDirective

def path (written : WrittenDirective) : Path := Path.ofSegments written.segments

def chars (written : WrittenDirective) : List Char :=
  Text.joinWith ':' (written.path.text.toList :: written.modifiers.map Modifier.chars)

def text (written : WrittenDirective) : String := String.ofList written.chars

/-- The value of an include parameter that lists the directives. -/
def listText (list : List WrittenDirective) : String :=
  String.ofList (Text.joinWith ',' (list.map chars))

/-- What the directive asks for. -/
def selection (limits : Limits) (written : WrittenDirective) : Selection :=
  let limit := limits.clamp (written.perPage.getD limits.defaultLimit)
  { limit
    skip := Count.mulSaturating limit (written.page.getD 1 - 1)
    sort := written.sort
    filter := written.filter }

/-- Whether a schema has the path, and the modifiers can be written. -/
structure IsWritable (view : View) (written : WrittenDirective) : Prop where
  declared : view.declares written.segments = true
  shallow : written.segments.length ≤ view.depth
  modifiers : ∀ modifier ∈ written.modifiers, modifier.IsWritable

/-- The directive that is read from what was written. -/
def directive (written : WrittenDirective) : Directive :=
  ⟨written.segments, written.modifiers.map Modifier.asRead⟩

variable {limits : Limits} {view : View} {written : WrittenDirective}

/-! ## The selection of a written directive -/

theorem eq_toList_of_perm {α : Type} {list : List α} {value : Option α}
    (perm : list.Perm value.toList) : list = value.toList := by
  cases value with
  | none => exact perm.eq_nil
  | some value => exact List.perm_singleton.1 perm

theorem filterMap_optionalModifiers (perPage page : Option Nat) (sort : Option SortSpec)
    (filter : Option Json) :
    let listed := optionalModifiers perPage page sort filter
    listed.filterMap Modifier.perPage? = perPage.toList ∧
    listed.filterMap Modifier.page? = page.toList ∧
    listed.filterMap Modifier.sort? = sort.toList ∧
    listed.filterMap Modifier.filter? = filter.toList := by
  cases perPage <;> cases page <;> cases sort <;> cases filter <;> exact ⟨rfl, rfl, rfl, rfl⟩

/-- There is at most one modifier of a kind, so the order of the modifiers does not matter. -/
theorem filterMap_modifiers {α : Type} {part : Modifier → Option α} {value : Option α}
    (only : (optionalModifiers written.perPage written.page written.sort
      written.filter).filterMap part = value.toList) :
    written.modifiers.filterMap part = value.toList :=
  eq_toList_of_perm (only ▸ written.arranged.filterMap part)

theorem ofModifiers_modifiers (limits : Limits) (written : WrittenDirective) :
    Selection.ofModifiers limits written.modifiers = written.selection limits := by
  obtain ⟨perPage, page, sort, filter⟩ := filterMap_optionalModifiers written.perPage written.page
    written.sort written.filter
  have last : ∀ {α : Type} (value : Option α), value.toList.getLast? = value := by
    intro α value
    cases value <;> rfl
  have sorted : written.sort.toList.foldl Selection.addSort none = written.sort := by
    cases written.sort with
    | none => rfl
    | some spec => exact congrArg some (OrderedMap.ofList_entries spec)
  rw [Selection.ofModifiers_eq, filterMap_modifiers perPage, filterMap_modifiers page,
    filterMap_modifiers sort, filterMap_modifiers filter, last, last, last, sorted]
  rfl

theorem ofModifiers_asRead (limits : Limits) (modifiers : List Modifier) :
    Selection.ofModifiers limits (modifiers.map Modifier.asRead) =
      Selection.ofModifiers limits modifiers := by
  have step : ∀ current modifier, Selection.adjust limits current (Modifier.asRead modifier) =
      Selection.adjust limits current modifier := by
    intro current modifier
    cases modifier <;> simp [Modifier.asRead, Selection.adjust]
  simp only [Selection.ofModifiers, List.foldl_map, step]

/-! ## Reading one directive -/

/-- A directive of which the path can be read back as well. -/
structure IsReadable (view : View) (written : WrittenDirective) : Prop
    extends IsWritable view written where
  plain : IsPlainPath written.segments

theorem IsReadable.crosses_chars {separator : Char} (readable : written.IsReadable view)
    (other : isWordChar separator = false) (apart : ':' ≠ separator) :
    Crosses separator Scan.start written.chars Scan.start := by
  refine Text.crosses_joinWith rfl apart (List.forall_mem_cons.2 ⟨?path, ?modifiers⟩)
  case path => exact Text.crosses_word readable.plain.text.2 other
  case modifiers =>
    exact List.forall_mem_map.2 fun modifier mem =>
      modifier.crosses_chars other (readable.modifiers modifier mem)

theorem IsReadable.isSolid_chars (readable : written.IsReadable view) : IsSolid written.chars :=
  IsSolid.joinWith (by simp) (List.forall_mem_cons.2
    ⟨readable.plain.text.1, List.forall_mem_map.2 fun modifier _ => modifier.isSolid_chars⟩)

theorem IsReadable.pieces_text (readable : written.IsReadable view) :
    Text.pieces ':' written.text =
      written.path.text :: written.modifiers.map fun modifier => String.ofList modifier.chars := by
  have split : Text.pieceChars ':' written.chars =
      written.path.text.toList :: written.modifiers.map Modifier.chars := by
    refine Text.pieceChars_joinWith (by decide) (List.forall_mem_cons.2 ⟨?path, ?modifiers⟩)
    case path => exact ⟨readable.plain.text.1, Text.crosses_word readable.plain.text.2 rfl⟩
    case modifiers =>
      exact List.forall_mem_map.2 fun modifier mem =>
        ⟨modifier.isSolid_chars, modifier.crosses_chars rfl (readable.modifiers modifier mem)⟩
  simp [Text.pieces, text, split, Function.comp_def]

theorem IsReadable.ofText?_text (readable : written.IsReadable view) :
    Directive.ofText? written.text = some written.directive := by
  have named : "" ∉ written.segments := by
    intro mem
    have plain := readable.plain.plain "" mem
    cases plain
  have modifiers : (written.modifiers.map fun modifier => String.ofList modifier.chars).filterMap
      Modifier.ofText? = written.modifiers.map Modifier.asRead := by
    rw [List.filterMap_map]
    exact List.filterMap_eq_map_iff_forall_eq_some.2 fun modifier mem =>
      Modifier.ofText?_chars (readable.modifiers modifier mem)
  refine Directive.ofText?_eq_some_iff.2 ⟨named, _, _, readable.pieces_text, ?_⟩
  rw [modifiers, path, readable.plain.readSegments]
  rfl

/-- A written text is accepted, and as the one directive that was written. -/
theorem IsReadable.accepts_text_iff {directive : Directive} (readable : written.IsReadable view) :
    Directive.Accepts view written.text directive ↔ directive = written.directive := by
  have passes : Directive.isAccepted view written.directive = true := by
    simp only [Directive.isAccepted, Bool.and_eq_true, decide_eq_true_eq]
    exact ⟨readable.shallow, readable.declared⟩
  rw [Directive.accepts_iff, readable.ofText?_text, Option.some.injEq]
  constructor
  · rintro ⟨same, -⟩
    exact same.symm
  · rintro rfl
    exact ⟨rfl, passes⟩

/-! ## Reading a list of directives -/

section Lists

variable {list : List WrittenDirective} (readable : ∀ written ∈ list, written.IsReadable view)

include readable

/-- Different paths are read from different texts. -/
theorem nodup_texts (distinct : (list.map path).Nodup) : (list.map text).Nodup := by
  have read : (list.map text).map (fun text => (Directive.ofText? text).map (·.path)) =
      (list.map path).map some := by
    rw [List.map_map, List.map_map]
    refine List.map_congr_left fun written mem => ?_
    rw [Function.comp_apply, (readable written mem).ofText?_text]
    rfl
  refine List.Nodup.of_map (fun text => (Directive.ofText? text).map (·.path)) ?_
  rw [read]
  exact distinct.map (Option.some_injective _)

theorem splitList_listText (distinct : (list.map path).Nodup) :
    Directive.splitList (listText list) = list.map text := by
  have split : Text.pieceChars ',' (Text.joinWith ',' (list.map chars)) = list.map chars :=
    Text.pieceChars_joinWith (by decide) (List.forall_mem_map.2 fun written mem =>
      ⟨(readable written mem).isSolid_chars, (readable written mem).crosses_chars rfl (by decide)⟩)
  have pieces : Text.pieces ',' (listText list) = list.map text := by
    simp [Text.pieces, listText, split, text, Function.comp_def]
  rw [Directive.splitList, pieces, eraseDups_of_nodup (nodup_texts readable distinct)]

/-! ## The expansion set of written directives -/

theorem get?_path (distinct : (list.map path).Nodup) (mem : written ∈ list) :
    (ExpansionSet.ofDirectives view limits (list.map text)).get? written.path =
      some (written.selection limits) := by
  obtain ⟨before, after, rfl⟩ := List.append_of_mem mem
  have accepts := (readable written mem).accepts_text_iff.2 rfl
  have last : ∀ later ∈ after.map text, ∀ other, Directive.Accepts view later other →
      other.path ≠ written.directive.path := by
    rw [List.map_append, List.map_cons] at distinct
    have absent := (List.nodup_cons.1 (List.nodup_append.1 distinct).2.1).1
    refine List.forall_mem_map.2 fun next known other acceptsOther same => absent ?_
    have member : next ∈ before ++ written :: after := by simp [known]
    rw [(readable next member).accepts_text_iff.1 acceptsOther] at same
    exact List.mem_map.2 ⟨next, known, same⟩
  rw [List.map_append, List.map_cons, ← ofModifiers_modifiers, ← ofModifiers_asRead]
  exact ExpansionSet.get?_ofDirectives_last accepts last

theorem mem_keys_iff {path : Path} :
    path ∈ (ExpansionSet.ofDirectives view limits (list.map text)).keys ↔
      ∃ written ∈ list, path = written.path ∨ path ∈ written.path.ancestors := by
  have within : ∀ written ∈ list, path.segments <+: written.segments ↔
      path = written.path ∨ path ∈ written.path.ancestors := by
    intro written mem
    have plain := (readable written mem).plain
    have whole : written.path.segments = written.segments :=
      Path.segments_ofSegments plain.nonempty plain.dotFree
    rw [Path.mem_ancestors_iff, whole]
    constructor
    · intro front
      by_cases same : path = written.path
      · exact .inl same
      · exact .inr ⟨front, same⟩
    · rintro (rfl | ⟨front, -⟩)
      · exact whole ▸ List.prefix_rfl
      · exact front
  rw [ExpansionSet.mem_keys_ofDirectives_iff]
  constructor
  · rintro ⟨_, inside, directive, accepts, front⟩
    obtain ⟨written, mem, rfl⟩ := List.mem_map.1 inside
    rw [(readable written mem).accepts_text_iff.1 accepts] at front
    exact ⟨written, mem, (within written mem).1 front⟩
  · rintro ⟨written, mem, known⟩
    exact ⟨written.text, List.mem_map_of_mem mem, written.directive,
      (readable written mem).accepts_text_iff.2 rfl, (within written mem).2 known⟩

end Lists

/-- Written directives are read back: each path has the selection that was asked for there, and what
else is in the set lies above one of the paths and has the standard selection. -/
theorem ofDirectives_listText {declarations : List ResourceDecl} {registry : Registry}
    {resource : String} {root view : View} {front : List String}
    (built : Registry.build declarations = .ok registry)
    (known : registry.view? resource = some root) (reached : root.descend? front = some view)
    (limits : Limits) (list : List WrittenDirective)
    (writable : ∀ written ∈ list, written.IsWritable view)
    (distinct : (list.map path).Nodup) :
    let set := ExpansionSet.ofDirectives view limits (Directive.splitList (listText list))
    (∀ written ∈ list, set.get? written.path = some (written.selection limits)) ∧
    (∀ path, path ∈ set.keys ↔
      ∃ written ∈ list, path = written.path ∨ path ∈ written.path.ancestors) ∧
    (∀ path ∈ set.keys, (∀ written ∈ list, path ≠ written.path) →
      set.get? path = some (Selection.standard limits)) := by
  have readable : ∀ written ∈ list, written.IsReadable view := fun written mem =>
    ⟨writable written mem,
      View.isPlainPath_of_declares built known reached (writable written mem).declared⟩
  rw [splitList_listText readable distinct]
  refine ⟨fun written mem => get?_path readable distinct mem, fun path => mem_keys_iff readable,
    fun path mem unasked => ?_⟩
  -- No directive asked for the path, so it is there because of one that asked for more.
  refine ExpansionSet.get?_ofDirectives_implied mem (List.forall_mem_map.2 ?_)
  intro written member directive accepts same
  rw [(readable written member).accepts_text_iff.1 accepts] at same
  exact unasked written member same.symm

/-- A resource on which a path of two relations is declared. -/
def magazine : ResourceDecl where
  name := "articles"
  relations := [("tags", { relations := [("labels", {})] }), ("author", {})]
  distinct := by simp [DistinctNames, RelationDecl.HasDistinctNames, Assoc.keys]

def magazineView : View := ⟨Registry.collect [magazine], magazine.relations, 2⟩

theorem build_magazine :
    Registry.build [magazine] = .ok (Registry.collect [magazine]) ∧
      (Registry.collect [magazine]).view? "articles" = some magazineView := by
  have depth : (Registry.collect [magazine]).depthOf? magazine = some 2 := by
    simp [Registry.depthOf?, Registry.height?, Registry.chain?, magazine]
  exact build_singleton rfl depth

/-- A filter with the marks that end things elsewhere: all of them inside a string. -/
def awkward : Json := .string "],:\"\\("

def awkwardSort : SortSpec := OrderedMap.ofList [("na.me", .descending), ("a:b", .ascending)]

/-- The modifiers are written in the opposite order. -/
def awkwardLabels : WrittenDirective where
  segments := ["tags", "labels"]
  perPage := some 5
  page := some 3
  sort := some awkwardSort
  filter := some awkward
  modifiers := (optionalModifiers (some 5) (some 3) (some awkwardSort) (some awkward)).reverse
  arranged := List.reverse_perm _

theorem isWritable_awkwardLabels : awkwardLabels.IsWritable magazineView := by
  refine ⟨rfl, by decide, fun modifier mem => ?_⟩
  have which : modifier = .perPage 5 ∨ modifier = .page 3 ∨ modifier = .sort awkwardSort ∨
      modifier = .filter awkward := by
    simpa [optionalModifiers] using List.mem_reverse.1 mem
  rcases which with rfl | rfl | rfl | rfl
  · exact (by decide : 5 ≤ Count.largest)
  · exact (by decide : 3 ≤ Count.largest)
  · have plain : ∀ field ∈ ["na.me", "a:b"], IsPlainField field :=
      List.forall_mem_cons.2 ⟨by decide +kernel, List.forall_mem_singleton.2 (by decide +kernel)⟩
    exact plain
  · exact Json.ofChars?_chars .string

theorem ofDirectives_listText_awkward :
    let list := [awkwardLabels, { segments := ["author"] }]
    let set := ExpansionSet.ofDirectives magazineView {} (Directive.splitList (listText list))
    listText list = "tags.labels:filter(\"],:\\\"\\\\(\"):sort(na.me|desc,a:b|asc)" ++
      ":page(3):per_page(5),author" ∧
    set.get? ⟨"tags.labels"⟩ =
      some { limit := 5, skip := 10, sort := some awkwardSort, filter := some awkward } ∧
    set.get? ⟨"author"⟩ = some { limit := 20 } ∧
    set.get? ⟨"tags"⟩ = some { limit := 20 } := by
  intro list set
  have reached : magazineView.descend? [] = some magazineView := rfl
  have author : ({ segments := ["author"] } : WrittenDirective).IsWritable magazineView :=
    ⟨rfl, by decide, nofun⟩
  have writable : ∀ written ∈ list, written.IsWritable magazineView :=
    List.forall_mem_cons.2 ⟨isWritable_awkwardLabels, List.forall_mem_singleton.2 author⟩
  have labelsPath : awkwardLabels.path = ⟨"tags.labels"⟩ := by decide +kernel
  have authorPath : ({ segments := ["author"] } : WrittenDirective).path = ⟨"author"⟩ := by
    decide +kernel
  have distinct : (list.map path).Nodup := by
    rw [List.map_cons, List.map_singleton, labelsPath, authorPath]
    decide
  obtain ⟨asked, keys, implied⟩ := ofDirectives_listText build_magazine.1 build_magazine.2 reached
    {} list writable distinct
  have above : ⟨"tags"⟩ ∈ set.keys :=
    (keys _).2 ⟨awkwardLabels, List.mem_cons_self .., .inr (by decide +kernel)⟩
  have unasked : ∀ written ∈ list, ⟨"tags"⟩ ≠ written.path := by
    simp [list, labelsPath, authorPath]
  have labels := asked awkwardLabels (List.mem_cons_self ..)
  have second := asked _ (List.mem_cons_of_mem _ (List.mem_cons_self ..))
  rw [labelsPath] at labels
  rw [authorPath] at second
  exact ⟨by decide +kernel, labels, second, implied _ above unasked⟩

end WrittenDirective

end RelationExpansion
