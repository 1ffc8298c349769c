import RelationExpansion.Proofs.Expansion.AskedPages
import RelationExpansion.Proofs.Expansion.WrittenDirectives
import RelationExpansion.Request.Query

/-! # The selection of the root collection

The parameters of a query and the modifiers of a directive mean the same: a parameter, written as
the arguments of the modifier of its kind, is read as the modifier that the query stands for
(`filterMap_calls`), whatever characters it holds.  So a root collection is paged, sorted and
filtered as a relation would be, and the order of the modifiers does not matter.
-/

namespace RelationExpansion

open Text (IsSolid)

namespace Modifier

/-- A name with its arguments in parentheses. -/
def call (name arguments : String) : String := name ++ "(" ++ arguments ++ ")"

/-- Every name of a modifier is read off its call, and the arguments are read as they stand. -/
theorem ofText?_call_name (modifier : Modifier) (arguments : String) :
    ofText? (call modifier.name arguments) =
      ofCall? modifier.name.toList arguments.toList := by
  have chars : call modifier.name arguments =
      String.ofList (modifier.name.toList ++ '(' :: arguments.toList ++ [')']) := by
    rw [← String.toList_inj]
    simp [call]
  have free : '(' ∉ modifier.name.toList := fun mem => by
    cases isWordChar_name modifier '(' mem
  rw [chars, ofText?_call (isSolid_name modifier) free]

theorem ofText?_call_perPage (arguments : String) :
    ofText? (call "per_page" arguments) =
      ((Count.ofText? arguments).map .perPage).map asRead := by
  rw [show "per_page" = (perPage 0).name from rfl, ofText?_call_name]
  simp [name, ofCall?, asRead, Function.comp_def]

theorem ofText?_call_page (arguments : String) :
    ofText? (call "page" arguments) = ((Count.ofText? arguments).map .page).map asRead := by
  rw [show "page" = (page 0).name from rfl, ofText?_call_name]
  simp [name, ofCall?, asRead, Function.comp_def]

theorem ofText?_call_sort (arguments : String) :
    ofText? (call "sort" arguments) =
      (some (.sort (SortSpec.ofText arguments))).map asRead := by
  rw [show "sort" = (sort OrderedMap.empty).name from rfl, ofText?_call_name]
  simp [name, ofCall?, asRead]

theorem ofText?_call_filter (arguments : String) :
    ofText? (call "filter" arguments) =
      ((Filter.ofText? arguments.toList).map .filter).map asRead := by
  rw [show "filter" = (filter .null).name from rfl, ofText?_call_name]
  simp [name, ofCall?, asRead, Function.comp_def]

theorem name_asRead (modifier : Modifier) : modifier.asRead.name = modifier.name := by
  cases modifier <;> rfl

end Modifier

namespace Query

/-- The parameters as they would be written in a directive. -/
def calls (query : Query) : List String :=
  (query.perPage.map (Modifier.call "per_page")).toList ++
  (query.page.map (Modifier.call "page")).toList ++
  (query.sort.map (Modifier.call "sort")).toList ++
  (query.filter.map (Modifier.call "filter")).toList

/-- A parameter may be missing, or mean nothing. -/
theorem filterMap_parameter {name : String} {read? : String → Option Modifier}
    (reads : ∀ text, Modifier.ofText? (Modifier.call name text) = (read? text).map Modifier.asRead)
    (parameter : Option String) :
    (parameter.map (Modifier.call name)).toList.filterMap Modifier.ofText? =
      (parameter.bind read?).toList.map Modifier.asRead := by
  cases parameter with
  | none => rfl
  | some text => cases made : read? text <;> simp [reads, made]

theorem filterMap_calls (query : Query) :
    query.calls.filterMap Modifier.ofText? = query.modifiers.map Modifier.asRead := by
  simp only [calls, List.filterMap_append, filterMap_parameter Modifier.ofText?_call_perPage,
    filterMap_parameter Modifier.ofText?_call_page, filterMap_parameter Modifier.ofText?_call_sort,
    filterMap_parameter Modifier.ofText?_call_filter]
  -- The query reads a parameter first and makes the modifier afterwards.
  simp only [modifiers, List.map_append, Option.map_eq_bind, Option.bind_assoc, Function.comp_def]

/-- At most one modifier of each kind stands for a query. -/
theorem nodup_names_modifiers (query : Query) : (query.modifiers.map Modifier.name).Nodup := by
  unfold modifiers
  cases query.perPage.bind Count.ofText? <;> cases query.page.bind Count.ofText? <;>
    cases query.sort <;> cases query.filter.bind fun text => Filter.ofText? text.toList <;>
    simp [Modifier.name]

/-- The root collection is selected as a relation is, with the parameters in any order. -/
theorem rootSelection_eq_ofModifiers (query : Query) (limits : Limits) (order : List String)
    (perm : order.Perm query.calls) :
    query.rootSelection limits =
      Selection.ofModifiers limits (order.filterMap Modifier.ofText?) := by
  have read : (order.filterMap Modifier.ofText?).Perm (query.modifiers.map Modifier.asRead) :=
    filterMap_calls query ▸ perm.filterMap _
  have distinct : ((query.modifiers.map Modifier.asRead).map Modifier.name).Nodup := by
    simpa [Function.comp_def, Modifier.name_asRead] using nodup_names_modifiers query
  rw [Selection.ofModifiers_congr (Modifier.alikeByKind_of_perm read distinct),
    WrittenDirective.ofModifiers_asRead, rootSelection]

/-- Texts with brackets, blanks and a sign, of which the page size is no count. -/
theorem rootSelection_eq_ofModifiers_brackets :
    let query : Query :=
      { page := some " 3\t", perPage := some "+7)", sort := some " ),(a|desc",
        filter := some "[\")\"]" }
    let order := ["filter([\")\"])", "sort( ),(a|desc)", "per_page(+7))", "page( 3\t)"]
    order.Perm query.calls ∧
      query.rootSelection {} = Selection.ofModifiers {} (order.filterMap Modifier.ofText?) ∧
      (query.rootSelection {}).skip = 40 := by
  intro query order
  have perm : order.Perm query.calls := by decide +kernel
  exact ⟨perm, rootSelection_eq_ofModifiers query {} order perm, by decide +kernel⟩

end Query

end RelationExpansion
