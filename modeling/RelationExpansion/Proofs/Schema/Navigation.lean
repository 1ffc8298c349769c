import RelationExpansion.Schema.View

/-! # Walking down a schema

A path can be walked in two parts: first down to a view, then on from there.  So every part of a
declared path that starts at the top is declared as well.
-/

namespace RelationExpansion

namespace View

variable {view child : View} {name : String} {front back path : List String}

theorem descend?_append :
    view.descend? (front ++ back) = (view.descend? front).bind (·.descend? back) := by
  induction front generalizing view with
  | nil => rfl
  | cons name front ih => simp only [List.cons_append, descend?, ih, Option.bind_assoc]

theorem relationAt?_append (nonempty : back ≠ []) :
    view.relationAt? (front ++ back) = (view.descend? front).bind (·.relationAt? back) := by
  induction front generalizing view with
  | nil => rfl
  | cons name front ih =>
    have more : front ++ back ≠ [] := by simp [nonempty]
    obtain ⟨second, rest, split⟩ := List.exists_cons_of_ne_nil more
    rw [List.cons_append, split, relationAt?, ← split]
    simp only [ih, descend?, Option.bind_assoc]

theorem declares_append_eq (nonempty : back ≠ []) :
    view.declares (front ++ back) = (view.descend? front).any (·.declares back) := by
  rw [declares, relationAt?_append nonempty]
  cases view.descend? front with
  | none => rfl
  | some child => rfl

theorem routeTemplate?_append (nonempty : back ≠ []) :
    view.routeTemplate? (front ++ back) =
      (view.descend? front).bind (·.routeTemplate? back) := by
  simp only [routeTemplate?, relationAt?_append nonempty, Option.bind_assoc]

theorem declares_of_routeTemplate? (routed : (view.routeTemplate? path).isSome = true) :
    view.declares path = true :=
  Option.isSome_of_isSome_bind routed

theorem descend?_singleton : view.descend? [name] = view.children? name := by
  simp [descend?]

theorem relation?_isSome_of_children? (below : view.children? name = some child) :
    (view.relation? name).isSome = true := by
  cases found : view.relation? name with
  | none => simp [children?, found] at below
  | some relation => rfl

theorem declares_of_descend? (nonempty : front ≠ []) (reached : view.descend? front = some child) :
    view.declares front = true := by
  obtain ⟨start, last, rfl⟩ : ∃ start last, front = start ++ [last] :=
    ⟨_, _, (List.dropLast_concat_getLast nonempty).symm⟩
  rw [descend?_append] at reached
  obtain ⟨parent, walked, below⟩ := Option.bind_eq_some_iff.1 reached
  rw [descend?_singleton] at below
  simpa [declares, relationAt?_append, walked, relationAt?] using
    relation?_isSome_of_children? below

theorem declares_of_prefix (nonempty : front ≠ []) (within : front <+: path)
    (declared : view.declares path = true) : view.declares front = true := by
  obtain ⟨back, rfl⟩ := within
  -- The rest is looked up from where the front leads, if there is a rest.
  by_cases whole : back = []
  · simpa [whole] using declared
  · rw [declares_append_eq whole] at declared
    cases reached : view.descend? front with
    | none => simp [reached] at declared
    | some child => exact declares_of_descend? nonempty reached

end View

end RelationExpansion
