import RelationExpansion.Proofs.Projection.ShownRecords
import RelationExpansion.Proofs.Schema.Navigation

/-! # The routes of nodes

A projector takes its schema down with it, one level for each relation.  So the URL of a node is
made from the route that the whole schema has for the path of the node, however far down that is
(`url_eq_routeTemplate`), and where the schema has none, there is no URL either.
-/

namespace RelationExpansion

/-- The URL that a node tells. -/
def Json.nodeUrl? (node : Json) : Option String :=
  ((node.member? "meta").bind (·.member? "url")).bind Json.string?

variable {projector : Projector} {relation : String} {related : Related} {path : List String}

/-! ## Going down -/

theorem Projector.schema_descendPath (projector : Projector) (path : List String) :
    (projector.descendPath path).schema = projector.schema.bind (·.descend? path) := by
  induction path generalizing projector with
  | nil => exact (Option.bind_fun_some projector.schema).symm
  | cons name rest ih =>
    have step : projector.descendPath (name :: rest) =
        (projector.descend name).descendPath rest := rfl
    rw [step, ih, descend]
    simp only [Option.bind_assoc, View.descend?]

/-- The route of a relation, looked up where the projector has come to, is that of its whole path. -/
theorem Projector.relationUrl_descendPath (projector : Projector) (path : List String)
    (relation : String) (parent item : Option String) :
    (projector.descendPath path).relationUrl relation parent item =
      ((projector.schema.bind (·.routeTemplate? (path ++ [relation]))).map
        (expandRoute · parent item)).getD "" := by
  have route : (projector.descendPath path).schema.bind (·.routeTemplate? [relation]) =
      projector.schema.bind (·.routeTemplate? (path ++ [relation])) := by
    rw [schema_descendPath, Option.bind_assoc]
    simp only [View.routeTemplate?_append (List.cons_ne_nil relation [])]
  rw [relationUrl, route]
  cases projector.schema.bind (·.routeTemplate? (path ++ [relation])) with
  | none => rfl
  | some template => rfl

theorem nodeUrl?_of_relationNode {parent : Option String} {node : Node}
    (made : projector.relationNode parent relation related = .ok node) :
    node.json.nodeUrl? = some (projector.relationUrl relation parent related.itemIdentifier) := by
  cases asked : projector.selection? relation with
  | none =>
    rw [relationNode_collapsed asked] at made
    cases made
    rfl
  | some selection =>
    obtain ⟨paginator, data, rfl, -, -⟩ := relationNode_expanded asked made
    rfl

/-- The URL of every node is made from the route of its path and the identifiers of the record that
it belongs to and of the one record that it leads to.  The path can be walked in parts. -/
theorem url_eq_routeTemplate (projector : Projector) :
    (∀ entity shown, projectEntity projector entity = .ok shown →
      ∀ path identifier fields relations json,
        projector.ShowsAt entity shown path (.record identifier (.object fields) relations) json →
      ∀ relation related, Assoc.get? relation relations = some related →
        ∃ members, json = .object members ∧
          (Assoc.get? relation members).bind Json.nodeUrl? =
            some (((projector.schema.bind (·.routeTemplate? (path ++ [relation]))).map
              (expandRoute · identifier related.itemIdentifier)).getD "")) ∧
    ∀ view : View,
      (∀ front back, back ≠ [] →
        view.declares (front ++ back) = (view.descend? front).any (·.declares back) ∧
        view.routeTemplate? (front ++ back) =
          (view.descend? front).bind (·.routeTemplate? back)) ∧
      (∀ front path, front ≠ [] → front <+: path → view.declares path = true →
        view.declares front = true) ∧
      ∀ path, (view.routeTemplate? path).isSome = true → view.declares path = true := by
  refine ⟨?urls, fun view => ⟨fun front back nonempty => ?_, ?_, ?_⟩⟩
  case urls =>
    intro entity shown projected path identifier fields relations json shows relation related found
    obtain ⟨members, node, same, held, made⟩ :=
      node_of_projectEntity_record (shows.projected projected) found
    refine ⟨members, same, ?_⟩
    rw [held, Option.bind_some, nodeUrl?_of_relationNode made, projector.relationUrl_descendPath]
  · exact ⟨View.declares_append_eq nonempty, View.routeTemplate?_append nonempty⟩
  · exact fun front path nonempty within declared => View.declares_of_prefix nonempty within declared
  · exact fun path routed => View.declares_of_routeTemplate? routed

/-- Articles with tags and a category, and tags with articles again; the category has no route. -/
def routedView : View where
  registry := Registry.collect []
  relations := [
    ("tags", {
      route := some "/articles/:parentId/tags"
      relations := [("articles", { route := some "/tags/:parentId/articles" })] }),
    ("category", {})]
  depth := 2

theorem url_eq_routeTemplate_tag :
    let projector : Projector :=
      { set := OrderedMap.ofList [(⟨"tags"⟩, { limit := 5 })], schema := some routedView }
    ∃ shown members, projectEntity projector Envelope.article.entity = .ok shown ∧
      projector.ShowsAt Envelope.article.entity shown ["tags"] articleTag.entity
        (.object members) ∧
      (Assoc.get? "articles" members).bind Json.nodeUrl? =
        some "/tags/00000000-0000-4000-8000-000000000002/articles" ∧
      (["articles"] ≠ [] ∧ routedView.routeTemplate? (["tags"] ++ ["articles"]) =
        (routedView.descend? ["tags"]).bind (·.routeTemplate? ["articles"])) ∧
      routedView.declares ["tags"] = true := by
  intro projector
  obtain ⟨urls, navigates⟩ := url_eq_routeTemplate projector
  obtain ⟨walks, prefixes, routed⟩ := navigates routedView
  obtain ⟨shown, projected⟩ :
      ∃ shown, projectEntity projector Envelope.article.entity = .ok shown := ⟨_, rfl⟩
  obtain ⟨json, shows⟩ := exists_showsAt_articleTag rfl projected
  obtain ⟨fields, -, -, entity⟩ := articleTag.exists_wire
  obtain ⟨members, rfl, url⟩ :=
    urls _ _ projected ["tags"] _ fields _ json (entity ▸ shows) "articles" _ rfl
  have declared : routedView.declares (["tags"] ++ ["articles"]) = true := routed _ rfl
  refine ⟨shown, members, projected, shows, url.trans (by decide +kernel), ?_, ?_⟩
  · exact ⟨List.cons_ne_nil _ _, (walks ["tags"] ["articles"] (List.cons_ne_nil _ _)).2⟩
  · exact prefixes _ _ (List.cons_ne_nil _ _) (List.prefix_append _ _) declared

end RelationExpansion
