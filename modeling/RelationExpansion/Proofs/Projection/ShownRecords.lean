import RelationExpansion.Proofs.Projection.Overflows
import RelationExpansion.Proofs.Projection.RelationNodes

/-! # The records that a rendering shows

A rendering shows its root, and below it the records in the data of expanded nodes.  What it shows at
a path of relations is the rendering of the record by a projector that has gone down this path
(`ShowsAt.projected`), so what holds of one record holds of all.  One record keeps all members of its
wire form in their places, and only its relations are replaced, each by a node: no related record is
shown but in the data of a node (`projection_replaces_relations`).
-/

namespace RelationExpansion

/-! ## What is shown -/

/-- The data of an expanded node holds the rendering of an item: of the only one, or of one of the
page at the same place. -/
inductive Related.Holds (selection : Selection) : Related → Json → Entity → Json → Prop where
  | one : Related.Holds selection (.one item) data item data
  | many (place : Nat) : ((Related.many items total).shown selection)[place]? = some item →
      rendered[place]? = some json →
      Related.Holds selection (.many items total) (.array rendered) item json

/-- The records that the rendering of an entity shows, each with the path of relations that leads to
it and its own rendering. -/
inductive Projector.ShowsAt :
    Projector → Entity → Json → List String → Entity → Json → Prop where
  | root : ShowsAt projector entity shown [] entity shown
  | inside {projector : Projector} {relations : List (String × Related)}
      {fields members : List (String × Json)} {url : String} {paginator : Paginator}
      {item inner : Entity} :
      Assoc.get? relation relations = some related →
      projector.selection? relation = some selection →
      Assoc.get? relation members = some (Node.expanded url paginator data).json →
      related.Holds selection data item shown →
      ShowsAt (projector.descend relation) item shown path inner json →
      ShowsAt projector (.record identifier (.object fields) relations) (.object members)
        (relation :: path) inner json

/-- The projector for the records at the end of a path of relations. -/
def Projector.descendPath (projector : Projector) (path : List String) : Projector :=
  path.foldl Projector.descend projector

/-! ## One level -/

/-- Whether data has a place for every item that a relation shows, and no other. -/
def Related.HasPlaces (selection : Selection) (data : Json) : Related → Prop
  | .many items total => ∃ rendered, data = .array rendered ∧
      rendered.length = ((Related.many items total).shown selection).length
  | .one _ => True
  | .absent => data = .null

/-- The node of a relation: a count where the relation is not to be expanded, and else the places of
a page. -/
inductive Projector.Fills (projector : Projector) (relation : String) (related : Related) :
    Node → Prop where
  | collapsed (url : String) : projector.selection? relation = none →
      Projector.Fills projector relation related (.collapsed url related.totalCount)
  | expanded (url : String) (paginator : Paginator) :
      projector.selection? relation = some selection → related.HasPlaces selection data →
      Projector.Fills projector relation related (.expanded url paginator data)

/-- An entity and its rendering, which differ in relations only.  The members of the wire form stay
where they are, and relations that it lacks follow in order, with the first of several that have one
name. -/
inductive Projector.ReplacesRelations (projector : Projector) : Entity → Json → Prop where
  | plain : Projector.ReplacesRelations projector (.plain identifier wire) wire
  | bare : (∀ fields, wire ≠ .object fields) →
      Projector.ReplacesRelations projector (.record identifier wire relations) wire
  | record {fields members : List (String × Json)} {relations : List (String × Related)} :
      Assoc.keys members = Assoc.keys fields ++
        (Assoc.keys relations).eraseDups.filter (· ∉ Assoc.keys fields) →
      (∀ name, name ∉ Assoc.keys relations →
        Assoc.get? name members = Assoc.get? name fields) →
      (∀ relation related, Assoc.get? relation relations = some related →
        ∃ node, Assoc.get? relation members = some node.json ∧
          projector.Fills relation related node) →
      Projector.ReplacesRelations projector (.record identifier (.object fields) relations)
        (.object members)

/-- A document and its rendering: the members of the wire form in order, with a node in the place of
every relation. -/
def Document.ShowsNodes (document : Document) (json : Json) : Prop :=
  ∃ fields members, document.wire = .object fields ∧ json = .object members ∧
    Assoc.keys members = Assoc.keys fields ∧
    (∀ name, name ∉ document.relationNames →
      Assoc.get? name members = Assoc.get? name fields) ∧
    ∀ relation ∈ document.relationNames,
      ∃ node : Node, Assoc.get? relation members = some node.json

variable {projector : Projector} {entity inner item : Entity} {shown data json : Json}
  {selection : Selection} {related : Related} {relation : String} {path : List String}

theorem exists_rendered_of_projectRelated {items : List Entity} {total : Option Nat}
    (projected : projectRelated projector selection (.many items total) = .ok data) :
    ∃ rendered, data = .array rendered ∧
      List.Forall₂ (fun item json => projectEntity projector item = .ok json)
        ((Related.many items total).shown selection) rendered := by
  by_cases beyond : (Related.many items total).Overflows selection
  · rw [projectRelated_many_of_overflows beyond] at projected
    cases projected
  · rw [projectRelated_many_of_fits beyond, map_eq_ok_iff] at projected
    obtain ⟨rendered, mapped, rfl⟩ := projected
    exact ⟨rendered, rfl, mapM_eq_ok_iff.1 mapped⟩

theorem hasPlaces_of_projectRelated
    (projected : projectRelated projector selection related = .ok data) :
    related.HasPlaces selection data := by
  cases related with
  | many items total =>
    obtain ⟨rendered, rfl, each⟩ := exists_rendered_of_projectRelated projected
    exact ⟨rendered, rfl, each.length_eq.symm⟩
  | one item => exact trivial
  | absent =>
    rw [projectRelated] at projected
    cases projected
    rfl

theorem fills_of_relationNode {parent : Option String} {node : Node}
    (made : projector.relationNode parent relation related = .ok node) :
    projector.Fills relation related node := by
  cases asked : projector.selection? relation with
  | none =>
    rw [relationNode_collapsed asked] at made
    cases made
    exact .collapsed _ asked
  | some selection =>
    obtain ⟨paginator, data, rfl, -, below⟩ := relationNode_expanded asked made
    exact .expanded _ paginator asked (hasPlaces_of_projectRelated below)

theorem replacesRelations_of_projectEntity
    (projected : projectEntity projector entity = .ok shown) :
    projector.ReplacesRelations entity shown := by
  cases entity with
  | plain identifier wire =>
    rw [projectEntity] at projected
    cases projected
    exact .plain
  | record identifier wire relations =>
    cases wire with
    | object fields =>
      obtain ⟨nodes, made, rfl⟩ := exists_nodes_of_projectEntity projected
      have named : Assoc.keys nodes = (Assoc.keys relations).eraseDups := by
        simpa using keys_projectRelations_eq made
      refine .record ?order ?untouched ?replaced
      case order => rw [Assoc.keys_putAll (keys_projectRelations made).1, named]
      case untouched =>
        intro name other
        apply Assoc.get?_putAll_of_not_mem
        rwa [named, List.mem_eraseDups]
      case replaced =>
        intro relation related found
        obtain ⟨members, node, same, held, here⟩ := node_of_projectEntity_record projected found
        cases same
        exact ⟨node, held, fills_of_relationNode here⟩
    | _ =>
      rw [projectEntity] at projected
      · cases projected
        exact .bare (by simp)
      · simp

/-- Every relation of a document has a member in the wire form. -/
theorem Document.exists_wire (document : Document) : ∃ fields, document.wire = .object fields ∧
    (∀ relation ∈ document.relationNames, relation ∈ Assoc.keys fields) ∧
    document.entity =
      .record (some document.id.text) (.object fields) (slotEntities document.relations) := by
  obtain ⟨kind, id, attributes, relations⟩ := document
  refine ⟨_, by rw [wire], fun relation named => ?_, by rw [entity, wire]⟩
  apply Assoc.mem_keys_putAll_iff.2
  right
  rw [slotWires_eq_map, Assoc.keys_map fun _ => Slot.wire]
  exact named

theorem Document.keys_slotEntities (document : Document) :
    Assoc.keys (slotEntities document.relations) = document.relationNames := by
  rw [slotEntities_eq_map, Assoc.keys_map fun _ => Slot.related]
  rfl

theorem showsNodes_of_replacesRelations {document : Document}
    (replaces : projector.ReplacesRelations document.entity json) : document.ShowsNodes json := by
  obtain ⟨fields, wire, inside, same⟩ := document.exists_wire
  rw [same] at replaces
  cases replaces with
  | bare plain => exact absurd rfl (plain fields)
  | record order untouched replaced =>
    rw [document.keys_slotEntities] at order untouched
    refine ⟨fields, _, wire, rfl, ?_, untouched, fun relation named => ?_⟩
    · -- The wire form lacks none of the relations.
      rw [order, List.filter_eq_nil_iff.2, List.append_nil]
      intro relation named
      simpa using inside relation (List.mem_eraseDups.1 named)
    · obtain ⟨related, found⟩ := Option.isSome_iff_exists.1 (Assoc.get?_isSome.2
        (document.keys_slotEntities ▸ named))
      obtain ⟨node, held, -⟩ := replaced relation related found
      exact ⟨node, held⟩

/-! ## All levels -/

theorem data_eq_of_json_eq {url url' : String} {paginator paginator' : Paginator} {data' : Json}
    (same : (Node.expanded url paginator data).json = (Node.expanded url' paginator' data').json) :
    data = data' := by
  simp only [Node.json, Json.object.injEq, List.cons.injEq, Prod.mk.injEq] at same
  exact same.2.1.2

theorem projectEntity_of_holds
    (projected : projectRelated projector selection related = .ok data)
    (holds : related.Holds selection data item json) : projectEntity projector item = .ok json := by
  cases holds with
  | one => rwa [projectRelated] at projected
  | many place itemThere jsonThere =>
    obtain ⟨rendered, same, each⟩ := exists_rendered_of_projectRelated projected
    cases same
    obtain ⟨inside, rfl⟩ := List.getElem?_eq_some_iff.1 itemThere
    obtain ⟨inside', rfl⟩ := List.getElem?_eq_some_iff.1 jsonThere
    exact each.get inside inside'

/-- What is shown at a path is the rendering by the projector that has gone down the path. -/
theorem Projector.ShowsAt.projected (shows : projector.ShowsAt entity shown path inner json)
    (projected : projectEntity projector entity = .ok shown) :
    projectEntity (projector.descendPath path) inner = .ok json := by
  induction shows with
  | root => exact projected
  | inside found asked held holds _ ih =>
    obtain ⟨members, node, same, here, made⟩ := node_of_projectEntity_record projected found
    cases same
    obtain ⟨paginator, data, rfl, -, below⟩ := relationNode_expanded asked made
    -- A relation has one member, so the data that is gone into is what the projector made.
    have same := data_eq_of_json_eq (Option.some.inj (here.symm.trans held))
    exact ih (projectEntity_of_holds (same ▸ below) holds)

/-- Every record on the page of an expanded relation is shown. -/
theorem exists_showsAt {identifier : Option String} {fields : List (String × Json)}
    {relations : List (String × Related)}
    (projected : projectEntity projector (.record identifier (.object fields) relations) = .ok shown)
    (found : Assoc.get? relation relations = some related)
    (asked : projector.selection? relation = some selection)
    (mem : item ∈ related.shown selection) :
    ∃ json, projector.ShowsAt (.record identifier (.object fields) relations) shown [relation]
      item json := by
  obtain ⟨members, node, rfl, held, made⟩ := node_of_projectEntity_record projected found
  obtain ⟨paginator, data, rfl, -, below⟩ := relationNode_expanded asked made
  cases related with
  | many items total =>
    obtain ⟨rendered, rfl, each⟩ := exists_rendered_of_projectRelated below
    obtain ⟨place, inside, same⟩ := List.getElem_of_mem mem
    have inside' : place < rendered.length := each.length_eq ▸ inside
    exact ⟨rendered[place], .inside found asked held
      (.many place (List.getElem?_eq_some_iff.2 ⟨inside, same⟩) (List.getElem?_eq_getElem inside'))
      .root⟩
  | one only =>
    cases List.mem_singleton.1 mem
    exact ⟨data, .inside found asked held .one .root⟩
  | absent => cases mem

/-- At every record that is shown, a rendering replaces relations by nodes and changes nothing else.
It comes about unless some relation that is to be expanded cannot be shown, and a collection is
rendered one by one in order. -/
theorem projection_replaces_relations (projector : Projector) :
    (∀ entity shown, projectEntity projector entity = .ok shown →
      ∀ path inner json, projector.ShowsAt entity shown path inner json →
        (projector.descendPath path).ReplacesRelations inner json ∧
        ∀ document : Document, inner = document.entity → document.ShowsNodes json) ∧
    (∀ entity, (∃ shown, projectEntity projector entity = .ok shown) ↔
      ∀ related selection, projector.Expands entity related selection →
        ¬ related.Fails selection) ∧
    ∀ entities,
      (∀ data, projectAll projector entities = .ok data → ∃ rendered, data = .array rendered ∧
        List.Forall₂ (fun entity json => projectEntity projector entity = .ok json)
          entities rendered) ∧
      ((∃ data, projectAll projector entities = .ok data) ↔
        ∀ entity ∈ entities, ∃ shown, projectEntity projector entity = .ok shown) := by
  refine ⟨?every, fun entity => exists_projectEntity_iff, fun entities =>
    ⟨fun data projected => ?_, exists_projectAll_iff⟩⟩
  case every =>
    intro entity shown projected path inner json shows
    have replaces : (projector.descendPath path).ReplacesRelations inner json :=
      replacesRelations_of_projectEntity (shows.projected projected)
    refine ⟨replaces, fun document same => ?_⟩
    rw [same] at replaces
    exact showsNodes_of_replacesRelations replaces
  · rw [projectAll, map_eq_ok_iff] at projected
    obtain ⟨rendered, mapped, rfl⟩ := projected
    exact ⟨rendered, rfl, mapM_eq_ok_iff.1 mapped⟩

/-- The only tag of the article, which has no articles of its own. -/
def articleTag : Document where
  kind := "tags"
  id := Uuid.ofRandom 2
  attributes := []
  relations := [("articles", .many [] none)]

theorem exists_showsAt_articleTag (asked : projector.selection? "tags" = some { limit := 5 })
    (projected : projectEntity projector Envelope.article.entity = .ok shown) :
    ∃ json, projector.ShowsAt Envelope.article.entity shown ["tags"] articleTag.entity json := by
  obtain ⟨fields, -, -, entity⟩ := Envelope.article.exists_wire
  rw [entity] at projected ⊢
  have onPage : articleTag.entity ∈ (Related.many [articleTag.entity] none).shown { limit := 5 } :=
    List.mem_singleton_self _
  exact exists_showsAt projected rfl asked onPage

theorem projection_replaces_relations_article :
    let projector : Projector := { set := OrderedMap.ofList [(⟨"tags"⟩, { limit := 5 })] }
    let article := Envelope.article
    ∃ shown json, projectEntity projector article.entity = .ok shown ∧
      projector.ShowsAt article.entity shown ["tags"] articleTag.entity json ∧
      (projector.descendPath ["tags"]).ReplacesRelations articleTag.entity json ∧
      articleTag.ShowsNodes json ∧
      ∃ data, projectAll projector [article.entity, articleTag.entity] = .ok data := by
  intro projector article
  obtain ⟨every, -, all⟩ := projection_replaces_relations projector
  obtain ⟨shown, projected⟩ : ∃ shown, projectEntity projector article.entity = .ok shown :=
    ⟨_, rfl⟩
  obtain ⟨json, shows⟩ := exists_showsAt_articleTag rfl projected
  obtain ⟨replaces, nodes⟩ := every _ _ projected _ _ _ shows
  refine ⟨shown, json, projected, shows, replaces, nodes articleTag rfl, ?_⟩
  apply (all [article.entity, articleTag.entity]).2.2
  simp only [List.forall_mem_cons]
  exact ⟨⟨shown, projected⟩, ⟨_, rfl⟩, by simp⟩

end RelationExpansion
