import RelationExpansion.Projection.Envelope
import RelationExpansion.Proofs.Expansion.AcceptedPaths
import RelationExpansion.Proofs.Outcome
import RelationExpansion.Record.Document

/-! # Which relations are expanded

`Entity.Shows` says of a rendering that exactly the requested relations hold data, at every record
that is reached over relations that do.  An envelope shows its root with the relations on accepted
paths expanded: narrowing the set on the way down never loses a path (`Follows.descend`), and the
ceiling never stops an accepted one (`follows_requested`).
-/

namespace RelationExpansion

/-! ## Renderings -/

mutual
/-- An entity that is reached over a stack of relations, and its rendering.  Relations become nodes,
which hold data where their path is requested, and otherwise only a count. -/
inductive Entity.Shows (requested : List String → Prop) : List String → Entity → Json → Prop where
  | plain : Entity.Shows requested stack (.plain identifier wire) wire
  | bare : (∀ members, wire ≠ .object members) →
      Entity.Shows requested stack (.record identifier wire relations) wire
  | record : RelationsShow requested stack [] relations members →
      Entity.Shows requested stack (.record identifier (.object fields) relations) (.object members)

/-- Relations of one entity, the names of the earlier ones, and the members of the rendering.  Of
several relations with one name the first is shown. -/
inductive RelationsShow (requested : List String → Prop) :
    List String → List String → List (String × Related) → List (String × Json) → Prop where
  | nil : RelationsShow requested stack done [] members
  | repeated : relation ∈ done → RelationsShow requested stack done rest members →
      RelationsShow requested stack done ((relation, related) :: rest) members
  | expanded : relation ∉ done → requested (stack ++ [relation]) →
      Assoc.get? relation members = some (.object
        [("meta", .object [("url", .string url), ("paginator", Paginator.json paginator)]),
          ("data", data)]) →
      Related.Shows requested (stack ++ [relation]) related data →
      RelationsShow requested stack (relation :: done) rest members →
      RelationsShow requested stack done ((relation, related) :: rest) members
  | collapsed : relation ∉ done → ¬ requested (stack ++ [relation]) →
      Assoc.get? relation members = some (.object
        [("meta", .object [("url", .string url), ("count", .ofNat related.totalCount)])]) →
      RelationsShow requested stack (relation :: done) rest members →
      RelationsShow requested stack done ((relation, related) :: rest) members

/-- What a relation leads to, and the data of its node. -/
inductive Related.Shows (requested : List String → Prop) :
    List String → Related → Json → Prop where
  | many (skip : Nat) : ItemsShow requested stack (items.drop skip) shown →
      Related.Shows requested stack (.many items total) (.array shown)
  | one : Entity.Shows requested stack item shown → Related.Shows requested stack (.one item) shown
  | absent : Related.Shows requested stack .absent .null

/-- Items in order, up to the end of the page. -/
inductive ItemsShow (requested : List String → Prop) :
    List String → List Entity → List Json → Prop where
  | nil : ItemsShow requested stack items []
  | cons : Entity.Shows requested stack item first → ItemsShow requested stack rest others →
      ItemsShow requested stack (item :: rest) (first :: others)
end

/-- A root shows without a node of its own, and a collection shows all of its entities. -/
def RootResult.Shows (requested : List String → Prop) : RootResult → Json → Prop
  | .single none, data => data = .null
  | .single (some entity), data => entity.Shows requested [] data
  | .collection entities _ _, data => ∃ shown, data = .array shown ∧
      ItemsShow requested [] entities shown ∧ shown.length = entities.length

/-! ## Names of relations -/

mutual
/-- Whether no relation anywhere inside has a dot in its name. -/
def Entity.HasDotFreeNames : Entity → Prop
  | .plain _ _ => True
  | .record _ _ relations => RelationsHaveDotFreeNames relations

def RelationsHaveDotFreeNames : List (String × Related) → Prop
  | [] => True
  | (relation, related) :: rest =>
    '.' ∉ relation.toList ∧ related.HasDotFreeNames ∧ RelationsHaveDotFreeNames rest

def Related.HasDotFreeNames : Related → Prop
  | .many items _ => ItemsHaveDotFreeNames items
  | .one item => item.HasDotFreeNames
  | .absent => True

def ItemsHaveDotFreeNames : List Entity → Prop
  | [] => True
  | item :: rest => item.HasDotFreeNames ∧ ItemsHaveDotFreeNames rest
end

def RootResult.HasDotFreeNames : RootResult → Prop
  | .single none => True
  | .single (some entity) => entity.HasDotFreeNames
  | .collection entities _ _ => ItemsHaveDotFreeNames entities

/-! ## Projectors that follow the requested paths -/

/-- Whether the ceiling is high enough for a path to be expanded. -/
def Projector.Reaches (projector : Projector) (path : List String) : Prop :=
  ∀ most, projector.ceiling = some most → path.length ≤ most + 1

/-- The requested paths below the stack of the projector are those that its set holds and that its
ceiling is high enough for. -/
structure Projector.Follows (projector : Projector) (requested : List String → Prop) : Prop where
  free : DotFree projector.stack
  asks : ∀ path, DotFree path → projector.stack <+: path →
    projector.stack.length < path.length →
    ((projector.set.get? (Path.ofSegments path)).isSome = true ∧ projector.Reaches path ↔
      requested path)

namespace Projector

variable {projector : Projector} {requested : List String → Prop} {relation : String}

theorem allowsExpansion_iff :
    projector.allowsExpansion = true ↔ projector.Reaches (projector.stack ++ [relation]) := by
  unfold allowsExpansion Reaches
  cases projector.ceiling with
  | none => simp
  | some most => simp

theorem Follows.selection?_isSome_iff (follows : projector.Follows requested)
    (undotted : '.' ∉ relation.toList) :
    (projector.selection? relation).isSome = true ↔ requested (projector.stack ++ [relation]) := by
  have known := follows.asks (projector.stack ++ [relation])
    (follows.free.append (dotFree_singleton undotted)) (List.prefix_append _ _) (by simp)
  rw [← known, ← allowsExpansion_iff, selection?, ExpansionSet.child?]
  split
  · rename_i allowed
    simp [allowed]
  · rename_i blocked
    simp [blocked]

theorem Follows.descend (follows : projector.Follows requested) (undotted : '.' ∉ relation.toList) :
    (projector.descend relation).Follows requested where
  free := follows.free.append (dotFree_singleton undotted)
  asks path free within longer := by
    -- What lies below the longer stack is kept, and lay below the shorter one before.
    have kept : (projector.descend relation).set.get? (Path.ofSegments path) =
        projector.set.get? (Path.ofSegments path) := ExpansionSet.get?_below free within longer
    have above := (List.prefix_append projector.stack [relation]).trans within
    simp only [Projector.descend, List.length_append, List.length_singleton] at longer
    rw [kept]
    exact follows.asks path free above (by omega)

end Projector

/-! ## Projections -/

variable {projector : Projector} {requested : List String → Prop}

/-- The nodes of an entity have different names, none of them seen before. -/
theorem keys_projectRelations {parent : Option String} {done : List String}
    {relations : List (String × Related)} {nodes : List (String × Json)}
    (projected : projectRelations projector parent done relations = .ok nodes) :
    (Assoc.keys nodes).Nodup ∧ ∀ name ∈ Assoc.keys nodes, name ∉ done := by
  induction relations generalizing done nodes with
  | nil =>
    rw [projectRelations] at projected
    cases projected
    simp [Assoc.keys]
  | cons entry rest ih =>
    obtain ⟨relation, related⟩ := entry
    rw [projectRelations] at projected
    by_cases seen : relation ∈ done
    · rw [if_pos seen] at projected
      exact ih projected
    · rw [if_neg seen] at projected
      obtain ⟨node, -, projected⟩ := bind_eq_ok_iff.1 projected
      obtain ⟨others, later, projected⟩ := bind_eq_ok_iff.1 projected
      cases projected
      obtain ⟨distinct, fresh⟩ := ih later
      refine ⟨List.nodup_cons.2 ⟨fun again => fresh relation again (by simp), distinct⟩, ?_⟩
      intro name mem
      rcases List.mem_cons.1 mem with rfl | inside
      · exact seen
      · exact fun known => fresh name inside (List.mem_cons_of_mem _ known)

mutual
theorem projectEntity_shows {projector : Projector} (follows : projector.Follows requested) :
    ∀ (entity : Entity) {shown : Json}, entity.HasDotFreeNames →
      projectEntity projector entity = .ok shown → entity.Shows requested projector.stack shown
  | .plain identifier wire, shown, _, projected => by
    rw [projectEntity] at projected
    cases projected
    exact .plain
  | .record identifier wire relations, shown, dotFree, projected => by
    rw [Entity.HasDotFreeNames] at dotFree
    cases wire with
    | object members =>
      rw [projectEntity] at projected
      obtain ⟨nodes, found, projected⟩ := bind_eq_ok_iff.1 projected
      cases projected
      have written : ∀ name node, Assoc.get? name nodes = some node →
          Assoc.get? name (Assoc.putAll members nodes) = some node := by
        intro name node mem
        rw [Assoc.get?_putAll (keys_projectRelations found).1, mem, Option.some_or]
      exact .record (projectRelations_shows follows relations dotFree found written)
    | _ =>
      rw [projectEntity] at projected
      · cases projected
        exact .bare (by simp)
      · simp

theorem projectRelations_shows {projector : Projector} (follows : projector.Follows requested) :
    ∀ (relations : List (String × Related)) {parent : Option String} {done : List String}
      {nodes members : List (String × Json)}, RelationsHaveDotFreeNames relations →
      projectRelations projector parent done relations = .ok nodes →
      (∀ name node, Assoc.get? name nodes = some node → Assoc.get? name members = some node) →
      RelationsShow requested projector.stack done relations members
  | [], _, _, _, _, _, _, _ => .nil
  | (relation, related) :: rest, parent, done, nodes, members, dotFree, projected, written => by
    obtain ⟨undotted, inside, others⟩ := dotFree
    rw [projectRelations] at projected
    by_cases seen : relation ∈ done
    · rw [if_pos seen] at projected
      exact .repeated seen (projectRelations_shows follows rest others projected written)
    rw [if_neg seen] at projected
    obtain ⟨node, here, projected⟩ := bind_eq_ok_iff.1 projected
    obtain ⟨later, found, projected⟩ := bind_eq_ok_iff.1 projected
    cases projected
    -- The later nodes have other names, so this one is what the rendering holds.
    have own := written relation node.json (by simp [Assoc.get?])
    have remaining := projectRelations_shows follows rest others found fun name json mem => by
      apply written
      have known : name ∈ Assoc.keys later :=
        Assoc.get?_isSome.1 (Option.isSome_of_eq_some mem)
      have other : relation ≠ name := fun same =>
        (keys_projectRelations found).2 name known (by simp [same])
      simpa [Assoc.get?, other] using mem
    have asked := follows.selection?_isSome_iff undotted
    rw [Projector.node] at here
    cases request : projector.selection? relation with
    | none =>
      rw [request] at here asked
      cases here
      exact .collapsed seen (fun wanted => by simpa using asked.2 wanted) own remaining
    | some selection =>
      rw [request] at here asked
      obtain ⟨data, below, here⟩ := bind_eq_ok_iff.1 here
      obtain ⟨paginator, -, here⟩ := bind_eq_ok_iff.1 here
      cases here
      exact .expanded seen (asked.1 rfl) own
        (projectRelated_shows (follows.descend undotted) related inside below) remaining

theorem projectRelated_shows {projector : Projector} (follows : projector.Follows requested) :
    ∀ (related : Related) {selection : Selection} {data : Json}, related.HasDotFreeNames →
      projectRelated projector selection related = .ok data →
      related.Shows requested projector.stack data
  | .many items total, selection, data, dotFree, projected => by
    rw [projectRelated] at projected
    obtain ⟨⟨skip, take⟩, -, projected⟩ := bind_eq_ok_iff.1 projected
    obtain ⟨shown, window, projected⟩ := bind_eq_ok_iff.1 projected
    cases projected
    exact .many skip (projectWindow_shows follows items dotFree window)
  | .one item, selection, data, dotFree, projected => by
    rw [projectRelated] at projected
    exact .one (projectEntity_shows follows item dotFree projected)
  | .absent, selection, data, _, projected => by
    rw [projectRelated] at projected
    cases projected
    exact .absent

theorem projectWindow_shows {projector : Projector} (follows : projector.Follows requested) :
    ∀ (items : List Entity) {skip take : Nat} {shown : List Json}, ItemsHaveDotFreeNames items →
      projectWindow projector skip take items = .ok shown →
      ItemsShow requested projector.stack (items.drop skip) shown
  | [], skip, take, shown, _, projected => by
    rw [projectWindow] at projected
    cases projected
    exact .nil
  | item :: rest, skip + 1, take, shown, dotFree, projected => by
    rw [projectWindow] at projected
    exact projectWindow_shows follows rest dotFree.2 projected
  | item :: rest, 0, 0, shown, dotFree, projected => by
    rw [projectWindow] at projected
    cases projected
    exact .nil
  | item :: rest, 0, take + 1, shown, dotFree, projected => by
    rw [projectWindow] at projected
    obtain ⟨first, here, projected⟩ := bind_eq_ok_iff.1 projected
    obtain ⟨others, later, projected⟩ := bind_eq_ok_iff.1 projected
    cases projected
    exact .cons (projectEntity_shows follows item dotFree.1 here)
      (projectWindow_shows follows rest dotFree.2 later)
end

theorem mapM_projectEntity_shows (follows : projector.Follows requested) {entities : List Entity}
    {shown : List Json} (dotFree : ItemsHaveDotFreeNames entities)
    (projected : entities.mapM (projectEntity projector) = .ok shown) :
    ItemsShow requested projector.stack entities shown ∧ shown.length = entities.length := by
  induction entities generalizing shown with
  | nil =>
    cases projected
    exact ⟨.nil, rfl⟩
  | cons entity rest ih =>
    rw [List.mapM_cons] at projected
    obtain ⟨first, here, projected⟩ := bind_eq_ok_iff.1 projected
    obtain ⟨others, later, projected⟩ := bind_eq_ok_iff.1 projected
    cases projected
    obtain ⟨shows, length⟩ := ih dotFree.2 later
    exact ⟨.cons (projectEntity_shows follows entity dotFree.1 here) shows, by simp [length]⟩

theorem projectAll_shows (follows : projector.Follows requested) {entities : List Entity}
    {data : Json} (dotFree : ItemsHaveDotFreeNames entities)
    (projected : projectAll projector entities = .ok data) :
    ∃ shown, data = .array shown ∧ ItemsShow requested projector.stack entities shown ∧
      shown.length = entities.length := by
  unfold projectAll at projected
  cases found : entities.mapM (projectEntity projector) with
  | error error =>
    rw [found] at projected
    cases projected
  | ok shown =>
    rw [found] at projected
    cases projected
    exact ⟨shown, rfl, mapM_projectEntity_shows follows dotFree found⟩

/-! ## Envelopes -/

namespace Envelope

variable {view : View} {limits : Limits} {texts : List String}

/-- Whether a path is, or lies above, the path of an accepted directive. -/
def Requested (view : View) (texts : List String) (path : List String) : Prop :=
  path ≠ [] ∧ ∃ text ∈ texts, ∃ directive,
    Directive.Accepts view text directive ∧ path <+: directive.segments

theorem follows_requested :
    Projector.Follows
      { set := ExpansionSet.ofDirectives view limits texts
        ceiling := some (view.depth - 1)
        schema := some view } (Requested view texts) where
  free := by simp [DotFree]
  asks path free _ longer := by
    have nonempty : path ≠ [] := List.ne_nil_of_length_pos longer
    have known : ((ExpansionSet.ofDirectives view limits texts).get?
        (Path.ofSegments path)).isSome = true ↔ _ := OrderedMap.contains_iff_mem_keys
    rw [known, ExpansionSet.mem_keys_ofDirectives_iff, Path.segments_ofSegments nonempty free]
    refine ⟨fun found => ⟨nonempty, found.1⟩, fun request => ⟨request.2, fun most same => ?_⟩⟩
    obtain ⟨-, text, -, directive, accepts, within⟩ := request
    cases same
    -- The ceiling is a stack, which is one shorter than the path of a relation at its end.
    have short := within.length_le
    have shallow := accepts.shallow
    omega

/-- An envelope shows the paths that its projector follows. -/
theorem build_shows {requested : List String → Prop} {set : ExpansionSet} {root : RootResult}
    {url : String} {envelope : Envelope}
    (follows : Projector.Follows
      { set := set, ceiling := some (view.depth - 1), schema := some view } requested)
    (dotFree : root.HasDotFreeNames)
    (built : Envelope.build root url set (some view) = .ok envelope) :
    root.Shows requested envelope.data := by
  unfold Envelope.build at built
  cases root with
  | single entity =>
    cases entity with
    | none =>
      cases built
      rfl
    | some entity =>
      obtain ⟨data, projected, built⟩ := bind_eq_ok_iff.1 built
      cases built
      exact projectEntity_shows follows entity dotFree projected
  | collection entities total selection =>
    obtain ⟨data, projected, built⟩ := bind_eq_ok_iff.1 built
    obtain ⟨paginator, -, built⟩ := bind_eq_ok_iff.1 built
    cases built
    exact projectAll_shows follows dotFree projected

/-- The relations on accepted paths are expanded, at every record that is reached over such
relations, and all others are collapsed. -/
theorem build_expands_accepted (view : View) (limits : Limits) (texts : List String)
    (root : RootResult) (url : String) (envelope : Envelope) (dotFree : root.HasDotFreeNames)
    (built : Envelope.build root url (ExpansionSet.ofDirectives view limits texts) (some view) =
      .ok envelope) :
    root.Shows (Requested view texts) envelope.data :=
  build_shows follows_requested dotFree built

/-- Articles with tags and a category, and tags with articles again. -/
def articleView : View where
  registry := Registry.collect []
  relations := [("tags", { relations := [("articles", {})] }), ("category", {})]
  depth := 2

def article : Document where
  kind := "articles"
  id := Uuid.ofRandom 1
  attributes := [("title", .string "Hello")]
  relations := [
    ("tags", .many [.document ⟨"tags", Uuid.ofRandom 2, [], [("articles", .many [] none)]⟩] none),
    ("category", .one (.reference (.string "news")))]

theorem hasDotFreeNames_article : (RootResult.single (some article.entity)).HasDotFreeNames :=
  ⟨by decide, ⟨⟨by decide, trivial, trivial⟩, trivial⟩, by decide, trivial, trivial⟩

theorem build_expands_tags :
    let root := RootResult.single (some article.entity)
    root.HasDotFreeNames ∧ ∃ envelope,
      Envelope.build root "/articles/1" (ExpansionSet.ofDirectives articleView {} ["tags"])
        (some articleView) = .ok envelope ∧
      root.Shows (Requested articleView ["tags"]) envelope.data := by
  intro root
  have dotFree : root.HasDotFreeNames := hasDotFreeNames_article
  obtain ⟨envelope, built⟩ : ∃ envelope, Envelope.build root "/articles/1"
      (ExpansionSet.ofDirectives articleView {} ["tags"]) (some articleView) = .ok envelope :=
    ⟨_, rfl⟩
  exact ⟨dotFree, envelope, built, build_expands_accepted _ _ _ _ _ _ dotFree built⟩

end Envelope

end RelationExpansion
