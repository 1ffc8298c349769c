import RelationExpansion.Proofs.Store.Following
import RelationExpansion.Request.Api

/-! # What a failed request leaves behind

Over a store that is both the service and the gateway, listing and fetching never change the state,
and neither does creating a record of an unknown resource.  Every other creation stores one record
and nothing else.  There is no way back from there: the record stays when its relations cannot be
attached, and that happens exactly when the store does not define a relation on an accepted path.
-/

namespace RelationExpansion

/-- What can be asked of an api. -/
inductive Call where
  | list (resource : String) (query : Query)
  | get (resource : String) (id : Uuid) (query : Query)
  | create (id : Uuid) (now resource : String) (record : Record) (query : Query)

namespace Call

/-- Whether a call gets as far as storing a record. -/
def Stores (registry : Registry) : Call → Prop
  | .create _ _ resource _ _ => (registry.view? resource).isSome = true
  | _ => False

end Call

namespace Store

variable {store : Store} {now resource kind : String} {record : Record} {id other : Uuid}

/-! ## Storing a record -/

theorem record?_create_self :
    (store.create id now resource record).2.record? resource id = some (stamp id now record) := by
  simp [create, record?, update, Assoc.get?_put]

theorem record?_create_other (different : (kind, other) ≠ (resource, id)) :
    (store.create id now resource record).2.record? kind other = store.record? kind other := by
  by_cases same : kind = resource
  · have fresh : id ≠ other := fun e => different (by rw [same, e])
    simp [create, record?, update, same, Assoc.get?_put, fresh]
  · simp [create, record?, update, same]

theorem count_create (fresh : store.record? resource id = none) :
    (store.create id now resource record).2.count resource = store.count resource + 1 := by
  have absent := Assoc.get?_eq_none_iff.1 fresh
  have keys := Assoc.keys_put id (stamp id now record) (store.records resource)
  rw [if_neg absent] at keys
  simpa [Assoc.keys, count, create, update] using congrArg List.length keys

theorem follow?_create {segments : List String} :
    (store.create id now resource record).2.follow? kind segments = store.follow? kind segments := by
  induction segments generalizing kind with
  | nil => rfl
  | cons relation rest ih =>
    simp only [follow?, ih]
    rfl

end Store

namespace Api

/-- Serves a call at a state. -/
def serve {σ : Type} (api : Api σ) (state : σ) : Call → Except RequestError Envelope × σ
  | .list resource query => (api.list state resource query, state)
  | .get resource id query => (api.get state resource id query, state)
  | .create id now resource record query => api.create state id now resource record query

/-- The api of a store that is both the service and the gateway. -/
def overStore (registry : Registry) (limits : Limits) (budget : Option Nat) : Api Store :=
  ⟨registry, limits, budget, Store.service, Store.gateway⟩

variable {registry : Registry} {limits : Limits} {budget : Option Nat} {store : Store}
  {id : Uuid} {now resource : String} {record : Record} {query : Query} {view : View}

/-! ## Serving over a store -/

theorem create_unknown (unknown : registry.view? resource = none) :
    (overStore registry limits budget).create store id now resource record query =
      (.error (.failed (.unknownResource resource)), store) := by
  simp [create, Api.view, overStore, unknown]

theorem create_known (known : registry.view? resource = some view) :
    (overStore registry limits budget).create store id now resource record query =
      let (document, grown) := store.create id now resource record
      ((overStore registry limits budget).single grown resource document
        (ExpansionSet.ofDirectives view limits query.directives) view, grown) := by
  simp [create, expansionSet, Api.view, overStore, Store.service, known, bind, Except.bind, pure,
    Except.pure]

theorem populate_overStore {roots : List Document} {set : ExpansionSet} :
    (overStore registry limits budget).populate store roots set =
      (store.populate roots set).mapError (RequestError.ofUnfinished Failure.populate) := by
  show ((Reply.ofResult (store.populate roots set)).await budget).mapError _ = _
  cases store.populate roots set with
  | ok populated => rfl
  | error unfinished => cases unfinished <;> rfl

/-- Over a store, only what the population is refused for is answered as its failure. -/
theorem populate_overStore_failed_iff {roots : List Document} {set : ExpansionSet}
    {failure : Failure} :
    (overStore registry limits budget).populate store roots set = .error (.failed failure) ↔
      ∃ error, store.populate roots set = .error (.failed error) ∧ failure = .populate error := by
  rw [populate_overStore, mapError_eq_error_iff]
  constructor
  · rintro ⟨unfinished, refused, same⟩
    cases unfinished with
    | failed error =>
      cases same
      exact ⟨error, refused, rfl⟩
    | unsorted disorder => cases same
  · rintro ⟨error, refused, rfl⟩
    exact ⟨_, refused, rfl⟩

theorem envelope_ne_failed {root : RootResult} {url : String} {set : ExpansionSet}
    {failure : Failure} : envelope root url set view ≠ .error (.failed failure) := by
  unfold envelope
  cases Envelope.build root url set (some view) <;> exact nofun

/-- Answering with a document fails at the population or not at all; a page number may still be too
large. -/
theorem single_failed_iff {document : Document} {set : ExpansionSet} {failure : Failure} :
    (overStore registry limits budget).single store resource document set view =
        .error (.failed failure) ↔
      ∃ error, store.checkPaths document.kind set = .error error ∧ failure = .populate error := by
  rw [single, bind_eq_error_iff, populate_overStore_failed_iff]
  simp only [envelope_ne_failed, and_false, exists_false, or_false,
    Store.populate_singleton_failed_iff]

theorem create_error_iff (known : registry.view? resource = some view) {failure : Failure} :
    ((overStore registry limits budget).create store id now resource record query).1 =
        .error (.failed failure) ↔
      ∃ error, (store.create id now resource record).2.checkPaths resource
        (ExpansionSet.ofDirectives view limits query.directives) = .error error ∧
          failure = .populate error := by
  have kind : (store.create id now resource record).1.kind = resource := Store.kind_document _ _ _ _
  simp only [create_known known, single_failed_iff, kind]

theorem create_failed_iff (known : registry.view? resource = some view) :
    (∃ failure, ((overStore registry limits budget).create store id now resource record query).1 =
        .error (.failed failure)) ↔
      ∃ text ∈ query.directives, ∃ directive, Directive.Accepts view text directive ∧
        store.follow? resource directive.segments = none := by
  -- The relations are looked up after storing, but storing defines none.
  have allowed : (store.create id now resource record).2.checkPaths resource
        (ExpansionSet.ofDirectives view limits query.directives) = .ok () ↔
      ∀ text ∈ query.directives, ∀ directive, Directive.Accepts view text directive →
        (store.follow? resource directive.segments).isSome = true := by
    rw [Store.checkPaths_ofDirectives_eq_ok_iff]
    simp only [Store.follow?_create]
  simp only [create_error_iff known]
  constructor
  · rintro ⟨_, error, refused, -⟩
    have blocked := mt allowed.2 (ne_ok_iff.2 ⟨error, refused⟩)
    simp only [Classical.not_forall] at blocked
    obtain ⟨text, inside, directive, accepts, undefined⟩ := blocked
    exact ⟨text, inside, directive, accepts, by simpa using undefined⟩
  · rintro ⟨text, inside, directive, accepts, undefined⟩
    obtain ⟨error, refused⟩ := ne_ok_iff.1 fun passed => by
      simpa [undefined] using allowed.1 passed text inside directive accepts
    exact ⟨_, error, refused, rfl⟩

theorem create_failure (known : registry.view? resource = some view) {failure : Failure}
    (failed : ((overStore registry limits budget).create store id now resource record query).1 =
      .error (.failed failure)) :
    ∃ text ∈ query.directives, ∃ directive, Directive.Accepts view text directive ∧
      ∃ front relation kind, front ++ [relation] <+: directive.segments ∧
        store.follow? resource front = some kind ∧ store.relation? kind relation = none ∧
        failure = .populate (.unknownRelation kind relation) := by
  obtain ⟨error, refused, rfl⟩ := (create_error_iff known).1 failed
  obtain ⟨text, inside, directive, accepts, front, relation, kind, within, followed, undefined,
    rfl⟩ := Store.checkPaths_ofDirectives_eq_error refused
  rw [Store.follow?_create] at followed
  exact ⟨text, inside, directive, accepts, front, relation, kind, within, followed, undefined, rfl⟩

/-- What every call over a store leaves behind, whether it fails or not, and when and how a creation
fails that gets as far as storing. -/
theorem serve_exact (registry : Registry) (limits : Limits) (budget : Option Nat) (store : Store) :
    let api := overStore registry limits budget
    (∀ call, ¬ call.Stores registry → (api.serve store call).2 = store) ∧
    (∀ id now resource record query view, registry.view? resource = some view →
      let outcome := api.serve store (.create id now resource record query)
      (outcome.2.record? resource id = some (Store.stamp id now record) ∧
        (∀ kind other, (kind, other) ≠ (resource, id) →
          outcome.2.record? kind other = store.record? kind other) ∧
        (store.record? resource id = none →
          outcome.2.count resource = store.count resource + 1) ∧
        outcome.2.relations = store.relations ∧ outcome.2.links = store.links) ∧
      ((∃ failure, outcome.1 = .error (.failed failure)) ↔
        ∃ text ∈ query.directives, ∃ directive, Directive.Accepts view text directive ∧
          store.follow? resource directive.segments = none) ∧
      (∀ failure, outcome.1 = .error (.failed failure) →
        ∃ text ∈ query.directives, ∃ directive, Directive.Accepts view text directive ∧
          ∃ front relation kind, front ++ [relation] <+: directive.segments ∧
            store.follow? resource front = some kind ∧ store.relation? kind relation = none ∧
            failure = .populate (.unknownRelation kind relation))) := by
  refine ⟨fun call idle => ?_, fun id now resource record query view known => ?_⟩
  · cases call with
    | list resource query => rfl
    | get resource id query => rfl
    | create id now resource record query =>
      have unknown : registry.view? resource = none := by simpa [Call.Stores] using idle
      rw [serve, create_unknown unknown]
  · have stored : ((overStore registry limits budget).serve store
        (.create id now resource record query)).2 = (store.create id now resource record).2 := by
      rw [serve, create_known known]
    refine ⟨?_, create_failed_iff known, fun failure => create_failure known⟩
    rw [stored]
    exact ⟨Store.record?_create_self, fun _ _ => Store.record?_create_other, Store.count_create,
      rfl, rfl⟩

/-- Articles with tags, which a store need not define. -/
def articles : ResourceDecl where
  name := "articles"
  relations := [("tags", { route := some "/articles/:parentId/tags" })]
  distinct := ⟨by decide, trivial, trivial⟩

def articlesOnly : Config where
  resources := OrderedMap.ofList [("articles", articles)]

theorem depthOf?_articles (registry : Registry) : registry.depthOf? articles = some 1 := by
  simp [Registry.depthOf?, Registry.height?, Registry.chain?, articles]

theorem registry_articlesOnly :
    articlesOnly.registry = .ok (Registry.collect articlesOnly.declarations) := by
  have checked : [articles].forM
      (Registry.checkDepth (Registry.collect articlesOnly.declarations)) = .ok () := by
    refine forM_eq_ok_iff.2 fun resource mem => ?_
    rw [List.mem_singleton.1 mem, Registry.checkDepth, depthOf?_articles]
  exact bind_unit_eq_ok_iff.2 ⟨rfl, bind_unit_eq_ok_iff.2 ⟨checked, rfl⟩⟩

theorem view?_articlesOnly :
    (Registry.collect articlesOnly.declarations).view? "articles" =
      some ⟨Registry.collect articlesOnly.declarations, articles.relations, 1⟩ := by
  have found : (Registry.collect articlesOnly.declarations).resource? "articles" = some articles :=
    rfl
  rw [Registry.view?, found, Option.map_some, depthOf?_articles]
  rfl

theorem failed_create_keeps_record :
    let api := overStore (Registry.collect articlesOnly.declarations) {} none
    let outcome := api.serve Store.empty
      (.create (Uuid.ofRandom 1) "2024-01-01T00:00:00Z" "articles" [("title", .string "x")]
        { expand := some "tags" })
    Api.build articlesOnly (some Store.service) (some Store.gateway) = .ok api ∧
      outcome.1 = .error (.failed (.populate (.unknownRelation "articles" "tags"))) ∧
      outcome.2.count "articles" = 1 ∧ outcome.2 ≠ Store.empty := by
  intro api outcome
  have served : outcome = _ := create_known view?_articlesOnly
  have stored : outcome.2.count "articles" = 1 := by
    rw [served]
    rfl
  refine ⟨?_, ?_, stored, fun same => ?_⟩
  · rw [Api.build, registry_articlesOnly]
    rfl
  · rw [served]
    rfl
  · rw [same] at stored
    cases stored

end Api

end RelationExpansion
