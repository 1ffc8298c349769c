import RelationExpansion.Proofs.Request.IncludedRelations

/-! # What a created record changes

A request that creates a record answers like a fetch of the record that follows it.  The new record
comes last, and it cannot be seen from any other: links lead only to records that were there before
(`create_exact`).
-/

namespace RelationExpansion

/-! ## The stored fields -/

/-- The fields of a record that was posted, with the identifier that it was given and a time of
creation. -/
structure Record.IsStamped (posted : Record) (id : Uuid) (now : String) (stored : Record) :
    Prop where
  identifier : Assoc.get? "id" stored = some (.string id.text)
  created : Assoc.get? "created_at" stored =
    some ((Assoc.get? "created_at" posted).getD (.string now))
  others : ∀ name, name ≠ "id" → name ≠ "created_at" →
    Assoc.get? name stored = Assoc.get? name posted
  names : Assoc.keys stored = Assoc.keys posted ++
    (if "id" ∈ Assoc.keys posted then [] else ["id"]) ++
    (if "created_at" ∈ Assoc.keys posted then [] else ["created_at"])

theorem Store.isStamped_stamp (id : Uuid) (now : String) (posted : Record) :
    Record.IsStamped posted id now (stamp id now posted) := by
  let identified := Assoc.put "id" (.string id.text) posted
  have read : ∀ name, Assoc.get? name identified =
      if "id" = name then some (.string id.text) else Assoc.get? name posted :=
    fun name => Assoc.get?_put "id" name _ posted
  have kept : Assoc.get? "created_at" identified = Assoc.get? "created_at" posted :=
    read "created_at"
  have names : Assoc.keys identified =
      Assoc.keys posted ++ if "id" ∈ Assoc.keys posted then [] else ["id"] := by
    rw [Assoc.keys_put]
    split <;> simp
  cases given : Assoc.get? "created_at" posted with
  | some time =>
    have present : "created_at" ∈ Assoc.keys posted :=
      Assoc.get?_isSome.1 (Option.isSome_of_eq_some given)
    have stamped : stamp id now posted = identified := by
      simp only [stamp, identified, kept.trans given]
    rw [stamped]
    refine ⟨read "id", by rw [kept, given]; rfl, fun name named _ => ?_, by simp [names, present]⟩
    exact (read name).trans (if_neg (Ne.symm named))
  | none =>
    have absent : "created_at" ∉ Assoc.keys posted := Assoc.get?_eq_none_iff.1 given
    have stamped : stamp id now posted = Assoc.put "created_at" (.string now) identified := by
      simp only [stamp, identified, kept.trans given]
    have new : "created_at" ∉ Assoc.keys identified :=
      Assoc.get?_eq_none_iff.1 (kept.trans given)
    rw [stamped]
    refine ⟨?_, ?_, fun name named timed => ?_, ?_⟩
    · rw [Assoc.get?_put]
      exact read "id"
    · rw [Assoc.get?_put, given]
      rfl
    · rw [Assoc.get?_put, if_neg (Ne.symm timed), read name, if_neg (Ne.symm named)]
    · rw [Assoc.keys_put, if_neg new, names, if_neg absent]

/-! ## Stores that are read alike -/

namespace Store

/-- Whether two stores define the same relations and lead by the same links to the same records.
There may be further records that nothing links to. -/
structure LeadsAlike (left right : Store) : Prop where
  relations : left.relations = right.relations
  links : left.links = right.links
  records : ∀ key, ∀ target ∈ left.links key, ∀ kind,
    left.record? kind target = right.record? kind target

namespace LeadsAlike

variable {left right : Store} {set : ExpansionSet} (alike : left.LeadsAlike right)

include alike

theorem document_eq (kind : String) (id : Uuid) (record : Record) :
    left.document kind id record = right.document kind id record := by
  simp only [document, referenceSlot, alike.relations, alike.links]

theorem find?_eq {kind : String} {id : Uuid} (same : left.record? kind id = right.record? kind id) :
    left.find? kind id = right.find? kind id := by
  rw [find?, find?, same, funext (alike.document_eq kind id)]

theorem linkedRecords_eq (kind : String) (id : Uuid) (relation target : String) :
    left.linkedRecords kind id relation target = right.linkedRecords kind id relation target := by
  rw [linkedRecords, linkedRecords, ← alike.links]
  refine List.filterMap_congr fun linked mem => ?_
  rw [alike.records _ linked mem]

theorem checkPaths_eq (kind : String) (set : ExpansionSet) :
    left.checkPaths kind set = right.checkPaths kind set := by
  have segments : ∀ kind segments,
      left.checkSegments kind segments = right.checkSegments kind segments := by
    intro kind segments
    induction segments generalizing kind with
    | nil => rfl
    | cons segment rest ih => simp only [checkSegments, relation?, alike.relations, ih]
  rw [checkPaths, checkPaths, funext fun path : Path => segments kind path.segments]

theorem attach_eq (stack : List String) (document : Document) :
    left.attach set stack document = right.attach set stack document := by
  have slots : left.requestedSlot set stack document.kind document.id =
      right.requestedSlot set stack document.kind document.id := by
    funext relation definition
    rw [requestedSlot, requestedSlot, alike.linkedRecords_eq]
    cases asked : set.child? stack relation with
    | none => rfl
    | some selection =>
      -- The stack grows only where the set asks for a relation, which it does not do for ever.
      have short := ExpansionSet.length_lt_maxDepth asked
      have children : left.attached set (stack ++ [relation]) definition.target =
          right.attached set (stack ++ [relation]) definition.target := by
        funext id record
        rw [attached, attached, alike.document_eq]
        exact attach_eq _ _
      rw [Option.map_some, Option.map_some, children]
  rw [attach_eq_foldlM, attach_eq_foldlM, slots, alike.relations]
termination_by set.maxDepth - stack.length
decreasing_by
  simp only [List.length_append, List.length_singleton]
  omega

theorem populate_eq (roots : List Document) : left.populate roots set = right.populate roots set := by
  have attached : left.attach set [] = right.attach set [] := funext (alike.attach_eq [])
  have checked : (fun root : Document => left.checkPaths root.kind set) =
      fun root => right.checkPaths root.kind set :=
    funext fun root => alike.checkPaths_eq root.kind set
  rw [populate, populate, attached, checked]

end LeadsAlike

/-! ## Creating a record -/

/-- What storing a record changes. -/
structure AddsRecord (before after : Store) (kind : String) (id : Uuid) (stored : Record) :
    Prop where
  records : after.records kind = before.records kind ++ [(id, stored)]
  others : ∀ other, other ≠ kind → after.records other = before.records other
  relations : after.relations = before.relations
  links : after.links = before.links

variable {store : Store} {kind : String} {id : Uuid}

theorem addsRecord_create (now : String) (record : Record) (fresh : store.record? kind id = none) :
    store.AddsRecord (store.create id now kind record).2 kind id (stamp id now record) where
  records := by
    have absent := Assoc.get?_eq_none_iff.1 fresh
    simp [create, update, Assoc.put_of_not_mem absent]
  others other different := by simp [create, update, different]
  relations := rfl
  links := rfl

/-- The identifier of a record that a command creates. -/
def Command.created? : Command → Option Uuid
  | .create id _ _ _ => some id
  | _ => none

/-- Every record of a run was created by one of its commands. -/
theorem mem_created_of_record? {commands : List Command}
    (there : ((empty.run commands).record? kind id).isSome = true) :
    id ∈ commands.filterMap Command.created? := by
  induction commands using List.reverseRecOn with
  | nil => cases there
  | append_singleton commands command ih =>
    rw [List.filterMap_append, List.mem_append]
    rw [run_concat] at there
    cases command with
    | define => exact .inl (ih there)
    | create new now created record =>
      by_cases same : (kind, id) = (created, new)
      · obtain ⟨-, rfl⟩ := Prod.mk.inj same
        exact .inr (List.mem_singleton_self _)
      · rw [perform, record?_create_other same] at there
        exact .inl (ih there)
    | link source sourceId relation target =>
      rw [perform] at there
      split at there
      · rename_i linked made
        obtain ⟨_, -, -, -, rfl⟩ := link_eq_ok_iff.1 made
        exact .inl (ih there)
      · exact .inl (ih there)

/-- Nothing links to a record that is not there yet. -/
theorem leadsAlike_create (commands : List Command) (now : String) (record : Record)
    (fresh : ∀ kind, (empty.run commands).record? kind id = none) :
    ((empty.run commands).create id now kind record).2.LeadsAlike (empty.run commands) where
  relations := rfl
  links := rfl
  records key target linked other := by
    obtain ⟨_, earlier, -, -, there⟩ := target_run linked
    refine record?_create_other fun new => ?_
    rw [(Prod.mk.inj new).2, fresh] at there
    cases there

end Store

/-! ## Requests -/

namespace Api

variable {registry : Registry} {limits : Limits} {budget : Option Nat} {left right : Store}

/-- A record that two stores both hold is fetched alike if they lead alike. -/
theorem get_eq_of_leadsAlike (alike : left.LeadsAlike right) {kind : String} {id : Uuid}
    (same : left.record? kind id = right.record? kind id) (query : Query) :
    (overStore registry limits budget).get left kind id query =
      (overStore registry limits budget).get right kind id query := by
  have singles : ∀ document set view,
      (overStore registry limits budget).single left kind document set view =
        (overStore registry limits budget).single right kind document set view := by
    intro document set view
    rw [single, single, populate_overStore, populate_overStore, alike.populate_eq]
  simp only [get, singles]
  simp only [overStore, Store.service, alike.find?_eq same]

theorem create_eq_get {view : View} {store : Store} {id : Uuid} {now resource : String}
    {record : Record} {query : Query} (known : registry.view? resource = some view) :
    let created := (overStore registry limits budget).create store id now resource record query
    created.1 = (overStore registry limits budget).get created.2 resource id query := by
  intro created
  have served : created = _ := create_known known
  rw [served]
  exact (get_known known Store.record?_create_self).symm

/-- What a request that creates a record answers and what it leaves behind, for an identifier that no
record has yet. -/
theorem create_exact (registry : Registry) (limits : Limits) (budget : Option Nat)
    (commands : List Store.Command) (id : Uuid)
    (fresh : ∀ kind, (Store.empty.run commands).record? kind id = none) :
    let store := Store.empty.run commands
    let api := overStore registry limits budget
    ∀ resource, (registry.view? resource).isSome = true → ∀ now record query,
      let outcome := api.create store id now resource record query
      outcome.1 = api.get outcome.2 resource id query ∧
      (∃ stored, Record.IsStamped record id now stored ∧
        store.AddsRecord outcome.2 resource id stored) ∧
      ∀ kind other query, (store.record? kind other).isSome = true →
        api.get outcome.2 kind other query = api.get store kind other query := by
  intro store api resource known now record query outcome
  obtain ⟨view, known⟩ := Option.isSome_iff_exists.1 known
  have grown : outcome.2 = (store.create id now resource record).2 := by
    simp only [outcome, api, create_known known]
  refine ⟨create_eq_get known, ?_, fun kind other query there => ?_⟩
  · rw [grown]
    exact ⟨_, Store.isStamped_stamp id now record,
      Store.addsRecord_create now record (fresh resource)⟩
  · have different : (kind, other) ≠ (resource, id) := by
      intro same
      rw [(Prod.mk.inj same).2, fresh] at there
      cases there
    rw [grown]
    exact get_eq_of_leadsAlike (Store.leadsAlike_create commands now record fresh)
      (Store.record?_create_other different) query

/-- An article that is posted with an identifier of its own, and the article that was there. -/
theorem create_exact_blog :
    let store := Store.empty.run Store.blogCommands
    let id := Uuid.ofRandom 5
    let api := overStore (Registry.collect articlesOnly.declarations) {} none
    let query : Query := { expand := some "tags" }
    let record : Record := [("id", .string "mine"), ("title", .string "Again")]
    let outcome := api.create store id "2024-01-05T00:00:00Z" "articles" record query
    (∀ kind, store.record? kind id = none) ∧
      (∃ envelope, outcome.1 = .ok envelope ∧ api.get outcome.2 "articles" id query = .ok envelope) ∧
      (∃ stored, Record.IsStamped record id "2024-01-05T00:00:00Z" stored ∧
        store.AddsRecord outcome.2 "articles" id stored) ∧
      api.get outcome.2 "articles" (Uuid.ofRandom 3) query =
        api.get store "articles" (Uuid.ofRandom 3) query := by
  intro store id api query record outcome
  have fresh : ∀ kind, store.record? kind id = none := by
    have new : id ∉ Store.blogCommands.filterMap Store.Command.created? := by decide
    intro kind
    by_contra there
    exact new (Store.mem_created_of_record? (Option.isSome_iff_ne_none.2 there))
  have known := view?_articlesOnly
  obtain ⟨answer, added, others⟩ := create_exact _ {} none Store.blogCommands id fresh "articles"
    (Option.isSome_of_eq_some known) "2024-01-05T00:00:00Z" record query
  let view : View := ⟨Registry.collect articlesOnly.declarations, articles.relations, 1⟩
  let set := ExpansionSet.ofDirectives view {} query.directives
  let grown := (store.create id "2024-01-05T00:00:00Z" "articles" record).2
  let stored := Store.stamp id "2024-01-05T00:00:00Z" record
  have there : grown.record? "articles" id = some stored := Store.record?_create_self
  have followed : ∀ path ∈ set.keys, (grown.follow? "articles" path.segments).isSome = true := by
    decide +kernel
  have rendered : ((grown.attached set [] "articles" id stored).toOption.bind fun whole =>
      (projectEntity (Envelope.projectorOf view {} query.directives)
        whole.entity).toOption).isSome = true := by
    decide +kernel
  have changed : outcome.2 = grown := by
    simp only [outcome, api, create_known known, grown]
  obtain ⟨envelope, fetched⟩ : ∃ envelope, api.get grown "articles" id query = .ok envelope :=
    exists_get view stored known there followed rendered
  have fetched : api.get outcome.2 "articles" id query = .ok envelope := by rwa [changed]
  exact ⟨fresh, ⟨envelope, answer.trans fetched, fetched⟩, added,
    others "articles" (Uuid.ofRandom 3) query (by decide +kernel)⟩

end Api

end RelationExpansion
