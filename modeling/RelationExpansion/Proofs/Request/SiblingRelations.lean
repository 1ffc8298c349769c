import RelationExpansion.Proofs.Expansion.AlikeSets
import RelationExpansion.Proofs.Expansion.WrittenDirectives
import RelationExpansion.Proofs.Request.IncludedRelations
import RelationExpansion.Proofs.Store.Filtering

/-! # Relations side by side

What a response shows for a relation depends on the paths that begin with the relation and on nothing
else: directives for its siblings and the order in which directives come make no difference
(`directives_render_apart`).  Every path that is asked for below a relation begins with it, as long
as there is no dot in its name.
-/

namespace RelationExpansion

/-! ## Paths that begin with a relation -/

theorem Path.head?_segments_ofSegments {relation : String} (undotted : '.' ∉ relation.toList)
    (names : List String) : (ofSegments (relation :: names)).segments.head? = some relation := by
  cases names with
  | nil => simp [ofSegments, segments, Text.joinWith, Text.cutEvery_of_not_mem undotted]
  | cons next rest =>
    simp [ofSegments, segments, Text.joinWith, Text.cutEvery_append_mark undotted]

namespace ExpansionSet

variable {left right : ExpansionSet} {relation : String}

/-- Whether two sets answer alike for every path that begins with a relation. -/
def AlikeUnder (relation : String) (left right : ExpansionSet) : Prop :=
  ∀ path, path.segments.head? = some relation → left.get? path = right.get? path

theorem AlikeUnder.child?_eq (alike : AlikeUnder relation left right)
    (undotted : '.' ∉ relation.toList) : left.child? [] relation = right.child? [] relation :=
  alike _ (Path.head?_segments_ofSegments undotted [])

theorem AlikeUnder.alikeFrom (alike : AlikeUnder relation left right)
    (undotted : '.' ∉ relation.toList) : AlikeFrom [relation] left right :=
  fun names _ => alike _ (Path.head?_segments_ofSegments undotted names)

end ExpansionSet

open ExpansionSet (AlikeUnder)

/-! ## Fields of a rendered document -/

section Fields

variable {projector other : Projector} {parent : Option String} {name : String}
  {document changed : Document} {shown shown' : Json}

theorem get?_projectRelations_eq_none {done : List String} {relations : List (String × Related)}
    {nodes : List (String × Json)} (absent : Assoc.get? name relations = none)
    (projected : projectRelations projector parent done relations = .ok nodes) :
    Assoc.get? name nodes = none := by
  rw [Assoc.get?_eq_none_iff] at absent ⊢
  rw [keys_projectRelations_eq projected, List.mem_eraseDups, List.mem_filter]
  exact fun named => absent named.1

namespace Document

/-- A field that is no relation is the identifier or an attribute. -/
theorem field_of_projectEntity (projected : projectEntity projector document.entity = .ok shown)
    (absent : Assoc.get? name document.relations = none) :
    ∃ members, shown = .object members ∧ Assoc.get? name members =
      Assoc.get? name (Assoc.putAll [("id", .string document.id.text)] document.attributes) := by
  obtain ⟨kind, id, attributes, relations⟩ := document
  rw [Document.entity, Document.wire, projectEntity] at projected
  obtain ⟨nodes, made, projected⟩ := bind_eq_ok_iff.1 projected
  cases projected
  have unrelated : Assoc.get? name (slotEntities relations) = none := by
    rw [slotEntities_eq_map, Assoc.get?_map fun _ => Slot.related, absent, Option.map_none]
  have unwired : Assoc.get? name (slotWires relations) = none := by
    rw [slotWires_eq_map, Assoc.get?_map fun _ => Slot.wire, absent, Option.map_none]
  refine ⟨_, rfl, ?_⟩
  rw [Assoc.get?_putAll_of_not_mem
      (Assoc.get?_eq_none_iff.1 (get?_projectRelations_eq_none unrelated made)),
    Assoc.get?_putAll_of_not_mem (Assoc.get?_eq_none_iff.1 unwired)]

/-- Two documents that differ in other slots at most have the same field, if its slot is rendered
alike. -/
theorem field_congr (projected : projectEntity projector document.entity = .ok shown)
    (projected' : projectEntity other changed.entity = .ok shown')
    (id : document.id = changed.id) (attributes : document.attributes = changed.attributes)
    (slots : Assoc.get? name document.relations = Assoc.get? name changed.relations)
    (alike : ∀ slot, Assoc.get? name document.relations = some slot → ∀ parent,
      projector.relationNode parent name slot.related =
        other.relationNode parent name slot.related) :
    ∃ members others, shown = .object members ∧ shown' = .object others ∧
      Assoc.get? name members = Assoc.get? name others := by
  cases held : Assoc.get? name document.relations with
  | none =>
    obtain ⟨members, whole, field⟩ := field_of_projectEntity projected held
    obtain ⟨others, whole', field'⟩ := field_of_projectEntity projected' (slots ▸ held)
    exact ⟨members, others, whole, whole', by rw [field, field', id, attributes]⟩
  | some slot =>
    obtain ⟨members, node, whole, field, made⟩ := node_of_projectEntity projected held
    obtain ⟨others, node', whole', field', made'⟩ := node_of_projectEntity projected' (slots ▸ held)
    rw [alike slot held, id, made'] at made
    cases made
    exact ⟨members, others, whole, whole', field.trans field'.symm⟩

end Document

end Fields

theorem Store.slot_attached_eq_none {store : Store} {set : ExpansionSet} {stack : List String}
    {kind : String} {id : Uuid} {record : Record} {grown : Document}
    (made : store.attached set stack kind id record = .ok grown)
    (undefined : store.relation? kind name = none) : Assoc.get? name grown.relations = none := by
  have unloaded : name ∉ Assoc.keys (store.referenceSlots kind id) := by
    rw [referenceSlots, Assoc.keys_map (store.referenceSlot kind id)]
    exact Assoc.get?_eq_none_iff.1 undefined
  have unrequested : store.Unrequested set stack (store.document kind id record).kind name := by
    intro definition defined
    rw [kind_document, undefined] at defined
    cases defined
  rw [slot_attach_unrequested made unrequested, document_eq, Assoc.get?_putAll_of_not_mem unloaded]
  rfl

/-! ## Requests -/

namespace Api

variable {registry : Registry} {limits : Limits} {budget : Option Nat} {store : Store}
  {resource : String} {id : Uuid} {query : Query} {envelope : Envelope} {set : ExpansionSet}

theorem expansionSet_eq_ok_iff :
    (overStore registry limits budget).expansionSet resource query = .ok set ↔
      ∃ view, registry.view? resource = some view ∧
        set = ExpansionSet.ofDirectives view limits query.directives := by
  rw [expansionSet, bind_eq_ok_iff]
  cases known : registry.view? resource with
  | none => simp [Api.view, overStore, known]
  | some view => simp [Api.view, overStore, known, pure, Except.pure, eq_comm]

/-- One field of a record, fetched with two sets that answer alike for the paths that begin with
it. -/
theorem field_of_attached {left right : ExpansionSet} {view : View} {name : String}
    {record : Record} {shown shown' : Json}
    (undotted : ∀ definition, store.relation? resource name = some definition →
      '.' ∉ name.toList) (alike : AlikeUnder name left right)
    {grown grown' : Document} (attaches : store.attached left [] resource id record = .ok grown)
    (attaches' : store.attached right [] resource id record = .ok grown')
    (projected : projectEntity ⟨left, some (view.depth - 1), some view, []⟩ grown.entity =
      .ok shown)
    (projected' : projectEntity ⟨right, some (view.depth - 1), some view, []⟩ grown'.entity =
      .ok shown') :
    ∃ members others, shown = .object members ∧ shown' = .object others ∧
      Assoc.get? name members = Assoc.get? name others := by
  have same : grown.id = grown'.id :=
    (Store.id_attached attaches).trans (Store.id_attached attaches').symm
  have attributes : grown.attributes = grown'.attributes :=
    (Store.attributes_attached attaches).trans (Store.attributes_attached attaches').symm
  cases defined : store.relation? resource name with
  | none =>
    have without := Store.slot_attached_eq_none attaches defined
    refine Document.field_congr projected projected' same attributes ?_ ?_
    · rw [without, Store.slot_attached_eq_none attaches' defined]
    · simp [without]
  | some definition =>
    have free := undotted definition defined
    have asked := alike.child?_eq free
    have below := alike.alikeFrom free
    refine Document.field_congr projected projected' same attributes
      (Store.slot_attach_congr asked below attaches attaches') fun slot _ parent => ?_
    let one : Projector := ⟨left, some (view.depth - 1), some view, []⟩
    let other : Projector := ⟨right, some (view.depth - 1), some view, []⟩
    have requested : one.selection? name = other.selection? name := asked
    have under : (one.descend name).Alike (other.descend name) := ⟨rfl, rfl, rfl, below.below _⟩
    exact relationNode_congr (by rfl) requested under slot.related

/-- The field of a relation is what the paths that begin with it make it, and sets that answer alike
do the same in whatever order their entries came. -/
theorem directives_render_apart (registry : Registry) (limits : Limits) (budget : Option Nat)
    (store : Store) :
    let api := overStore registry limits budget
    (∀ resource, (∀ relation definition, store.relation? resource relation = some definition →
        '.' ∉ relation.toList) →
      ∀ name first second left right, api.expansionSet resource first = .ok left →
        api.expansionSet resource second = .ok right → AlikeUnder name left right →
        ∀ id one other, api.get store resource id first = .ok one →
          api.get store resource id second = .ok other →
          ∃ members others, one.data = .object members ∧ other.data = .object others ∧
            Assoc.get? name members = Assoc.get? name others) ∧
    ∀ left right : ExpansionSet, (∀ path, left.get? path = right.get? path) →
      (∀ roots populated,
        store.populate roots left = .ok populated ↔ store.populate roots right = .ok populated) ∧
      ∀ ceiling schema stack,
        (∀ entity, projectEntity ⟨left, ceiling, schema, stack⟩ entity =
          projectEntity ⟨right, ceiling, schema, stack⟩ entity) ∧
        ∀ entities, projectAll ⟨left, ceiling, schema, stack⟩ entities =
          projectAll ⟨right, ceiling, schema, stack⟩ entities := by
  intro api
  refine ⟨?field, fun left right same => ⟨fun _ _ => Store.populate_congr same, ?project⟩⟩
  case project =>
    intro ceiling schema stack
    have alike : (⟨left, ceiling, schema, stack⟩ : Projector).Alike
        ⟨right, ceiling, schema, stack⟩ :=
      ⟨rfl, rfl, rfl, ExpansionSet.alikeFrom_of_get?_eq same stack⟩
    exact ⟨projectEntity_congr alike, projectAll_congr alike⟩
  case field =>
    intro resource undotted name first second left right readFirst readSecond alike id one other
      fetchedOne fetchedOther
    obtain ⟨view, known, rfl⟩ := expansionSet_eq_ok_iff.1 readFirst
    obtain ⟨_, known', rfl⟩ := expansionSet_eq_ok_iff.1 readSecond
    cases known.symm.trans known'
    obtain ⟨record, there⟩ := exists_record_of_get fetchedOne
    obtain ⟨-, grown, shown, attaches, projected, rfl⟩ := (get_eq_ok_iff known there).1 fetchedOne
    obtain ⟨-, grown', shown', attaches', projected', rfl⟩ :=
      (get_eq_ok_iff known there).1 fetchedOther
    exact field_of_attached (undotted name) alike attaches attaches' projected projected'

/-! ## An example -/

/-- The second tag of an article, with its author and without. -/
theorem directives_render_apart_blog :
    let api := overStore (Registry.collect [WrittenDirective.magazine]) {} none
    let first : Query := { expand := some "tags:per_page(1):page(2)" }
    let second : Query := { expand := some "author,tags:page(2):per_page(1)" }
    ∃ left right one other, api.expansionSet "articles" first = .ok left ∧
      api.expansionSet "articles" second = .ok right ∧ AlikeUnder "tags" left right ∧
      left.keys = [⟨"tags"⟩] ∧ right.keys = [⟨"author"⟩, ⟨"tags"⟩] ∧
      api.get Store.blog "articles" (Uuid.ofRandom 3) first = .ok one ∧
      api.get Store.blog "articles" (Uuid.ofRandom 3) second = .ok other ∧
      ∃ members others, one.data = .object members ∧ other.data = .object others ∧
        Assoc.get? "tags" members = Assoc.get? "tags" others := by
  intro api first second
  let view := WrittenDirective.magazineView
  let left := ExpansionSet.ofDirectives view {} first.directives
  let right := ExpansionSet.ofDirectives view {} second.directives
  have known := WrittenDirective.build_magazine.2
  have there : Store.blog.record? "articles" (Uuid.ofRandom 3) =
      some (Store.stamp (Uuid.ofRandom 3) "2024-01-03T00:00:00Z" [("title", .string "Hello")]) := rfl
  have readFirst : api.expansionSet "articles" first = .ok left :=
    expansionSet_eq_ok_iff.2 ⟨view, known, rfl⟩
  have readSecond : api.expansionSet "articles" second = .ok right :=
    expansionSet_eq_ok_iff.2 ⟨view, known, rfl⟩
  have lefts : left.entries = [(⟨"tags"⟩, { limit := 1, skip := 1 })] := rfl
  have rights : right.entries =
      [(⟨"author"⟩, { limit := 20 }), (⟨"tags"⟩, { limit := 1, skip := 1 })] := rfl
  have alike : AlikeUnder "tags" left right := by
    intro path begins
    have other : (⟨"author"⟩ : Path) ≠ path := by
      rintro rfl
      exact absurd begins (by decide)
    rw [OrderedMap.get?, OrderedMap.get?, lefts, rights]
    simp [Assoc.get?, other]
  obtain ⟨one, fetchedOne⟩ : ∃ envelope, api.get Store.blog "articles" (Uuid.ofRandom 3) first =
      .ok envelope :=
    exists_get view _ known there (by decide +kernel) (by decide +kernel)
  obtain ⟨other, fetchedOther⟩ : ∃ envelope,
      api.get Store.blog "articles" (Uuid.ofRandom 3) second = .ok envelope :=
    exists_get view _ known there (by decide +kernel) (by decide +kernel)
  have undotted : ∀ relation definition, Store.blog.relation? "articles" relation =
      some definition → '.' ∉ relation.toList := by
    intro relation definition defined
    have named : relation ∈ Assoc.keys (Store.blog.relations "articles") :=
      Assoc.get?_isSome.1 (Option.isSome_of_eq_some defined)
    have names : ∀ name ∈ Assoc.keys (Store.blog.relations "articles"), '.' ∉ name.toList := by
      decide
    exact names relation named
  refine ⟨left, right, one, other, readFirst, readSecond, alike, ?_, ?_, fetchedOne, fetchedOther,
    (directives_render_apart _ {} none Store.blog).1 "articles" undotted "tags" first second left
      right readFirst readSecond alike _ one other fetchedOne fetchedOther⟩
  · rw [OrderedMap.keys, lefts]
    rfl
  · rw [OrderedMap.keys, rights]
    rfl

end Api

end RelationExpansion
