import RelationExpansion.Projection.Projection
import RelationExpansion.Proofs.Store.Slots

/-! # The window of a page

A list of items may be a page that its source has cut already, or the whole collection.  The window
is chosen from the lengths alone: a cut page is left as it is (`windowOf_page`), and the whole
collection is cut to the page that a store would have given (`windowOf_whole`).  So a relation is
rendered alike whether its page was cut by the store or is cut by the projection.
-/

namespace RelationExpansion

variable {α : Type u} {selection : Selection}

/-- The items that lie in the window. -/
def windowOf (items : List α) (total : Nat) (selection : Selection) : Except Overflow (List α) :=
  (pageWindow items.length total selection).map fun window =>
    (items.drop window.1).take window.2

/-- How many items are left out in front. -/
def windowStart (length total : Nat) (selection : Selection) : Nat :=
  if length = total then min selection.skip length else 0

theorem pageWindow_eq {length total : Nat}
    (fits : windowStart length total selection + selection.limit ≤ Count.largest) :
    pageWindow length total selection = .ok (windowStart length total selection,
      min (windowStart length total selection + selection.limit) length -
        windowStart length total selection) := by
  have stop : Count.add (windowStart length total selection) selection.limit =
      .ok (windowStart length total selection + selection.limit) :=
    Count.add_eq_ok_iff.2 ⟨fits, rfl⟩
  unfold windowStart at stop ⊢
  rw [pageWindow, stop]
  rfl

theorem windowOf_eq {items : List α} {total : Nat}
    (fits : windowStart items.length total selection + selection.limit ≤ Count.largest) :
    windowOf items total selection =
      .ok ((items.drop (windowStart items.length total selection)).take selection.limit) := by
  rw [windowOf, pageWindow_eq fits]
  -- The end of the window is cut back to the length of the list, which takes the same items.
  refine congrArg Except.ok (List.take_eq_take_iff.2 ?_)
  rw [List.length_drop]
  omega

/-! ## Cut and uncut lists -/

/-- Only a page that starts with the first item can be as long as the whole collection, so nothing
is left out a second time. -/
theorem windowOf_page {items : List α} (granted : selection.limit ≤ Count.largest) :
    windowOf ((items.drop selection.skip).take selection.limit) items.length selection =
      .ok ((items.drop selection.skip).take selection.limit) := by
  have length : ((items.drop selection.skip).take selection.limit).length =
      min selection.limit (items.length - selection.skip) := by simp
  have start : windowStart ((items.drop selection.skip).take selection.limit).length items.length
      selection = 0 := by
    rw [length, windowStart]
    split <;> omega
  rw [windowOf_eq (by rwa [start, Nat.zero_add]), start, List.drop_zero, List.take_take,
    Nat.min_self]

theorem windowOf_whole {items : List α}
    (fits : min selection.skip items.length + selection.limit ≤ Count.largest) :
    windowOf items items.length selection =
      .ok ((items.drop selection.skip).take selection.limit) := by
  have start : windowStart items.length items.length selection = min selection.skip items.length :=
    if_pos rfl
  rw [windowOf_eq (by rwa [start]), start]
  rcases Nat.le_total selection.skip items.length with inside | beyond
  · rw [Nat.min_eq_left inside]
  · rw [Nat.min_eq_right beyond, List.drop_length, List.drop_of_length_le beyond]

/-! ## Rendering a relation -/

/-- The node that a relation of an entity is replaced by. -/
def Projector.relationNode (projector : Projector) (parent : Option String) (relation : String)
    (related : Related) : Except Overflow Node :=
  projector.node parent relation related fun selection =>
    projectRelated (projector.descend relation) selection related

theorem projectWindow_eq_mapM (projector : Projector) (items : List Entity) (skip take : Nat) :
    projectWindow projector skip take items =
      ((items.drop skip).take take).mapM (projectEntity projector) := by
  induction items generalizing skip take with
  | nil => rw [projectWindow, List.drop_nil, List.take_nil]; rfl
  | cons item rest ih =>
    cases skip with
    | succ skip => rw [projectWindow, ih, List.drop_succ_cons]
    | zero =>
      cases take with
      | zero => rw [projectWindow]; rfl
      | succ take =>
        rw [projectWindow, ih, List.drop_zero, List.drop_zero, List.take_succ_cons, List.mapM_cons]
        rfl

theorem projectRelated_many (projector : Projector) (items : List Entity) (total : Option Nat) :
    projectRelated projector selection (.many items total) =
      (windowOf items (total.getD items.length) selection).bind fun shown =>
        (shown.mapM (projectEntity projector)).map .array := by
  rw [projectRelated, windowOf]
  cases pageWindow items.length (total.getD items.length) selection with
  | error error => rfl
  | ok window =>
    simp only [projectWindow_eq_mapM]
    rfl

/-- A relation of which the page is given with the size of the whole is rendered as the whole
relation is. -/
theorem relationNode_page_eq_whole {projector : Projector} {parent : Option String}
    {relation : String} {items : List Entity}
    (requested : projector.selection? relation = some selection)
    (fits : min selection.skip items.length + selection.limit ≤ Count.largest) :
    projector.relationNode parent relation
        (.many ((items.drop selection.skip).take selection.limit) (some items.length)) =
      projector.relationNode parent relation (.many items none) := by
  have page : windowOf ((items.drop selection.skip).take selection.limit) items.length selection =
      .ok ((items.drop selection.skip).take selection.limit) := windowOf_page (by omega)
  have whole := windowOf_whole fits
  have data : projectRelated (projector.descend relation) selection
        (.many ((items.drop selection.skip).take selection.limit) (some items.length)) =
      projectRelated (projector.descend relation) selection (.many items none) := by
    rw [projectRelated_many, projectRelated_many, Option.getD_some, Option.getD_none, page, whole]
  simp only [Projector.relationNode, Projector.node, requested, data]
  rfl

/-! ## Pages of a store -/

theorem itemEntities_eq_map (items : List Item) : itemEntities items = items.map Item.entity := by
  induction items with
  | nil => rfl
  | cons item rest ih => rw [itemEntities, ih, List.map_cons]

namespace Selection

theorem arrange_plain (unfiltered : selection.filter = none) (unsorted : selection.sort = none)
    (records : List (Uuid × Record)) : selection.arrange records = .ok records := by
  simp [arrange, unfiltered, unsorted]

/-- The page that a store selects is shown as it is.  Where nothing is filtered or sorted, it is
also what is shown of all the records, and the relation is rendered alike from either. -/
theorem select_windows_alike (selection : Selection) (candidates : List (Uuid × Record))
    (granted : selection.limit ≤ Count.largest) :
    (∀ page total, selection.select candidates = .ok (page, total) →
      windowOf page total selection = .ok page) ∧
    (selection.filter = none → selection.sort = none →
      min selection.skip candidates.length + selection.limit ≤ Count.largest →
      ∃ page, selection.select candidates = .ok (page, candidates.length) ∧
        windowOf candidates candidates.length selection = .ok page ∧
        ∀ (projector : Projector) (parent : Option String) (relation target : String)
          (child : Uuid → Record → Except Disorder Document)
          (document : Uuid → Record → Document),
          (∀ entry ∈ candidates, child entry.1 entry.2 = .ok (document entry.1 entry.2)) →
          projector.selection? relation = some selection →
          ∃ slot, Store.populatedSlot ⟨target, .many⟩ selection candidates child = .ok slot ∧
            projector.relationNode parent relation slot.related =
              projector.relationNode parent relation
                (Slot.many (candidates.map fun entry => .document (document entry.1 entry.2))
                  none).related) := by
  refine ⟨fun page total selects => ?_, fun unfiltered unsorted fits => ?_⟩
  · obtain ⟨arranged, -, rfl, rfl⟩ := select_eq_ok_iff.1 selects
    exact windowOf_page granted
  let page := (candidates.drop selection.skip).take selection.limit
  have selects : selection.select candidates = .ok (page, candidates.length) :=
    select_eq_ok_iff.2 ⟨candidates, arrange_plain unfiltered unsorted candidates, rfl, rfl⟩
  refine ⟨page, selects, windowOf_whole fits,
    fun projector parent relation target child document made asked => ?_⟩
  let entities := candidates.map fun entry => (document entry.1 entry.2).entity
  have children : List.Forall₂ (fun entry document => child entry.1 entry.2 = .ok document) page
      (page.map fun entry => document entry.1 entry.2) :=
    List.forall₂_map_right_iff.2 <| List.forall₂_same.2 fun entry mem =>
      made entry (List.mem_of_mem_drop (List.mem_of_mem_take mem))
  refine ⟨_, Store.populatedSlot_many_eq_ok_iff.2 ⟨_, _, _, selects, children, rfl⟩, ?_⟩
  have paged : (Slot.many ((page.map fun entry => document entry.1 entry.2).map Item.document)
      (some candidates.length)).related =
      .many ((entities.drop selection.skip).take selection.limit) (some entities.length) := by
    show Related.many (itemEntities _) (some candidates.length) = _
    rw [itemEntities_eq_map, List.map_map, List.map_map]
    simp only [entities, page, List.map_take, List.map_drop, List.length_map]
    rfl
  have whole : (Slot.many (candidates.map fun entry => .document (document entry.1 entry.2))
      none).related = .many entities none := by
    show Related.many (itemEntities _) none = _
    rw [itemEntities_eq_map, List.map_map]
    rfl
  rw [paged, whole]
  exact relationNode_page_eq_whole asked (by rwa [List.length_map])

/-- The last page of three records, which is shorter than the others. -/
theorem select_windows_alike_last_page :
    let selection : Selection := { limit := 2, skip := 2 }
    let candidates : List (Uuid × Record) :=
      [(Uuid.ofRandom 1, []), (Uuid.ofRandom 2, []), (Uuid.ofRandom 3, [])]
    let projector : Projector := { set := OrderedMap.ofList [(⟨"tags"⟩, selection)] }
    let document : Uuid → Record → Document := Document.ofRecord "tags"
    selection.limit ≤ Count.largest ∧ projector.selection? "tags" = some selection ∧
      selection.select candidates = .ok ([(Uuid.ofRandom 3, [])], 3) ∧
      (∀ page total, selection.select candidates = .ok (page, total) →
        windowOf page total selection = .ok page) ∧
      ∃ slot, Store.populatedSlot ⟨"tags", .many⟩ selection candidates
          (fun id record => .ok (document id record)) = .ok slot ∧
        projector.relationNode none "tags" slot.related =
          projector.relationNode none "tags"
            (Slot.many (candidates.map fun entry => .document (document entry.1 entry.2))
              none).related := by
  intro selection candidates projector document
  have granted : selection.limit ≤ Count.largest := by decide
  have selects : selection.select candidates = .ok ([(Uuid.ofRandom 3, [])], 3) := rfl
  obtain ⟨pages, alike⟩ := select_windows_alike selection candidates granted
  obtain ⟨-, -, -, alike⟩ := alike rfl rfl (by decide)
  have rendered := alike projector none "tags" "tags" (fun id record => .ok (document id record))
    document (fun _ _ => rfl) rfl
  exact ⟨granted, rfl, selects, pages, rendered⟩

end Selection

end RelationExpansion
