import RelationExpansion.OrderedMap

/-! # Declarations

A resource declares the relations that may be expanded.  A relation has children if it refers to
another resource, which then lends it its own relations, or if it declares relations inline.  The
reference counts where a relation has both.

The relations of one level are a list of pairs.  A resource carries the proof that its levels name
no relation twice; `distinctNames_levelOf` gives it for levels that come from ordered maps.
-/

namespace RelationExpansion

/-- A relation; `route` may hold the places `:parentId` and `:itemId`. -/
structure RelationDecl where
  route : Option String := none
  resource : Option String := none
  relations : List (String × RelationDecl) := []
  deriving Inhabited

mutual
def RelationDecl.HasDistinctNames : RelationDecl → Prop
  | ⟨_, _, relations⟩ => DistinctNames relations
termination_by structural relation => relation

/-- Whether a level names no relation twice, and no level inside it does. -/
def DistinctNames : List (String × RelationDecl) → Prop
  | [] => True
  | (name, relation) :: rest =>
    name ∉ Assoc.keys rest ∧ relation.HasDistinctNames ∧ DistinctNames rest
termination_by structural level => level
end

structure ResourceDecl where
  name : String := ""
  url : Option String := none
  depth : Option Nat := none
  relations : List (String × RelationDecl) := []
  distinct : DistinctNames relations := by trivial

instance : Inhabited ResourceDecl := ⟨{}⟩

namespace RelationDecl

def isLeaf (relation : RelationDecl) : Bool :=
  relation.resource.isNone && relation.relations.isEmpty

end RelationDecl

namespace ResourceDecl

/-- The URL of the collection; by default the name below the root. -/
def collectionUrl (resource : ResourceDecl) : String := resource.url.getD ("/" ++ resource.name)

end ResourceDecl

/-- A relation inside which no level names a relation twice. -/
abbrev DistinctRelation := { relation : RelationDecl // relation.HasDistinctNames }

/-- The level that an ordered map of relations makes. -/
def levelOf (relations : OrderedMap String DistinctRelation) : List (String × RelationDecl) :=
  relations.entries.map fun entry => (entry.1, entry.2.val)

/-- A letter or underscore, and after it letters, digits, underscores and hyphens. -/
def isPlainIdentifier (name : String) : Bool :=
  match name.toList with
  | [] => false
  | first :: rest =>
    (first.isAlpha || first = '_') && rest.all fun c => c.isAlphanum || c = '_' || c = '-'

/-! ## Laws -/

theorem RelationDecl.hasDistinctNames_iff {relation : RelationDecl} :
    relation.HasDistinctNames ↔ DistinctNames relation.relations := by
  cases relation
  rfl

theorem distinctNames_map_val {relations : List (String × DistinctRelation)}
    (distinct : (Assoc.keys relations).Nodup) :
    DistinctNames (relations.map fun entry => (entry.1, entry.2.val)) := by
  induction relations with
  | nil => trivial
  | cons entry rest ih =>
    obtain ⟨absent, others⟩ := List.nodup_cons.1 distinct
    refine ⟨?_, entry.2.property, ih others⟩
    simpa [Assoc.keys, Function.comp_def] using absent

theorem distinctNames_levelOf (relations : OrderedMap String DistinctRelation) :
    DistinctNames (levelOf relations) :=
  distinctNames_map_val relations.distinct

end RelationExpansion
