import RelationExpansion.Proofs.Outcome
import RelationExpansion.Schema.Registry

/-! # What the checks of a registry accept

`Within` says that a relation stands somewhere inside a level, however deep.  The checks of a level
succeed exactly when every such relation has a plain name and refers to nothing unknown.
-/

namespace RelationExpansion

inductive Within : List (String × RelationDecl) → String → RelationDecl → Prop where
  | here : (name, relation) ∈ level → Within level name relation
  | inside : (outer, parent) ∈ level → Within parent.relations name relation →
      Within level name relation

variable {registry : Registry} {owner name : String} {relation : RelationDecl}
  {level rest : List (String × RelationDecl)}

def PlainNames (level : List (String × RelationDecl)) : Prop :=
  ∀ name relation, Within level name relation → isPlainIdentifier name = true

def KnownReferences (registry : Registry) (level : List (String × RelationDecl)) : Prop :=
  ∀ name relation, Within level name relation → ∀ target, relation.resource = some target →
    ∃ resource, registry.resource? target = some resource

theorem not_within_nil : ¬ Within [] name relation := by
  intro within
  cases within with
  | here mem => cases mem
  | inside mem _ => cases mem

theorem within_cons_iff {first : String} {outer : RelationDecl} :
    Within ((first, outer) :: rest) name relation ↔
      (name = first ∧ relation = outer) ∨ Within outer.relations name relation ∨
        Within rest name relation := by
  constructor
  · intro within
    cases within with
    | here mem =>
      rcases List.mem_cons.1 mem with same | later
      · exact .inl ⟨congrArg Prod.fst same, congrArg Prod.snd same⟩
      · exact .inr (.inr (.here later))
    | inside mem within =>
      rcases List.mem_cons.1 mem with same | later
      · cases same
        exact .inr (.inl within)
      · exact .inr (.inr (.inside later within))
  · rintro (⟨rfl, rfl⟩ | inner | later)
    · exact .here (by simp)
    · exact .inside (List.mem_cons_self ..) inner
    · cases later with
      | here mem => exact .here (List.mem_cons_of_mem _ mem)
      | inside mem within => exact .inside (List.mem_cons_of_mem _ mem) within

theorem forall_within_cons_iff {property : String → RelationDecl → Prop} {first : String}
    {outer : RelationDecl} :
    (∀ name relation, Within ((first, outer) :: rest) name relation → property name relation) ↔
      property first outer ∧
      (∀ name relation, Within outer.relations name relation → property name relation) ∧
      ∀ name relation, Within rest name relation → property name relation := by
  simp only [within_cons_iff]
  constructor
  · intro all
    exact ⟨all first outer (.inl ⟨rfl, rfl⟩),
      fun name relation within => all name relation (.inr (.inl within)),
      fun name relation within => all name relation (.inr (.inr within))⟩
  · rintro ⟨here, inside, later⟩ name relation (⟨rfl, rfl⟩ | within | within)
    · exact here
    · exact inside name relation within
    · exact later name relation within

theorem plainNames_cons_iff {first : String} {outer : RelationDecl} :
    PlainNames ((first, outer) :: rest) ↔
      isPlainIdentifier first = true ∧ PlainNames outer.relations ∧ PlainNames rest :=
  forall_within_cons_iff

theorem knownReferences_cons_iff {first : String} {outer : RelationDecl} :
    KnownReferences registry ((first, outer) :: rest) ↔
      (∀ target, outer.resource = some target →
        ∃ resource, registry.resource? target = some resource) ∧
      KnownReferences registry outer.relations ∧ KnownReferences registry rest :=
  forall_within_cons_iff

theorem checkDeclared_eq_ok_iff {target : Option String} :
    registry.checkDeclared owner name target = .ok () ↔
      isPlainIdentifier name = true ∧ ∀ known, target = some known →
        ∃ resource, registry.resource? known = some resource := by
  unfold Registry.checkDeclared
  cases plain : isPlainIdentifier name with
  | false => simp
  | true =>
    cases target with
    | none => simp
    | some known =>
      cases found : registry.resources.get? known <;>
        simp [OrderedMap.contains, Registry.resource?, found]

mutual
theorem checkRelation_eq_ok_iff (registry : Registry) (owner name : String)
    (relation : RelationDecl) :
    registry.checkRelation owner name relation = .ok () ↔
      (isPlainIdentifier name = true ∧ ∀ target, relation.resource = some target →
        ∃ resource, registry.resource? target = some resource) ∧
      PlainNames relation.relations ∧ KnownReferences registry relation.relations := by
  obtain ⟨route, target, inner⟩ := relation
  rw [Registry.checkRelation, bind_unit_eq_ok_iff, checkDeclared_eq_ok_iff,
    checkRelations_eq_ok_iff registry owner inner]
termination_by sizeOf relation

theorem checkRelations_eq_ok_iff (registry : Registry) (owner : String)
    (level : List (String × RelationDecl)) :
    registry.checkRelations owner level = .ok () ↔
      PlainNames level ∧ KnownReferences registry level := by
  match level with
  | [] =>
    simp [Registry.checkRelations, PlainNames, KnownReferences, not_within_nil]
  | (name, relation) :: rest =>
    rw [Registry.checkRelations, bind_unit_eq_ok_iff,
      checkRelation_eq_ok_iff registry owner name relation,
      checkRelations_eq_ok_iff registry owner rest, plainNames_cons_iff, knownReferences_cons_iff]
    constructor
    · rintro ⟨⟨⟨plain, known⟩, plainInside, knownInside⟩, plainLater, knownLater⟩
      exact ⟨⟨plain, plainInside, plainLater⟩, known, knownInside, knownLater⟩
    · rintro ⟨⟨plain, plainInside, plainLater⟩, known, knownInside, knownLater⟩
      exact ⟨⟨⟨plain, known⟩, plainInside, knownInside⟩, plainLater, knownLater⟩
termination_by sizeOf level
end

end RelationExpansion
