import RelationExpansion.Proofs.Expansion.Paths
import RelationExpansion.Proofs.Schema.Building
import RelationExpansion.Proofs.Schema.Navigation
import RelationExpansion.Proofs.Text.Splitting

/-! # Names on declared paths

The checks of a registry look at every relation of every resource.  So a path that a view of a
checked registry declares, however it leads through references and inline relations, is made of
plain identifiers (`View.isPlainPath_of_declares`).
-/

namespace RelationExpansion

variable {declarations : List ResourceDecl} {registry : Registry} {name : String}
  {level next : List (String × RelationDecl)} {relation : RelationDecl}
  {path front segments : List String}

open Text (IsSolid isWordChar)

/-! ## Plain paths -/

theorem isWordChar_of_isPlainIdentifier {name : String} (plain : isPlainIdentifier name = true) :
    name.toList ≠ [] ∧ ∀ c ∈ name.toList, isWordChar c = true ∧ c ≠ '.' := by
  unfold isPlainIdentifier at plain
  split at plain
  · cases plain
  · rename_i first rest shape
    simp only [Bool.and_eq_true, Bool.or_eq_true, decide_eq_true_eq, List.all_eq_true] at plain
    have alphanum : ∀ c : Char, c.isAlphanum = true → isWordChar c = true ∧ c ≠ '.' := by
      intro c alphanum
      refine ⟨by simp [isWordChar, alphanum], ?_⟩
      rintro rfl
      cases alphanum
    rw [shape]
    refine ⟨by simp, List.forall_mem_cons.2 ⟨?_, fun c mem => ?_⟩⟩
    · rcases plain.1 with letter | rfl
      · exact alphanum first (by simp [Char.isAlphanum, letter])
      · exact ⟨rfl, by decide⟩
    · rcases plain.2 c mem with (inside | rfl) | rfl
      · exact alphanum c inside
      · exact ⟨rfl, by decide⟩
      · exact ⟨rfl, by decide⟩

/-- The segments of a path that can be written: there are some, and each is an identifier. -/
structure IsPlainPath (segments : List String) : Prop where
  nonempty : segments ≠ []
  plain : ∀ segment ∈ segments, isPlainIdentifier segment = true

theorem IsPlainPath.dotFree (plain : IsPlainPath segments) : DotFree segments := by
  intro segment mem dot
  exact ((isWordChar_of_isPlainIdentifier (plain.plain segment mem)).2 '.' dot).2 rfl

theorem IsPlainPath.isSolid_segment (plain : IsPlainPath segments) :
    ∀ segment ∈ segments, IsSolid segment.toList := by
  intro segment mem
  obtain ⟨nonempty, word⟩ := isWordChar_of_isPlainIdentifier (plain.plain segment mem)
  exact Text.isSolid_word nonempty fun c mem => (word c mem).1

/-! ## Chains -/

theorem PlainNames.below (named : NamedPlainly declarations) (plain : PlainNames level)
    (mem : (name, relation) ∈ level)
    (below : (Registry.collect declarations).relationsBelow? relation = some next) :
    PlainNames next := by
  unfold Registry.relationsBelow? at below
  split at below
  · cases below
  · split at below
    · obtain ⟨resource, found, rfl⟩ := Option.map_eq_some_iff.1 below
      exact named resource (resource?_collect_eq_some_iff.1 found).1
    · cases below
      exact fun name inner within => plain name inner (.inside mem within)

theorem Chain.isPlainIdentifier (named : NamedPlainly declarations)
    (chain : Chain (Registry.collect declarations) level path) (plain : PlainNames level) :
    ∀ name ∈ path, isPlainIdentifier name = true := by
  induction chain with
  | last mem =>
    intro name inside
    cases List.mem_singleton.1 inside
    exact plain _ _ (.here mem)
  | step mem below _ ih =>
    intro name inside
    rcases List.mem_cons.1 inside with rfl | later
    · exact plain _ _ (.here mem)
    · exact ih (plain.below named mem below) name later

namespace View

variable {root view : View} {resource : String}

theorem nonempty_of_declares (declared : view.declares path = true) : path ≠ [] := by
  rintro rfl
  cases declared

theorem declares_append (reached : root.descend? front = some view)
    (declared : view.declares path = true) : root.declares (front ++ path) = true := by
  rw [declares_append_eq (nonempty_of_declares declared), reached]
  exact declared

theorem isPlainPath_of_declares (built : Registry.build declarations = .ok registry)
    (known : registry.view? resource = some root) (reached : root.descend? front = some view)
    (declared : view.declares path = true) : IsPlainPath path := by
  obtain ⟨⟨named, -, -⟩, rfl⟩ := build_eq_ok_iff.1 built
  obtain ⟨declaration, found, rfl⟩ := Option.map_eq_some_iff.1 known
  have plain := named declaration (resource?_collect_eq_some_iff.1 found).1
  have chain := (declares_iff_chain declaration.distinct).1 (declares_append reached declared)
  exact ⟨nonempty_of_declares declared, fun name mem =>
    chain.isPlainIdentifier named plain name (List.mem_append_right front mem)⟩

end View

end RelationExpansion
