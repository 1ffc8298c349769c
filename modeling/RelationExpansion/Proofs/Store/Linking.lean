import Mathlib.Logic.Function.Basic
import RelationExpansion.Proofs.Store.Runs

/-! # Making links

Definitions and records alone decide whether a link is made, and one link list is all that it
changes.  So a link that is made again finds itself there, a link is refused alike whatever links
there are, and links that hang on different keys can be made in either order (`link_exact`).
-/

namespace RelationExpansion

theorem update_eq {κ : Type u} {α : Type v} [DecidableEq κ] (f : κ → α) (key : κ) (value : α) :
    update f key value = Function.update f key value := by
  funext other
  rw [Function.update_apply]
  rfl

/-- A link that is to be made: what it hangs on, and the record that it leads to. -/
structure Link where
  key : LinkKey
  target : Uuid

def Link.command (link : Link) : Store.Command :=
  .link link.key.kind link.key.id link.key.relation link.target

namespace Store

def tryLink (store : Store) (link : Link) : Except LinkError Store :=
  store.link link.key.kind link.key.id link.key.relation link.target

/-- Whether a definition and the records are there that a link needs. -/
structure Allows (store : Store) (link : Link) (definition : RelationDef) : Prop where
  defined : store.relation? link.key.kind link.key.relation = some definition
  source : (store.record? link.key.kind link.key.id).isSome = true
  target : (store.record? definition.target link.target).isSome = true

/-- What a link that is made changes: one link list, which a to-one relation replaces and a to-many
relation continues. -/
structure AddsLink (store : Store) (link : Link) (linked : Store) : Prop where
  records : linked.records = store.records
  relations : linked.relations = store.relations
  others : ∀ key, key ≠ link.key → linked.links key = store.links key
  one : ∀ kind, store.relation? link.key.kind link.key.relation = some ⟨kind, .one⟩ →
    linked.links link.key = [link.target]
  many : ∀ kind, store.relation? link.key.kind link.key.relation = some ⟨kind, .many⟩ →
    linked.links link.key =
      if link.target ∈ store.links link.key then store.links link.key
      else store.links link.key ++ [link.target]

/-- The same records and definitions with other links. -/
def withLinks (store : Store) (links : LinkKey → List Uuid) : Store := { store with links := links }

variable {store linked : Store} {link other : Link} {definition : RelationDef}
  {links : LinkKey → List Uuid} {error : LinkError}

/-! ## One link -/

theorem linkedTo_linkedTo (cardinality : Cardinality) (target : Uuid) (list : List Uuid) :
    linkedTo cardinality target (linkedTo cardinality target list) =
      linkedTo cardinality target list := by
  cases cardinality with
  | one => rfl
  | many =>
    have there : target ∈ linkedTo .many target list := by
      rw [linkedTo]
      split
      · assumption
      · simp
    exact if_pos there

theorem tryLink_eq_ok_iff :
    store.tryLink link = .ok linked ↔ ∃ definition, store.Allows link definition ∧
      linked = store.withLinks (update store.links link.key
        (linkedTo definition.cardinality link.target (store.links link.key))) := by
  rw [tryLink, link_eq_ok_iff]
  constructor
  · rintro ⟨definition, defined, source, target, same⟩
    exact ⟨definition, ⟨defined, source, target⟩, same⟩
  · rintro ⟨definition, allows, same⟩
    exact ⟨definition, allows.defined, allows.source, allows.target, same⟩

theorem exists_tryLink_iff :
    (∃ linked, store.tryLink link = .ok linked) ↔
      ∃ definition, store.Allows link definition := by
  constructor
  · rintro ⟨linked, made⟩
    obtain ⟨definition, allows, -⟩ := tryLink_eq_ok_iff.1 made
    exact ⟨definition, allows⟩
  · rintro ⟨definition, allows⟩
    exact ⟨_, tryLink_eq_ok_iff.2 ⟨definition, allows, rfl⟩⟩

theorem perform_command (store : Store) (link : Link) :
    store.perform link.command =
      match store.tryLink link with
      | .ok linked => linked
      | .error _ => store := rfl

theorem perform_of_ok (made : store.tryLink link = .ok linked) :
    store.perform link.command = linked := by
  rw [perform_command, made]

theorem perform_of_error (refused : store.tryLink link = .error error) :
    store.perform link.command = store := by
  rw [perform_command, refused]

theorem addsLink_of_tryLink (made : store.tryLink link = .ok linked) :
    store.AddsLink link linked := by
  obtain ⟨definition, allows, rfl⟩ := tryLink_eq_ok_iff.1 made
  have written : ∀ kind cardinality,
      store.relation? link.key.kind link.key.relation = some ⟨kind, cardinality⟩ →
      definition.cardinality = cardinality := by
    intro kind cardinality defined
    cases allows.defined.symm.trans defined
    rfl
  refine ⟨rfl, rfl, fun key different => if_neg different, ?one, ?many⟩
  case one =>
    intro kind defined
    refine (if_pos rfl).trans ?_
    rw [written kind .one defined, linkedTo]
  case many =>
    intro kind defined
    refine (if_pos rfl).trans ?_
    rw [written kind .many defined, linkedTo]

theorem tryLink_again (made : store.tryLink link = .ok linked) :
    linked.tryLink link = .ok linked := by
  obtain ⟨definition, allows, rfl⟩ := tryLink_eq_ok_iff.1 made
  refine tryLink_eq_ok_iff.2 ⟨definition, ⟨allows.defined, allows.source, allows.target⟩, ?_⟩
  simp only [withLinks, update_eq, Function.update_self, linkedTo_linkedTo, Function.update_idem]

/-! ## Links and other links -/

theorem tryLink_withLinks_eq_error_iff :
    (store.withLinks links).tryLink link = .error error ↔ store.tryLink link = .error error := by
  have relation : (store.withLinks links).relation? = store.relation? := rfl
  have record : (store.withLinks links).record? = store.record? := rfl
  unfold tryLink Store.link
  rw [relation, record]
  cases store.relation? link.key.kind link.key.relation with
  | none => rfl
  | some definition =>
    dsimp only
    split
    · rfl
    · split <;> simp

/-- What a link makes of its link list does not depend on any links. -/
theorem exists_change (store : Store) (link : Link) :
    ∃ change : List Uuid → List Uuid, ∀ links,
      (store.withLinks links).perform link.command =
        store.withLinks (Function.update links link.key (change (links link.key))) := by
  cases made : store.tryLink link with
  | error error =>
    -- A refused link leaves its list as it is, and is refused with other links as well.
    refine ⟨id, fun links => ?_⟩
    rw [perform_of_error (tryLink_withLinks_eq_error_iff.2 made), id, Function.update_eq_self]
  | ok linked =>
    obtain ⟨definition, allows, -⟩ := tryLink_eq_ok_iff.1 made
    refine ⟨linkedTo definition.cardinality link.target, fun links => ?_⟩
    rw [← update_eq]
    exact perform_of_ok (tryLink_eq_ok_iff.2
      ⟨definition, ⟨allows.defined, allows.source, allows.target⟩, rfl⟩)

theorem tryLink_perform_eq_error_iff :
    (store.perform link.command).tryLink other = .error error ↔
      store.tryLink other = .error error := by
  obtain ⟨change, changes⟩ := store.exists_change link
  have same : store.withLinks store.links = store := rfl
  rw [← same, changes, tryLink_withLinks_eq_error_iff, tryLink_withLinks_eq_error_iff]

theorem perform_comm (store : Store) (different : link.key ≠ other.key) :
    (store.perform link.command).perform other.command =
      (store.perform other.command).perform link.command := by
  obtain ⟨change, changes⟩ := store.exists_change link
  obtain ⟨change', changes'⟩ := store.exists_change other
  have same : store.withLinks store.links = store := rfl
  rw [← same, changes, changes', changes', changes, Function.update_of_ne different,
    Function.update_of_ne (Ne.symm different), Function.update_comm different]

/-- When a link is made, what it changes then, that it need not be made again, and that links under
different keys are made or refused alike in either order. -/
theorem link_exact (store : Store) (link : Link) :
    ((∃ linked, store.tryLink link = .ok linked) ↔
      ∃ definition, store.Allows link definition) ∧
    (∀ error, store.tryLink link = .error error → store.perform link.command = store) ∧
    (∀ linked, store.tryLink link = .ok linked →
      store.perform link.command = linked ∧ store.AddsLink link linked ∧
        linked.tryLink link = .ok linked) ∧
    ∀ other : Link,
      (∀ error, (store.perform other.command).tryLink link = .error error ↔
        store.tryLink link = .error error) ∧
      (link.key ≠ other.key → (store.perform link.command).perform other.command =
        (store.perform other.command).perform link.command) := by
  refine ⟨exists_tryLink_iff, fun error refused => perform_of_error refused, fun linked made => ?_,
    fun other => ⟨fun error => tryLink_perform_eq_error_iff, store.perform_comm⟩⟩
  exact ⟨perform_of_ok made, addsLink_of_tryLink made, tryLink_again made⟩

/-- The author of an article is linked again, a tag is not there, and another tag is. -/
theorem link_exact_blog :
    let author : Link := ⟨⟨"articles", Uuid.ofRandom 3, "author"⟩, Uuid.ofRandom 4⟩
    let missing : Link := ⟨⟨"articles", Uuid.ofRandom 3, "tags"⟩, Uuid.ofRandom 9⟩
    let tag : Link := ⟨⟨"articles", Uuid.ofRandom 3, "tags"⟩, Uuid.ofRandom 1⟩
    (∃ linked, blog.tryLink author = .ok linked ∧ blog.AddsLink author linked ∧
      linked.tryLink author = .ok linked) ∧
    (∃ error, blog.tryLink missing = .error error ∧ blog.perform missing.command = blog) ∧
    author.key ≠ tag.key ∧ (blog.perform author.command).perform tag.command =
      (blog.perform tag.command).perform author.command := by
  intro author missing tag
  have different : author.key ≠ tag.key := by decide
  have allows : blog.Allows author ⟨"authors", .one⟩ := ⟨by decide, by decide, by decide⟩
  obtain ⟨succeeds, -, changes, apart⟩ := link_exact blog author
  obtain ⟨linked, made⟩ := succeeds.2 ⟨_, allows⟩
  have refused : blog.tryLink missing = .error (.missingRecord "tags" (Uuid.ofRandom 9)) := rfl
  refine ⟨⟨linked, made, (changes linked made).2⟩, ?_, different, (apart tag).2 different⟩
  exact ⟨_, refused, (link_exact blog missing).2.1 _ refused⟩

end Store

end RelationExpansion
