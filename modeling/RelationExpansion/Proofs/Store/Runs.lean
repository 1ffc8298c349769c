import Mathlib.Data.List.Induction
import RelationExpansion.Store.Store

/-! # Runs of a store

A run is a sequence of calls that write to a store.  A link that is refused changes nothing, so only
the links that are made count as steps.  What one call preserves, a run preserves: no kind ever has
two records with one identifier (`Reaches.hasDistinctIds`) or two relations with one name
(`Reaches.hasDistinctRelations`).

A list of commands is such a run (`reaches_run`).  What one command changes is said once for each
part of the store, and nothing is ever taken out of it.
-/

namespace RelationExpansion

namespace Store

/-- One call that writes. -/
inductive Writes (store : Store) : Store → Prop where
  | define (kind relation : String) (definition : RelationDef) :
      Writes store (store.define kind relation definition)
  | create (id : Uuid) (now kind : String) (record : Record) :
      Writes store (store.create id now kind record).2
  | link (kind : String) (id : Uuid) (relation : String) (target : Uuid) {linked : Store}
      (made : store.link kind id relation target = .ok linked) : Writes store linked

inductive Reaches (start : Store) : Store → Prop where
  | refl : Reaches start start
  | step {store next : Store} : Reaches start store → Writes store next → Reaches start next

variable {store next linked : Store} {kind relation : String} {id target : Uuid}

/-- A link is made where the relation is defined and both records are there, and then changes one
link list. -/
theorem link_eq_ok_iff :
    store.link kind id relation target = .ok linked ↔
      ∃ definition, store.relation? kind relation = some definition ∧
        (store.record? kind id).isSome = true ∧
        (store.record? definition.target target).isSome = true ∧
        linked = { store with
          links := update store.links ⟨kind, id, relation⟩
            (linkedTo definition.cardinality target (store.links ⟨kind, id, relation⟩)) } := by
  unfold link
  cases store.relation? kind relation with
  | none => simp
  | some definition =>
    simp only [Option.some.injEq, exists_eq_left']
    cases store.record? kind id with
    | none => simp
    | some source =>
      cases store.record? definition.target target with
      | none => simp
      | some record => simp [eq_comm]

/-! ## Identifiers -/

/-- Whether no kind has two records with one identifier. -/
def HasDistinctIds (store : Store) : Prop :=
  ∀ kind, (Assoc.keys (store.records kind)).Nodup

theorem hasDistinctIds_empty : HasDistinctIds empty := fun _ => List.nodup_nil

theorem Writes.hasDistinctIds (writes : Writes store next) (distinct : store.HasDistinctIds) :
    next.HasDistinctIds := by
  intro other
  cases writes with
  | define kind relation definition => exact distinct other
  | create id now kind record =>
    by_cases same : other = kind
    · -- A record that has the identifier already would be replaced in its place.
      subst same
      simpa [Store.create, update] using Assoc.nodup_keys_put (distinct other)
    · simpa [Store.create, update, same] using distinct other
  | link _ _ _ _ made =>
    obtain ⟨definition, -, -, -, rfl⟩ := link_eq_ok_iff.1 made
    exact distinct other

theorem Reaches.hasDistinctIds (reaches : Reaches store next) (distinct : store.HasDistinctIds) :
    next.HasDistinctIds := by
  induction reaches with
  | refl => exact distinct
  | step _ writes ih => exact writes.hasDistinctIds ih

/-! ## Names of relations -/

/-- Whether no kind has two relations with one name. -/
def HasDistinctRelations (store : Store) : Prop :=
  ∀ kind, (Assoc.keys (store.relations kind)).Nodup

theorem hasDistinctRelations_empty : HasDistinctRelations empty := fun _ => List.nodup_nil

theorem Writes.hasDistinctRelations (writes : Writes store next)
    (distinct : store.HasDistinctRelations) : next.HasDistinctRelations := by
  intro other
  cases writes with
  | define kind relation definition =>
    by_cases same : other = kind
    · -- A relation that is defined again keeps its place.
      subst same
      simpa [Store.define, update] using Assoc.nodup_keys_put (distinct other)
    · simpa [Store.define, update, same] using distinct other
  | create => exact distinct other
  | link _ _ _ _ made =>
    obtain ⟨definition, -, -, -, rfl⟩ := link_eq_ok_iff.1 made
    exact distinct other

theorem Reaches.hasDistinctRelations (reaches : Reaches store next)
    (distinct : store.HasDistinctRelations) : next.HasDistinctRelations := by
  induction reaches with
  | refl => exact distinct
  | step _ writes ih => exact writes.hasDistinctRelations ih

/-! ## Commands -/

/-- A call that writes, with what it is given. -/
inductive Command where
  | define (kind relation : String) (definition : RelationDef)
  | create (id : Uuid) (now kind : String) (record : Record)
  | link (kind : String) (id : Uuid) (relation : String) (target : Uuid)

/-- The store after a command.  A link that is refused leaves the store as it is. -/
def perform (store : Store) : Command → Store
  | .define kind relation definition => store.define kind relation definition
  | .create id now kind record => (store.create id now kind record).2
  | .link kind id relation target =>
    match store.link kind id relation target with
    | .ok linked => linked
    | .error _ => store

def run (store : Store) (commands : List Command) : Store := commands.foldl perform store

/-- Whether every command of a run is allowed at the store that it meets. -/
def Throughout (allowed : Store → Command → Prop) : Store → List Command → Prop
  | _, [] => True
  | store, command :: rest => allowed store command ∧ Throughout allowed (store.perform command) rest

variable {command : Command} {commands : List Command} {key : LinkKey} {definition : RelationDef}

@[simp]
theorem run_concat (store : Store) (commands : List Command) (command : Command) :
    store.run (commands ++ [command]) = (store.run commands).perform command := by
  simp [run]

theorem throughout_concat_iff {allowed : Store → Command → Prop} :
    store.Throughout allowed (commands ++ [command]) ↔
      store.Throughout allowed commands ∧ allowed (store.run commands) command := by
  induction commands generalizing store with
  | nil => simp [Throughout, run]
  | cons first rest ih =>
    rw [List.cons_append, Throughout, Throughout, ih, and_assoc]
    rfl

theorem writes_perform (store : Store) (command : Command) :
    store.perform command = store ∨ store.Writes (store.perform command) := by
  cases command with
  | define kind relation definition => exact .inr (.define kind relation definition)
  | create id now kind record => exact .inr (.create id now kind record)
  | link kind id relation target =>
    rw [perform]
    cases made : store.link kind id relation target with
    | error refused => exact .inl rfl
    | ok linked => exact .inr (.link kind id relation target made)

theorem reaches_run (store : Store) (commands : List Command) :
    store.Reaches (store.run commands) := by
  induction commands using List.reverseRecOn with
  | nil => exact .refl
  | append_singleton commands command ih =>
    rw [run_concat]
    rcases writes_perform (store.run commands) command with same | writes
    · rwa [same]
    · exact .step ih writes

theorem hasDistinctRelations_run (commands : List Command) :
    (empty.run commands).HasDistinctRelations :=
  (reaches_run empty commands).hasDistinctRelations hasDistinctRelations_empty

/-! ## What one command changes -/

/-- Records stay where they are. -/
theorem record?_perform (there : (store.record? kind id).isSome = true) :
    ((store.perform command).record? kind id).isSome = true := by
  cases command with
  | define => exact there
  | create new now created record =>
    by_cases same : kind = created
    · subst same
      have read : (store.perform (.create new now kind record)).record? kind id =
          if new = id then some (stamp new now record) else store.record? kind id := by
        simp [perform, create, record?, update, Assoc.get?_put]
      rw [read]
      split
      · rfl
      · exact there
    · simpa [record?, perform, create, update, same] using there
  | link source sourceId name target =>
    rw [perform]
    split
    · rename_i linked made
      obtain ⟨_, -, -, -, rfl⟩ := link_eq_ok_iff.1 made
      exact there
    · exact there

/-- Only its own definition changes what a relation is. -/
theorem relation?_perform (store : Store) (command : Command) (kind relation : String) :
    (store.perform command).relation? kind relation = store.relation? kind relation ∨
      ∃ definition, command = .define kind relation definition ∧
        (store.perform command).relation? kind relation = some definition := by
  cases command with
  | define other name definition =>
    by_cases same : kind = other
    · subst same
      have read : (store.perform (.define kind name definition)).relation? kind relation =
          if name = relation then some definition else store.relation? kind relation := by
        simp [perform, define, relation?, update, Assoc.get?_put]
      by_cases again : name = relation
      · subst again
        exact .inr ⟨definition, rfl, read.trans (if_pos rfl)⟩
      · exact .inl (read.trans (if_neg again))
    · simp [relation?, perform, define, update, same]
  | create => exact .inl rfl
  | link source sourceId name target =>
    rw [perform]
    split
    · rename_i linked made
      obtain ⟨_, -, -, -, rfl⟩ := link_eq_ok_iff.1 made
      exact .inl rfl
    · exact .inl rfl

/-- A link list changes when a link is made under its key, with the definition that the relation has
at the time, and then neither records nor definitions change. -/
theorem links_perform (store : Store) (command : Command) (key : LinkKey) :
    (store.perform command).links key = store.links key ∨
      ∃ definition target, store.relation? key.kind key.relation = some definition ∧
        (store.record? key.kind key.id).isSome = true ∧
        (store.record? definition.target target).isSome = true ∧
        (store.perform command).links key =
          linkedTo definition.cardinality target (store.links key) ∧
        (store.perform command).relations = store.relations ∧
        (store.perform command).records = store.records := by
  cases command with
  | define => exact .inl rfl
  | create => exact .inl rfl
  | link kind id relation target =>
    rw [perform]
    split
    · rename_i linked made
      obtain ⟨definition, defined, source, there, rfl⟩ := link_eq_ok_iff.1 made
      by_cases same : key = ⟨kind, id, relation⟩
      · subst same
        exact .inr ⟨definition, target, defined, source, there, if_pos rfl, rfl, rfl⟩
      · exact .inl (if_neg same)
    · exact .inl rfl

theorem length_linkedTo_le (cardinality : Cardinality) (target : Uuid) (linked : List Uuid) :
    (linkedTo cardinality target linked).length ≤ linked.length + 1 := by
  cases cardinality with
  | one => simp [linkedTo]
  | many =>
    rw [linkedTo]
    split <;> simp

/-- A link list is no longer than the run that made it. -/
theorem length_links_run (commands : List Command) (key : LinkKey) :
    ((empty.run commands).links key).length ≤ commands.length := by
  induction commands using List.reverseRecOn with
  | nil => exact Nat.zero_le _
  | append_singleton commands command ih =>
    rw [run_concat, List.length_append, List.length_singleton]
    rcases links_perform (empty.run commands) command key with
      same | ⟨definition, target, -, -, -, linked, -⟩
    · rw [same]
      omega
    · rw [linked]
      exact Nat.le_trans (length_linkedTo_le _ _ _) (Nat.succ_le_succ ih)

/-! ## An example -/

/-- Articles with tags and an author, and tags with articles again.  There is no record for the last
link to lead to. -/
def blogCommands : List Command := [
  .define "articles" "tags" ⟨"tags", .many⟩,
  .define "articles" "author" ⟨"authors", .one⟩,
  .define "tags" "articles" ⟨"articles", .many⟩,
  .create (Uuid.ofRandom 1) "2024-01-01T00:00:00Z" "tags" [("name", .string "rust")],
  .create (Uuid.ofRandom 2) "2024-01-02T00:00:00Z" "tags" [("name", .string "lean")],
  .create (Uuid.ofRandom 3) "2024-01-03T00:00:00Z" "articles" [("title", .string "Hello")],
  .create (Uuid.ofRandom 4) "2024-01-04T00:00:00Z" "authors" [("name", .string "Ada")],
  .link "articles" (Uuid.ofRandom 3) "tags" (Uuid.ofRandom 1),
  .link "articles" (Uuid.ofRandom 3) "tags" (Uuid.ofRandom 2),
  .link "articles" (Uuid.ofRandom 3) "author" (Uuid.ofRandom 4),
  .link "tags" (Uuid.ofRandom 1) "articles" (Uuid.ofRandom 3),
  .link "tags" (Uuid.ofRandom 2) "articles" (Uuid.ofRandom 9)]

def blog : Store := empty.run blogCommands

end Store

end RelationExpansion
