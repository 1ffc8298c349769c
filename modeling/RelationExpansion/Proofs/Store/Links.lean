import RelationExpansion.Proofs.Store.Runs

/-! # What links keep

Wherever there are links, the relation is defined, the record that they hang on is there, and no
identifier comes twice.  A link is made to a record of the kind that the relation targets at the
time, and that record stays.  Defining the relation anew does not touch its links, so they need not
fit the new definition (`redefinition_keeps_links`); they do as long as the definition is left alone
while there are links.
-/

namespace RelationExpansion

namespace Store

variable {store : Store} {command : Command} {commands : List Command} {key : LinkKey}
  {definition : RelationDef} {target : Uuid}

theorem relation?_isSome_perform {kind relation : String}
    (defined : (store.relation? kind relation).isSome = true) :
    ((store.perform command).relation? kind relation).isSome = true := by
  rcases relation?_perform store command kind relation with same | ⟨definition, -, changed⟩
  · rwa [same]
  · rw [changed]
    rfl

/-! ## One link list -/

theorem mem_linkedTo {cardinality : Cardinality} {linked : List Uuid} {other : Uuid}
    (mem : other ∈ linkedTo cardinality target linked) : other = target ∨ other ∈ linked := by
  cases cardinality with
  | one => exact .inl (List.mem_singleton.1 mem)
  | many =>
    rw [linkedTo] at mem
    split at mem
    · exact .inr mem
    · rcases List.mem_append.1 mem with inside | last
      · exact .inr inside
      · exact .inl (List.mem_singleton.1 last)

theorem nodup_linkedTo {cardinality : Cardinality} {linked : List Uuid} (distinct : linked.Nodup) :
    (linkedTo cardinality target linked).Nodup := by
  cases cardinality with
  | one => simp [linkedTo]
  | many =>
    rw [linkedTo]
    split
    · exact distinct
    · rename_i absent
      refine List.nodup_append.2 ⟨distinct, by simp, ?_⟩
      intro other mem last memLast same
      exact absent (List.mem_singleton.1 memLast ▸ same ▸ mem)

/-- What holds under a key that has links, whatever becomes of the definition. -/
structure IsLinked (store : Store) (key : LinkKey) : Prop where
  defined : (store.relation? key.kind key.relation).isSome = true
  source : (store.record? key.kind key.id).isSome = true
  distinct : (store.links key).Nodup

/-- Whether the links under a key are what a definition of the relation allows. -/
structure LinksFit (store : Store) (key : LinkKey) (definition : RelationDef) : Prop where
  targets : ∀ target ∈ store.links key, (store.record? definition.target target).isSome = true
  single : definition.cardinality = .one → (store.links key).length ≤ 1

theorem linksFit_of_nil (none : store.links key = []) : store.LinksFit key definition := by
  constructor <;> simp [none]

theorem IsLinked.perform (linked : store.links key ≠ [] → store.IsLinked key)
    (some : (store.perform command).links key ≠ []) : (store.perform command).IsLinked key := by
  rcases links_perform store command key with
    same | ⟨definition, target, defined, source, -, changed, relations, records⟩
  · rw [same] at some
    obtain ⟨defined, source, distinct⟩ := linked some
    exact ⟨relation?_isSome_perform defined, record?_perform source, same ▸ distinct⟩
  · have before : (store.links key).Nodup := by
      by_cases none : store.links key = []
      · simp [none]
      · exact (linked none).distinct
    refine ⟨?_, record?_perform source, changed ▸ nodup_linkedTo before⟩
    exact relation?_isSome_perform (Option.isSome_of_eq_some defined)

/-- A command that links adds a target that fits; any other leaves the links and all records that
they lead to. -/
theorem LinksFit.perform (fits : store.LinksFit key definition)
    (defined : store.relation? key.kind key.relation = some definition) :
    (store.perform command).LinksFit key definition := by
  rcases links_perform store command key with
    same | ⟨other, target, found, -, there, changed, -, records⟩
  · refine ⟨fun target mem => record?_perform (fits.targets target (same ▸ mem)), ?_⟩
    rw [same]
    exact fits.single
  · cases defined.symm.trans found
    constructor
    · intro target mem
      rw [changed] at mem
      rcases mem_linkedTo mem with rfl | before
      · exact record?_perform there
      · exact record?_perform (fits.targets target before)
    · intro one
      rw [changed, one]
      exact Nat.le_refl 1

/-! ## Runs from the empty store -/

theorem isLinked_run (some : (empty.run commands).links key ≠ []) :
    (empty.run commands).IsLinked key := by
  induction commands using List.reverseRecOn with
  | nil => exact absurd rfl some
  | append_singleton commands command ih =>
    rw [run_concat] at some ⊢
    exact IsLinked.perform ih some

/-- Whatever is linked was a record of the kind that the relation had as its target at some time,
and it is still there. -/
theorem target_run (mem : target ∈ (empty.run commands).links key) :
    ∃ front earlier, front <+: commands ∧
      (empty.run front).relation? key.kind key.relation = some earlier ∧
      ((empty.run commands).record? earlier.target target).isSome = true := by
  induction commands using List.reverseRecOn with
  | nil => cases mem
  | append_singleton commands command ih =>
    rw [run_concat] at mem ⊢
    have new : target ∈ (empty.run commands).links key ∨ ∃ definition,
        (empty.run commands).relation? key.kind key.relation = some definition ∧
          ((empty.run commands).record? definition.target target).isSome = true := by
      rcases links_perform (empty.run commands) command key with
        same | ⟨definition, last, defined, -, there, changed, -, -⟩
      · exact .inl (same ▸ mem)
      · rw [changed] at mem
        rcases mem_linkedTo mem with rfl | before
        · exact .inr ⟨definition, defined, there⟩
        · exact .inl before
    rcases new with before | ⟨definition, defined, there⟩
    · obtain ⟨front, earlier, within, defined, there⟩ := ih before
      exact ⟨front, earlier, within.trans (List.prefix_append _ _), defined, record?_perform there⟩
    · exact ⟨commands, definition, List.prefix_append _ _, defined, record?_perform there⟩

/-- Whether a command leaves the definition of a key alone as long as there are links. -/
def Command.KeepsLinked (key : LinkKey) (store : Store) (command : Command) : Prop :=
  ∀ definition, command = .define key.kind key.relation definition → store.links key ≠ [] →
    store.relation? key.kind key.relation = some definition

theorem linksFit_run (kept : empty.Throughout (Command.KeepsLinked key) commands)
    (defined : (empty.run commands).relation? key.kind key.relation = some definition) :
    (empty.run commands).LinksFit key definition := by
  induction commands using List.reverseRecOn with
  | nil => exact linksFit_of_nil rfl
  | append_singleton commands command ih =>
    obtain ⟨before, keeps⟩ := throughout_concat_iff.1 kept
    rw [run_concat] at defined ⊢
    rcases relation?_perform (empty.run commands) command key.kind key.relation with
      same | ⟨other, rfl, changed⟩
    · rw [same] at defined
      exact (ih before defined).perform defined
    · -- The same definition again, unless there are no links that it could misfit.
      cases changed.symm.trans defined
      by_cases none : (empty.run commands).links key = []
      · exact linksFit_of_nil none
      · have already := keeps definition rfl none
        exact (ih before already).perform already

/-- Whether a command gives no relation that is defined another definition. -/
def Command.KeepsDefinitions (store : Store) : Command → Prop
  | .define kind relation definition =>
    ∀ existing, store.relation? kind relation = some existing → definition = existing
  | _ => True

/-- Links are only made to relations that are defined. -/
theorem keepsLinked_of_keepsDefinitions (key : LinkKey)
    (kept : empty.Throughout Command.KeepsDefinitions commands) :
    empty.Throughout (Command.KeepsLinked key) commands := by
  induction commands using List.reverseRecOn with
  | nil => trivial
  | append_singleton commands command ih =>
    obtain ⟨before, keeps⟩ := throughout_concat_iff.1 kept
    refine throughout_concat_iff.2 ⟨ih before, fun definition same linked => ?_⟩
    obtain ⟨existing, defined⟩ := Option.isSome_iff_exists.1 (isLinked_run linked).defined
    rw [same] at keeps
    rw [keeps existing defined, defined]

/-- What holds of the links under a key after any run, and what holds as well if no command of the
run defines the relation in another way while it has links there. -/
theorem links_run_exact (commands : List Command) (key : LinkKey)
    (some : (empty.run commands).links key ≠ []) :
    let store := empty.run commands
    (store.record? key.kind key.id).isSome = true ∧ (store.links key).Nodup ∧
    (∀ target ∈ store.links key, ∃ front earlier, front <+: commands ∧
      (empty.run front).relation? key.kind key.relation = Option.some earlier ∧
      (store.record? earlier.target target).isSome = true) ∧
    ∃ definition, store.relation? key.kind key.relation = Option.some definition ∧
      (empty.Throughout (Command.KeepsLinked key) commands →
        (∀ target ∈ store.links key, (store.record? definition.target target).isSome = true) ∧
        (definition.cardinality = .one → (store.links key).length ≤ 1)) := by
  intro store
  obtain ⟨defined, source, distinct⟩ := isLinked_run some
  obtain ⟨definition, found⟩ := Option.isSome_iff_exists.1 defined
  refine ⟨source, distinct, fun target mem => target_run mem, definition, found, fun kept => ?_⟩
  have fits := linksFit_run kept found
  exact ⟨fits.targets, fits.single⟩

theorem links_run_exact_blog :
    let key : LinkKey := ⟨"articles", Uuid.ofRandom 3, "tags"⟩
    let commands := blogCommands ++ [.define "articles" "tags" ⟨"tags", .many⟩]
    let store := empty.run commands
    store.links key = [Uuid.ofRandom 1, Uuid.ofRandom 2] ∧ store.links key ≠ [] ∧
      empty.Throughout (Command.KeepsLinked key) commands ∧
      (store.record? "articles" (Uuid.ofRandom 3)).isSome = true ∧ (store.links key).Nodup ∧
      ∃ definition, store.relation? "articles" "tags" = some definition ∧
        (∀ target ∈ store.links key, (store.record? definition.target target).isSome = true) ∧
        (definition.cardinality = .one → (store.links key).length ≤ 1) := by
  intro key commands store
  have some : store.links key ≠ [] := by decide
  have kept : empty.Throughout (Command.KeepsLinked key) commands := by
    have first : empty.Throughout (Command.KeepsLinked key) blogCommands := by
      simp [Throughout, Command.KeepsLinked, blogCommands, key, perform, define, empty]
    refine throughout_concat_iff.2 ⟨first, ?_⟩
    intro definition same _
    cases same
    decide
  obtain ⟨source, distinct, -, definition, defined, fits⟩ := links_run_exact commands key some
  exact ⟨by decide, some, kept, source, distinct, definition, defined, fits kept⟩

/-- Two tags are linked while an article has tags, and then its tags become one label. -/
theorem redefinition_keeps_links :
    let key : LinkKey := ⟨"articles", Uuid.ofRandom 3, "tags"⟩
    let store := empty.run (blogCommands ++ [.define "articles" "tags" ⟨"labels", .one⟩])
    store.links key = [Uuid.ofRandom 1, Uuid.ofRandom 2] ∧
      store.relation? "articles" "tags" = some ⟨"labels", .one⟩ ∧
      (∀ target ∈ store.links key, store.record? "labels" target = none) ∧
      ¬ (store.links key).length ≤ 1 := by
  decide

end Store

end RelationExpansion
