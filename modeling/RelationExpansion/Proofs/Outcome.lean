import Mathlib.Data.List.Forall2

/-! # Sequences of steps that may fail

When a step and what comes after it succeed or fail, and with which error a traversal ends.
-/

namespace RelationExpansion

variable {ε : Type u} {α : Type v}

theorem bind_eq_ok_iff {β : Type v} {first : Except ε α} {next : α → Except ε β} {result : β} :
    (first >>= next) = .ok result ↔ ∃ value, first = .ok value ∧ next value = .ok result := by
  cases first <;> simp [bind, Except.bind]

theorem bind_eq_error_iff {β : Type v} {first : Except ε α} {next : α → Except ε β} {error : ε} :
    (first >>= next) = .error error ↔
      first = .error error ∨ ∃ value, first = .ok value ∧ next value = .error error := by
  cases first <;> simp [bind, Except.bind]

theorem map_eq_error_iff {β : Type w} {outcome : Except ε α} {f : α → β} {error : ε} :
    outcome.map f = .error error ↔ outcome = .error error := by
  cases outcome <;> simp [Except.map]

theorem map_eq_ok_iff {β : Type w} {outcome : Except ε α} {f : α → β} {result : β} :
    outcome.map f = .ok result ↔ ∃ value, outcome = .ok value ∧ f value = result := by
  cases outcome <;> simp [Except.map]

theorem mapError_eq_ok_iff {ε' : Type w} {outcome : Except ε α} {f : ε → ε'} {value : α} :
    outcome.mapError f = .ok value ↔ outcome = .ok value := by
  cases outcome with
  | error error => exact ⟨nofun, nofun⟩
  | ok result =>
    show Except.ok result = .ok value ↔ Except.ok result = .ok value
    simp

theorem mapError_eq_error_iff {ε' : Type w} {outcome : Except ε α} {f : ε → ε'} {error : ε'} :
    outcome.mapError f = .error error ↔ ∃ reason, outcome = .error reason ∧ f reason = error := by
  cases outcome <;> simp [Except.mapError]

theorem toOption_eq_some_iff {outcome : Except ε α} {value : α} :
    outcome.toOption = some value ↔ outcome = .ok value := by
  cases outcome <;> simp [Except.toOption]

theorem bind_unit_eq_ok_iff {β : Type} {first : Except ε Unit} {next : Except ε β} {result : β} :
    (first >>= fun _ => next) = .ok result ↔ first = .ok () ∧ next = .ok result := by
  cases first <;> simp [bind, Except.bind]

theorem ne_ok_iff {outcome : Except ε Unit} :
    outcome ≠ .ok () ↔ ∃ error, outcome = .error error := by
  cases outcome <;> simp

theorem forM_eq_ok_iff {check : α → Except ε PUnit} {items : List α} :
    items.forM check = .ok ⟨⟩ ↔ ∀ item ∈ items, check item = .ok ⟨⟩ := by
  induction items with
  | nil => simp [pure, Except.pure]
  | cons item rest ih =>
    simp only [List.forM_eq_forM, List.forM_cons] at ih ⊢
    cases found : check item with
    | error error => simp [found, bind, Except.bind]
    | ok value => simpa [found, bind, Except.bind] using ih

/-- A traversal ends with the error of some item, or well. -/
theorem forM_eq_error {check : α → Except ε PUnit} {items : List α} {error : ε}
    (failed : items.forM check = .error error) : ∃ item ∈ items, check item = .error error := by
  induction items with
  | nil => cases failed
  | cons item rest ih =>
    simp only [List.forM_eq_forM, List.forM_cons] at ih failed
    cases found : check item with
    | error other =>
      rw [found] at failed
      cases failed
      exact ⟨item, by simp, found⟩
    | ok value =>
      rw [found] at failed
      obtain ⟨later, mem, wrong⟩ := ih failed
      exact ⟨later, List.mem_cons_of_mem _ mem, wrong⟩

/-- A traversal that ends well has a result for every item, in order. -/
theorem mapM_eq_ok_iff {β : Type v} {f : α → Except ε β} {items : List α} {results : List β} :
    items.mapM f = .ok results ↔
      List.Forall₂ (fun item result => f item = .ok result) items results := by
  induction items generalizing results with
  | nil => simp [pure, Except.pure, eq_comm]
  | cons item rest ih =>
    simp only [List.mapM_cons, bind_eq_ok_iff, ih, List.forall₂_cons_left_iff]
    constructor
    · rintro ⟨first, here, others, later, whole⟩
      cases whole
      exact ⟨first, others, here, later, rfl⟩
    · rintro ⟨first, others, here, later, rfl⟩
      exact ⟨first, here, others, later, rfl⟩

theorem exists_mem_of_forall₂ {β : Type w} {related : α → β → Prop} {items : List α}
    {results : List β} {result : β} (rows : List.Forall₂ related items results)
    (mem : result ∈ results) : ∃ item ∈ items, related item result := by
  induction rows with
  | nil => cases mem
  | cons here _ ih =>
    rcases List.mem_cons.1 mem with rfl | later
    · exact ⟨_, List.mem_cons_self, here⟩
    · obtain ⟨item, inside, there⟩ := ih later
      exact ⟨item, List.mem_cons_of_mem _ inside, there⟩

theorem forall₂_comp {β : Type w} {γ : Type z} {first : α → β → Prop} {second : β → γ → Prop}
    {items : List α} {results : List β} {others : List γ}
    (rows : List.Forall₂ first items results) (rows' : List.Forall₂ second results others) :
    List.Forall₂ (fun item other => ∃ result, first item result ∧ second result other) items
      others := by
  induction rows generalizing others with
  | nil =>
    cases rows'
    exact .nil
  | cons here _ ih =>
    cases rows' with
    | cons there later => exact .cons ⟨_, here, there⟩ (ih later)

theorem exists_mapM_iff {β : Type v} {f : α → Except ε β} {items : List α} :
    (∃ results, items.mapM f = .ok results) ↔ ∀ item ∈ items, ∃ result, f item = .ok result := by
  simp only [mapM_eq_ok_iff]
  induction items with
  | nil => simp
  | cons item rest ih =>
    simp only [List.forall₂_cons_left_iff, List.forall_mem_cons, ← ih]
    constructor
    · rintro ⟨_, first, others, here, later, -⟩
      exact ⟨⟨first, here⟩, others, later⟩
    · rintro ⟨⟨first, here⟩, others, later⟩
      exact ⟨_, first, others, here, later, rfl⟩

/-- Where there is only one error, it does not matter which item fails first. -/
theorem mapM_eq_error_iff [Subsingleton ε] {β : Type v} {f : α → Except ε β} {items : List α}
    {error : ε} : items.mapM f = .error error ↔ ∃ item ∈ items, f item = .error error := by
  induction items with
  | nil => simp [pure, Except.pure]
  | cons item rest ih =>
    rw [List.mapM_cons, bind_eq_error_iff]
    simp only [bind_eq_error_iff, ih, pure, Except.pure, reduceCtorEq, and_false, exists_false,
      or_false, List.mem_cons, exists_eq_or_imp]
    cases f item with
    | error other => simp [Subsingleton.elim other error]
    | ok value => simp

end RelationExpansion
