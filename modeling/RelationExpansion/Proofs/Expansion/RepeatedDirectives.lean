import RelationExpansion.Proofs.Expansion.WrittenDirectives

/-! # Directives that are written more than once

Of the directives for one path the last one decides.  Splitting an include parameter drops the
repetitions of a text and keeps it where it was written first, so a directive that is written again
after another one for its path does not decide any more (`last_directive_is_dropped`).  Which one
does is the last that was new where it was written (`get?_ofDirectives_splitList`).
-/

namespace RelationExpansion

namespace Directive

/-- The directive of the last text that is accepted for a path. -/
def IsLastFor (view : View) (path : Path) (texts : List String) (directive : Directive) : Prop :=
  ∃ before text after, texts = before ++ text :: after ∧ Accepts view text directive ∧
    directive.path = path ∧
    ∀ later ∈ after, ∀ other, Accepts view later other → other.path ≠ path

/-- The directive of the last text that is accepted for a path and was not written before. -/
def IsNewestFor (view : View) (path : Path) (texts : List String) (directive : Directive) : Prop :=
  ∃ before text after, texts = before ++ text :: after ∧ text ∉ before ∧
    Accepts view text directive ∧ directive.path = path ∧
    ∀ later ∈ after, ∀ other, Accepts view later other → other.path = path →
      later ∈ before ++ [text]

variable {view : View} {path : Path} {texts : List String} {directive : Directive}

theorem exists_isLastFor
    (asked : ∃ text ∈ texts, ∃ directive, Accepts view text directive ∧ directive.path = path) :
    ∃ directive, IsLastFor view path texts directive := by
  induction texts using List.reverseRecOn with
  | nil => simp at asked
  | append_singleton texts text ih =>
    by_cases here : ∃ directive, Accepts view text directive ∧ directive.path = path
    · obtain ⟨directive, accepts, same⟩ := here
      exact ⟨directive, texts, text, [], rfl, accepts, same, by simp⟩
    · -- The text does not count, so the last one before it is still the last.
      obtain ⟨first, mem, directive, accepts, same⟩ := asked
      have earlier : first ∈ texts := by
        rcases List.mem_append.1 mem with inside | last
        · exact inside
        · rw [List.mem_singleton.1 last] at accepts
          exact absurd ⟨directive, accepts, same⟩ here
      obtain ⟨last, before, other, after, rfl, accepts, same, others⟩ :=
        ih ⟨first, earlier, directive, accepts, same⟩
      refine ⟨last, before, other, after ++ [text], by simp, accepts, same, ?_⟩
      intro later mem directive accepts same
      rcases List.mem_append.1 mem with inside | last
      · exact others later inside directive accepts same
      · rw [List.mem_singleton.1 last] at accepts
        exact here ⟨directive, accepts, same⟩

theorem exists_isNewestFor
    (asked : ∃ text ∈ texts, ∃ directive, Accepts view text directive ∧ directive.path = path) :
    ∃ directive, IsNewestFor view path texts directive := by
  induction texts using List.reverseRecOn with
  | nil => simp at asked
  | append_singleton texts text ih =>
    by_cases here : text ∉ texts ∧ ∃ directive, Accepts view text directive ∧ directive.path = path
    · obtain ⟨new, directive, accepts, same⟩ := here
      exact ⟨directive, texts, text, [], rfl, new, accepts, same, by simp⟩
    · -- A text that counts here was written before.
      have known : ∀ directive, Accepts view text directive → directive.path = path →
          text ∈ texts := fun directive accepts same =>
        Classical.byContradiction fun new => here ⟨new, directive, accepts, same⟩
      obtain ⟨first, mem, directive, accepts, same⟩ := asked
      have earlier : first ∈ texts := by
        rcases List.mem_append.1 mem with inside | last
        · exact inside
        · obtain rfl := List.mem_singleton.1 last
          exact known directive accepts same
      obtain ⟨newest, before, other, after, rfl, new, accepts, same, others⟩ :=
        ih ⟨first, earlier, directive, accepts, same⟩
      refine ⟨newest, before, other, after ++ [text], by simp, new, accepts, same, ?_⟩
      intro later mem directive accepts same
      rcases List.mem_append.1 mem with inside | last
      · exact others later inside directive accepts same
      · obtain rfl := List.mem_singleton.1 last
        have split := known directive accepts same
        rw [List.append_cons, List.mem_append] at split
        rcases split with before | after
        · exact before
        · exact others later after directive accepts same

/-- What was new where it was written stays when repetitions are dropped, and what is left after it
was new later. -/
theorem IsNewestFor.isLastFor_eraseDups (newest : IsNewestFor view path texts directive) :
    IsLastFor view path texts.eraseDups directive := by
  obtain ⟨before, text, after, rfl, new, accepts, same, others⟩ := newest
  have kept : (before ++ text :: after).eraseDups = before.eraseDups ++
      text :: ((after.removeAll before).filter fun later => !later == text).eraseDups := by
    have first : (text :: after).removeAll before = text :: after.removeAll before := by
      simp [List.removeAll, new]
    rw [List.eraseDups_append, first, List.eraseDups_cons]
  refine ⟨before.eraseDups, text, _, kept, accepts, same, fun later mem other accepts same => ?_⟩
  simp only [List.mem_eraseDups, List.removeAll, List.mem_filter] at mem
  obtain ⟨⟨inside, absent⟩, different⟩ := mem
  have fresh : later ∉ before := by simpa using absent
  have unlike : later ≠ text := by simpa using different
  have again := others later inside other accepts same
  simp [fresh, unlike] at again

end Directive

namespace ExpansionSet

open Directive

variable {view : View} {limits : Limits} {path : Path} {texts : List String}
  {directive : Directive}

theorem get?_of_isLastFor (last : IsLastFor view path texts directive) :
    (ofDirectives view limits texts).get? path =
      some (Selection.ofModifiers limits directive.modifiers) := by
  obtain ⟨before, text, after, rfl, accepts, rfl, others⟩ := last
  exact get?_ofDirectives_last accepts others

theorem get?_of_isNewestFor (newest : IsNewestFor view path texts directive) :
    (ofDirectives view limits texts.eraseDups).get? path =
      some (Selection.ofModifiers limits directive.modifiers) :=
  get?_of_isLastFor newest.isLastFor_eraseDups

theorem mem_keys_eraseDups_iff :
    path ∈ (ofDirectives view limits texts.eraseDups).keys ↔
      path ∈ (ofDirectives view limits texts).keys := by
  simp only [mem_keys_ofDirectives_iff, List.mem_eraseDups]

/-- Where no directive is accepted for a path, only the paths below it matter. -/
theorem get?_eraseDups_of_unasked
    (unasked : ∀ text ∈ texts, ∀ directive, Accepts view text directive → directive.path ≠ path) :
    (ofDirectives view limits texts.eraseDups).get? path =
      (ofDirectives view limits texts).get? path := by
  by_cases mem : path ∈ (ofDirectives view limits texts).keys
  · rw [get?_ofDirectives_implied mem unasked]
    exact get?_ofDirectives_implied (mem_keys_eraseDups_iff.2 mem) fun text inside =>
      unasked text (List.mem_eraseDups.1 inside)
  · rw [OrderedMap.get?, OrderedMap.get?, Assoc.get?_eq_none_iff.2 mem]
    exact Assoc.get?_eq_none_iff.2 (mt mem_keys_eraseDups_iff.1 mem)

/-- Which directive decides on a path with the repetitions and which without them, and when it makes
no difference. -/
theorem get?_ofDirectives_splitList (view : View) (limits : Limits) (text : String) :
    let written := Text.pieces ',' text
    let all := ofDirectives view limits written
    let kept := ofDirectives view limits (splitList text)
    (∀ path, path ∈ kept.keys ↔ path ∈ all.keys) ∧
    (∀ path,
      (∃ text ∈ written, ∃ directive, Accepts view text directive ∧ directive.path = path) →
      ∃ last newest, IsLastFor view path written last ∧ IsNewestFor view path written newest ∧
        all.get? path = some (Selection.ofModifiers limits last.modifiers) ∧
        kept.get? path = some (Selection.ofModifiers limits newest.modifiers)) ∧
    (∀ path, kept.get? path = all.get? path ↔ ∀ last newest, IsLastFor view path written last →
      IsNewestFor view path written newest →
        Selection.ofModifiers limits last.modifiers =
          Selection.ofModifiers limits newest.modifiers) := by
  intro written all kept
  refine ⟨fun path => mem_keys_eraseDups_iff, fun path asked => ?decide, fun path => ⟨?agree, ?same⟩⟩
  case decide =>
    obtain ⟨last, isLast⟩ := exists_isLastFor asked
    obtain ⟨newest, isNewest⟩ := exists_isNewestFor asked
    exact ⟨last, newest, isLast, isNewest, get?_of_isLastFor isLast, get?_of_isNewestFor isNewest⟩
  case agree =>
    intro agree last newest isLast isNewest
    have without : kept.get? path = _ := get?_of_isNewestFor isNewest
    have together : all.get? path = _ := get?_of_isLastFor isLast
    rw [without, together, Option.some.injEq] at agree
    exact agree.symm
  case same =>
    intro same
    by_cases asked :
        ∃ text ∈ written, ∃ directive, Accepts view text directive ∧ directive.path = path
    · obtain ⟨last, isLast⟩ := exists_isLastFor asked
      obtain ⟨newest, isNewest⟩ := exists_isNewestFor asked
      have without : kept.get? path = _ := get?_of_isNewestFor isNewest
      have together : all.get? path = _ := get?_of_isLastFor isLast
      rw [without, together, same last newest isLast isNewest]
    · exact get?_eraseDups_of_unasked fun text mem directive accepts same =>
        asked ⟨text, mem, directive, accepts, same⟩

/-- The page size that is written last is the one that was written first, too. -/
theorem last_directive_is_dropped :
    let text := "tags:per_page(5),tags:per_page(7),tags:per_page(5)"
    let view := WrittenDirective.magazineView
    let all := ofDirectives view {} (Text.pieces ',' text)
    let kept := ofDirectives view {} (splitList text)
    (Registry.collect [WrittenDirective.magazine]).view? "articles" = some view ∧
      (all.get? ⟨"tags"⟩).map (·.limit) = some 5 ∧ (kept.get? ⟨"tags"⟩).map (·.limit) = some 7 ∧
      kept.get? ⟨"tags"⟩ ≠ all.get? ⟨"tags"⟩ := by
  intro text view all kept
  have last : (all.get? ⟨"tags"⟩).map (·.limit) = some 5 := by decide +kernel
  have first : (kept.get? ⟨"tags"⟩).map (·.limit) = some 7 := by decide +kernel
  refine ⟨WrittenDirective.build_magazine.2, last, first, fun same => ?_⟩
  rw [same, last] at first
  cases first

end ExpansionSet

end RelationExpansion
