import Mathlib.Data.List.Count
import RelationExpansion.Projection.Node
import RelationExpansion.Proofs.Text.Replacing

/-! # Writing identifiers into a route

A route has places for the identifiers of the parent and of the item.  Read once from left to right
it comes apart into these places and other characters (`RoutePart.parts`), and `substitute` writes
each identifier into its own places.  `expandRoute` fills the places of the parent first and looks for
places of the item in what comes out, so that it can take the parent's identifier for a place.  The
two agree exactly if no place of the item comes up in this way, or if filling it would change nothing
(`expandRoute_eq_substitute_iff`).
-/

namespace RelationExpansion

open Text (IsMarked occurrences replaceAll replaceAll_cons)

/-- A part of a route: the place of an identifier, or a character that stands for itself. -/
inductive RoutePart where
  | parent
  | item
  | plain (c : Char)
  deriving DecidableEq, Repr

namespace RoutePart

def parentPlace : List Char := ':' :: "parentId".toList

def itemPlace : List Char := ':' :: "itemId".toList

/-- The parts of a route, read from left to right; `skip` characters of a place have still to be
passed over. -/
def partsFrom : Nat → List Char → List RoutePart
  | _, [] => []
  | skip + 1, _ :: rest => partsFrom skip rest
  | 0, c :: rest =>
    if parentPlace.isPrefixOf (c :: rest) then .parent :: partsFrom (parentPlace.length - 1) rest
    else if itemPlace.isPrefixOf (c :: rest) then .item :: partsFrom (itemPlace.length - 1) rest
    else .plain c :: partsFrom 0 rest

def parts (template : List Char) : List RoutePart := partsFrom 0 template

def write (parent item : List Char) : RoutePart → List Char
  | .parent => parent
  | .item => item
  | .plain c => [c]

def writeAll (parent item : List Char) (parts : List RoutePart) : List Char :=
  parts.flatMap (write parent item)

/-- Writes each identifier into its own places and looks at no text twice. -/
def substitute (template : String) (parent item : Option String) : String :=
  String.ofList (writeAll (parent.getD "").toList (item.getD "").toList (parts template.toList))

/-! ## Reading a route -/

theorem partsFrom_length_append (skipped rest : List Char) :
    partsFrom skipped.length (skipped ++ rest) = parts rest := by
  induction skipped with
  | nil => rfl
  | cons c others ih => exact ih

theorem isMarked_parentPlace : IsMarked parentPlace := by
  show ':' ∉ "parentId".toList
  decide

theorem isMarked_itemPlace : IsMarked itemPlace := by
  show ':' ∉ "itemId".toList
  decide

theorem parentPlace_not_start (rest : List Char) : ¬ parentPlace <+: itemPlace ++ rest := by
  intro starts
  have second := (List.cons_prefix_cons.1 starts).2
  cases (List.cons_prefix_cons.1 second).1

theorem itemPlace_not_start (rest : List Char) : ¬ itemPlace <+: parentPlace ++ rest := by
  intro starts
  have second := (List.cons_prefix_cons.1 starts).2
  cases (List.cons_prefix_cons.1 second).1

theorem parts_parentPlace_append (rest : List Char) :
    parts (parentPlace ++ rest) = .parent :: parts rest := by
  have starts : parentPlace.isPrefixOf (':' :: ("parentId".toList ++ rest)) = true :=
    List.isPrefixOf_iff_prefix.2 (List.prefix_append parentPlace rest)
  show partsFrom 0 (':' :: ("parentId".toList ++ rest)) = _
  rw [partsFrom, if_pos starts]
  exact congrArg (.parent :: ·) (partsFrom_length_append "parentId".toList rest)

theorem parts_itemPlace_append (rest : List Char) :
    parts (itemPlace ++ rest) = .item :: parts rest := by
  have starts : itemPlace.isPrefixOf (':' :: ("itemId".toList ++ rest)) = true :=
    List.isPrefixOf_iff_prefix.2 (List.prefix_append itemPlace rest)
  have other : ¬ parentPlace.isPrefixOf (':' :: ("itemId".toList ++ rest)) = true := by
    rw [List.isPrefixOf_iff_prefix]
    exact parentPlace_not_start rest
  show partsFrom 0 (':' :: ("itemId".toList ++ rest)) = _
  rw [partsFrom, if_neg other, if_pos starts]
  exact congrArg (.item :: ·) (partsFrom_length_append "itemId".toList rest)

theorem parts_cons {c : Char} {rest : List Char} (noParent : ¬ parentPlace <+: c :: rest)
    (noItem : ¬ itemPlace <+: c :: rest) : parts (c :: rest) = .plain c :: parts rest := by
  rw [← List.isPrefixOf_iff_prefix] at noParent noItem
  rw [parts, partsFrom, if_neg noParent, if_neg noItem]
  rfl

/-- A route is empty, or starts with a place or with another character. -/
theorem route_induction {motive : List Char → Prop} (nil : motive [])
    (parent : ∀ rest, motive rest → motive (parentPlace ++ rest))
    (item : ∀ rest, motive rest → motive (itemPlace ++ rest))
    (plain : ∀ c rest, ¬ parentPlace <+: c :: rest → ¬ itemPlace <+: c :: rest → motive rest →
      motive (c :: rest))
    (template : List Char) : motive template := by
  induction size : template.length using Nat.strongRecOn generalizing template with
  | ind bound ih =>
    cases template with
    | nil => exact nil
    | cons c rest =>
      by_cases startsParent : parentPlace <+: c :: rest
      · obtain ⟨later, whole⟩ := startsParent
        have shorter : later.length < bound := by
          rw [← size, ← whole, List.length_append]
          have positive : 0 < parentPlace.length := Nat.succ_pos _
          omega
        exact whole ▸ parent later (ih _ shorter later rfl)
      · by_cases startsItem : itemPlace <+: c :: rest
        · obtain ⟨later, whole⟩ := startsItem
          have shorter : later.length < bound := by
            rw [← size, ← whole, List.length_append]
            have positive : 0 < itemPlace.length := Nat.succ_pos _
            omega
          exact whole ▸ item later (ih _ shorter later rfl)
        · have shorter : rest.length < bound := by
            rw [← size, List.length_cons]
            omega
          exact plain c rest startsParent startsItem (ih _ shorter rest rfl)

/-- Filling the places of the parent leaves those of the item as they are. -/
theorem replaceAll_parentPlace (parent template : List Char) :
    replaceAll parentPlace parent template = writeAll parent itemPlace (parts template) := by
  induction template using route_induction with
  | nil => rfl
  | parent rest ih =>
    rw [Text.replaceAll_word_append isMarked_parentPlace, ih, parts_parentPlace_append]
    rfl
  | item rest ih =>
    have inner : ':' ∉ "itemId".toList := isMarked_itemPlace
    have passed : replaceAll parentPlace parent ("itemId".toList ++ rest) =
        "itemId".toList ++ replaceAll parentPlace parent rest :=
      Text.replaceAll_append_of_not_mem inner rest
    have start : replaceAll parentPlace parent (itemPlace ++ rest) =
        ':' :: replaceAll parentPlace parent ("itemId".toList ++ rest) :=
      replaceAll_cons (parentPlace_not_start rest)
    rw [start, passed, ih, parts_itemPlace_append]
    rfl
  | plain c rest noParent noItem ih =>
    rw [replaceAll_cons noParent, ih, parts_cons noParent noItem]
    rfl

theorem occurrences_itemPlace (template : List Char) :
    occurrences itemPlace template = (parts template).count .item := by
  induction template using route_induction with
  | nil => rfl
  | parent rest ih =>
    have inner : ':' ∉ "parentId".toList := isMarked_parentPlace
    have passed : occurrences itemPlace ("parentId".toList ++ rest) = occurrences itemPlace rest :=
      Text.occurrences_append_of_not_mem inner rest
    have start : occurrences itemPlace (parentPlace ++ rest) =
        occurrences itemPlace ("parentId".toList ++ rest) :=
      Text.occurrences_cons (itemPlace_not_start rest)
    rw [start, passed, ih, parts_parentPlace_append]
    rfl
  | item rest ih =>
    rw [Text.occurrences_word_append isMarked_itemPlace, ih, parts_itemPlace_append,
      List.count_cons_self]
  | plain c rest noParent noItem ih =>
    rw [Text.occurrences_cons noItem, ih, parts_cons noParent noItem]
    rfl

/-! ## Filling the places of the item -/

section Filling

variable {word parent item : List Char} {parts : List RoutePart}

theorem writeAll_cons (part : RoutePart) (rest : List RoutePart) :
    writeAll parent item (part :: rest) = write parent item part ++ writeAll parent item rest := rfl

/-- The text before the parts grows until the next place of the item. -/
theorem count_item_le_occurrences (marked : IsMarked word) (parent front : List Char)
    (parts : List RoutePart) :
    parts.count .item ≤ occurrences word (front ++ writeAll parent word parts) := by
  induction parts generalizing front with
  | nil => exact Nat.zero_le _
  | cons part rest ih =>
    rw [writeAll_cons]
    cases part with
    | item =>
      have later := ih []
      rw [List.nil_append] at later
      rw [List.count_cons_self, write, Text.occurrences_append marked]
      omega
    | parent => simpa [write] using ih (front ++ parent)
    | plain c => simpa [write] using ih (front ++ [c])

theorem replaceAll_writeAll (marked : IsMarked word) (front : List Char)
    (unmade : occurrences word (front ++ writeAll parent word parts) = parts.count .item) :
    replaceAll word item (front ++ writeAll parent word parts) =
      front ++ writeAll parent item parts := by
  induction parts generalizing front with
  | nil => exact Text.replaceAll_of_occurrences_eq_zero unmade
  | cons part rest ih =>
    rw [writeAll_cons, writeAll_cons]
    rw [writeAll_cons] at unmade
    cases part with
    | item =>
      have least := count_item_le_occurrences marked parent [] rest
      rw [List.nil_append] at least
      rw [List.count_cons_self, write, Text.occurrences_append marked] at unmade
      have free : occurrences word front = 0 := by omega
      have later := ih [] (by rw [List.nil_append]; omega)
      rw [List.nil_append, List.nil_append] at later
      rw [write, write, Text.replaceAll_append marked, later,
        Text.replaceAll_of_occurrences_eq_zero free, List.append_assoc]
    | parent =>
      have later := ih (front ++ parent) (by simpa [write] using unmade)
      simpa [write] using later
    | plain c =>
      have later := ih (front ++ [c]) (by simpa [write] using unmade)
      simpa [write] using later

theorem length_writeAll (word parent item : List Char) (parts : List RoutePart) :
    (writeAll parent item parts).length + parts.count .item * word.length =
      (writeAll parent word parts).length + parts.count .item * item.length := by
  induction parts with
  | nil => simp [writeAll]
  | cons part rest ih =>
    rw [writeAll_cons, writeAll_cons, List.length_append, List.length_append]
    cases part with
    | item =>
      rw [List.count_cons_self, Nat.succ_mul, Nat.succ_mul, write, write]
      omega
    | parent =>
      rw [List.count_cons_of_ne (by simp), write, write]
      omega
    | plain c =>
      rw [List.count_cons_of_ne (by simp), write, write]
      omega

/-- A text is only left as it is by another word of the same length if the first one is not there. -/
theorem occurrences_eq_zero_of_replaceAll (marked : IsMarked word)
    (even : item.length = word.length) (other : item ≠ word) {text : List Char}
    (same : replaceAll word item text = text) : occurrences word text = 0 := by
  apply Decidable.byContradiction
  intro found
  obtain ⟨front, back, rfl, free⟩ := Text.exists_first_occurrence found
  rw [Text.replaceAll_append marked, Text.replaceAll_of_occurrences_eq_zero free,
    List.append_assoc] at same
  have written : item ++ replaceAll word item back = word ++ back := List.append_cancel_left same
  exact other (List.append_inj_left written even)

theorem occurrences_eq_count_of_even (marked : IsMarked word) (even : item.length = word.length)
    (other : item ≠ word) (front : List Char)
    (same : replaceAll word item (front ++ writeAll parent word parts) =
      front ++ writeAll parent item parts) :
    occurrences word (front ++ writeAll parent word parts) = parts.count .item := by
  induction parts generalizing front with
  | nil =>
    have unchanged : replaceAll word item (front ++ []) = front ++ [] := same
    exact occurrences_eq_zero_of_replaceAll marked even other unchanged
  | cons part rest ih =>
    rw [writeAll_cons]
    rw [writeAll_cons, writeAll_cons] at same
    cases part with
    | item =>
      rw [write, write, Text.replaceAll_append marked, List.append_assoc] at same
      -- The front keeps its length, so that both sides can be compared part by part.
      have length : (replaceAll word item front).length = front.length := by
        have change := Text.length_replaceAll marked item front
        rw [even] at change
        omega
      obtain ⟨unchanged, later⟩ := List.append_inj same length
      have here := occurrences_eq_zero_of_replaceAll marked even other unchanged
      have behind := ih [] (List.append_cancel_left later)
      rw [List.nil_append] at behind
      rw [write, Text.occurrences_append marked, here, behind, List.count_cons_self]
      omega
    | parent =>
      have later := ih (front ++ parent) (by simpa [write] using same)
      simpa [write] using later
    | plain c =>
      have later := ih (front ++ [c]) (by simpa [write] using same)
      simpa [write] using later

theorem occurrences_eq_count (marked : IsMarked word) (other : item ≠ word)
    (same : replaceAll word item (writeAll parent word parts) = writeAll parent item parts) :
    occurrences word (writeAll parent word parts) = parts.count .item := by
  by_cases even : item.length = word.length
  · exact occurrences_eq_count_of_even marked even other [] same
  · -- Every place that is filled makes the text longer or shorter by the same number.
    have least : parts.count .item ≤ occurrences word (writeAll parent word parts) :=
      count_item_le_occurrences marked parent [] parts
    obtain ⟨more, total⟩ := Nat.exists_eq_add_of_le least
    have replaced := Text.length_replaceAll marked item (writeAll parent word parts)
    have written := length_writeAll word parent item parts
    rw [same, total, Nat.add_mul, Nat.add_mul] at replaced
    have balance : more * item.length = more * word.length := by omega
    have none_more : more = 0 := by
      apply Decidable.byContradiction
      intro some_more
      exact even (Nat.eq_of_mul_eq_mul_left (Nat.pos_of_ne_zero some_more) balance)
    omega

theorem replaceAll_writeAll_iff (marked : IsMarked word) :
    replaceAll word item (writeAll parent word parts) = writeAll parent item parts ↔
      item = word ∨ occurrences word (writeAll parent word parts) = parts.count .item := by
  constructor
  · intro same
    by_cases unchanged : item = word
    · exact .inl unchanged
    · exact .inr (occurrences_eq_count marked unchanged same)
  · intro either
    cases either with
    | inl unchanged =>
      subst unchanged
      exact Text.replaceAll_self marked _
    | inr unmade => exact replaceAll_writeAll marked [] unmade

end Filling

end RoutePart

open RoutePart (parentPlace itemPlace substitute)

/-- Filling the places one kind after the other is filling all at once, exactly if writing the
parent's identifier makes no place of the item, or the item's identifier reads as such a place. -/
theorem expandRoute_eq_substitute_iff (template : String) (parent item : Option String) :
    expandRoute template parent item = substitute template parent item ↔
      item.getD "" = ":itemId" ∨
        occurrences itemPlace
            (replaceAll parentPlace (parent.getD "").toList template.toList) =
          occurrences itemPlace template.toList := by
  have place : (item.getD "").toList = itemPlace ↔ item.getD "" = ":itemId" := by
    rw [← String.toList_inj]
    rfl
  rw [RoutePart.occurrences_itemPlace template.toList, RoutePart.replaceAll_parentPlace, ← place,
    ← RoutePart.replaceAll_writeAll_iff RoutePart.isMarked_itemPlace,
    ← RoutePart.replaceAll_parentPlace]
  exact String.ofList_inj

/-- An identifier that reads as a place of the item is replaced where it is written, and so is a
place that an identifier completes together with the text around it. -/
theorem identifier_read_as_place :
    expandRoute "/a/:parentId/:itemId" (some ":itemId") (some "9") = "/a/9/9" ∧
      substitute "/a/:parentId/:itemId" (some ":itemId") (some "9") = "/a/:itemId/9" ∧
      expandRoute "/a/:item:parentId" (some "Id") (some "9") = "/a/9" ∧
      substitute "/a/:item:parentId" (some "Id") (some "9") = "/a/:itemId" := by
  decide +kernel

end RelationExpansion
