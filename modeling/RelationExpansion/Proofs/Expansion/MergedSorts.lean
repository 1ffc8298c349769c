import Mathlib.Data.List.Induction
import Mathlib.Data.List.TakeWhile
import RelationExpansion.Proofs.Expansion.Adjusting

/-! # Sorts that are written in parts

A sort expression orders by the fields that its tokens name, each at the place where it is first
named and in the direction that it is given last (`SortSpec.readsTokens_ofTokens`).  Several sorts
add up in the same way: whether the tokens stand in one sort or are spread over several makes no
difference (`Selection.sort_ofModifiers_of_sorts`).
-/

namespace RelationExpansion

namespace Text

theorem cutAt?_of_not_mem {mark : Char} {text : List Char} (free : mark ∉ text) :
    cutAt? mark text = none := by
  induction text with
  | nil => rfl
  | cons c rest ih =>
    simp only [List.mem_cons, not_or] at free
    simp [cutAt?, Ne.symm free.1, ih free.2]

/-- The part before the first mark is the longest start without it. -/
theorem cutAt?_of_mem {mark : Char} {text : List Char} (mem : mark ∈ text) :
    cutAt? mark text = some (text.takeWhile (· ≠ mark), (text.dropWhile (· ≠ mark)).drop 1) := by
  induction text with
  | nil => cases mem
  | cons c rest ih =>
    by_cases same : c = mark
    · simp [cutAt?, same]
    · have later : mark ∈ rest := by simpa [Ne.symm same] using mem
      simp [cutAt?, same, ih later]

end Text

/-! ## Words for directions -/

theorem toNat_toLower (c : Char) :
    c.toLower.toNat = if 65 ≤ c.toNat ∧ c.toNat ≤ 90 then c.toNat + 32 else c.toNat := by
  by_cases large : 65 ≤ c.toNat ∧ c.toNat ≤ 90
  · have tested : c.val ≥ 'A'.val ∧ c.val ≤ 'Z'.val := by
      simpa [UInt32.le_iff_toNat_le] using large
    have lowered : c.toLower = _ := dif_pos tested
    rw [lowered, if_pos large]
    show (c.val + 32).toNat = c.toNat + 32
    rw [UInt32.toNat_add]
    show (c.toNat + 32) % 2 ^ 32 = c.toNat + 32
    omega
  · have tested : ¬ (c.val ≥ 'A'.val ∧ c.val ≤ 'Z'.val) := by
      simpa [UInt32.le_iff_toNat_le] using large
    have kept : c.toLower = c := dif_neg tested
    rw [kept, if_neg large]

theorem toLower_eq_iff {c small large : Char} (letter : 97 ≤ small.toNat ∧ small.toNat ≤ 122)
    (same : large.toNat + 32 = small.toNat) : c.toLower = small ↔ c = small ∨ c = large := by
  simp only [← Char.toNat_inj, toNat_toLower]
  split <;> omega

theorem toLower_eq_iff_of_lt {c mark : Char} (sign : mark.toNat < 65) :
    c.toLower = mark ↔ c = mark := by
  simp only [← Char.toNat_inj, toNat_toLower]
  split <;> omega

namespace Direction

/-- Whether a word means descending: `-1`, or `desc` with each letter in either case. -/
def meansDescending : List Char → Bool
  | [sign, digit] => sign = '-' && digit = '1'
  | [first, second, third, fourth] =>
    first ∈ ['d', 'D'] && second ∈ ['e', 'E'] && third ∈ ['s', 'S'] && fourth ∈ ['c', 'C']
  | _ => false

theorem ofToken_eq (token : List Char) :
    ofToken token = if meansDescending (Text.trim token) then .descending else .ascending := by
  have spelled : ∀ word : List Char, (word.map Char.toLower = "desc".toList ∨
      word.map Char.toLower = "-1".toList) ↔ meansDescending word = true := by
    have d (x : Char) : x.toLower = 'd' ↔ x = 'd' ∨ x = 'D' :=
      toLower_eq_iff (by decide) (by decide)
    have e (x : Char) : x.toLower = 'e' ↔ x = 'e' ∨ x = 'E' :=
      toLower_eq_iff (by decide) (by decide)
    have s (x : Char) : x.toLower = 's' ↔ x = 's' ∨ x = 'S' :=
      toLower_eq_iff (by decide) (by decide)
    have c (x : Char) : x.toLower = 'c' ↔ x = 'c' ∨ x = 'C' :=
      toLower_eq_iff (by decide) (by decide)
    have sign (x : Char) : x.toLower = '-' ↔ x = '-' := toLower_eq_iff_of_lt (by decide)
    have digit (x : Char) : x.toLower = '1' ↔ x = '1' := toLower_eq_iff_of_lt (by decide)
    intro word
    match word with
    | [] => simp [meansDescending]
    | [_] => simp [meansDescending]
    | [_, _] => simp [meansDescending, sign, digit]
    | [_, _, _] => simp [meansDescending]
    | [_, _, _, _] => simp [meansDescending, d, e, s, c, and_assoc]
    | _ :: _ :: _ :: _ :: _ :: _ => simp [meansDescending]
  simp only [ofToken, spelled]

end Direction

namespace SortSpec

/-- What a token says before its first bar. -/
def fieldOf (token : String) : String :=
  Text.trimmed (String.ofList (token.toList.takeWhile (· ≠ '|')))

/-- What a token says after its first bar; without one it is ascending. -/
def directionOf (token : String) : Direction :=
  let word := Text.trim ((token.toList.dropWhile (· ≠ '|')).drop 1)
  if Direction.meansDescending word then .descending else .ascending

/-- The fields that tokens name, in the order in which they are first named, each with the direction
of the last token that names it. -/
structure ReadsTokens (tokens : List String) (spec : SortSpec) : Prop where
  keys : spec.keys = ((tokens.map fieldOf).filter (· ≠ "")).eraseDups
  directions : ∀ field, field ≠ "" →
    spec.get? field = ((tokens.filter (fieldOf · = field)).getLast?).map directionOf

variable {tokens front : List String} {token field : String}

theorem ofToken?_of_trim {name : List Char}
    (trimmed : Text.trim (token.toList.takeWhile (· ≠ '|')) = name) :
    ofToken? token.toList =
      if name = [] then none else some (String.ofList name, directionOf token) := by
  by_cases marked : '|' ∈ token.toList
  · have cut := Text.cutAt?_of_mem marked
    cases name with
    | nil => simp only [ofToken?, cut, trimmed, if_true]
    | cons c rest =>
      simp only [ofToken?, cut, trimmed, Direction.ofToken_eq, directionOf, reduceCtorEq, if_false]
  · -- Without a bar all of the token is the field, and nothing is left for the direction.
    have cut := Text.cutAt?_of_not_mem marked
    have unmarked : ∀ c ∈ token.toList, (decide (c ≠ '|')) = true := fun c mem =>
      decide_eq_true fun same => marked (same ▸ mem)
    have nothing : token.toList.dropWhile (· ≠ '|') = [] :=
      List.dropWhile_eq_nil_iff.2 unmarked
    have ascending : directionOf token = .ascending := by
      rw [directionOf, nothing]
      decide
    rw [List.takeWhile_eq_self_iff.2 unmarked] at trimmed
    cases name with
    | nil => simp only [ofToken?, cut, trimmed, if_true]
    | cons c rest => simp only [ofToken?, cut, trimmed, ascending, reduceCtorEq, if_false]

theorem ofToken?_eq (token : String) :
    ofToken? token.toList =
      if fieldOf token = "" then none else some (fieldOf token, directionOf token) := by
  have name : fieldOf token = String.ofList (Text.trim (token.toList.takeWhile (· ≠ '|'))) := by
    simp [fieldOf, Text.trimmed]
  rw [ofToken?_of_trim rfl, name]
  simp

/-! ## One list of tokens -/

/-- The pairs that tokens stand for, those without a field left out. -/
def pairsOf (tokens : List String) : List (String × Direction) :=
  tokens.filterMap fun token => ofToken? token.toList

theorem keys_pairsOf (tokens : List String) :
    Assoc.keys (pairsOf tokens) = (tokens.map fieldOf).filter (· ≠ "") := by
  induction tokens with
  | nil => rfl
  | cons token rest ih =>
    by_cases blank : fieldOf token = ""
    · simpa [pairsOf, Assoc.keys, ofToken?_eq, blank] using ih
    · simpa [pairsOf, Assoc.keys, ofToken?_eq, blank] using ih

theorem ofTokens_concat (front : List String) (token : String) :
    ofTokens (front ++ [token]) = (ofTokens front).insertMany (pairsOf [token]) := by
  simp only [ofTokens, pairsOf, OrderedMap.ofList, OrderedMap.insertMany, List.filterMap_append,
    List.foldl_append]

/-- The last token decides about its own field and leaves the others alone. -/
theorem get?_ofTokens_concat (named : field ≠ "") :
    (ofTokens (front ++ [token])).get? field =
      if fieldOf token = field then some (directionOf token) else (ofTokens front).get? field := by
  rw [ofTokens_concat]
  by_cases blank : fieldOf token = ""
  · have other : fieldOf token ≠ field := fun same => named (same.symm.trans blank)
    simp [pairsOf, ofToken?_eq, blank, OrderedMap.insertMany, Ne.symm named]
  · simp [pairsOf, ofToken?_eq, blank, OrderedMap.insertMany, OrderedMap.get?_insert]

theorem readsTokens_ofTokens (tokens : List String) : ReadsTokens tokens (ofTokens tokens) where
  keys := by
    rw [ofTokens, OrderedMap.keys_ofList]
    exact congrArg List.eraseDups (keys_pairsOf tokens)
  directions := by
    intro field named
    induction tokens using List.reverseRecOn with
    | nil => rfl
    | append_singleton front token ih =>
      rw [get?_ofTokens_concat named, ih, List.filter_append]
      by_cases same : fieldOf token = field
      · simp [same]
      · simp [same]

end SortSpec

/-! ## Several lists of tokens -/

namespace Selection

variable {limits : Limits} {modifiers : List Modifier} {lists : List (List String)}

/-- Each sort adds its fields to those of the sorts before it, as further tokens would. -/
theorem foldl_addSort_ofTokens (lists : List (List String)) (spec : SortSpec) :
    (lists.map SortSpec.ofTokens).foldl addSort (some spec) =
      some (spec.insertMany (SortSpec.pairsOf lists.flatten)) := by
  induction lists generalizing spec with
  | nil => rfl
  | cons tokens rest ih =>
    have added : addSort (some spec) (SortSpec.ofTokens tokens) =
        some (spec.insertMany (SortSpec.pairsOf tokens)) :=
      congrArg some (OrderedMap.insertMany_ofList spec (SortSpec.pairsOf tokens))
    rw [List.map_cons, List.foldl_cons, added, ih]
    simp only [SortSpec.pairsOf, OrderedMap.insertMany, List.flatten_cons, List.filterMap_append,
      List.foldl_append]

/-- Whatever other modifiers stand between the sorts. -/
theorem sort_ofModifiers_of_sorts
    (sorts : modifiers.filterMap Modifier.sort? = lists.map SortSpec.ofTokens) :
    (ofModifiers limits modifiers).sort =
      if lists = [] then none else some (SortSpec.ofTokens lists.flatten) := by
  rw [ofModifiers_eq]
  dsimp only
  rw [sorts]
  cases lists with
  | nil => rfl
  | cons tokens rest =>
    -- Adding to no sort is adding to the empty one.
    exact foldl_addSort_ofTokens (tokens :: rest) OrderedMap.empty

/-- Tokens that are spread over several sorts order as they would in one; without any sort there is
no order.  What one list of tokens comes to is told by its fields and directions. -/
theorem sort_ofModifiers_split (limits : Limits) (lists : List (List String)) :
    let split := ofModifiers limits (lists.map fun tokens => .sort (SortSpec.ofTokens tokens))
    split.sort.getD OrderedMap.empty = SortSpec.ofTokens lists.flatten ∧
      (split.sort = none ↔ lists = []) ∧
      ∀ tokens, SortSpec.ReadsTokens tokens (SortSpec.ofTokens tokens) := by
  intro split
  have sorts : (lists.map fun tokens => Modifier.sort (SortSpec.ofTokens tokens)).filterMap
      Modifier.sort? = lists.map SortSpec.ofTokens := by
    simp [List.filterMap_map, Function.comp_def]
  have sorted : split.sort =
      if lists = [] then none else some (SortSpec.ofTokens lists.flatten) :=
    sort_ofModifiers_of_sorts sorts
  refine ⟨?_, ?_, SortSpec.readsTokens_ofTokens⟩
  · rw [sorted]
    by_cases nothing : lists = []
    · subst nothing
      rfl
    · rw [if_neg nothing, Option.getD_some]
  · rw [sorted]
    by_cases nothing : lists = [] <;> simp [nothing]

/-- The second sort turns a direction and moves no field. -/
example :
    let modifiers := [.sort (SortSpec.ofText "name,id|desc"), .sort (SortSpec.ofText "name|-1")]
    (ofModifiers {} modifiers).sort.map (·.entries) =
      some [("name", .descending), ("id", .descending)] := by
  decide +kernel

end Selection

end RelationExpansion
