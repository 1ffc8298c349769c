/-! # Finite maps that remember the order of their keys

`Assoc` holds the operations on plain lists of pairs, which is what recursive data such as a JSON
object can hold.  `OrderedMap` is a list of pairs whose keys are known to be distinct.

Writing to a key that is already there keeps its place and takes the new value; a new key comes
last.  The main statements say what `put` does to the keys (`keys_put`) and to later reads
(`get?_put`).
-/

namespace RelationExpansion

theorem eraseDups_of_nodup {α : Type u} [BEq α] [LawfulBEq α] {list : List α}
    (distinct : list.Nodup) : list.eraseDups = list := by
  induction list with
  | nil => rfl
  | cons first rest ih =>
    obtain ⟨absent, others⟩ := List.nodup_cons.1 distinct
    have kept : rest.filter (fun other => !other == first) = rest :=
      List.filter_eq_self.2 fun other mem => by
        have different : other ≠ first := fun same => absent (same ▸ mem)
        simpa using different
    rw [List.eraseDups_cons, kept, ih others]

namespace Assoc

variable {κ : Type u} {α : Type v} [DecidableEq κ]

/-- The value of the first pair with this key. -/
def get? (key : κ) : List (κ × α) → Option α
  | [] => none
  | entry :: rest => if entry.1 = key then some entry.2 else get? key rest

def put (key : κ) (value : α) : List (κ × α) → List (κ × α)
  | [] => [(key, value)]
  | entry :: rest =>
    if entry.1 = key then (key, value) :: rest else entry :: put key value rest

def keys (entries : List (κ × α)) : List κ := entries.map Prod.fst

/-- Writes pairs one after the other, so that of two with the same key the later decides. -/
def putAll (start : List (κ × α)) (entries : List (κ × α)) : List (κ × α) :=
  entries.foldl (fun written entry => put entry.1 entry.2 written) start

def ofList (entries : List (κ × α)) : List (κ × α) := putAll [] entries

/-- Takes a key out by moving the last pair into its place. -/
def eraseSwap (key : κ) (entries : List (κ × α)) : List (κ × α) :=
  match entries.span (fun entry => entry.1 ≠ key) with
  | (_, []) => entries
  | (before, _ :: after) =>
    match after.getLast? with
    | none => before
    | some moved => before ++ moved :: after.dropLast

/-! ## Laws -/

theorem keys_put (key : κ) (value : α) (entries : List (κ × α)) :
    keys (put key value entries) =
      if key ∈ keys entries then keys entries else keys entries ++ [key] := by
  induction entries with
  | nil => simp [put, keys]
  | cons entry rest ih =>
    by_cases h : entry.1 = key
    · simp [put, keys, h]
    · have hne : ¬ key = entry.1 := fun e => h e.symm
      simp only [keys] at ih
      simp only [put, h, if_false, keys, List.map_cons, ih, List.mem_cons, hne, false_or]
      split <;> simp_all

theorem mem_keys_put_iff {key other : κ} {value : α} {entries : List (κ × α)} :
    other ∈ keys (put key value entries) ↔ other ∈ keys entries ∨ other = key := by
  rw [keys_put]
  split
  · rename_i known
    exact ⟨.inl, fun either => either.elim id fun same => same ▸ known⟩
  · simp

theorem nodup_keys_put {key : κ} {value : α} {entries : List (κ × α)}
    (distinct : (keys entries).Nodup) : (keys (put key value entries)).Nodup := by
  rw [keys_put]
  split
  · exact distinct
  · rename_i absent
    rw [List.nodup_append]
    refine ⟨distinct, by simp, ?_⟩
    intro other mem last memLast same
    simp only [List.mem_singleton] at memLast
    exact absent (memLast ▸ same ▸ mem)

theorem get?_put (key other : κ) (value : α) (entries : List (κ × α)) :
    get? other (put key value entries) =
      if key = other then some value else get? other entries := by
  induction entries with
  | nil => simp [put, get?]
  | cons entry rest ih =>
    by_cases h : entry.1 = key
    · by_cases e : key = other <;> simp [put, get?, h, e]
    · by_cases e : key = other
      · subst e; simp [put, get?, h, ih]
      · simp [put, get?, h, ih, e]

theorem get?_isSome {key : κ} {entries : List (κ × α)} :
    (get? key entries).isSome ↔ key ∈ keys entries := by
  induction entries with
  | nil => simp [get?, keys]
  | cons entry rest ih =>
    by_cases h : entry.1 = key
    · simp [get?, keys, h]
    · have hne : ¬ key = entry.1 := fun e => h e.symm
      simpa [get?, keys, h, hne] using ih

theorem get?_eq_none_iff {key : κ} {entries : List (κ × α)} :
    get? key entries = none ↔ key ∉ keys entries := by
  rw [← get?_isSome, Option.not_isSome_iff_eq_none]

/-- Of pairs with distinct keys it does not matter which is written first. -/
theorem get?_putAll {key : κ} {start entries : List (κ × α)} (distinct : (keys entries).Nodup) :
    get? key (putAll start entries) = (get? key entries).or (get? key start) := by
  induction entries generalizing start with
  | nil => rfl
  | cons entry rest ih =>
    obtain ⟨absent, others⟩ := List.nodup_cons.1 distinct
    have step : putAll start (entry :: rest) = putAll (put entry.1 entry.2 start) rest := rfl
    rw [step, ih others, get?_put, get?]
    by_cases same : entry.1 = key
    · have later : get? key rest = none := get?_eq_none_iff.2 (same ▸ absent)
      simp [same, later]
    · simp [same]

theorem put_of_not_mem {key : κ} {value : α} {entries : List (κ × α)}
    (absent : key ∉ keys entries) : put key value entries = entries ++ [(key, value)] := by
  induction entries with
  | nil => rfl
  | cons entry rest ih =>
    simp only [keys, List.map_cons, List.mem_cons, not_or] at absent
    simp [put, Ne.symm absent.1, ih absent.2]

theorem putAll_eq_append {start entries : List (κ × α)}
    (distinct : (keys (start ++ entries)).Nodup) : putAll start entries = start ++ entries := by
  induction entries generalizing start with
  | nil => simp [putAll]
  | cons entry rest ih =>
    have absent : entry.1 ∉ keys start := by
      simp only [keys, List.map_append, List.map_cons, List.nodup_append] at distinct
      exact fun mem => distinct.2.2 _ mem _ (by simp) rfl
    have step : putAll start (entry :: rest) = putAll (put entry.1 entry.2 start) rest := rfl
    rw [step, put_of_not_mem absent, ih (by simpa using distinct), List.append_assoc]
    rfl

theorem mem_keys_putAll_iff {key : κ} {start entries : List (κ × α)} :
    key ∈ keys (putAll start entries) ↔ key ∈ keys start ∨ key ∈ keys entries := by
  induction entries generalizing start with
  | nil => simp [putAll, keys]
  | cons entry rest ih =>
    have step : putAll start (entry :: rest) = putAll (put entry.1 entry.2 start) rest := rfl
    rw [step, ih, mem_keys_put_iff, or_assoc]
    simp [keys]

/-- Keys that are there already keep their places, and new ones follow in the order in which they
are first written. -/
theorem keys_putAll_eraseDups (start entries : List (κ × α)) :
    keys (putAll start entries) =
      keys start ++ ((keys entries).filter (· ∉ keys start)).eraseDups := by
  induction entries generalizing start with
  | nil => simp [putAll, keys]
  | cons entry rest ih =>
    have step : putAll start (entry :: rest) = putAll (put entry.1 entry.2 start) rest := rfl
    have split : keys (entry :: rest) = entry.1 :: keys rest := rfl
    rw [step, split, ih, keys_put]
    by_cases known : entry.1 ∈ keys start
    · rw [if_pos known, List.filter_cons_of_neg (by simpa using known)]
    · -- The key is there once it is written, so that it is not written again as a new one.
      have later : (keys rest).filter (· ∉ keys start ++ [entry.1]) =
          ((keys rest).filter (· ∉ keys start)).filter fun other => !other == entry.1 := by
        rw [List.filter_filter]
        refine List.filter_congr fun key _ => ?_
        by_cases same : key = entry.1 <;> simp [same]
      rw [if_neg known, List.filter_cons_of_pos (by simpa using known), List.eraseDups_cons, later,
        List.append_assoc]
      rfl

theorem keys_putAll {start entries : List (κ × α)} (distinct : (keys entries).Nodup) :
    keys (putAll start entries) = keys start ++ (keys entries).filter (· ∉ keys start) := by
  rw [keys_putAll_eraseDups, eraseDups_of_nodup (distinct.filter _)]

theorem get?_filter (key : κ) (test : κ → Bool) (entries : List (κ × α)) :
    get? key (entries.filter fun entry => test entry.1) =
      if test key then get? key entries else none := by
  induction entries with
  | nil => simp [get?]
  | cons entry rest ih =>
    by_cases same : entry.1 = key
    · by_cases passes : test key = true
      · simp [same, passes, get?]
      · simp [same, passes, ih]
    · by_cases passes : test entry.1 = true
      · simp [passes, get?, same, ih]
      · simp [passes, get?, same, ih]

omit [DecidableEq κ] in
theorem keys_map {β : Type w} (change : κ → α → β) (entries : List (κ × α)) :
    keys (entries.map fun entry => (entry.1, change entry.1 entry.2)) = keys entries := by
  simp [keys]

theorem get?_map {β : Type w} (change : κ → α → β) (key : κ) (entries : List (κ × α)) :
    get? key (entries.map fun entry => (entry.1, change entry.1 entry.2)) =
      (get? key entries).map (change key) := by
  induction entries with
  | nil => rfl
  | cons entry rest ih =>
    by_cases same : entry.1 = key
    · simp [get?, same]
    · simpa [get?, same] using ih

omit [DecidableEq κ] in
/-- Taking out pairs takes out keys. -/
theorem keys_filterMap_sublist {β : Type w} (change : κ → α → Option β) (entries : List (κ × α)) :
    (keys (entries.filterMap fun entry => (change entry.1 entry.2).map (entry.1, ·))).Sublist
      (keys entries) := by
  induction entries with
  | nil => exact .slnil
  | cons entry rest ih =>
    cases changed : change entry.1 entry.2 with
    | none => simpa [changed, keys] using ih.cons entry.1
    | some value => simpa [changed, keys] using ih.cons_cons entry.1

theorem get?_putAll_of_not_mem {key : κ} {start entries : List (κ × α)}
    (absent : key ∉ keys entries) : get? key (putAll start entries) = get? key start := by
  induction entries generalizing start with
  | nil => rfl
  | cons entry rest ih =>
    simp only [keys, List.map_cons, List.mem_cons, not_or] at absent
    have step : putAll start (entry :: rest) = putAll (put entry.1 entry.2 start) rest := rfl
    rw [step, ih absent.2, get?_put, if_neg (Ne.symm absent.1)]

/-- What is read was written, or was there before and has not been written to. -/
theorem get?_putAll_cases {key : κ} {value : α} {start entries : List (κ × α)}
    (found : get? key (putAll start entries) = some value) :
    (key, value) ∈ entries ∨ (key ∉ keys entries ∧ get? key start = some value) := by
  induction entries generalizing start with
  | nil => exact .inr ⟨List.not_mem_nil, found⟩
  | cons entry rest ih =>
    rcases ih found with later | ⟨absent, before⟩
    · exact .inl (List.mem_cons_of_mem _ later)
    · rw [get?_put] at before
      by_cases same : entry.1 = key
      · simp only [same, if_true, Option.some.injEq] at before
        exact .inl (List.mem_cons.2 (.inl (Prod.ext same.symm before.symm)))
      · simp only [same, if_false] at before
        exact .inr ⟨by simpa [keys, Ne.symm same] using absent, before⟩

/-- Two ways of making pairs from the same ones that agree on a key are read alike there. -/
theorem get?_putAll_filterMap_congr {β : Type w} {key : κ} {first second : κ → α → Option β}
    (agree : first key = second key) (entries : List (κ × α)) {start start' : List (κ × β)}
    (before : get? key start = get? key start') :
    get? key (putAll start
        (entries.filterMap fun entry => (first entry.1 entry.2).map (entry.1, ·))) =
      get? key (putAll start'
        (entries.filterMap fun entry => (second entry.1 entry.2).map (entry.1, ·))) := by
  induction entries generalizing start start' with
  | nil => exact before
  | cons entry rest ih =>
    have step : ∀ (change : κ → α → Option β) (written : List (κ × β)), putAll written
          ((entry :: rest).filterMap fun entry => (change entry.1 entry.2).map (entry.1, ·)) =
        putAll (((change entry.1 entry.2).map fun value => put entry.1 value written).getD written)
          (rest.filterMap fun entry => (change entry.1 entry.2).map (entry.1, ·)) := by
      intro change written
      cases made : change entry.1 entry.2 with
      | none => simp [made]
      | some value => simp [made, putAll]
    rw [step, step]
    apply ih
    -- A pair with another key is not read, and one with this key is made alike.
    by_cases same : entry.1 = key
    · rw [same, agree]
      cases second key entry.2 with
      | none => exact before
      | some value => simp [get?_put]
    · have kept : ∀ (made : Option β) (written : List (κ × β)),
          get? key ((made.map fun value => put entry.1 value written).getD written) =
            get? key written := by
        intro made written
        cases made with
        | none => rfl
        | some value => simp [get?_put, same]
      rw [kept, kept, before]

theorem mem_of_get?_eq_some {key : κ} {value : α} {entries : List (κ × α)}
    (found : get? key entries = some value) : (key, value) ∈ entries := by
  induction entries with
  | nil => cases found
  | cons entry rest ih =>
    by_cases h : entry.1 = key
    · simp only [get?, h, if_true, Option.some.injEq] at found
      exact List.mem_cons.2 (.inl (Prod.ext h.symm found.symm))
    · simp only [get?, h, if_false] at found
      exact List.mem_cons_of_mem _ (ih found)

theorem get?_eq_some_of_mem {key : κ} {value : α} {entries : List (κ × α)}
    (distinct : (keys entries).Nodup) (mem : (key, value) ∈ entries) :
    get? key entries = some value := by
  induction entries with
  | nil => cases mem
  | cons entry rest ih =>
    obtain ⟨absent, others⟩ := List.nodup_cons.1 distinct
    rcases List.mem_cons.1 mem with rfl | inside
    · simp [get?]
    · have other : entry.1 ≠ key := fun same =>
        absent (same ▸ List.mem_map_of_mem inside)
      simp only [get?, other, if_false]
      exact ih others inside

/-! ### Writing twice -/

theorem put_put (key : κ) (value earlier : α) (entries : List (κ × α)) :
    put key value (put key earlier entries) = put key value entries := by
  induction entries with
  | nil => simp [put]
  | cons entry rest ih =>
    by_cases same : entry.1 = key
    · simp [put, same]
    · simp [put, same, ih]

/-- A key that is there already may be written before another one or after it. -/
theorem put_comm_of_mem {key other : κ} {entries : List (κ × α)} (different : other ≠ key)
    (known : key ∈ keys entries) (value new : α) :
    put key value (put other new entries) = put other new (put key value entries) := by
  induction entries with
  | nil => cases known
  | cons entry rest ih =>
    by_cases same : entry.1 = key
    · simp [put, same, Ne.symm different]
    · have later : key ∈ keys rest := by simpa [keys, Ne.symm same] using known
      by_cases first : entry.1 = other
      · simp [put, first, different]
      · simp [put, same, first, ih later]

theorem put_putAll_of_mem {key : κ} {start entries : List (κ × α)} (known : key ∈ keys start)
    (absent : key ∉ keys entries) (value : α) :
    put key value (putAll start entries) = putAll (put key value start) entries := by
  induction entries generalizing start with
  | nil => rfl
  | cons entry rest ih =>
    simp only [keys, List.map_cons, List.mem_cons, not_or] at absent
    have step : ∀ written, putAll written (entry :: rest) =
        putAll (put entry.1 entry.2 written) rest := fun _ => rfl
    rw [step, step, ih (mem_keys_put_iff.2 (.inl known)) absent.2,
      put_comm_of_mem (Ne.symm absent.1) known]

/-- Of pairs with distinct keys, one that is changed or added is written as if it came last. -/
theorem putAll_put {entries : List (κ × α)} (distinct : (keys entries).Nodup) (key : κ) (value : α)
    (start : List (κ × α)) :
    putAll start (put key value entries) = put key value (putAll start entries) := by
  induction entries generalizing start with
  | nil => rfl
  | cons entry rest ih =>
    obtain ⟨absent, others⟩ := List.nodup_cons.1 distinct
    have step : ∀ (first : κ × α) (later : List (κ × α)), putAll start (first :: later) =
        putAll (put first.1 first.2 start) later := fun _ _ => rfl
    by_cases same : entry.1 = key
    · subst same
      have known : entry.1 ∈ keys (put entry.1 entry.2 start) := mem_keys_put_iff.2 (.inr rfl)
      have changed : put entry.1 value (entry :: rest) = (entry.1, value) :: rest := by simp [put]
      rw [changed, step, step, put_putAll_of_mem known absent, put_put]
    · have kept : put key value (entry :: rest) = entry :: put key value rest := by simp [put, same]
      rw [kept, step, step, ih others]

theorem putAll_putAll {written : List (κ × α)} (distinct : (keys written).Nodup)
    (start entries : List (κ × α)) :
    putAll start (putAll written entries) = putAll (putAll start written) entries := by
  induction entries generalizing written with
  | nil => rfl
  | cons entry rest ih =>
    have step : ∀ earlier, putAll earlier (entry :: rest) =
        putAll (put entry.1 entry.2 earlier) rest := fun _ => rfl
    rw [step, step, ih (nodup_keys_put distinct), putAll_put distinct]

end Assoc

/-- Pairs with distinct keys, in the order in which the keys first came. -/
structure OrderedMap (κ : Type u) (α : Type v) where
  entries : List (κ × α)
  distinct : (Assoc.keys entries).Nodup

namespace OrderedMap

variable {κ : Type u} {α : Type v}

theorem ext {left right : OrderedMap κ α} (same : left.entries = right.entries) : left = right := by
  cases left; cases right; cases same; rfl

instance [DecidableEq κ] [DecidableEq α] : DecidableEq (OrderedMap κ α) := fun left right =>
  if same : left.entries = right.entries then isTrue (ext same)
  else isFalse fun e => same (e ▸ rfl)

def empty : OrderedMap κ α := ⟨[], List.nodup_nil⟩

instance : EmptyCollection (OrderedMap κ α) := ⟨empty⟩

instance : Inhabited (OrderedMap κ α) := ⟨empty⟩

def keys (map : OrderedMap κ α) : List κ := Assoc.keys map.entries

def size (map : OrderedMap κ α) : Nat := map.entries.length

def isEmpty (map : OrderedMap κ α) : Bool := map.entries.isEmpty

/-- The entries whose key passes the test, in the same order. -/
def filterKeys (test : κ → Bool) (map : OrderedMap κ α) : OrderedMap κ α where
  entries := map.entries.filter (fun entry => test entry.1)
  distinct := (List.filter_sublist.map Prod.fst).nodup map.distinct

variable [DecidableEq κ]

def get? (map : OrderedMap κ α) (key : κ) : Option α := Assoc.get? key map.entries

def contains (map : OrderedMap κ α) (key : κ) : Bool := (map.get? key).isSome

def insert (map : OrderedMap κ α) (key : κ) (value : α) : OrderedMap κ α where
  entries := Assoc.put key value map.entries
  distinct := Assoc.nodup_keys_put map.distinct

/-- Leaves a key that is already there alone. -/
def insertIfNew (map : OrderedMap κ α) (key : κ) (value : α) : OrderedMap κ α :=
  if map.contains key then map else map.insert key value

/-- Writes all pairs in turn. -/
def insertMany (map : OrderedMap κ α) (entries : List (κ × α)) : OrderedMap κ α :=
  entries.foldl (fun written entry => written.insert entry.1 entry.2) map

def ofList (entries : List (κ × α)) : OrderedMap κ α := empty.insertMany entries

theorem get?_insert (map : OrderedMap κ α) (key other : κ) (value : α) :
    (map.insert key value).get? other = if key = other then some value else map.get? other :=
  Assoc.get?_put key other value map.entries

theorem get?_filterKeys (map : OrderedMap κ α) (test : κ → Bool) (key : κ) :
    (map.filterKeys test).get? key = if test key then map.get? key else none :=
  Assoc.get?_filter key test map.entries

theorem contains_iff_mem_keys {map : OrderedMap κ α} {key : κ} :
    map.contains key = true ↔ key ∈ map.keys :=
  Assoc.get?_isSome

theorem mem_keys_insert_iff {map : OrderedMap κ α} {key other : κ} {value : α} :
    other ∈ (map.insert key value).keys ↔ other ∈ map.keys ∨ other = key :=
  Assoc.mem_keys_put_iff

theorem get?_eq_some_iff_mem {map : OrderedMap κ α} {key : κ} {value : α} :
    map.get? key = some value ↔ (key, value) ∈ map.entries :=
  ⟨Assoc.mem_of_get?_eq_some, Assoc.get?_eq_some_of_mem map.distinct⟩

theorem get?_insertMany_eq_some_iff {map : OrderedMap κ α} {entries : List (κ × α)} {key : κ}
    {value : α} :
    (map.insertMany entries).get? key = some value ↔
      (∃ before after, entries = before ++ (key, value) :: after ∧ key ∉ Assoc.keys after) ∨
        key ∉ Assoc.keys entries ∧ map.get? key = some value := by
  induction entries generalizing map with
  | nil => simp [insertMany, Assoc.keys]
  | cons entry rest ih =>
    have step : map.insertMany (entry :: rest) = (map.insert entry.1 entry.2).insertMany rest := rfl
    rw [step, ih, get?_insert]
    constructor
    · rintro (⟨before, after, rfl, last⟩ | ⟨absent, found⟩)
      · exact .inl ⟨entry :: before, after, rfl, last⟩
      · by_cases same : entry.1 = key
        · simp only [same, if_true, Option.some.injEq] at found
          exact .inl ⟨[], rest, by rw [← same, ← found]; rfl, absent⟩
        · simp only [same, if_false] at found
          refine .inr ⟨?_, found⟩
          simpa [Assoc.keys, Ne.symm same] using absent
    · rintro (⟨before, after, split, last⟩ | ⟨absent, found⟩)
      · cases before with
        | nil =>
          cases split
          exact .inr ⟨last, by simp⟩
        | cons first before =>
          cases split
          exact .inl ⟨before, after, rfl, last⟩
      · simp only [Assoc.keys, List.map_cons, List.mem_cons, not_or] at absent
        exact .inr ⟨absent.2, by simp [Ne.symm absent.1, found]⟩

/-- Of several pairs with one key the last is read. -/
theorem get?_ofList_eq_some_iff {entries : List (κ × α)} {key : κ} {value : α} :
    (ofList entries).get? key = some value ↔
      ∃ before after, entries = before ++ (key, value) :: after ∧ key ∉ Assoc.keys after := by
  rw [ofList, get?_insertMany_eq_some_iff]
  simp [empty, get?, Assoc.get?]

theorem entries_insertMany (map : OrderedMap κ α) (entries : List (κ × α)) :
    (map.insertMany entries).entries = Assoc.putAll map.entries entries := by
  induction entries generalizing map with
  | nil => rfl
  | cons entry rest ih => exact ih (map.insert entry.1 entry.2)

/-- The entries of a map, written in turn, make the map again. -/
theorem ofList_entries (map : OrderedMap κ α) : ofList map.entries = map := by
  apply ext
  rw [ofList, entries_insertMany]
  exact Assoc.putAll_eq_append map.distinct

/-- The keys of a map that is made of pairs come in the order in which they first come there. -/
theorem keys_ofList (entries : List (κ × α)) :
    (ofList entries).keys = (Assoc.keys entries).eraseDups := by
  have new : (Assoc.keys entries).filter (· ∉ Assoc.keys (empty : OrderedMap κ α).entries) =
      Assoc.keys entries := List.filter_eq_self.2 fun key _ => by simp [empty, Assoc.keys]
  rw [keys, ofList, entries_insertMany, Assoc.keys_putAll_eraseDups, new]
  rfl

/-- Pairs of which a map is made first are written to another map as the pairs themselves are. -/
theorem insertMany_ofList (map : OrderedMap κ α) (entries : List (κ × α)) :
    map.insertMany (ofList entries).entries = map.insertMany entries := by
  apply ext
  rw [entries_insertMany, entries_insertMany, ofList, entries_insertMany]
  exact Assoc.putAll_putAll empty.distinct map.entries entries

theorem mem_keys_ofList_iff {entries : List (κ × α)} {key : κ} :
    key ∈ (ofList entries).keys ↔ key ∈ Assoc.keys entries := by
  have grows : ∀ (entries : List (κ × α)) (map : OrderedMap κ α),
      key ∈ (map.insertMany entries).keys ↔ key ∈ map.keys ∨ key ∈ Assoc.keys entries := by
    intro entries
    induction entries with
    | nil => intro map; simp [insertMany, Assoc.keys]
    | cons entry rest ih =>
      intro map
      have step : map.insertMany (entry :: rest) = (map.insert entry.1 entry.2).insertMany rest :=
        rfl
      rw [step, ih, mem_keys_insert_iff]
      simp [Assoc.keys, or_assoc]
  rw [ofList, grows]
  simp [empty, keys, Assoc.keys]

theorem get?_insertIfNew (map : OrderedMap κ α) (key other : κ) (value : α) :
    (map.insertIfNew key value).get? other =
      (map.get? other).or (if key = other then some value else none) := by
  unfold insertIfNew
  split
  · rename_i known
    by_cases same : key = other
    · obtain ⟨found, reads⟩ := Option.isSome_iff_exists.1 known
      simp [← same, reads]
    · simp [same]
  · rename_i unknown
    rw [get?_insert]
    by_cases same : key = other
    · have absent : map.get? other = none := by simpa [contains, same] using unknown
      simp [same, absent]
    · simp [same]

theorem get?_foldl_insertIfNew (map : OrderedMap κ α) (added : List κ) (key : κ) (value : α) :
    (added.foldl (fun grown new => grown.insertIfNew new value) map).get? key =
      (map.get? key).or (if key ∈ added then some value else none) := by
  induction added generalizing map with
  | nil => simp
  | cons new rest ih =>
    rw [List.foldl_cons, ih, get?_insertIfNew, Option.or_assoc]
    by_cases first : new = key
    · simp [first]
    · simp [first, Ne.symm first]

end OrderedMap

end RelationExpansion
