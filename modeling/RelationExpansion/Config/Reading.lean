import RelationExpansion.OrderedMap
import RelationExpansion.Config.Datum

/-! # Reading data

A datum is read as a structure if each field that the structure knows is given at most once and has
the type that the field asks for.  Fields that it does not know are passed over, and a field that is
not given has its default.  In a mapping from names the last entry of a name counts.

Shared data can refer to each other, even in circles.  So reading may follow only so many
references, and fails when it has to follow more.
-/

namespace RelationExpansion

/-- Reads with the shared data at hand.  What comes out is told together with how many more
references may be followed. -/
abbrev Reading (α : Type) := ReaderT (List (Nat × Datum)) (StateT Nat Option) α

namespace Reading

variable {α : Type}

def ofOption (result : Option α) : Reading α := fun _ left => result.map fun value => (value, left)

def fail : Reading α := ofOption none

/-- What is read with some shared data and references. -/
def run? (shared : List (Nat × Datum)) (references : Nat) (reading : Reading α) : Option α :=
  (reading shared references).map Prod.fst

end Reading

namespace Datum

variable {α : Type}

/-- The datum itself, or the shared one that it refers to. -/
def resolved (datum : Datum) : Reading Datum :=
  match datum with
  | .shared number => fun shared left =>
    match left with
    | 0 => none
    | left + 1 => (Assoc.get? number shared).map fun found => (found, left)
  | own => pure own

/-! ## Scalars -/

def readText (datum : Datum) : Reading String := do
  match ← datum.resolved with
  | .scalar value => Reading.ofOption value.text
  | _ => Reading.fail

def readCount (datum : Datum) : Reading Nat := do
  match ← datum.resolved with
  | .scalar value => Reading.ofOption value.count
  | _ => Reading.fail

/-- A value that may be absent. -/
def readOptional (read : Datum → Reading α) (datum : Datum) : Reading (Option α) := do
  let datum ← datum.resolved
  match datum with
  | .scalar value =>
    match value.presence with
    | .present => some <$> read datum
    | .absent => pure none
    | .faulty => Reading.fail
  | _ => some <$> read datum

/-! ## Collections -/

/-- Entries with their names. -/
def readNames (entries : List (Datum × Datum)) : Reading (List (String × Datum)) :=
  entries.mapM fun entry => do pure (← entry.1.readText, entry.2)

/-- The only entry that has one of some names, if there is any; there must not be two. -/
def onlyEntry? (names : List String) (entries : List (String × Datum)) : Option (Option Datum) :=
  match entries.filter fun entry => names.contains entry.1 with
  | [] => some none
  | [entry] => some (some entry.2)
  | _ => none

/-- The data for the fields of a structure, each with the names that it goes by. -/
def readStructure (fields : List (List String)) (datum : Datum) :
    Reading (List (Option Datum)) := do
  match ← datum.resolved with
  | .fields entries =>
    let entries ← readNames entries
    Reading.ofOption (fields.mapM fun names => onlyEntry? names entries)
  | .positions items =>
    if items.length ≤ fields.length then
      pure (items.map some ++ List.replicate (fields.length - items.length) none)
    else Reading.fail
  | .scalar value => if value.isBlank then pure (fields.map fun _ => none) else Reading.fail
  | _ => Reading.fail

/-- The values of a mapping from names. -/
def readEntries (read : Datum → Reading α) (datum : Datum) : Reading (OrderedMap String α) := do
  match ← datum.resolved with
  | .fields entries =>
    let entries ← readNames entries
    let values ← entries.mapM fun entry => do pure (entry.1, ← read entry.2)
    pure (OrderedMap.ofList values)
  | .scalar value => if value.isBlank then pure OrderedMap.empty else Reading.fail
  | _ => Reading.fail

/-- Reads a field that has a default. -/
def withDefault (default : α) (read : Datum → Reading α) (datum : Option Datum) : Reading α :=
  match datum with
  | some datum => read datum
  | none => pure default

end Datum

end RelationExpansion
