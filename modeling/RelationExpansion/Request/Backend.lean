import RelationExpansion.Store.Populate

/-! # Services and gateways

A service loads and creates root records, and a gateway attaches related ones.  Both work on a state
of some type; a store serves as either.
-/

namespace RelationExpansion

/-- Loads root records.  An error is a message. -/
structure Service (σ : Type) where
  /-- One page of a resource, and the size of the whole filtered collection. -/
  list : σ → String → Selection → Except (Unfinished String) (List Document × Nat)
  get : σ → String → Uuid → Except String (Option Document)
  /-- Creates a record of a resource at the given time, under a new identifier. -/
  create : σ → Uuid → String → String → Record → Except String Document × σ

/-- What comes back from a gateway, if anything does. -/
inductive Reply where
  | answered (documents : List Document)
  | failed (error : PopulateError)
  | unsorted (error : Disorder)
  | silent

/-- Attaches the relations in a set to documents: all of them, or none if that fails. -/
structure Gateway (σ : Type) where
  populate : σ → List Document → ExpansionSet → Reply

namespace Reply

def ofResult : Except (Unfinished PopulateError) (List Document) → Reply
  | .ok documents => .answered documents
  | .error (.failed error) => .failed error
  | .error (.unsorted error) => .unsorted error

/-- The result of waiting for a reply.  A gateway that stays silent is given up when the budget, in
milliseconds, is spent. -/
def await (budget : Option Nat) : Reply → Except (Unfinished PopulateError) (List Document)
  | .answered documents => .ok documents
  | .failed error => .error (.failed error)
  | .unsorted error => .error (.unsorted error)
  | .silent => .error (.failed (.timeout (budget.getD 0)))

end Reply

namespace Store

def service : Service Store where
  list store resource selection := (store.list resource selection).mapError Unfinished.unsorted
  get store resource id := .ok (store.find? resource id)
  create store id now resource record :=
    let (document, grown) := store.create id now resource record
    (.ok document, grown)

def gateway : Gateway Store where
  populate store roots set := Reply.ofResult (store.populate roots set)

end Store

end RelationExpansion
