import RelationExpansion.Http.MediaType
import RelationExpansion.Http.Target

/-! # Requests

A request as it is sent.  There is none unless its method, its target and its header fields are made
of the characters that may stand in them.
-/

namespace RelationExpansion.Http

structure Request where
  method : String
  target : Target
  /-- The content types, of which the first counts. -/
  contentTypes : List String := []
  body : String := ""
  deriving Inhabited

namespace Request

def isMethod (text : String) : Bool := text ≠ "" && text.toList.all MediaType.isTokenChar

/-- What may stand in the value of a header field. -/
def isFieldChar (c : Char) : Bool := c = '\t' || (' ' ≤ c && c ≠ '\x7f')

def ofParts? (method target : String) (contentTypes : List String) (body : String) :
    Option Request := do
  let target ← Target.ofText? target
  if isMethod method ∧ contentTypes.all fun value => value.toList.all isFieldChar then
    pure ⟨method, target, contentTypes, body⟩
  else none

end Request

end RelationExpansion.Http
