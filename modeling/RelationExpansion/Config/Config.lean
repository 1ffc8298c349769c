import RelationExpansion.Expansion.Selection
import RelationExpansion.Schema.Registry

/-! # Configurations

A configuration holds the page limits, the time that populating may take, and the declarations of
all resources under their names.
-/

namespace RelationExpansion

structure Config where
  limits : Limits := {}
  /-- In milliseconds; without a budget there is no limit. -/
  gatewayBudget : Option Nat := none
  resources : OrderedMap String ResourceDecl := OrderedMap.empty
  deriving Inhabited

namespace Config

/-- The declarations, each under the name that it is kept by. -/
def declarations (config : Config) : List ResourceDecl :=
  config.resources.entries.map fun entry => { entry.2 with name := entry.1 }

def registry (config : Config) : Except SchemaError Registry := Registry.build config.declarations

end Config

end RelationExpansion
