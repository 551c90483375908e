set_option autoImplicit false

namespace OperatorGraph

inductive ConfigError where
  | alignment (value : Nat)
  | poolCapacity
  | environment (name value : String)
  deriving DecidableEq, Repr

def ConfigError.message : ConfigError → String
  | .alignment value => s!"workspace alignment must be a non-zero power of two, got {value}"
  | .poolCapacity => "pool capacity must be at least 1"
  | .environment name value =>
    s!"environment variable {name} has invalid value " ++ "`" ++ value ++ "`"

end OperatorGraph
