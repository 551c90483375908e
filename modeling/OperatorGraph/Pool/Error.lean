import OperatorGraph.Operator

set_option autoImplicit false

namespace OperatorGraph

/-- Why a dynamic update cannot reach a node's parameter. -/
inductive PatchFailure where
  | noSuchNode
  | family (expected found : Family)
  deriving DecidableEq, Repr

def PatchFailure.message : PatchFailure → String
  | .noSuchNode => "no node with this name"
  | .family expected found =>
    "expected operator parameter `" ++ expected.name ++ "`, found `" ++ found.name ++ "`"

inductive PoolError where
  | unregistered (operation : String)
  | busy (operation : String)
  | exhausted (operation : String) (capacity : Nat)
  | update (operation node : String) (reason : PatchFailure)
  deriving DecidableEq, Repr

def PoolError.message : PoolError → String
  | .unregistered operation =>
    "graph operation `" ++ operation ++ "` was not registered with the runner pool"
  | .busy operation =>
    "runner for `" ++ operation ++ "` with these parameters is already checked out"
  | .exhausted operation capacity =>
    s!"all {capacity} pooled runners for `" ++ operation ++ "` are checked out"
  | .update operation node reason =>
    "dynamic update of `" ++ operation ++ "` failed on node `" ++ node ++ "`: " ++ reason.message

end OperatorGraph
