import OperatorGraph.Config.Error
import OperatorGraph.Workspace

set_option autoImplicit false

namespace OperatorGraph

/-- The settings that all runners share. -/
structure Config where
  /-- The alignment of every workspace range in bytes. -/
  workspaceAlignment : Nat
  workspaceStrategy : Strategy
  /-- Runners kept per graph operation. -/
  poolCapacity : Nat
  /-- Views that change an element count are errors. -/
  checkViews : Bool
  /-- Every new graph is drawn into the log. -/
  dumpGraphs : Bool
  deriving DecidableEq, Repr

namespace Config

def default : Config where
  workspaceAlignment := 256
  workspaceStrategy := .linear
  poolCapacity := 64
  checkViews := true
  dumpGraphs := false

def IsPowerOfTwo (n : Nat) : Prop :=
  n ≠ 0 ∧ 1 <<< n.log2 = n

instance (n : Nat) : Decidable (IsPowerOfTwo n) :=
  inferInstanceAs (Decidable (_ ∧ _))

def validate (c : Config) : Except ConfigError Unit :=
  if ¬ IsPowerOfTwo c.workspaceAlignment then .error (.alignment c.workspaceAlignment)
  else if c.poolCapacity = 0 then .error .poolCapacity
  else .ok ()

end Config

end OperatorGraph
