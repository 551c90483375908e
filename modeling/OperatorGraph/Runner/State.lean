set_option autoImplicit false

namespace OperatorGraph

inductive RunnerState where
  /-- Nothing is bound: a fresh runner, or one whose parameters were reached. -/
  | unbound
  | shapesResolved
  | workspacePlanned
  | executed
  deriving DecidableEq, Repr

namespace RunnerState

def describe : RunnerState → String
  | unbound => "Unbound"
  | shapesResolved => "ShapesResolved"
  | workspacePlanned => "WorkspacePlanned"
  | executed => "Executed"

/-- The workspace is laid out, so the runner may execute. -/
def isPlanned : RunnerState → Bool
  | workspacePlanned | executed => true
  | unbound | shapesResolved => false

end RunnerState

end OperatorGraph
