import OperatorGraph.Dispatch.Plan

set_option autoImplicit false

namespace OperatorGraph.DryRun

/-- A launch that was accepted, with its dispatches if they were asked for. -/
structure Record where
  launch : Launch
  dispatches : Option (List Dispatch)
  deriving Repr

/-- Rejects the launches of some families. A registry that plans also refuses the launches that
have no dispatches to show for. -/
def registry (rejected : List Family) (plans : Bool) : Registry (List Record) where
  launch launch records :=
    if launch.param.family ∈ rejected then
      .failed records (.rejected (.disabled launch.param.family))
    else if plans then
      match launch.plan with
      | .error refusal => .failed records refusal
      | .ok dispatches => .done (records ++ [⟨launch, some dispatches⟩]) ()
    else .done (records ++ [⟨launch, none⟩]) ()

end OperatorGraph.DryRun
