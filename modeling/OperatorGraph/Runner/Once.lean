import OperatorGraph.Runner.Execute
import OperatorGraph.Runner.Setup

set_option autoImplicit false

namespace OperatorGraph.Runner

variable {State : Type}

/-- Sets up and executes. The pack brings its workspace already. -/
def runOnce (r : Runner) (registry : Registry State) (stream : State) (pack : Pack) :
    Outcome (Runner × State) Error Unit :=
  ((r.setup pack).within (·, stream)).andThen fun (ready, stream) _ =>
    ready.execute registry stream pack

end OperatorGraph.Runner
