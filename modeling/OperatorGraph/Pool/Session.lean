import OperatorGraph.Pool
import OperatorGraph.Runner.Execute
import OperatorGraph.Runner.Setup

set_option autoImplicit false

namespace OperatorGraph.Pool

variable {Key State : Type} [DecidableEq Key] {operation : Key → Operation}

/-- Ends an outcome by putting a runner back. -/
def returning {α : Type} (p : Pool operation) (loan : Loan Key) (log : Log)
    (result : Except Error α) : Outcome (Pool operation) Error α :=
  let (returned, lines) := p.checkIn loan
  ⟨returned, log ++ lines, result⟩

/-- Sets a runner up. A runner that fails goes back. -/
def setUpLoan (p : Pool operation) (loan : Loan Key) (pack : Pack) :
    Outcome (Pool operation) Error (Loan Key × Nat) :=
  let ready := loan.runner.setup pack
  let next := { loan with runner := ready.state }
  match ready.result with
  | .error refusal => p.returning next ready.log (.error refusal)
  | .ok bytes =>
    let needs := (operation loan.key).label ++ s!" needs {bytes} workspace bytes"
    ⟨p, ready.log ++ [⟨.trace, needs⟩], .ok (next, bytes)⟩

/-- Checks a runner out and sets it up. The caller brings as many workspace bytes as it needs. -/
def setUp (p : Pool operation) (key : Key) (param : (operation key).Param) (pack : Pack) :
    Outcome (Pool operation) Error (Loan Key × Nat) :=
  (p.checkOut key param).andThen fun next loan => next.setUpLoan loan pack

/-- Runs a runner that is set up, and puts it back. -/
def runLoan (p : Pool operation) (registry : Registry State) (stream : State) (loan : Loan Key)
    (pack : Pack) : Outcome (Pool operation × State) Error Unit :=
  let ran := loan.runner.execute registry stream pack
  let next := { loan with runner := ran.state.1 }
  (p.returning next ran.log ran.result).within (·, ran.state.2)

/-- Sets a runner up and runs it on a pack that brings its workspace already. -/
def run (p : Pool operation) (registry : Registry State) (stream : State) (key : Key)
    (param : (operation key).Param) (pack : Pack) : Outcome (Pool operation × State) Error Unit :=
  ((p.setUp key param pack).within (·, stream)).andThen fun (next, stream) (loan, _) =>
    next.runLoan registry stream loan pack

end OperatorGraph.Pool
