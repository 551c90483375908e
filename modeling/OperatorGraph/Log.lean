set_option autoImplicit false

namespace OperatorGraph

inductive Severity where
  | error | warn | info | debug | trace
  deriving DecidableEq, Repr

def Severity.render : Severity → String
  | .error => "error"
  | .warn => "warn"
  | .info => "info"
  | .debug => "debug"
  | .trace => "trace"

structure LogLine where
  severity : Severity
  text : String
  deriving DecidableEq, Repr

abbrev Log := List LogLine

end OperatorGraph
