import OperatorGraph.Shader.Syntax

set_option autoImplicit false

namespace OperatorGraph.Shader

namespace Buffer

def render : Buffer → String
  | info => "info"
  | tensor binding => "t_" ++ toString binding

end Buffer

namespace BinaryOp

def render : BinaryOp → String
  | add => "+"
  | sub => "-"
  | mul => "*"
  | div => "/"
  | mod => "%"
  | less => "<"
  | atLeast => ">="
  | or => "||"

end BinaryOp

namespace Expr

mutual

def render : Expr → String
  | word value => toString value ++ "u"
  | int value => toString value
  | real text => text
  | var name => name
  | load buffer index => buffer.render ++ "[" ++ index.render ++ "]"
  | negate operand => "-" ++ operand.render
  | binary op lhs rhs => lhs.render ++ " " ++ op.render ++ " " ++ rhs.render
  | group inner => "(" ++ inner.render ++ ")"
  | call function args => function ++ "(" ++ ", ".intercalate (renderArgs args) ++ ")"

def renderArgs : List Expr → List String
  | [] => []
  | first :: rest => first.render :: renderArgs rest

end

end Expr

namespace Stmt

/-- The first line of a loop, up to its body. -/
def countHeader (counter : String) (first bound : Expr) : String :=
  "for (var " ++ counter ++ " = " ++ first.render ++ "; " ++ counter ++ " < " ++ bound.render ++
    "; " ++ counter ++ "++) \x7b"

def indent (lines : List String) : List String :=
  lines.map ("    " ++ ·)

mutual

/-- The lines of a statement. -/
def lines : Stmt → List String
  | bind name value => ["let " ++ name ++ " = " ++ value.render ++ ";"]
  | declare name value => ["var " ++ name ++ " = " ++ value.render ++ ";"]
  | assign name value => [name ++ " = " ++ value.render ++ ";"]
  | addTo name value => [name ++ " += " ++ value.render ++ ";"]
  | mulBy name value => [name ++ " *= " ++ value.render ++ ";"]
  | store buffer index value =>
    [buffer.render ++ "[" ++ index.render ++ "] = " ++ value.render ++ ";"]
  | count .inline counter first bound body =>
    [countHeader counter first bound ++ " " ++ " ".intercalate (bodyLines body) ++ " \x7d"]
  | count .block counter first bound body =>
    countHeader counter first bound :: indent (bodyLines body) ++ ["\x7d"]
  | when condition body =>
    ("if (" ++ condition.render ++ ") \x7b") :: indent (bodyLines body) ++ ["\x7d"]
  | leave => ["break;"]
  | stop => ["return;"]
  | blank => [""]

def bodyLines : List Stmt → List String
  | [] => []
  | first :: rest => first.lines ++ bodyLines rest

end

end Stmt

namespace Code

def render : Code → String
  | program body => "\n".intercalate (Stmt.bodyLines body)
  | text source => source

end Code

end OperatorGraph.Shader
