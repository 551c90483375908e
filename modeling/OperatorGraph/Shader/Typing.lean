import OperatorGraph.Shader.Kernel

set_option autoImplicit false

namespace OperatorGraph.Shader

inductive ValueType where
  | word
  | int
  /-- An integer whose type its context decides. -/
  | literal
  | real
  | flag
  deriving DecidableEq, Repr

namespace ValueType

/-- The type that a name of the language stands for. -/
def ofName? : String → Option ValueType
  | "u32" => some word
  | "i32" => some int
  | "f32" => some real
  | _ => none

/-- The type that two operands have in common. A literal takes the type of the other one. -/
def join? : ValueType → ValueType → Option ValueType
  | word, word | word, literal | literal, word => some word
  | int, int | int, literal | literal, int => some int
  | real, real => some real
  | flag, flag => some flag
  | _, _ => none

/-- A value of this type can be kept where one of another type is expected. -/
def fits (value place : ValueType) : Bool :=
  place.join? value = some place

/-- The type of a variable whose first value has this type. -/
def ofVariable : ValueType → ValueType
  | literal => int
  | type => type

/-- A value of this type can stand for a position in an array. -/
def isPosition : ValueType → Bool
  | word | literal => true
  | _ => false

def negated? : ValueType → Option ValueType
  | int => some int
  | real => some real
  | _ => none

/-- The types of the functions of the language itself. -/
def builtin? : String → List ValueType → Option ValueType
  | "f32", [a] => if a = flag then none else some real
  | "i32", [a] => if a = flag then none else some int
  | "u32", [a] => if a = flag then none else some word
  | "bitcast<f32>", [word] => some real
  | "max", [real, real] => some real
  | "exp", [real] => some real
  | "tanh", [real] => some real
  | "inverseSqrt", [real] => some real
  | _, _ => none

end ValueType

/-- The type of an operator's result on two operands of one type. -/
def BinaryOp.resultType? (op : BinaryOp) (operand : ValueType) : Option ValueType :=
  match op, operand with
  | add, .word | sub, .word | mul, .word | div, .word | mod, .word => some .word
  | add, .int | sub, .int | mul, .int | div, .int | mod, .int => some .int
  | add, .real | sub, .real | mul, .real | div, .real => some .real
  | less, .word | atLeast, .word | less, .int | atLeast, .int => some .flag
  | or, .flag => some .flag
  | _, _ => none

/-- What the declarations around a program say about types. -/
structure Declared where
  /-- The type of a buffer's elements. -/
  element? : Buffer → Option ValueType
  /-- The result type of a function that is not part of the language, on arguments of some
  types. -/
  callee? : String → List ValueType → Option ValueType

/-- The names in scope, the innermost first. -/
abbrev Scope := List (String × ValueType)

namespace Expr

mutual

/-- The type of an expression, if it has one. -/
def type? (d : Declared) (scope : Scope) : Expr → Option ValueType
  | word _ => some .word
  | int _ => some .literal
  | real _ => some .real
  | var name => scope.lookup name
  | load buffer index => do
    if (← index.type? d scope).isPosition then d.element? buffer else none
  | negate operand => do (← operand.type? d scope).negated?
  | binary op lhs rhs => do
    op.resultType? (← (← lhs.type? d scope).join? (← rhs.type? d scope))
  | group inner => inner.type? d scope
  | call function args => do
    let types ← types? d scope args
    ValueType.builtin? function types <|> d.callee? function types

def types? (d : Declared) (scope : Scope) : List Expr → Option (List ValueType)
  | [] => some []
  | first :: rest => do return (← first.type? d scope) :: (← types? d scope rest)

end

end Expr

namespace Stmt

/-- The scope after a name was given a value. -/
def extend? (d : Declared) (scope : Scope) (name : String) (value : Expr) : Option Scope := do
  return (name, (← value.type? d scope).ofVariable) :: scope

/-- The scope, if a value of this type fits a place of that one. -/
def keep? (scope : Scope) (value place : ValueType) : Option Scope :=
  if value.fits place then some scope else none

/-- The scope, if a variable can take the result of an operator on itself and a value. -/
def update? (d : Declared) (scope : Scope) (op : BinaryOp) (name : String) (value : Expr) :
    Option Scope := do
  let place ← scope.lookup name
  keep? scope (← op.resultType? (← place.join? (← value.type? d scope))) place

mutual

/-- The scope after a statement, if it is well typed. The names of a body end with it. -/
def scope? (d : Declared) (scope : Scope) : Stmt → Option Scope
  | bind name value => extend? d scope name value
  | declare name value => extend? d scope name value
  | assign name value => do keep? scope (← value.type? d scope) (← scope.lookup name)
  | addTo name value => update? d scope .add name value
  | mulBy name value => update? d scope .mul name value
  | store buffer index value => do
    if (← index.type? d scope).isPosition then
      keep? scope (← value.type? d scope) (← d.element? buffer)
    else none
  | count _ counter first bound body => do
    if first.type? d scope = some .word ∧ bound.type? d scope = some .word then
      (scopeAll? d ((counter, .word) :: scope) body).map fun _ => scope
    else none
  | when condition body => do
    if condition.type? d scope = some .flag then (scopeAll? d scope body).map fun _ => scope
    else none
  | leave => some scope
  | stop => some scope
  | blank => some scope

def scopeAll? (d : Declared) (scope : Scope) : List Stmt → Option Scope
  | [] => some scope
  | first :: rest => do scopeAll? d (← first.scope? d scope) rest

end

end Stmt

/-- The scope after a program, if it is well typed. Text that stands for one has no types. -/
def Code.scope? (d : Declared) (scope : Scope) : Code → Option Scope
  | .program body => Stmt.scopeAll? d scope body
  | .text _ => none

namespace Function

def paramTypes? (f : Function) : Option (List ValueType) :=
  f.params.mapM fun (_, type) => ValueType.ofName? type

/-- The type of a call, if the arguments fit the parameters. -/
def callType? (f : Function) (args : List ValueType) : Option ValueType := do
  let params ← f.paramTypes?
  if args.length = params.length ∧ (args.zip params).all fun (arg, param) => arg.fits param then
    ValueType.ofName? f.type
  else none

/-- The body makes an `output` of the function's type, and sees its arguments only. -/
def isWellTyped (f : Function) : Bool :=
  let result := do
    let scope := (f.params.map Prod.fst).zip (← f.paramTypes?)
    (← f.body.scope? ⟨fun _ => none, fun _ _ => none⟩ scope).lookup "output"
  result.isSome && result = ValueType.ofName? f.type

end Function

namespace Kernel

/-- Launch parameters are words. -/
def declared (k : Kernel) : Declared where
  element?
    | .info => some .word
    | .tensor binding => k.tensors[binding - 1]?.bind ValueType.ofName?
  callee? name args := (k.functions.find? (·.name = name)).bind fun f => f.callType? args

def isWellTyped (k : Kernel) : Bool :=
  k.functions.all Function.isWellTyped &&
    (k.body.scope? k.declared [("index", .word)]).isSome

end Kernel

end OperatorGraph.Shader
