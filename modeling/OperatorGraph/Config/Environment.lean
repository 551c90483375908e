import OperatorGraph.Config

set_option autoImplicit false

namespace OperatorGraph.Config

def alignmentVariable : String := "KERNEL_GRAPH_WORKSPACE_ALIGNMENT"

def strategyVariable : String := "KERNEL_GRAPH_WORKSPACE_STRATEGY"

def capacityVariable : String := "KERNEL_GRAPH_POOL_CAPACITY"

def viewsVariable : String := "KERNEL_GRAPH_CHECK_VIEWS"

def dumpVariable : String := "KERNEL_GRAPH_DUMP_GRAPHS"

def digit? (c : Char) : Option Nat :=
  if c.isDigit then some (c.toNat - '0'.toNat) else none

/-- A decimal numeral of ASCII digits, possibly with a plus sign in front, that fits a word. -/
def parseWord? (text : String) : Option Nat := do
  let digits := match text.toList with
    | '+' :: rest => rest
    | digits => digits
  guard (!digits.isEmpty)
  let value ← digits.foldlM (fun value c => (digit? c).map (10 * value + ·)) 0
  guard (value < 0x1_0000_0000_0000_0000)
  return value

def parseFlag? (text : String) : Option Bool :=
  let lowered := Text.lowerAscii text
  if lowered ∈ ["1", "true", "on", "yes"] then some true
  else if lowered ∈ ["0", "false", "off", "no"] then some false
  else none

/-- The value of a variable, or the setting so far where the variable is missing. -/
def readVariable {α : Type} (lookup : String → Option String) (parse? : String → Option α)
    (name : String) (current : α) : Except ConfigError α :=
  match lookup name with
  | none => .ok current
  | some value => match parse? (Text.trim value) with
    | some parsed => .ok parsed
    | none => .error (.environment name value)

/-- The settings with those that the environment names, if together they are valid. -/
def overlay (c : Config) (lookup : String → Option String) : Except ConfigError Config := do
  let next : Config := {
    workspaceAlignment := ←
      readVariable lookup parseWord? alignmentVariable c.workspaceAlignment
    workspaceStrategy := ←
      readVariable lookup Strategy.ofText? strategyVariable c.workspaceStrategy
    poolCapacity := ← readVariable lookup parseWord? capacityVariable c.poolCapacity
    checkViews := ← readVariable lookup parseFlag? viewsVariable c.checkViews
    dumpGraphs := ← readVariable lookup parseFlag? dumpVariable c.dumpGraphs }
  next.validate
  return next

end OperatorGraph.Config
