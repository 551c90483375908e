import OperatorGraph.Config

set_option autoImplicit false

namespace OperatorGraph

/-- A tree of plain values. A configuration is a record with any of its fields, or a list of its
first fields in order. What is missing has its default. -/
inductive Document where
  | null
  | flag (value : Bool)
  | natural (value : Nat)
  /-- A number that is not written as a natural. -/
  | number
  | text (value : String)
  | list (items : List Document)
  | record (entries : List (String × Document))
  deriving Inhabited

namespace Document

def word? : Document → Option Nat
  | natural value => if value < 0x1_0000_0000_0000_0000 then some value else none
  | _ => none

def flag? : Document → Option Bool
  | flag value => some value
  | _ => none

def strategyNamed? (name : String) : Option Strategy :=
  if name = "linear" then some .linear
  else if name = "reuse" then some .reuse
  else none

/-- A strategy is its name, or a record whose only key is its name and holds nothing. -/
def strategy? : Document → Option Strategy
  | text name => strategyNamed? name
  | record [(name, null)] => strategyNamed? name
  | _ => none

/-- The value of a field, or its default where the field is missing. -/
def read? {α : Type} (reader : Document → Option α) (default : α) : Option Document → Option α
  | none => some default
  | some value => reader value

/-- A configuration from what stands for each field. -/
def fields? (alignment strategy capacity views dump : Option Document) : Option Config := do
  let d := Config.default
  return {
    workspaceAlignment := ← read? word? d.workspaceAlignment alignment
    workspaceStrategy := ← read? strategy? d.workspaceStrategy strategy
    poolCapacity := ← read? word? d.poolCapacity capacity
    checkViews := ← read? flag? d.checkViews views
    dumpGraphs := ← read? flag? d.dumpGraphs dump }

def config? : Document → Option Config
  | list items =>
    if items.length ≤ 5 then fields? items[0]? items[1]? items[2]? items[3]? items[4]?
    else none
  | record entries =>
    let field (name : String) := (entries.find? (·.1 = name)).map Prod.snd
    fields? (field "workspace_alignment") (field "workspace_strategy") (field "pool_capacity")
      (field "check_views") (field "dump_graphs")
  | _ => none

end Document

end OperatorGraph
