import OperatorGraph.Operation
import OperatorGraph.Outcome
import OperatorGraph.Runner
import OperatorGraph.Text.Quoted

set_option autoImplicit false

namespace OperatorGraph

/-- A place in the pool. It has no runner while the runner is checked out. -/
structure PoolEntry (Param : Type) where
  id : Nat
  param : Param
  runner : Option Runner
  lastUsed : Nat

structure PoolStats where
  builds : Nat
  hits : Nat
  updates : Nat
  evictions : Nat
  deriving DecidableEq, Repr

def PoolStats.describe (s : PoolStats) : String :=
  Text.record "PoolStats" [("builds", toString s.builds), ("hits", toString s.hits),
    ("updates", toString s.updates), ("evictions", toString s.evictions)]

/-- A pool over a family of graph operations, with a shelf of entries for each. -/
structure Pool {Key : Type} (operation : Key → Operation) where
  config : Config
  registered : List Key
  shelf : (key : Key) → List (PoolEntry (operation key).Param)
  clock : Nat
  nextId : Nat
  stats : PoolStats

/-- A runner that is checked out, with the entry that it goes back to. -/
structure Loan (Key : Type) where
  key : Key
  id : Nat
  runner : Runner

/-- The entry that was used least recently, the first of several. -/
def PoolEntry.oldest? {Param : Type} :
    List (PoolEntry Param) → Option (PoolEntry Param)
  | [] => none
  | entry :: rest => match oldest? rest with
    | none => some entry
    | some other => if entry.lastUsed ≤ other.lastUsed then some entry else some other

namespace Pool

variable {Key : Type} [DecidableEq Key] {operation : Key → Operation}

/-- An empty pool. Registering a key again has no effect. -/
def new (operation : Key → Operation) (config : Config) (registered : List Key) :
    Except Error (Pool operation) := do
  config.validate.mapError .config
  return ⟨config, registered.eraseDups, fun _ => [], 0, 0, ⟨0, 0, 0, 0⟩⟩

/-- Changes the shelf of one key. -/
def modifyShelf (p : Pool operation) (key : Key)
    (change : List (PoolEntry (operation key).Param) → List (PoolEntry (operation key).Param)) :
    Pool operation :=
  let changed := change (p.shelf key)
  { p with shelf := fun other => if same : key = other then same ▸ changed else p.shelf other }

/-- Changes the entry of an id. -/
def modifyEntry (p : Pool operation) (key : Key) (id : Nat)
    (change : PoolEntry (operation key).Param → PoolEntry (operation key).Param) :
    Pool operation :=
  p.modifyShelf key (List.map fun entry => if entry.id = id then change entry else entry)

def evict (p : Pool operation) (key : Key) (id : Nat) : Pool operation :=
  { p.modifyShelf key (List.filter (·.id ≠ id)) with
    stats := { p.stats with evictions := p.stats.evictions + 1 } }

/-- Puts a runner back. A runner whose entry was evicted is dropped. -/
def checkIn (p : Pool operation) (loan : Loan Key) : Pool operation × Log :=
  if (p.shelf loan.key).any (·.id = loan.id) then
    (p.modifyEntry loan.key loan.id fun entry => { entry with runner := some loan.runner }, [])
  else (p, [⟨.debug, s!"dropping runner for evicted pool entry {loan.id}"⟩])

/-- Hands out the runner of an entry. -/
def lend (p : Pool operation) (key : Key) (id : Nat) (param : (operation key).Param)
    (runner : Runner) : Outcome (Pool operation) Error (Loan Key) :=
  let lent := p.modifyEntry key id fun entry =>
    { entry with param, runner := none, lastUsed := p.clock }
  .done { lent with stats := { p.stats with hits := p.stats.hits + 1 } } ⟨key, id, runner⟩

/-- The names of the nodes that an update has reached. -/
def touchedNames (patch : Patch) : List String :=
  patch.touched.filterMap fun position => (patch.graph.nodes[position]?).map Node.name

/-- Patches the runner of an entry for another parameter and hands it out. A runner whose update
fails is lost, and its entry with it. -/
def lendPatched (p : Pool operation) (key : Key) (id : Nat) (param : (operation key).Param)
    (runner : Runner) : Outcome (Pool operation) Error (Loan Key) :=
  let name := (operation key).label
  let (patched, names, result) := runner.update fun start =>
    let (patch, result) := (operation key).update param start
    (patch, touchedNames patch, result)
  match result with
  | .error refusal =>
    ⟨p.evict key id, [⟨.error, refusal.message ++ ", evicting the pooled runner"⟩],
      .error (.pool refusal)⟩
  | .ok () =>
    let counted := { p with stats := { p.stats with updates := p.stats.updates + 1 } }
    { counted.lend key id param patched with
      log := [⟨.debug, name ++ " update patched nodes " ++ Text.listing (names.map Text.quote)⟩,
        ⟨.debug, "pool hit for " ++ name ++ " with updated parameters"⟩] }

/-- Hands out an entry whose topology fits. -/
def checkOutEntry (p : Pool operation) (key : Key) (param : (operation key).Param)
    (entry : PoolEntry (operation key).Param) : Outcome (Pool operation) Error (Loan Key) :=
  let name := (operation key).label
  match entry.runner with
  | none =>
    ⟨p, [⟨.error, "runner for " ++ name ++ " is already checked out"⟩],
      .error (.pool (.busy (operation key).name))⟩
  | some runner =>
    if (operation key).equals entry.param param then
      (p.lend key entry.id entry.param runner).logging .debug ("pool hit for " ++ name)
    else p.lendPatched key entry.id param runner

/-- The entry that makes room for a new one: none while there is room, and otherwise the idle entry
that was used least recently. -/
def victim? (p : Pool operation) (key : Key) : Except PoolError (Option Nat) :=
  if (p.shelf key).length < p.config.poolCapacity then .ok none
  else match PoolEntry.oldest? ((p.shelf key).filter (·.runner.isSome)) with
    | some entry => .ok (some entry.id)
    | none => .error (.exhausted (operation key).name p.config.poolCapacity)

/-- Shelves a new entry, in the place of another if there is no room. -/
def shelve (p : Pool operation) (key : Key) (param : (operation key).Param) (runner : Runner)
    (victim : Option Nat) : Pool operation × Loan Key :=
  let cleared := match victim with
    | none => p
    | some id => p.evict key id
  let shelved := cleared.modifyShelf key (· ++ [⟨p.nextId, param, none, p.clock⟩])
  ({ shelved with
      nextId := p.nextId + 1
      stats := { shelved.stats with builds := shelved.stats.builds + 1 } },
    ⟨key, p.nextId, runner⟩)

/-- Builds a runner for a topology that is not in the pool. Nothing is evicted unless the runner
can be built. -/
def checkOutNew (p : Pool operation) (key : Key) (param : (operation key).Param) :
    Outcome (Pool operation) Error (Loan Key) :=
  let name := (operation key).label
  match p.victim? key with
  | .error refusal =>
    ⟨p, [⟨.error, s!"all {p.config.poolCapacity} pooled runners for " ++ name ++
      " are checked out"⟩], .error (.pool refusal)⟩
  | .ok victim => match (operation key).build param with
    | .error refusal =>
      ⟨p, [⟨.error, "building graph for " ++ name ++ " failed: " ++ refusal.message⟩],
        .error refusal⟩
    | .ok graph => match Runner.new graph p.config with
      | .error refusal =>
        ⟨p, [⟨.error, "graph for " ++ name ++ " is not runnable: " ++ refusal.message⟩],
          .error refusal⟩
      | .ok runner =>
        let (shelved, loan) := p.shelve key param runner victim
        let built := "built graph `" ++ graph.name ++ "` for " ++ name ++
          s!" with {graph.nodes.length} nodes"
        let evicted : Log :=
          if victim.isSome then
            [⟨.warn, "evicting least recently used runner for " ++ name⟩]
          else []
        ⟨shelved, runner.drawn ++ ⟨.info, built⟩ :: evicted, .ok loan⟩

/-- The first entry whose parameter has the same topology. -/
def find? (p : Pool operation) (key : Key) (param : (operation key).Param) :
    Option (PoolEntry (operation key).Param) :=
  (p.shelf key).find? fun entry => (operation key).sameTopology entry.param param

/-- Checks out a runner for a parameter: the pooled one of its topology, or a new one. -/
def checkOut (p : Pool operation) (key : Key) (param : (operation key).Param) :
    Outcome (Pool operation) Error (Loan Key) :=
  if key ∈ p.registered then
    let ticked := { p with clock := p.clock + 1 }
    match p.find? key param with
    | some entry => ticked.checkOutEntry key param entry
    | none => ticked.checkOutNew key param
  else
    ⟨p, [⟨.error, "graph operation " ++ (operation key).label ++
      " is not registered"⟩], .error (.pool (.unregistered (operation key).name))⟩

/-- The entries of one key, checked out or not. -/
def size (p : Pool operation) (key : Key) : Nat :=
  (p.shelf key).length

def describe (p : Pool operation) : String :=
  Text.record "RunnerPool" [
    ("registered", Text.listing (p.registered.map fun key => Text.quote (operation key).name)),
    ("entries", toString ((p.registered.map p.size).foldr (· + ·) 0)),
    ("stats", p.stats.describe)]

end Pool

end OperatorGraph
