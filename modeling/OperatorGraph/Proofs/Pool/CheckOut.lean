import OperatorGraph.Pool
import OperatorGraph.Proofs.Answers

set_option autoImplicit false

namespace OperatorGraph

variable {Key : Type} {operation : Key → Operation}

namespace PoolEntry

/-- The entry while its runner is out on loan. -/
def lend {Param : Type} (param : Param) (now : Nat) (entry : PoolEntry Param) : PoolEntry Param :=
  { entry with param, runner := none, lastUsed := now }

def giveBack {Param : Type} (runner : Runner) (entry : PoolEntry Param) : PoolEntry Param :=
  { entry with runner := some runner }

/-- The entry that was used least recently is one of the entries, and none was used before it. -/
theorem oldest?_eq_some {Param : Type} {entries : List (PoolEntry Param)} {entry : PoolEntry Param}
    (oldest : oldest? entries = some entry) :
    entry ∈ entries ∧ ∀ other ∈ entries, entry.lastUsed ≤ other.lastUsed := by
  induction entries generalizing entry with
  | nil => simp [oldest?] at oldest
  | cons first rest ih =>
    simp only [oldest?] at oldest
    cases later : oldest? rest with
    | none =>
      rw [later, Option.some.injEq] at oldest
      subst oldest
      cases rest with
      | nil => simp
      | cons second others =>
        simp only [oldest?] at later
        split at later
        · simp at later
        · split at later <;> simp at later
    | some other =>
      obtain ⟨present, least⟩ := ih later
      simp only [later] at oldest
      split at oldest
      · rename_i before
        obtain rfl := Option.some.inj oldest
        refine ⟨by simp, fun another member => ?_⟩
        rcases List.mem_cons.mp member with rfl | member
        · exact Nat.le_refl _
        · exact Nat.le_trans before (least another member)
      · rename_i after
        obtain rfl := Option.some.inj oldest
        refine ⟨by simp [present], fun another member => ?_⟩
        rcases List.mem_cons.mp member with rfl | member
        · omega
        · exact least another member

theorem oldest?_eq_none {Param : Type} {entries : List (PoolEntry Param)}
    (missing : oldest? entries = none) : entries = [] := by
  cases entries with
  | nil => rfl
  | cons first rest =>
    simp only [oldest?] at missing
    split at missing
    · simp at missing
    · split at missing <;> simp at missing

end PoolEntry

namespace Pool

theorem find?_spec {p : Pool operation} {key : Key} {param : (operation key).Param}
    {entry : PoolEntry (operation key).Param} (found : p.find? key param = some entry) :
    entry ∈ p.shelf key ∧ (operation key).sameTopology entry.param param :=
  ⟨List.mem_of_find?_eq_some found, by simpa using List.find?_some found⟩

/-- The pool with its clock moved on. -/
def ticked (p : Pool operation) : Pool operation :=
  { p with clock := p.clock + 1 }

/-- Where a new entry of a key goes: next to the others while there is room, in the place of the
idle entry that was used least recently while there is one, and nowhere otherwise. -/
inductive Room (p : Pool operation) (key : Key) : Except PoolError (Option Nat) → Prop where
  | free (room : (p.shelf key).length < p.config.poolCapacity) : p.Room key (.ok none)
  | replacing {victim : PoolEntry (operation key).Param}
      (full : p.config.poolCapacity ≤ (p.shelf key).length) (present : victim ∈ p.shelf key)
      (idle : victim.runner.isSome)
      (oldest : ∀ other ∈ p.shelf key, other.runner.isSome → victim.lastUsed ≤ other.lastUsed) :
      p.Room key (.ok (some victim.id))
  | nowhere (full : p.config.poolCapacity ≤ (p.shelf key).length)
      (allOut : ∀ entry ∈ p.shelf key, entry.runner = none) :
      p.Room key (.error (.exhausted (operation key).name p.config.poolCapacity))

theorem room_victim? (p : Pool operation) (key : Key) : p.Room key (p.victim? key) := by
  unfold victim?
  split
  · rename_i room
    exact .free room
  · rename_i full
    split
    · rename_i entry oldest
      obtain ⟨member, least⟩ := PoolEntry.oldest?_eq_some oldest
      obtain ⟨present, idle⟩ := List.mem_filter.mp member
      exact .replacing (by omega) present idle fun other there free =>
        least other (List.mem_filter.mpr ⟨there, free⟩)
    · rename_i missing
      have none := PoolEntry.oldest?_eq_none missing
      refine .nowhere (by omega) fun entry present => ?_
      have out := List.filter_eq_nil_iff.mp none entry present
      simpa using out

variable [DecidableEq Key]

section

variable (p : Pool operation) {key : Key}

@[simp] theorem shelf_modifyShelf_self (change) :
    (p.modifyShelf key change).shelf key = change (p.shelf key) := by
  simp only [modifyShelf, dif_pos]

@[simp] theorem shelf_modifyShelf_of_ne {other : Key} (different : key ≠ other) (change) :
    (p.modifyShelf key change).shelf other = p.shelf other := by
  simp only [modifyShelf, dif_neg different]

theorem shelf_modifyShelf_twice {q : Pool operation} {first}
    (changed : q.shelf = (p.modifyShelf key first).shelf) (second) :
    (q.modifyShelf key second).shelf =
      (p.modifyShelf key fun entries => second (first entries)).shelf := by
  funext other
  by_cases same : key = other
  · subst same
    simp only [shelf_modifyShelf_self, changed]
  · simp only [shelf_modifyShelf_of_ne _ same, changed]

end

/-- What check-outs can come to. -/
inductive Answers (p : Pool operation) (key : Key) (param : (operation key).Param)
    (out : Outcome (Pool operation) Error (Loan Key)) : Prop where
  | unregistered (unknown : key ∉ p.registered) (state : out.state = p)
      (result : out.result = .error (.pool (.unregistered (operation key).name)))
  | busy {entry : PoolEntry (operation key).Param} (known : key ∈ p.registered)
      (found : p.find? key param = some entry) (lent : entry.runner = none)
      (state : out.state = p.ticked)
      (result : out.result = .error (.pool (.busy (operation key).name)))
  | reused {entry : PoolEntry (operation key).Param} {runner : Runner} (known : key ∈ p.registered)
      (found : p.find? key param = some entry) (idle : entry.runner = some runner)
      (equal : (operation key).equals entry.param param)
      (state : out.state =
        { p.ticked.modifyEntry key entry.id (PoolEntry.lend entry.param (p.clock + 1)) with
          stats := { p.stats with hits := p.stats.hits + 1 } })
      (result : out.result = .ok ⟨key, entry.id, runner⟩)
  | patched {entry : PoolEntry (operation key).Param} {runner : Runner} {patch : Patch}
      (known : key ∈ p.registered) (found : p.find? key param = some entry)
      (idle : entry.runner = some runner) (changed : ¬ (operation key).equals entry.param param)
      (patched : (operation key).update param (.start runner.reset.graph) = (patch, .ok ()))
      (state : out.state =
        { p.ticked.modifyEntry key entry.id (PoolEntry.lend param (p.clock + 1)) with
          stats := { p.stats with hits := p.stats.hits + 1, updates := p.stats.updates + 1 } })
      (result : out.result = .ok ⟨key, entry.id, { runner.reset with graph := patch.graph }⟩)
  | lost {entry : PoolEntry (operation key).Param} {runner : Runner} {patch : Patch}
      {refusal : PoolError} (known : key ∈ p.registered) (found : p.find? key param = some entry)
      (idle : entry.runner = some runner) (changed : ¬ (operation key).equals entry.param param)
      (failed : (operation key).update param (.start runner.reset.graph) = (patch, .error refusal))
      (state : out.state = p.ticked.evict key entry.id)
      (result : out.result = .error (.pool refusal))
  | exhausted (known : key ∈ p.registered) (missing : p.find? key param = none)
      (full : p.config.poolCapacity ≤ (p.shelf key).length)
      (allOut : ∀ entry ∈ p.shelf key, entry.runner = none) (state : out.state = p.ticked)
      (result : out.result =
        .error (.pool (.exhausted (operation key).name p.config.poolCapacity)))
  | unbuilt {victim : Option Nat} {refusal : Error} (known : key ∈ p.registered)
      (missing : p.find? key param = none) (room : p.Room key (.ok victim))
      (failed : (operation key).build param = .error refusal ∨
        ∃ graph, (operation key).build param = .ok graph ∧
          Runner.new graph p.config = .error refusal)
      (state : out.state = p.ticked) (result : out.result = .error refusal)
  | built {victim : Option Nat} {graph : Graph} {runner : Runner} (known : key ∈ p.registered)
      (missing : p.find? key param = none) (room : p.Room key (.ok victim))
      (build : (operation key).build param = .ok graph)
      (created : Runner.new graph p.config = .ok runner)
      (state : out.state = (p.ticked.shelve key param runner victim).1)
      (result : out.result = .ok ⟨key, p.nextId, runner⟩)

section

variable (p : Pool operation) {key : Key} {param : (operation key).Param}
  (known : key ∈ p.registered)
include known

theorem checkOutEntry_answers {entry : PoolEntry (operation key).Param}
    (found : p.find? key param = some entry) :
    Answers p key param (p.ticked.checkOutEntry key param entry) := by
  cases idle : entry.runner with
  | none =>
    simp only [checkOutEntry, idle]
    exact .busy known found idle rfl rfl
  | some runner =>
    simp only [checkOutEntry, idle]
    by_cases equal : (operation key).equals entry.param param
    · rw [if_pos equal]
      exact .reused known found idle equal rfl rfl
    · rw [if_neg equal]
      cases patched : (operation key).update param (.start runner.reset.graph) with
      | mk patch result =>
        simp only [lendPatched, Runner.update, patched]
        cases result with
        | error refusal => exact .lost known found idle equal patched rfl rfl
        | ok _ => exact .patched known found idle equal patched rfl rfl

theorem checkOutNew_answers (missing : p.find? key param = none) :
    Answers p key param (p.ticked.checkOutNew key param) := by
  simp only [checkOutNew]
  have room := p.room_victim? key
  rw [show p.ticked.victim? key = p.victim? key from rfl]
  generalize p.victim? key = victim at room
  cases victim with
  | error refusal =>
    cases room with
    | nowhere full allOut => exact .exhausted known missing full allOut rfl rfl
  | ok victim =>
    cases build : (operation key).build param with
    | error refusal => exact .unbuilt known missing room (.inl build) rfl rfl
    | ok graph =>
      cases created : Runner.new graph p.config with
      | error refusal =>
        simp only [ticked, created]
        exact .unbuilt known missing room (.inr ⟨graph, build, created⟩) rfl rfl
      | ok runner =>
        simp only [ticked, created]
        exact .built known missing room build created rfl rfl

end

theorem checkOut_answers (p : Pool operation) (key : Key) (param : (operation key).Param) :
    Answers p key param (p.checkOut key param) := by
  unfold checkOut
  split
  · rename_i known
    simp only
    split
    · rename_i entry found
      exact p.checkOutEntry_answers known found
    · rename_i missing
      exact p.checkOutNew_answers known missing
  · rename_i unknown
    exact .unregistered unknown rfl rfl

theorem config_checkOut (p : Pool operation) (key : Key) (param : (operation key).Param) :
    (p.checkOut key param).state.config = p.config ∧
      (p.checkOut key param).state.registered = p.registered := by
  cases p.checkOut_answers key param with
  | @built victim _ _ _ _ _ _ _ state =>
    rw [state]
    cases victim <;> exact ⟨rfl, rfl⟩
  | unregistered _ state | busy _ _ _ state | reused _ _ _ _ state | patched _ _ _ _ _ state
  | lost _ _ _ _ _ state | exhausted _ _ _ _ state | unbuilt _ _ _ _ state =>
    rw [state]
    exact ⟨rfl, rfl⟩

theorem config_checkIn (p : Pool operation) (loan : Loan Key) :
    (p.checkIn loan).1.config = p.config ∧ (p.checkIn loan).1.registered = p.registered := by
  unfold checkIn
  split <;> exact ⟨rfl, rfl⟩

end Pool

end OperatorGraph
