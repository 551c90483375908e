import OperatorGraph.Proofs.Graph.Validation
import OperatorGraph.Proofs.Operator.Extents
import OperatorGraph.Proofs.Runner.Containment
import OperatorGraph.Proofs.Runner.Inferred
import OperatorGraph.Proofs.Runner.NodeChanges

set_option autoImplicit false

namespace OperatorGraph

namespace Outcome

variable {State Outer Reason α β : Type}

/-- Both outcomes are successes, and the same up to a change of the state, or both are failures. -/
structure Mirrors (change : State → Outer) (s : Outcome State Reason α)
    (t : Outcome Outer Reason α) : Prop where
  forward : ∀ a, s.result = .ok a → t = s.within change
  backward : ∀ a, t.result = .ok a → ∃ b, s.result = .ok b

theorem mirrors_of_eq {change : State → Outer} {s : Outcome State Reason α}
    {t : Outcome Outer Reason α} (same : t = s.within change) : Mirrors change s t where
  forward _ _ := same
  backward a success := ⟨a, by rw [← success, same]; rfl⟩

namespace Mirrors

variable {change : State → Outer} {s : Outcome State Reason α} {t : Outcome Outer Reason α}
  (first : Mirrors change s t)
include first

theorem result_iff (a : α) : t.result = .ok a ↔ s.result = .ok a := by
  constructor
  · intro success
    obtain ⟨b, mirrored⟩ := first.backward a success
    rwa [first.forward b mirrored] at success
  · intro success
    rw [first.forward a success]
    exact success

theorem andThen {next : State → α → Outcome State Reason β}
    {next' : Outer → α → Outcome Outer Reason β}
    (later : ∀ a, s.result = .ok a → Mirrors change (next s.state a) (next' (change s.state) a)) :
    Mirrors change (s.andThen next) (t.andThen next') := by
  cases success : s.result with
  | error reason =>
    constructor
    · intro b ran
      simp [andThen_of_error _ success] at ran
    · intro b ran
      obtain ⟨a, here, -⟩ := andThen_eq_ok.mp ran
      rw [first.result_iff, success] at here
      simp at here
  | ok a =>
    have second := later a success
    have there := (first.result_iff a).mpr success
    rw [first.forward a success] at there ⊢
    rw [andThen_of_ok _ success, andThen_of_ok _ there]
    constructor
    · intro b ran
      have same := second.forward b ran
      simp only [within] at same ⊢
      simp only [same]
    · exact second.backward

theorem within {Larger Largest : Type} {wrap : State → Larger} {wrap' : Outer → Largest}
    {change' : Larger → Largest} (commutes : ∀ state, wrap' (change state) = change' (wrap state)) :
    Mirrors change' (s.within wrap) (t.within wrap') where
  forward a success := by
    rw [first.forward a success]
    simp only [Outcome.within, commutes]
  backward := first.backward

end Mirrors

/-- If the steps from the states that satisfy an invariant mirror one another, then so do runs. -/
theorem forEach_mirrors {Item : Type} {step : State → Item → Outcome State Reason Unit}
    {step' : Outer → Item → Outcome Outer Reason Unit} {change : State → Outer}
    {holds : State → Prop}
    (mirrors : ∀ state item, holds state →
      Mirrors change (step state item) (step' (change state) item))
    (keeps : ∀ state item, holds state → holds (step state item).state)
    (items : List Item) (state : State) (start : holds state) :
    Mirrors change (forEach step state items) (forEach step' (change state) items) := by
  induction items generalizing state with
  | nil => exact mirrors_of_eq rfl
  | cons item rest ih =>
    exact (mirrors state item start).andThen fun _ _ => ih _ (keeps state item start)

end Outcome

namespace Node

/-- A product that declares no extents and has no hook. -/
def PlainProduct (n : Node) : Prop :=
  n.hook = none ∧ ∃ p, n.declared = .matMul p ∧ p.extents = none

/-- The node of a name, with a hook that declares its extents, as that hook leaves it. -/
def declareExtents (name : String) (n : Node) : Node :=
  if n.name = name then
    { n with
      hook := some .matMulExtents
      effective := n.effective.withExtents n.resolvedInputs }
  else n

theorem declareExtents_keepsPlace (name : String) : KeepsPlace (declareExtents name) where
  name n := by unfold declareExtents; split <;> rfl
  inputs n := by unfold declareExtents; split <;> rfl
  outputs n := by unfold declareExtents; split <;> rfl

theorem scratchBytes_declareExtents (name : String) (n : Node) :
    (n.declareExtents name).scratchBytes = n.scratchBytes := by
  unfold declareExtents
  split
  · exact n.effective.scratchBytes_withExtents n.resolvedInputs
  · rfl

theorem resolvedInputs_declareExtents (name : String) (n : Node) :
    (n.declareExtents name).resolvedInputs = n.resolvedInputs := by
  unfold declareExtents
  split <;> rfl

section

variable {n : Node} {g : Graph} {checkViews : Bool}

/-- With the hook, a product is resolved where it is resolved without, to the same shapes. -/
theorem resolve_withHook (plain : n.PlainProduct) {r : Resolution} :
    (n.withHook .matMulExtents).resolve g checkViews = .ok r ↔
      ∃ s, n.resolve g checkViews = .ok s ∧
        r = { s with param := s.param.withExtents s.inputs } := by
  obtain ⟨none, p, declared, undeclared⟩ := plain
  have bare (inputs : List TensorDesc) (s : HookState) :
      n.runHook g inputs = .ok s ↔ s = ⟨inputs, .matMul p⟩ := by
    simp only [runHook, none, declared, Except.ok.injEq, eq_comm]
  have hooked (inputs : List TensorDesc) (s : HookState) :
      (n.withHook .matMulExtents).runHook g inputs = .ok s ↔
        (∃ a b rest, inputs = a :: b :: rest ∧ (p.extentsFor? a.shape b.shape).isSome) ∧
          s = ⟨inputs, (Operator.matMul p).withExtents inputs⟩ := by
    rw [runHook_eq_ok rfl, ← Hook.matMulExtents_of_undeclared undeclared]
    show Hook.matMulExtents _ ⟨inputs, n.declared⟩ = _ ↔ _
    rw [declared]
  obtain ⟨op, read, outputs⟩ := r
  simp only [resolve_eq_ok, inferOutputs_eq_ok, bare, hooked]
  constructor
  · rintro ⟨inputs, _, reads, ⟨-, rfl⟩, ⟨inferred, count, fits⟩, rfl, rfl⟩
    rw [Operator.infer_withExtents] at inferred
    exact ⟨⟨.matMul p, inputs, outputs⟩,
      ⟨inputs, _, reads, rfl, ⟨inferred, count, fits⟩, rfl, rfl⟩, rfl⟩
  · rintro ⟨⟨_, _, _⟩, ⟨inputs, _, reads, rfl, ⟨inferred, count, fits⟩, rfl, rfl⟩, ⟨⟩⟩
    obtain ⟨a, b, rest, extents, operands, computed, -, -⟩ :=
      MatMul.infer_ok (Operator.infer_ok inferred).2
    have known : (p.extentsFor? a.shape b.shape).isSome := by
      rw [computed]
      rfl
    rw [← Operator.infer_withExtents] at inferred
    exact ⟨inputs, _, reads, ⟨⟨a, b, rest, operands, known⟩, rfl⟩, ⟨inferred, count, fits⟩, rfl,
      rfl⟩

/-- The parameter that a node is resolved to once the node of a name declares its extents. -/
def declaredIn (name : String) (n : Node) (r : Resolution) : Operator :=
  if n.name = name then r.param.withExtents r.inputs else r.param

theorem family_declaredIn (name : String) (n : Node) (r : Resolution) :
    (n.declaredIn name r).family = r.param.family := by
  unfold declaredIn
  split
  · exact r.param.family_withExtents r.inputs
  · rfl

theorem resolve_declareExtents {name : String} (plain : n.name = name → n.PlainProduct)
    {r : Resolution} :
    (n.declareExtents name).resolve (g.mapNodes (declareExtents name)) checkViews = .ok r ↔
      ∃ s, n.resolve g checkViews = .ok s ∧ r = { s with param := n.declaredIn name s } := by
  by_cases named : n.name = name
  · have same : (n.declareExtents name).resolve (g.mapNodes (declareExtents name)) checkViews =
        (n.withHook .matMulExtents).resolve g checkViews := by
      rw [declareExtents, if_pos named]
      rfl
    simp only [same, declaredIn, if_pos named]
    exact resolve_withHook (plain named)
  · have same : (n.declareExtents name).resolve (g.mapNodes (declareExtents name)) checkViews =
        n.resolve g checkViews := by
      rw [declareExtents, if_neg named]
      rfl
    simp only [same, declaredIn, if_neg named, exists_eq_right']

theorem settle_declareExtents (name : String) (n : Node) (r : Resolution) :
    declareExtents name { n with effective := r.param, resolvedInputs := r.inputs } =
      { n.declareExtents name with
        effective := n.declaredIn name r
        resolvedInputs := r.inputs } := by
  unfold declareExtents declaredIn
  by_cases named : n.name = name
  · simp only [named, if_true]
  · simp only [named, if_false]

end

end Node

/-- All of a launch but its parameter: the node, its memory and the dispatches that are planned. -/
def Launch.planned (launch : Launch) :
    String × List Binding × List Binding × Option Span × Dispatch.Answer :=
  (launch.node, launch.inputs, launch.outputs, launch.scratch, launch.plan)

namespace Graph

/-- Puts a hook on the node of a name. -/
def hookNode (g : Graph) (name : String) (hook : Hook) : Graph :=
  g.mapNodes fun n => if n.name = name then n.withHook hook else n

/-- Nodes of this name are products that declare no extents and have no hook. -/
def PlainProduct (g : Graph) (name : String) : Prop :=
  ∀ n ∈ g.nodes, n.name = name → n.PlainProduct

theorem validate_mapNodes (g : Graph) {change : Node → Node} (keeps : Node.KeepsPlace change)
    (declared : ∀ n, (change n).declared = n.declared) (views : ∀ n, (change n).views = n.views) :
    (g.mapNodes change).validate = g.validate := by
  have input : (g.mapNodes change).checkInput = g.checkInput := by
    funext produced node id
    cases id <;> rfl
  have output : (g.mapNodes change).checkOutput = g.checkOutput := by
    funext node produced id
    cases id <;> rfl
  have node (produced : List TensorId) (n : Node) :
      (g.mapNodes change).checkNode produced (change n) = g.checkNode produced n := by
    simp only [checkNode, Node.checkArity, Node.checkViews, Node.viewIndices, Node.view?, input,
      output, keeps.name, keeps.inputs, keeps.outputs, declared, views]
  have names : (g.mapNodes change).nodes.map Node.name = g.nodes.map Node.name := by
    simp only [mapNodes, List.map_map, Function.comp_def, keeps.name]
  have nodes : (g.mapNodes change).nodes.foldlM (g.mapNodes change).checkNode [] =
      g.nodes.foldlM g.checkNode [] := by
    have each : (g.mapNodes change).nodes = g.nodes.map change := rfl
    simp only [each, List.foldlM_map, node]
  simp only [validate, check, names, nodes]
  rfl

theorem plainProduct_blank {g : Graph} {name : String} :
    g.blank.PlainProduct name ↔ g.PlainProduct name := by
  simp only [PlainProduct, blank, unresolved, mapNodes, clear, List.forall_mem_map]
  rfl

theorem plainProduct_of_blank {g h : Graph} (same : g.blank = h.blank) {name : String}
    (plain : h.PlainProduct name) : g.PlainProduct name := by
  rwa [← plainProduct_blank, same, plainProduct_blank]

theorem blank_hookNode (g : Graph) (name : String) :
    (g.hookNode name .matMulExtents).blank = (g.mapNodes (Node.declareExtents name)).blank := by
  have each (n : Node) : (if n.name = name then n.withHook .matMulExtents else n).unresolved =
      (n.declareExtents name).unresolved := by
    unfold Node.declareExtents
    split <;> rfl
  simp only [blank, clear, unresolved, hookNode, mapNodes, List.map_map, Function.comp_def, each]

theorem resolveAt_declareExtents {g : Graph} {name : String} (plain : g.PlainProduct name)
    (checkViews : Bool) (position : Nat) :
    Outcome.Mirrors (·.mapNodes (Node.declareExtents name)) (resolveAt checkViews g position)
      (resolveAt checkViews (g.mapNodes (Node.declareExtents name)) position) := by
  have atChanged := g.getElem?_mapNodes (Node.declareExtents name) position
  cases found : g.nodes[position]? with
  | none =>
    apply Outcome.mirrors_of_eq
    simp only [resolveAt, atChanged, found]
    rfl
  | some n =>
    rw [found, Option.map_some] at atChanged
    have resolves (r : Resolution) : (n.declareExtents name).resolve
        (g.mapNodes (Node.declareExtents name)) checkViews = .ok r ↔ _ :=
      Node.resolve_declareExtents (plain n (List.mem_of_getElem? found))
    have commutes {r : Resolution} (resolved : n.resolve g checkViews = .ok r) :=
      g.resolveAt_mapNodes (Node.declareExtents_keepsPlace name) found resolved
        ((resolves _).mpr ⟨r, resolved, rfl⟩) (n.family_declaredIn name r)
        (n.settle_declareExtents name r)
    constructor
    · intro _ success
      obtain ⟨r, placed, resolved, -⟩ := resolveAt_ok found success
      exact commutes resolved
    · intro _ success
      obtain ⟨r, placed, resolved, -⟩ := resolveAt_ok atChanged success
      obtain ⟨s, bare, -⟩ := (resolves r).mp resolved
      rw [commutes bare] at success
      exact ⟨(), success⟩

theorem resolve_declareExtents {g : Graph} {name : String} (plain : g.PlainProduct name)
    (checkViews : Bool) :
    Outcome.Mirrors (·.mapNodes (Node.declareExtents name)) (resolve checkViews g)
      (resolve checkViews (g.mapNodes (Node.declareExtents name))) := by
  have sameLength : (g.mapNodes (Node.declareExtents name)).nodes.length = g.nodes.length :=
    List.length_map _
  simp only [resolve, sameLength]
  refine Outcome.forEach_mirrors (fun next position plain => resolveAt_declareExtents plain
    checkViews position) (fun next position plain => ?_) _ g plain
  exact plainProduct_of_blank (blank_resolveAt checkViews next position) plain

end Graph

namespace Runner

section

variable {r : Runner} {name : String} (plain : r.graph.PlainProduct name) (pack : Pack)
include plain

theorem setup_declareExtents :
    Outcome.Mirrors (·.mapNodes (Node.declareExtents name)) (r.setup pack)
      ((r.mapNodes (Node.declareExtents name)).setup pack) := by
  have keeps := Node.declareExtents_keepsPlace name
  refine (Outcome.mirrors_of_eq (r.bind_mapNodes _ pack)).andThen fun _ _ => ?_
  have bound : (r.bind pack).state.graph.PlainProduct name :=
    Graph.plainProduct_of_blank (r.blank_bind pack) plain
  have resolved : Outcome.Mirrors (·.mapNodes (Node.declareExtents name))
      (r.bind pack).state.resolve
      ((r.bind pack).state.mapNodes (Node.declareExtents name)).resolve :=
    (Graph.resolve_declareExtents bound r.config.checkViews).within fun _ => rfl
  refine resolved.andThen fun _ _ => ?_
  apply Outcome.mirrors_of_eq
  exact planWorkspace_mapNodes { (r.bind pack).state.resolve.state with state := .shapesResolved }
    keeps fun n _ => n.scratchBytes_declareExtents name

end

theorem launches_execute (r : Runner) {State : Type} (registry : Registry State) (stream : State)
    (pack call : Pack) :
    (r.execute registry stream pack).state.1.launches call = r.launches call := by
  have planned := r.isPlanned_execute pack registry stream
  rw [runner_execute] at planned ⊢
  cases ran : (r.execute registry stream pack).result with
  | error refusal => rfl
  | ok _ =>
    rw [ran] at planned
    simp only [launches, callMemory, ← planned]
    rfl

/-- Executions change no tensor and no node, so that a call has the launches that it had before. -/
theorem launches_executions {calls : List Call} (executions : ∀ call ∈ calls, call.isExecution)
    (r : Runner) (call : Pack) : (r.afterAll calls).launches call = r.launches call := by
  induction calls generalizing r with
  | nil => rfl
  | cons first rest ih =>
    refine (ih (fun other member => executions other (by simp [member])) (r.after first)).trans ?_
    cases first with
    | setUp _ | update _ => simp [Call.isExecution] at executions
    | execute registry stream pack => exact r.launches_execute registry stream pack call

/-- No launch shows in its plan who has computed the extents of a product. -/
theorem launches_declareExtents {r : Runner} (name : String)
    (read : ∀ n ∈ r.graph.nodes, n.resolvedInputs.length = n.inputs.length) (call : Pack) :
    ((r.mapNodes (Node.declareExtents name)).launches call).map (List.map Launch.planned) =
      (r.launches call).map (List.map Launch.planned) := by
  have each (m : CallMemory) (n : Node) (member : n ∈ r.graph.nodes) :
      ((r.mapNodes (Node.declareExtents name)).launchOf m (n.declareExtents name)).map
        Launch.planned = (r.launchOf m n).map Launch.planned := by
    have changed : (r.mapNodes (Node.declareExtents name)).launchOf m (n.declareExtents name) = _ :=
      r.launchOf_mapNodes (Node.declareExtents_keepsPlace name) m
        (n.resolvedInputs_declareExtents name) (n.scratchBytes_declareExtents name)
    rw [changed]
    cases launched : r.launchOf m n with
    | error refusal => rfl
    | ok launch =>
      obtain ⟨descs, -, -⟩ := lengths_of_launch (read n member) launched
      have param := launch_param launched
      have plans := launch.plan_withExtents
      rw [descs, param] at plans
      unfold Node.declareExtents
      split
      · simp only [Except.map, Launch.planned, plans]
      · simp only [Except.map, ← param]
  simp only [launches, callMemory_mapNodes]
  cases r.callMemory call with
  | error refusal => rfl
  | ok m =>
    have nodes : (r.mapNodes (Node.declareExtents name)).graph.nodes =
        r.graph.nodes.map (Node.declareExtents name) := rfl
    simp only [Bind.bind, Except.bind, nodes, List.mapM_map, ← Answer.mapM_map_answers,
      Function.comp_apply]
    exact Answer.mapM_congr (each m)

/-- Both runners hold the same tensors and the same plan, need the same scratch, and whatever they
have executed since, they refuse the same calls and hand the same launches for the others to their
registries, as in `execute_of_launches`, up to parameters that plan alike. -/
structure WorksLike (r s : Runner) : Prop where
  inputs : r.graph.inputs = s.graph.inputs
  outputs : r.graph.outputs = s.graph.outputs
  internals : r.graph.internals = s.graph.internals
  plan : r.plan = s.plan
  scratch : r.graph.nodes.map Node.scratchBytes = s.graph.nodes.map Node.scratchBytes
  launches : ∀ {past past' : List Call}, (∀ call ∈ past, call.isExecution) →
    (∀ call ∈ past', call.isExecution) → ∀ call : Pack,
      ((r.afterAll past).launches call).map (List.map Launch.planned) =
        ((s.afterAll past').launches call).map (List.map Launch.planned)

theorem worksLike_declareExtents {r : Runner} (name : String)
    (read : ∀ n ∈ r.graph.nodes, n.resolvedInputs.length = n.inputs.length) :
    (r.mapNodes (Node.declareExtents name)).WorksLike r where
  inputs := rfl
  outputs := rfl
  internals := rfl
  plan := rfl
  scratch := by
    have each (n : Node) := n.scratchBytes_declareExtents name
    simp only [mapNodes, Graph.mapNodes, List.map_map, Function.comp_def, each]
  launches executions executions' call := by
    rw [launches_executions executions, launches_executions executions']
    exact launches_declareExtents name read call

/-- A hook that declares the extents of a product does not show. In a graph that is well formed it
takes the place of no hook on a product without extents: setups succeed alike, leave the same
tensors in the same places and the same scratch, and whatever is executed then has the same plans.
And after the hook no product disagrees with its extents, whichever were declared before. -/
theorem extents_hook_transparent {r : Runner} (valid : r.graph.validate = .ok ()) {n : Node}
    (member : n ∈ r.graph.nodes) {p : MatMul} (declared : n.declared = .matMul p)
    (undeclared : p.extents = none) (plain : n.hook = none) (pack : Pack) :
    let hooked : Runner := { r with graph := r.graph.hookNode n.name .matMulExtents }
    hooked.graph.validate = .ok () ∧
    (∀ bytes, (hooked.setup pack).result = .ok bytes ↔ (r.setup pack).result = .ok bytes) ∧
    (∀ bytes, (r.setup pack).result = .ok bytes →
      (hooked.setup pack).state.WorksLike (r.setup pack).state) ∧
    ∀ context s after, Hook.matMulExtents context s = (after, .ok ()) → ∀ given a b,
      after.param.infer after.inputs ≠ .error (.invalid (.extentsDisagree given a b)) := by
  intro hooked
  have formed := (Graph.validate_eq_ok_iff r.graph).mp valid
  have alone : r.graph.PlainProduct n.name := by
    intro m other same
    obtain rfl := List.inj_on_of_nodup_map formed.distinctNames other member same
    exact ⟨plain, p, declared, undeclared⟩
  have mirrors := setup_declareExtents alone pack
  have same : SameSetup (hooked.setup pack)
      ((r.mapNodes (Node.declareExtents n.name)).setup pack) :=
    have blank : hooked.graph.blank = (r.mapNodes (Node.declareExtents n.name)).graph.blank :=
      r.graph.blank_hookNode n.name
    sameSetup blank rfl pack
  have results (bytes : Nat) :
      (hooked.setup pack).result = .ok bytes ↔ (r.setup pack).result = .ok bytes := by
    rw [same.result]
    exact mirrors.result_iff bytes
  refine ⟨?_, results, fun bytes success => ?_, fun context s after success =>
    Hook.agrees_of_matMulExtents success⟩
  · rw [← valid]
    refine r.graph.validate_mapNodes ⟨?_, ?_, ?_⟩ ?_ ?_ <;> intro m <;> split <;> rfl
  · have state := same.onSuccess bytes ((results bytes).mpr success)
    rw [state, mirrors.forward bytes success]
    have topology := Graph.wellFormed_of_check (Graph.check_eq_ok_iff_wellFormed.mpr formed)
    exact worksLike_declareExtents n.name fun m inSetup =>
      ((complete_setup topology success).reads m inSetup).1

/-- A projection of all rows of a batch. -/
def flatProduct : Node :=
  (Node.new "project" (.matMul (.linear false)) [.input 0, .input 1] [.internal 0]).withView 0
    .flattenLeading

def projecting : Graph :=
  Graph.new "projecting" ["x", "w"] ["y"] ["product"]
    [flatProduct, Node.new "normalize" (.softmax (-1)) [.internal 0] [.output 0]]

def projectingPack : Pack where
  inputs := [⟨.rowMajor .f32 ⟨[2, 2, 4]⟩, .external 4096⟩,
    ⟨.rowMajor .f32 ⟨[3, 4]⟩, .external 8192⟩]
  outputs := [⟨.rowMajor .f32 ⟨[4, 3]⟩, .external 12288⟩]
  workspace := some ⟨65536, 256⟩

theorem projecting_hooked :
    let r : Runner := ⟨projecting, .default, .unbound, .empty⟩
    let hooked : Runner := { r with graph := projecting.hookNode "project" .matMulExtents }
    (r.setup projectingPack).result = .ok 256 ∧
      (hooked.setup projectingPack).result = .ok 256 ∧
      ((hooked.setup projectingPack).state.graph.nodes.map Node.effective).head? =
        some (.matMul { MatMul.linear false with extents := some ⟨4, 3, 4⟩ }) ∧
      (hooked.setup projectingPack).state.WorksLike (r.setup projectingPack).state := by
  intro r hooked
  have success : (r.setup projectingPack).result = .ok 256 := by decide +kernel
  have valid : projecting.validate = .ok () := by decide +kernel
  have member : flatProduct ∈ r.graph.nodes := List.mem_cons_self
  obtain ⟨-, results, alike, -⟩ :=
    extents_hook_transparent valid member rfl rfl rfl projectingPack
  exact ⟨success, (results 256).mpr success, by decide +kernel, alike 256 success⟩

end Runner

end OperatorGraph
