import OperatorGraph.Proofs.Runner.Inferred

set_option autoImplicit false

namespace OperatorGraph

namespace Graph

theorem bindFrom_answers {side : Side} {tensors : List Tensor}
    (fits : ∀ tensor ∈ tensors, tensor.desc.overflows = false) (g : Graph) (index : Nat) :
    (bindFrom side g index tensors).2 = .ok () := by
  induction tensors generalizing g index with
  | nil => rfl
  | cons tensor rest ih =>
    rw [List.forall_mem_cons] at fits
    simp only [bindFrom, fits.1, Bool.false_eq_true, if_false]
    exact ih fits.2 _ _

theorem bindSide_answers {g : Graph} {side : Side} {tensors : List Tensor}
    (count : tensors.length = (g.slots side).length)
    (fits : ∀ tensor ∈ tensors, tensor.desc.overflows = false) :
    (g.bindSide side tensors).2 = .ok () := by
  simp only [bindSide, checkCount_eq_ok.mpr count]
  exact bindFrom_answers fits g 0

/-- As many tensors as there are slots can be bound, if none of them overflows. -/
theorem bind_answers {g : Graph} {pack : Pack}
    (counts : ∀ side, (pack.tensors side).length = (g.slots side).length)
    (fits : ∀ side, ∀ tensor ∈ pack.tensors side, tensor.desc.overflows = false) :
    (g.bind pack).2 = .ok () := by
  have inputs := bindSide_answers (counts .input) (fits .input)
  have blank := blank_bindSide g .input pack.inputs
  unfold Graph.bind
  cases bound : g.bindSide .input pack.inputs with
  | mk next result =>
    simp only [Pack.tensors, bound] at inputs blank
    subst inputs
    have slots := length_slots_of_topology (blank_eq_iff.mp blank).1 .output
    exact bindSide_answers ((counts .output).trans slots.symm) (fits .output)

end Graph

/-- Tables that hold the tensors of a call, and the internal tensors that were made so far. -/
def Pack.tables (pack : Pack) (made : List TensorDesc) : Graph where
  name := ""
  inputs := pack.inputs.map fun tensor => ⟨"", some tensor⟩
  outputs := pack.outputs.map fun tensor => ⟨"", some tensor⟩
  internals := made.map fun desc => ⟨"", some ⟨desc, .unbound⟩⟩
  nodes := []

namespace Pack

variable (pack : Pack) (made : List TensorDesc)

@[simp] theorem desc?_tables_input (index : Nat) :
    (pack.tables made).desc? (.input index) = pack.inputs[index]?.map Tensor.desc := by
  cases found : pack.inputs[index]? <;>
    simp [tables, Graph.desc?, Graph.tensor?, Graph.slot?, found]

@[simp] theorem desc?_tables_output (index : Nat) :
    (pack.tables made).desc? (.output index) = pack.outputs[index]?.map Tensor.desc := by
  cases found : pack.outputs[index]? <;>
    simp [tables, Graph.desc?, Graph.tensor?, Graph.slot?, found]

@[simp] theorem desc?_tables_internal (index : Nat) :
    (pack.tables made).desc? (.internal index) = made[index]? := by
  cases found : made[index]? <;> simp [tables, Graph.desc?, Graph.tensor?, Graph.slot?, found]

end Pack

namespace Node

/-- A node reads descriptors, and nothing else of a graph. -/
theorem resolve_of_descs {n : Node} {g h : Graph} (same : g.desc? = h.desc?) {checkViews : Bool}
    {r : Resolution} (resolved : n.resolve g checkViews = .ok r) :
    n.resolve h checkViews = .ok r := by
  obtain ⟨inputs, s, reads, hooked, later⟩ := resolve_eq_ok.mp resolved
  refine resolve_eq_ok.mpr ⟨inputs, s, Answer.mapM_eq_ok_of ?_ reads, ?_, later⟩
  · rintro ⟨id, index⟩ _ desc read
    simp only [readInput, Answer.bind_eq_ok, Graph.readDesc_eq_ok, same] at read ⊢
    exact read
  · rw [← hooked]
    simp only [runHook, same]

/-- A node that has one output makes a tensor of it. -/
def Yields (n : Node) (g : Graph) (checkViews : Bool) (desc : TensorDesc) : Prop :=
  ∃ r, n.resolve g checkViews = .ok r ∧ r.outputs = [desc]

theorem yields_of_descs {n : Node} {g h : Graph} (same : g.desc? = h.desc?) {checkViews : Bool}
    {desc : TensorDesc} : n.Yields g checkViews desc ↔ n.Yields h checkViews desc :=
  ⟨fun ⟨r, resolved, outputs⟩ => ⟨r, resolve_of_descs same resolved, outputs⟩,
    fun ⟨r, resolved, outputs⟩ => ⟨r, resolve_of_descs same.symm resolved, outputs⟩⟩

/-- What a node makes of inputs that it reads is what its parameter infers, after its hook. -/
theorem yields_iff {n : Node} {g : Graph} {checkViews : Bool} {inputs : List TensorDesc}
    {desc : TensorDesc} (single : n.outputs.length = 1)
    (reads : n.readInputs g checkViews = .ok inputs) :
    n.Yields g checkViews desc ↔ ∃ s, n.runHook g inputs = .ok s ∧
      s.param.infer s.inputs = .ok [desc] ∧ desc.overflows = false := by
  constructor
  · rintro ⟨r, resolved, outputs⟩
    obtain ⟨read, s, reads', hooked, inferred, -, -⟩ := resolve_eq_ok.mp resolved
    rw [reads] at reads'
    obtain rfl := Except.ok.inj reads'
    rw [outputs] at inferred
    obtain ⟨inferred, -, fits⟩ := inferOutputs_eq_ok.mp inferred
    exact ⟨s, hooked, inferred, fits desc List.mem_cons_self⟩
  · rintro ⟨s, hooked, inferred, fits⟩
    have outputs : n.inferOutputs s = .ok [desc] :=
      inferOutputs_eq_ok.mpr ⟨inferred, single.symm, by simpa using fits⟩
    exact ⟨⟨s.param, s.inputs, [desc]⟩,
      resolve_eq_ok.mpr ⟨inputs, s, reads, hooked, outputs, rfl, rfl⟩, rfl⟩

theorem yields_of_resolve {n : Node} {g : Graph} {checkViews : Bool} {r : Resolution}
    (single : n.outputs.length = 1) (resolved : n.resolve g checkViews = .ok r) :
    ∃ desc, r.outputs = [desc] := by
  have count := (resolve_ok resolved).2.1
  exact List.length_eq_one_iff.mp (count.trans single)

end Node

namespace Graph

theorem desc?_settle (g : Graph) (position : Nat) (r : Resolution) :
    (g.settle position r).desc? = g.desc? := by
  funext id
  simp only [desc?, tensor?, slot?_settle]

/-- A node that is resolved and whose outputs are placed is done. -/
theorem resolveAt_of_placed {checkViews : Bool} {g placed : Graph} {position : Nat} {n : Node}
    {r : Resolution} (found : g.nodes[position]? = some n)
    (resolved : n.resolve g checkViews = .ok r)
    (placing : placeFrom n.name r.param.family g 0 (n.outputs.zip r.outputs) = (placed, .ok ())) :
    (resolveAt checkViews g position).result = .ok () ∧
      (resolveAt checkViews g position).state = placed.settle position r := by
  simp only [resolveAt, found, resolved, placing, and_self]

/-- A graph on its way through a pipeline: its slots hold the tensors of a call and those that its
first nodes have made, and its other nodes are as they were built. -/
structure Stage (built : Graph) (pack : Pack) (made : List TensorDesc) (g : Graph) : Prop where
  descs : g.desc? = (pack.tables made).desc?
  nodes : ∀ later, made.length ≤ later → g.nodes[later]? = built.nodes[later]?
  topology : g.topology = built.topology

namespace Stage

variable {built g : Graph} {pack : Pack} {made : List TensorDesc} {checkViews : Bool} {n : Node}

theorem nodes_resolveAt (stage : Stage built pack made g) (later : Nat)
    (behind : made.length < later) :
    (resolveAt checkViews g made.length).state.nodes[later]? = built.nodes[later]? := by
  rw [node_resolveAt_of_ne checkViews g (by omega), stage.nodes later (by omega)]

theorem topology_resolveAt (stage : Stage built pack made g) :
    (resolveAt checkViews g made.length).state.topology = built.topology :=
  (blank_eq_iff.mp (blank_resolveAt checkViews g made.length)).1.trans stage.topology

/-- The node of the next internal tensor is done if it yields one, which is there afterwards. -/
theorem next (stage : Stage built pack made g) (found : built.nodes[made.length]? = some n)
    (writes : n.outputs = [.internal made.length])
    (has : built.topology.Has (.internal made.length)) :
    ((resolveAt checkViews g made.length).result = .ok () ↔
      ∃ desc, n.Yields (pack.tables made) checkViews desc) ∧
    ∀ desc, n.Yields (pack.tables made) checkViews desc →
      Stage built pack (made ++ [desc]) (resolveAt checkViews g made.length).state := by
  have here : g.nodes[made.length]? = some n := (stage.nodes _ (Nat.le_refl _)).trans found
  have single : n.outputs.length = 1 := by rw [writes, List.length_singleton]
  have unbound : g.boundOutput? (.internal made.length) = none := rfl
  have present : (g.slot? (.internal made.length)).isSome := by
    rw [slot?_isSome_iff, stage.topology]
    exact has
  have done (desc : TensorDesc) (yields : n.Yields (pack.tables made) checkViews desc) :
      ∃ r, (resolveAt checkViews g made.length).result = .ok () ∧
        (resolveAt checkViews g made.length).state =
          (g.fill (.internal made.length) ⟨desc, .unbound⟩).settle made.length r := by
    obtain ⟨r, resolved, outputs⟩ := (Node.yields_of_descs stage.descs).mpr yields
    refine ⟨r, resolveAt_of_placed here resolved ?_⟩
    simp only [writes, outputs, List.zip_cons_cons, List.zip_nil_right, placeFrom, unbound]
  refine ⟨⟨fun success => ?_, ?_⟩, fun desc yields => ⟨?_, ?_, ?_⟩⟩
  · obtain ⟨r, _, resolved, -, -⟩ := resolveAt_ok here success
    obtain ⟨desc, outputs⟩ := Node.yields_of_resolve single resolved
    exact ⟨desc, (Node.yields_of_descs stage.descs).mp ⟨r, resolved, outputs⟩⟩
  · rintro ⟨desc, yields⟩
    obtain ⟨_, success, -⟩ := done desc yields
    exact success
  · obtain ⟨r, -, state⟩ := done desc yields
    rw [state, desc?_settle]
    funext id
    by_cases same : TensorId.internal made.length = id
    · rw [← same, desc?_fill_self present, Pack.desc?_tables_internal,
        List.getElem?_concat_length]
    · have kept : (g.fill (.internal made.length) ⟨desc, .unbound⟩).desc? id =
          (pack.tables made).desc? id := by
        rw [← stage.descs]
        simp only [desc?, tensor?, slot?_fill_of_ne _ same]
      rw [kept]
      cases id with
      | input index | output index => simp
      | internal index =>
        have different : made.length ≠ index := fun equal => same (by rw [equal])
        rw [Pack.desc?_tables_internal, Pack.desc?_tables_internal]
        rcases Nat.lt_or_gt_of_ne different with behind | before
        · rw [List.getElem?_eq_none (by omega), List.getElem?_eq_none (by simp; omega)]
        · rw [List.getElem?_append_left before]
  · intro later behind
    rw [List.length_append, List.length_singleton] at behind
    exact stage.nodes_resolveAt later behind
  · exact stage.topology_resolveAt

/-- The node of the caller's output is done if it yields what the bound tensor can stand for. It
leaves the slots as they are. -/
theorem last (stage : Stage built pack made g) (found : built.nodes[made.length]? = some n)
    (writes : n.outputs = [.output 0]) {y : Tensor} (bound : pack.outputs = [y]) :
    ((resolveAt checkViews g made.length).result = .ok () ↔
      ∃ desc, n.Yields (pack.tables made) checkViews desc ∧ y.desc.Compatible desc) ∧
    ((resolveAt checkViews g made.length).result = .ok () →
      (resolveAt checkViews g made.length).state.desc? = (pack.tables made).desc?) := by
  have here : g.nodes[made.length]? = some n := (stage.nodes _ (Nat.le_refl _)).trans found
  have single : n.outputs.length = 1 := by rw [writes, List.length_singleton]
  have held : g.boundOutput? (.output 0) = some y.desc := by
    show g.desc? (.output 0) = some y.desc
    rw [stage.descs, Pack.desc?_tables_output, bound]
    rfl
  have placing {r : Resolution} {desc : TensorDesc} (outputs : r.outputs = [desc]) :
      (placeFrom n.name r.param.family g 0 (n.outputs.zip r.outputs)).1 = g ∧
        ((placeFrom n.name r.param.family g 0 (n.outputs.zip r.outputs)).2 = .ok () ↔
          y.desc.Compatible desc) := by
    simp only [writes, outputs, List.zip_cons_cons, List.zip_nil_right, placeFrom, held]
    by_cases compatible : y.desc.Compatible desc <;> simp [compatible]
  refine ⟨⟨fun success => ?_, ?_⟩, fun success => ?_⟩
  · obtain ⟨r, _, resolved, placed, -⟩ := resolveAt_ok here success
    obtain ⟨desc, outputs⟩ := Node.yields_of_resolve single resolved
    exact ⟨desc, (Node.yields_of_descs stage.descs).mp ⟨r, resolved, outputs⟩,
      (placing outputs).2.mp (congrArg Prod.snd placed)⟩
  · rintro ⟨desc, yields, compatible⟩
    obtain ⟨r, resolved, outputs⟩ := (Node.yields_of_descs stage.descs).mpr yields
    exact (resolveAt_of_placed here resolved
      (Prod.ext rfl ((placing outputs).2.mpr compatible))).1
  · obtain ⟨r, placed, resolved, ended, state⟩ := resolveAt_ok here success
    obtain ⟨desc, outputs⟩ := Node.yields_of_resolve single resolved
    have kept : placed = g := by rw [← (placing outputs).1, ended]
    rw [state, desc?_settle, kept, stage.descs]

end Stage

/-- A run of nodes on the tensors of a call. Each makes one tensor from those that the call and the
nodes before it provide. -/
inductive Traced (pack : Pack) (checkViews : Bool) :
    List TensorDesc → List Node → List TensorDesc → Prop where
  | nil {made : List TensorDesc} : Traced pack checkViews made [] made
  | cons {made all : List TensorDesc} {n : Node} {rest : List Node} {desc : TensorDesc}
    (yields : n.Yields (pack.tables made) checkViews desc)
    (later : Traced pack checkViews (made ++ [desc]) rest all) :
    Traced pack checkViews made (n :: rest) all

section

variable {pack : Pack} {checkViews : Bool} {made all : List TensorDesc}

@[simp] theorem traced_nil : Traced pack checkViews made [] all ↔ all = made :=
  ⟨by rintro ⟨⟩; rfl, by rintro rfl; exact .nil⟩

@[simp] theorem traced_cons {n : Node} {rest : List Node} :
    Traced pack checkViews made (n :: rest) all ↔ ∃ desc,
      n.Yields (pack.tables made) checkViews desc ∧
        Traced pack checkViews (made ++ [desc]) rest all :=
  ⟨by rintro ⟨⟩; exact ⟨_, ‹_›, ‹_›⟩, fun ⟨_, yields, later⟩ => .cons yields later⟩

theorem Traced.length {nodes : List Node} (traced : Traced pack checkViews made nodes all) :
    all.length = made.length + nodes.length := by
  induction traced with
  | nil => rfl
  | cons _ _ ih =>
    rw [ih, List.length_append, List.length_singleton, List.length_cons]
    omega

end

/-- Nodes that make internal tensors are done if they can be traced, and the graph has reached the
stage behind them then. -/
theorem Stage.run {built : Graph} {pack : Pack} {checkViews : Bool} {nodes : List Node}
    {made : List TensorDesc} {g : Graph} (stage : Stage built pack made g)
    (inner : ∀ (i : Nat) (n : Node), nodes[i]? = some n →
      built.nodes[made.length + i]? = some n ∧ n.outputs = [.internal (made.length + i)] ∧
        built.topology.Has (.internal (made.length + i))) :
    let run := Outcome.forEach (resolveAt checkViews) g (List.range' made.length nodes.length)
    (run.result = .ok () ↔ ∃ all, Traced pack checkViews made nodes all) ∧
      ∀ all, Traced pack checkViews made nodes all → Stage built pack all run.state := by
  induction nodes generalizing made g with
  | nil =>
    refine ⟨⟨fun _ => ⟨made, .nil⟩, fun _ => rfl⟩, fun all traced => ?_⟩
    obtain rfl := traced_nil.mp traced
    exact stage
  | cons n rest ih =>
    obtain ⟨found, writes, has⟩ := inner 0 n rfl
    rw [Nat.add_zero] at found writes has
    obtain ⟨here, after⟩ := stage.next found writes has
    have later (desc : TensorDesc) (yields : n.Yields (pack.tables made) checkViews desc) :=
      ih (after desc yields) fun i m listed => by
        rw [List.length_append, List.length_singleton, Nat.add_assoc, Nat.add_comm 1]
        exact inner (i + 1) m listed
    simp only [List.length_append, List.length_singleton] at later
    simp only [List.length_cons, List.range'_succ, Outcome.forEach_cons, Outcome.andThen_eq_ok]
    refine ⟨⟨?_, ?_⟩, ?_⟩
    · rintro ⟨_, success, rest⟩
      obtain ⟨desc, yields⟩ := here.mp success
      obtain ⟨all, traced⟩ := (later desc yields).1.mp rest
      exact ⟨all, .cons yields traced⟩
    · rintro ⟨all, traced⟩
      obtain ⟨desc, yields, traced⟩ := traced_cons.mp traced
      exact ⟨(), here.mpr ⟨desc, yields⟩, (later desc yields).1.mpr ⟨all, traced⟩⟩
    · intro all traced
      obtain ⟨desc, yields, traced⟩ := traced_cons.mp traced
      rw [Outcome.andThen_of_ok _ (here.mpr ⟨desc, yields⟩)]
      exact (later desc yields).2 all traced

/-- A binding fills the slots of the caller, and no internal slot. -/
theorem stage_of_bind {built : Graph} {pack : Pack}
    (counts : ∀ side, (pack.tensors side).length = (built.slots side).length)
    (fits : ∀ side, ∀ tensor ∈ pack.tensors side, tensor.desc.overflows = false) :
    (built.clear.bind pack).2 = .ok () ∧ Stage built pack [] (built.clear.bind pack).1 := by
  have cleared := (blank_eq_iff.mp built.blank_clear).1
  have success : (built.clear.bind pack).2 = .ok () := bind_answers
    (fun side => (counts side).trans (length_slots_of_topology cleared.symm side)) fits
  have topology : (built.clear.bind pack).1.topology = built.topology :=
    (blank_eq_iff.mp (built.clear.blank_bind pack)).1.trans cleared
  have named (side : Side) (index : Nat) :
      (built.clear.bind pack).1.desc? (side.tensorId index) =
        (pack.tensors side)[index]?.map Tensor.desc := by
    cases found : (pack.tensors side)[index]? with
    | some tensor => exact desc?_bind success side found
    | none =>
      have absent : (built.clear.bind pack).1.slot? (side.tensorId index) = none := by
        rw [slot?_tensorId, List.getElem?_eq_none_iff, length_slots_of_topology topology,
          ← counts side]
        exact List.getElem?_eq_none_iff.mp found
      simp only [desc?, tensor?, absent, Option.bind_none, Option.map_none]
  refine ⟨success, ?_, fun later _ => congrArg (·[later]?) (nodes_bind _ pack), topology⟩
  funext id
  cases id with
  | input index => exact (named .input index).trans (pack.desc?_tables_input [] index).symm
  | output index => exact (named .output index).trans (pack.desc?_tables_output [] index).symm
  | internal index =>
    obtain ⟨next, inputs, outputs⟩ := bind_ok success
    have first : (bindFrom .input built.clear 0 pack.inputs).1.slot? (.internal index) =
        built.clear.slot? (.internal index) :=
      slot?_bindFrom (by simp [Side.tensorId]) pack.inputs built.clear
    have second : (bindFrom .output next 0 pack.outputs).1.slot? (.internal index) =
        next.slot? (.internal index) :=
      slot?_bindFrom (by simp [Side.tensorId]) pack.outputs next
    rw [(bindSide_ok inputs).2] at first
    rw [(bindSide_ok outputs).2] at second
    rw [Pack.desc?_tables_internal, List.getElem?_nil]
    simp only [desc?, tensor?, second, first]
    cases found : built.internals[index]? <;> simp [clear, slot?, Slot.empty, found]

theorem mapM_byteSize_eq_ok {slots : List Slot} {descs : List TensorDesc}
    (held : List.Forall₂ (fun slot desc => slot.tensor.map Tensor.desc = some desc) slots descs)
    {sizes : List Nat} :
    slots.mapM Slot.byteSize = .ok sizes ↔ descs.map TensorDesc.byteSize? = sizes.map some := by
  induction held generalizing sizes with
  | nil => cases sizes <;> simp [pure, Except.pure]
  | @cons slot desc slots descs here _ ih =>
    obtain ⟨tensor, present, rfl⟩ := Option.map_eq_some_iff.mp here
    have size (bytes : Nat) : slot.byteSize = .ok bytes ↔ tensor.desc.byteSize? = some bytes := by
      simp only [Slot.byteSize, present]
      cases tensor.desc.byteSize? <;> simp
    simp only [List.mapM_cons, Answer.bind_eq_ok, Answer.pure_eq_ok, size, ih]
    cases sizes with
    | nil => simp
    | cons bytes rest => simp

theorem internalBytes_eq_ok {g : Graph} {descs : List TensorDesc}
    (count : g.internals.length = descs.length)
    (held : ∀ index, g.desc? (.internal index) = descs[index]?) {sizes : List Nat} :
    g.internalBytes = .ok sizes ↔ descs.map TensorDesc.byteSize? = sizes.map some := by
  refine mapM_byteSize_eq_ok (Answer.forall₂_of_getElem? count fun i slot desc atSlot atDesc => ?_)
  have here := held i
  rw [atDesc] at here
  simpa [desc?, tensor?, slot?, atSlot] using here

/-- A graph whose nodes make its internal tensors one by one, and its only output last. -/
structure Pipeline (g : Graph) (inner : List Node) (last : Node) : Prop where
  nodes : g.nodes = inner ++ [last]
  makes : ∀ (i : Nat) (n : Node), inner[i]? = some n → n.outputs = [.internal i]
  ends : last.outputs = [.output 0]
  internals : g.internals.length = inner.length

section

variable {built g : Graph} {inner : List Node} {last : Node} (pipeline : built.Pipeline inner last)
  {pack : Pack} {y : Tensor} (bound : pack.outputs = [y]) {checkViews : Bool}
include pipeline bound

/-- The nodes of a pipeline can be resolved if they can be traced, to a tensor that the bound output
can stand for. What was traced is there afterwards. -/
theorem resolve_pipeline (stage : Stage built pack [] g) :
    ((resolve checkViews g).result = .ok () ↔ ∃ all, Traced pack checkViews [] inner all ∧
      ∃ desc, last.Yields (pack.tables all) checkViews desc ∧ y.desc.Compatible desc) ∧
    ((resolve checkViews g).result = .ok () → ∀ all, Traced pack checkViews [] inner all →
      (resolve checkViews g).state.desc? = (pack.tables all).desc?) := by
  have nodes : g.nodes = built.nodes :=
    List.ext_getElem? fun later => stage.nodes later (Nat.zero_le later)
  have positions : List.range g.nodes.length = List.range' 0 inner.length ++ [inner.length] := by
    rw [nodes, pipeline.nodes, List.length_append, List.length_singleton, List.range_succ,
      List.range_eq_range']
  have placed (i : Nat) (n : Node) (listed : inner[i]? = some n) :
      built.nodes[0 + i]? = some n ∧ n.outputs = [.internal (0 + i)] ∧
        built.topology.Has (.internal (0 + i)) := by
    have inside := (List.getElem?_eq_some_iff.mp listed).1
    rw [Nat.zero_add]
    refine ⟨?_, pipeline.makes i n listed, ?_⟩
    · rw [pipeline.nodes, List.getElem?_append_left inside, listed]
    · show i < (built.internals.map Slot.name).length
      rwa [List.length_map, pipeline.internals]
  obtain ⟨done, reached⟩ := @Stage.run built pack checkViews inner [] g stage placed
  rw [List.length_nil] at done reached
  have count {all : List TensorDesc} (traced : Traced pack checkViews [] inner all) :
      all.length = inner.length := by rw [traced.length, List.length_nil, Nat.zero_add]
  have ending {all : List TensorDesc} (traced : Traced pack checkViews [] inner all) :=
    @Stage.last built _ pack all checkViews last (reached all traced)
      (by rw [count traced, pipeline.nodes, List.getElem?_concat_length]) pipeline.ends y bound
  simp only [resolve, positions, Outcome.forEach_append, Outcome.andThen_eq_ok,
    Outcome.forEach_singleton]
  refine ⟨⟨?_, ?_⟩, ?_⟩
  · rintro ⟨_, ran, ended⟩
    obtain ⟨all, traced⟩ := done.mp ran
    exact ⟨all, traced, (ending traced).1.mp (by rwa [count traced])⟩
  · rintro ⟨all, traced, yields⟩
    have ended := (ending traced).1.mpr yields
    rw [count traced] at ended
    exact ⟨(), done.mpr ⟨all, traced⟩, ended⟩
  · rintro ⟨_, ran, ended⟩ all traced
    have kept := (ending traced).2
    rw [count traced] at kept
    rw [Outcome.andThen_of_ok _ ran]
    exact kept ended

/-- The sizes of the internal tensors are the sizes of what was traced. -/
theorem internalBytes_pipeline (stage : Stage built pack [] g)
    (success : (resolve checkViews g).result = .ok ()) {all : List TensorDesc}
    (traced : Traced pack checkViews [] inner all) {sizes : List Nat} :
    (resolve checkViews g).state.internalBytes = .ok sizes ↔
      all.map TensorDesc.byteSize? = sizes.map some := by
  refine internalBytes_eq_ok ?_ fun index => ?_
  · have topology := (blank_eq_iff.mp (blank_resolve checkViews g)).1.trans stage.topology
    have internals := congrArg (fun t => t.internals.length) topology
    simp only [Graph.topology, List.length_map] at internals
    rw [internals, pipeline.internals, traced.length, List.length_nil, Nat.zero_add]
  · rw [(resolve_pipeline pipeline bound stage).2 success all traced, Pack.desc?_tables_internal]

end

end Graph

namespace Runner

section

variable {r : Runner} {inner : List Node} {last : Node} (pipeline : r.graph.Pipeline inner last)
  {pack : Pack} (counts : ∀ side, (pack.tensors side).length = (r.graph.slots side).length)
  (fits : ∀ side, ∀ tensor ∈ pack.tensors side, tensor.desc.overflows = false) {y : Tensor}
  (bound : pack.outputs = [y])
include pipeline counts fits bound

/-- A successful setup has traced the nodes, to a tensor that the bound output can stand for. The
internal tensors have the sizes of what was traced. -/
theorem traced_of_setup {bytes : Nat} (success : (r.setup pack).result = .ok bytes) :
    (∃ all, Graph.Traced pack r.config.checkViews [] inner all ∧
      ∃ desc, last.Yields (pack.tables all) r.config.checkViews desc ∧ y.desc.Compatible desc) ∧
    ∃ sizes, (r.setup pack).state.graph.internalBytes = .ok sizes ∧
      ∀ all, Graph.Traced pack r.config.checkViews [] inner all →
        all.map TensorDesc.byteSize? = sizes.map some := by
  obtain ⟨g, sizes, binding, resolution, sized, state, -⟩ := setup_ok success
  have stage := (Graph.stage_of_bind counts fits).2
  rw [binding] at stage
  refine ⟨(Graph.resolve_pipeline pipeline bound stage).1.mp resolution, sizes, ?_,
    fun all traced => (Graph.internalBytes_pipeline pipeline bound stage resolution traced).mp sized⟩
  rw [state, ← sized]
  exact (Graph.assignFrom_keeps _ _ 0).2.1

/-- Nodes that can be traced are set up. -/
theorem setup_of_traced {all : List TensorDesc}
    (traced : Graph.Traced pack r.config.checkViews [] inner all)
    (yields : ∃ desc, last.Yields (pack.tables all) r.config.checkViews desc ∧
      y.desc.Compatible desc)
    {sizes : List Nat} (sized : all.map TensorDesc.byteSize? = sizes.map some) :
    ∃ bytes, (r.setup pack).result = .ok bytes := by
  obtain ⟨binding, stage⟩ := Graph.stage_of_bind counts fits
  have resolution := (Graph.resolve_pipeline pipeline bound stage).1.mpr ⟨all, traced, yields⟩
  have internalBytes :=
    (Graph.internalBytes_pipeline pipeline bound stage resolution traced).mpr sized
  have planned (s : Runner) (answered : s.graph.internalBytes = .ok sizes) :
      ∃ bytes, s.planWorkspace.result = .ok bytes := by
    simp only [planWorkspace, answered, Except.ok.injEq, exists_eq']
  obtain ⟨bytes, planned⟩ :=
    planned { (r.bind pack).state.resolve.state with state := .shapesResolved } internalBytes
  exact ⟨bytes, Outcome.andThen_eq_ok.mpr
    ⟨(), binding, Outcome.andThen_eq_ok.mpr ⟨(), resolution, planned⟩⟩⟩

end

end Runner

theorem Node.resolve_family {n : Node} {g : Graph} {checkViews : Bool} {r : Resolution}
    (keeps : ∀ hook, n.hook = some hook → hook.KeepsFamily)
    (resolved : n.resolve g checkViews = .ok r) : r.param.family = n.declared.family := by
  obtain ⟨inputs, s, -, hooked, -, param, -⟩ := resolve_eq_ok.mp resolved
  rw [← param]
  cases present : n.hook with
  | none =>
    simp only [runHook, present, Except.ok.injEq] at hooked
    rw [← hooked]
  | some hook => exact keeps hook present _ _ _ ((runHook_eq_ok present).mp hooked)

/-- Only attention asks for scratch. -/
theorem Operator.scratchBytes_eq_zero {op : Operator} (plain : op.family ≠ .selfAttention)
    (inputs : List TensorDesc) : op.scratchBytes inputs = 0 := by
  cases op with
  | selfAttention p => exact absurd rfl plain
  | _ => rfl

/-- Where no node is declared as attention, and no hook changes a family, setup asks for no
scratch. -/
theorem Runner.scratchBytes_setup {r : Runner} {pack : Pack} {bytes : Nat}
    (success : (r.setup pack).result = .ok bytes) (formed : r.graph.topology.WellFormed)
    (keeps : ∀ n ∈ r.graph.nodes, ∀ hook, n.hook = some hook → hook.KeepsFamily)
    (plain : ∀ n ∈ r.graph.nodes, n.declared.family ≠ .selfAttention) :
    (r.setup pack).state.graph.scratchBytes = 0 := by
  have asks (n : Node) (member : n ∈ (r.setup pack).state.graph.nodes) : n.scratchBytes = 0 := by
    have blank := congrArg Graph.nodes (r.blank_setup pack).1
    have listed : n.unresolved ∈ r.graph.blank.nodes := by
      rw [← blank]
      exact List.mem_map_of_mem member
    obtain ⟨m, built, same⟩ := List.mem_map.mp listed
    have hook : m.hook = n.hook := (congrArg Node.hook same :)
    have declared : m.declared = n.declared := (congrArg Node.declared same :)
    obtain ⟨position, found⟩ := List.getElem?_of_mem member
    obtain ⟨_, before, res, _, -, -, -, resolved, -, -, rfl, -⟩ := node_setup success formed found
    have family : res.param.family = before.declared.family :=
      Node.resolve_family (fun other present => keeps m built other (hook.trans present)) resolved
    exact Operator.scratchBytes_eq_zero (by rw [family, ← declared]; exact plain m built) _
  unfold Graph.scratchBytes
  cases most : ((r.setup pack).state.graph.nodes.map Node.scratchBytes).max? with
  | none => rfl
  | some greatest =>
    obtain ⟨n, member, rfl⟩ := List.mem_map.mp (List.max?_eq_some_iff.mp most).1
    exact asks n member

end OperatorGraph
