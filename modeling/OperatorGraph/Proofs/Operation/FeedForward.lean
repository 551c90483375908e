import OperatorGraph.Operation.Mlp
import OperatorGraph.Proofs.Runner.Yields
import OperatorGraph.Proofs.Workspace.Totals

set_option autoImplicit false

namespace OperatorGraph

namespace View

theorem flattenLeading_of_sized {d : TensorDesc} (sized : d.byteSize?.isSome) {leading : List Int}
    {last : Int} (dims : d.shape.dims = leading ++ [last]) :
    flattenLeading.apply d.shape = ⟨[leading.prod, last]⟩ ∧ flattenLeading.KeepsCount d.shape := by
  obtain ⟨product, -, fits, -⟩ := d.leading_of_sized sized dims
  have applied : flattenLeading.apply d.shape = ⟨[leading.prod, last]⟩ := by
    simp only [flattenLeading, dims, List.getLast?_concat, List.dropLast_concat, product]
  have first : Bounded.satMul 1 leading.prod = leading.prod := by
    rw [Bounded.satMul, one_mul, Bounded.clamp_of_fits fits]
  refine ⟨applied, ?_⟩
  rw [Bounded.satProduct] at product
  simp only [KeepsCount, applied, Shape.elementCount, dims, Bounded.satProduct, List.foldl_append,
    List.foldl_cons, List.foldl_nil, first, product]

end View

namespace Mlp

/-- The element type of a block and the sizes of its tensors. -/
structure Sizes where
  dtype : ElementType
  /-- The dimensions of the input before its last. -/
  leading : List Int
  /-- The last dimension of the input. -/
  hidden : Int
  /-- The columns of the first projection. -/
  up : Int
  /-- The columns of the second projection. -/
  out : Int

namespace Sizes

def tokens (e : Sizes) : Int :=
  e.leading.prod

def input (e : Sizes) : TensorDesc :=
  .rowMajor e.dtype ⟨e.leading ++ [e.hidden]⟩

/-- One row for each token. -/
def rows (e : Sizes) (columns : Int) : TensorDesc :=
  .rowMajor e.dtype ⟨[e.tokens, columns]⟩

end Sizes

/-- The tensors of a call that a block takes. -/
structure Conforms (p : Mlp) (e : Sizes) (pack : Pack) : Prop where
  float : e.dtype.isFloat
  input : pack.inputs[0]?.map Tensor.desc = some e.input
  gain : pack.inputs[1]?.map Tensor.desc = some (.rowMajor e.dtype ⟨[e.hidden]⟩)
  shift : pack.inputs[2]?.map Tensor.desc = some (.rowMajor e.dtype ⟨[e.hidden]⟩)
  /-- The weights may have any format. -/
  up : ∃ format, pack.inputs[3]?.map Tensor.desc = some ⟨e.dtype, format, ⟨[e.up, e.hidden]⟩⟩
  even : p.activation = .swiglu → 2 ∣ e.up
  down : ∃ format, pack.inputs[4]?.map Tensor.desc =
    some ⟨e.dtype, format, ⟨[e.out, p.activation.columns e.up]⟩⟩
  /-- The biases may have any element type. -/
  biases : p.hasBias →
    (∃ dtype, pack.inputs[5]?.map Tensor.desc = some (.rowMajor dtype ⟨[e.up]⟩)) ∧
    ∃ dtype, pack.inputs[6]?.map Tensor.desc = some (.rowMajor dtype ⟨[e.out]⟩)
  /-- The output may have any shape with as many elements. -/
  output : ∃ dims, pack.outputs[0]?.map Tensor.desc = some (.rowMajor e.dtype ⟨dims⟩) ∧
    dims.prod = e.tokens * e.out
  upSized : (e.rows e.up).byteSize?.isSome
  outSized : (e.rows e.out).byteSize?.isSome

/-- The tensors that a block keeps on the way. -/
def internals (p : Mlp) (e : Sizes) : List TensorDesc :=
  [e.input, e.rows e.up, e.rows (p.activation.columns e.up)]

theorem flattened {x : TensorDesc} {dtype : ElementType} {tokens columns rows inner : Int}
    (same : x.withShape ⟨[tokens, columns]⟩ = .rowMajor dtype ⟨[rows, inner]⟩) :
    tokens = rows ∧ columns = inner := by
  have shape := congrArg (fun d => d.shape.dims) same
  simpa [TensorDesc.withShape, TensorDesc.rowMajor] using shape

section

variable (p : Mlp)

def norm : Node :=
  (Node.new "norm" (.layerNorm ⟨p.epsilon, -1, -1, false⟩) [.input 0, .input 1, .input 2]
    [.internal 0]).withHook (.layerNormAxis 1)

def up : Node :=
  ((Node.new "up" (.matMul (.linear p.hasBias)) ([.internal 0, .input 3] ++ p.bias 5)
    [.internal 1]).withView 0 .flattenLeading).withHook .matMulExtents

def act : Node :=
  Node.new "act" (.activation p.activation) [.internal 1] [.internal 2]

def down : Node :=
  (Node.new "down" (.matMul (.linear p.hasBias)) ([.internal 2, .input 4] ++ p.bias 6)
    [.output 0]).withHook .matMulExtents

theorem pipeline : p.graph.Pipeline [p.norm, p.up, p.act] p.down where
  nodes := rfl
  makes i n found := by
    match i, found with
    | 0, found | 1, found | 2, found => rw [← Option.some.inj found]; rfl
  ends := rfl
  internals := rfl

end

/-- The tensors of a call that has as many as a block asks for, all of a known size. -/
structure Binds (p : Mlp) (pack : Pack) (x gain shift wUp wDown : TensorDesc)
    (biases : List TensorDesc) (y : Tensor) : Prop where
  inputs : ∀ index : Nat, pack.inputs[index]?.map Tensor.desc =
    ([x, gain, shift, wUp, wDown] ++ biases)[index]?
  outputs : pack.outputs = [y]
  biases : biases.length = if p.hasBias then 2 else 0
  inputSized : x.byteSize?.isSome
  upSized : wUp.byteSize?.isSome
  downSized : wDown.byteSize?.isSome
  outputSized : y.desc.byteSize?.isSome

theorem exists_binds {p : Mlp} {pack : Pack}
    (counts : ∀ side, (pack.tensors side).length = (p.graph.slots side).length)
    (sized : ∀ side, ∀ tensor ∈ pack.tensors side, tensor.desc.byteSize?.isSome) :
    ∃ x gain shift wUp wDown biases y, p.Binds pack x gain shift wUp wDown biases y := by
  have atInput := sized .input
  have atOutput := sized .output
  have inputs : pack.inputs.length = 5 + if p.hasBias then 2 else 0 := by
    have count := counts .input
    cases bias : p.hasBias <;>
      simpa [Pack.tensors, Graph.slots, graph, Graph.new, Mlp.inputs, bias] using count
  have outputs : pack.outputs.length = 1 := counts .output
  simp only [Pack.tensors] at atInput atOutput
  obtain ⟨y, outputs⟩ := List.length_eq_one_iff.mp outputs
  rcases listed : pack.inputs with _ | ⟨x, _ | ⟨gain, _ | ⟨shift, _ | ⟨wUp, _ | ⟨wDown, biases⟩⟩⟩⟩⟩
  case cons.cons.cons.cons.cons =>
    rw [listed] at inputs atInput
    rw [outputs] at atOutput
    refine ⟨x.desc, gain.desc, shift.desc, wUp.desc, wDown.desc, biases.map Tensor.desc, y,
      fun index => ?_, outputs, ?_, atInput x (by simp), atInput wUp (by simp),
      atInput wDown (by simp), atOutput y (by simp)⟩
    · rw [← List.getElem?_map, listed]
      rfl
    · rw [List.length_map]
      simp only [List.length_cons] at inputs
      omega
  -- Shorter lists have fewer tensors than the block has slots.
  all_goals
    rw [listed] at inputs
    simp only [List.length_cons, List.length_nil] at inputs
    omega

section

variable {p : Mlp} {pack : Pack} {x gain shift wUp wDown : TensorDesc} {biases : List TensorDesc}
  {y : Tensor} (binds : p.Binds pack x gain shift wUp wDown biases y) {made : List TensorDesc}
  {checkViews : Bool}
include binds

theorem Binds.bias_cases : (p.hasBias = false ∧ biases = []) ∨
    p.hasBias = true ∧ ∃ bUp bDown, biases = [bUp, bDown] := by
  have count := binds.biases
  cases bias : p.hasBias with
  | false =>
    rw [bias] at count
    exact .inl ⟨rfl, List.length_eq_zero_iff.mp count⟩
  | true =>
    rw [bias] at count
    exact .inr ⟨rfl, List.length_eq_two.mp count⟩

theorem reads_norm : p.norm.readInputs (pack.tables made) checkViews = .ok [x, gain, shift] := by
  simp [Node.readInputs, Node.readInput, norm, Node.new, Node.withHook, Node.view?,
    Graph.readDesc, binds.inputs]

theorem reads_up {d : TensorDesc} (first : made[0]? = some d) (sized : d.byteSize?.isSome)
    {leading : List Int} {last : Int} (dims : d.shape.dims = leading ++ [last]) :
    p.up.readInputs (pack.tables made) checkViews =
      .ok (d.withShape ⟨[leading.prod, last]⟩ :: wUp :: biases.take 1) := by
  obtain ⟨flat, keeps⟩ := View.flattenLeading_of_sized sized dims
  rcases binds.bias_cases with ⟨bias, rfl⟩ | ⟨bias, bUp, bDown, rfl⟩ <;>
    simp [Node.readInputs, Node.readInput, up, Node.new, Node.withHook, Node.withView, Node.view?,
      Graph.readDesc, binds.inputs, first, Mlp.bias, bias, keeps, flat]

theorem reads_down {d : TensorDesc} (third : made[2]? = some d) :
    p.down.readInputs (pack.tables made) checkViews = .ok (d :: wDown :: biases.drop 1) := by
  rcases binds.bias_cases with ⟨bias, rfl⟩ | ⟨bias, bUp, bDown, rfl⟩ <;>
    simp [Node.readInputs, Node.readInput, down, Node.new, Node.withHook, Node.view?,
      Graph.readDesc, binds.inputs, third, Mlp.bias, bias]

omit binds in
theorem reads_act {d : TensorDesc} (second : made[1]? = some d) :
    p.act.readInputs (pack.tables made) checkViews = .ok [d] := by
  simp [Node.readInputs, Node.readInput, act, Node.new, Node.view?, Graph.readDesc, second]

/-- Each projection has a bias of its own, or none has. -/
theorem Binds.biases_iff {up out : Int} :
    (p.hasBias →
      (∃ dtype, pack.inputs[5]?.map Tensor.desc = some (.rowMajor dtype ⟨[up]⟩)) ∧
      ∃ dtype, pack.inputs[6]?.map Tensor.desc = some (.rowMajor dtype ⟨[out]⟩)) ↔
    (∀ bias ∈ biases.take 1, bias = .rowMajor bias.dtype ⟨[up]⟩) ∧
      ∀ bias ∈ biases.drop 1, bias = .rowMajor bias.dtype ⟨[out]⟩ := by
  have row {d : TensorDesc} {shape : Shape} :
      (∃ dtype, d = .rowMajor dtype shape) ↔ d = .rowMajor d.dtype shape :=
    ⟨by rintro ⟨dtype, rfl⟩; rfl, fun same => ⟨_, same⟩⟩
  rcases binds.bias_cases with ⟨bias, rfl⟩ | ⟨bias, bUp, bDown, rfl⟩
  · simp [bias]
  · simp [bias, binds.inputs, row]

theorem Binds.count_biases : (biases.take 1).length = (if p.hasBias then 1 else 0) ∧
    (biases.drop 1).length = if p.hasBias then 1 else 0 := by
  rcases binds.bias_cases with ⟨bias, rfl⟩ | ⟨bias, bUp, bDown, rfl⟩ <;> simp [bias]

/-- What was traced conforms. -/
theorem conforms_of_traced {all : List TensorDesc}
    (traced : Graph.Traced pack checkViews [] [p.norm, p.up, p.act] all) {desc : TensorDesc}
    (yields : p.down.Yields (pack.tables all) checkViews desc)
    (compatible : y.desc.Compatible desc) : ∃ e, p.Conforms e pack := by
  obtain ⟨countUp, countDown⟩ := binds.count_biases
  simp only [Graph.traced_cons, Graph.traced_nil] at traced
  obtain ⟨_, norm, _, up, _, act, rfl⟩ := traced
  obtain ⟨dtype, leading, hidden, float, rfl, rfl, rfl, rfl⟩ :=
    (Node.yields_layerNorm rfl rfl rfl rfl binds.inputSized (reads_norm binds)).mp norm
  obtain ⟨-, known, -⟩ := TensorDesc.leading_of_sized binds.inputSized rfl
  obtain ⟨_, _, columns, flat, ⟨dtypeUp, shapeUp⟩, biasUp, rfl, fitsUp⟩ :=
    (Node.yields_linear rfl rfl rfl countUp (reads_up binds rfl binds.inputSized rfl)).mp up
  obtain ⟨rfl, rfl⟩ := flattened flat
  obtain ⟨knownUp, word⟩ := TensorDesc.first_of_sized binds.upSized (congrArg Shape.dims shapeUp)
  have upSized := TensorDesc.sized_of_known known knownUp fitsUp
  obtain ⟨-, even, rfl⟩ := (Node.yields_activation rfl rfl rfl word upSized (reads_act rfl)).mp act
  obtain ⟨_, _, out, rows, ⟨dtypeDown, shapeDown⟩, biasDown, rfl, fitsDown⟩ :=
    (Node.yields_linear rfl rfl rfl countDown (reads_down binds rfl)).mp yields
  obtain ⟨rfl, rfl⟩ := flattened rows
  obtain ⟨knownOut, -⟩ := TensorDesc.first_of_sized binds.downSized (congrArg Shape.dims shapeDown)
  have outSized := TensorDesc.sized_of_known known knownOut fitsDown
  obtain ⟨dtypeY, formatY, elements⟩ := compatible
  rw [TensorDesc.elementCount_of_sized outSized,
    TensorDesc.elementCount_of_sized binds.outputSized] at elements
  exact ⟨⟨dtype, leading, hidden, columns, out⟩, {
    float := float
    input := binds.inputs 0
    gain := binds.inputs 1
    shift := binds.inputs 2
    up := ⟨wUp.format,
      (binds.inputs 3).trans (congrArg some (TensorDesc.eq_of_parts dtypeUp shapeUp))⟩
    even := even
    down := ⟨wDown.format,
      (binds.inputs 4).trans (congrArg some (TensorDesc.eq_of_parts dtypeDown shapeDown))⟩
    biases := binds.biases_iff.mpr ⟨biasUp, biasDown⟩
    output := by
      refine ⟨y.desc.shape.dims, ?_, ?_⟩
      · rw [binds.outputs]
        exact congrArg some (TensorDesc.eq_rowMajor_iff.mpr ⟨dtypeY, formatY, rfl⟩)
      · simpa [Sizes.tokens, TensorDesc.rowMajor] using elements
    upSized := upSized
    outSized := outSized }⟩

/-- What conforms can be traced. -/
theorem traced_of_conforms {e : Sizes} (conforms : p.Conforms e pack) :
    Graph.Traced pack checkViews [] [p.norm, p.up, p.act] (p.internals e) ∧
      ∃ desc, p.down.Yields (pack.tables (p.internals e)) checkViews desc ∧
        y.desc.Compatible desc := by
  obtain ⟨countUp, countDown⟩ := binds.count_biases
  obtain ⟨biasUp, biasDown⟩ := binds.biases_iff.mp conforms.biases
  obtain ⟨formatUp, atUp⟩ := conforms.up
  obtain ⟨formatDown, atDown⟩ := conforms.down
  obtain ⟨dims, atOutput, elements⟩ := conforms.output
  obtain rfl : x = e.input := Option.some.inj ((binds.inputs 0).symm.trans conforms.input)
  obtain rfl : gain = .rowMajor e.dtype ⟨[e.hidden]⟩ :=
    Option.some.inj ((binds.inputs 1).symm.trans conforms.gain)
  obtain rfl : shift = .rowMajor e.dtype ⟨[e.hidden]⟩ :=
    Option.some.inj ((binds.inputs 2).symm.trans conforms.shift)
  obtain rfl : wUp = ⟨e.dtype, formatUp, ⟨[e.up, e.hidden]⟩⟩ :=
    Option.some.inj ((binds.inputs 3).symm.trans atUp)
  obtain rfl : wDown = ⟨e.dtype, formatDown, ⟨[e.out, p.activation.columns e.up]⟩⟩ :=
    Option.some.inj ((binds.inputs 4).symm.trans atDown)
  have output : y.desc = .rowMajor e.dtype ⟨dims⟩ := by
    rw [binds.outputs] at atOutput
    exact Option.some.inj atOutput
  obtain ⟨-, word⟩ := TensorDesc.first_of_sized binds.upSized rfl
  have norm : p.norm.Yields (pack.tables []) checkViews e.input :=
    (Node.yields_layerNorm rfl rfl rfl rfl binds.inputSized (reads_norm binds)).mpr
      ⟨e.dtype, e.leading, e.hidden, conforms.float, rfl, rfl, rfl, rfl⟩
  have up : p.up.Yields (pack.tables [e.input]) checkViews (e.rows e.up) :=
    (Node.yields_linear rfl rfl rfl countUp (reads_up binds rfl binds.inputSized rfl)).mpr
      ⟨e.tokens, e.hidden, e.up, rfl, ⟨rfl, rfl⟩, biasUp, rfl,
        TensorDesc.fits_of_sized conforms.upSized⟩
  have act : p.act.Yields (pack.tables [e.input, e.rows e.up]) checkViews
      (e.rows (p.activation.columns e.up)) :=
    (Node.yields_activation rfl rfl rfl word conforms.upSized (reads_act rfl)).mpr
      ⟨conforms.float, conforms.even, rfl⟩
  have third : (p.internals e)[2]? = some (e.rows (p.activation.columns e.up)) := rfl
  have down : p.down.Yields (pack.tables (p.internals e)) checkViews (e.rows e.out) :=
    (Node.yields_linear rfl rfl rfl countDown (reads_down binds third)).mpr
      ⟨e.tokens, p.activation.columns e.up, e.out, rfl, ⟨rfl, rfl⟩, biasDown, rfl,
        TensorDesc.fits_of_sized conforms.outSized⟩
  refine ⟨?_, e.rows e.out, down, ?_⟩
  · simp only [Graph.traced_cons, Graph.traced_nil]
    exact ⟨_, norm, _, up, _, act, rfl⟩
  · refine ⟨by rw [output]; rfl, by rw [output]; rfl, ?_⟩
    rw [TensorDesc.elementCount_of_sized conforms.outSized,
      TensorDesc.elementCount_of_sized binds.outputSized, output]
    simpa [Sizes.rows, TensorDesc.rowMajor] using elements

theorem sized_of_conforms {e : Sizes} (conforms : p.Conforms e pack) :
    ∃ sizes : List Nat, (p.internals e).map TensorDesc.byteSize? = sizes.map some := by
  obtain ⟨formatUp, atUp⟩ := conforms.up
  have input : x = e.input := Option.some.inj ((binds.inputs 0).symm.trans conforms.input)
  have upSized := binds.upSized
  rw [Option.some.inj ((binds.inputs 3).symm.trans atUp)] at upSized
  obtain ⟨known, -⟩ := TensorDesc.first_of_sized upSized rfl
  obtain ⟨nonneg, le⟩ := p.activation.columns_le known
  have sized : ∀ d ∈ p.internals e, d.byteSize?.isSome := by
    simp only [internals, List.forall_mem_cons, List.not_mem_nil, false_implies, implies_true,
      and_true]
    exact ⟨input ▸ binds.inputSized, conforms.upSized,
      TensorDesc.sized_of_le conforms.upSized nonneg le⟩
  refine ⟨(p.internals e).map fun d => d.byteSize?.getD 0, ?_⟩
  rw [List.map_map]
  refine List.map_congr_left fun d member => ?_
  obtain ⟨bytes, known⟩ := Option.isSome_iff_exists.mp (sized d member)
  simp [known]

end

/-- No node of a block asks for scratch. -/
theorem scratchBytes_eq_zero {p : Mlp} {config : Config} {pack : Pack} {bytes : Nat}
    (formed : p.graph.topology.WellFormed)
    (success : ((⟨p.graph, config, .unbound, .empty⟩ : Runner).setup pack).result = .ok bytes) :
    ((⟨p.graph, config, .unbound, .empty⟩ : Runner).setup pack).state.graph.scratchBytes = 0 := by
  have nodes : p.graph.nodes = [p.norm, p.up, p.act, p.down] := rfl
  refine Runner.scratchBytes_setup success formed ?_ ?_
  · simp only [nodes, List.forall_mem_cons, List.not_mem_nil, false_implies, implies_true, and_true]
    refine ⟨?_, ?_, ?_, ?_⟩
    · rintro hook ⟨⟩
      exact Hook.layerNormAxis_keepsFamily 1
    · rintro hook ⟨⟩
      exact Hook.matMulExtents_keepsFamily
    · rintro hook ⟨⟩
    · rintro hook ⟨⟩
      exact Hook.matMulExtents_keepsFamily
  · simp [nodes, norm, up, act, down, Node.new, Node.withHook, Node.withView, Operator.family]

end Mlp

namespace Runner

/-- A setup of a feed forward block, after any calls that leave its parameters as they are declared,
succeeds exactly if the tensors of the call conform, provided that there are as many as the block
asks for and that all of them have a size. With the linear strategy it asks for the tensors that the
block keeps on the way, each rounded up. -/
theorem feedForward_setup {p : Mlp} {config : Config} {created : Runner}
    (accepted : Runner.new p.graph config = .ok created) {calls : List Call}
    (declares : (created.afterAll calls).graph.declared = p.graph.declared) {pack : Pack}
    (counts : ∀ side, (pack.tensors side).length = (p.graph.slots side).length)
    (sized : ∀ side, ∀ tensor ∈ pack.tensors side, tensor.desc.byteSize?.isSome) :
    let result := ((created.afterAll calls).setup pack).result
    ((∃ bytes, result = .ok bytes) ↔ ∃ e, p.Conforms e pack) ∧
      ∀ e, p.Conforms e pack → ∃ sizes, (p.internals e).map TensorDesc.byteSize? = sizes.map some ∧
        let total := Workspace.roundedSum config.workspaceAlignment sizes
        (config.workspaceStrategy = .linear → total < 2 ^ 64 → result = .ok total) := by
  intro result
  obtain ⟨rfl, formed, power⟩ := new_ok accepted
  obtain ⟨topology, sameConfig⟩ := topology_afterAll ⟨p.graph, config, .unbound, .empty⟩ calls
  have fresh : result = ((⟨p.graph, config, .unbound, .empty⟩ : Runner).setup pack).result :=
    (sameSetup (Graph.blank_eq_iff.mpr ⟨topology, declares⟩) sameConfig pack).result
  obtain ⟨x, gain, shift, wUp, wDown, biases, y, binds⟩ := Mlp.exists_binds counts sized
  have fits (side : Side) (tensor : Tensor) (member : tensor ∈ pack.tensors side) :
      tensor.desc.overflows = false := TensorDesc.fits_of_sized (sized side tensor member)
  rw [fresh]
  have succeeds {e : Mlp.Sizes} (conforms : p.Conforms e pack) : ∃ bytes,
      ((⟨p.graph, config, .unbound, .empty⟩ : Runner).setup pack).result = .ok bytes := by
    obtain ⟨traced, yields⟩ := Mlp.traced_of_conforms binds conforms
    obtain ⟨sizes, kept⟩ := Mlp.sized_of_conforms binds conforms
    exact setup_of_traced p.pipeline counts fits binds.outputs traced yields kept
  refine ⟨⟨fun ⟨bytes, success⟩ => ?_, fun ⟨e, conforms⟩ => succeeds conforms⟩, ?_⟩
  · obtain ⟨⟨all, traced, desc, yields, compatible⟩, -⟩ :=
      traced_of_setup p.pipeline counts fits binds.outputs success
    exact Mlp.conforms_of_traced binds traced yields compatible
  · intro e conforms
    obtain ⟨bytes, success⟩ := succeeds conforms
    obtain ⟨-, sizes, internalBytes, kept⟩ :=
      traced_of_setup p.pipeline counts fits binds.outputs success
    refine ⟨sizes, kept _ (Mlp.traced_of_conforms binds conforms).1, fun linear small => ?_⟩
    rw [success, setup_linear_unscratched power linear success internalBytes
      (Mlp.scratchBytes_eq_zero formed success) small]

/-- A block without biases that applies a gate, on two sequences of three tokens. -/
def gating : Mlp where
  activation := .swiglu
  hasBias := false
  epsilon := ⟨0x3727_c5ac⟩

def gatingPack : Pack where
  inputs := [⟨.rowMajor .f32 ⟨[2, 3, 8]⟩, .external 4096⟩, ⟨.rowMajor .f32 ⟨[8]⟩, .external 8192⟩,
    ⟨.rowMajor .f32 ⟨[8]⟩, .external 12288⟩, ⟨⟨.f32, .tiled, ⟨[32, 8]⟩⟩, .external 16384⟩,
    ⟨.rowMajor .f32 ⟨[8, 16]⟩, .external 20480⟩]
  outputs := [⟨.rowMajor .f32 ⟨[2, 3, 8]⟩, .external 24576⟩]
  workspace := none

/-- Six tokens need 192, 768 and 384 bytes on the way, in units of 256. -/
theorem gating_setup :
    let r : Runner := ⟨gating.graph, .default, .unbound, .empty⟩
    Runner.new gating.graph .default = .ok r ∧
      gating.Conforms ⟨.f32, [2, 3], 8, 32, 8⟩ gatingPack ∧
      (r.setup gatingPack).result = .ok 1536 := by
  intro r
  have accepted : Runner.new gating.graph .default = .ok r := rfl
  have conforms : gating.Conforms ⟨.f32, [2, 3], 8, 32, 8⟩ gatingPack := {
    float := rfl
    input := rfl
    gain := rfl
    shift := rfl
    up := ⟨.tiled, rfl⟩
    even := by decide
    down := ⟨.rowMajor, rfl⟩
    biases := by simp [gating]
    output := ⟨[2, 3, 8], rfl, rfl⟩
    upSized := by decide
    outSized := by decide }
  have declares : (r.afterAll []).graph.declared = gating.graph.declared := rfl
  have counts : ∀ side, (gatingPack.tensors side).length = (gating.graph.slots side).length := by
    rintro (_ | _) <;> rfl
  have sized : ∀ side, ∀ tensor ∈ gatingPack.tensors side, tensor.desc.byteSize?.isSome := by
    rintro (_ | _) <;> decide
  obtain ⟨sizes, kept, asks⟩ := (feedForward_setup accepted declares counts sized).2 _ conforms
  have known : [192, 768, 384].map some = sizes.map some := kept
  obtain rfl := (List.map_injective_iff.mpr (Option.some_injective Nat)) known
  exact ⟨accepted, conforms, asks rfl (by decide)⟩

end Runner

end OperatorGraph
