import OperatorGraph.Proofs.Device.Refusals

set_option autoImplicit false

namespace OperatorGraph

open Dispatch Shader

namespace Operator

/-- The operator without its scalars, axes, sizes, strides and counts. -/
def variant : Operator → Operator
  | elementwise (.scale _) => elementwise (.scale .one)
  | elementwise kind => elementwise kind
  | layerNorm p => layerNorm ⟨.one, 0, 0, p.withStats⟩
  | rmsNorm _ => rmsNorm .one
  | matMul p => matMul { p with extents := none }
  | activation kind => activation kind
  | softmax _ => softmax 0
  | asStrided _ => asStrided ⟨[], [], 0⟩
  | transpose _ => transpose []
  | relayout target => relayout target
  | split _ _ => split 0 0
  | concat _ => concat 0
  | gather _ => gather 0
  | rope _ => rope 0
  | selfAttention _ => selfAttention ⟨0, 0, .one, [], []⟩

/-- The program of all dispatches of an operator with a result of the given type. -/
def program? (result : ElementType) : Operator → Option Program
  | elementwise (.scale _) => some .scale
  | elementwise (.cast _) => (bindableType result).toOption.map .cast
  | elementwise kind => kind.op?.map .broadcast
  | layerNorm p => some (.layerNorm p.withStats)
  | rmsNorm _ => some .rmsNorm
  | matMul p => some (.matMul p.transposeA p.transposeB p.hasBias)
  | activation kind => some (if kind = .swiglu then .gate else .map kind)
  | softmax _ => some .softmax
  | asStrided _ | transpose _ | split _ _ | concat _ => some .copy
  | relayout _ => none
  | gather _ => (bindableType result).toOption.map .gather
  | rope _ => some .rope
  | selfAttention _ => some .attention

theorem program?_variant (result : ElementType) (op : Operator) :
    op.variant.program? result = op.program? result := by
  cases op with
  | elementwise kind => cases kind <;> rfl
  | _ => rfl

end Operator

namespace Program

/-- The types of the tensors that a program works on, from those of the inputs and the result. -/
def operandTypes (inputs : List ElementType) (result : ElementType) : Program → List ElementType
  | cast _ | copy => inputs.take 1 ++ [result]
  | broadcast _ | gather _ => inputs.take 2 ++ [result]
  | scale | map _ | gate | softmax => List.replicate 2 .f32
  | rmsNorm => List.replicate 3 .f32
  | layerNorm withStats => List.replicate (if withStats then 6 else 4) .f32
  | matMul _ _ hasBias => List.replicate (if hasBias then 4 else 3) .f32
  | rope | attention => List.replicate 4 .f32

end Program

namespace Launch

/-- The operator's variant, the element types of the inputs, and those of the outputs up to
repetition. -/
def signature (launch : Launch) : Operator × List ElementType × List ElementType :=
  (launch.param.variant, launch.inputs.map (·.desc.dtype),
    (launch.outputs.map (·.desc.dtype)).eraseDups)

/-- The parts of a whole have one element type, as inference asks of them. -/
def UniformParts (launch : Launch) : Prop :=
  match launch.param.variant with
  | .split _ _ => ∀ a ∈ launch.outputs, ∀ b ∈ launch.outputs, a.desc.dtype = b.desc.dtype
  | .concat _ => ∀ a ∈ launch.inputs, ∀ b ∈ launch.inputs, a.desc.dtype = b.desc.dtype
  | _ => True

section

variable {launch : Launch}

theorem Floats.types (floats : launch.Floats) {bound : List Binding}
    (part : bound.Sublist launch.bindings) :
    bound.map (·.desc.dtype) = List.replicate bound.length .f32 := by
  rw [List.eq_replicate_iff]
  refine ⟨List.length_map _, fun dtype member => ?_⟩
  obtain ⟨b, listed, rfl⟩ := List.mem_map.mp member
  exact floats b (part.subset listed)

/-- The type of the first output. -/
def result? (launch : Launch) : Option ElementType :=
  launch.outputs.head?.map (·.desc.dtype)

theorem result?_of_output {part : Nat} {out : Binding}
    (writes : launch.outputs[part]? = some out) : ∃ result, launch.result? = some result := by
  cases outputs : launch.outputs with
  | nil => simp [outputs] at writes
  | cons first rest => exact ⟨first.desc.dtype, by simp [result?, outputs]⟩

theorem result?_of_first {out : Binding} (writes : launch.outputs[0]? = some out) :
    launch.result? = some out.desc.dtype := by
  rw [result?, List.head?_eq_getElem?, writes, Option.map_some]

theorem take_one {α : Type} {items : List α} {a : α} (first : items[0]? = some a) :
    items.take 1 = [a] := by
  rw [List.take_add_one, first, List.take_zero]
  rfl

theorem take_two {α : Type} {items : List α} {a b : α} (first : items[0]? = some a)
    (second : items[1]? = some b) : items.take 2 = [a, b] := by
  rw [List.take_add_one, second, take_one first]
  rfl

/-- The variant and the element types decide the tensors of a copy. -/
theorem Copies.types_eq {c : StridedCopy} {source target : Binding}
    (copies : launch.Copies c source target) (uniform : launch.UniformParts) :
    ∃ result, launch.result? = some result ∧
      [source, target].map (·.desc.dtype) =
        Program.copy.operandTypes (launch.inputs.map (·.desc.dtype)) result := by
  have whole {a b out : Binding} (reads : launch.inputs[0]? = some a)
      (writes : launch.outputs[0]? = some out) (same : b.desc.dtype = a.desc.dtype) :
      ∃ result, launch.result? = some result ∧ [b, out].map (·.desc.dtype) =
        Program.copy.operandTypes (launch.inputs.map (·.desc.dtype)) result := by
    refine ⟨_, result?_of_first writes, ?_⟩
    rw [Program.operandTypes, ← List.map_take, take_one reads, List.map_singleton, ← same]
    rfl
  cases copies with
  | reading _ reads writes | permuting _ reads writes | first _ reads _ writes =>
    exact whole reads writes rfl
  | second param readsA readsB writes =>
    simp only [UniformParts, param, Operator.variant] at uniform
    exact whole readsA writes
      (uniform _ (List.mem_of_getElem? readsB) _ (List.mem_of_getElem? readsA))
  | cutting param reads writes =>
    simp only [UniformParts, param, Operator.variant] at uniform
    obtain ⟨result, found⟩ := result?_of_output writes
    refine ⟨result, found, ?_⟩
    obtain ⟨first, atFirst, rfl⟩ := Option.map_eq_some_iff.mp found
    rw [Program.operandTypes, ← List.map_take, take_one reads, List.map_singleton,
      uniform first (List.mem_of_mem_head? atFirst) _ (List.mem_of_getElem? writes)]
    rfl

/-- The variant and the element types decide the program and the types of its tensors. -/
theorem Runs.program_eq {program : Program} {bound : List Binding} {info : List UInt32}
    (runs : launch.Runs program bound info) (uniform : launch.UniformParts) :
    ∃ result, launch.result? = some result ∧ launch.param.program? result = some program ∧
      bound.map (·.desc.dtype) =
        program.operandTypes (launch.inputs.map (·.desc.dtype)) result := by
  have part := runs.sublist
  cases runs with
  | scale param floats reads writes | gate param floats reads writes
  | softmax param floats reads writes | rmsNorm param floats _ _ writes
  | attention param floats _ _ _ writes =>
    exact ⟨_, result?_of_first writes, by rw [param]; rfl, floats.types part⟩
  | map param floats single reads writes =>
    exact ⟨_, result?_of_first writes, by rw [param, Operator.program?, if_neg single],
      floats.types part⟩
  | cast param reads writes result =>
    refine ⟨_, result?_of_first writes, ?_, ?_⟩
    · rw [param, Operator.program?, result]
      rfl
    · rw [Program.operandTypes, ← List.map_take, take_one reads]
      rfl
  | @broadcast kind op x y out target param binary readsX readsY writes joins small =>
    refine ⟨_, result?_of_first writes, ?_, ?_⟩
    · rw [param]
      cases kind <;> first | exact congrArg (Option.map Program.broadcast) binary | cases binary
    · rw [Program.operandTypes, ← List.map_take, take_two readsX readsY]
      rfl
  | layerNorm param floats _ _ _ writes =>
    obtain ⟨first, atFirst, rest⟩ := LayerNorm.outputs_ok writes
    refine ⟨_, result?_of_first atFirst, by rw [param]; rfl, ?_⟩
    rw [floats.types part, Program.operandTypes]
    split at rest <;> rename_i stats
    · obtain ⟨mean, rstd, -, -, rfl⟩ := rest
      rw [if_pos stats]
      rfl
    · rw [rest, if_neg stats]
      rfl
  | matMul param floats _ _ readsBias writes =>
    refine ⟨_, result?_of_first writes, by rw [param]; rfl, ?_⟩
    rw [floats.types part, Program.operandTypes]
    split at readsBias <;> rename_i biased
    · obtain ⟨c, -, rfl⟩ := readsBias
      rw [if_pos biased]
      rfl
    · rw [readsBias, if_neg biased]
      rfl
  | copy copies small =>
    obtain ⟨result, found, types⟩ := copies.types_eq uniform
    refine ⟨result, found, ?_, types⟩
    cases copies with
    | reading param | permuting param | cutting param | first param | second param =>
      rw [param]
      rfl
  | gather param readsTable readsIndices writes result =>
    refine ⟨_, result?_of_first writes, ?_, ?_⟩
    · rw [param, Operator.program?, result]
      rfl
    · rw [Program.operandTypes, ← List.map_take, take_two readsTable readsIndices]
      rfl
  | rope param floats which readsX readsCos readsSin writes =>
    obtain ⟨result, found⟩ := result?_of_output writes
    exact ⟨result, found, by rw [param]; rfl, floats.types part⟩

/-- The kernel of a dispatch is that of its variant and types. -/
theorem Assembles.kernel_eq {d : Dispatch} (assembles : launch.Assembles d)
    (uniform : launch.UniformParts) : ∃ result program types, launch.result? = some result ∧
      launch.param.program? result = some program ∧
        (program.operandTypes (launch.inputs.map (·.desc.dtype)) result).mapM bindableType =
          .ok types ∧ d.kernel = program.kernel types := by
  cases assembles with
  | @runs program bound info types runs typed =>
    obtain ⟨result, found, decided, operands⟩ := runs.program_eq uniform
    refine ⟨result, program, types, found, decided, ?_, rfl⟩
    rw [← operands, List.mapM_map]
    exact typed

end

theorem head?_eraseDups {α : Type} [BEq α] (items : List α) :
    items.eraseDups.head? = items.head? := by
  cases items with
  | nil => rfl
  | cons first rest => rw [List.eraseDups_cons]; rfl

/-- Types that all tensors of one list share are those of another list with the same types. -/
theorem uniform_of_types {bound other : List Binding}
    (same : ∀ dtype, dtype ∈ bound.map (·.desc.dtype) ↔ dtype ∈ other.map (·.desc.dtype))
    (uniform : ∀ a ∈ bound, ∀ b ∈ bound, a.desc.dtype = b.desc.dtype) :
    ∀ a ∈ other, ∀ b ∈ other, a.desc.dtype = b.desc.dtype := by
  intro a memberA b memberB
  obtain ⟨a', listedA, typeA⟩ := List.mem_map.mp ((same _).mpr (List.mem_map_of_mem memberA))
  obtain ⟨b', listedB, typeB⟩ := List.mem_map.mp ((same _).mpr (List.mem_map_of_mem memberB))
  rw [← typeA, ← typeB]
  exact uniform a' listedA b' listedB

theorem UniformParts.of_signature {first second : Launch} (uniform : first.UniformParts)
    (same : first.signature = second.signature) : second.UniformParts := by
  simp only [signature, Prod.mk.injEq] at same
  obtain ⟨variant, inputs, outputs⟩ := same
  unfold UniformParts at uniform ⊢
  rw [← variant]
  split at uniform
  · refine uniform_of_types (fun dtype => ?_) uniform
    rw [← List.mem_eraseDups, outputs, List.mem_eraseDups]
  · refine uniform_of_types (fun dtype => ?_) uniform
    rw [inputs]
  · trivial

/-- Dispatches of launches with one signature have one kernel. -/
theorem Assembles.same_kernel {first second : Launch} (same : first.signature = second.signature)
    (uniform : first.UniformParts) {d e : Dispatch} (assembles : first.Assembles d)
    (assembles' : second.Assembles e) : d.kernel = e.kernel := by
  have uniform' := uniform.of_signature same
  simp only [signature, Prod.mk.injEq] at same
  obtain ⟨variant, inputs, outputs⟩ := same
  obtain ⟨result, program, types, found, decided, bound, kernel⟩ := assembles.kernel_eq uniform
  obtain ⟨result', program', types', found', decided', bound', kernel'⟩ :=
    assembles'.kernel_eq uniform'
  -- Repetitions left out or not, the first output is the same.
  obtain rfl : result = result' := by
    have heads := congrArg List.head? outputs
    rw [head?_eraseDups, head?_eraseDups, List.head?_map, List.head?_map] at heads
    exact Option.some.inj (found.symm.trans (heads.trans found'))
  obtain rfl : program = program' := by
    rw [← Operator.program?_variant, variant, Operator.program?_variant, decided'] at decided
    exact (Option.some.inj decided).symm
  rw [inputs, bound'] at bound
  rw [kernel, kernel', Except.ok.inj bound]

/-- There is one kernel for all launches of a signature. -/
theorem exists_kernel {first second : Launch} (same : first.signature = second.signature)
    (uniform : first.UniformParts) {ds es : List Dispatch} (planned : first.plan = .ok ds)
    (planned' : second.plan = .ok es) : ∃ kernel, ∀ d ∈ ds ++ es, d.kernel = kernel := by
  have here := (plan_assembles planned).1
  have there := (plan_assembles planned').1
  cases ds with
  | cons first' rest =>
    refine ⟨first'.kernel, fun d member => ?_⟩
    have head := here first' (by simp)
    rcases List.mem_append.mp member with listed | listed
    · exact (here d listed).same_kernel rfl uniform head
    · exact (head.same_kernel same uniform (there d listed)).symm
  | nil =>
    cases es with
    | nil => exact ⟨.empty, by simp⟩
    | cons second' rest =>
      refine ⟨second'.kernel, fun d member => ?_⟩
      exact (there d member).same_kernel rfl (uniform.of_signature same) (there second' (by simp))

end Launch

namespace Device

/-- One source at most has been added to the compiled ones. -/
def Gains (source : String) (d e : Device) : Prop :=
  e.pipelines = d.pipelines ∨ e.pipelines = d.pipelines ++ [source]

theorem record_gains {source : String} {d e : Device} {node : String} {dispatch : Dispatch}
    (same : dispatch.kernel.source = source) (gained : d.Gains source e) :
    d.Gains source (record node e dispatch).state := by
  have compiled : d.Gains source (e.compile dispatch.kernel).state := by
    unfold compile
    rw [same]
    dsimp only
    split
    · exact gained
    rename_i fresh
    split
    · rcases gained with none | one
      · exact .inr (congrArg (· ++ [source]) none)
      · exact absurd (by simp [one]) fresh
    · exact gained
  unfold record
  split
  · exact gained
  split
  · exact gained
  split
  · exact gained
  · dsimp only
    cases done : (e.compile dispatch.kernel).result with
    | error _ => rwa [Outcome.andThen_of_error _ done]
    | ok _ => rwa [Outcome.andThen_of_ok _ done]

theorem launch_gains {source : String} {d e : Device} {launch : Launch}
    (same : ∀ ds, launch.plan = .ok ds → ∀ dispatch ∈ ds, dispatch.kernel.source = source)
    (gained : d.Gains source e) : d.Gains source (registry.launch launch e).state := by
  simp only [registry]
  split
  · exact gained
  · rename_i dispatches planned
    apply Outcome.forEach_keeps (d.Gains source) _ _ _ gained
    intro state dispatch member gained
    exact record_gains (same dispatches planned dispatch member) gained

/-- Two launches of one variant on tensors of the same types run one kernel, whatever else differs
between them, provided that the parts of a whole have one type. Launching both adds one source at
most to the compiled ones. -/
theorem one_kernel_per_variant {first second : Launch} (same : first.signature = second.signature)
    (uniform : first.UniformParts) {ds es : List Dispatch} (planned : first.plan = .ok ds)
    (planned' : second.plan = .ok es) :
    (∃ kernel, ∀ dispatch ∈ ds ++ es, dispatch.kernel = kernel) ∧
      ∀ d : Device,
        (registry.launch second (registry.launch first d).state).state.pipelines.length ≤
          d.pipelines.length + 1 := by
  obtain ⟨kernel, all⟩ := Launch.exists_kernel same uniform planned planned'
  refine ⟨⟨kernel, all⟩, fun d => ?_⟩
  have sources {launch : Launch} {own : List Dispatch} (plan : launch.plan = .ok own)
      (among : own ⊆ ds ++ es) : ∀ other, launch.plan = .ok other →
        ∀ dispatch ∈ other, dispatch.kernel.source = kernel.source := by
    intro other again dispatch member
    obtain rfl := Except.ok.inj (plan.symm.trans again)
    rw [all dispatch (among member)]
  have once : d.Gains kernel.source (registry.launch first d).state :=
    launch_gains (sources planned (List.subset_append_left _ _)) (.inl rfl)
  have twice := launch_gains (sources planned' (List.subset_append_right _ _)) once
  rcases twice with none | one
  · rw [none]
    exact Nat.le_succ _
  · rw [one, List.length_append, List.length_singleton]

/-- Two layer normalizations: two rows with statistics along the last axis, and one long row. -/
def rowsAndRow : Launch × Launch :=
  let x (dims : List Int) (bytes : Nat) : Binding := ⟨.rowMajor .f32 ⟨dims⟩, 0x1000, bytes⟩
  (⟨"rows", .layerNorm ⟨⟨0x3727c5ac⟩, -1, -1, true⟩, [x [2, 4] 32, x [4] 16, x [4] 16],
      [x [2, 4] 32, x [2] 8, x [2] 8], none⟩,
    ⟨"row", .layerNorm ⟨⟨0x358637bd⟩, 0, 0, true⟩, [x [3, 4] 48, x [3, 4] 48, x [3, 4] 48],
      [x [3, 4] 48, x [] 4, x [] 4], none⟩)

theorem layer_norms_one_kernel : ∃ ds es, rowsAndRow.1.plan = .ok ds ∧ rowsAndRow.2.plan = .ok es ∧
    ds.map Dispatch.info ≠ es.map Dispatch.info ∧
      (∃ kernel, ∀ dispatch ∈ ds ++ es, dispatch.kernel = kernel) ∧
        ∀ d : Device, (registry.launch rowsAndRow.2
          (registry.launch rowsAndRow.1 d).state).state.pipelines.length ≤
            d.pipelines.length + 1 := by
  obtain ⟨ds, planned⟩ : ∃ ds, rowsAndRow.1.plan = .ok ds := ⟨_, rfl⟩
  obtain ⟨es, planned'⟩ : ∃ es, rowsAndRow.2.plan = .ok es := ⟨_, rfl⟩
  have uniform : rowsAndRow.1.UniformParts := trivial
  refine ⟨ds, es, planned, planned', ?_,
    one_kernel_per_variant (by decide +kernel) uniform planned planned'⟩
  have apart : (rowsAndRow.1.plan.map (List.map Dispatch.info)) ≠
      rowsAndRow.2.plan.map (List.map Dispatch.info) := by decide +kernel
  rw [planned, planned'] at apart
  exact fun same => apart (congrArg Except.ok same)

/-- A concatenation of floats and integers. -/
def mixedConcat : Launch where
  node := "concat"
  param := .concat 0
  inputs := [⟨.rowMajor .f32 ⟨[2]⟩, 0x1000, 8⟩, ⟨.rowMajor .i32 ⟨[2]⟩, 0x2000, 8⟩]
  outputs := [⟨.rowMajor .f32 ⟨[4]⟩, 0x3000, 16⟩]
  scratch := none

/-- A launch whose parts have different types has one kernel for each of them. -/
theorem variant_with_two_sources : ¬ ∀ (first second : Launch) (ds es : List Dispatch),
    first.signature = second.signature → first.plan = .ok ds → second.plan = .ok es →
      ∀ a ∈ ds ++ es, ∀ b ∈ ds ++ es, a.kernel.source = b.kernel.source := by
  intro one
  obtain ⟨a, b, planned, apart⟩ : ∃ a b, mixedConcat.plan = .ok [a, b] ∧
      a.kernel.source ≠ b.kernel.source := ⟨_, _, rfl, by decide +kernel⟩
  exact apart (one mixedConcat mixedConcat _ _ rfl planned planned a (by simp) b (by simp))

end Device

end OperatorGraph
