import OperatorGraph.Proofs.Dispatch.Measures
import OperatorGraph.Proofs.Dispatch.Spans

set_option autoImplicit false

namespace OperatorGraph

open Dispatch Shader

/-- The function of one element, as the first one of a kernel. -/
def Activation.function (kind : Activation) : Function :=
  ⟨0, "f32", kind.functionBody, [("x", "f32")]⟩

inductive Program where
  | scale
  | cast (type : String)
  | broadcast (op : BinaryOp)
  | map (kind : Activation)
  | gate
  | layerNorm (withStats : Bool)
  | rmsNorm
  | matMul (transposeA transposeB hasBias : Bool)
  | softmax
  | copy
  | gather (type : String)
  | rope
  | attention
  deriving DecidableEq, Repr

namespace Program

def functions : Program → List Function
  | map kind => [kind.function]
  | gate => [Activation.swiglu.function]
  | _ => []

def body : Program → List Stmt
  | scale => Elementwise.scaleBody
  | cast type => Elementwise.castBody type
  | broadcast op => Elementwise.broadcastBody op
  | map kind => Activation.mapBody kind.function
  | gate => Activation.gateBody Activation.swiglu.function
  | layerNorm withStats =>
    if withStats then LayerNorm.body ++ LayerNorm.statsBody else LayerNorm.body
  | rmsNorm => RmsNorm.body
  | matMul transposeA transposeB hasBias => MatMul.body ⟨transposeA, transposeB, hasBias, none⟩
  | softmax => Softmax.body
  | copy => StridedCopy.body
  | gather type => Gather.body type
  | rope => Rope.body
  | attention => SelfAttention.body

/-- The types of the arrays behind the tensors. -/
def scratch : Program → List String
  | attention => ["f32"]
  | _ => []

/-- The program as a kernel over tensors of the given types. -/
def kernel (program : Program) (types : List String) : Kernel :=
  ⟨types ++ program.scratch, program.functions, .program program.body⟩

end Program

/-- The operator of an element-wise kind on two tensors. -/
def Elementwise.op? : Elementwise → Option BinaryOp
  | add => some .add
  | sub => some .sub
  | mul => some .mul
  | realDiv => some .div
  | scale _ | cast _ => none

/-- Integers that fit launch parameters. -/
def Small (values : List Int) : Prop :=
  ∀ value ∈ values, 0 ≤ value ∧ value < 0x1_0000_0000

/-- Integers as launch parameters. -/
def asWords (values : List Int) : List UInt32 :=
  values.map fun value => value.toNat.toUInt32

@[simp] theorem length_asWords (values : List Int) : (asWords values).length = values.length :=
  List.length_map _

/-- Every tensor of the launch holds single precision floats. -/
def Launch.Floats (launch : Launch) : Prop :=
  ∀ b ∈ launch.bindings, b.desc.dtype = .f32

section

variable (launch : Launch)

/-- The copies that a launch is made of, each from one tensor to another. -/
inductive Launch.Copies : StridedCopy → Binding → Binding → Prop where
  | reading {p : Strided} {x out : Binding} (param : launch.param = .asStrided p)
      (reads : launch.inputs[0]? = some x) (writes : launch.outputs[0]? = some out) :
      Copies p.copy x out
  | permuting {perm : List Nat} {c : StridedCopy} {x out : Binding}
      (param : launch.param = .transpose perm) (reads : launch.inputs[0]? = some x)
      (writes : launch.outputs[0]? = some out)
      (form : Transposition.copy perm x.desc.shape = .ok c) : Copies c x out
  | cutting {axis : Int} {count position part : Nat} {chunk : Int} {c : StridedCopy}
      {x out : Binding} (param : launch.param = .split axis count)
      (reads : launch.inputs[0]? = some x) (writes : launch.outputs[part]? = some out)
      (form : Split.copy x.desc.shape position chunk part = .ok c) : Copies c x out
  | first {axis : Int} {position : Nat} {a b out : Binding} {whole : Shape}
      (param : launch.param = .concat axis) (readsA : launch.inputs[0]? = some a)
      (readsB : launch.inputs[1]? = some b) (writes : launch.outputs[0]? = some out)
      (joins : Concat.joined position a.desc.shape b.desc.shape = .ok whole) :
      Copies (Concat.copy a.desc.shape whole 0) a out
  | second {axis offset : Int} {position : Nat} {a b out : Binding} {whole : Shape}
      (param : launch.param = .concat axis) (readsA : launch.inputs[0]? = some a)
      (readsB : launch.inputs[1]? = some b) (writes : launch.outputs[0]? = some out)
      (joins : Concat.joined position a.desc.shape b.desc.shape = .ok whole) :
      Copies (Concat.copy b.desc.shape whole offset) b out

/-- The programs that a launch may run, the tensors that each works on, and its parameters. -/
inductive Launch.Runs : Program → List Binding → List UInt32 → Prop where
  | scale {factor : Scalar} {x out : Binding} {threads : Int}
      (param : launch.param = .elementwise (.scale factor)) (floats : launch.Floats)
      (reads : launch.inputs[0]? = some x) (writes : launch.outputs[0]? = some out) :
      Runs .scale [x, out] (asWords [threads] ++ [factor.bits])
  | cast {target : ElementType} {type : String} {x out : Binding} {threads : Int}
      (param : launch.param = .elementwise (.cast target))
      (reads : launch.inputs[0]? = some x) (writes : launch.outputs[0]? = some out)
      (result : bindableType out.desc.dtype = .ok type) :
      Runs (.cast type) [x, out] (asWords [threads])
  | broadcast {kind : Elementwise} {op : BinaryOp} {x y out : Binding} {target : Shape}
      (param : launch.param = .elementwise kind) (binary : kind.op? = some op)
      (readsX : launch.inputs[0]? = some x) (readsY : launch.inputs[1]? = some y)
      (writes : launch.outputs[0]? = some out)
      (joins : x.desc.shape.broadcast? y.desc.shape = some target)
      (small : Small (Elementwise.broadcastInfo x.desc.shape y.desc.shape target)) :
      Runs (.broadcast op) [x, y, out]
        (asWords (Elementwise.broadcastInfo x.desc.shape y.desc.shape target))
  | map {kind : Activation} {x out : Binding} {threads : Int}
      (param : launch.param = .activation kind) (floats : launch.Floats)
      (single : kind ≠ .swiglu) (reads : launch.inputs[0]? = some x)
      (writes : launch.outputs[0]? = some out) :
      Runs (.map kind) [x, out] (asWords [threads])
  | gate {x out : Binding} {threads half : Int} (param : launch.param = .activation .swiglu)
      (floats : launch.Floats) (reads : launch.inputs[0]? = some x)
      (writes : launch.outputs[0]? = some out) :
      Runs .gate [x, out] (asWords [threads, half])
  | layerNorm {p : LayerNorm} {x gain bias : Binding} {outs : List Binding} {rows cols : Int}
      (param : launch.param = .layerNorm p) (floats : launch.Floats)
      (readsX : launch.inputs[0]? = some x)
      (readsGain : launch.inputs[1]? = some gain) (readsBias : launch.inputs[2]? = some bias)
      (writes : p.outputs launch = .ok outs) :
      Runs (.layerNorm p.withStats) ([x, gain, bias] ++ outs)
        (asWords [rows, cols] ++ [p.epsilon.bits])
  | rmsNorm {epsilon : Scalar} {x gain out : Binding} {rows cols : Int}
      (param : launch.param = .rmsNorm epsilon) (floats : launch.Floats)
      (readsX : launch.inputs[0]? = some x)
      (readsGain : launch.inputs[1]? = some gain) (writes : launch.outputs[0]? = some out) :
      Runs .rmsNorm [x, gain, out] (asWords [rows, cols] ++ [epsilon.bits])
  | matMul {p : MatMul} {a b out : Binding} {bias : List Binding} {threads m n k : Int}
      (param : launch.param = .matMul p) (floats : launch.Floats)
      (readsA : launch.inputs[0]? = some a)
      (readsB : launch.inputs[1]? = some b)
      (readsBias : if p.hasBias then ∃ c, launch.inputs[2]? = some c ∧ bias = [c] else bias = [])
      (writes : launch.outputs[0]? = some out) :
      Runs (.matMul p.transposeA p.transposeB p.hasBias) ([a, b] ++ bias ++ [out])
        (asWords [threads, m, n, k])
  | softmax {axis rows cols : Int} {x out : Binding} (param : launch.param = .softmax axis)
      (floats : launch.Floats) (reads : launch.inputs[0]? = some x)
      (writes : launch.outputs[0]? = some out) :
      Runs .softmax [x, out] (asWords [rows, cols])
  | copy {c : StridedCopy} {source target : Binding} {threads : Int}
      (copies : launch.Copies c source target) (small : Small (threads :: c.parameters)) :
      Runs .copy [source, target] (asWords (threads :: c.parameters))
  | gather {axis threads size inner picks : Int} {type : String} {table indices out : Binding}
      (param : launch.param = .gather axis) (readsTable : launch.inputs[0]? = some table)
      (readsIndices : launch.inputs[1]? = some indices) (writes : launch.outputs[0]? = some out)
      (result : bindableType out.desc.dtype = .ok type) :
      Runs (.gather type) [table, indices, out] (asWords [threads, size, inner, picks])
  | rope {rotaryCoeff threads heads headDim chunk : Int} {part : Nat} {x cos sin out : Binding}
      (param : launch.param = .rope rotaryCoeff) (floats : launch.Floats) (which : part < 2)
      (readsX : launch.inputs[part]? = some x) (readsCos : launch.inputs[2]? = some cos)
      (readsSin : launch.inputs[3]? = some sin) (writes : launch.outputs[part]? = some out) :
      Runs .rope [x, cos, sin, out] (asWords [threads, heads, headDim, chunk])
  | attention {p : SelfAttention} {q k v out : Binding} {threads headDim : Int}
      (param : launch.param = .selfAttention p) (floats : launch.Floats)
      (readsQ : launch.inputs[0]? = some q)
      (readsK : launch.inputs[1]? = some k) (readsV : launch.inputs[2]? = some v)
      (writes : launch.outputs[0]? = some out) (given : launch.scratch.isSome)
      (small : Small [threads, p.headNum, p.kvHeadNum, headDim, p.batch, p.maxKvLen]) :
      Runs .attention [q, k, v, out]
        (asWords [threads, p.headNum, p.kvHeadNum, headDim, p.batch, p.maxKvLen] ++
          [p.qkScale.bits] ++ asWords (p.tokenOffset ++ p.seqLen))

/-- The ranges behind those of the tensors. -/
def Launch.scratchFor : Program → List Span
  | .attention => launch.scratch.toList
  | _ => []

/-- A dispatch that runs a program of the launch. -/
inductive Launch.Assembles : Dispatch → Prop where
  | runs {program : Program} {bound : List Binding} {info : List UInt32} {types : List String}
      (runs : launch.Runs program bound info)
      (typed : bound.mapM (fun b => bindableType b.desc.dtype) = .ok types) :
      Assembles ⟨program.kernel types, info, bound.map Binding.span ++ launch.scratchFor program⟩

end

theorem Shader.Kernel.binding_eq_ok {dtypes : List ElementType} {kernel : Kernel} :
    Kernel.binding dtypes = .ok kernel ↔
      ∃ types, dtypes.mapM bindableType = .ok types ∧ kernel = ⟨types, [], .text ""⟩ := by
  have behind (before : Kernel) : dtypes.foldlM Kernel.bind before = .ok kernel ↔
      ∃ types, dtypes.mapM bindableType = .ok types ∧
        kernel = { before with tensors := before.tensors ++ types } := by
    induction dtypes generalizing before with
    | nil => simp [pure, Except.pure, eq_comm]
    | cons dtype rest ih =>
      simp only [List.foldlM_cons, Kernel.bind, bind_assoc, pure_bind, Answer.bind_eq_ok, ih,
        List.mapM_cons, Answer.pure_eq_ok]
      constructor
      · rintro ⟨type, first, types, others, rfl⟩
        exact ⟨type :: types, ⟨type, first, types, others, rfl⟩, by simp⟩
      · rintro ⟨_, ⟨type, first, types, others, rfl⟩, rfl⟩
        exact ⟨type, first, types, others, by simp⟩
  simpa [Kernel.binding, Kernel.empty] using behind .empty

namespace Dispatch

theorem floatKernel_eq_ok {tensors : Nat} {kernel : Kernel} :
    floatKernel tensors = .ok kernel ↔
      kernel = ⟨List.replicate tensors "f32", [], .text ""⟩ := by
  have each : ∀ dtype ∈ List.replicate tensors ElementType.f32, bindableType dtype = .ok "f32" := by
    simp [bindableType, ElementType.shaderType?]
  have floats : (List.replicate tensors ElementType.f32).mapM bindableType =
      .ok (List.replicate tensors "f32") := by
    rw [Answer.mapM_eq_ok_map each, List.map_replicate]
  rw [floatKernel, Kernel.binding_eq_ok, floats]
  simp

theorem types_of_floats {bound : List Binding} (floats : ∀ b ∈ bound, b.desc.dtype = .f32) :
    bound.mapM (fun b => bindableType b.desc.dtype) = .ok (List.replicate bound.length "f32") := by
  have each : ∀ b ∈ bound, bindableType b.desc.dtype = .ok "f32" := by
    intro b member
    rw [floats b member]
    rfl
  rw [Answer.mapM_eq_ok_map each, List.map_const']

end Dispatch

section

variable {launch : Launch} {ds : List Dispatch}

theorem cons_sublist_of_getElem? {α : Type} {items rest : List α} {a : α} {i : Nat}
    (here : items[i]? = some a) (later : rest.Sublist (items.drop (i + 1))) :
    (a :: rest).Sublist items := by
  obtain ⟨inside, rfl⟩ := List.getElem?_eq_some_iff.mp here
  have behind : (items[i] :: rest).Sublist (items.drop i) := by
    rw [List.drop_eq_getElem_cons inside]
    exact later.cons_cons _
  exact behind.trans (List.drop_sublist i items)

theorem singleton_sublist_of_getElem? {α : Type} {items : List α} {a : α} {i : Nat}
    (here : items[i]? = some a) : [a].Sublist items :=
  cons_sublist_of_getElem? here (List.nil_sublist _)

theorem Launch.Copies.sublist {c : StridedCopy} {source target : Binding}
    (copies : launch.Copies c source target) : [source, target].Sublist launch.bindings := by
  cases copies with
  | reading _ reads writes | permuting _ reads writes | cutting _ reads writes
  | first _ reads _ writes | second _ _ reads writes =>
    exact (singleton_sublist_of_getElem? reads).append (singleton_sublist_of_getElem? writes)

/-- A normalization writes one tensor, or three with statistics. -/
theorem LayerNorm.outputs_ok {p : LayerNorm} {outs : List Binding}
    (writes : p.outputs launch = .ok outs) : ∃ out, launch.outputs[0]? = some out ∧
      if p.withStats then ∃ mean rstd, launch.outputs[1]? = some mean ∧
        launch.outputs[2]? = some rstd ∧ outs = [out, mean, rstd]
      else outs = [out] := by
  obtain ⟨out, atOut, writes⟩ := Answer.bind_eq_ok.mp writes
  refine ⟨out, item_eq_ok.mp atOut, ?_⟩
  split at writes <;> rename_i stats
  · obtain ⟨mean, atMean, writes⟩ := Answer.bind_eq_ok.mp writes
    obtain ⟨rstd, atRstd, writes⟩ := Answer.bind_eq_ok.mp writes
    rw [if_pos stats]
    exact ⟨mean, rstd, item_eq_ok.mp atMean, item_eq_ok.mp atRstd, (Except.ok.inj writes).symm⟩
  · rw [if_neg stats]
    exact (Except.ok.inj writes).symm

theorem LayerNorm.outputs_sublist {p : LayerNorm} {outs : List Binding}
    (writes : p.outputs launch = .ok outs) : outs.Sublist launch.outputs := by
  obtain ⟨out, atOut, rest⟩ := outputs_ok writes
  split at rest
  · obtain ⟨mean, rstd, atMean, atRstd, rfl⟩ := rest
    apply cons_sublist_of_getElem? atOut
    apply cons_sublist_of_getElem? (i := 0) (by simpa using atMean)
    exact singleton_sublist_of_getElem? (i := 0) (by simpa using atRstd)
  · rw [rest]
    exact singleton_sublist_of_getElem? atOut

/-- A program works on tensors of its launch, in their order. -/
theorem Launch.Runs.sublist {program : Program} {bound : List Binding} {info : List UInt32}
    (runs : launch.Runs program bound info) : bound.Sublist launch.bindings := by
  have two {a b : Binding} (atA : launch.inputs[0]? = some a) (atB : launch.inputs[1]? = some b) :
      [a, b].Sublist launch.inputs :=
    cons_sublist_of_getElem? atA (singleton_sublist_of_getElem? (i := 0) (by simpa using atB))
  have three {a b c : Binding} (atA : launch.inputs[0]? = some a)
      (atB : launch.inputs[1]? = some b) (atC : launch.inputs[2]? = some c) :
      [a, b, c].Sublist launch.inputs := by
    apply cons_sublist_of_getElem? atA
    apply cons_sublist_of_getElem? (i := 0) (by simpa using atB)
    exact singleton_sublist_of_getElem? (i := 0) (by simpa using atC)
  cases runs with
  | scale _ _ reads writes | cast _ reads writes | map _ _ _ reads writes | gate _ _ reads writes
  | softmax _ _ reads writes =>
    exact (singleton_sublist_of_getElem? reads).append (singleton_sublist_of_getElem? writes)
  | broadcast _ _ readsX readsY writes | rmsNorm _ _ readsX readsY writes
  | gather _ readsX readsY writes =>
    exact (two readsX readsY).append (singleton_sublist_of_getElem? writes)
  | layerNorm _ _ readsX readsGain readsBias writes =>
    exact (three readsX readsGain readsBias).append (LayerNorm.outputs_sublist writes)
  | matMul _ _ readsA readsB readsBias writes =>
    refine List.Sublist.append ?_ (singleton_sublist_of_getElem? writes)
    split at readsBias
    · obtain ⟨c, readsC, rfl⟩ := readsBias
      exact three readsA readsB readsC
    · rw [readsBias]
      exact two readsA readsB
  | copy copies _ => exact copies.sublist
  | @rope _ _ _ _ _ part x cos sin out _ _ which readsX readsCos readsSin writes =>
    have rotated : [x, cos, sin].Sublist launch.inputs := by
      apply cons_sublist_of_getElem? readsX
      apply cons_sublist_of_getElem? (i := 1 - part)
      · rw [List.getElem?_drop, show part + 1 + (1 - part) = 2 by omega]
        exact readsCos
      · rw [List.drop_drop, show part + 1 + (1 - part + 1) = 3 by omega]
        exact singleton_sublist_of_getElem? (i := 0) (by simpa using readsSin)
    exact rotated.append (singleton_sublist_of_getElem? writes)
  | attention _ _ readsQ readsK readsV writes =>
    exact (three readsQ readsK readsV).append (singleton_sublist_of_getElem? writes)

/-- A program without scratch is bound to its tensors alone. -/
theorem Launch.Runs.assembles {program : Program} {bound : List Binding} {info : List UInt32}
    {types : List String} (runs : launch.Runs program bound info)
    (typed : bound.mapM (fun b => bindableType b.desc.dtype) = .ok types)
    (alone : program ≠ .attention) :
    launch.Assembles
      (onBindings ⟨types, program.functions, .program program.body⟩ info bound) := by
  have none : program.scratch = [] ∧ launch.scratchFor program = [] := by
    cases program <;> first | exact ⟨rfl, rfl⟩ | contradiction
  have whole := Launch.Assembles.runs runs typed
  rwa [Program.kernel, none.1, none.2, List.append_nil, List.append_nil] at whole

theorem Elementwise.plan_assembles {kind : Elementwise} (param : launch.param = .elementwise kind)
    (planned : kind.plan launch = .ok ds) : ∃ d, ds = [d] ∧ launch.Assembles d := by
  obtain ⟨x, reads, planned⟩ := Answer.bind_eq_ok.mp planned
  obtain ⟨out, writes, planned⟩ := Answer.bind_eq_ok.mp planned
  rw [item_eq_ok] at reads writes
  have broadcast {op : BinaryOp} (binary : kind.op? = some op)
      (planned : (do planBroadcast op x (← item launch.inputs 1) out) = .ok ds) :
      ∃ d, ds = [d] ∧ launch.Assembles d := by
    obtain ⟨y, readsY, planned⟩ := Answer.bind_eq_ok.mp planned
    unfold planBroadcast at planned
    dsimp only at planned
    split at planned
    · simp [reject] at planned
    · rename_i target joins
      obtain ⟨info, fits, planned⟩ := Answer.bind_eq_ok.mp planned
      obtain ⟨small, rfl⟩ := words_eq_ok.mp fits
      obtain ⟨kernel, bound, planned⟩ := Answer.bind_eq_ok.mp planned
      obtain ⟨types, typed, rfl⟩ := Kernel.binding_eq_ok.mp bound
      refine ⟨_, (Except.ok.inj planned).symm, ?_⟩
      have runs :=
        Launch.Runs.broadcast param binary reads (item_eq_ok.mp readsY) writes joins small
      exact runs.assembles (by simpa using typed) (by simp)
  cases kind with
  | add | sub | mul | realDiv => exact broadcast rfl planned
  | scale factor =>
    obtain ⟨_, checked, planned⟩ := Answer.bind_eq_ok.mp planned
    have floats : launch.Floats := expectF32_eq_ok.mp checked
    obtain ⟨kernel, bound, planned⟩ := Answer.bind_eq_ok.mp planned
    obtain ⟨types, typed, rfl⟩ := Kernel.binding_eq_ok.mp bound
    obtain ⟨info, fits, planned⟩ := Answer.bind_eq_ok.mp planned
    obtain ⟨-, rfl⟩ := words_eq_ok.mp fits
    refine ⟨_, (Except.ok.inj planned).symm, ?_⟩
    exact (Launch.Runs.scale param floats reads writes).assembles (by simpa using typed) (by simp)
  | cast target =>
    obtain ⟨kernel, bound, planned⟩ := Answer.bind_eq_ok.mp planned
    obtain ⟨types, typed, rfl⟩ := Kernel.binding_eq_ok.mp bound
    obtain ⟨type, result, planned⟩ := Answer.bind_eq_ok.mp planned
    obtain ⟨info, fits, planned⟩ := Answer.bind_eq_ok.mp planned
    obtain ⟨-, rfl⟩ := words_eq_ok.mp fits
    refine ⟨_, (Except.ok.inj planned).symm, ?_⟩
    exact (Launch.Runs.cast param reads writes result).assembles (by simpa using typed) (by simp)

theorem Activation.plan_assembles {kind : Activation} (param : launch.param = .activation kind)
    (planned : kind.plan launch = .ok ds) : ∃ d, ds = [d] ∧ launch.Assembles d := by
  obtain ⟨_, checked, planned⟩ := Answer.bind_eq_ok.mp planned
  have floats : launch.Floats := expectF32_eq_ok.mp checked
  obtain ⟨x, reads, planned⟩ := Answer.bind_eq_ok.mp planned
  obtain ⟨out, writes, planned⟩ := Answer.bind_eq_ok.mp planned
  rw [item_eq_ok] at reads writes
  obtain ⟨kernel, bound, planned⟩ := Answer.bind_eq_ok.mp planned
  obtain ⟨types, typed, rfl⟩ := Kernel.binding_eq_ok.mp bound
  have typed : [x, out].mapM (fun b => bindableType b.desc.dtype) = .ok types := by
    simpa using typed
  dsimp only at planned
  split at planned
  all_goals
    rename_i which
    obtain ⟨info, fits, planned⟩ := Answer.bind_eq_ok.mp planned
    obtain ⟨-, rfl⟩ := words_eq_ok.mp fits
    refine ⟨_, (Except.ok.inj planned).symm, ?_⟩
  · subst which
    exact (Launch.Runs.gate param floats reads writes).assembles typed (by simp)
  · exact (Launch.Runs.map param floats which reads writes).assembles typed (by simp)

/-- A program over floats that has no scratch. -/
theorem Launch.Runs.assembles_floats {program : Program} {bound : List Binding}
    {info : List UInt32} (runs : launch.Runs program bound info)
    (floats : launch.Floats) (alone : program ≠ .attention) :
    launch.Assembles (onBindings
      ⟨List.replicate bound.length "f32", program.functions, .program program.body⟩ info bound) :=
  runs.assembles (types_of_floats fun b member => floats b (runs.sublist.subset member)) alone

theorem LayerNorm.plan_assembles {p : LayerNorm} (param : launch.param = .layerNorm p)
    (planned : p.plan launch = .ok ds) : ∃ d, ds = [d] ∧ launch.Assembles d := by
  obtain ⟨_, checked, planned⟩ := Answer.bind_eq_ok.mp planned
  have floats : launch.Floats := expectF32_eq_ok.mp checked
  obtain ⟨x, readsX, planned⟩ := Answer.bind_eq_ok.mp planned
  obtain ⟨gain, readsGain, planned⟩ := Answer.bind_eq_ok.mp planned
  obtain ⟨bias, readsBias, planned⟩ := Answer.bind_eq_ok.mp planned
  rw [item_eq_ok] at readsX readsGain readsBias
  dsimp only at planned
  split at planned
  · split at planned
    · simp [missing] at planned
    · obtain ⟨rows, -, planned⟩ := Answer.bind_eq_ok.mp planned
      obtain ⟨cols, -, planned⟩ := Answer.bind_eq_ok.mp planned
      obtain ⟨info, fits, planned⟩ := Answer.bind_eq_ok.mp planned
      obtain ⟨-, rfl⟩ := words_eq_ok.mp fits
      obtain ⟨outs, writes, planned⟩ := Answer.bind_eq_ok.mp planned
      obtain ⟨kernel, bound, planned⟩ := Answer.bind_eq_ok.mp planned
      obtain rfl := floatKernel_eq_ok.mp bound
      refine ⟨_, (Except.ok.inj planned).symm, ?_⟩
      have runs : launch.Runs (.layerNorm p.withStats) ([x, gain, bias] ++ outs)
          (asWords [rows, cols] ++ [p.epsilon.bits]) :=
        .layerNorm param floats readsX readsGain readsBias writes
      have assembled := runs.assembles_floats floats (by simp)
      rwa [List.length_append] at assembled
  · simp [reject] at planned

theorem RmsNorm.plan_assembles {epsilon : Scalar} (param : launch.param = .rmsNorm epsilon)
    (planned : plan epsilon launch = .ok ds) : ∃ d, ds = [d] ∧ launch.Assembles d := by
  obtain ⟨_, checked, planned⟩ := Answer.bind_eq_ok.mp planned
  have floats : launch.Floats := expectF32_eq_ok.mp checked
  obtain ⟨x, readsX, planned⟩ := Answer.bind_eq_ok.mp planned
  obtain ⟨gain, readsGain, planned⟩ := Answer.bind_eq_ok.mp planned
  obtain ⟨out, writes, planned⟩ := Answer.bind_eq_ok.mp planned
  rw [item_eq_ok] at readsX readsGain writes
  obtain ⟨info, fits, planned⟩ := Answer.bind_eq_ok.mp planned
  obtain ⟨-, rfl⟩ := words_eq_ok.mp fits
  obtain ⟨kernel, bound, planned⟩ := Answer.bind_eq_ok.mp planned
  obtain rfl := floatKernel_eq_ok.mp bound
  refine ⟨_, (Except.ok.inj planned).symm, ?_⟩
  exact (Launch.Runs.rmsNorm param floats readsX readsGain writes).assembles_floats
    floats (by simp)

theorem Softmax.plan_assembles {axis : Int} (param : launch.param = .softmax axis)
    (planned : plan axis launch = .ok ds) : ∃ d, ds = [d] ∧ launch.Assembles d := by
  obtain ⟨_, checked, planned⟩ := Answer.bind_eq_ok.mp planned
  have floats : launch.Floats := expectF32_eq_ok.mp checked
  obtain ⟨x, reads, planned⟩ := Answer.bind_eq_ok.mp planned
  obtain ⟨out, writes, planned⟩ := Answer.bind_eq_ok.mp planned
  rw [item_eq_ok] at reads writes
  dsimp only at planned
  split at planned
  · simp [missing] at planned
  · obtain ⟨info, fits, planned⟩ := Answer.bind_eq_ok.mp planned
    obtain ⟨-, rfl⟩ := words_eq_ok.mp fits
    obtain ⟨kernel, bound, planned⟩ := Answer.bind_eq_ok.mp planned
    obtain rfl := floatKernel_eq_ok.mp bound
    refine ⟨_, (Except.ok.inj planned).symm, ?_⟩
    exact (Launch.Runs.softmax param floats reads writes).assembles_floats floats
      (by simp)

theorem MatMul.plan_assembles {p : MatMul} (param : launch.param = .matMul p)
    (planned : p.plan launch = .ok ds) : ∃ d, ds = [d] ∧ launch.Assembles d := by
  obtain ⟨_, checked, planned⟩ := Answer.bind_eq_ok.mp planned
  have floats : launch.Floats := expectF32_eq_ok.mp checked
  obtain ⟨a, readsA, planned⟩ := Answer.bind_eq_ok.mp planned
  obtain ⟨b, readsB, planned⟩ := Answer.bind_eq_ok.mp planned
  rw [item_eq_ok] at readsA readsB
  split at planned
  · simp [reject] at planned
  · rename_i extents found
    obtain ⟨threads, -, planned⟩ := Answer.bind_eq_ok.mp planned
    obtain ⟨info, fits, planned⟩ := Answer.bind_eq_ok.mp planned
    obtain ⟨-, rfl⟩ := words_eq_ok.mp fits
    have finish (bias : List Binding)
        (readsBias : if p.hasBias then ∃ c, launch.inputs[2]? = some c ∧ bias = [c] else bias = [])
        (planned : (do
          let out ← item launch.outputs 0
          let tensors := [a, b] ++ bias ++ [out]
          let kernel ← floatKernel tensors.length
          return [onBindings (kernel.withBody p.body)
            (asWords [threads, extents.m, extents.n, extents.k]) tensors]) = .ok ds) :
        ∃ d, ds = [d] ∧ launch.Assembles d := by
      obtain ⟨out, writes, planned⟩ := Answer.bind_eq_ok.mp planned
      rw [item_eq_ok] at writes
      obtain ⟨kernel, bound, planned⟩ := Answer.bind_eq_ok.mp planned
      obtain rfl := floatKernel_eq_ok.mp bound
      refine ⟨_, (Except.ok.inj planned).symm, ?_⟩
      exact (Launch.Runs.matMul param floats readsA readsB readsBias writes).assembles_floats
        floats (by simp)
    dsimp only at planned
    split at planned <;> rename_i biased
    · obtain ⟨bias, answered, planned⟩ := Answer.bind_eq_ok.mp planned
      apply finish bias _ planned
      rw [if_pos biased]
      rw [map_eq_pure_bind] at answered
      obtain ⟨c, readsC, single⟩ := Answer.bind_eq_ok.mp answered
      exact ⟨c, item_eq_ok.mp readsC, (Except.ok.inj single).symm⟩
    · exact finish [] (by rw [if_neg biased]) planned

theorem StridedCopy.dispatch_assembles {c : StridedCopy} {source target : Binding} {d : Dispatch}
    (copies : launch.Copies c source target) (planned : c.dispatch source target = .ok d) :
    launch.Assembles d := by
  obtain ⟨threads, -, planned⟩ := Answer.bind_eq_ok.mp planned
  obtain ⟨info, fits, planned⟩ := Answer.bind_eq_ok.mp planned
  obtain ⟨small, rfl⟩ := words_eq_ok.mp fits
  obtain ⟨kernel, bound, planned⟩ := Answer.bind_eq_ok.mp planned
  obtain ⟨types, typed, rfl⟩ := Kernel.binding_eq_ok.mp bound
  obtain rfl := Except.ok.inj planned
  exact (Launch.Runs.copy copies small).assembles (by simpa using typed) (by simp)

theorem Strided.plan_assembles {p : Strided} (param : launch.param = .asStrided p)
    (planned : p.plan launch = .ok ds) : ∃ d, ds = [d] ∧ launch.Assembles d := by
  obtain ⟨x, reads, planned⟩ := Answer.bind_eq_ok.mp planned
  obtain ⟨out, writes, planned⟩ := Answer.bind_eq_ok.mp planned
  rw [item_eq_ok] at reads writes
  obtain ⟨d, made, planned⟩ := Answer.bind_eq_ok.mp planned
  exact ⟨d, (Except.ok.inj planned).symm,
    StridedCopy.dispatch_assembles (.reading param reads writes) made⟩

theorem Transposition.plan_assembles {perm : List Nat} (param : launch.param = .transpose perm)
    (planned : plan perm launch = .ok ds) : ∃ d, ds = [d] ∧ launch.Assembles d := by
  obtain ⟨x, reads, planned⟩ := Answer.bind_eq_ok.mp planned
  obtain ⟨c, form, planned⟩ := Answer.bind_eq_ok.mp planned
  obtain ⟨out, writes, planned⟩ := Answer.bind_eq_ok.mp planned
  rw [item_eq_ok] at reads writes
  obtain ⟨d, made, planned⟩ := Answer.bind_eq_ok.mp planned
  exact ⟨d, (Except.ok.inj planned).symm,
    StridedCopy.dispatch_assembles (.permuting param reads writes form) made⟩

theorem Split.plan_assembles {axis : Int} {count : Nat} (param : launch.param = .split axis count)
    (planned : plan axis count launch = .ok ds) : ∀ d ∈ ds, launch.Assembles d := by
  obtain ⟨x, reads, planned⟩ := Answer.bind_eq_ok.mp planned
  rw [item_eq_ok] at reads
  split at planned
  · simp [reject] at planned
  · obtain ⟨whole, -, planned⟩ := Answer.bind_eq_ok.mp planned
    obtain ⟨chunk, -, planned⟩ := Answer.bind_eq_ok.mp planned
    intro d member
    obtain ⟨i, found⟩ := List.getElem?_of_mem member
    have answered := Answer.getElem?_mapM planned i
    rw [found] at answered
    obtain ⟨⟨out, part⟩, listed, made⟩ := Option.map_eq_some_iff.mp answered
    have writes : launch.outputs[part]? = some out :=
      List.mem_zipIdx_iff_getElem?.mp (List.mem_of_getElem? listed)
    obtain ⟨c, form, made⟩ := Answer.bind_eq_ok.mp made
    exact StridedCopy.dispatch_assembles (.cutting param reads writes form) made

theorem Concat.plan_assembles {axis : Int} (param : launch.param = .concat axis)
    (planned : plan axis launch = .ok ds) : ∀ d ∈ ds, launch.Assembles d := by
  obtain ⟨a, readsA, planned⟩ := Answer.bind_eq_ok.mp planned
  obtain ⟨b, readsB, planned⟩ := Answer.bind_eq_ok.mp planned
  obtain ⟨out, writes, planned⟩ := Answer.bind_eq_ok.mp planned
  rw [item_eq_ok] at readsA readsB writes
  split at planned
  · simp [reject] at planned
  · obtain ⟨whole, joins, planned⟩ := Answer.bind_eq_ok.mp planned
    obtain ⟨first, madeFirst, planned⟩ := Answer.bind_eq_ok.mp planned
    obtain ⟨size, -, planned⟩ := Answer.bind_eq_ok.mp planned
    obtain ⟨stride, -, planned⟩ := Answer.bind_eq_ok.mp planned
    obtain ⟨offset, -, planned⟩ := Answer.bind_eq_ok.mp planned
    obtain ⟨second, madeSecond, planned⟩ := Answer.bind_eq_ok.mp planned
    obtain rfl := Except.ok.inj planned
    have atFirst := StridedCopy.dispatch_assembles (.first param readsA readsB writes joins)
      madeFirst
    have atSecond := StridedCopy.dispatch_assembles (.second param readsA readsB writes joins)
      madeSecond
    simp [atFirst, atSecond]

theorem Gather.plan_assembles {axis : Int} (param : launch.param = .gather axis)
    (planned : plan axis launch = .ok ds) : ∃ d, ds = [d] ∧ launch.Assembles d := by
  obtain ⟨table, readsTable, planned⟩ := Answer.bind_eq_ok.mp planned
  obtain ⟨indices, readsIndices, planned⟩ := Answer.bind_eq_ok.mp planned
  obtain ⟨out, writes, planned⟩ := Answer.bind_eq_ok.mp planned
  rw [item_eq_ok] at readsTable readsIndices writes
  split at planned
  · simp [missing] at planned
  rename_i integers
  split at planned
  · simp [reject] at planned
  · obtain ⟨outer, -, planned⟩ := Answer.bind_eq_ok.mp planned
    obtain ⟨inner, -, planned⟩ := Answer.bind_eq_ok.mp planned
    obtain ⟨threads, -, planned⟩ := Answer.bind_eq_ok.mp planned
    obtain ⟨size, -, planned⟩ := Answer.bind_eq_ok.mp planned
    obtain ⟨info, fits, planned⟩ := Answer.bind_eq_ok.mp planned
    obtain ⟨-, rfl⟩ := words_eq_ok.mp fits
    obtain ⟨kernel, bound, planned⟩ := Answer.bind_eq_ok.mp planned
    obtain ⟨types, typed, rfl⟩ := Kernel.binding_eq_ok.mp bound
    obtain ⟨type, result, planned⟩ := Answer.bind_eq_ok.mp planned
    refine ⟨_, (Except.ok.inj planned).symm, ?_⟩
    rw [← Decidable.not_not.mp integers] at typed
    exact (Launch.Runs.gather param readsTable readsIndices writes result).assembles
      (by simpa using typed) (by simp)

theorem Rope.plan_assembles {rotaryCoeff : Int} (param : launch.param = .rope rotaryCoeff)
    (planned : plan rotaryCoeff launch = .ok ds) : ∀ d ∈ ds, launch.Assembles d := by
  obtain ⟨_, checked, planned⟩ := Answer.bind_eq_ok.mp planned
  have floats : launch.Floats := expectF32_eq_ok.mp checked
  obtain ⟨q, readsQ, planned⟩ := Answer.bind_eq_ok.mp planned
  obtain ⟨k, readsK, planned⟩ := Answer.bind_eq_ok.mp planned
  obtain ⟨cos, readsCos, planned⟩ := Answer.bind_eq_ok.mp planned
  obtain ⟨sin, readsSin, planned⟩ := Answer.bind_eq_ok.mp planned
  rw [item_eq_ok] at readsQ readsK readsCos readsSin
  have rotation {headDim chunk : Int} {part : Nat} {x out : Binding} {d : Dispatch}
      (which : part < 2) (readsX : launch.inputs[part]? = some x)
      (writes : launch.outputs[part]? = some out)
      (made : dispatch headDim chunk x cos sin out = .ok d) : launch.Assembles d := by
    obtain ⟨tokens, -, made⟩ := Answer.bind_eq_ok.mp made
    obtain ⟨hidden, -, made⟩ := Answer.bind_eq_ok.mp made
    obtain ⟨heads, -, made⟩ := Answer.bind_eq_ok.mp made
    obtain ⟨threads, -, made⟩ := Answer.bind_eq_ok.mp made
    obtain ⟨info, fits, made⟩ := Answer.bind_eq_ok.mp made
    obtain ⟨-, rfl⟩ := words_eq_ok.mp fits
    obtain ⟨kernel, bound, made⟩ := Answer.bind_eq_ok.mp made
    obtain rfl := floatKernel_eq_ok.mp bound
    obtain rfl := Except.ok.inj made
    exact (Launch.Runs.rope param floats which readsX readsCos readsSin writes).assembles_floats
      floats (by simp)
  obtain ⟨headDim, -, planned⟩ := Answer.bind_eq_ok.mp planned
  split at planned
  · simp [missing] at planned
  · obtain ⟨chunk, -, planned⟩ := Answer.bind_eq_ok.mp planned
    obtain ⟨qOut, writesQ, planned⟩ := Answer.bind_eq_ok.mp planned
    obtain ⟨kOut, writesK, planned⟩ := Answer.bind_eq_ok.mp planned
    rw [item_eq_ok] at writesQ writesK
    obtain ⟨first, madeFirst, planned⟩ := Answer.bind_eq_ok.mp planned
    obtain ⟨second, madeSecond, planned⟩ := Answer.bind_eq_ok.mp planned
    obtain rfl := Except.ok.inj planned
    have atFirst := rotation (by decide) readsQ writesQ madeFirst
    have atSecond := rotation (by decide) readsK writesK madeSecond
    simp [atFirst, atSecond]

theorem SelfAttention.plan_assembles {p : SelfAttention} (param : launch.param = .selfAttention p)
    (planned : p.plan launch = .ok ds) : ∃ d, ds = [d] ∧ launch.Assembles d := by
  obtain ⟨_, checked, planned⟩ := Answer.bind_eq_ok.mp planned
  have floats : launch.Floats := expectF32_eq_ok.mp checked
  obtain ⟨q, readsQ, planned⟩ := Answer.bind_eq_ok.mp planned
  obtain ⟨k, readsK, planned⟩ := Answer.bind_eq_ok.mp planned
  obtain ⟨v, readsV, planned⟩ := Answer.bind_eq_ok.mp planned
  obtain ⟨out, writes, planned⟩ := Answer.bind_eq_ok.mp planned
  rw [item_eq_ok] at readsQ readsK readsV writes
  split at planned
  · simp [reject] at planned
  · rename_i scratch given
    obtain ⟨width, -, planned⟩ := Answer.bind_eq_ok.mp planned
    obtain ⟨headDim, -, planned⟩ := Answer.bind_eq_ok.mp planned
    obtain ⟨threads, -, planned⟩ := Answer.bind_eq_ok.mp planned
    obtain ⟨sizes, fits, planned⟩ := Answer.bind_eq_ok.mp planned
    obtain ⟨small, rfl⟩ := words_eq_ok.mp fits
    obtain ⟨lengths, also, planned⟩ := Answer.bind_eq_ok.mp planned
    obtain ⟨-, rfl⟩ := words_eq_ok.mp also
    obtain ⟨kernel, bound, planned⟩ := Answer.bind_eq_ok.mp planned
    obtain rfl := floatKernel_eq_ok.mp bound
    refine ⟨_, (Except.ok.inj planned).symm, ?_⟩
    have runs := Launch.Runs.attention param floats readsQ readsK readsV writes
      (Option.isSome_of_eq_some given) small
    have typed := types_of_floats fun b member =>
      floats b (runs.sublist.subset member)
    have whole := Launch.Assembles.runs runs typed
    rwa [Launch.scratchFor, given] at whole

/-- Operators whose launches are made of several dispatches. -/
def Operator.isComposite : Operator → Bool
  | .split _ _ | .concat _ | .rope _ => true
  | _ => false

/-- What a plan comes to. -/
theorem Launch.plan_assembles (planned : launch.plan = .ok ds) :
    (∀ d ∈ ds, launch.Assembles d) ∧ (launch.param.isComposite = false → ds.length ≤ 1) := by
  have one (single : ∃ d, ds = [d] ∧ launch.Assembles d) :
      (∀ d ∈ ds, launch.Assembles d) ∧ (launch.param.isComposite = false → ds.length ≤ 1) := by
    obtain ⟨d, rfl, assembles⟩ := single
    simp [assembles]
  unfold plan at planned
  split at planned
  · simp [missing] at planned
  split at planned
  · obtain rfl := Except.ok.inj planned
    simp
  unfold planFamily at planned
  split at planned <;> rename_i param
  · exact one (Elementwise.plan_assembles param planned)
  · exact one (LayerNorm.plan_assembles param planned)
  · exact one (RmsNorm.plan_assembles param planned)
  · exact one (MatMul.plan_assembles param planned)
  · exact one (Activation.plan_assembles param planned)
  · exact one (Softmax.plan_assembles param planned)
  · exact one (Strided.plan_assembles param planned)
  · exact one (Transposition.plan_assembles param planned)
  · simp [missing] at planned
  · exact ⟨Split.plan_assembles param planned, by simp [param, Operator.isComposite]⟩
  · exact ⟨Concat.plan_assembles param planned, by simp [param, Operator.isComposite]⟩
  · exact one (Gather.plan_assembles param planned)
  · exact ⟨Rope.plan_assembles param planned, by simp [param, Operator.isComposite]⟩
  · exact one (SelfAttention.plan_assembles param planned)

end

end OperatorGraph
