import OperatorGraph.Proofs.Dispatch.Planning
import OperatorGraph.Proofs.Dispatch.LastParameters
import OperatorGraph.Proofs.Shape.Broadcasting

set_option autoImplicit false

namespace OperatorGraph

open Dispatch Shader

section

variable (launch : Launch)

/-- The rank of an input. -/
def Launch.inputRank (input : Nat) : Nat :=
  (launch.inputs[input]?.map (·.desc.shape.rank)).getD 0

/-- Where the launch parameters hold the rank that is looped over or the size of the batch, and
which it is. -/
def Launch.extent? : Option (Nat × Nat) :=
  match launch.param with
  | .elementwise kind =>
    if kind.isBinary then some (1, max (launch.inputRank 0) (launch.inputRank 1)) else none
  | .asStrided p => some (1, p.size.length)
  | .transpose perm => some (1, perm.length)
  | .split _ _ | .concat _ => some (1, launch.inputRank 0)
  | .selfAttention p => some (4, p.batch)
  | .layerNorm _ | .rmsNorm _ | .matMul _ | .activation _ | .softmax _ | .relayout _ | .gather _
  | .rope _ => none

/-- As many launch parameters as a program has for the rank or the batch of the launch. -/
structure Launch.Suits (program : Program) (info : List UInt32) (size : Nat) : Prop where
  small : size < 2 ^ 32
  extent : launch.extent? = program.place?.map (·, size)
  length : info.length = program.words size
  sized : program.Sized size info

end

theorem Shape.length_broadcastStrides {s target : Shape} (most : s.rank ≤ target.rank) :
    (s.broadcastStrides target).length = target.rank := by
  simp [broadcastStrides, Shape.rank] at most ⊢
  omega

theorem Strided.lengths_of_infer {p : Strided} {inputs outputs : List TensorDesc}
    (inferred : p.infer inputs = .ok outputs) : p.stride.length = p.size.length := by
  unfold infer at inferred
  split at inferred
  · split at inferred
    · simp at inferred
    · rename_i same
      exact (Decidable.not_not.mp same).symm
  · simp at inferred

namespace Launch

variable {launch : Launch}

theorem inputRank_of {input : Nat} {b : Binding} (reads : launch.inputs[input]? = some b) :
    launch.inputRank input = b.desc.shape.rank := by
  rw [inputRank, reads]
  rfl

/-- Joined tensors are of one rank, which is that of the whole. -/
theorem joined_rank {axis : Int} {inferred : List TensorDesc}
    (infers : Concat.infer axis (launch.inputs.map Binding.desc) = .ok inferred) {a b : Binding}
    (readsA : launch.inputs[0]? = some a) (readsB : launch.inputs[1]? = some b) {position : Nat}
    {whole : Shape} (joins : Concat.joined position a.desc.shape b.desc.shape = .ok whole) :
    whole.rank = a.desc.shape.rank ∧ b.desc.shape.rank = a.desc.shape.rank := by
  obtain ⟨x, y, -, -, inputs, -, -, same, -⟩ := Concat.infer_ok infers
  have desc {input : Nat} {read : Binding} (found : launch.inputs[input]? = some read) :
      [x, y][input]? = some read.desc := by
    rw [← inputs, List.getElem?_map, found]
    rfl
  obtain rfl : x = a.desc := Option.some.inj (desc readsA)
  obtain rfl : y = b.desc := Option.some.inj (desc readsB)
  obtain ⟨dims, joined, formed⟩ := Answer.bind_eq_ok.mp joins
  obtain rfl := Except.ok.inj formed
  have length := Answer.length_mapM joined
  rw [List.length_zipIdx, List.length_zip] at length
  refine ⟨?_, same.symm⟩
  show dims.length = a.desc.shape.rank
  rw [length]
  exact Nat.min_eq_left (Nat.le_of_eq same)

section

variable {inferred : List TensorDesc}
  (infers : launch.param.infer (launch.inputs.map Binding.desc) = .ok inferred)
include infers

/-- The copies of a launch visit as many axes as its launch parameters are laid out for. -/
theorem Copies.ranks {c : StridedCopy} {source target : Binding}
    (copies : launch.Copies c source target) : ∃ rank, launch.extent? = some (1, rank) ∧
      c.dims.length = rank ∧ c.sourceStrides.length = rank ∧ c.targetStrides.length = rank := by
  obtain ⟨-, infers⟩ := Operator.infer_ok infers
  cases copies with
  | @reading p _ _ param =>
    rw [param] at infers
    refine ⟨p.size.length, by rw [extent?, param], rfl, Strided.lengths_of_infer infers, ?_⟩
    exact Shape.length_strides p.size
  | @permuting perm _ _ _ param _ _ form =>
    obtain ⟨dims, permuted, form⟩ := Answer.bind_eq_ok.mp form
    obtain ⟨strides, also, form⟩ := Answer.bind_eq_ok.mp form
    obtain rfl := Except.ok.inj form
    have length := Answer.length_mapM permuted
    refine ⟨perm.length, by rw [extent?, param], length, Answer.length_mapM also, ?_⟩
    exact (Shape.length_strides dims).trans length
  | @cutting _ _ position _ chunk _ _ _ param reads _ form =>
    obtain ⟨stride, -, form⟩ := Answer.bind_eq_ok.mp form
    obtain ⟨start, -, form⟩ := Answer.bind_eq_ok.mp form
    obtain ⟨offset, -, form⟩ := Answer.bind_eq_ok.mp form
    obtain rfl := Except.ok.inj form
    have length : (source.desc.shape.dims.set position chunk).length = source.desc.shape.rank :=
      List.length_set
    refine ⟨source.desc.shape.rank, by rw [extent?, param, ← inputRank_of reads], length, ?_, ?_⟩
    · exact Shape.length_contiguousStrides _
    · exact (Shape.length_strides _).trans length
  | first param readsA readsB _ joins =>
    rw [param] at infers
    have whole := (joined_rank infers readsA readsB joins).1
    refine ⟨source.desc.shape.rank, by rw [extent?, param, ← inputRank_of readsA], rfl, ?_, ?_⟩
    · exact Shape.length_contiguousStrides _
    · exact (Shape.length_contiguousStrides _).trans whole
  | @second _ _ _ a _ _ _ param readsA readsB _ joins =>
    rw [param] at infers
    obtain ⟨whole, same⟩ := joined_rank infers readsA readsB joins
    refine ⟨a.desc.shape.rank, by rw [extent?, param, ← inputRank_of readsA], same, ?_, ?_⟩
    · exact (Shape.length_contiguousStrides _).trans same
    · exact (Shape.length_contiguousStrides _).trans whole

/-- A program is given as many launch parameters as it asks for, given the rank or the batch of the
launch, which is among them. -/
theorem Runs.layout {program : Program} {bound : List Binding} {info : List UInt32}
    (runs : launch.Runs program bound info) : ∃ size, launch.Suits program info size := by
  have free (apart : launch.extent? = none) (fixed : program.place? = none)
      (length : info.length = program.words 0) : ∃ size, launch.Suits program info size := by
    refine ⟨0, by decide, ?_, length, fun place known => ?_⟩
    · rw [apart, fixed]
      rfl
    · simp [fixed] at known
  cases runs with
  | scale param | cast param => exact free (by rw [extent?, param]; rfl) rfl rfl
  | @map kind _ _ _ param =>
    exact free (by rw [extent?, param]) rfl rfl
  | gate param | layerNorm param | rmsNorm param | matMul param | softmax param | gather param
  | rope param => exact free (by rw [extent?, param]) rfl rfl
  | @broadcast kind op x y out target param binary readsX readsY writes joins small =>
    obtain ⟨-, -, rank⟩ := Shape.spreads_of_broadcast joins
    have listed :
        (target.rank : Int) ∈ Elementwise.broadcastInfo x.desc.shape y.desc.shape target := by
      simp [Elementwise.broadcastInfo]
    have isBinary : kind.isBinary = true := by
      cases kind <;> first | rfl | simp [Elementwise.op?] at binary
    refine ⟨target.rank, by have := small _ listed; omega, ?_, ?_, ?_⟩
    · rw [extent?, param, rank, inputRank_of readsX, inputRank_of readsY]
      exact if_pos isBinary
    · have lhs : (x.desc.shape.broadcastStrides target).length = target.rank :=
        Shape.length_broadcastStrides (by omega)
      have rhs : (y.desc.shape.broadcastStrides target).length = target.rank :=
        Shape.length_broadcastStrides (by omega)
      have dims : target.dims.length = target.rank := rfl
      simp only [length_asWords, Elementwise.broadcastInfo, List.length_append, lhs, rhs, dims,
        List.length_cons, List.length_nil, Program.words]
      omega
    · exact .at_place rfl rfl
  | @copy c source target threads copies small =>
    obtain ⟨rank, apart, dims, sources, targets⟩ := copies.ranks infers
    have listed : (c.dims.length : Int) ∈ threads :: c.parameters := by
      simp [StridedCopy.parameters]
    refine ⟨rank, by have := small _ listed; omega, apart, ?_, ?_⟩
    · simp only [length_asWords, StridedCopy.parameters, List.length_append, dims, sources, targets,
        List.length_cons, List.length_nil, Program.words]
      omega
    · exact .at_place rfl (dims ▸ rfl)
  | @attention p _ _ _ _ threads headDim param _ _ _ _ _ _ small =>
    have entries : p.tokenOffset.length = p.seqLen.length := by
      rw [param] at infers
      obtain ⟨-, infers⟩ := Operator.infer_ok infers
      obtain ⟨_, _, _, _, _, -, -, admits⟩ := SelfAttention.infer_ok infers
      exact admits.batch.lengths
    have batch : p.batch = p.seqLen.length := rfl
    refine ⟨p.batch, by have := small p.batch (by simp); omega, by rw [extent?, param]; rfl, ?_, ?_⟩
    · simp only [length_asWords, List.length_append, entries, ← batch, List.length_cons,
        List.length_nil, Program.words]
      omega
    · exact .at_place rfl rfl

end

end Launch

namespace Shader.Kernel

/-- The threads that run the body of a kernel are those below a number. The grid of that many
threads starts each of them, and one that is past them looks at the first launch parameter and
ends. -/
structure Guards (k : Kernel) (info : List UInt32) (threads : Nat) : Prop where
  started : ∀ index < threads, UInt32.ofNat index ∈ invocations (workgroups threads)
  below : ∀ {F : Type} (m : Arithmetic F) (arrays : Arrays F) (body : List Stmt),
    k.body = .program body → ∀ index < threads,
      k.runThread m info arrays (UInt32.ofNat index) = Prod.snd <$> Stmt.runAll (k.context m info)
        body ((Thread.fresh arrays index).after [.read .info 0])
  past : ∀ {F : Type} (m : Arithmetic F) (arrays : Arrays F) (index : Nat), threads ≤ index →
    index < 2 ^ 32 → ∃ t, k.runThread m info arrays (UInt32.ofNat index) = .ok t ∧
      t.arrays = arrays ∧ t.accesses = [.read .info 0]

theorem threadLimit_run {F : Type} {c : Context F} {threads : UInt32}
    (count : c.info[0]? = some threads) (arrays : Arrays F) {index : Nat} (small : index < 2 ^ 32) :
    threadLimit.run c (Thread.fresh arrays index) =
      .ok (if threads.toNat ≤ index then .stop else .next,
        (Thread.fresh arrays index).after [.read .info 0]) := by
  have limit : (Expr.binary .atLeast .thread (.info 0)).eval c (Thread.fresh arrays index) =
      .ok (.flag (threads ≤ UInt32.ofNat index), [.read .info 0]) := by
    simp only [Expr.thread, Expr.info, Expr.eval, Thread.lookup, Thread.vars_fresh, Bind.bind,
      Except.bind, pure, Except.pure, Value.position?, typed, Option.elim_some, Thread.load, count,
      BinaryOp.apply, BinaryOp.onWords, List.nil_append]
  rw [threadLimit, Stmt.run, limit]
  have order : threads ≤ UInt32.ofNat index ↔ threads.toNat ≤ index := by
    rw [UInt32.le_iff_toNat_le, UInt32.toNat_ofNat_of_lt' small]
  by_cases past : threads.toNat ≤ index
  · simp only [order, past, decide_true, if_true]
    rfl
  · simp only [order, past, decide_false, if_false]
    rfl

theorem guards {k : Kernel} {body : List Stmt} (program : k.body = .program body)
    {info : List UInt32} {threads : UInt32} (count : info[0]? = some threads) :
    k.Guards info threads.toNat := by
  refine ⟨fun index below => mem_invocations below, ?_, ?_⟩
  · intro F m arrays other same index below
    have limit := threadLimit_run (c := k.context m info) count arrays
      (Nat.lt_trans below threads.toNat_lt)
    rw [if_neg (Nat.not_le.mpr below), Thread.fresh] at limit
    simp only [runThread, same, Stmt.runAll, limit]
    rfl
  · intro F m arrays index past small
    have limit := threadLimit_run (c := k.context m info) count arrays small
    rw [if_pos past, Thread.fresh] at limit
    refine ⟨(Thread.fresh arrays index).after [.read .info 0], ?_, rfl, rfl⟩
    simp only [runThread, program, Stmt.runAll, limit]
    rfl

end Shader.Kernel

namespace Launch

section

variable (launch : Launch)

/-- The launch parameters hold the rank or the size of the batch of the launch. -/
def Sized (info : List UInt32) : Prop :=
  ∀ place size, launch.extent? = some (place, size) → info[place]? = some (UInt32.ofNat size)

/-- A dispatch whose ranges are those that its kernel declares, and whose launch parameters are
those that its kernel asks for. -/
structure WellFormed (d : Dispatch) : Prop where
  /-- Ranges of tensors of the launch, in their order, and of its scratch. Each is declared with the
  type of its elements. -/
  ranges : ∃ (bound : List Binding) (scratch : List Span), bound.Sublist launch.bindings ∧
    scratch.Sublist launch.scratch.toList ∧ d.tensors = bound.map Binding.span ++ scratch ∧
    d.kernel.tensors.map some =
      bound.map (·.desc.dtype.shaderType?) ++ scratch.map fun _ => some "f32"
  declared : d.kernel.declarations.length = d.tensors.length
  /-- The first launch parameter is the thread count. -/
  threads : ∃ count, d.info[0]? = some count ∧ d.kernel.Guards d.info count.toNat
  sized : launch.Sized d.info
  /-- For this rank or batch, no thread asks for a launch parameter behind the last one. -/
  enough : ∀ info, launch.Sized info → ∀ position, d.kernel.Asks info position →
    position < d.info.length
  /-- If words can number it, some thread asks for the last one. -/
  needed : d.info.length ≤ 2 ^ 32 → ∃ info, launch.Sized info ∧
    d.kernel.Asks info (d.info.length - 1)

end

variable {launch : Launch}

theorem shaderType_of_bindable {dtype : ElementType} {type : String}
    (binds : bindableType dtype = .ok type) : dtype.shaderType? = some type := by
  cases dtype <;> simp_all [bindableType, ElementType.shaderType?]

theorem shaderTypes_of_bindable {bound : List Binding} {types : List String}
    (typed : bound.mapM (fun b => bindableType b.desc.dtype) = .ok types) :
    types.map some = bound.map (·.desc.dtype.shaderType?) := by
  induction bound generalizing types with
  | nil => simpa using typed
  | cons b rest ih =>
    simp only [List.mapM_cons, Answer.bind_eq_ok, Answer.pure_eq_ok] at typed
    obtain ⟨type, here, others, later, rfl⟩ := typed
    rw [List.map_cons, List.map_cons, ih later, shaderType_of_bindable here]

/-- A program has scratch where it is given some. -/
theorem Runs.scratch {program : Program} {bound : List Binding} {info : List UInt32}
    (runs : launch.Runs program bound info) :
    (launch.scratchFor program).Sublist launch.scratch.toList ∧
      program.scratch = (launch.scratchFor program).map fun _ => "f32" := by
  cases runs with
  | attention _ _ _ _ _ _ given =>
    obtain ⟨span, given⟩ := Option.isSome_iff_exists.mp given
    simp [scratchFor, Program.scratch, given]
  | _ => exact ⟨List.nil_sublist _, rfl⟩

/-- Planning makes well-formed dispatches of what inference has let through. -/
theorem wellFormed_of_plan {inferred : List TensorDesc}
    (infers : launch.param.infer (launch.inputs.map Binding.desc) = .ok inferred)
    {ds : List Dispatch} (planned : launch.plan = .ok ds) : ∀ d ∈ ds, launch.WellFormed d := by
  intro d member
  cases (plan_assembles planned).1 d member with
  | @runs program bound info types runs typed =>
    obtain ⟨size, suits⟩ := runs.layout infers
    have length := suits.length
    obtain ⟨scratch, scratchTypes⟩ := runs.scratch
    have declares := shaderTypes_of_bindable typed
    have count := congrArg List.length declares
    -- What is asked for depends on the program and on a size; the launch says which size it is.
    have same (words : List UInt32) : launch.Sized words ↔ program.Sized size words := by
      simp [Sized, Program.Sized, suits.extent]
    have enough (words : List UInt32) (holds : launch.Sized words) (position : Nat)
        (asks : (program.kernel types).Asks words position) : position < info.length := by
      rw [length]
      exact Program.asks_lt ((same words).mp holds) suits.small asks
    obtain ⟨threads, first⟩ : ∃ threads, info[0]? = some threads := by
      have some := program.words_pos size
      exact ⟨_, List.getElem?_eq_getElem (by omega)⟩
    refine {
      ranges := ⟨bound, launch.scratchFor program, runs.sublist, scratch, rfl, ?_⟩
      declared := ?_
      threads := ⟨threads, first, Kernel.guards rfl first⟩
      sized := (same info).mpr suits.sized
      enough
      needed := fun short => ?_ }
    · show (types ++ program.scratch).map some = _
      rw [List.map_append, declares, scratchTypes, List.map_map]
      rfl
    · have counts : types.length = bound.length := by simpa using count
      simp [Kernel.declarations, Program.kernel, scratchTypes, counts]
    · rw [length] at short
      obtain ⟨words, holds, asks⟩ := Program.asks_last program short types
      exact ⟨words, (same words).mpr holds, length ▸ asks⟩

end Launch

end OperatorGraph
