import OperatorGraph.Proofs.Dispatch.Steps

set_option autoImplicit false

namespace OperatorGraph

open Dispatch Shader RowMajor

/-- The element at coordinate `goal` of output `j` is that at coordinate `origin` of input `i`. -/
inductive Operator.Brings : Operator → List TensorDesc → Nat → List Nat → Nat → List Nat → Prop where
  | transposed {perm : List Nat} {x : TensorDesc} {goal origin : List Nat}
      (length : origin.length = perm.length)
      (each : ∀ (i axis : Nat), perm[i]? = some axis → origin[axis]? = goal[i]?) :
      Brings (.transpose perm) [x] 0 goal 0 origin
  | slice {axis : Int} {parts position whole : Nat} {x : TensorDesc}
      (named : x.shape.axis? axis = some position)
      (size : x.shape.extents[position]? = some whole) (j : Nat) (goal : List Nat) :
      Brings (.split axis parts) [x] j goal 0 (goal.modify position (· + j * (whole / parts)))
  | front {axis : Int} {position size k : Nat} {a b : TensorDesc} {goal : List Nat}
      (named : a.shape.axis? axis = some position)
      (sized : a.shape.extents[position]? = some size) (here : goal[position]? = some k)
      (before : k < size) : Brings (.concat axis) [a, b] 0 goal 0 goal
  | back {axis : Int} {position size k : Nat} {a b : TensorDesc} {goal : List Nat}
      (named : a.shape.axis? axis = some position)
      (sized : a.shape.extents[position]? = some size) (here : goal[position]? = some k)
      (behind : size ≤ k) : Brings (.concat axis) [a, b] 0 goal 1 (goal.modify position (· - size))

namespace Launch

/-- Tensors of elements that kernels can be bound to, with fewer elements than there are words, and
outputs that overlap neither each other nor an input. -/
structure Movable (launch : Launch) : Prop where
  bindable : ∀ b ∈ launch.inputs ++ launch.outputs, b.desc.dtype = .f32 ∨ b.desc.dtype = .i32
  resolved : ∀ b ∈ launch.inputs ++ launch.outputs, b.desc.shape.Resolved
  few : ∀ b ∈ launch.inputs ++ launch.outputs, b.desc.shape.extents.prod < 2 ^ 32
  /-- The launch parameters are no more than that, too. -/
  short : ∀ b ∈ launch.inputs, 4 + 3 * b.desc.shape.rank < 2 ^ 32
  apart : ∀ b ∈ launch.inputs, ∀ out ∈ launch.outputs, b.span.Disjoint out.span
  outputsApart : launch.outputs.Pairwise fun out other => out.span.Disjoint other.span

/-- The dispatches move the elements of the inputs to where the outputs want them. -/
structure Rearranges (launch : Launch) (inferred : List TensorDesc) (ds : List Dispatch) :
    Prop where
  /-- Every thread reads inside an input and writes inside an output. -/
  moves : ∀ d ∈ ds, ∀ n < d.threads, ∃ input ∈ launch.inputs, ∃ out ∈ launch.outputs, ∃ r w,
    d.Moves n input.span r out.span w
  /-- Every element of an output is written by one thread of one dispatch. -/
  once : ∀ (j : Nat) (out : Binding) (desc : TensorDesc), launch.outputs[j]? = some out →
    inferred[j]? = some desc → ∀ w < desc.shape.extents.prod,
      ∃! writer : Nat × Nat, ∃ d source r,
        ds[writer.1]? = some d ∧ d.Moves writer.2 source r out.span w
  /-- Whatever the ranges hold, the outputs come to hold the elements that they are to have. -/
  brings : ∀ {F : Type} (m : Arithmetic F) (held : Contents F), ∃ after,
    runEach ds m held = .ok after ∧
      (∀ (j : Nat) (out : Binding) (desc : TensorDesc) (c : List Nat),
        launch.outputs[j]? = some out → inferred[j]? = some desc → Inside c desc.shape.extents →
        ∃ i input c', launch.inputs[i]? = some input ∧ Inside c' input.desc.shape.extents ∧
          launch.param.Brings (launch.inputs.map Binding.desc) j c i c' ∧
          after out.span (position desc.shape.extents c) =
            held input.span (position input.desc.shape.extents c')) ∧
      ∀ span, (∀ out ∈ launch.outputs, out.span ≠ span) → after span = held span

/-- Steps that fill the outputs of a launch. -/
structure Filled (launch : Launch) (inferred : List TensorDesc) (steps : List CopyStep) : Prop where
  ordered : CopyStep.Ordered steps
  sources : ∀ s ∈ steps, s.source ∈ launch.inputs
  targets : ∀ s ∈ steps, s.target ∈ launch.outputs
  reaches : ∀ (j : Nat) (out : Binding) (desc : TensorDesc) (c : List Nat),
    launch.outputs[j]? = some out → inferred[j]? = some desc → Inside c desc.shape.extents →
      ∃ i input c', launch.inputs[i]? = some input ∧ Inside c' input.desc.shape.extents ∧
        launch.param.Brings (launch.inputs.map Binding.desc) j c i c' ∧
        ∃ s ∈ steps, s.source = input ∧ s.target = out ∧ ∃ coords, Inside coords s.copy.extents ∧
          s.copy.writes coords = position desc.shape.extents c ∧
          s.copy.reads coords = position input.desc.shape.extents c'

namespace Filled

variable {launch : Launch} {inferred : List TensorDesc} {steps : List CopyStep}
  (filled : launch.Filled inferred steps)
include filled

theorem moves_of_step {k : Nat} {s : CopyStep} (found : steps[k]? = some s) {coords : List Nat}
    (inside : Inside coords s.copy.extents) : s.dispatch.Moves (position s.copy.extents coords)
      s.source.span (s.copy.reads coords) s.target.span (s.copy.writes coords) := by
  have placed := filled.ordered.placed s (List.mem_of_getElem? found)
  have moves := placed.moves s.kernel (position_lt inside)
  rwa [coordinate_position inside] at moves

/-- A thread that writes an element does so for a coordinate of its step. -/
theorem coords_of_moves {k n r w : Nat} {d : Dispatch} {source target : Span}
    (found : (steps.map CopyStep.dispatch)[k]? = some d) (moves : d.Moves n source r target w) :
    ∃ s coords, steps[k]? = some s ∧ Inside coords s.copy.extents ∧ s.target.span = target ∧
      s.copy.writes coords = w ∧ n = position s.copy.extents coords := by
  rw [List.getElem?_map] at found
  obtain ⟨s, here, rfl⟩ := Option.map_eq_some_iff.mp found
  have placed := filled.ordered.placed s (List.mem_of_getElem? here)
  have below : n < s.copy.extents.prod := by
    rw [← placed.threads_eq s.kernel]
    exact moves.below
  obtain ⟨same, written⟩ := (placed.moves s.kernel below).unique moves
  exact ⟨s, _, here, inside_coordinate below, same, written, (position_coordinate below).symm⟩

/-- Two threads that write one element are the same. -/
theorem writer_unique {k k' n n' r r' w : Nat} {d d' : Dispatch} {source source' target : Span}
    (found : (steps.map CopyStep.dispatch)[k]? = some d) (moves : d.Moves n source r target w)
    (found' : (steps.map CopyStep.dispatch)[k']? = some d')
    (moves' : d'.Moves n' source' r' target w) : (k, n) = (k', n') := by
  obtain ⟨s, a, here, insideA, target, writesA, rfl⟩ := filled.coords_of_moves found moves
  obtain ⟨t, b, there, insideB, target', writesB, rfl⟩ := filled.coords_of_moves found' moves'
  have position : k = k' := by
    by_contra different
    obtain ⟨insideS, rfl⟩ := List.getElem?_eq_some_iff.mp here
    obtain ⟨insideT, rfl⟩ := List.getElem?_eq_some_iff.mp there
    have apart : steps[k].Apart steps[k'] := by
      rcases Nat.lt_or_gt_of_ne different with before | behind
      · exact List.pairwise_iff_getElem.mp filled.ordered.apart k k' insideS insideT before
      · exact (List.pairwise_iff_getElem.mp filled.ordered.apart k' k insideT insideS behind).symm
    exact apart (target.trans target'.symm) a b insideA insideB (writesA.trans writesB.symm)
  subst position
  obtain rfl : s = t := Option.some.inj (here.symm.trans there)
  have placed := filled.ordered.placed s (List.mem_of_getElem? here)
  rw [placed.once a b insideA insideB (writesA.trans writesB.symm)]

theorem rearranges : launch.Rearranges inferred (steps.map CopyStep.dispatch) := by
  refine ⟨fun d member n below => ?_, fun j out desc atOut atDesc w small => ?_,
    fun m held => ?_⟩
  · obtain ⟨s, inSteps, rfl⟩ := List.mem_map.mp member
    have placed := filled.ordered.placed s inSteps
    have inCopy : n < s.copy.extents.prod := by
      rw [← placed.threads_eq s.kernel]
      exact below
    exact ⟨s.source, filled.sources s inSteps, s.target, filled.targets s inSteps, _, _,
      placed.moves s.kernel inCopy⟩
  · obtain ⟨i, input, c', -, -, -, s, inSteps, rfl, rfl, coords, inside, writes, -⟩ :=
      filled.reaches j out desc _ atOut atDesc (inside_coordinate small)
    rw [position_coordinate small] at writes
    obtain ⟨k, found⟩ := List.getElem?_of_mem inSteps
    have atDispatch : (steps.map CopyStep.dispatch)[k]? = some s.dispatch := by
      rw [List.getElem?_map, found, Option.map_some]
    have moves := filled.moves_of_step found inside
    rw [writes] at moves
    refine ⟨(k, position s.copy.extents coords), ⟨s.dispatch, _, _, atDispatch, moves⟩, ?_⟩
    rintro ⟨k', n'⟩ ⟨d', source', r', found', moves'⟩
    exact filled.writer_unique found' moves' atDispatch moves
  · obtain ⟨after, ran, moved, kept⟩ := filled.ordered.runEach m held
    refine ⟨after, ran, fun j out desc c atOut atDesc inside => ?_, fun span other => ?_⟩
    · obtain ⟨i, input, c', atInput, insideInput, brings, s, inSteps, rfl, rfl, coords, within,
        writes, reads⟩ := filled.reaches j out desc c atOut atDesc inside
      refine ⟨i, s.source, c', atInput, insideInput, brings, ?_⟩
      rw [← writes, ← reads]
      exact moved s inSteps coords within
    · funext i
      exact kept span i fun s inSteps same =>
        absurd same (other s.target (filled.targets s inSteps))

end Filled

end Launch

end OperatorGraph
