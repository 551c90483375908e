import OperatorGraph.Proofs.Dispatch.Rotations

set_option autoImplicit false

namespace OperatorGraph

open Dispatch Shader RowMajor

namespace Rope

/-- The sizes of a tensor that is rotated. -/
structure Spans (rotaryCoeff tokens headDim : Int) (x : Shape) (l : Sizes) : Prop where
  rows : tokens = l.tokens
  chunk : headDim.tdiv rotaryCoeff = l.chunk
  columns : headDim = l.headDim
  coeff : rotaryCoeff = 2 * l.groups
  dims : x.dims = [(l.tokens : Int), (l.headDim : Int) * l.heads]
  divided : Bounded.div ((l.headDim : Int) * l.heads) l.headDim = .ok l.heads

theorem Spans.prod_extents {rotaryCoeff tokens headDim : Int} {x : Shape} {l : Sizes}
    (spans : Spans rotaryCoeff tokens headDim x l) :
    x.extents.prod = l.tokens * (l.heads * l.headDim) := by
  have pair : x.dims = [(l.tokens : Int), (l.headDim * l.heads : Nat)] := by
    rw [spans.dims, Nat.cast_mul]
  rw [Shape.prod_extents_pair pair, Nat.mul_comm l.headDim]

/-- What inference admits has sizes, if halves of groups are counted in whole numbers. -/
theorem Admits.spans {rotaryCoeff tokens headDim : Int} {q k cos sin x : Shape}
    (admits : Admits rotaryCoeff tokens headDim q k cos sin) (even : rotaryCoeff.tmod 2 = 0)
    (rotates : Rotates tokens headDim x) (known : x.Resolved) :
    ∃ l, Spans rotaryCoeff tokens headDim x l := by
  obtain ⟨heads, dims, divided⟩ := rotates
  have positive := admits.positive
  have some := admits.some
  have rows : 0 ≤ tokens := known tokens (by simp [dims])
  have columns : 0 ≤ headDim * heads := known _ (by simp [dims])
  have counted : 0 ≤ heads := nonneg_of_mul_nonneg_right columns positive
  obtain ⟨groups, rfl⟩ := Int.dvd_of_tmod_eq_zero even
  obtain ⟨chunk, rfl⟩ := admits.groups
  have pairs : 0 ≤ chunk := nonneg_of_mul_nonneg_right (Int.le_of_lt positive) some
  lift tokens to Nat using rows
  lift heads to Nat using counted
  lift groups to Nat using by omega
  lift chunk to Nat using pairs
  let l : Sizes := ⟨tokens, heads, groups, chunk⟩
  have headDim : (2 * groups * chunk : Int) = l.headDim := by
    simp only [l, Sizes.headDim, Nat.cast_mul, Nat.cast_ofNat]
    rw [Int.mul_comm 2, Int.mul_assoc]
  refine ⟨l, rfl, Int.mul_tdiv_cancel_left _ (by omega), headDim, rfl, ?_, ?_⟩
  · rw [dims, headDim]
  · rw [← headDim]
    exact divided

/-- A rotation of f32 tensors that setup has let through. -/
structure Given (rotaryCoeff : Int) (launch : Launch) : Prop where
  param : launch.param = .rope rotaryCoeff
  even : rotaryCoeff.tmod 2 = 0
  floats : ∀ b ∈ launch.inputs, b.desc.dtype = .f32
  resolved : ∀ b ∈ launch.inputs ++ launch.outputs, b.desc.shape.Resolved
  few : ∀ b ∈ launch.inputs ++ launch.outputs, b.desc.shape.extents.prod < 2 ^ 32

/-- The dispatch rotates an input into the output of the same place. -/
structure Rotation (rotaryCoeff : Int) (launch : Launch) (index : Nat) (l : Sizes)
    (d : Dispatch) : Prop where
  /-- A group holds the elements of two chunks. -/
  coeff : rotaryCoeff = 2 * l.groups
  apart : ∀ u w, l.member u 1 w = l.member u 0 w + l.chunk
  chunk : 0 < l.chunk
  rows : ∃ x, launch.inputs[index]? = some x ∧
    x.desc.shape.dims = [(l.tokens : Int), l.headDim * l.heads]
  tables : ∀ table ∈ launch.inputs.drop 2, table.desc.shape.dims = [(l.tokens : Int), l.headDim]
  tensors : d.tensors.map some = [launch.inputs[index]?, launch.inputs[2]?, launch.inputs[3]?,
    launch.outputs[index]?].map (Option.map Binding.span)
  sized : l.Sized (Span.elementsAt d.tensors)
  follows : ∀ integers, d.Follows integers 3 l.addressing
  /-- Pairs have every element of the output, each of them once. -/
  pairs : ((List.range d.threads).flatMap l.pair).Perm (List.range (Span.elementsAt d.tensors 4))

/-- A thread rotates two elements. -/
theorem Rotation.two_threads {rotaryCoeff : Int} {launch : Launch} {index : Nat} {l : Sizes}
    {d : Dispatch} (rotation : Rotation rotaryCoeff launch index l d) {x : Binding}
    (rows columns : Nat) (atX : launch.inputs[index]? = some x)
    (dims : x.desc.shape.dims = [(rows : Int), (columns : Int)]) :
    2 * d.threads = rows * columns := by
  obtain ⟨y, atY, same⟩ := rotation.rows
  obtain rfl := Option.some.inj (atX.symm.trans atY)
  rw [dims] at same
  simp only [List.cons.injEq, and_true, ← Int.natCast_mul, Int.natCast_inj] at same
  obtain ⟨rfl, rfl⟩ := same
  rw [(rotation.follows fun _ _ => 0).threads, Sizes.grid_prod, Sizes.headDim]
  simp only [Nat.mul_comm, Nat.mul_assoc]

namespace Given

variable {rotaryCoeff : Int} {launch : Launch} {inferred : List TensorDesc}
  (given : Given rotaryCoeff launch) (accepted : launch.Accepted inferred)
include given accepted

theorem admits : ∃ q k cos sin qOut kOut tokens headDim, launch.inputs = [q, k, cos, sin] ∧
    launch.outputs = [qOut, kOut] ∧ inferred = [q.desc, k.desc] ∧
      Admits rotaryCoeff tokens headDim q.desc.shape k.desc.shape cos.desc.shape
        sin.desc.shape := by
  obtain ⟨-, infers⟩ := Operator.infer_ok accepted.infers
  rw [given.param] at infers
  obtain ⟨_, _, _, _, tokens, headDim, read, rfl, admits⟩ := infer_ok infers
  simp only [List.map_eq_cons_iff, List.map_eq_nil_iff] at read
  obtain ⟨q, _, inputs, rfl, k, _, rfl, rfl, cos, _, rfl, rfl, sin, _, rfl, rfl, rfl⟩ := read
  obtain ⟨qOut, kOut, outputs⟩ := List.length_eq_two.mp accepted.outputs.length_eq
  exact ⟨q, k, cos, sin, qOut, kOut, tokens, headDim, inputs, outputs, rfl, admits⟩

theorem floats_all : ∀ b ∈ launch.inputs ++ launch.outputs, b.desc.dtype = .f32 := by
  obtain ⟨q, k, cos, sin, qOut, kOut, -, -, inputs, outputs, rfl, -⟩ := given.admits accepted
  have same := accepted.outputs
  simp only [outputs, List.forall₂_cons, List.forall₂_nil_left_iff, and_true] at same
  have query := given.floats q (by simp [inputs])
  have key := given.floats k (by simp [inputs])
  simp only [List.forall_mem_append, outputs, List.forall_mem_cons, List.not_mem_nil,
    false_imp_iff, implies_true, and_true]
  exact ⟨given.floats, same.1.1.trans query, same.2.1.trans key⟩

theorem measured : launch.Measured :=
  ⟨fun b member => .inl (given.floats_all accepted b member), given.resolved, given.few⟩

/-- The bound ranges hold the rows, the tables and the rotated rows. -/
theorem sized {l : Sizes} {cos sin x out : Binding} {index : Nat}
    (tables : ∀ table ∈ [cos, sin], table ∈ launch.inputs ∧
      table.desc.shape.extents.prod = l.tokens * l.headDim)
    (elements : x.desc.shape.extents.prod = l.tokens * (l.heads * l.headDim))
    (atX : launch.inputs[index]? = some x) (atOut : launch.outputs[index]? = some out)
    (atDesc : inferred[index]? = some x.desc) :
    l.Sized (Span.elementsAt ([x, cos, sin, out].map Binding.span)) := by
  have measured := given.measured accepted
  have isX := List.mem_append_left launch.outputs (List.mem_of_getElem? atX)
  have angles (table : Binding) (member : table ∈ [cos, sin]) :
      table.span.elements = l.tokens * l.headDim :=
    (measured.elements_eq accepted (List.mem_append_left _ (tables table member).1)).trans
      (tables table member).2
  refine ⟨?_, angles cos (by simp), angles sin (by simp), ?_, fun binding beyond => ?_⟩
  · exact (measured.elements_eq accepted isX).trans elements
  · exact (measured.output_elements accepted atOut atDesc (given.resolved x isX)).trans elements
  · exact Span.elementsAt_of_length_lt (by simpa using beyond)

/-- The dispatch of either tensor rotates it. -/
theorem rotation {q k cos sin : Binding} {tokens headDim : Int}
    (admits : Admits rotaryCoeff tokens headDim q.desc.shape k.desc.shape cos.desc.shape
      sin.desc.shape) (inputs : launch.inputs = [q, k, cos, sin]) (some : 0 < tokens)
    (index : Nat) {x out : Binding} (atX : launch.inputs[index]? = .some x)
    (atOut : launch.outputs[index]? = .some out) (atDesc : inferred[index]? = .some x.desc)
    (rotates : Rotates tokens headDim x.desc.shape) : ∃ l d,
      dispatch headDim (headDim.tdiv rotaryCoeff) x cos sin out = .ok d ∧
        Rotation rotaryCoeff launch index l d := by
  have isX := List.mem_append_left launch.outputs (List.mem_of_getElem? atX)
  have known := given.resolved x isX
  obtain ⟨l, spans⟩ := admits.spans given.even rotates known
  have elements := spans.prod_extents
  obtain ⟨rfl, chunk, rfl, coeff, dims, divided⟩ := spans
  have positive := admits.positive
  have tables : ∀ table ∈ [cos, sin], table ∈ launch.inputs ∧
      table.desc.shape.extents.prod = l.tokens * l.headDim := by
    simp only [List.forall_mem_cons, List.not_mem_nil, false_imp_iff, implies_true, and_true]
    exact ⟨⟨by simp [inputs], Shape.prod_extents_pair admits.cos⟩,
      ⟨by simp [inputs], Shape.prod_extents_pair admits.sin⟩⟩
  have rowsFew := given.few x isX
  have tablesFew := given.few cos (by simp [inputs])
  rw [elements] at rowsFew
  rw [Shape.prod_extents_pair admits.cos] at tablesFew
  have sized := given.sized accepted tables elements atX atOut atDesc
  obtain ⟨kernel, typed, answers⟩ := Sizes.dispatch_answers ⟨known,
    accepted.fits _ (List.mem_of_getElem? atDesc), dims, divided, Int.natCast_pos.mp some,
    Int.natCast_pos.mp positive, rowsFew, tablesFew⟩ cos sin out
  have follows := Sizes.dispatched_follows typed sized rowsFew
  refine ⟨l, _, chunk ▸ answers, coeff, l.member_one, ?_, ⟨x, atX, dims⟩, ?_, ?_, sized, follows,
    Sizes.pairs_perm (follows fun _ _ => 0)⟩
  · exact Nat.pos_of_mul_pos_left (Nat.pos_of_mul_pos_left (Int.natCast_pos.mp positive))
  · simp [inputs, admits.cos, admits.sin]
  · rw [atX, atOut, inputs]
    rfl

/-- An output that is not empty has rows. -/
theorem rows_pos (written : launch.outputs.all (·.bytes = 0) = false) {q k cos sin : Binding}
    {tokens headDim : Int} (inputs : launch.inputs = [q, k, cos, sin])
    (admits : Admits rotaryCoeff tokens headDim q.desc.shape k.desc.shape cos.desc.shape
      sin.desc.shape) (descs : inferred = [q.desc, k.desc]) : 0 < tokens := by
  obtain ⟨desc, member, nonzero⟩ := accepted.nonempty written
  have positive {x : Binding} (input : x ∈ launch.inputs) (same : desc = x.desc)
      (rotates : Rotates tokens headDim x.desc.shape) : 0 < tokens := by
    subst same
    obtain ⟨heads, dims, -⟩ := rotates
    exact TensorDesc.one_le_of_written (given.resolved x (List.mem_append_left _ input))
      (accepted.fits _ member) nonzero tokens (by simp [dims])
  rw [descs, List.mem_pair] at member
  rcases member with query | key
  · exact positive (by simp [inputs]) query admits.query
  · exact positive (by simp [inputs]) key admits.key

/-- The family's plan has a dispatch for either tensor. -/
theorem planFamily_answers (written : launch.outputs.all (·.bytes = 0) = false) :
    ∃ dq dk lq lk, launch.planFamily = .ok [dq, dk] ∧ Rotation rotaryCoeff launch 0 lq dq ∧
      Rotation rotaryCoeff launch 1 lk dk := by
  obtain ⟨q, k, cos, sin, qOut, kOut, tokens, headDim, inputs, outputs, descs, admits⟩ :=
    given.admits accepted
  have some := given.rows_pos accepted written inputs admits descs
  obtain ⟨lq, dq, answersQ, query⟩ := given.rotation accepted admits inputs some 0
    (by rw [inputs]; rfl) (by rw [outputs]; rfl) (by rw [descs]; rfl) admits.query
  obtain ⟨lk, dk, answersK, key⟩ := given.rotation accepted admits inputs some 1
    (by rw [inputs]; rfl) (by rw [outputs]; rfl) (by rw [descs]; rfl) admits.key
  refine ⟨dq, dk, lq, lk, ?_, query, key⟩
  have columns : dim cos 1 = .ok headDim := dim_eq_ok.mpr (by rw [admits.cos]; rfl)
  have chunk := exactly_eq_ok.mpr admits.divided
  have floats : expectF32 launch = .ok () := expectF32_eq_ok.mpr (given.floats_all accepted)
  simp only [Launch.planFamily, given.param, plan, inputs, outputs, given.even, ne_eq,
    not_true_eq_false, if_false]
  exact Answer.bind_eq_ok.mpr ⟨_, floats, Answer.bind_eq_ok.mpr ⟨q, rfl, Answer.bind_eq_ok.mpr
    ⟨k, rfl, Answer.bind_eq_ok.mpr ⟨cos, rfl, Answer.bind_eq_ok.mpr ⟨sin, rfl,
      Answer.bind_eq_ok.mpr ⟨_, columns, Answer.bind_eq_ok.mpr ⟨_, chunk,
        Answer.bind_eq_ok.mpr ⟨qOut, rfl, Answer.bind_eq_ok.mpr ⟨kOut, rfl,
          Answer.bind_eq_ok.mpr ⟨_, answersQ, Answer.bind_eq_ok.mpr ⟨_, answersK, rfl⟩⟩⟩⟩⟩⟩⟩⟩⟩⟩⟩

end Given

/-- A rotation of tensors that inference has accepted is planned as two dispatches, whose threads
rotate every element of both outputs, unless both outputs are empty. -/
theorem rotary_traces {rotaryCoeff : Int} {launch : Launch} {inferred : List TensorDesc}
    (accepted : launch.Accepted inferred) (given : Given rotaryCoeff launch) :
    (∀ out ∈ launch.outputs, out.span.elements = 0) ∧ launch.plan = .ok [] ∨
      ∃ dq dk lq lk, launch.plan = .ok [dq, dk] ∧ Rotation rotaryCoeff launch 0 lq dq ∧
        Rotation rotaryCoeff launch 1 lk dk := by
  have plain (index : Nat) : launch.param.acceptedFormats index = [.rowMajor] := by
    rw [given.param]
    rfl
  have kept : ∀ desc ∈ inferred, ∃ b ∈ launch.inputs, desc.format = b.desc.format := by
    obtain ⟨q, k, _, _, -, -, -, -, inputs, -, rfl, -⟩ := given.admits accepted
    simp only [inputs, List.forall_mem_cons, List.not_mem_nil, false_imp_iff, implies_true, and_true]
    exact ⟨⟨q, by simp, rfl⟩, ⟨k, by simp, rfl⟩⟩
  cases empty : launch.outputs.all (·.bytes = 0) with
  | true =>
    refine .inl ⟨fun out member => ?_, ?_⟩
    · have none : out.bytes = 0 := by simpa using List.all_eq_true.mp empty out member
      show out.bytes / 4 = 0
      rw [none]
    · rw [Launch.plan, accepted.untiled plain kept]
      simp only [empty, if_true]
  | false =>
    rw [accepted.plan_eq plain kept empty]
    exact .inr (given.planFamily_answers accepted empty)

/-- Two tokens with two query heads and one key head of two rotation groups each. -/
def sharedKey : Launch :=
  let rows (columns : Nat) (ptr : Address) : Binding :=
    ⟨.rowMajor .f32 ⟨[2, columns]⟩, ptr, 8 * columns⟩
  ⟨"rotate", .rope 4, [rows 16 0, rows 8 128, rows 8 192, rows 8 256], [rows 16 320, rows 8 448],
    none⟩

/-- Sixteen threads rotate the queries, and eight the keys. -/
theorem shared_key_rotary_traces : ∃ dq dk lq lk, sharedKey.plan = .ok [dq, dk] ∧
    dq.threads = 16 ∧ dk.threads = 8 ∧ Rotation 4 sharedKey 0 lq dq ∧
      Rotation 4 sharedKey 1 lk dk := by
  have accepted : sharedKey.Accepted (sharedKey.outputs.map Binding.desc) :=
    ⟨by decide, by decide, by decide, by decide, by decide⟩
  have given : Given 4 sharedKey := ⟨rfl, by decide, by decide, by decide, by decide⟩
  rcases rotary_traces accepted given with ⟨empty, -⟩ | ⟨dq, dk, lq, lk, planned, query, key⟩
  · exact absurd empty (by decide)
  · refine ⟨dq, dk, lq, lk, planned, ?_, ?_, query, key⟩
    · have pairs := query.two_threads 2 16 rfl rfl
      omega
    · have pairs := key.two_threads 2 8 rfl rfl
      omega

end Rope

end OperatorGraph
