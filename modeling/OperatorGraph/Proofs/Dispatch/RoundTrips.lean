import OperatorGraph.Proofs.Dispatch.Transposing
import OperatorGraph.Proofs.Dispatch.Splitting
import OperatorGraph.Proofs.Dispatch.Joining

set_option autoImplicit false

namespace OperatorGraph

open Dispatch Shader RowMajor

/-- Operators that rearrange the elements of their inputs. -/
def Operator.Rearranging : Operator → Prop
  | .transpose _ | .split _ _ | .concat _ => True
  | _ => False

/-- One operator takes back what another one has done to a tensor. -/
inductive Operator.Undoes (x : TensorDesc) : Operator → Operator → Prop where
  | joined {axis other : Int} (same : x.shape.axis? other = x.shape.axis? axis) :
      Undoes x (.concat other) (.split axis 2)
  | transposed {perm back : List Nat}
      (inverse : ∀ i axis : Nat, perm[i]? = some axis → back[axis]? = some i) :
      Undoes x (.transpose back) (.transpose perm)

theorem Shape.axis?_congr {s t : Shape} (rank : s.rank = t.rank) (axis : Int) :
    s.axis? axis = t.axis? axis := by
  rw [axis?, axis?, rank]

namespace Split

variable {x : TensorDesc} {axis : Int} {parts : List TensorDesc}
  (infers : inferSplit axis 2 [x] = .ok parts)
include infers

/-- The two halves of a tensor. -/
theorem halves : ∃ position chunk, x.shape.axis? axis = some position ∧
    x.shape.dims[position]? = some (2 * chunk) ∧
    parts = [x.withShape ⟨x.shape.dims.set position chunk⟩,
      x.withShape ⟨x.shape.dims.set position chunk⟩] := by
  obtain ⟨other, position, whole, chunk, same, found, present, -, -, equal, -, rfl⟩ :=
    inferSplit_ok infers
  obtain rfl : x = other := by simpa using same
  rw [equal] at present
  exact ⟨position, chunk, found, present, rfl⟩

variable {other : Int} (same : x.shape.axis? other = x.shape.axis? axis)
include same

theorem joined_halves {whole : List TensorDesc} (joins : Concat.infer other parts = .ok whole) :
    whole = [x] := by
  obtain ⟨position, chunk, found, present, rfl⟩ := halves infers
  have rank : Shape.rank ⟨x.shape.dims.set position chunk⟩ = x.shape.rank := List.length_set ..
  obtain ⟨a, b, place, dims, read, -, named, -, joined, rfl⟩ := Concat.infer_ok joins
  simp only [List.cons.injEq, and_true] at read
  obtain ⟨rfl, rfl⟩ := read
  obtain rfl : position = place :=
    Option.some.inj
      (found.symm.trans (same.symm.trans ((Shape.axis?_congr rank other).symm.trans named)))
  obtain ⟨length, each⟩ := Concat.joinDims_ok joined rfl
  have count : dims.length = x.shape.dims.length := length.trans rank
  obtain rfl : dims = x.shape.dims := by
    refine List.ext_getElem count fun i small inside => Option.some.inj ?_
    rw [← List.getElem?_eq_getElem small, ← List.getElem?_eq_getElem inside]
    by_cases here : i = position
    · subst here
      have atHalf : (x.shape.dims.set i chunk)[i]? = some chunk := List.getElem?_set_self inside
      obtain ⟨dim, atDim, sum, -⟩ := each i chunk chunk atHalf atHalf
      rw [atDim, present, sum rfl, Int.two_mul]
    · have atHalf : (x.shape.dims.set position chunk)[i]? = some x.shape.dims[i] := by
        rw [List.getElem?_set_ne fun equal => here equal.symm, List.getElem?_eq_getElem inside]
      obtain ⟨dim, atDim, -, both⟩ := each i _ _ atHalf atHalf
      rw [atDim, (both here).1, List.getElem?_eq_getElem inside]
  rfl

/-- Elements of the joined halves are those of the whole. -/
theorem brings_joined {i : Nat} {c c' c'' : List Nat}
    (joins : Operator.Brings (.concat other) parts 0 c i c')
    (splits : Operator.Brings (.split axis 2) [x] i c' 0 c'') : c'' = c := by
  obtain ⟨position, chunk, found, present, rfl⟩ := halves infers
  have inside := (List.getElem?_eq_some_iff.mp present).1
  have rank : Shape.rank ⟨x.shape.dims.set position chunk⟩ = x.shape.rank := List.length_set ..
  cases splits with
  | @slice _ _ place whole _ named size =>
    obtain rfl : position = place := Option.some.inj (found.symm.trans named)
    obtain rfl := Option.some.inj (size.symm.trans (Shape.getElem?_extents present))
    cases joins with
    | front =>
      rw [Nat.zero_mul]
      exact List.modify_id ..
    | @back _ place size k _ _ _ namedHalf sized here behind =>
      obtain rfl : position = place := Option.some.inj (found.symm.trans
        (same.symm.trans ((Shape.axis?_congr rank other).symm.trans namedHalf)))
      have atHalf : (x.shape.dims.set position chunk)[position]? = some chunk :=
        List.getElem?_set_self inside
      obtain rfl := Option.some.inj (sized.symm.trans (Shape.getElem?_extents atHalf))
      have twice : 1 * ((2 * chunk).toNat / 2) = chunk.toNat := by omega
      rw [twice, modify_sub_add]
      intro coord atCoord
      obtain rfl := Option.some.inj (atCoord.symm.trans here)
      exact behind

end Split

namespace Transposition

variable {x : TensorDesc} {perm back : List Nat} {turned : List TensorDesc}
  (infers : infer perm [x] = .ok turned)
  (inverse : ∀ i axis : Nat, perm[i]? = some axis → back[axis]? = some i)
include infers inverse

/-- Transposed back, a tensor has its own shape. -/
theorem transposed_back {whole : List TensorDesc} (returns : infer back turned = .ok whole) :
    whole = [x] := by
  obtain ⟨y, dims, read, inside, nodup, length, permuted, rfl⟩ := infer_ok infers
  obtain rfl : x = y := by simpa using read
  obtain ⟨y, again, read, -, -, lengthBack, returned, rfl⟩ := infer_ok returns
  obtain rfl : x.withShape ⟨dims⟩ = y := by simpa using read
  have count : again.length = x.shape.dims.length := by
    rw [Answer.length_mapM returned, lengthBack]
    exact (Answer.length_mapM permuted).trans length
  obtain rfl : again = x.shape.dims := by
    refine List.ext_getElem count fun axis small atAxis => Option.some.inj ?_
    obtain ⟨i, dim, named, atDim, found⟩ := axis_of_source inside nodup length permuted atAxis
    have answer := Answer.getElem?_mapM returned axis
    rw [inverse i axis named, List.getElem?_eq_getElem small, Option.map_some, Option.map_some,
      Option.some.injEq, Inference.dimAt_eq_ok] at answer
    rw [← List.getElem?_eq_getElem atAxis, found, ← atDim]
    exact answer.symm
  rfl

/-- Elements of a tensor that is transposed back are those of the tensor. -/
theorem brings_back {i : Nat} {c c' c'' : List Nat} (rank : c.length = x.shape.rank)
    (returns : Operator.Brings (.transpose back) turned 0 c i c')
    (turns : Operator.Brings (.transpose perm) [x] i c' 0 c'') : c'' = c := by
  obtain ⟨y, dims, read, inside, nodup, length, permuted, rfl⟩ := infer_ok infers
  obtain rfl : x = y := by simpa using read
  cases returns with
  | transposed _ eachBack =>
    cases turns with
    | transposed count each =>
      refine List.ext_getElem? fun axis => ?_
      rcases Nat.lt_or_ge axis x.shape.rank with small | large
      · obtain ⟨i, -, named, -⟩ := axis_of_source inside nodup length permuted small
        rw [each i axis named, eachBack axis i (inverse i axis named)]
      · rw [List.getElem?_eq_none (by omega), List.getElem?_eq_none (by omega)]

end Transposition

theorem Operator.Undoes.rearranging {x : TensorDesc} {undo param : Operator}
    (undoes : undo.Undoes x param) : undo.Rearranging := by
  cases undoes <;> trivial

theorem Operator.Undoes.infers {x : TensorDesc} {undo param : Operator}
    {parts whole : List TensorDesc} (undoes : undo.Undoes x param)
    (infers : param.infer [x] = .ok parts) (again : undo.infer parts = .ok whole) : whole = [x] := by
  obtain ⟨-, infers⟩ := Operator.infer_ok infers
  obtain ⟨-, again⟩ := Operator.infer_ok again
  cases undoes with
  | joined same => exact Split.joined_halves infers same again
  | transposed inverse => exact Transposition.transposed_back infers inverse again

theorem Operator.Undoes.brings {x : TensorDesc} {undo param : Operator} {parts : List TensorDesc}
    (undoes : undo.Undoes x param) (infers : param.infer [x] = .ok parts) {i : Nat}
    {c c' c'' : List Nat} (rank : c.length = x.shape.rank) (second : undo.Brings parts 0 c i c')
    (first : param.Brings [x] i c' 0 c'') : c'' = c := by
  obtain ⟨-, infers⟩ := Operator.infer_ok infers
  cases undoes with
  | joined same => exact Split.brings_joined infers same second first
  | transposed inverse => exact Transposition.brings_back infers inverse rank second first

namespace Launch

/-- A launch that reads what another one has written. -/
structure Follows (second first : Launch) (inferred : List TensorDesc) : Prop where
  descs : second.inputs.map Binding.desc = inferred
  spans : second.inputs.map Binding.span = first.outputs.map Binding.span

variable {first : Launch} {inferred : List TensorDesc}

theorem rearranged (accepted : first.Accepted inferred) (movable : first.Movable)
    (family : first.param.Rearranging) :
    ∃ ds, first.plan = .ok ds ∧ first.Rearranges inferred ds := by
  cases param : first.param with
  | transpose => exact Transposition.rearranged accepted movable param
  | split => exact Split.rearranged accepted movable param
  | concat => exact Concat.rearranged accepted movable param
  | _ =>
    rw [param] at family
    exact family.elim

theorem runEach_append {F : Type} (ds es : List Dispatch) (m : Arithmetic F)
    {held middle : Contents F} (ran : runEach ds m held = .ok middle) :
    runEach (ds ++ es) m held = runEach es m middle := by
  rw [runEach, List.foldlM_append]
  exact congrArg (· >>= _) ran

/-- What the second launch takes back stands where it did. -/
theorem Rearranges.undone {second : Launch} {x y : Binding} {ds es : List Dispatch}
    (accepted : first.Accepted inferred) (moved : first.Rearranges inferred ds)
    (back : second.Rearranges [x.desc] es) (follows : second.Follows first inferred)
    (undoes : second.param.Undoes x.desc first.param) (source : first.inputs = [x])
    (target : second.outputs = [y]) {F : Type} (m : Arithmetic F) (held : Contents F) :
    ∃ after, runEach (ds ++ es) m held = .ok after ∧
      ∀ i < x.desc.shape.extents.prod, after y.span i = held x.span i := by
  obtain ⟨middle, ran, movedBy, -⟩ := moved.brings m held
  obtain ⟨after, finished, backBy, -⟩ := back.brings m middle
  refine ⟨after, (runEach_append ds es m ran).trans finished, fun n below => ?_⟩
  have inside := inside_coordinate below
  obtain ⟨i, half, c', atHalf, insideHalf, second, value⟩ :=
    backBy 0 y x.desc _ (by rw [target]; rfl) rfl inside
  obtain ⟨out, atOut, sameSpan⟩ : ∃ out, first.outputs[i]? = some out ∧ out.span = half.span := by
    have spans := congrArg (·[i]?) follows.spans
    simp only [List.getElem?_map, atHalf, Option.map_some] at spans
    exact Option.map_eq_some_iff.mp spans.symm
  have atDesc : inferred[i]? = some half.desc := by
    rw [← follows.descs, List.getElem?_map, atHalf, Option.map_some]
  obtain ⟨k, input, c'', atInput, -, turned, first⟩ :=
    movedBy i out half.desc c' atOut atDesc insideHalf
  have infers := accepted.infers
  rw [source] at atInput turned infers
  obtain ⟨rfl, rfl⟩ : k = 0 ∧ input = x := by
    cases k with
    | zero => exact ⟨rfl, (Option.some.inj atInput).symm⟩
    | succ k => simp at atInput
  rw [follows.descs] at second
  obtain rfl := undoes.brings infers (by simp) second turned
  rw [position_coordinate below] at value first
  rw [value, ← sameSpan, first]

/-- A launch that transposes, splits or joins tensors of fewer elements than there are words is
planned. Its dispatches bring every element to its place, write each one once and read nothing
outside the inputs, and a launch that takes this back restores the tensor. -/
theorem rearrangement (accepted : first.Accepted inferred) (movable : first.Movable)
    (family : first.param.Rearranging) :
    ∃ ds, first.plan = .ok ds ∧ first.Rearranges inferred ds ∧
      ∀ {second : Launch} {whole : List TensorDesc} {x y : Binding}, second.Accepted whole →
        second.Movable → second.Follows first inferred → second.param.Undoes x.desc first.param →
        first.inputs = [x] → second.outputs = [y] →
          whole = [x.desc] ∧ ∃ es, second.plan = .ok es ∧
            ∀ {F : Type} (m : Arithmetic F) (held : Contents F), ∃ after,
              runEach (ds ++ es) m held = .ok after ∧
                ∀ i < x.desc.shape.extents.prod, after y.span i = held x.span i := by
  obtain ⟨ds, planned, moved⟩ := rearranged accepted movable family
  refine ⟨ds, planned, moved, fun again alsoMovable follows undoes source target => ?_⟩
  have infers := accepted.infers
  have returns := again.infers
  rw [source] at infers
  rw [follows.descs] at returns
  obtain rfl := undoes.infers infers returns
  obtain ⟨es, alsoPlanned, back⟩ := rearranged again alsoMovable undoes.rearranging
  exact ⟨rfl, es, alsoPlanned, fun m held =>
    moved.undone accepted back follows undoes source target m held⟩

/-- A matrix of two rows. -/
def matrixAt (columns : Nat) (ptr : Address) : Binding :=
  ⟨.rowMajor .f32 ⟨[2, columns]⟩, ptr, 8 * columns⟩

/-- Cuts a matrix along its rows. -/
def halving : Launch :=
  ⟨"halve", .split (-1) 2, [matrixAt 4 0], [matrixAt 2 32, matrixAt 2 48], none⟩

/-- Puts the halves side by side. -/
def joining : Launch :=
  ⟨"join", .concat 1, [matrixAt 2 32, matrixAt 2 48], [matrixAt 4 64], none⟩

/-- A matrix that is cut and put together again comes out as it was. -/
theorem halving_rearrangement : ∃ ds es, halving.plan = .ok ds ∧ joining.plan = .ok es ∧
    ∀ {F : Type} (m : Arithmetic F) (held : Contents F), ∃ after,
      runEach (ds ++ es) m held = .ok after ∧
        ∀ i < 8, after (matrixAt 4 64).span i = held (matrixAt 4 0).span i := by
  have accepted : halving.Accepted [(matrixAt 2 32).desc, (matrixAt 2 48).desc] :=
    ⟨by decide, by decide, by decide, by decide, by decide⟩
  have again : joining.Accepted [(matrixAt 4 64).desc] :=
    ⟨by decide, by decide, by decide, by decide, by decide⟩
  have before (columns others : Nat) (ptr other : Address) (ends : ptr + 8 * columns ≤ other)
      (whole : other + 8 * others ≤ 2 ^ 64) :
      (matrixAt columns ptr).span.Disjoint (matrixAt others other).span :=
    Span.disjoint_of_le ends whole
  have left := before 4 2 0 32 (by decide) (by decide)
  have right := before 4 2 0 48 (by decide) (by decide)
  have leftEnd := before 2 4 32 64 (by decide) (by decide)
  have rightEnd := before 2 4 48 64 (by decide) (by decide)
  have middle := before 2 2 32 48 (by decide) (by decide)
  have movable : halving.Movable :=
    ⟨by decide, by decide, by decide, by decide, by simp [halving, left, right],
      by simp [halving, middle]⟩
  have alsoMovable : joining.Movable :=
    ⟨by decide, by decide, by decide, by decide, by simp [joining, leftEnd, rightEnd],
      by simp [joining]⟩
  obtain ⟨ds, planned, -, back⟩ := rearrangement accepted movable trivial
  obtain ⟨-, es, alsoPlanned, restored⟩ :=
    back again alsoMovable ⟨rfl, rfl⟩ (.joined (by decide)) rfl rfl
  exact ⟨ds, es, planned, alsoPlanned, restored⟩

end Launch

end OperatorGraph
