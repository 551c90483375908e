import OperatorGraph.Proofs.Dispatch.Programs
import OperatorGraph.Proofs.Shader.Positions

set_option autoImplicit false

namespace OperatorGraph

open Dispatch Shader

namespace Program

/-- Where the launch parameters hold the rank or the size of the batch that their number depends
on. -/
def place? : Program → Option Nat
  | broadcast _ | copy => some 1
  | attention => some 4
  | scale | cast _ | map _ | gate | layerNorm _ | rmsNorm | matMul _ _ _ | softmax | gather _
  | rope => none

/-- How many launch parameters there are for a rank or a batch of a size. -/
def words : Program → Nat → Nat
  | cast _, _ | map _, _ => 1
  | scale, _ | gate, _ | softmax, _ => 2
  | layerNorm _, _ | rmsNorm, _ => 3
  | matMul _ _ _, _ | gather _, _ | rope, _ => 4
  | broadcast _, rank => 2 + 3 * rank
  | copy, rank => 4 + 3 * rank
  | attention, batch => 7 + 2 * batch

end Program

section

-- The rules below are read off the bodies of the programs.
attribute [local simp] Stmt.ConfinedAll Stmt.Confined Expr.Confined Expr.ConfinedArgs Expr.tensor
  Expr.thread Expr.asFloat Expr.confined_infoAt Function.call

variable {F : Type} {c : Context F} {size : Nat}

/-- Positions in three parts of the launch parameters, behind so many words, with a word for each
axis. -/
theorem axis_indexes (base : Nat) {words : Nat} (enough : base + 3 * size ≤ words) :
    (((OfNat.ofNat base : Expr) + .var "axis").Yields c (.counting "rank" ["i", "axis"] size)
        (Value.Indexes words)) ∧
      ((OfNat.ofNat base : Expr) + .var "rank" + .var "axis").Yields c
        (.counting "rank" ["i", "axis"] size) (Value.Indexes words) ∧
      ((OfNat.ofNat base : Expr) + 2 * .var "rank" + .var "axis").Yields c
        (.counting "rank" ["i", "axis"] size) (Value.Indexes words) := by
  have axis : (Expr.var "axis").Yields c (.counting "rank" ["i", "axis"] size)
      (Value.Below size) := .place (by decide)
  have skips : (2 * .var "rank" : Expr).Yields c (.counting "rank" ["i", "axis"] size)
      (Value.Below (2 * size + 1)) := .mul (.literal 2) .totalBelow
  refine ⟨?_, ?_, ?_⟩
  · exact (Expr.Yields.add (.literal base) axis).indexes (by omega)
  · have second : ((OfNat.ofNat base : Expr) + .var "rank").Yields c
        (.counting "rank" ["i", "axis"] size) (Value.Below (base + size + 1)) :=
      .add (k := size + 1) (.literal base) .totalBelow
    exact (second.add axis).indexes (by omega)
  · have third : ((OfNat.ofNat base : Expr) + 2 * .var "rank").Yields c
        (.counting "rank" ["i", "axis"] size) (Value.Below (base + 2 * size + 1)) :=
      .add (k := 2 * size + 1) (.literal base) skips
    exact (third.add axis).indexes (by omega)

section

variable (sized : c.info[1]? = some (UInt32.ofNat size)) (small : size < 2 ^ 32)
include sized small

/-- What loops over the rank begin with. -/
theorem rank_counted :
    (Expr.info 1).Yields c (.counting "rank" ["i", "axis"] size)
        (Facts.counting "rank" ["i", "axis"] size "rank") ∧
      (Expr.var "rank").Yields c (.counting "rank" ["i", "axis"] size)
        (Facts.Counts (.counting "rank" ["i", "axis"] size) "i") ∧
      (Expr.var "rank" - 1 - .var "i").Yields c (.counting "rank" ["i", "axis"] size)
        (Facts.counting "rank" ["i", "axis"] size "axis") :=
  ⟨.toTotal (.info sized) (by decide), .counts (by decide),
    .toPlace (.reversed small (by decide)) (by decide)⟩

theorem StridedCopy.confined :
    Stmt.ConfinedAll c (.counting "rank" ["i", "axis"] size) (4 + 3 * size) body := by
  have inside (position : Nat) (fixed : position < 4) : (Expr.info position).Confined c
      (.counting "rank" ["i", "axis"] size) (4 + 3 * size) := Expr.confined_info (by omega)
  simp [body, inside, rank_counted sized small, axis_indexes 4 (Nat.le_refl (4 + 3 * size))]

theorem Elementwise.broadcast_confined (op : BinaryOp) :
    Stmt.ConfinedAll c (.counting "rank" ["i", "axis"] size) (2 + 3 * size)
      (broadcastBody op) := by
  have inside : (Expr.info 1).Confined c (.counting "rank" ["i", "axis"] size) (2 + 3 * size) :=
    Expr.confined_info (by omega)
  simp [broadcastBody, inside, rank_counted sized small,
    axis_indexes 2 (Nat.le_refl (2 + 3 * size))]

end

theorem SelfAttention.confined (sized : c.info[4]? = some (UInt32.ofNat size)) :
    Stmt.ConfinedAll c (.counting "batch" ["b"] size) (7 + 2 * size) body := by
  have inside (position : Nat) (fixed : position < 7) : (Expr.info position).Confined c
      (.counting "batch" ["b"] size) (7 + 2 * size) := Expr.confined_info (by omega)
  have batch : (Expr.info 4).Yields c (.counting "batch" ["b"] size)
      (Facts.counting "batch" ["b"] size "batch") := .toTotal (.info sized) (by decide)
  have rounds : (Expr.var "batch").Yields c (.counting "batch" ["b"] size)
      (Facts.Counts (.counting "batch" ["b"] size) "b") := .counts (by decide)
  have entry : (Expr.var "b").Yields c (.counting "batch" ["b"] size) (Value.Below size) :=
    .place (by decide)
  have offsets : (7 + .var "b" : Expr).Yields c (.counting "batch" ["b"] size)
      (Value.Indexes (7 + 2 * size)) :=
    (Expr.Yields.add (.literal 7) entry).indexes (by omega)
  have skips : (7 + .var "batch" : Expr).Yields c (.counting "batch" ["b"] size)
      (Value.Below (7 + size + 1)) := .add (k := size + 1) (.literal 7) .totalBelow
  have lengths : (7 + .var "batch" + .var "b" : Expr).Yields c (.counting "batch" ["b"] size)
      (Value.Indexes (7 + 2 * size)) := (skips.add entry).indexes (by omega)
  simp [body, scanBody, scoreBody, mixBody, inside, batch, rounds, offsets, lengths]

namespace Program

variable {program : Program}

theorem confined_none (fixed : program.place? = none) :
    Stmt.ConfinedAll c .none (program.words size) program.body := by
  cases program with
  | broadcast _ | copy | attention => simp [place?] at fixed
  | scale => simp [words, body, Elementwise.scaleBody]
  | cast type => simp [words, body, Elementwise.castBody]
  | map kind => simp [words, body, Activation.mapBody]
  | gate => simp [words, body, Activation.gateBody]
  | layerNorm withStats =>
    cases withStats <;>
      simp [words, body, LayerNorm.body, LayerNorm.statsBody, rowItem, storeRowItem, overColumns]
  | rmsNorm => simp [words, body, RmsNorm.body, rowItem, storeRowItem, overColumns]
  | matMul transposeA transposeB hasBias =>
    cases transposeA <;> cases transposeB <;> cases hasBias <;>
      simp [words, body, MatMul.body, MatMul.lhsIndex, MatMul.rhsIndex]
  | softmax => simp [words, body, Softmax.body, rowItem, storeRowItem, overColumns]
  | gather type => simp [words, body, Gather.body]
  | rope => simp [words, body, Rope.body]

theorem functions_silent : ∀ f ∈ program.functions, f.Silent := by
  have activation (kind : Activation) : kind.function.Silent := by
    refine Function.silent_of_confined rfl fun c => ?_
    cases kind <;> simp [Activation.formula]
  intro f member
  cases program with
  | map kind => exact List.mem_singleton.mp member ▸ activation kind
  | gate => exact List.mem_singleton.mp member ▸ activation .swiglu
  | _ => simp [functions] at member

end Program

end

namespace Program

/-- The launch parameters hold a rank or the size of a batch where the program looks for it. -/
def Sized (program : Program) (size : Nat) (info : List UInt32) : Prop :=
  ∀ place, program.place? = some place → info[place]? = some (UInt32.ofNat size)

variable {program : Program} {size : Nat} {info : List UInt32}

theorem Sized.at_place {place : Nat} (known : program.place? = some place)
    (holds : info[place]? = some (UInt32.ofNat size)) : program.Sized size info := by
  intro other same
  rw [known] at same
  exact Option.some.inj same ▸ holds

theorem words_pos (program : Program) (size : Nat) : 0 < program.words size := by
  cases program <;> simp only [words] <;> omega

/-- No thread of a program asks for a launch parameter behind those that it has. -/
theorem asks_lt (sized : program.Sized size info) (small : size < 2 ^ 32) {types : List String}
    {position : Nat} (asks : (program.kernel types).Asks info position) :
    position < program.words size := by
  refine Kernel.asks_lt rfl functions_silent (words_pos program size) (fun {F} m => ?_) asks
  let c : Context F := (program.kernel types).context m info
  have free (fixed : program.place? = none) : ∃ facts : Facts F, (∀ n, facts "index" (.word n)) ∧
      Stmt.ConfinedAll c facts (program.words size) program.body :=
    ⟨.none, fun _ => trivial, confined_none fixed⟩
  cases program with
  | broadcast op =>
    refine ⟨.counting "rank" ["i", "axis"] size, fun n => by simp, ?_⟩
    exact Elementwise.broadcast_confined (c := c) (sized 1 rfl) small op
  | copy =>
    refine ⟨.counting "rank" ["i", "axis"] size, fun n => by simp, ?_⟩
    exact StridedCopy.confined (c := c) (sized 1 rfl) small
  | attention =>
    refine ⟨.counting "batch" ["b"] size, fun n => by simp, ?_⟩
    exact SelfAttention.confined (c := c) (sized 4 rfl)
  | _ => exact free rfl

end Program

end OperatorGraph
