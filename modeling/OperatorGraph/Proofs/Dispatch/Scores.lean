import OperatorGraph.Dispatch.Attention
import OperatorGraph.Proofs.Shader.Threads

set_option autoImplicit false

namespace OperatorGraph.SelfAttention

open Shader Stmt

/-- The rows that a thread works on: its query and score rows start at `query` and `slots`, its key
rows are the `visible` ones from row `start` on. -/
structure View where
  headDim : Nat
  kvHeads : Nat
  kvHead : Nat
  start : Nat
  visible : Nat
  query : Nat
  slots : Nat

namespace View

/-- Where the head's part of a key or value row starts. -/
def keyRow (v : View) (j : Nat) : Nat :=
  (v.start + j) * (v.kvHeads * v.headDim) + v.kvHead * v.headDim

def scoreAccesses (v : View) (j : Nat) : List Access :=
  ((List.range v.headDim).flatMap fun e =>
    [.read (.tensor 1) (v.query + e), .read (.tensor 2) (v.keyRow j + e)]) ++
    [.write 5 (v.slots + j)]

def weighAccesses (v : View) (j : Nat) : List Access :=
  [.read (.tensor 5) (v.slots + j), .write 5 (v.slots + j)]

def mixAccesses (v : View) (e : Nat) : List Access :=
  ((List.range v.visible).flatMap fun j =>
    [.read (.tensor 5) (v.slots + j), .read (.tensor 3) (v.keyRow j + e)]) ++
    [.write 4 (v.query + e)]

/-- Everything that the thread reads and writes, in order. -/
def accesses (v : View) : List Access :=
  (List.range v.visible).flatMap v.scoreAccesses ++
    (List.range v.visible).flatMap v.weighAccesses ++
    (List.range v.headDim).flatMap v.mixAccesses

/-- The rows lie inside tensors with fewer elements than there are words. -/
structure Fits (v : View) (size : Nat → Nat) : Prop where
  headDim : v.headDim < 2 ^ 32
  visible : v.visible < 2 ^ 32
  query : v.query + v.headDim ≤ size 1 ∧ size 1 ≤ 2 ^ 32
  keys : ∀ j < v.visible, v.keyRow j + v.headDim ≤ size 2 ∧ size 2 ≤ 2 ^ 32
  values : ∀ j < v.visible, v.keyRow j + v.headDim ≤ size 3 ∧ size 3 ≤ 2 ^ 32
  output : v.query + v.headDim ≤ size 4 ∧ size 4 ≤ 2 ^ 32
  slots : v.slots + v.visible ≤ size 5 ∧ size 5 ≤ 2 ^ 32

variable {F : Type}

/-- The variables of the thread say which rows these are, and the tensors hold numbers. -/
structure Known (v : View) (u : Thread F) : Prop where
  headDim : u.vars "head_dim" = some (.word (UInt32.ofNat v.headDim))
  width : u.vars "kv_width" = some (.word (UInt32.ofNat (v.kvHeads * v.headDim)))
  kvHead : u.vars "kv_head" = some (.word (UInt32.ofNat v.kvHead))
  start : u.vars "kv_start" = some (.word (UInt32.ofNat v.start))
  visible : u.vars "visible" = some (.word (UInt32.ofNat v.visible))
  query : u.vars "q_row" = some (.word (UInt32.ofNat v.query))
  slots : u.vars "row" = some (.word (UInt32.ofNat v.slots))
  scale : ∃ x, u.vars "scale" = some (.real x)
  fits : v.Fits u.arrays.size
  reals : ∀ binding ∈ [1, 2, 3], ∀ i < u.arrays.size binding, ∃ x,
    u.arrays.cell binding i = .real x

/-- The variables that do not change once the rows are known. -/
def fixed : List String :=
  ["head_dim", "kv_width", "kv_head", "kv_start", "visible", "q_row", "row", "scale"]

namespace Known

variable {v : View} {u w : Thread F} (known : v.Known u)
include known

theorem keeps {names : List String} {tensors : List Nat} (kept : u.Keeps names tensors w)
    (apart : ∀ name ∈ fixed, name ∉ names) (unwritten : ∀ binding ∈ [1, 2, 3], binding ∉ tensors) :
    v.Known w := by
  have vars (name : String) (member : name ∈ fixed) : w.vars name = u.vars name :=
    kept.vars name (apart name member)
  refine ⟨?_, ?_, ?_, ?_, ?_, ?_, ?_, ?_, ?_, fun binding member i inside => ?_⟩
  · rw [vars _ (by decide), known.headDim]
  · rw [vars _ (by decide), known.width]
  · rw [vars _ (by decide), known.kvHead]
  · rw [vars _ (by decide), known.start]
  · rw [vars _ (by decide), known.visible]
  · rw [vars _ (by decide), known.query]
  · rw [vars _ (by decide), known.slots]
  · rw [vars _ (by decide)]
    exact known.scale
  · rw [kept.size]
    exact known.fits
  · rw [kept.size] at inside
    rw [kept.cell binding (unwritten binding member)]
    exact known.reals binding member i inside

theorem set (name : String) (apart : name ∉ fixed) (value : Value F) :
    v.Known (u.set name value) := by
  refine known.keeps (.counter name value u) (fun other member same => ?_) (by simp)
  rw [List.mem_singleton.mp same] at member
  exact apart member

theorem real {binding i : Nat} (member : binding ∈ [1, 2, 3]) (inside : i < u.arrays.size binding)
    {c : Context F} {index : Expr} (place : index.IsWord c u i)
    (small : u.arrays.size binding ≤ 2 ^ 32) :
    (Expr.tensor binding index).IsReal c u [.read (.tensor binding) i] :=
  .tensor place (Nat.lt_of_lt_of_le inside small) inside (known.reals binding member i inside)

end Known

end View

/-- One product of a score. -/
def dotRound : List Stmt :=
  [.addTo "score" (.tensor 1 (.var "q_row" + .var "e") * .tensor 2 (.var "k_row" + .var "e"))]

/-- One score. -/
def scoreRound : List Stmt :=
  [.bind "k_row" (.group (.var "kv_start" + .var "j") * .var "kv_width" +
      .var "kv_head" * .var "head_dim"),
    .declare "score" (.real "0.0"),
    .count .inline "e" 0 (.var "head_dim") dotRound,
    .mulBy "score" (.var "scale"),
    .store (.tensor 5) (.var "row" + .var "j") (.var "score"),
    .assign "peak" (.call "max" [.var "peak", .var "score"])]

variable {F : Type} {c : Context F} {v : View}

theorem dotRound_ends {u : Thread F} (known : v.Known u) {j e : Nat} (visible : j < v.visible)
    (inside : e < v.headDim)
    (row : u.vars "k_row" = some (.word (UInt32.ofNat (v.keyRow j))))
    (score : ∃ x, u.vars "score" = some (.real x)) :
    Ends c dotRound .next (u.set "e" (.word (UInt32.ofNat e))) fun w =>
      w.accesses = u.accesses ++
        [.read (.tensor 1) (v.query + e), .read (.tensor 2) (v.keyRow j + e)] ∧
      ∃ x, w.vars "score" = some (.real x) := by
  have inRound := known.set "e" (by decide) (.word (UInt32.ofNat e))
  obtain ⟨rows, smallRows⟩ := known.fits.query
  obtain ⟨keys, smallKeys⟩ := known.fits.keys j visible
  refine .addReal (.mul
    (inRound.real (by decide) (Nat.lt_of_lt_of_le (Nat.add_lt_add_left inside _) rows)
      (.add (.var inRound.query) (.var (by simp))) smallRows)
    (inRound.real (by decide) (Nat.lt_of_lt_of_le (Nat.add_lt_add_left inside _) keys)
      (.add (.var (by simp [row])) (.var (by simp))) smallKeys)) (by simpa using score)
    fun x => .nil ⟨?_, x, by simp⟩
  simp

/-- Scores follow each other in the slots of the thread. -/
theorem scoreRound_ends {u : Thread F} (known : v.Known u) {j : Nat} (visible : j < v.visible)
    (peak : ∃ x, u.vars "peak" = some (.real x)) :
    Ends c scoreRound .next (u.set "j" (.word (UInt32.ofNat j))) fun w =>
      w.accesses = u.accesses ++ v.scoreAccesses j ∧ (∃ x, w.vars "peak" = some (.real x)) ∧
      (∃ x, w.arrays.cell 5 (v.slots + j) = .real x) ∧
      ∀ i ≠ v.slots + j, w.arrays.cell 5 i = u.arrays.cell 5 i := by
  have inRound := known.set "j" (by decide) (.word (UInt32.ofNat j))
  refine .bindWord (v.keyRow j) (.add (.mul (.group (.add (.var inRound.start) (.var (by simp))))
    (.var inRound.width)) (.mul (.var inRound.kvHead) (.var inRound.headDim))) ?_
  refine .declareReal (.real _) fun x => ?_
  have begins := (inRound.set "k_row" (by decide) (.word (UInt32.ofNat (v.keyRow j)))).set "score"
    (by decide) (.real x)
  rw [Thread.after_nil]
  refine .count v.headDim (fun e w => w.accesses = u.accesses ++ (List.range e).flatMap
    (fun e => [.read (.tensor 1) (v.query + e), .read (.tensor 2) (v.keyRow j + e)]) ∧
      ∃ x, w.vars "score" = some (.real x)) (.var begins.headDim) known.fits.headDim ?_ ?_ ?_
  · simp
  · intro e inside w holds between
    obtain ⟨listed, score⟩ := holds
    have row : w.vars "k_row" = some (.word (UInt32.ofNat (v.keyRow j))) := by
      rw [between.vars "k_row" (by decide)]
      simp
    refine (dotRound_ends (begins.keeps between (by decide) (by decide)) visible inside row
      score).mono fun after ends => ⟨?_, ends.2⟩
    rw [ends.1, listed, List.range_succ, List.flatMap_append, List.flatMap_singleton,
      List.append_assoc]
  · intro w holds between
    obtain ⟨listed, score⟩ := holds
    have ends := begins.keeps between (by decide) (by decide)
    have counter : w.vars "j" = some (.word (UInt32.ofNat j)) := by
      rw [between.vars "j" (by decide)]
      simp
    have before : ∃ x, w.vars "peak" = some (.real x) := by
      rw [between.vars "peak" (by decide)]
      simpa using peak
    have others : w.arrays.cell 5 = u.arrays.cell 5 := between.cell 5 (by decide)
    obtain ⟨slots, smallSlots⟩ := ends.fits.slots
    have inside : v.slots + j < w.arrays.size 5 :=
      Nat.lt_of_lt_of_le (Nat.add_lt_add_left visible _) slots
    refine .mulReal (.var ends.scale) score fun y => ?_
    rw [Thread.after_nil]
    refine .store (n := v.slots + j) (.add (.var (by simp [ends.slots])) (.var (by simp [counter])))
      (Nat.lt_of_lt_of_le inside smallSlots) inside (.var (show _ = some (.real y) by simp)) ?_
    refine .assignReal (.max (.var (by simpa using before)) (.var (by simp)))
      fun z => .nil ⟨?_, ⟨z, by simp⟩, ⟨y, ?_⟩, fun i other => ?_⟩
    · simp [listed, View.scoreAccesses]
    · simp [Arrays.cell_store]
    · simp [Arrays.cell_store, other, others]

/-- One weight. -/
def weighRound : List Stmt :=
  [.bind "p" (.call "exp" [.tensor 5 (.var "row" + .var "j") - .var "peak"]),
    .store (.tensor 5) (.var "row" + .var "j") (.var "p"),
    .addTo "total" (.var "p")]

/-- Weights take the place of their scores. -/
theorem weighRound_ends {u : Thread F} (known : v.Known u) {j : Nat} (visible : j < v.visible)
    (peak : ∃ x, u.vars "peak" = some (.real x)) (total : ∃ x, u.vars "total" = some (.real x))
    (score : ∃ x, u.arrays.cell 5 (v.slots + j) = .real x) :
    Ends c weighRound .next (u.set "j" (.word (UInt32.ofNat j))) fun w =>
      w.accesses = u.accesses ++ v.weighAccesses j ∧ (∃ x, w.vars "total" = some (.real x)) ∧
      (∃ x, w.arrays.cell 5 (v.slots + j) = .real x) ∧
      ∀ i ≠ v.slots + j, w.arrays.cell 5 i = u.arrays.cell 5 i := by
  have inRound := known.set "j" (by decide) (.word (UInt32.ofNat j))
  obtain ⟨slots, smallSlots⟩ := known.fits.slots
  have inside : v.slots + j < u.arrays.size 5 :=
    Nat.lt_of_lt_of_le (Nat.add_lt_add_left visible _) slots
  have small := Nat.lt_of_lt_of_le inside smallSlots
  have slot :
      (Expr.var "row" + .var "j").IsWord c (u.set "j" (.word (UInt32.ofNat j))) (v.slots + j) :=
    .add (.var inRound.slots) (.var (by simp))
  refine .bindReal (.exp (.sub (.tensor slot small inside score) (.var (by simpa using peak))))
    fun x => ?_
  refine .store (n := v.slots + j) (.add (.var (by simp [known.slots])) (.var (by simp))) small
    inside (.var (show _ = some (.real x) by simp)) ?_
  refine .addReal (.var ⟨x, by simp⟩) (by simpa using total) fun y =>
    .nil ⟨?_, ⟨y, by simp⟩, ⟨x, ?_⟩, fun i other => ?_⟩
  · simp [View.weighAccesses]
  · simp [Arrays.cell_store]
  · simp [Arrays.cell_store, other]

/-- One product of a mixed element. -/
def sumRound : List Stmt :=
  [.addTo "acc" (.tensor 5 (.var "row" + .var "j") * .tensor 3
    (.group (.var "kv_start" + .var "j") * .var "kv_width" + .var "kv_head" * .var "head_dim" +
      .var "e"))]

/-- One mixed element. -/
def mixRound : List Stmt :=
  [.declare "acc" (.real "0.0"),
    .count .block "j" 0 (.var "visible") sumRound,
    .store (.tensor 4) (.var "q_row" + .var "e") (.var "acc" / .var "total")]

theorem sumRound_ends {u : Thread F} (known : v.Known u) {j e : Nat} (visible : j < v.visible)
    (inside : e < v.headDim) (element : u.vars "e" = some (.word (UInt32.ofNat e)))
    (acc : ∃ x, u.vars "acc" = some (.real x))
    (weight : ∃ x, u.arrays.cell 5 (v.slots + j) = .real x) :
    Ends c sumRound .next (u.set "j" (.word (UInt32.ofNat j))) fun w =>
      w.accesses = u.accesses ++
        [.read (.tensor 5) (v.slots + j), .read (.tensor 3) (v.keyRow j + e)] ∧
      ∃ x, w.vars "acc" = some (.real x) := by
  have inRound := known.set "j" (by decide) (.word (UInt32.ofNat j))
  obtain ⟨slots, smallSlots⟩ := known.fits.slots
  obtain ⟨values, smallValues⟩ := known.fits.values j visible
  have slot : v.slots + j < u.arrays.size 5 :=
    Nat.lt_of_lt_of_le (Nat.add_lt_add_left visible _) slots
  refine .addReal (.mul
    (.tensor (.add (.var inRound.slots) (.var (by simp))) (Nat.lt_of_lt_of_le slot smallSlots) slot
      weight)
    (inRound.real (by decide) (Nat.lt_of_lt_of_le (Nat.add_lt_add_left inside _) values)
      (.add (.add (.mul (.group (.add (.var inRound.start) (.var (by simp)))) (.var inRound.width))
        (.mul (.var inRound.kvHead) (.var inRound.headDim))) (.var (by simp [element])))
        smallValues))
    (by simpa using acc) fun x => .nil ⟨?_, x, by simp⟩
  simp

/-- Mixed elements go to the output row, one by one. -/
theorem mixRound_ends {u : Thread F} (known : v.Known u) {e : Nat} (inside : e < v.headDim)
    (total : ∃ x, u.vars "total" = some (.real x))
    (weights : ∀ j < v.visible, ∃ x, u.arrays.cell 5 (v.slots + j) = .real x) :
    Ends c mixRound .next (u.set "e" (.word (UInt32.ofNat e))) fun w =>
      w.accesses = u.accesses ++ v.mixAccesses e := by
  have inRound := known.set "e" (by decide) (.word (UInt32.ofNat e))
  refine .declareReal (.real _) fun x => ?_
  rw [Thread.after_nil]
  have begins := inRound.set "acc" (by decide) (.real x)
  refine .count v.visible (fun j w => w.accesses = u.accesses ++ (List.range j).flatMap
    (fun j => [.read (.tensor 5) (v.slots + j), .read (.tensor 3) (v.keyRow j + e)]) ∧
      ∃ x, w.vars "acc" = some (.real x)) (.var begins.visible) known.fits.visible ?_ ?_ ?_
  · simp
  · intro j visible w holds between
    obtain ⟨listed, acc⟩ := holds
    have element : w.vars "e" = some (.word (UInt32.ofNat e)) := by
      rw [between.vars "e" (by decide)]
      simp
    have weight : ∃ x, w.arrays.cell 5 (v.slots + j) = .real x := by
      rw [between.cell 5 (by decide)]
      exact weights j visible
    refine (sumRound_ends (begins.keeps between (by decide) (by decide)) visible inside element acc
      weight).mono fun after ends => ⟨?_, ends.2⟩
    rw [ends.1, listed, List.range_succ, List.flatMap_append, List.flatMap_singleton,
      List.append_assoc]
  · intro w holds between
    obtain ⟨listed, acc⟩ := holds
    have ends := begins.keeps between (by decide) (by decide)
    have element : w.vars "e" = some (.word (UInt32.ofNat e)) := by
      rw [between.vars "e" (by decide)]
      simp
    have sum : ∃ x, w.vars "total" = some (.real x) := by
      rw [between.vars "total" (by decide)]
      simpa using total
    obtain ⟨output, smallOutput⟩ := ends.fits.output
    have slot : v.query + e < w.arrays.size 4 :=
      Nat.lt_of_lt_of_le (Nat.add_lt_add_left inside _) output
    obtain ⟨y, quotient⟩ : (Expr.var "acc" / .var "total").IsReal c w [] :=
      .div (.var acc) (.var sum)
    refine .store (n := v.query + e) (.add (.var ends.query) (.var element))
      (Nat.lt_of_lt_of_le slot smallOutput) slot quotient (.nil ?_)
    simp [listed, View.mixAccesses]

/-- Between two rounds over the visible rows, all slots up to `k` hold numbers. -/
structure Filled (v : View) (trace : List Access) (name : String) (k : Nat) (w : Thread F) :
    Prop where
  listed : w.accesses = trace
  number : ∃ x, w.vars name = some (.real x)
  slots : ∀ j < k, ∃ x, w.arrays.cell 5 (v.slots + j) = .real x

/-- A thread that knows its rows reads and writes what it is to. -/
theorem mixBody_ends {u : Thread F} (known : v.Known u) (peak : ∃ x, u.vars "peak" = some (.real x))
    (scores : ∀ j < v.visible, ∃ x, u.arrays.cell 5 (v.slots + j) = .real x) :
    Ends c mixBody .next u fun w => w.accesses = u.accesses ++
      (List.range v.visible).flatMap v.weighAccesses ++
      (List.range v.headDim).flatMap v.mixAccesses := by
  refine .declareReal (.real _) fun x => ?_
  rw [Thread.after_nil]
  have begins := known.set "total" (by decide) (.real x)
  refine .count v.visible (fun k w => Filled v (u.accesses ++ (List.range k).flatMap v.weighAccesses)
    "total" v.visible w) (.var begins.visible) known.fits.visible ?_ ?_ ?_
  · exact ⟨by simp, ⟨x, by simp⟩, scores⟩
  · intro j visible w filled between
    have inRound := begins.keeps between (by decide) (by decide)
    have greatest : ∃ x, w.vars "peak" = some (.real x) := by
      rw [between.vars "peak" (by decide)]
      simpa using peak
    refine (weighRound_ends inRound visible greatest filled.number (filled.slots j visible)).mono ?_
    rintro after ⟨listed, total, here, others⟩
    refine ⟨?_, total, fun k small => ?_⟩
    · rw [listed, filled.listed, List.range_succ, List.flatMap_append, List.flatMap_singleton,
        List.append_assoc]
    · by_cases same : k = j
      · rw [same]
        exact here
      · rw [others _ (by omega)]
        exact filled.slots k small
  · intro w filled between
    have weighed := begins.keeps between (by decide) (by decide)
    refine .count v.headDim (fun e after => after.accesses = w.accesses ++
      (List.range e).flatMap v.mixAccesses) (.var weighed.headDim) known.fits.headDim (by simp) ?_ ?_
    · intro e inside after listed mixing
      have total : ∃ x, after.vars "total" = some (.real x) := by
        rw [mixing.vars "total" (by decide)]
        exact filled.number
      have weights : ∀ j < v.visible, ∃ x, after.arrays.cell 5 (v.slots + j) = .real x := by
        rw [mixing.cell 5 (by decide)]
        exact filled.slots
      refine (mixRound_ends (weighed.keeps mixing (by decide) (by decide)) inside total
        weights).mono fun final ends => ?_
      rw [ends, listed, List.range_succ, List.flatMap_append, List.flatMap_singleton,
        List.append_assoc]
    · intro after listed _
      refine .nil ?_
      rw [listed, filled.listed]

/-- A thread that knows its rows makes the accesses of its view. -/
theorem scores_ends {u : Thread F} (known : v.Known u)
    (peak : ∃ x, u.vars "peak" = some (.real x)) :
    Ends c (.count .block "j" 0 (.var "visible") scoreRound :: mixBody) .next u fun w =>
      w.accesses = u.accesses ++ v.accesses := by
  refine .count v.visible (fun k w => Filled v (u.accesses ++ (List.range k).flatMap v.scoreAccesses)
    "peak" k w) (.var known.visible) known.fits.visible ⟨by simp, peak, by simp⟩ ?_ ?_
  · intro j visible w filled between
    refine (scoreRound_ends (known.keeps between (by decide) (by decide)) visible
      filled.number).mono ?_
    rintro after ⟨listed, greatest, here, others⟩
    refine ⟨?_, greatest, fun k small => ?_⟩
    · rw [listed, filled.listed, List.range_succ, List.flatMap_append, List.flatMap_singleton,
        List.append_assoc]
    · by_cases same : k = j
      · rw [same]
        exact here
      · rw [others _ (by omega)]
        exact filled.slots k (by omega)
  · intro w filled between
    refine (mixBody_ends (known.keeps between (by decide) (by decide)) filled.number
      filled.slots).mono fun after listed => ?_
    rw [listed, filled.listed, View.accesses]
    simp only [List.append_assoc]

end OperatorGraph.SelfAttention
