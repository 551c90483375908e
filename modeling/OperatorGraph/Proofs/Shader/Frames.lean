import OperatorGraph.Proofs.Answers
import OperatorGraph.Shader.Run

set_option autoImplicit false

namespace OperatorGraph.Shader

variable {F : Type}

/-- What changes between two threads: some variables, and the elements of some tensors. -/
structure Thread.Keeps (names : List String) (tensors : List Nat) (before after : Thread F) :
    Prop where
  vars : ∀ name ∉ names, after.vars name = before.vars name
  size : after.arrays.size = before.arrays.size
  cell : ∀ binding ∉ tensors, after.arrays.cell binding = before.arrays.cell binding

namespace Thread.Keeps

variable {names : List String} {tensors : List Nat} {s t u : Thread F}

theorem refl (names : List String) (tensors : List Nat) (t : Thread F) : Keeps names tensors t t :=
  ⟨fun _ _ => rfl, rfl, fun _ _ => rfl⟩

theorem trans (first : Keeps names tensors s t) (second : Keeps names tensors t u) :
    Keeps names tensors s u := by
  refine ⟨fun name other => ?_, second.size.trans first.size, fun binding other => ?_⟩
  · exact (second.vars name other).trans (first.vars name other)
  · exact (second.cell binding other).trans (first.cell binding other)

theorem mono (kept : Keeps names tensors s t) {moreNames : List String} {moreTensors : List Nat}
    (inNames : names ⊆ moreNames) (inTensors : tensors ⊆ moreTensors) :
    Keeps moreNames moreTensors s t := by
  refine ⟨fun name other => ?_, kept.size, fun binding other => ?_⟩
  · exact kept.vars name fun member => other (inNames member)
  · exact kept.cell binding fun member => other (inTensors member)

theorem set (name : String) (value : Value F) (accesses : List Access) (t : Thread F) :
    Keeps [name] [] t ((t.after accesses).set name value) := by
  refine ⟨fun other different => ?_, rfl, fun _ _ => rfl⟩
  have apart : other ≠ name := by simpa using different
  simp only [Thread.set, Thread.after, if_neg apart]

theorem counter (name : String) (value : Value F) (t : Thread F) :
    Keeps [name] [] t (t.set name value) := by
  refine ⟨fun other different => ?_, rfl, fun _ _ => rfl⟩
  have apart : other ≠ name := by simpa using different
  simp only [Thread.set, if_neg apart]

end Thread.Keeps

namespace Stmt

mutual

/-- The variables that a statement may give a value. -/
def assigned : Stmt → List String
  | bind name _ | declare name _ | assign name _ | addTo name _ | mulBy name _ => [name]
  | count _ counter _ _ body => counter :: assignedAll body
  | when _ body => assignedAll body
  | store _ _ _ | leave | stop | blank => []

def assignedAll : List Stmt → List String
  | [] => []
  | first :: rest => first.assigned ++ assignedAll rest

end

mutual

/-- The tensors whose elements a statement may replace. -/
def stored : Stmt → List Nat
  | store (.tensor binding) _ _ => [binding]
  | count _ _ _ _ body | when _ body => storedAll body
  | store .info _ _ | bind _ _ | declare _ _ | assign _ _ | addTo _ _ | mulBy _ _ => []
  | leave | stop | blank => []

def storedAll : List Stmt → List Nat
  | [] => []
  | first :: rest => first.stored ++ storedAll rest

end

/-- A loop keeps what its rounds keep. -/
theorem rounds_keeps {body : Thread F → Except Trap (Flow × Thread F)} {counter : String}
    {names : List String} {tensors : List Nat}
    (each : ∀ t flow after, body t = .ok (flow, after) → t.Keeps names tensors after)
    {total : Nat} {value : UInt32} {t after : Thread F} {flow : Flow}
    (ran : rounds body counter total value t = .ok (flow, after)) :
    t.Keeps (counter :: names) tensors after := by
  induction total generalizing value t with
  | zero =>
    obtain ⟨rfl, rfl⟩ := Prod.mk.inj (Except.ok.inj ran)
    exact .refl _ _ _
  | succ total ih =>
    simp only [rounds, Answer.bind_eq_ok] at ran
    obtain ⟨⟨first, middle⟩, round, rest⟩ := ran
    have begins : t.Keeps (counter :: names) tensors (t.set counter (.word value)) :=
      (Thread.Keeps.counter counter _ t).mono (by simp) (by simp)
    have once : t.Keeps (counter :: names) tensors middle :=
      begins.trans ((each _ _ _ round).mono (by simp) (by simp))
    cases first with
    | next => exact once.trans (ih rest)
    | leave | stop =>
      obtain ⟨rfl, rfl⟩ := Prod.mk.inj (Except.ok.inj rest)
      exact once

theorem define_keeps {c : Context F} {name : String} {value : Expr} {t after : Thread F}
    {flow : Flow} (ran : define c t name value = .ok (flow, after)) : t.Keeps [name] [] after := by
  simp only [define, Answer.bind_eq_ok, Answer.pure_eq_ok, Prod.mk.injEq] at ran
  obtain ⟨⟨result, accesses⟩, -, -, rfl⟩ := ran
  exact .set ..

theorem update_keeps {c : Context F} {op : BinaryOp} {name : String} {value : Expr}
    {t after : Thread F} {flow : Flow} (ran : update c t op name value = .ok (flow, after)) :
    t.Keeps [name] [] after := by
  simp only [update, Answer.bind_eq_ok, Answer.pure_eq_ok, Prod.mk.injEq] at ran
  obtain ⟨⟨operand, accesses⟩, -, _, -, result, -, -, rfl⟩ := ran
  exact .set ..

theorem store_keeps {buffer : Buffer} {index : Nat} {value : Value F} {t after : Thread F}
    (ran : t.store buffer index value = .ok after) (place result : Expr) :
    t.Keeps [] (stored (.store buffer place result)) after := by
  cases buffer with
  | info => simp [Thread.store] at ran
  | tensor binding =>
    simp only [Thread.store] at ran
    split at ran
    · obtain rfl := Except.ok.inj ran
      refine ⟨fun _ _ => rfl, rfl, fun other different => ?_⟩
      have apart : other ≠ binding := by simpa [stored] using different
      funext i
      simp only [Arrays.cell_store, apart, false_and, if_false]
    · simp at ran

mutual

/-- A statement changes what its text assigns and stores to. -/
theorem run_keeps (c : Context F) (s : Stmt) (t : Thread F) {flow : Flow} {after : Thread F}
    (ran : s.run c t = .ok (flow, after)) : t.Keeps s.assigned s.stored after := by
  match s with
  | .bind name value | .declare name value | .assign name value => exact define_keeps ran
  | .addTo name value | .mulBy name value => exact update_keeps ran
  | .store buffer index value =>
    simp only [run, Answer.bind_eq_ok, Answer.pure_eq_ok, Prod.mk.injEq] at ran
    obtain ⟨⟨_, accesses⟩, -, ⟨_, more⟩, -, _, -, _, written, -, rfl⟩ := ran
    have kept := store_keeps written index value
    exact ⟨kept.vars, kept.size, kept.cell⟩
  | .count _ counter first bound body =>
    simp only [run, Answer.bind_eq_ok] at ran
    obtain ⟨⟨start, accesses⟩, -, ⟨finish, more⟩, -, ran⟩ := ran
    split at ran
    · have kept := rounds_keeps (fun inner flow after => runAll_keeps c body inner) ran
      exact ⟨kept.vars, kept.size, kept.cell⟩
    · simp at ran
  | .when condition body =>
    simp only [run, Answer.bind_eq_ok] at ran
    obtain ⟨⟨value, accesses⟩, -, ran⟩ := ran
    split at ran
    · have kept := runAll_keeps c body _ ran
      exact ⟨kept.vars, kept.size, kept.cell⟩
    · obtain ⟨rfl, rfl⟩ := Prod.mk.inj (Except.ok.inj ran)
      exact ⟨fun _ _ => rfl, rfl, fun _ _ => rfl⟩
    · simp at ran
  | .leave | .stop | .blank =>
    obtain ⟨rfl, rfl⟩ := Prod.mk.inj (Except.ok.inj ran)
    exact .refl _ _ _

theorem runAll_keeps (c : Context F) (body : List Stmt) (t : Thread F) {flow : Flow}
    {after : Thread F} (ran : runAll c body t = .ok (flow, after)) :
    t.Keeps (assignedAll body) (storedAll body) after := by
  match body with
  | [] =>
    obtain ⟨rfl, rfl⟩ := Prod.mk.inj (Except.ok.inj ran)
    exact .refl _ _ _
  | first :: rest =>
    simp only [runAll, Answer.bind_eq_ok] at ran
    obtain ⟨⟨ended, middle⟩, once, ran⟩ := ran
    have begins := (run_keeps c first t once).mono (List.subset_append_left _ (assignedAll rest))
      (List.subset_append_left _ (storedAll rest))
    split at ran
    · rename_i same
      obtain ⟨rfl, rfl⟩ := Prod.mk.inj same
      exact begins.trans ((runAll_keeps c rest _ ran).mono (List.subset_append_right _ _)
        (List.subset_append_right _ _))
    · obtain ⟨rfl, rfl⟩ := Prod.mk.inj (Except.ok.inj ran)
      exact begins

end

end Stmt

end OperatorGraph.Shader
