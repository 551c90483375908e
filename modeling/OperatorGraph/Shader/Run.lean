import OperatorGraph.Shader.Kernel
import OperatorGraph.Shader.Thread

set_option autoImplicit false

namespace OperatorGraph.Shader

variable {F : Type}

/-- What a program is run against. -/
structure Context (F : Type) where
  arithmetic : Arithmetic F
  info : List UInt32
  /-- The functions that are not part of the language. -/
  callee : String → List (Value F) → Except Trap (Value F)

/-- A value, unless the operands were of the wrong types. -/
def typed {α : Type} (value : Option α) : Except Trap α :=
  value.elim (.error .illTyped) .ok

def Context.call (c : Context F) (function : String) (args : List (Value F)) :
    Except Trap (Value F) :=
  match Value.builtin c.arithmetic function args with
  | some value => .ok value
  | none => c.callee function args

namespace Expr

mutual

/-- The value of an expression and the accesses made to find it, from left to right. -/
def eval (c : Context F) (t : Thread F) : Expr → Except Trap (Value F × List Access)
  | word value => .ok (.word (UInt32.ofNat value), [])
  | int value => .ok (.literal value, [])
  | real text => .ok (.real (c.arithmetic.ofText text), [])
  | var name => do return (← t.lookup name, [])
  | load buffer index => do
    let (value, accesses) ← index.eval c t
    let position ← typed value.position?
    return (← t.load c.info buffer position, accesses ++ [.read buffer position])
  | negate operand => do
    let (value, accesses) ← operand.eval c t
    return (← typed (value.negate c.arithmetic), accesses)
  | binary .or lhs rhs => do
    match ← lhs.eval c t with
    | (.flag true, accesses) => return (.flag true, accesses)
    | (.flag false, accesses) =>
      let (value, more) ← rhs.eval c t
      return (value, accesses ++ more)
    | _ => .error .illTyped
  | binary op lhs rhs => do
    let (a, accesses) ← lhs.eval c t
    let (b, more) ← rhs.eval c t
    return (← typed (op.apply c.arithmetic a b), accesses ++ more)
  | group inner => inner.eval c t
  | call function args => do
    let (values, accesses) ← evalArgs c t args
    return (← c.call function values, accesses)

def evalArgs (c : Context F) (t : Thread F) :
    List Expr → Except Trap (List (Value F) × List Access)
  | [] => .ok ([], [])
  | first :: rest => do
    let (value, accesses) ← first.eval c t
    let (values, more) ← evalArgs c t rest
    return (value :: values, accesses ++ more)

end

end Expr

/-- Where a thread goes on after a statement. -/
inductive Flow where
  | next
  | leave
  | stop
  deriving DecidableEq, Repr

/-- Runs the body of a loop so many times, with the counter one higher each time, unless it is
left before. -/
def rounds (body : Thread F → Except Trap (Flow × Thread F)) (counter : String) :
    Nat → UInt32 → Thread F → Except Trap (Flow × Thread F)
  | 0, _, t => .ok (.next, t)
  | more + 1, value, t => do
    match ← body (t.set counter (.word value)) with
    | (.next, after) => rounds body counter more (value + 1) after
    | (.leave, after) => return (.next, after)
    | (.stop, after) => return (.stop, after)

/-- What holds before the first round and is kept by every round holds after the last one. -/
theorem rounds_of_invariant (body : Thread F → Except Trap (Flow × Thread F)) (counter : String)
    (invariant : Nat → Thread F → Prop) (total : Nat) (start : UInt32) (t : Thread F)
    (first : invariant 0 t)
    (kept : ∀ round t, round < total → invariant round t →
      ∃ after, body (t.set counter (.word (start + UInt32.ofNat round))) = .ok (.next, after) ∧
        invariant (round + 1) after) :
    ∃ after, rounds body counter total start t = .ok (.next, after) ∧ invariant total after := by
  induction total generalizing invariant start t with
  | zero => exact ⟨t, rfl, first⟩
  | succ total ih =>
    obtain ⟨after, ran, next⟩ := kept 0 t (Nat.succ_pos _) first
    have begins : start + UInt32.ofNat 0 = start := UInt32.add_zero start
    rw [begins] at ran
    obtain ⟨last, rest, ends⟩ := ih (fun round => invariant (round + 1)) (start + 1) after next
      (fun round t before holds => by
        obtain ⟨following, ran, next⟩ := kept (round + 1) t (Nat.succ_lt_succ before) holds
        have shifted : start + UInt32.ofNat (round + 1) = start + 1 + UInt32.ofNat round := by
          rw [UInt32.ofNat_add, UInt32.add_comm (UInt32.ofNat round), ← UInt32.add_assoc]
          rfl
        exact ⟨following, shifted ▸ ran, next⟩)
    refine ⟨last, ?_, ends⟩
    simp only [rounds, ran, bind, Except.bind]
    exact rest

namespace Stmt

/-- Gives a variable a value. -/
def define (c : Context F) (t : Thread F) (name : String) (value : Expr) :
    Except Trap (Flow × Thread F) := do
  let (result, accesses) ← value.eval c t
  return (.next, (t.after accesses).set name result)

/-- Gives a variable a new value, made from its old one and another. -/
def update (c : Context F) (t : Thread F) (op : BinaryOp) (name : String) (value : Expr) :
    Except Trap (Flow × Thread F) := do
  let (operand, accesses) ← value.eval c t
  let result ← typed (op.apply c.arithmetic (← t.lookup name) operand)
  return (.next, (t.after accesses).set name result)

mutual

/-- One statement. The ends of a loop are found before its first round. -/
def run (c : Context F) : Stmt → Thread F → Except Trap (Flow × Thread F)
  | bind name value, t => define c t name value
  | declare name value, t => define c t name value
  | assign name value, t => define c t name value
  | addTo name value, t => update c t .add name value
  | mulBy name value, t => update c t .mul name value
  | store buffer index value, t => do
    let (place, accesses) ← index.eval c t
    let (result, more) ← value.eval c t
    let position ← typed place.position?
    return (.next, ← (t.after (accesses ++ more)).store buffer position result)
  | count _ counter first bound body, t => do
    let (start, accesses) ← first.eval c t
    let (finish, more) ← bound.eval c t
    match start, finish with
    | .word start, .word finish =>
      rounds (fun inner => runAll c body inner) counter (finish.toNat - start.toNat) start
        (t.after (accesses ++ more))
    | _, _ => .error .illTyped
  | when condition body, t => do
    match ← condition.eval c t with
    | (.flag true, accesses) => runAll c body (t.after accesses)
    | (.flag false, accesses) => return (.next, t.after accesses)
    | _ => .error .illTyped
  | leave, t => .ok (.leave, t)
  | stop, t => .ok (.stop, t)
  | blank, t => .ok (.next, t)

def runAll (c : Context F) : List Stmt → Thread F → Except Trap (Flow × Thread F)
  | [], t => .ok (.next, t)
  | first :: rest, t => do
    match ← first.run c t with
    | (.next, after) => runAll c rest after
    | ended => return ended

end

/-- Statements in sequence run the second part only where the first part falls through. -/
theorem runAll_append (c : Context F) (front back : List Stmt) (t : Thread F) :
    runAll c (front ++ back) t = do
      match ← runAll c front t with
      | (.next, after) => runAll c back after
      | ended => return ended := by
  induction front generalizing t with
  | nil => rfl
  | cons first rest ih =>
    rw [List.cons_append, runAll, runAll]
    cases first.run c t with
    | error trap => rfl
    | ok ended =>
      obtain ⟨flow, after⟩ := ended
      cases flow with
      | next => exact ih after
      | leave => rfl
      | stop => rfl

end Stmt

/-- A function sees its arguments only, and answers its variable `output`. -/
def Function.apply (f : Function) (m : Arithmetic F) (args : List (Value F)) :
    Except Trap (Value F) :=
  match f.body with
  | .text _ => .error .textOnly
  | .program body => do
    let vars (name : String) := List.lookup name ((f.params.map Prod.fst).zip args)
    let (_, t) ← Stmt.runAll ⟨m, [], fun name _ => .error (.unknownName name)⟩ body
      ⟨vars, .none, []⟩
    t.lookup "output"

namespace Kernel

def context (k : Kernel) (m : Arithmetic F) (info : List UInt32) : Context F where
  arithmetic := m
  info := info
  callee name args := match k.functions.find? (·.name = name) with
    | some f => f.apply m args
    | none => .error (.unknownName name)

/-- Ends the threads past the thread count. -/
def threadLimit : Stmt :=
  .when (.binary .atLeast .thread (.info 0)) [.stop]

/-- The thread of a number, after it has ended. -/
def runThread (k : Kernel) (m : Arithmetic F) (info : List UInt32) (arrays : Arrays F)
    (index : UInt32) : Except Trap (Thread F) :=
  match k.body with
  | .text _ => .error .textOnly
  | .program body => do
    let start : Thread F := ⟨fun _ => none, arrays, []⟩
    let (_, t) ← Stmt.runAll (k.context m info) (threadLimit :: body)
      (start.set "index" (.word index))
    return t

end Kernel

end OperatorGraph.Shader
