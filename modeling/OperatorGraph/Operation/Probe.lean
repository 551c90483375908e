import OperatorGraph.Operation

set_option autoImplicit false

namespace OperatorGraph

/-- An activation followed by a scaling. -/
structure Scaled where
  kind : Activation
  scale : Scalar
  deriving DecidableEq, Repr

namespace Scaled

def graph (p : Scaled) (name : String) : Graph :=
  Graph.new name ["x"] ["y"] ["act"] [
    Node.new "act" (.activation p.kind) [.input 0] [.internal 0],
    Node.new "scale" (.elementwise (.scale p.scale)) [.internal 0] [.output 0]]

def equals (p q : Scaled) : Bool :=
  p.kind = q.kind && p.scale.equals q.scale

def sameKind (p q : Scaled) : Bool :=
  p.kind = q.kind

/-- The operation of a name over these graphs. -/
@[reducible] def operation (name : String) (sameTopology : Scaled → Scaled → Bool)
    (update : Scaled → Patch → Patch × Except PoolError Unit) : Operation where
  name := name
  Param := Scaled
  build p := .ok (p.graph name)
  equals := equals
  sameTopology := sameTopology
  update := update

end Scaled

/-- Small graph operations that show how a pool treats its runners. -/
inductive Probe where
  /-- Its update sets the scale. -/
  | scaled
  /-- Its update asks for a parameter of the wrong family. -/
  | broken
  /-- Its update asks for a node that does not exist. -/
  | lost
  /-- Its update changes nothing. -/
  | inert
  /-- It builds for even numbers, has an empty graph for odd ones and fails below zero. -/
  | picky
  deriving DecidableEq, Repr

namespace Probe

def all : List Probe :=
  [scaled, broken, lost, inert, picky]

def pickyGraph (n : Int) : Except Error Graph :=
  if n < 0 then .error (.invalidGraph "picky" (.negativeCount n))
  else if n % 2 = 0 then .ok (Scaled.graph ⟨.relu, Scalar.ofInt n⟩ "picky")
  else .ok (Graph.new "picky" ["x"] ["y"] [] [])

@[reducible] def picky.operation : Operation where
  name := "picky"
  Param := Int
  build := pickyGraph
  equals n m := n = m
  sameTopology n m := n = m
  update := Operation.keep

@[reducible] def operation : Probe → Operation
  | scaled => Scaled.operation "scaled" Scaled.sameKind fun p patch =>
      patch.edit "scaled" "scale" .elementwise fun _ => .elementwise (.scale p.scale)
  | broken => Scaled.operation "broken" Scaled.sameKind fun p patch =>
      patch.edit "broken" "scale" .activation fun _ => .activation p.kind
  | lost => Scaled.operation "lost" (fun _ _ => true) fun p patch =>
      patch.edit "lost" "missing" .elementwise fun _ => .elementwise (.scale p.scale)
  | inert => Scaled.operation "inert" Scaled.sameKind Operation.keep
  | picky => picky.operation

end Probe

end OperatorGraph
