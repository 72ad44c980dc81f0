import SceneTidy.Scene.Walk

/-!
# Shared nodes

Before a scene is written, the references to each node are counted by following them from the root,
a node's own references only at the first arrival.  The nodes arrived at more than once are shared;
they get names in the order of the first arrival.
-/

namespace SceneTidy

/-- Nodes with the number of arrivals, in the order of the first one. -/
abbrev Arrivals := List (NodeId × Nat)

namespace Arrivals

/-- Count one more arrival at a node. -/
def again (as : Arrivals) (id : NodeId) : Arrivals :=
  as.map fun (a, n) => if a = id then (a, n + 1) else (a, n)

/-- Whether a node was arrived at. -/
def contains (as : Arrivals) (id : NodeId) : Bool := as.any (·.1 = id)

/-- The nodes arrived at more than once. -/
def shared (as : Arrivals) : List NodeId := (as.filter (1 < ·.2)).map Prod.fst

end Arrivals

namespace Scene

/-- Arrive at a node and follow its references if it is new; the bound limits the depth. -/
def arrive (s : Scene) : Nat → Arrivals → NodeId → Arrivals
  | 0, as, _ => as
  | bound + 1, as, id =>
    if as.contains id then as.again id
    else
      match s.node? id with
      | none => as
      | some n => n.refs.foldl (s.arrive bound) (as ++ [(id, 1)])

/-- The arrivals when all references below a start are followed.  Each level of the descent meets a
new node, so the size of the store bounds the depth. -/
def arrivals (s : Scene) (start : NodeId) : Arrivals := s.arrive (s.size + 1) [] start

end Scene

/-- The name of the shared node of a number. -/
def sharedName (n : Nat) : String := s!"ref_{n}"

/-- The shared nodes of a scene with their names. -/
def Scene.sharedNames (s : Scene) : List (NodeId × String) :=
  (s.arrivals s.root).shared.zipIdx.map fun (id, n) => (id, sharedName n)

end SceneTidy
