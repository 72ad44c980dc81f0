import SceneTidy.Scene.Basic

/-!
# Walking a scene

Nodes may be shared and references may form cycles, so a walk keeps the nodes it has met.  `walk`
lists the nodes reachable from a start, each once, parents before children and in the order of the
references; it works on a stack, and ends because each turn either meets a new node or shortens the
stack.  `references` lists the ends of all references met on a walk.

A scene may be nested to any depth, here and wherever else it is gone through from node to node.  A
limit that an interpreter may set on the depth of a recursion is taken as off.
-/

namespace SceneTidy.Scene

/-- The number of nodes of the store that are not in a list. -/
def unmet (s : Scene) (met : List NodeId) : Nat :=
  (List.range s.size).countP fun id => !met.contains id

theorem unmet_cons_lt {s : Scene} {met : List NodeId} {id : NodeId} (h : id < s.size)
    (hn : id ∉ met) : s.unmet (id :: met) < s.unmet met := by
  unfold unmet
  have key : ∀ l : List NodeId,
      l.countP (fun x => !(id :: met).contains x) ≤ l.countP (fun x => !met.contains x) ∧
        (id ∈ l →
          l.countP (fun x => !(id :: met).contains x) < l.countP (fun x => !met.contains x)) := by
    intro l
    induction l with
    | nil => grind
    | cons a l ih => grind
  exact (key _).2 (List.mem_range.2 h)

theorem lt_size_of_node? {s : Scene} {id : NodeId} {n : Node} (h : s.node? id = some n) :
    id < s.size := by
  unfold node? at h
  exact (Array.getElem?_eq_some_iff.1 h).1

/-- Walk on from a stack of nodes still to visit, given those already met. -/
def walkFrom (s : Scene) (stack met : List NodeId) : List NodeId :=
  match stack with
  | [] => []
  | id :: rest =>
    if _ : id ∈ met then s.walkFrom rest met
    else
      match _ : s.node? id with
      | none => s.walkFrom rest met
      | some n => id :: s.walkFrom (n.refs ++ rest) (id :: met)
termination_by (s.unmet met, stack.length)
decreasing_by
  · exact Prod.Lex.right _ (by simp)
  · exact Prod.Lex.right _ (by simp)
  · exact Prod.Lex.left _ _ (unmet_cons_lt (lt_size_of_node? ‹_›) ‹_›)

/-- The nodes reachable from a start, each once, in depth-first order. -/
def walk (s : Scene) (start : NodeId) : List NodeId := s.walkFrom [start] []

/-- All nodes of the scene but its root. -/
def allNodes (s : Scene) : List NodeId := (s.walk s.root).filter (· ≠ s.root)

/-- The reachable nodes that satisfy a test on their kind. -/
def nodesOfKind (s : Scene) (p : NodeKind → Bool) : List NodeId :=
  (s.walk s.root).filter fun id => ((s.kind? id).map p).getD false

/-- The grouping nodes reachable from a start. -/
def groupings (s : Scene) (start : NodeId) : List NodeId := (s.walk start).filter s.isGrouping

/-- The end of each reference met on a walk, with the start itself counted as referred to once. -/
def references (s : Scene) (start : NodeId) : List NodeId :=
  start :: (s.walk start).flatMap s.refs

end SceneTidy.Scene
