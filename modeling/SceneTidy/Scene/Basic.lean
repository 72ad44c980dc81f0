import SceneTidy.Scene.Node

/-!
# Scenes

A scene is a store of nodes, each known by its place in the store, and a root.  Nodes are only ever
added, so a place keeps its node for good, and several fields may refer to one node.  A place
outside the store names no node, and reading or changing there does nothing.
-/

namespace SceneTidy

/-- A store of nodes with a root. -/
structure Scene where
  nodes : Array Node
  root : NodeId

namespace Scene

/-- The scene that holds a root only. -/
def empty : Scene := ⟨#[Node.create .scene none], 0⟩

/-- The number of nodes in the store, whether reachable or not. -/
def size (s : Scene) : Nat := s.nodes.size

/-- The node at a place. -/
def node? (s : Scene) (id : NodeId) : Option Node := s.nodes[id]?

/-- The kind of the node at a place. -/
def kind? (s : Scene) (id : NodeId) : Option NodeKind := (s.node? id).map Node.kind

/-- Whether the node at a place is of a kind. -/
def isKind (s : Scene) (k : NodeKind) (id : NodeId) : Bool := s.kind? id == some k

/-- Whether the node at a place is a grouping node. -/
def isGrouping (s : Scene) (id : NodeId) : Bool := ((s.kind? id).map (·.isGrouping)).getD false

/-- The nodes referred to from the node at a place, field by field. -/
def refs (s : Scene) (id : NodeId) : List NodeId := ((s.node? id).map Node.refs).getD []

/-- The children of the grouping node at a place. -/
def children (s : Scene) (id : NodeId) : List NodeId := ((s.node? id).map Node.children).getD []

/-- Add a node to the store, at the next place. -/
def push (s : Scene) (n : Node) : Scene := { s with nodes := s.nodes.push n }

/-- The place that the next node gets. -/
def next (s : Scene) : NodeId := s.size

@[simp] theorem size_push (s : Scene) (n : Node) : (s.push n).size = s.size + 1 := by
  simp [push, size]

@[simp] theorem root_push (s : Scene) (n : Node) : (s.push n).root = s.root := rfl

/-- A new node stands at the next place, and the others stay where they are. -/
theorem node?_push (s : Scene) (n : Node) (id : NodeId) :
    (s.push n).node? id = if id = s.next then some n else s.node? id :=
  Array.getElem?_push

/-- Change the node at a place. -/
def modify (s : Scene) (id : NodeId) (f : Node → Node) : Scene :=
  { s with nodes := s.nodes.modify id f }

@[simp] theorem size_modify (s : Scene) (id : NodeId) (f : Node → Node) :
    (s.modify id f).size = s.size := by
  simp [modify, size]

@[simp] theorem root_modify (s : Scene) (id : NodeId) (f : Node → Node) :
    (s.modify id f).root = s.root := rfl

/-- A change shows at its own place only. -/
theorem node?_modify (s : Scene) (id : NodeId) (f : Node → Node) (other : NodeId) :
    (s.modify id f).node? other = if id = other then (s.node? other).map f else s.node? other :=
  Array.getElem?_modify

/-- Give a field of the node at a place a value. -/
def set (s : Scene) (id : NodeId) (field : String) (v : FieldValue) : Scene :=
  s.modify id (·.set field v)

@[simp] theorem size_set (s : Scene) (id : NodeId) (field : String) (v : FieldValue) :
    (s.set id field v).size = s.size := size_modify ..

/-- Changing fields keeps the kind of every node. -/
@[simp] theorem kind?_set (s : Scene) (id : NodeId) (field : String) (v : FieldValue)
    (other : NodeId) : (s.set id field v).kind? other = s.kind? other := by
  unfold kind? set
  rw [node?_modify]
  split
  · cases s.node? other <;> rfl
  · rfl

/-- Replace the children of the grouping node at a place. -/
def setChildren (s : Scene) (id : NodeId) (ts : List NodeId) : Scene :=
  s.modify id (·.setChildren ts)

/-- Put nodes at the end of the top level. -/
def appendTop (s : Scene) (ts : List NodeId) : Scene :=
  s.setChildren s.root (s.children s.root ++ ts)

/-- A scene with a new root and nothing below it, in the same store. -/
def renewed (s : Scene) : Scene := { s.push (Node.create .scene none) with root := s.next }

end Scene

end SceneTidy
