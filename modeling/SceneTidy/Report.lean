import SceneTidy.Scene.Numbering
import SceneTidy.Vrml.Writing

/-!
# Reports on a written scene

After a scene was written, the program can tell which shapes take the most room, and show the
grouping nodes as a tree with the room that each takes.
-/

namespace SceneTidy

/-- The first items of a list; a negative count drops items at the end instead. -/
def takeSigned (n : Int) (l : List α) : List α :=
  match n with
  | .ofNat k => l.take k
  | .negSucc k => l.take (l.length - (k + 1))

/-- The largest shapes, largest first. -/
def Scene.shapeReport (s : Scene) (nb : Numbering) (lengths : List (NodeId × Nat)) (count : Int) :
    List Notice :=
  let shapes := (lengths.filter fun (id, _) => s.isKind .shape id).mergeSort fun a b => b.2 ≤ a.2
  (takeSigned count shapes).map fun (id, length) =>
    .shapeLength (nb.number? id) ((s.node? id).bind (·.name)) length

/-- What a report needs to know of a scene and its text. -/
structure ReportCase where
  scene : Scene
  numbers : Numbering
  lengths : List (NodeId × Nat)

namespace ReportCase

/-- What is told of a node: its line, if it is a grouping node. -/
def line (c : ReportCase) (depth : Nat) (id : NodeId) : List Notice :=
  match c.scene.kind? id with
  | some k =>
    if k.isGrouping then
      [.groupLength depth (c.numbers.number? id) k.typeName ((c.lengths.lookup id).getD 0)]
    else []
  | none => []

/-- The tree below a node, and the nodes listed so far; the bound limits the depth. -/
def tree (c : ReportCase) : Nat → Nat → NodeId → List Notice × List NodeId →
    List Notice × List NodeId
  | 0, _, _, told => told
  | bound + 1, depth, id, told =>
    (c.scene.refs id).foldl
      (fun (notices, seen) child =>
        if seen.contains child then (notices, seen)
        else c.tree bound (depth + 1) child (notices ++ c.line depth child, child :: seen))
      told

end ReportCase

/-- The grouping nodes below a node as a tree.  Shared nodes are listed once, where they are met
first.  Each level of the descent meets a new node, so the size of the store bounds the depth. -/
def Scene.groupReport (s : Scene) (nb : Numbering) (lengths : List (NodeId × Nat))
    (start : NodeId) : List Notice :=
  (ReportCase.tree ⟨s, nb, lengths⟩ (s.size + 2) 0 start ([], [])).1

end SceneTidy
