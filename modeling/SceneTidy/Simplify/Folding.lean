import SceneTidy.Scene.Change
import SceneTidy.Scene.Walk

/-!
# Folding transforms

Transforms that are children of one node and have the same parameters are folded into the first of
them, which takes over the children of the others.  Only transforms that are referred to from a
single place are folded, by the references as they were before any folding.
-/

namespace SceneTidy

/-- The parameters of a transform. -/
structure Placement where
  center : Vec3
  rotation : Rotation
  scale : Vec3
  scaleOrientation : Rotation
  shift : Vec3
  deriving DecidableEq, Repr

namespace Placement

/-- Equality of all parameters by value. -/
def same (a b : Placement) : Bool :=
  a.center.same b.center && a.rotation.same b.rotation && a.scale.same b.scale &&
    a.scaleOrientation.same b.scaleOrientation && a.shift.same b.shift

/-- Whether the transform moves nothing; the scale's orientation and the center do not matter. -/
def isIdentity (p : Placement) : Bool :=
  p.scale.same (.diagonal .one) && p.rotation.angle.same .zero && p.shift.same .zero

end Placement

/-- The parameters of a transform node. -/
def Node.placement (n : Node) : Placement :=
  { center := n.item "center" .vec3f
    rotation := n.item "rotation" .rotation
    scale := n.item "scale" .vec3f
    scaleOrientation := n.item "scaleOrientation" .rotation
    shift := n.item "translation" .vec3f }

/-- A row of transforms with the same parameters: those of the first, and its followers. -/
structure FoldRow where
  placement : Placement
  survivor : NodeId
  others : List NodeId

/-- Put a transform into the first row of its parameters, or into a new one.  A transform goes with
itself even if one of its parameters differs from itself. -/
def addToRow (id : NodeId) (p : Placement) : List FoldRow → List FoldRow
  | [] => [⟨p, id, []⟩]
  | row :: rows =>
    if row.survivor = id || row.placement.same p then
      { row with others := row.others ++ [id] } :: rows
    else row :: addToRow id p rows

namespace Scene

/-- The parameters of a node that may be folded: a transform referred to once. -/
def foldable? (s : Scene) (references : List NodeId) (id : NodeId) : Option Placement :=
  match s.node? id with
  | some n => if n.kind = .transform ∧ references.count id = 1 then some n.placement else none
  | none => none

/-- The rows of transforms among the children of a node. -/
def foldRows (s : Scene) (references : List NodeId) (group : NodeId) : List FoldRow :=
  (s.children group).foldl
    (fun rows id =>
      match s.foldable? references id with
      | some p => addToRow id p rows
      | none => rows)
    []

/-- Hand the children of a transform over to the survivor. -/
def handOver (survivor : NodeId) (s : Scene) (other : NodeId) : Scene :=
  (s.setChildren survivor (s.children survivor ++ s.children other)).setChildren other []

/-- Fold the transforms among the children of one node; the result is the number removed.  A node
outside the references counted may have one transform for a child several times, which is then
removed once. -/
def foldChildren (s : Scene) (references : List NodeId) (group : NodeId) : Scene × Nat :=
  let rows := s.foldRows references group
  let removed := (rows.flatMap (·.others)).eraseDups
  let s := rows.foldl (fun s row => row.others.foldl (handOver row.survivor) s) s
  if removed.isEmpty then (s, 0)
  else (s.setChildren group ((s.children group).filter (!removed.contains ·)), removed.length)

/-- Whether the children of a node may be folded: a switch picks its children by position. -/
def mayFold (s : Scene) (id : NodeId) : Bool := s.isGrouping id && !s.isKind .switch id

end Scene

/-- A scene that is being folded: the nodes visited and the number of transforms removed. -/
structure FoldState where
  scene : Scene
  visited : List NodeId
  removed : Nat

namespace FoldState

/-- Fold below a node, itself first and then what it refers to; the bound limits the depth. -/
def visit (references : List NodeId) : Nat → FoldState → NodeId → FoldState
  | 0, st, _ => st
  | bound + 1, st, id =>
    if st.visited.contains id || (st.scene.node? id).isNone then st
    else
      let (s, removed) :=
        if st.scene.mayFold id then st.scene.foldChildren references id else (st.scene, 0)
      (s.refs id).foldl (visit references bound) ⟨s, id :: st.visited, st.removed + removed⟩

end FoldState

/-- Fold transforms everywhere below a start; the result is the number removed.  Each level of the
descent meets a new node, so the size of the store bounds the depth. -/
def Scene.foldTransforms (s : Scene) (start : NodeId) : Change Nat :=
  let st := FoldState.visit (s.references start) (s.size + 1) ⟨s, [], 0⟩ start
  ⟨st.scene, if st.removed = 0 then [] else [.folded st.removed], .ok st.removed⟩

end SceneTidy
