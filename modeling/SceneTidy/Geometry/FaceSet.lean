import SceneTidy.Error
import SceneTidy.Geometry.Face
import SceneTidy.Scene.Basic

/-!
# Face sets of a scene

The faces of a face-set node, whose points stand in a coordinate node that it refers to.
-/

namespace SceneTidy

/-- The faces of a face set. -/
def Scene.faces (s : Scene) (faceSet : Node) : Except Malformed (List Face) :=
  let indices := faceSet.items "coordIndex" .int32
  match faceSet.target "coord" with
  | none => if indices.isEmpty then .ok [] else .error .indexWithoutCoordinates
  | some id =>
    match s.node? id with
    | none => if indices.isEmpty then .ok [] else .error .indexWithoutCoordinates
    | some coord =>
      if coord.kind = .coordinate then
        match facesOfIndices (coord.items "point" .vec3f) indices with
        | .ok fs => .ok fs
        | .error bad => .error (.indexOutOfRange bad.index bad.points)
      else .error (.notCoordinates coord.kind.typeName)

/-- The faces of the face set that a shape shows. -/
def Scene.shapeFaces (s : Scene) (shape : NodeId) : Except Malformed (List Face) :=
  match (s.node? shape).bind (·.target "geometry") |>.bind s.node? with
  | some faceSet => s.faces faceSet
  | none => .ok []

/-- Whether a node is a shape that shows a face set. -/
def Scene.isFaceShape (s : Scene) (id : NodeId) : Bool :=
  match s.node? id with
  | some n =>
    n.kind == .shape && ((n.target "geometry").map (s.isKind .indexedFaceSet)).getD false
  | none => false

end SceneTidy
