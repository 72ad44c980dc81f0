import SceneTidy.Geometry.FaceSet
import SceneTidy.Scene.Change
import SceneTidy.Scene.Walk

/-!
# Merging shapes

The shapes of a group that show face sets with one appearance are merged into a new shape, which
stands where the first of them stood.  It shows their distinct faces on both sides, since merged
faces need not agree on an orientation.  The children of a switch are picked by position and are
never merged.
-/

namespace SceneTidy

/-- The shapes of a group that have one appearance, or all none. -/
structure ShapeClass where
  appearance : Option NodeId
  shapes : List NodeId

/-- Put a shape into the class of its appearance. -/
def addToClass (appearance : Option NodeId) (shape : NodeId) : List ShapeClass → List ShapeClass
  | [] => [⟨appearance, [shape]⟩]
  | c :: cs =>
    if c.appearance = appearance then { c with shapes := c.shapes ++ [shape] } :: cs
    else c :: addToClass appearance shape cs

/-- The nodes of a list, each once, in order. -/
def distinctNodes (ids : List NodeId) : List NodeId := firsts (· == ·) id [] ids

namespace Scene

/-- The appearance of a shape. -/
def appearanceOf (s : Scene) (shape : NodeId) : Option NodeId :=
  (s.node? shape).bind (·.target "appearance")

/-- The distinct shapes among nodes that show face sets. -/
def faceShapes (s : Scene) (ids : List NodeId) : List NodeId :=
  distinctNodes (ids.filter s.isFaceShape)

/-- The face-set shapes among nodes, by appearance. -/
def shapeClasses (s : Scene) (ids : List NodeId) : List ShapeClass :=
  (s.faceShapes ids).foldl (fun cs id => addToClass (s.appearanceOf id) id cs) []

/-- All faces of shapes, one shape after the other. -/
def allFaces (s : Scene) (shapes : List NodeId) : Except Malformed (List Face) :=
  (shapes.mapM s.shapeFaces).map List.flatten

end Scene

/-- A face set with its own points, shown on both sides. -/
def mergedFaceSet (coord : NodeId) (indices : List Int) : Node :=
  (((Node.create .indexedFaceSet none).set "coord" (.node (some coord))).set "coordIndex"
    (.many .int32 indices)).set "solid" (.one .bool false)

namespace Scene

/-- Add a shape with an appearance that shows indexed faces; it is the last node of the store. -/
def pushShape (s : Scene) (appearance : Option NodeId) (faces : IndexedFaces) : Scene :=
  let coord := s.next
  let s := s.push ((Node.create .coordinate none).set "point" (.many .vec3f faces.points))
  let faceSet := s.next
  let s := s.push (mergedFaceSet coord faces.indices)
  s.push (((Node.create .shape none).set "appearance" (.node appearance)).set "geometry"
    (.node (some faceSet)))

/-- Merge the shapes of a class; the result is the merged shape. -/
def mergeClass (s : Scene) (ignoreWinding : Bool) (c : ShapeClass) : Change NodeId :=
  match s.allFaces c.shapes with
  | .error cause => ⟨s, [], .error (.malformed cause)⟩
  | .ok faces =>
    let kept := Face.distinct ignoreWinding faces
    let indexed := IndexedFaces.ofFaces kept
    let s := s.pushShape c.appearance indexed
    ⟨s, [.shapesMerged c.shapes.length kept.length faces.length indexed.points.length],
      .ok (s.size - 1)⟩

/-- Merge the shapes of each class; the result tells the merged shape of each appearance. -/
def mergeClasses (s : Scene) (ignoreWinding : Bool) :
    List ShapeClass → Change (List (Option NodeId × NodeId))
  | [] => .pure s []
  | c :: cs =>
    (s.mergeClass ignoreWinding c).andThen fun s shape =>
      (s.mergeClasses ignoreWinding cs).andThen fun s rest =>
        .pure s ((c.appearance, shape) :: rest)

end Scene

/-- The children of a group after merging: other children stay, and the first shape of each
appearance gives its place to the merged one. -/
def replaceShapes (appearanceOf : NodeId → Option NodeId) (shapes : List NodeId)
    (merged : List (Option NodeId × NodeId)) : List (Option NodeId) → List NodeId → List NodeId
  | _, [] => []
  | placed, id :: ids =>
    if shapes.contains id then
      let appearance := appearanceOf id
      if placed.contains appearance then replaceShapes appearanceOf shapes merged placed ids
      else
        (merged.lookup appearance).toList ++
          replaceShapes appearanceOf shapes merged (appearance :: placed) ids
    else id :: replaceShapes appearanceOf shapes merged placed ids

namespace Scene

/-- Merge the shapes of one group; the result is the number of shapes replaced.  A failure leaves
the scene as it was. -/
def mergeGroup (s : Scene) (ignoreWinding : Bool) (group : NodeId) : Change Nat :=
  let children := s.children group
  let shapes := s.faceShapes children
  if shapes.isEmpty then .pure s 0
  else
    let c := s.mergeClasses ignoreWinding (s.shapeClasses children)
    match c.result with
    | .error e => ⟨s, c.notices, .error e⟩
    | .ok merged =>
      ⟨c.scene.setChildren group (replaceShapes s.appearanceOf shapes merged [] children),
        c.notices, .ok shapes.length⟩

/-- Merge the shapes of groups, one group after the other. -/
def mergeGroups (s : Scene) (ignoreWinding : Bool) : List NodeId → Change Nat
  | [] => .pure s 0
  | group :: groups =>
    (s.mergeGroup ignoreWinding group).andThen fun s n =>
      (s.mergeGroups ignoreWinding groups).andThen fun s m => .pure s (n + m)

/-- The groups below a start whose shapes may be merged. -/
def mergeable (s : Scene) (start : NodeId) : List NodeId :=
  (s.groupings start).filter (!s.isKind .switch ·)

/-- Merge the shapes of all groups below a start; the result is the number of shapes replaced. -/
def mergeShapes (s : Scene) (ignoreWinding : Bool) (start : NodeId) : Change Nat :=
  let groups := s.mergeable start
  (s.mergeGroups ignoreWinding groups).andThen fun s n =>
    ⟨s, if n = 0 then [] else [.unified n groups.length], .ok n⟩

end Scene

end SceneTidy
