import SceneTidy.Field.Value

/-!
# Kinds of node

The closed set of node kinds with the fields each declares.  All kinds but the scene root have a
place in files; grouping kinds own an ordered list of children, which only the switch keeps under a
name and with a meaning of its own: its children are picked by their position.
-/

namespace SceneTidy

/-- A declared field: its name, the value it has unless given another, and whether files show it. -/
structure FieldDecl where
  name : String
  declared : FieldValue
  exposed : Bool

/-- The kinds of node; `scene` is the root that holds the top-level nodes. -/
inductive NodeKind
  | scene
  | group
  | transform
  | switch
  | anchor
  | collision
  | shape
  | appearance
  | material
  | imageTexture
  | textureTransform
  | indexedFaceSet
  | indexedLineSet
  | pointSet
  | box
  | cone
  | cylinder
  | sphere
  | coordinate
  | normal
  | color
  | textureCoordinate
  | viewpoint
  | background
  | navigationInfo
  | worldInfo
  | pointLight
  | directionalLight
  | timeSensor
  | coordinateInterpolator
  | orientationInterpolator
  | positionInterpolator
  | script
  deriving DecidableEq, Repr

namespace FieldDecl

/-- The kind of the field. -/
def kind (d : FieldDecl) : FieldKind := d.declared.kind

/-- An exposed field that starts with the value its kind starts with. -/
def plain (name : String) (kind : FieldKind) : FieldDecl := ⟨name, kind.initial, true⟩

/-- An exposed field of one item. -/
def item (name : String) (k : ItemKind) (v : k.Value) : FieldDecl := ⟨name, .one k v, true⟩

/-- An exposed list field with items from the start. -/
def items (name : String) (k : ItemKind) (vs : List k.Value) : FieldDecl :=
  ⟨name, .many k vs, true⟩

/-- An exposed flag that is on from the start. -/
def flag (name : String) : FieldDecl := .item name .bool true

/-- A list of references that files do not show. -/
def hiddenNodes (name : String) : FieldDecl := ⟨name, .nodes [], false⟩

end FieldDecl

namespace NodeKind

/-- Every kind that has a place in files. -/
def registered : List NodeKind :=
  [group, transform, switch, anchor, collision, shape, appearance, material, imageTexture,
    textureTransform, indexedFaceSet, indexedLineSet, pointSet, box, cone, cylinder, sphere,
    coordinate, normal, color, textureCoordinate, viewpoint, background, navigationInfo, worldInfo,
    pointLight, directionalLight, timeSensor, coordinateInterpolator, orientationInterpolator,
    positionInterpolator, script]

/-- Whether the kind has a place in files. -/
def isRegistered (k : NodeKind) : Bool := k != scene

theorem mem_registered_iff (k : NodeKind) : k ∈ registered ↔ k.isRegistered := by
  cases k <;> decide

/-- The name of a kind. -/
def typeName : NodeKind → String
  | scene => "Scene"
  | group => "Group"
  | transform => "Transform"
  | switch => "Switch"
  | anchor => "Anchor"
  | collision => "Collision"
  | shape => "Shape"
  | appearance => "Appearance"
  | material => "Material"
  | imageTexture => "ImageTexture"
  | textureTransform => "TextureTransform"
  | indexedFaceSet => "IndexedFaceSet"
  | indexedLineSet => "IndexedLineSet"
  | pointSet => "PointSet"
  | box => "Box"
  | cone => "Cone"
  | cylinder => "Cylinder"
  | sphere => "Sphere"
  | coordinate => "Coordinate"
  | normal => "Normal"
  | color => "Color"
  | textureCoordinate => "TextureCoordinate"
  | viewpoint => "Viewpoint"
  | background => "Background"
  | navigationInfo => "NavigationInfo"
  | worldInfo => "WorldInfo"
  | pointLight => "PointLight"
  | directionalLight => "DirectionalLight"
  | timeSensor => "TimeSensor"
  | coordinateInterpolator => "CoordinateInterpolator"
  | orientationInterpolator => "OrientationInterpolator"
  | positionInterpolator => "PositionInterpolator"
  | script => "Script"

/-- The kind that files call by a name. -/
def ofTypeName? (s : String) : Option NodeKind := registered.find? (·.typeName = s)

/-- Whether nodes of the kind own a list of children. -/
def isGrouping : NodeKind → Bool
  | scene | group | transform | switch | anchor | collision => true
  | _ => false

/-- Whether nodes of the kind pick their points by a list of indices. -/
def indexesPoints : NodeKind → Bool
  | indexedFaceSet | indexedLineSet => true
  | _ => false

/-- The field that holds the children of a grouping node. -/
def childrenField : NodeKind → String
  | switch => "choice"
  | _ => "children"

/-- The field of its parent that a node goes into unless told otherwise. -/
def defaultContainer : NodeKind → String
  | appearance => "appearance"
  | material => "material"
  | imageTexture => "texture"
  | textureTransform => "textureTransform"
  | indexedFaceSet | indexedLineSet | pointSet | box | cone | cylinder | sphere => "geometry"
  | coordinate => "coord"
  | normal => "normal"
  | color => "color"
  | textureCoordinate => "texCoord"
  | _ => "children"

/-- The fields common to the grouping nodes that have a bounding box. -/
def groupingFields : List FieldDecl :=
  [.plain "children" .nodes, .hiddenNodes "addChildren", .hiddenNodes "removeChildren",
    .plain "bboxCenter" (.one .vec3f),
    .item "bboxSize" .vec3f (.diagonal (.ofDecimal true 1 0))]

/-- A number given by its digits and the power of ten of the last one. -/
def number (digits : Nat) (exponent : Int) : Binary64 := .ofDecimal false digits exponent

/-- The fields of a kind, in the order they are declared in. -/
def fields : NodeKind → List FieldDecl
  | scene => [.plain "children" .nodes]
  | group => groupingFields
  | transform =>
    groupingFields ++
      [.plain "center" (.one .vec3f), .plain "rotation" (.one .rotation),
        .item "scale" .vec3f (.diagonal .one), .plain "scaleOrientation" (.one .rotation),
        .plain "translation" (.one .vec3f)]
  | switch => [.plain "choice" .nodes, .item "whichChoice" .int32 (-1)]
  | anchor =>
    groupingFields ++
      [.plain "description" (.one .string), .plain "parameter" (.many .string),
        .plain "url" (.many .string)]
  | collision => groupingFields ++ [.flag "collide", .plain "proxy" .node]
  | shape => [.plain "appearance" .node, .plain "geometry" .node]
  | appearance =>
    [.plain "material" .node, .plain "texture" .node, .plain "textureTransform" .node]
  | material =>
    [.item "ambientIntensity" .float (number 2 (-1)),
      .item "diffuseColor" .color ⟨number 8 (-1), number 8 (-1), number 8 (-1)⟩,
      .plain "emissiveColor" (.one .color), .item "shininess" .float (number 2 (-1)),
      .plain "specularColor" (.one .color), .plain "transparency" (.one .float)]
  | imageTexture => [.plain "url" (.many .string), .flag "repeatS", .flag "repeatT"]
  | textureTransform =>
    [.plain "center" (.one .vec2f), .plain "rotation" (.one .float),
      .item "scale" .vec2f ⟨.one, .one⟩, .plain "translation" (.one .vec2f)]
  | indexedFaceSet =>
    [.plain "color" .node, .plain "coord" .node, .plain "normal" .node, .plain "texCoord" .node,
      .flag "ccw", .plain "colorIndex" (.many .int32), .flag "colorPerVertex", .flag "convex",
      .plain "coordIndex" (.many .int32), .plain "creaseAngle" (.one .float),
      .plain "normalIndex" (.many .int32), .flag "normalPerVertex", .flag "solid",
      .plain "texCoordIndex" (.many .int32)]
  | indexedLineSet =>
    [.plain "color" .node, .plain "coord" .node, .plain "colorIndex" (.many .int32),
      .flag "colorPerVertex", .plain "coordIndex" (.many .int32)]
  | pointSet => [.plain "color" .node, .plain "coord" .node]
  | box => [.item "size" .vec3f (.diagonal (number 2 0))]
  | cone =>
    [.item "bottomRadius" .float .one, .item "height" .float (number 2 0), .flag "side",
      .flag "bottom"]
  | cylinder =>
    [.flag "bottom", .item "height" .float (number 2 0), .item "radius" .float .one, .flag "side",
      .flag "top"]
  | sphere => [.item "radius" .float .one]
  | coordinate => [.plain "point" (.many .vec3f)]
  | normal => [.plain "vector" (.many .vec3f)]
  | color => [.plain "color" (.many .color)]
  | textureCoordinate => [.plain "point" (.many .vec2f)]
  | viewpoint =>
    [.item "fieldOfView" .float (number 785398 (-6)), .flag "jump",
      .plain "orientation" (.one .rotation),
      .item "position" .vec3f ⟨.zero, .zero, number 10 0⟩, .plain "description" (.one .string)]
  | background =>
    [.plain "groundAngle" (.many .float), .plain "groundColor" (.many .color),
      .plain "skyAngle" (.many .float), .items "skyColor" .color [.black]]
  | navigationInfo =>
    [.items "avatarSize" .float [number 25 (-2), number 16 (-1), number 75 (-2)],
      .flag "headlight", .item "speed" .float .one, .items "type" .string ["WALK", "ANY"],
      .plain "visibilityLimit" (.one .float)]
  | worldInfo => [.plain "info" (.many .string), .plain "title" (.one .string)]
  | pointLight =>
    [.plain "ambientIntensity" (.one .float),
      .item "attenuation" .vec3f ⟨.one, .zero, .zero⟩,
      .item "color" .color ⟨.one, .one, .one⟩, .item "intensity" .float .one,
      .plain "location" (.one .vec3f), .flag "on", .item "radius" .float (number 100 0)]
  | directionalLight =>
    [.plain "ambientIntensity" (.one .float), .item "color" .color ⟨.one, .one, .one⟩,
      .item "direction" .vec3f ⟨.zero, .zero, .ofDecimal true 1 0⟩,
      .item "intensity" .float .one, .flag "on"]
  | timeSensor =>
    [.item "cycleInterval" .time .one, .flag "enabled", .plain "loop" (.one .bool),
      .plain "startTime" (.one .time), .plain "stopTime" (.one .time)]
  | coordinateInterpolator => [.plain "key" (.many .float), .plain "keyValue" (.many .vec3f)]
  | orientationInterpolator => [.plain "key" (.many .float), .plain "keyValue" (.many .rotation)]
  | positionInterpolator => [.plain "key" (.many .float), .plain "keyValue" (.many .vec3f)]
  | script =>
    [.plain "url" (.many .string), .plain "directOutput" (.one .bool),
      .plain "mustEvaluate" (.one .bool)]

/-- The declaration of a field. -/
def field? (k : NodeKind) (name : String) : Option FieldDecl := k.fields.find? (·.name = name)

end NodeKind

end SceneTidy
