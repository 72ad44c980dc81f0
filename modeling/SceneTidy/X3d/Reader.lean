import SceneTidy.Field.Text
import SceneTidy.Scene.Change
import SceneTidy.Xml.Element

/-!
# Reading X3D documents

An X3D document writes each node as an element: the tag names its kind, attributes give its plain
fields, and elements inside it are the nodes it refers to.  An element goes into the field of its
parent that its `containerField` names, or into the usual one of its kind.  Routes and document
information are told and dropped, and nodes of some kinds are not put into grouping nodes.
-/

namespace SceneTidy.X3d

/-- The kinds of node that are not put into grouping nodes, unless told otherwise. -/
def usuallySkipped : List NodeKind := [.navigationInfo, .background, .directionalLight]

/-- The elements that are told and dropped. -/
def ignoredTags : List String := ["ROUTE", "head", "meta", "component", "unit"]

/-- The attributes that are no fields. -/
def silentAttributes : List String := ["DEF", "USE", "containerField"]

/-- The words of an attribute: blanks and commas separate them. -/
def splitNumbers (s : List Char) : List (List Char) :=
  Text.runsOutside (fun c => Text.isBlank c || c = ',') s

/-- The strings of an attribute: the quoted ones, or all of it if there are none. -/
def splitStrings (s : List Char) : List (List Char) :=
  match Text.Quoted.items s with
  | [] => if (Text.strip s).isEmpty then [] else [Text.strip s]
  | items => items

/-- The scene read so far, the nodes that names stand for with the last one first, and the notices
given so far. -/
structure ReadState where
  scene : Scene
  names : List (String × NodeId)
  notices : List Notice

/-- A reader of elements, which keeps its state when it fails. -/
abbrev Reader := EStateM SceneError ReadState

namespace Reader

/-- Tell a notice. -/
def tell (n : Notice) : Reader Unit := modify fun st => { st with notices := st.notices ++ [n] }

/-- Change the scene. -/
def change (f : Scene → Scene) : Reader Unit := modify fun st => { st with scene := f st.scene }

/-- Add a node of a kind, under a name if it has one. -/
def create (kind : NodeKind) (name : Option String) : Reader NodeId := do
  let st ← get
  let id := st.scene.next
  set { st with
    scene := st.scene.push (Node.create kind name)
    names := (name.map fun n => (n, id)).toList ++ st.names }
  return id

/-- The value that the text of an attribute gives to a field. -/
def attributeValue (kind : FieldKind) (text : String) : Except SceneError FieldValue :=
  match kind with
  | .one .string => .ok (.one .string text)
  | .many .string => .ok (.many .string ((splitStrings text.toList).map String.ofList))
  | kind => kind.read ((splitNumbers text.toList).map String.ofList)

/-- Whether a field holds references. -/
def holdsNodes (d : FieldDecl) : Bool := d.kind = .node || d.kind = .nodes

/-- Read one attribute of a node; one that is no plain field of its kind is told and dropped. -/
def readAttribute (id : NodeId) (kind : NodeKind) (attr : String × String) : Reader Unit := do
  let name := Xml.localName attr.1
  if silentAttributes.contains name then return ()
  match (kind.field? name).filter (!holdsNodes ·) with
  | none => tell (.attributeIgnored name kind.typeName)
  | some d =>
    match attributeValue d.kind attr.2 with
    | .ok v => change (·.set id name v)
    | .error (.malformed cause) => throw (.malformed (.atAttribute name kind.typeName cause))
    | .error e => throw e

/-- The field of a parent that a child goes into. -/
def containerOf (parent child : NodeKind) (asked : Option String) : String :=
  let field := match asked with
    | none | some "" => child.defaultContainer
    | some f => f
  if field = "children" ∧ parent.isGrouping then parent.childrenField else field

/-- Put a child into a field of its parent: in the place of what a single reference held, or at the
end of a list. -/
def attach (parent : NodeId) (parentKind : NodeKind) (child : NodeId) (childKind : NodeKind)
    (asked : Option String) : Reader Unit := do
  let field := containerOf parentKind childKind asked
  match (parentKind.field? field).map FieldDecl.kind with
  | some .node => change (·.set parent field (.node (some child)))
  | some .nodes =>
    change (·.modify parent fun n => n.set field (.nodes (n.targets field ++ [child])))
  | _ =>
    throw (.malformed (.cannotNest childKind.typeName parentKind.typeName field))

mutual

/-- Read an element as a node; the result is the node and its kind. -/
def readNode (skipped : List NodeKind) : Xml.Item → Reader (NodeId × NodeKind)
  | .aside => throw .asideBeforeScene
  | .element tag attributes children => do
    match attributes.lookup "USE" with
    | some name =>
      let st ← get
      match st.names.lookup name with
      | some id => return (id, (st.scene.kind? id).getD .scene)
      | none => throw (.undefinedName name)
    | none =>
      let type := Xml.localName tag
      match NodeKind.ofTypeName? type with
      | none => throw (.unsupportedNode type)
      | some kind =>
        let id ← create kind (attributes.lookup "DEF")
        attributes.forM (readAttribute id kind)
        readChildren skipped id kind type children
        return (id, kind)

/-- Read the elements inside the element of a parent. -/
def readChildren (skipped : List NodeKind) (parent : NodeId) (parentKind : NodeKind)
    (parentTag : String) : List Xml.Item → Reader Unit
  | [] => return ()
  | .aside :: rest => readChildren skipped parent parentKind parentTag rest
  | .element tag attributes children :: rest => do
    let type := Xml.localName tag
    if ignoredTags.contains type then tell (.elementIgnored type parentTag)
    else
      let (child, kind) ← readNode skipped (.element tag attributes children)
      if parentKind.isGrouping && skipped.contains kind then tell (.nodeSkipped kind.typeName)
      else attach parent parentKind child kind (attributes.lookup "containerField")
    readChildren skipped parent parentKind parentTag rest

end

end Reader

/-- The first scene element among the children of a document's element. -/
def findScene : List Xml.Item → Except SceneError (List Xml.Item)
  | [] => .error (.malformed .noSceneElement)
  | .aside :: _ => .error .asideBeforeScene
  | .element tag _ children :: rest =>
    if Xml.localName tag = "Scene" then .ok children else findScene rest

/-- The elements inside the scene element of a document. -/
def sceneItems : Xml.Item → Except SceneError (List Xml.Item)
  | .aside => .error .asideBeforeScene
  | .element tag _ children =>
    if Xml.localName tag = "Scene" then .ok children else findScene children

/-- Read a document into a new scene, without putting nodes of the skipped kinds into grouping
nodes. -/
def readDocument (skipped : List NodeKind) (document : Xml.Item) : Change Unit :=
  match sceneItems document with
  | .error e => ⟨.empty, [], .error e⟩
  | .ok items =>
    let start : ReadState := ⟨.empty, [], []⟩
    match Reader.readChildren skipped Scene.empty.root .scene "Scene" items start with
    | .ok _ st => ⟨st.scene, st.notices, .ok ()⟩
    | .error e st => ⟨st.scene, st.notices, .error e⟩

end SceneTidy.X3d
