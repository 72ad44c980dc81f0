import SceneTidy.Scene.Change
import SceneTidy.Vrml.Block
import SceneTidy.Vrml.Reader

/-!
# Planting blocks in a scene

Each written node becomes one new node of the store, and each use the node that last got its name.
A name is known from the start of the block that defines it, so a block may use its own name.
-/

namespace SceneTidy.Vrml

/-- A scene that grows, and the nodes that names stand for, the last one first. -/
structure Bed where
  scene : Scene
  names : List (String × NodeId)

namespace Bed

/-- Add a node of a kind, at the next place. -/
def grow (bed : Bed) (kind : NodeKind) (name : Option String) : Bed :=
  ⟨bed.scene.push (Node.create kind name),
    (name.map fun n => (n, bed.scene.next)).toList ++ bed.names⟩

/-- Give a field of a node a value. -/
def set (bed : Bed) (id : NodeId) (field : String) (v : FieldValue) : Bed :=
  { bed with scene := bed.scene.set id field v }

end Bed

mutual

/-- Plant a block; the result is its node. -/
def Block.plant : Block α → Bed → Option NodeId × Bed
  | .use name, bed => (bed.names.lookup name, bed)
  | .node _ name kind body, bed =>
    (some bed.scene.next, body.plant bed.scene.next (bed.grow kind name))

/-- Plant the fields of a node. -/
def Body.plant (id : NodeId) : Body α → Bed → Bed
  | .done, bed => bed
  | .value field v rest, bed => rest.plant id (bed.set id field v)
  | .single field b rest, bed =>
    let (target, bed) := b.plant bed
    rest.plant id (bed.set id field (.node target))
  | .list field bs rest, bed =>
    let (targets, bed) := bs.plant bed
    rest.plant id (bed.set id field (.nodes targets))

/-- Plant a list of blocks; the result is their nodes. -/
def Blocks.plant : Blocks α → Bed → List NodeId × Bed
  | .nil, bed => ([], bed)
  | .cons b bs, bed =>
    let (target, bed) := b.plant bed
    let (targets, bed) := bs.plant bed
    (target.toList ++ targets, bed)

end

end SceneTidy.Vrml

namespace SceneTidy

open Vrml

/-- Put the nodes of blocks at the end of the top level.  The names of the blocks are their own:
nodes that were there before have none. -/
def Scene.plant (s : Scene) (bs : List (Block α)) : Scene :=
  let (targets, bed) := (Blocks.ofList bs).plant ⟨s, []⟩
  bed.scene.appendTop targets

/-- Put what was read at the end of the top level of a scene; what came before a failure stays. -/
def Scene.take (s : Scene) (r : Reading) : Change Unit :=
  ⟨s.plant r.blocks, r.notices, match r.failure with
    | some e => .error e
    | none => .ok ()⟩

/-- Read a text into a scene. -/
def Scene.readInto (s : Scene) (text : String) : Change Unit := s.take (readText text)

/-- What a scene file starts with. -/
def vrmlHeader : String := "#VRML V2.0"

/-- The text without byte order marks at its start. -/
def withoutMarks (s : List Char) : List Char := s.dropWhile (· = '\uFEFF')

/-- Read a whole file into a scene; a file without the header is read all the same, and told. -/
def Scene.readVrml (s : Scene) (text : String) : Change Unit :=
  let body := withoutMarks text.toList
  let told := if vrmlHeader.toList.isPrefixOf body then [] else [.headerMissing vrmlHeader]
  let c := s.readInto (String.ofList body)
  { c with notices := told ++ c.notices }

end SceneTidy
