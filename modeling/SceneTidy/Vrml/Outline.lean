import SceneTidy.Scene.Sharing
import SceneTidy.Vrml.Block

/-!
# The outline of a scene

How a scene is laid out in a file: a node is written in full where it is first met, and afterwards
used by its name.  Fields that hold their declared value are left out, and the rest are ordered:
plain items first, then single references, then lists, and by name among themselves.
-/

namespace SceneTidy

/-- The place of a kind of field in a written node. -/
def FieldKind.rank : FieldKind → Nat
  | .one _ => 0
  | .node => 1
  | .many _ | .nodes => 2

/-- The order of fields in a written node. -/
def FieldDecl.precedes (a b : FieldDecl) : Bool :=
  a.kind.rank < b.kind.rank || (a.kind.rank == b.kind.rank && (a.name < b.name || a.name == b.name))

/-- The fields of a node that a file shows, in their order. -/
def Node.written (n : Node) : List (String × FieldValue) :=
  ((n.changed.filter (·.1.exposed)).mergeSort fun a b => a.1.precedes b.1).map
    fun (d, v) => (d.name, v)

namespace Vrml

/-- A block for the node met at a place, or none if there is no node; the second part lists the
nodes met so far. -/
abbrev Meeting := NodeId → List NodeId → Option (Block NodeId) × List NodeId

/-- The blocks of the nodes of a list. -/
def outlineList (meet : Meeting) : List NodeId → List NodeId → Blocks NodeId × List NodeId
  | [], met => (.nil, met)
  | id :: ids, met =>
    let (b, met) := meet id met
    let (bs, met) := outlineList meet ids met
    (match b with
      | none => bs
      | some b => .cons b bs, met)

/-- The body of a node with given fields. -/
def outlineBody (meet : Meeting) :
    List (String × FieldValue) → List NodeId → Body NodeId × List NodeId
  | [], met => (.done, met)
  | (field, v) :: rest, met =>
    match v with
    | .node (some id) =>
      let (b, met) := meet id met
      let (body, met) := outlineBody meet rest met
      (match b with
        | none => .value field (.node none) body
        | some b => .single field b body, met)
    | .nodes ids =>
      let (bs, met) := outlineList meet ids met
      let (body, met) := outlineBody meet rest met
      (.list field bs body, met)
    | v =>
      let (body, met) := outlineBody meet rest met
      (.value field v body, met)

end Vrml

namespace Scene

open Vrml

/-- The outline of the node met at a place, given the names of the shared nodes. -/
def outlineNode (s : Scene) (names : List (NodeId × String)) : Nat → Meeting
  | 0, _, met => (none, met)
  | bound + 1, id, met =>
    if met.contains id then (some (.use ((names.lookup id).getD "")), met)
    else
      match s.node? id with
      | none => (none, met)
      | some n =>
        let fields := if n.kind.isRegistered then n.written else []
        let (body, met) := outlineBody (s.outlineNode names bound) fields (id :: met)
        (some (.node id (names.lookup id) n.kind body), met)

/-- The outline of a scene: one block for each entry of the top level.  Each level of the descent
meets a new node, so the size of the store bounds the depth. -/
def outline (s : Scene) : Blocks NodeId :=
  (outlineList (s.outlineNode s.sharedNames (s.size + 1)) (s.children s.root) []).1

end Scene

end SceneTidy
