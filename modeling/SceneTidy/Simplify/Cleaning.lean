import SceneTidy.Simplify.Folding

/-!
# Cleaning a scene

One pass from the leaves up.  A rotation by no angle gets the usual axis, materials get fixed
values, face sets a fixed solidity; appearances of one material become the first of them, and a
group or an identity transform with a single child becomes the child.

The pass decides for each node which node replaces it, and remembers that, so that shared nodes are
replaced alike.  A node that is still being cleaned stands for itself.
-/

namespace SceneTidy

/-- The values that cleaning gives to materials and, if any, to the solidity of face sets. -/
structure CleanValues where
  ambientIntensity : Binary64
  shininess : Binary64
  specularColor : Color
  forceSolid : Option Bool
  deriving DecidableEq, Repr

/-- The usual values. -/
def CleanValues.standard : CleanValues :=
  ⟨.ofDecimal false 2 (-1), .ofDecimal false 2 (-1), .black, some true⟩

/-- What a cleaning remembers: the first appearance of each material, the replacement of each node
met (the last entry counts), and what it did. -/
structure CleanMemory where
  appearances : List (NodeId × NodeId)
  replacements : List (NodeId × NodeId)
  unwrapped : Nat
  shared : Nat

/-- Nothing to remember. -/
def CleanMemory.empty : CleanMemory := ⟨[], [], 0, 0⟩

/-- A scene that is being cleaned. -/
structure CleanState where
  scene : Scene
  memory : CleanMemory

namespace Node

/-- A rotation by no angle gets the usual axis. -/
def straightenValue : FieldValue → FieldValue
  | .one .rotation r => .one .rotation (if r.angle.same .zero then Rotation.identity else r)
  | v => v

theorem kind_straightenValue (v : FieldValue) : (straightenValue v).kind = v.kind := by
  unfold straightenValue
  split <;> rfl

/-- Every rotation by no angle gets the usual axis. -/
def straighten (n : Node) : Node :=
  { n with
    values := n.values.map straightenValue
    kinds_eq := by
      rw [← n.kinds_eq, List.map_map]
      exact List.map_congr_left fun v _ => kind_straightenValue v }

/-- The fixed values of a material or a face set. -/
def applyValues (c : CleanValues) (n : Node) : Node :=
  match n.kind with
  | .material =>
    ((n.set "ambientIntensity" (.one .float c.ambientIntensity)).set "shininess"
      (.one .float c.shininess)).set "specularColor" (.one .color c.specularColor)
  | .indexedFaceSet =>
    match c.forceSolid with
    | some solid => n.set "solid" (.one .bool solid)
    | none => n
  | _ => n

/-- The child that takes the place of a node: the only one of a group, or of a transform that moves
nothing. -/
def onlyChild? (n : Node) : Option NodeId :=
  match n.children with
  | [child] =>
    if n.kind = .group ∨ (n.kind = .transform ∧ n.placement.isIdentity) then some child else none
  | _ => none

end Node

namespace CleanState

/-- Change the scene. -/
def mapScene (st : CleanState) (f : Scene → Scene) : CleanState := { st with scene := f st.scene }

/-- Remember the replacement of a node. -/
def replace (st : CleanState) (id replacement : NodeId) : CleanState :=
  { st with memory :=
    { st.memory with replacements := (id, replacement) :: st.memory.replacements } }

/-- The first appearance of a material, remembering this one if it is the first. -/
def firstAppearance (st : CleanState) (material appearance : NodeId) : NodeId × CleanState :=
  match st.memory.appearances.lookup material with
  | some first => (first, st)
  | none =>
    (appearance, { st with memory :=
      { st.memory with appearances := (material, appearance) :: st.memory.appearances } })

/-- Count one shared appearance. -/
def countShared (st : CleanState) : CleanState :=
  { st with memory := { st.memory with shared := st.memory.shared + 1 } }

/-- Count one unwrapped node. -/
def countUnwrapped (st : CleanState) : CleanState :=
  { st with memory := { st.memory with unwrapped := st.memory.unwrapped + 1 } }

/-- A cleaning of nodes, which gives their replacements. -/
abbrev Cleaner := NodeId → CleanState → NodeId × CleanState

/-- Clean the nodes of a list. -/
def cleanList (clean : Cleaner) : List NodeId → CleanState → List NodeId × CleanState
  | [], st => ([], st)
  | id :: ids, st =>
    let (r, st) := clean id st
    let (rs, st) := cleanList clean ids st
    (r :: rs, st)

/-- Clean what a field refers to, and put the replacements into it. -/
def cleanField (clean : Cleaner) (id : NodeId) (st : CleanState)
    (field : FieldDecl × FieldValue) : CleanState :=
  match field.2 with
  | .node (some target) =>
    let (r, st) := clean target st
    st.mapScene (·.set id field.1.name (.node (some r)))
  | .nodes targets =>
    let (rs, st) := cleanList clean targets st
    st.mapScene (·.set id field.1.name (.nodes rs))
  | _ => st

/-- Put a node's only child in its place, if it has to go. -/
def unwrap (id : NodeId) (st : CleanState) : NodeId × CleanState :=
  match (st.scene.node? id).bind Node.onlyChild? with
  | some child => (child, st.countUnwrapped.replace id child)
  | none => (id, st.replace id id)

/-- The material of an appearance. -/
def materialOf (n : Node) : Option NodeId :=
  if n.kind = .appearance then n.target "material" else none

/-- Clean what lies below a node, and then the node. -/
def cleanBelow (clean : Cleaner) (id : NodeId) (n : Node) (st : CleanState) :
    NodeId × CleanState :=
  unwrap id (n.slots.foldl (cleanField clean id) st)

/-- Clean a node and everything below it; the result is its replacement.  The bound limits the
depth. -/
def clean (values : CleanValues) : Nat → Cleaner
  | 0, id, st => (id, st)
  | bound + 1, id, st =>
    match st.memory.replacements.lookup id with
    | some r => (r, st)
    | none =>
      match st.scene.node? id with
      | none => (id, st)
      | some n =>
        let n := n.straighten.applyValues values
        let st := (st.replace id id).mapScene (·.modify id fun _ => n)
        match materialOf n with
        | some material =>
          let (first, st) := st.firstAppearance material id
          if first = id then cleanBelow (clean values bound) id n st
          else (first, st.countShared.replace id first)
        | none => cleanBelow (clean values bound) id n st

end CleanState

namespace Scene

/-- Clean below a node with what was remembered before; the result is the node's replacement.  Each
level of the descent meets a new node, so the size of the store bounds the depth. -/
def cleanNode (s : Scene) (values : CleanValues) (memory : CleanMemory) (id : NodeId) :
    NodeId × CleanState :=
  CleanState.clean values (s.size + 1) id ⟨s, memory⟩

/-- Clean a whole scene. -/
def clean (s : Scene) (values : CleanValues) (memory : CleanMemory) : Change CleanMemory :=
  let st := (s.cleanNode values memory s.root).2
  ⟨st.scene, [.cleaned st.memory.unwrapped st.memory.shared], .ok st.memory⟩

end Scene

end SceneTidy
