import SceneTidy.Scene.Change
import SceneTidy.Scene.Walk

/-!
# Dropping junk

Junk is judged from the leaves up, each node once: a shape by the rules, a group that has nothing to
do with the group to keep, and a group or transform whose children are all junk.  Junk leaves the
lists that refer to it; single references stay.

The judgement of a node is first recorded as "no junk" and then corrected, so that a reference back
to a node that is still being judged keeps it.
-/

namespace SceneTidy

/-- What counts as junk: shapes of given numbers, shapes that show line sets, and, if there is a
group to keep, every group that is neither inside it nor above it.  A group may be asked for without
a number, and then there is none to find. -/
structure JunkRules where
  excluded : List Int
  lineSets : Bool
  keep : Option (Option Int)
  deriving DecidableEq, Repr

/-- The rules when none are given. -/
def JunkRules.standard : JunkRules := ⟨[], true, none⟩

/-- The group to keep, and the nodes inside it and above it. -/
structure KeptGroup where
  group : NodeId
  spared : List NodeId

/-- A table of verdicts on nodes; the last entry for a node counts. -/
abbrev Verdicts := List (NodeId × Bool)

namespace Scene

/-- Whether references lead from a node to a target, with the verdicts on the way; the bound limits
the depth. -/
def leadsTo (s : Scene) (target : NodeId) : Nat → NodeId → Verdicts → Bool × Verdicts
  | 0, _, vs => (false, vs)
  | bound + 1, id, vs =>
    if id = target then (true, vs)
    else
      match vs.lookup id with
      | some v => (v, vs)
      | none =>
        let (found, vs) := (s.refs id).foldl
          (fun (found, vs) child =>
            let (v, vs) := s.leadsTo target bound child vs
            (found || v, vs))
          (false, (id, false) :: vs)
        (found, (id, found) :: vs)

/-- The nodes above a target, as far as they are seen from a start. -/
def above (s : Scene) (start target : NodeId) : List NodeId :=
  let vs := (s.leadsTo target (s.size + 1) start []).2
  (s.walk start).filter fun id => (vs.lookup id).getD false

/-- The group of a number, if it is reachable from a start. -/
def findGroup (s : Scene) (numberOf : NodeId → Option Nat) (start : NodeId)
    (number : Option Int) : Except SceneError NodeId :=
  match (s.walk start).find? fun id => (numberOf id).any fun n => some (n : Int) = number with
  | some id => if s.isKind .group id then .ok id else .error (.notReachableGroup number)
  | none => .error (.notReachableGroup number)

/-- The kept group that the rules ask for. -/
def keptGroup (s : Scene) (numberOf : NodeId → Option Nat) (rules : JunkRules) (start : NodeId) :
    Except SceneError (Option KeptGroup) :=
  match rules.keep with
  | none => .ok none
  | some number => do
    let group ← s.findGroup numberOf start number
    return some ⟨group, s.above start group ++ s.walk group⟩

end Scene

/-- A scene under judgement: the verdicts so far and the number of list entries dropped. -/
structure Judging where
  scene : Scene
  verdicts : Verdicts
  dropped : Nat

/-- What a judgement goes by. -/
structure JunkCase where
  numberOf : NodeId → Option Nat
  rules : JunkRules
  kept : Option KeptGroup

namespace JunkCase

/-- Whether a shape is junk. -/
def isJunkShape (c : JunkCase) (s : Scene) (id : NodeId) (n : Node) : Bool :=
  (c.rules.lineSets && ((n.target "geometry").map (s.isKind .indexedLineSet)).getD false) ||
    (c.numberOf id).any fun k => c.rules.excluded.contains (k : Int)

/-- Whether a node is a group that has nothing to do with the kept one. -/
def isUnrelated (c : JunkCase) (id : NodeId) (n : Node) : Bool :=
  match c.kept with
  | none => false
  | some k => n.kind == .group && !k.spared.contains id

/-- Whether the node is the kept group. -/
def isKept (c : JunkCase) (id : NodeId) : Bool :=
  match c.kept with
  | none => false
  | some k => k.group = id

/-- A judgement of nodes. -/
abbrev Judge := NodeId → Judging → Bool × Judging

/-- Judge the nodes of a list; the result lists those that are no junk. -/
def sift (judge : Judge) : List NodeId → Judging → List NodeId × Judging
  | [], st => ([], st)
  | id :: ids, st =>
    let (junk, st) := judge id st
    let (kept, st) := sift judge ids st
    (if junk then kept else id :: kept, st)

/-- Judge what a field refers to, and drop the junk from a list. -/
def siftField (judge : Judge) (id : NodeId) (st : Judging) (field : FieldDecl × FieldValue) :
    Judging :=
  match field.2 with
  | .node (some target) => (judge target st).2
  | .nodes targets =>
    let (kept, st) := sift judge targets st
    if kept.length = targets.length then st
    else
      { st with
        scene := st.scene.set id field.1.name (.nodes kept)
        dropped := st.dropped + (targets.length - kept.length) }
  | _ => st

/-- Whether nothing is left of a group or transform. -/
def isEmptied (s : Scene) (id : NodeId) : Bool :=
  (s.isKind .group id || s.isKind .transform id) && (s.children id).isEmpty

/-- Judge a node, and drop the junk below it; the bound limits the depth. -/
def judge (c : JunkCase) : Nat → Judge
  | 0, _, st => (false, st)
  | bound + 1, id, st =>
    match st.verdicts.lookup id with
    | some v => (v, st)
    | none =>
      match st.scene.node? id with
      | none => (false, st)
      | some n =>
        let st := { st with verdicts := (id, false) :: st.verdicts }
        let (junk, st) :=
          if n.kind = .shape then (c.isJunkShape st.scene id n, st)
          else if c.isUnrelated id n then (true, st)
          else
            let st := n.slots.foldl (siftField (c.judge bound) id) st
            (!c.isKept id && isEmptied st.scene id, st)
        (junk, { st with verdicts := (id, junk) :: st.verdicts })

end JunkCase

namespace Scene

/-- Judge one node of a scene.  Each level of the descent meets a new node, so the size of the store
bounds the depth. -/
def judgeJunk (s : Scene) (c : JunkCase) (id : NodeId) : Bool × Judging :=
  c.judge (s.size + 1) id ⟨s, [], 0⟩

/-- Drop the junk below a start; the result is the number of list entries dropped. -/
def dropJunk (s : Scene) (numberOf : NodeId → Option Nat) (rules : JunkRules) (start : NodeId) :
    Change Nat :=
  match s.keptGroup numberOf rules start with
  | .error e => ⟨s, [], .error e⟩
  | .ok kept =>
    let st := (s.judgeJunk ⟨numberOf, rules, kept⟩ start).2
    ⟨st.scene, if st.dropped = 0 then [] else [.pruned st.dropped], .ok st.dropped⟩

end Scene

end SceneTidy
