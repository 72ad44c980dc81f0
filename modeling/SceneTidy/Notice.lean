import SceneTidy.Text.Shown

/-!
# Notices

What the program tells about its work besides the result: each notice has a level, a channel that
says which part of the program speaks, and a wording.
-/

namespace SceneTidy

/-- How much a notice matters. -/
inductive Level
  | debug
  | info
  | warning
  deriving DecidableEq, Repr

/-- The part of the program a notice comes from. -/
inductive Channel
  | root
  | command
  | pipeline
  | vrmlReader
  | x3dReader
  | writer
  | prune
  | fold
  | unify
  | cleanup
  deriving DecidableEq, Repr

/-- The stages of a run over a scene. -/
inductive Stage
  | prune
  | fold
  | unify
  | cleanup
  deriving DecidableEq, Repr

/-- Something worth telling. -/
inductive Notice
  | loggingReady
  | headerMissing (header : String)
  | routeIgnored (source target : String) (line : Nat)
  | readingVrml (path : String)
  | readingX3d (path : String)
  | attributeIgnored (name node : String)
  | elementIgnored (name parent : String)
  | nodeSkipped (type : String)
  | sharedNodes (count : Nat)
  | fileWritten (path : String)
  | runWritten (path : String)
  | nodesNumbered (count : Nat)
  | stageStarted (stage : Stage)
  | pruned (entries : Nat)
  | folded (transforms : Nat)
  | shapesMerged (shapes kept faces points : Nat)
  | unified (shapes groups : Nat)
  | cleaned (unwrapped shared : Nat)
  | pruningUnused (preset : String)
  | shapeLength (id : Option Nat) (name : Option String) (length : Nat)
  | groupLength (depth : Nat) (id : Option Nat) (type : String) (length : Nat)
  deriving DecidableEq, Repr

namespace Level

/-- The name of a level. -/
def name : Level → String
  | debug => "DEBUG"
  | info => "INFO"
  | warning => "WARNING"

/-- Whether a level is shown when debugging is off. -/
def isUsual : Level → Bool
  | debug => false
  | info | warning => true

end Level

namespace Channel

/-- The name of a channel. -/
def name : Channel → String
  | root => "vrml_fixer"
  | command => "vrml_fixer.cli"
  | pipeline => "vrml_fixer.pipeline"
  | vrmlReader => "vrml_fixer.parser.vrml_parser"
  | x3dReader => "vrml_fixer.parser.x3d_reader"
  | writer => "vrml_fixer.writer"
  | prune => "vrml_fixer.fixes.prune"
  | fold => "vrml_fixer.fixes.fold"
  | unify => "vrml_fixer.fixes.unify"
  | cleanup => "vrml_fixer.fixes.cleanup"

end Channel

namespace Stage

/-- What is told when a stage starts. -/
def message : Stage → String
  | prune => "Pruning junk"
  | fold => "Folding transforms"
  | unify => "Unifying shapes"
  | cleanup => "Cleaning up"

end Stage

/-- How a report calls a node: by its number, or as new if it has none. -/
def nodeLabel : Option Nat → String
  | some id => s!"#{id}"
  | none => "(new)"

namespace Notice

/-- The level of a notice. -/
def level : Notice → Level
  | headerMissing _ | routeIgnored .. | attributeIgnored .. | elementIgnored .. | pruningUnused _ =>
    .warning
  | loggingReady | nodeSkipped _ | sharedNodes _ | nodesNumbered _ | stageStarted _
  | shapesMerged .. => .debug
  | readingVrml _ | readingX3d _ | fileWritten _ | runWritten _ | pruned _ | folded _ | unified ..
  | cleaned .. | shapeLength .. | groupLength .. => .info

/-- The channel of a notice. -/
def channel : Notice → Channel
  | loggingReady => .root
  | headerMissing _ | routeIgnored .. | readingVrml _ => .vrmlReader
  | readingX3d _ | attributeIgnored .. | elementIgnored .. | nodeSkipped _ => .x3dReader
  | sharedNodes _ | fileWritten _ => .writer
  | runWritten _ | nodesNumbered _ | stageStarted _ => .pipeline
  | pruned _ => .prune
  | folded _ => .fold
  | shapesMerged .. | unified .. => .unify
  | cleaned .. => .cleanup
  | pruningUnused _ | shapeLength .. | groupLength .. => .command

/-- The wording of a notice. -/
def message : Notice → String
  | loggingReady => "Logging initialized."
  | headerMissing header => s!"Input does not start with a {Text.shown header} header"
  | routeIgnored source target line => s!"Ignoring ROUTE {source} TO {target} on line {line}"
  | readingVrml path => s!"Reading VRML {path}"
  | readingX3d path => s!"Reading X3D {path}"
  | attributeIgnored name node => s!"Ignoring attribute {name} on node {node}"
  | elementIgnored name parent => s!"Ignoring {name} element in {parent}"
  | nodeSkipped type => s!"Skipping {type}"
  | sharedNodes count => s!"{count} shared nodes will be written with DEF/USE"
  | fileWritten path | runWritten path => s!"Wrote {path}"
  | nodesNumbered count => s!"Numbered {count} nodes"
  | stageStarted stage => stage.message
  | pruned entries => s!"Pruned {entries} junk nodes"
  | folded transforms => s!"Folded {transforms} duplicate transforms"
  | shapesMerged shapes kept faces points =>
    s!"Merged {shapes} shapes: {kept} of {faces} faces kept, {points} points"
  | unified shapes groups => s!"Unified {shapes} face-set shapes in {groups} groups"
  | cleaned unwrapped shared =>
    s!"Cleanup unwrapped {unwrapped} nodes and shared {shared} appearances"
  | pruningUnused preset =>
    s!"The {preset} preset doesn't prune junk; pruning options are ignored"
  | shapeLength id name length =>
    let called := match name with
      | some n => if n = "" then "" else " " ++ n
      | none => ""
    s!"Shape {nodeLabel id}{called}: {length} characters"
  | groupLength depth id type length =>
    let margin := String.ofList (List.replicate (2 * depth) ' ')
    s!"{margin}[{nodeLabel id}] {type}: {length} characters"

end Notice

end SceneTidy
