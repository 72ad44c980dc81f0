import SceneTidy.Simplify.Cleaning
import SceneTidy.Simplify.Junk
import SceneTidy.Simplify.Merging

/-!
# Plans

A plan says which simplifications run on a scene and how.  They always run in the order: drop junk,
fold transforms, merge shapes, clean.  A plan is made from choices, which may start from a preset;
choices that contradict each other are refused.  Main statement: a plan that merges shapes and
cleans does not make face sets one-sided.
-/

namespace SceneTidy

/-- Choices for a plan; what is not chosen has its usual value. -/
structure Choices where
  dropJunk : Option Bool
  foldTransforms : Option Bool
  mergeShapes : Option Bool
  clean : Option Bool
  rules : Option JunkRules
  ignoreWinding : Option Bool
  forceSolid : Option (Option Bool)
  ambientIntensity : Option Binary64
  shininess : Option Binary64
  specularColor : Option Color
  indent : Option Int

/-- Why choices make no plan. -/
inductive PlanError
  | unknownPreset (name : String)
  | negativeIndent (indent : Int)
  | solidConflict
  deriving DecidableEq, Repr

/-- The presets. -/
inductive Preset
  | unify
  | cleanup
  deriving DecidableEq, Repr

namespace Preset

/-- The name of a preset. -/
def name : Preset → String
  | unify => "unify"
  | cleanup => "cleanup"

/-- All presets, by name. -/
def all : List Preset := [cleanup, unify]

/-- The preset of a name. -/
def ofName? (s : String) : Option Preset := all.find? (·.name = s)

end Preset

/-- The wording of a refusal. -/
def PlanError.message : PlanError → String
  | unknownPreset name =>
    let known := ", ".intercalate (Preset.all.map fun p => Text.shown p.name)
    s!"Unknown preset {Text.shown name}, expected one of [{known}]"
  | negativeIndent indent => s!"Expected a non-negative indent, got {indent}"
  | solidConflict =>
    "Shape unification writes solid FALSE face sets; combining it with " ++
      "a cleanup that forces solid TRUE would undo it. Pick one preset."

namespace Choices

/-- No choice at all. -/
def unmade : Choices :=
  ⟨none, none, none, none, none, none, none, none, none, none, none⟩

/-- The choices, with others where there is no choice. -/
def orElse (a b : Choices) : Choices where
  dropJunk := a.dropJunk <|> b.dropJunk
  foldTransforms := a.foldTransforms <|> b.foldTransforms
  mergeShapes := a.mergeShapes <|> b.mergeShapes
  clean := a.clean <|> b.clean
  rules := a.rules <|> b.rules
  ignoreWinding := a.ignoreWinding <|> b.ignoreWinding
  forceSolid := a.forceSolid <|> b.forceSolid
  ambientIntensity := a.ambientIntensity <|> b.ambientIntensity
  shininess := a.shininess <|> b.shininess
  specularColor := a.specularColor <|> b.specularColor
  indent := a.indent <|> b.indent

end Choices

/-- What a preset chooses: one drops junk and merges shapes, the other folds and cleans. -/
def Preset.choices : Preset → Choices
  | .unify => { Choices.unmade with dropJunk := some true, mergeShapes := some true }
  | .cleanup =>
    { Choices.unmade with
      foldTransforms := some true, clean := some true, forceSolid := some (some true) }

/-- Which simplifications run, with their values, and the indent of the output.  Merged face sets
are two-sided, so cleaning may not make them one-sided again. -/
structure Plan where
  dropJunk : Bool
  foldTransforms : Bool
  mergeShapes : Bool
  clean : Bool
  rules : JunkRules
  ignoreWinding : Bool
  values : CleanValues
  indent : Nat
  solid_free : mergeShapes = true → clean = true → values.forceSolid ≠ some true

/-- The plan that choices make. -/
def Choices.plan (c : Choices) : Except PlanError Plan :=
  let merge := c.mergeShapes.getD false
  let clean := c.clean.getD false
  let values : CleanValues :=
    { ambientIntensity := c.ambientIntensity.getD CleanValues.standard.ambientIntensity
      shininess := c.shininess.getD CleanValues.standard.shininess
      specularColor := c.specularColor.getD CleanValues.standard.specularColor
      forceSolid := c.forceSolid.getD none }
  match c.indent.getD 0 with
  | .negSucc n => .error (.negativeIndent (.negSucc n))
  | .ofNat indent =>
    if h : merge = true ∧ clean = true ∧ values.forceSolid = some true then .error .solidConflict
    else .ok
      { dropJunk := c.dropJunk.getD false
        foldTransforms := c.foldTransforms.getD false
        mergeShapes := merge
        clean := clean
        rules := c.rules.getD JunkRules.standard
        ignoreWinding := c.ignoreWinding.getD true
        values := values
        indent := indent
        solid_free := fun hm hc hs => h ⟨hm, hc, hs⟩ }

/-- The plan of the preset of a name, with further choices that count first. -/
def Choices.planFrom (c : Choices) (preset : String) : Except PlanError Plan :=
  match Preset.ofName? preset with
  | some p => (c.orElse p.choices).plan
  | none => .error (.unknownPreset preset)

namespace Scene

/-- Run one stage of a plan, if it is on, telling that it starts. -/
def stage (s : Scene) (on : Bool) (stage : Stage) (run : Scene → Change α) : Change Unit :=
  if on then
    let c := run s
    ⟨c.scene, .stageStarted stage :: c.notices, c.result.map fun _ => ()⟩
  else .pure s ()

/-- Run a plan on a scene; the numbers of nodes are those that its rules speak of. -/
def apply (s : Scene) (plan : Plan) (numberOf : NodeId → Option Nat) : Change Unit :=
  (s.stage plan.dropJunk .prune fun s => s.dropJunk numberOf plan.rules s.root).andThen fun s _ =>
  (s.stage plan.foldTransforms .fold fun s => s.foldTransforms s.root).andThen fun s _ =>
  (s.stage plan.mergeShapes .unify fun s => s.mergeShapes plan.ignoreWinding s.root).andThen
    fun s _ => s.stage plan.clean .cleanup fun s => s.clean plan.values .empty

end Scene

end SceneTidy
