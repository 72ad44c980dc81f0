import SceneTidy.Error
import SceneTidy.Notice
import SceneTidy.Scene.Basic

/-!
# Changes of a scene

What comes of an operation on a scene: the scene as it is left, the notices given, and the result or
the failure.  A failure may leave a scene that is partly changed.
-/

namespace SceneTidy

/-- The outcome of an operation on a scene. -/
structure Change (α : Type) where
  scene : Scene
  notices : List Notice
  result : Except SceneError α

namespace Change

/-- Nothing but a result. -/
def pure (s : Scene) (a : α) : Change α := ⟨s, [], .ok a⟩

/-- Go on with the scene and the result, unless there was a failure. -/
def andThen (c : Change α) (f : Scene → α → Change β) : Change β :=
  match c.result with
  | .error e => ⟨c.scene, c.notices, .error e⟩
  | .ok a =>
    let d := f c.scene a
    { d with notices := c.notices ++ d.notices }

theorem andThen_of_error {c : Change α} {e : SceneError} (h : c.result = .error e)
    (f : Scene → α → Change β) : c.andThen f = ⟨c.scene, c.notices, .error e⟩ := by
  simp only [andThen, h]

theorem andThen_of_ok {c : Change α} {a : α} (h : c.result = .ok a) (f : Scene → α → Change β) :
    c.andThen f = { f c.scene a with notices := c.notices ++ (f c.scene a).notices } := by
  simp only [andThen, h]

end Change

/-- The node at a place, if its kind suits an operation. -/
def Scene.suited (s : Scene) (suits : NodeKind → Bool) (id : NodeId) : Except SceneError Node :=
  match s.node? id with
  | some n => if suits n.kind then .ok n else .error (.unsuited n.kind.typeName)
  | none => .error (.unsuited "node that is not there")

end SceneTidy
