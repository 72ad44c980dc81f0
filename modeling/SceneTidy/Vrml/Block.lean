import SceneTidy.Scene.NodeKind

/-!
# Written scenes as trees

What a scene file says, before names are resolved: a node is written as a block with its fields,
or as the use of a name that an earlier block defined.  The blocks carry a tag, which the writer
uses to say which node a block stands for; what is read from a file has no tags.
-/

namespace SceneTidy.Vrml

mutual

/-- A written node. -/
inductive Block (α : Type)
  | use (name : String)
  | node (tag : α) (name : Option String) (kind : NodeKind) (body : Body α)

/-- The fields of a written node, in the order they are written. -/
inductive Body (α : Type)
  | done
  | value (field : String) (v : FieldValue) (rest : Body α)
  | single (field : String) (block : Block α) (rest : Body α)
  | list (field : String) (blocks : Blocks α) (rest : Body α)

/-- A list of written nodes. -/
inductive Blocks (α : Type)
  | nil
  | cons (block : Block α) (rest : Blocks α)

end

namespace Blocks

/-- The blocks as a list. -/
def toList : Blocks α → List (Block α)
  | nil => []
  | cons b bs => b :: toList bs

/-- A list of blocks. -/
def ofList : List (Block α) → Blocks α
  | [] => nil
  | b :: bs => cons b (ofList bs)

theorem toList_ofList (bs : List (Block α)) : (ofList bs).toList = bs := by
  induction bs with
  | nil => rfl
  | cons b bs ih => simp [ofList, toList, ih]

end Blocks

end SceneTidy.Vrml
