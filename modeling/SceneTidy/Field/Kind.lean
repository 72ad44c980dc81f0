/-!
# Kinds of field

A field holds one plain item, a list of plain items of one kind, one reference to a node, or a list
of references.
-/

namespace SceneTidy

/-- The kinds of plain item. -/
inductive ItemKind
  | bool
  | int32
  | float
  | time
  | string
  | vec2f
  | vec3f
  | color
  | rotation
  deriving DecidableEq, Repr

/-- The kinds of field. -/
inductive FieldKind
  | one (item : ItemKind)
  | many (item : ItemKind)
  | node
  | nodes
  deriving DecidableEq, Repr

namespace ItemKind

/-- Every kind of plain item. -/
def all : List ItemKind := [bool, int32, float, time, string, vec2f, vec3f, color, rotation]

/-- The kind's name after its two-letter mark. -/
def baseName : ItemKind → String
  | bool => "Bool"
  | int32 => "Int32"
  | float => "Float"
  | time => "Time"
  | string => "String"
  | vec2f => "Vec2f"
  | vec3f => "Vec3f"
  | color => "Color"
  | rotation => "Rotation"

/-- The number of words one item is written with. -/
def components : ItemKind → Nat
  | bool | int32 | float | time | string => 1
  | vec2f => 2
  | vec3f | color => 3
  | rotation => 4

theorem components_pos (k : ItemKind) : 0 < k.components := by cases k <;> decide

theorem mem_all (k : ItemKind) : k ∈ all := by cases k <;> decide

end ItemKind

namespace FieldKind

/-- The name of a kind: `SF` marks a single item, `MF` a list. -/
def name : FieldKind → String
  | one k => "SF" ++ k.baseName
  | many k => "MF" ++ k.baseName
  | node => "SFNode"
  | nodes => "MFNode"

/-- Every kind of field. -/
def all : List FieldKind := ItemKind.all.map one ++ ItemKind.all.map many ++ [node, nodes]

/-- The kind of a name. -/
def ofName? (s : String) : Option FieldKind := all.find? (·.name = s)

/-- The number of words one item of the field is written with. -/
def components : FieldKind → Nat
  | one k | many k => k.components
  | node | nodes => 1

/-- Whether the field holds a list. -/
def isList : FieldKind → Bool
  | many _ | nodes => true
  | one _ | node => false

/-- Whether the field's items are written as quoted strings. -/
def isText : FieldKind → Bool
  | one .string | many .string => true
  | _ => false

theorem isText_one_iff {k : ItemKind} : (one k).isText = false ↔ k ≠ .string := by
  cases k <;> decide

theorem isText_many_iff {k : ItemKind} : (many k).isText = false ↔ k ≠ .string := by
  cases k <;> decide

end FieldKind

end SceneTidy
