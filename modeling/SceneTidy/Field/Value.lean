import SceneTidy.Field.Kind
import SceneTidy.Numeric.Binary64

/-!
# Field values

The value of a plain item depends on its kind (`ItemKind.Value`); a field value is tagged with the
shape of its field.  Values are compared by `FieldValue.same`: numbers by value, so that the zeros
agree and not a number differs from itself, and references by the node they name.
-/

namespace SceneTidy

/-- A point of the plane. -/
structure Vec2 where
  x : Binary64
  y : Binary64
  deriving DecidableEq, Repr

/-- A point or direction of space. -/
structure Vec3 where
  x : Binary64
  y : Binary64
  z : Binary64
  deriving DecidableEq, Repr

/-- A colour by its red, green and blue parts. -/
structure Color where
  r : Binary64
  g : Binary64
  b : Binary64
  deriving DecidableEq, Repr

/-- A rotation about an axis. -/
structure Rotation where
  x : Binary64
  y : Binary64
  z : Binary64
  angle : Binary64
  deriving DecidableEq, Repr

namespace Vec2

/-- Equality of the coordinates by value. -/
def same (a b : Vec2) : Bool := a.x.same b.x && a.y.same b.y

end Vec2

namespace Vec3

/-- The point with one value for all coordinates. -/
def diagonal (x : Binary64) : Vec3 := ⟨x, x, x⟩

/-- The origin. -/
def zero : Vec3 := diagonal .zero

/-- Equality of the coordinates by value. -/
def same (a b : Vec3) : Bool := a.x.same b.x && a.y.same b.y && a.z.same b.z

/-- Lexicographic order by value. -/
def less (a b : Vec3) : Bool :=
  if !a.x.same b.x then a.x.less b.x
  else if !a.y.same b.y then a.y.less b.y
  else a.z.less b.z

end Vec3

namespace Color

/-- Black. -/
def black : Color := ⟨.zero, .zero, .zero⟩

/-- Equality of the parts by value. -/
def same (a b : Color) : Bool := a.r.same b.r && a.g.same b.g && a.b.same b.b

end Color

namespace Rotation

/-- The rotation that moves nothing, about the third axis. -/
def identity : Rotation := ⟨.zero, .zero, .one, .zero⟩

/-- Equality of axis and angle by value. -/
def same (a b : Rotation) : Bool :=
  a.x.same b.x && a.y.same b.y && a.z.same b.z && a.angle.same b.angle

end Rotation

/-- The values of a kind of plain item. -/
@[reducible] def ItemKind.Value : ItemKind → Type
  | .bool => Bool
  | .int32 => Int
  | .float | .time => Binary64
  | .string => String
  | .vec2f => Vec2
  | .vec3f => Vec3
  | .color => Color
  | .rotation => Rotation

namespace ItemKind

instance instDecidableEqValue : (k : ItemKind) → DecidableEq k.Value
  | .bool => inferInstanceAs (DecidableEq Bool)
  | .int32 => inferInstanceAs (DecidableEq Int)
  | .float | .time => inferInstanceAs (DecidableEq Binary64)
  | .string => inferInstanceAs (DecidableEq String)
  | .vec2f => inferInstanceAs (DecidableEq Vec2)
  | .vec3f => inferInstanceAs (DecidableEq Vec3)
  | .color => inferInstanceAs (DecidableEq Color)
  | .rotation => inferInstanceAs (DecidableEq Rotation)

/-- Equality of two items by value. -/
def same : (k : ItemKind) → k.Value → k.Value → Bool
  | .bool, a, b => a == b
  | .int32, a, b => a == b
  | .float, a, b | .time, a, b => a.same b
  | .string, a, b => a == b
  | .vec2f, a, b => a.same b
  | .vec3f, a, b => a.same b
  | .color, a, b => a.same b
  | .rotation, a, b => a.same b

/-- The value a single item has when no other is declared. -/
def initial : (k : ItemKind) → k.Value
  | .bool => false
  | .int32 => 0
  | .float | .time => Binary64.zero
  | .string => ""
  | .vec2f => ⟨.zero, .zero⟩
  | .vec3f => Vec3.zero
  | .color => Color.black
  | .rotation => Rotation.identity

end ItemKind

/-- A node's place in its scene. -/
abbrev NodeId := Nat

/-- The value of a field. -/
inductive FieldValue
  | one (k : ItemKind) (item : k.Value)
  | many (k : ItemKind) (items : List k.Value)
  | node (target : Option NodeId)
  | nodes (targets : List NodeId)
  deriving DecidableEq

/-- Equality of two lists, item by item. -/
def sameItems (same : α → α → Bool) : List α → List α → Bool
  | [], [] => true
  | a :: as, b :: bs => same a b && sameItems same as bs
  | _, _ => false

namespace FieldValue

/-- The kind of the fields that may hold the value. -/
def kind : FieldValue → FieldKind
  | one k _ => .one k
  | many k _ => .many k
  | node _ => .node
  | nodes _ => .nodes

/-- Equality of two field values; values of different kinds are not the same. -/
def same : FieldValue → FieldValue → Bool
  | one k a, one l b => if h : l = k then k.same a (h ▸ b) else false
  | many k as, many l bs => if h : l = k then sameItems k.same as (h ▸ bs) else false
  | node a, node b => a == b
  | nodes as, nodes bs => as == bs
  | _, _ => false

/-- The nodes that the value refers to, in order. -/
def refs : FieldValue → List NodeId
  | node target => target.toList
  | nodes targets => targets
  | one _ _ | many _ _ => []

/-- The value with an item, or a whole list of items, put at its end; only lists grow, and only by
items of their own kind. -/
def append : FieldValue → FieldValue → FieldValue
  | many k as, one l b => if h : l = k then many k (as ++ [h ▸ b]) else many k as
  | many k as, many l bs => if h : l = k then many k (as ++ h ▸ bs) else many k as
  | nodes as, node b => nodes (as ++ b.toList)
  | nodes as, nodes bs => nodes (as ++ bs)
  | v, _ => v

/-- The value without its items; a value that is no list stays. -/
def clear : FieldValue → FieldValue
  | many k _ => many k []
  | nodes _ => nodes []
  | v => v

end FieldValue

/-- The value a field of a kind has when no other is declared. -/
def FieldKind.initial : FieldKind → FieldValue
  | .one k => .one k k.initial
  | .many k => .many k []
  | .node => .node none
  | .nodes => .nodes []

theorem FieldKind.kind_initial (k : FieldKind) : k.initial.kind = k := by cases k <;> rfl

end SceneTidy
