import SceneTidy.Error
import SceneTidy.Field.Value
import SceneTidy.Numeric.Literal
import SceneTidy.Numeric.Shortest
import SceneTidy.Text.Quoted

/-!
# Field values as text

Each plain item is written with a fixed number of words, `ItemKind.components` of its kind.  A
string is one word as well, and stands in quotes in a file.

* `ItemKind.words` and `ItemKind.read?` are the two directions for one item;
* `ItemKind.text` is what a file holds for it;
* `FieldKind.read` reads the words of a whole field.

An integer is written with as many digits as it has.  A limit that an interpreter may set on the
digits of an integer in a text is taken as off.
-/

namespace SceneTidy

/-- The decimal text of an integer. -/
def integerText (n : Int) : List Char :=
  (if n < 0 then ['-'] else []) ++ Nat.toDigits 10 n.natAbs

/-- The truth value of a word, in any case. -/
def readBool? (s : List Char) : Option Bool :=
  let word := String.ofList (Text.toLower s)
  if word = "true" then some true else if word = "false" then some false else none

namespace ItemKind

/-- The words that an item is written with. -/
def words : (k : ItemKind) → k.Value → List (List Char)
  | .bool, b => [if b then ['T', 'R', 'U', 'E'] else ['F', 'A', 'L', 'S', 'E']]
  | .int32, n => [integerText n]
  | .float, x | .time, x => [x.text]
  | .string, s => [s.toList]
  | .vec2f, v => [v.x.text, v.y.text]
  | .vec3f, v => [v.x.text, v.y.text, v.z.text]
  | .color, c => [c.r.text, c.g.text, c.b.text]
  | .rotation, r => [r.x.text, r.y.text, r.z.text, r.angle.text]

/-- What a file holds for an item: its words, a blank between two of them, and a string in
quotes. -/
def text (k : ItemKind) (v : k.Value) : List Char :=
  match k, v with
  | .string, s => Text.Quoted.encode s.toList
  | k, v => [' '].intercalate (k.words v)

/-- The item that the words stand for. -/
def read? : (k : ItemKind) → List (List Char) → Option k.Value
  | .bool, [w] => readBool? w
  | .int32, [w] => readPrefixedInteger? w
  | .float, [w] | .time, [w] => readReal? w
  | .string, [w] => some (String.ofList w)
  | .vec2f, [u, v] => do return ⟨← readReal? u, ← readReal? v⟩
  | .vec3f, [u, v, w] => do return ⟨← readReal? u, ← readReal? v, ← readReal? w⟩
  | .color, [u, v, w] => do return ⟨← readReal? u, ← readReal? v, ← readReal? w⟩
  | .rotation, [u, v, w, a] =>
    do return ⟨← readReal? u, ← readReal? v, ← readReal? w, ← readReal? a⟩
  | _, _ => none

/-- Read one item, with the cause if the words are too many, too few or no value of the kind. -/
def read (k : ItemKind) (parts : List String) : Except SceneError k.Value :=
  if parts.length = k.components then
    match k.read? (parts.map String.toList) with
    | some v => .ok v
    | none => .error (.malformed (.invalidValue (.one k) parts))
  else .error (.malformed (.componentCount (.one k) parts))

/-- Read a list of items, each from the next words; the last may get too few. -/
def readItems (k : ItemKind) : Nat → List String → Except SceneError (List k.Value)
  | 0, _ => .ok []
  | n + 1, parts => do
    let v ← k.read (parts.take k.components)
    return v :: (← k.readItems n (parts.drop k.components))

/-- Read the words of a list of items. -/
def readList (k : ItemKind) (parts : List String) : Except SceneError (List k.Value) :=
  if parts.length % k.components = 0 then k.readItems (parts.length / k.components) parts
  else .error (.malformed (.unevenCount (.many k) parts.length))

end ItemKind

namespace FieldKind

/-- Read the words of a field.  References have no words, so any word for one is refused. -/
def read : FieldKind → List String → Except SceneError FieldValue
  | .one k, parts => (k.read parts).map (.one k)
  | .many k, parts => (k.readList parts).map (.many k)
  | .node, parts =>
    if parts.length = 1 then .error (.noReader .node)
    else .error (.malformed (.componentCount .node parts))
  | .nodes, parts => if parts = [] then .ok (.nodes []) else .error (.noReader .node)

end FieldKind

namespace FieldValue

/-- The text of a single item; lists and references have none. -/
def itemText : FieldValue → Except SceneError String
  | .one k v => .ok (String.ofList (k.text v))
  | v => .error (.noWriter v.kind)

end FieldValue

end SceneTidy
