import SceneTidy.Scene.NodeKind

/-!
# Nodes

A node has a kind, a name if its file gave it one, and a value for each field of its kind.  The
values stand in the order of the declarations, each of the declared kind of field, so that a field
can only ever hold what it was declared for.
-/

namespace SceneTidy

/-- A node of a scene. -/
structure Node where
  kind : NodeKind
  name : Option String
  values : List FieldValue
  kinds_eq : values.map FieldValue.kind = kind.fields.map FieldDecl.kind

namespace Node

/-- A node with every field as declared. -/
def create (k : NodeKind) (name : Option String) : Node :=
  ⟨k, name, k.fields.map FieldDecl.declared, by simp [FieldDecl.kind]⟩

/-- The declarations of the node's fields with the values they hold. -/
def slots (n : Node) : List (FieldDecl × FieldValue) := n.kind.fields.zip n.values

/-- The value of a field; `none` if the kind has no such field. -/
def get? (n : Node) (field : String) : Option FieldValue :=
  (n.slots.find? (·.1.name = field)).map Prod.snd

/-- The values with one field changed, provided the new value suits its declaration. -/
def replaced (field : String) (v : FieldValue) :
    List FieldDecl → List FieldValue → List FieldValue
  | d :: ds, w :: ws =>
    (if d.name = field ∧ v.kind = w.kind then v else w) :: replaced field v ds ws
  | _, ws => ws

theorem map_kind_replaced (field : String) (v : FieldValue) (ds : List FieldDecl)
    (ws : List FieldValue) :
    (replaced field v ds ws).map FieldValue.kind = ws.map FieldValue.kind := by
  induction ds generalizing ws with
  | nil => simp [replaced]
  | cons d ds ih =>
    cases ws with
    | nil => rfl
    | cons w ws =>
      simp only [replaced, List.map_cons, ih, List.cons.injEq, and_true]
      split
      · next h => exact h.2
      · rfl

/-- Give a field a value; a field that the kind does not have, or that holds values of another
kind, is left alone. -/
def set (n : Node) (field : String) (v : FieldValue) : Node :=
  { n with
    values := replaced field v n.kind.fields n.values
    kinds_eq := by rw [map_kind_replaced]; exact n.kinds_eq }

@[simp] theorem kind_set (n : Node) (field : String) (v : FieldValue) :
    (n.set field v).kind = n.kind := rfl

@[simp] theorem name_set (n : Node) (field : String) (v : FieldValue) :
    (n.set field v).name = n.name := rfl

/-- A node has one value for each declaration. -/
theorem length_values (n : Node) : n.values.length = n.kind.fields.length := by
  simpa using congrArg List.length n.kinds_eq

theorem find?_zip_replaced_of_ne {field other : String} (h : field ≠ other) (v : FieldValue)
    (ds : List FieldDecl) (ws : List FieldValue) :
    ((ds.zip (replaced field v ds ws)).find? (·.1.name = other)).map Prod.snd =
      ((ds.zip ws).find? (·.1.name = other)).map Prod.snd := by
  induction ds generalizing ws with
  | nil => rfl
  | cons d ds ih =>
    cases ws with
    | nil => rfl
    | cons w ws =>
      by_cases hd : d.name = other
      · simp [replaced, hd, h.symm]
      · simpa [replaced, hd] using ih ws

theorem find?_zip_replaced_self (field : String) {v w : FieldValue} (hk : v.kind = w.kind)
    (ds : List FieldDecl) (ws : List FieldValue)
    (h : ((ds.zip ws).find? (·.1.name = field)).map Prod.snd = some w) :
    ((ds.zip (replaced field v ds ws)).find? (·.1.name = field)).map Prod.snd = some v := by
  induction ds generalizing ws with
  | nil => simp at h
  | cons d ds ih =>
    cases ws with
    | nil => simp at h
    | cons x ws =>
      by_cases hd : d.name = field
      · have hx : x = w := by simpa [hd] using h
        simp [replaced, hd, hx, hk]
      · simpa [replaced, hd] using ih ws (by simpa [hd] using h)

/-- Giving one field a value leaves the others alone. -/
theorem get?_set_of_ne (n : Node) {field other : String} (h : field ≠ other) (v : FieldValue) :
    (n.set field v).get? other = n.get? other :=
  find?_zip_replaced_of_ne h v _ _

/-- A field holds what it was given, if that suits it. -/
theorem get?_set_self {n : Node} {field : String} {v w : FieldValue}
    (h : n.get? field = some w) (hk : v.kind = w.kind) : (n.set field v).get? field = some v :=
  find?_zip_replaced_self field hk _ _ h

/-- The nodes referred to from any field, in the order of declaration. -/
def refs (n : Node) : List NodeId := n.values.flatMap FieldValue.refs

/-- The node that a field refers to. -/
def target (n : Node) (field : String) : Option NodeId :=
  match n.get? field with
  | some (.node t) => t
  | _ => none

/-- The nodes that a list field refers to. -/
def targets (n : Node) (field : String) : List NodeId :=
  match n.get? field with
  | some (.nodes ts) => ts
  | _ => []

/-- The item that a field holds; what its kind starts with if there is no such field. -/
def item (n : Node) (field : String) (k : ItemKind) : k.Value :=
  match n.get? field with
  | some (.one l v) => if h : l = k then h ▸ v else k.initial
  | _ => k.initial

/-- The items that a list field holds. -/
def items (n : Node) (field : String) (k : ItemKind) : List k.Value :=
  match n.get? field with
  | some (.many l vs) => if h : l = k then h ▸ vs else []
  | _ => []

/-- The children of a grouping node. -/
def children (n : Node) : List NodeId := n.targets n.kind.childrenField

/-- Replace the children of a grouping node. -/
def setChildren (n : Node) (ts : List NodeId) : Node := n.set n.kind.childrenField (.nodes ts)

/-- The fields that do not hold what they were declared with. -/
def changed (n : Node) : List (FieldDecl × FieldValue) :=
  n.slots.filter fun (d, v) => !v.same d.declared

end Node

end SceneTidy
