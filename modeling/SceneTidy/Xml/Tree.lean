import SceneTidy.Xml.Element
import SceneTidy.Xml.Markup
import SceneTidy.Xml.Prolog

/-!
# The tree of a document

The pieces of a document are put together to one element.  Every start tag needs its end tag, one
element holds all others, and qualifiers are replaced by the namespaces that they are bound to.  An
entity gives whole elements: what it opens it has to close.  Asides are left out of the tree.
-/

namespace SceneTidy.Xml

/-- The namespaces that qualifiers are bound to, the innermost first; no qualifier is the empty
one. -/
abbrev Bindings := List (String × String)

/-- The namespace that the qualifier `xml` is bound to from the start. -/
def xmlSpace : String := "http://www.w3.org/XML/1998/namespace"

/-- The namespace of namespace declarations, which nothing may be bound to. -/
def xmlnsSpace : String := "http://www.w3.org/2000/xmlns/"

/-- The qualifier that an attribute binds, if it is a namespace declaration. -/
def boundQualifier? (n : Name) : Option String :=
  match n.qualifier with
  | none => if n.base = "xmlns" then some "" else none
  | some q => if q = "xmlns" then some n.base else none

/-- Whether a qualifier may be bound to a namespace: the reserved ones go together only, and a
qualifier cannot be unbound. -/
def mayBind (qualifier space : String) : Bool :=
  qualifier != "xmlns" && space != xmlnsSpace && (qualifier == "xml") == (space == xmlSpace) &&
    (qualifier == "" || space != "") && !space.toList.contains '\x7d'

/-- The bindings that the attributes of a start tag add. -/
def bind? (outer : Bindings) (attributes : List (Name × String)) : Option Bindings :=
  attributes.foldlM
    (fun bs (n, space) =>
      match boundQualifier? n with
      | none => some bs
      | some q => if mayBind q space then some ((q, space) :: bs) else none)
    outer

/-- A name with its namespace. -/
def inSpace (space base : String) : String :=
  if space = "" then base else s!"\x7b{space}\x7d{base}"

/-- A qualified name with the namespace it is bound to. -/
def expandQualified? (bs : Bindings) (q base : String) : Option String :=
  if q = "xml" then some (inSpace xmlSpace base)
  else ((bs.lookup q).filter (· ≠ "")).map (inSpace · base)

/-- A tag with its namespace; without a qualifier, the default one counts. -/
def expandTag? (bs : Bindings) (n : Name) : Option String :=
  match n.qualifier with
  | none => some (inSpace ((bs.lookup "").getD "") n.base)
  | some q => expandQualified? bs q n.base

/-- An attribute name with its namespace; without a qualifier it has none. -/
def expandAttribute? (bs : Bindings) (n : Name) : Option String :=
  match n.qualifier with
  | none => some n.base
  | some q => expandQualified? bs q n.base

/-- Whether some item of a list occurs again later. -/
def hasRepeat [BEq α] : List α → Bool
  | [] => false
  | a :: as => as.contains a || hasRepeat as

/-- The attributes of an element, without namespace declarations and with namespaces; no name may
occur twice, neither as written nor with its namespace. -/
def expandAttributes? (bs : Bindings) (attributes : List (Name × String)) :
    Option (List (String × String)) := do
  if hasRepeat (attributes.map Prod.fst) then none
  let kept := attributes.filter fun (n, _) => (boundQualifier? n).isNone
  let expanded ← kept.mapM fun (n, v) => (expandAttribute? bs n).map (·, v)
  if hasRepeat (expanded.map Prod.fst) then none
  return expanded

/-- An element that is not closed yet; its children stand in reverse. -/
structure Frame where
  name : Name
  tag : String
  attributes : List (String × String)
  bindings : Bindings
  children : List Item

/-- The part of a document that was put together: the open elements, the innermost first, the
finished element, and the effort so far. -/
structure Building where
  frames : List Frame
  root : Option Item
  effort : Effort

namespace Building

/-- The bindings in force. -/
def bindings (b : Building) : Bindings :=
  match b.frames with
  | [] => []
  | f :: _ => f.bindings

/-- Put a finished element in its place. -/
def add? (b : Building) (i : Item) : Option Building :=
  match b.frames with
  | f :: fs => some { b with frames := { f with children := i :: f.children } :: fs }
  | [] => if b.root.isNone then some { b with root := some i } else none

/-- Put character data in its place: outside of elements there is white space only. -/
def text? (b : Building) (blank : Bool) : Option Building :=
  if b.frames.isEmpty && !blank then none else some b

/-- Read bytes again: bytes of the document itself, or bytes that a reference brought in. -/
def again? (b : Building) (own : Bool) (bytes : Nat) : Option Building :=
  (if own then b.effort.again? bytes else b.effort.bring? bytes).map fun f =>
    { b with effort := f }

/-- Start an element, given the values of its attributes. -/
def open? (b : Building) (name : Name) (attributes : List (Name × String)) (closed : Bool) :
    Option Building := do
  let bs ← bind? b.bindings attributes
  let tag ← expandTag? bs name
  let attributes ← expandAttributes? bs attributes
  if closed then b.add? (.element tag attributes [])
  else if b.frames.isEmpty && b.root.isSome then none
  else some { b with frames := ⟨name, tag, attributes, bs, []⟩ :: b.frames }

/-- End the innermost element. -/
def close? (b : Building) (name : Name) : Option Building :=
  match b.frames with
  | [] => none
  | f :: fs =>
    if f.name = name then
      { b with frames := fs }.add? (.element f.tag f.attributes f.children.reverse)
    else none

/-- The name of the frame that holds what an entity gives; no element has it. -/
def nobody : Name := ⟨none, ""⟩

/-- Open a frame for what an entity gives to the innermost element. -/
def enter? (b : Building) : Option Building :=
  match b.frames with
  | [] => none
  | f :: fs => some { b with frames := { f with name := nobody, children := [] } :: f :: fs }

/-- Hand what an entity gave to the element around it. -/
def leave? (b : Building) : Option Building :=
  match b.frames with
  | g :: f :: fs =>
    if g.name = nobody then
      some { b with frames := { f with children := g.children ++ f.children } :: fs }
    else none
  | _ => none

/-- Put the next piece in its place; it is the document's own, or an entity gave it.  The depth
bounds how far entities stand in one another, and an entity that mentions itself goes beyond every
bound. -/
def take? (d : Declarations) : Nat → Bool → Building → Markup → Option Building
  | _, own, b, .opening name given closed again => do
    let b ← b.again? own again
    let (f, values) ← d.givenValues? b.effort name given
    { b with effort := f }.open? name (d.allAttributes name values) closed
  | _, _, b, .closing name => b.close? name
  | _, _, b, .text blank => b.text? blank
  | _, _, b, .cdata | _, _, b, .reference (.char _) => b.text? false
  | _, _, b, .aside => some b
  | depth, _, b, .reference (.entity name) =>
    match commonEntity? name, d.entity? name, depth with
    | some _, _, _ => { b with effort := b.effort.bringOne }.text? false
    | none, some (.text t), depth + 1 => do
      let f ← b.effort.bring? t.bytes
      let b ← { b with effort := f }.enter?
      (← (← t.pieces).foldlM (take? d depth false) b).leave?
    | _, _, _ => none

/-- Put the pieces of the document itself in their places.  The effort is brought up to date before
references bring something in; the bound limits the number of pieces. -/
def read? (e : Encoding) (d : Declarations) : Nat → Building → List Char → Option Building
  | 0, _, _ => none
  | _ + 1, b, [] => some b
  | bound + 1, b, s => do
    let (m, r) ← markup? e s
    let f ← if m.refers then b.effort.goOn? e r else b.effort.pass? e r
    read? e d bound (← take? d d.entities.length true { b with effort := f } m) r

end Building

/-- The element of a document in an encoding, given the number of its bytes and its characters; none
if the document is not well-formed or asks for too much. -/
def document? (e : Encoding) (bytes : Nat) (s : List Char) : Option Item := do
  if !s.all isDocumentChar then none
  let (heading, r) ← heading? s
  let (d, f, r) ← prolog? e heading.standsAlone (.start bytes) none (r.length + 1) r
  let b ← Building.read? e d (r.length + 1) ⟨[], none, f⟩ r
  if b.frames.isEmpty then b.root else none

end SceneTidy.Xml
