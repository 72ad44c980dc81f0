import SceneTidy.Xml.Effort
import SceneTidy.Xml.Markup

/-!
# Declarations of a document

What a document declares about itself before its element: texts that its entities stand for, and
attributes that elements have unless they say otherwise.  The first declaration of a name counts.
Attribute values are read by the declarations, for they may refer to entities.

A document may leave declarations to other files, which are not looked at.  A reference in an
attribute to an entity that is not known then says nothing, where it would otherwise be an error.
-/

namespace SceneTidy.Xml

/-- The text that replaces references to an entity: the bytes it takes, its pieces in the place of
markup, and its parts in the place of an attribute value, if it is well-formed there. -/
structure Replacement where
  bytes : Nat
  pieces : Option (List Markup)
  parts : Option (List Part)
  deriving DecidableEq, Repr

/-- The replacement that consists of some characters; it is kept in UTF-8. -/
def Replacement.ofText (s : List Char) : Replacement :=
  ⟨Encoding.utf8.size s, markups? .utf8 (s.length + 1) s, parts? .utf8 s⟩

/-- What an entity stands for: a text, or something outside the document. -/
inductive Entity
  | text (t : Replacement)
  | outside
  deriving DecidableEq, Repr

/-- A declared attribute: the element it belongs to, whether its blanks count, and the value it has
unless the element gives one. -/
structure DeclaredAttribute where
  element : Name
  name : Name
  blanksCount : Bool
  usual : Option String
  deriving DecidableEq, Repr

/-- The declarations of a document, and whether there are no others. -/
structure Declarations where
  entities : List (String × Entity)
  attributes : List DeclaredAttribute
  complete : Bool

namespace Declarations

/-- Nothing declared. -/
def empty : Declarations := ⟨[], [], true⟩

/-- What an entity stands for. -/
def entity? (d : Declarations) (name : String) : Option Entity := d.entities.lookup name

/-- The declaration of an attribute of an element. -/
def attribute? (d : Declarations) (element name : Name) : Option DeclaredAttribute :=
  d.attributes.find? fun a => a.element = element ∧ a.name = name

/-- Declare an entity, unless it is known. -/
def addEntity (d : Declarations) (name : String) (e : Entity) : Declarations :=
  if (commonEntity? name).isSome || (d.entity? name).isSome then d
  else { d with entities := d.entities ++ [(name, e)] }

/-- Declare an attribute, unless it is known. -/
def addAttribute (d : Declarations) (a : DeclaredAttribute) : Declarations :=
  if (d.attribute? a.element a.name).isSome then d
  else { d with attributes := d.attributes ++ [a] }

/-! ### Attribute values -/

/-- Write the next part of an attribute value in front of the value so far, which is in reverse:
white space not written as a reference becomes blanks, and entities are replaced.  The depth bounds
how far entities stand in one another, and an entity that mentions itself goes beyond every
bound. -/
def spell? (d : Declarations) : Nat → Effort × List Char → Part → Option (Effort × List Char)
  | _, (f, s), .plain c =>
    if c = '<' then none else some (f, (if isSpace c then ' ' else c) :: s)
  | _, (f, s), .reference (.char c) => some (f, c :: s)
  | depth, (f, s), .reference (.entity name) =>
    match commonEntity? name, d.entity? name, depth with
    | some c, _, _ => some (f.bringOne, c :: s)
    | none, some (.text t), depth + 1 => do
      (← t.parts).foldlM (spell? d depth) (← f.bring? t.bytes, s)
    | none, some _, _ => none
    | none, none, _ => if d.complete then none else some (f, s)

/-- The text with no blanks at its ends and one blank in the place of several. -/
def squeeze : List Char → List Char
  | [] => []
  | c :: r =>
    let r' := squeeze r
    if c = ' ' then
      match r' with
      | [] => []
      | ' ' :: _ => r'
      | _ => c :: r'
    else c :: r'

/-- The value of an attribute whose blanks count or do not. -/
def value? (d : Declarations) (f : Effort) (blanksCount : Bool) (parts : List Part) :
    Option (Effort × String) := do
  let (f, s) ← parts.foldlM (d.spell? d.entities.length) (f, [])
  let s := s.reverse
  return (f, String.ofList (if blanksCount then s else (squeeze s).dropWhile (· = ' ')))

/-- The values that an element gives to its attributes. -/
def givenValues? (d : Declarations) (f : Effort) (element : Name) :
    List (Name × List Part) → Option (Effort × List (Name × String))
  | [] => some (f, [])
  | (name, parts) :: given => do
    let blanksCount := ((d.attribute? element name).map (·.blanksCount)).getD true
    let (f, v) ← d.value? f blanksCount parts
    let (f, rest) ← d.givenValues? f element given
    return (f, (name, v) :: rest)

/-- The attributes of an element: those it gives, and the usual values of others. -/
def allAttributes (d : Declarations) (element : Name) (given : List (Name × String)) :
    List (Name × String) :=
  given ++ d.attributes.filterMap fun a =>
    if a.element = element ∧ ¬given.any (fun g => g.1 = a.name) then
      a.usual.map fun v => (a.name, v)
    else none

end Declarations

end SceneTidy.Xml
