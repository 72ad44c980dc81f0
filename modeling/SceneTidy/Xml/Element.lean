/-!
# Elements

A document as a tree: an element has a tag, attributes and children, and a child may also be an
aside, that is a comment or a processing instruction.  A tag or attribute name that belongs to a
namespace is written `{namespace}name`.  The text between elements is left out.
-/

namespace SceneTidy.Xml

/-- A child of an element, or the document's only element. -/
inductive Item
  | element (tag : String) (attributes : List (String × String)) (children : List Item)
  | aside
  deriving Inhabited

/-- Put an attribute: a name that is there gets a new value in its place. -/
def putAttribute (name value : String) : List (String × String) → List (String × String)
  | [] => [(name, value)]
  | (n, v) :: rest =>
    if n = name then (name, value) :: rest else (n, v) :: putAttribute name value rest

/-- The attributes of a list, each name once. -/
def attributesOf (l : List (String × String)) : List (String × String) :=
  l.foldl (fun acc (n, v) => putAttribute n v acc) []

/-- What follows the last closing brace of a list of characters. -/
def afterBrace (s : List Char) : List Char := (s.reverse.takeWhile (· ≠ '\x7d')).reverse

/-- A tag or attribute name without its namespace. -/
def localName (name : String) : String := String.ofList (afterBrace name.toList)

end SceneTidy.Xml
