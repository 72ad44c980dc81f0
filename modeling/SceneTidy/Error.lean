import SceneTidy.Field.Kind
import SceneTidy.Text.Shown
import SceneTidy.Text.Utf8

/-!
# What can go wrong

The causes for which reading, changing or writing a scene fails.  `Malformed` lists what may be
wrong with an input's values and structure; `SceneError` adds the failures that are no fault of a
value.  The wording of each stands in `message` alone.
-/

namespace SceneTidy

open Text

/-- What is wrong with a value or a structure. -/
inductive Malformed
  | componentCount (kind : FieldKind) (parts : List String)
  | invalidValue (kind : FieldKind) (parts : List String)
  | unevenCount (kind : FieldKind) (count : Nat)
  | unterminatedString (line : Nat)
  | endOfInput
  | expectedMark (mark : Char) (line : Nat) (got : String)
  | expectedName (line : Nat) (got : String)
  | expectedTo (line : Nat)
  | unknownField (field type : String) (line : Nat)
  | unexpectedMark (got : String) (line : Nat)
  | invalidToken (kind : FieldKind) (got : String) (line : Nat)
  | noSceneElement
  | atAttribute (name node : String) (cause : Malformed)
  | cannotNest (child parent field : String)
  | indexWithoutCoordinates
  | notCoordinates (type : String)
  | indexOutOfRange (index : Int) (points : Nat)
  | notWellFormed (path : String)
  | multibyteEncoding
  | deniedEncoding (reason : String)
  | notUtf8 (broken : BrokenChar)
  deriving DecidableEq, Repr

/-- Why an operation on a scene fails. -/
inductive SceneError
  | malformed (cause : Malformed)
  | unsupportedNode (type : String)
  | undefinedName (name : String)
  | notReachableGroup (number : Option Int)
  | noReader (kind : FieldKind)
  | noWriter (kind : FieldKind)
  | noField (type field : String)
  | asideBeforeScene
  | unknownEncoding
  | unsuited (type : String)
  deriving DecidableEq, Repr

/-- The words of a value, as a message shows them. -/
def shownParts (parts : List String) : String := shown (" ".intercalate parts)

namespace Malformed

/-- The wording of a malformed value. -/
def message : Malformed → String
  | componentCount kind parts =>
    s!"{kind.name} expects {kind.components} components, got {parts.length}: {shownParts parts}"
  | invalidValue kind parts => s!"Invalid {kind.name} value {shownParts parts}"
  | unevenCount kind count =>
    s!"{kind.name} expects a multiple of {kind.components} components, got {count}"
  | unterminatedString line => s!"Unterminated string on line {line}"
  | endOfInput => "Unexpected end of input"
  | expectedMark mark line got =>
    s!"Expected {shown mark.toString} on line {line}, got {shown got}"
  | expectedName line got => s!"Expected a name on line {line}, got {shown got}"
  | expectedTo line => s!"Expected TO in ROUTE on line {line}"
  | unknownField field type line => s!"Unknown field {shown field} on {type} (line {line})"
  | unexpectedMark got line => s!"Unexpected {shown got} on line {line}"
  | invalidToken kind got line => s!"Invalid {kind.name} value {shown got} on line {line}"
  | noSceneElement => "X3D document has no Scene element"
  | atAttribute name node cause => s!"Attribute {name} on node {node}: {cause.message}"
  | cannotNest child parent field =>
    s!"{child} cannot be nested in {parent} (no node field {shown field})"
  | indexWithoutCoordinates => "IndexedFaceSet has coordIndex but no coord"
  | notCoordinates type => s!"IndexedFaceSet coord is a {type}"
  | indexOutOfRange index points =>
    s!"Coordinate index {index} out of range for {points} points"
  | notWellFormed path => s!"{path}: not well-formed"
  | multibyteEncoding => "multi-byte encodings are not supported"
  | deniedEncoding reason => reason
  | notUtf8 broken => broken.message

end Malformed

namespace SceneError

/-- The wording of a failure. -/
def message : SceneError → String
  | malformed cause => cause.message
  | unsupportedNode type => s!"Node type {type} not implemented"
  | undefinedName name => s!"USE of undefined name {shown name}"
  | notReachableGroup (some number) => s!"Node #{number} is not a reachable Group"
  | notReachableGroup none => "Node #[] is not a reachable Group"
  | noReader kind => kind.name
  | noWriter kind => s!"No text encoding for {kind.name}"
  | noField type field => s!"{type} has no field {shown field}"
  | asideBeforeScene => "An aside stands before the Scene element"
  | unknownEncoding => "The encoding of the document is unknown"
  | unsuited type => s!"The operation does not suit a {type}"

end SceneError

end SceneTidy
