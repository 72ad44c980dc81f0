import SceneTidy.Xml.Encoding

/-!
# The effort of reading

The entities of a short document may stand for a text of any length.  The effort of reading a
document is therefore counted in bytes, its own ones and those that references bring in, and a
document that asks for many more than it has is refused.
-/

namespace SceneTidy.Xml

/-- The bytes read so far.  A document of `whole` bytes was read up to its byte `own`, and
references brought in `brought` more; what is read twice counts twice. -/
structure Effort where
  whole : Nat
  own : Nat
  brought : Nat
  deriving DecidableEq, Repr

namespace Effort

/-- The number of bytes that are free: fewer are never too many. -/
def free : Nat := 8388608

/-- Whether the bytes read are few, or at most a hundred times the document's own. -/
def isFair (f : Effort) : Bool :=
  f.own + f.brought < free || f.own + f.brought ≤ 100 * f.own

/-- Where the whole document is free, so is every place in it. -/
theorem isFair_of_whole_lt {f : Effort} (place : f.own ≤ f.whole)
    (small : f.whole + f.brought < free) : f.isFair = true := by
  have : f.own + f.brought < free := by omega
  simp [isFair, this]

/-- The effort before a document of some size is read. -/
def start (whole : Nat) : Effort := ⟨whole, 0, 0⟩

/-- The effort, unless it is too much. -/
def checked? (f : Effort) : Option Effort := if f.isFair then some f else none

/-- Bring in bytes. -/
def bring? (f : Effort) (bytes : Nat) : Option Effort :=
  { f with brought := f.brought + bytes }.checked?

/-- Bring in a single byte.  The reference to it took more, so nothing is checked. -/
def bringOne (f : Effort) : Effort := { f with brought := f.brought + 1 }

/-- Read some of the bytes just read once more. -/
def again? (f : Effort) (bytes : Nat) : Option Effort :=
  { f with whole := f.whole + bytes, own := f.own + bytes }.checked?

/-- Go on to the rest of a document in an encoding. -/
def goOn? (f : Effort) (e : Encoding) (rest : List Char) : Option Effort :=
  { f with own := f.whole - e.size rest }.checked?

/-- Go on past something that brings nothing in.  As long as the whole document is free, the place
need not be known. -/
def pass? (f : Effort) (e : Encoding) (rest : List Char) : Option Effort :=
  if f.whole + f.brought < free then some f else f.goOn? e rest

end Effort

end SceneTidy.Xml
