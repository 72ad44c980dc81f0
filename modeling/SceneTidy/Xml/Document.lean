import SceneTidy.Text.Utf8
import SceneTidy.Xml.Encoding
import SceneTidy.Xml.Tree

/-!
# Documents

A document comes as a text or as the bytes of a file.  The encoding that a document names counts for
a file only.
-/

namespace SceneTidy.Xml

/-- The bytes without a byte order mark at their start. -/
def withoutMark : List UInt8 → List UInt8
  | 0xEF :: 0xBB :: 0xBF :: r => r
  | bytes => bytes

/-- The element of a document that is given as a text; none if it is not well-formed. -/
def parse? (text : String) : Option Item :=
  let bytes := Text.bytesOf text
  let e := Encoding.ofStart bytes
  (e.decode? (withoutMark bytes)).bind (document? e bytes.length)

/-- What there is, or the fault of a document that is not well-formed. -/
def orNotWellFormed : Option α → Except Fault α
  | some a => .ok a
  | none => .error .notWellFormed

/-- The element of a document that is given as the bytes of a file.  The heading is ASCII, and what
it names counts before the rest is looked at. -/
def readFile (bytes : List UInt8) : Except Fault Item := do
  let shown := Encoding.ofStart bytes
  let body := withoutMark bytes
  let (heading, _) ← orNotWellFormed (heading? (shown.asciiStart body))
  let encoding ←
    match heading.encoding with
    | none => pure shown
    | some name => shown.named name
  orNotWellFormed ((encoding.decode? body).bind (document? encoding bytes.length))

end SceneTidy.Xml
