import SceneTidy.Xml.Scan

/-!
# Markup

The element of a document is cut into pieces of markup and character data.  The piece that comes
next is told by how it begins, and each piece is read to its end; what is not well-formed within one
piece is refused here.  Attribute values are left in parts, for what they refer to is declared
elsewhere.
-/

namespace SceneTidy.Xml

/-- A piece of a document.  Of a start tag that does not end its element, the values that do not
stand for themselves are read again: so many bytes. -/
inductive Markup
  | opening (name : Name) (given : List (Name × List Part)) (closed : Bool) (again : Nat)
  | closing (name : Name)
  | text (blank : Bool)
  | cdata
  | reference (r : Reference)
  | aside
  deriving DecidableEq, Repr

/-- Whether a piece has references to entities. -/
def Markup.refers : Markup → Bool
  | .opening _ given _ _ => given.any fun (_, parts) => parts.any (· matches .reference (.entity _))
  | .reference (.entity _) => true
  | _ => false

/-- Whether a value stands for itself: it has no references, and no white space but single blanks
between other characters. -/
def standsForItself (raw : List Char) : Bool :=
  let blanks := (raw.zip (raw.drop 1)).any fun (a, b) => isSpace a && isSpace b
  !hasReference raw && raw.all (fun c => c = ' ' || !isSpace c) && !raw.head?.any isSpace &&
    !raw.getLast?.any isSpace && !blanks

/-- The number of bytes of a value that are read again: a carriage return at its end is not. -/
def againBytes (e : Encoding) (raw : List Char) : Nat :=
  e.size (if raw.getLast? = some '\r' then raw.dropLast else raw)

/-- The attributes that a start tag gives to an element, as written and in parts, whether the
element ends with it, and what follows the tag; the bound limits the number of attributes. -/
def attributes? (e : Encoding) :
    Nat → List Char → Option (List (Name × List Char × List Part) × Bool × List Char)
  | 0, _ => none
  | bound + 1, s =>
    match skipSpace s with
    | '>' :: r => some ([], false, r)
    | '/' :: '>' :: r => some ([], true, r)
    | r => do
      if r.length = s.length then none
      let (name, r) ← name? e r
      let (raw, r) ← quoted? (← afterEquals? r)
      let parts ← parts? e raw
      let (given, closed, r) ← attributes? e bound r
      return ((name, raw, parts) :: given, closed, r)

/-- A start tag, after its `<`. -/
def startTag? (e : Encoding) (s : List Char) : Option (Markup × List Char) := do
  let (name, r) ← name? e s
  let (given, closed, r) ← attributes? e (r.length + 1) r
  let again := given.map fun (_, raw, _) => if standsForItself raw then 0 else againBytes e raw
  let parts := given.map fun (name, _, parts) => (name, parts)
  return (.opening name parts closed (if closed then 0 else again.foldl (· + ·) 0), r)

/-- An end tag, after its `</`. -/
def endTag? (e : Encoding) (s : List Char) : Option (Markup × List Char) := do
  let (name, r) ← name? e s
  return (.closing name, ← after? ['>'] (skipSpace r))

/-- Whether the mark that ends raw character data stands in a text. -/
def holdsCdataEnd : List Char → Bool
  | [] => false
  | c :: r => [']', ']', '>'].isPrefixOf (c :: r) || holdsCdataEnd r

/-- A reference in character data, after its `&`. -/
def textReference? (e : Encoding) (s : List Char) : Option (Markup × List Char) := do
  let (inner, r) ← upTo [';'] s
  return (.reference (← reference? e inner), r)

/-- Character data up to the next tag or reference. -/
def text? (s : List Char) : Option (Markup × List Char) :=
  let isPlain (c : Char) : Bool := c ≠ '<' && c ≠ '&'
  let raw := s.takeWhile isPlain
  if holdsCdataEnd raw then none else some (.text (raw.all isSpace), s.dropWhile isPlain)

/-- The next piece of a document. -/
def markup? (e : Encoding) : List Char → Option (Markup × List Char)
  | '<' :: '/' :: r => endTag? e r
  | '<' :: '?' :: r => (afterInstruction? e r).map (.aside, ·)
  | '<' :: '!' :: '-' :: '-' :: r => (afterComment? r).map (.aside, ·)
  | '<' :: '!' :: r => do
    let r ← after? "[CDATA[".toList r
    return (.cdata, (← upTo [']', ']', '>'] r).2)
  | '<' :: r => startTag? e r
  | '&' :: r => textReference? e r
  | s => text? s

/-- The pieces of a text; the bound limits their number. -/
def markups? (e : Encoding) : Nat → List Char → Option (List Markup)
  | 0, _ => none
  | _ + 1, [] => some []
  | bound + 1, s => do
    let (m, r) ← markup? e s
    return m :: (← markups? e bound r)

end SceneTidy.Xml
