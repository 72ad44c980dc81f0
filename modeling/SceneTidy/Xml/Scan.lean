import SceneTidy.Xml.NameChar

/-!
# Reading along a text

What the parts of a document are read with: marks, white space, names, quoted values and references.
Each reader takes the text that is left and gives back what it read with the text after it.  Where a
name may stand, the encoding of the text is given too.
-/

namespace SceneTidy.Xml

/-- A tag or attribute name as written: a qualifier before the colon, if there is one, and the
rest. -/
structure Name where
  qualifier : Option String
  base : String
  deriving DecidableEq, Repr

/-- The text with each line end a single line feed. -/
def normalizeLines : List Char → List Char
  | [] => []
  | '\r' :: '\n' :: r => '\n' :: normalizeLines r
  | c :: r => (if c = '\r' then '\n' else c) :: normalizeLines r

/-- What stands before a mark, and what follows the mark. -/
def upTo (mark : List Char) : List Char → Option (List Char × List Char)
  | [] => none
  | c :: r =>
    if mark.isPrefixOf (c :: r) then some ([], (c :: r).drop mark.length)
    else (upTo mark r).map fun (before, after) => (c :: before, after)

/-- The text after some characters that it must start with. -/
def after? (start s : List Char) : Option (List Char) :=
  if start.isPrefixOf s then some (s.drop start.length) else none

/-- The text without white space at its start. -/
def skipSpace (s : List Char) : List Char := s.dropWhile isSpace

/-- A name without a colon. -/
def plainName? (e : Encoding) : List Char → Option (List Char × List Char)
  | [] => none
  | c :: r =>
    if isNameStart e c then some (c :: r.takeWhile (isNameChar e), r.dropWhile (isNameChar e))
    else none

/-- A name with at most one colon. -/
def name? (e : Encoding) (s : List Char) : Option (Name × List Char) := do
  let (first, r) ← plainName? e s
  match r with
  | ':' :: r =>
    let (base, r) ← plainName? e r
    return (⟨some (String.ofList first), String.ofList base⟩, r)
  | r => return (⟨none, String.ofList first⟩, r)

/-- A value in single or double quotes, as written. -/
def quoted? : List Char → Option (List Char × List Char)
  | '"' :: r => upTo ['"'] r
  | '\'' :: r => upTo ['\''] r
  | _ => none

/-- What follows an equals sign that may stand between white space. -/
def afterEquals? (s : List Char) : Option (List Char) := (after? ['='] (skipSpace s)).map skipSpace

/-- What follows a comment, after its `<!--`; two hyphens stand only at its end. -/
def afterComment? (s : List Char) : Option (List Char) := do
  after? ['>'] (← upTo ['-', '-'] s).2

/-- What follows a processing instruction, after its `<?`; the target may not be `xml` in any
case. -/
def afterInstruction? (e : Encoding) (s : List Char) : Option (List Char) := do
  let (target, r) ← plainName? e s
  if target.map Char.toLower = ['x', 'm', 'l'] then none
  match r with
  | '?' :: '>' :: r => return r
  | c :: r => if isSpace c then return (← upTo ['?', '>'] r).2 else none
  | [] => none

/-! ### References -/

/-- The value of a digit in a base up to sixteen. -/
def digitOf? (base : Nat) (c : Char) : Option Nat :=
  let d :=
    if '0' ≤ c ∧ c ≤ '9' then c.toNat - '0'.toNat
    else if 'a' ≤ c ∧ c ≤ 'f' then c.toNat - 'a'.toNat + 10
    else if 'A' ≤ c ∧ c ≤ 'F' then c.toNat - 'A'.toNat + 10
    else 16
  if d < base then some d else none

/-- The number that digits stand for, if there are any. -/
def numberOf? (base : Nat) (s : List Char) : Option Nat :=
  if s.isEmpty then none
  else s.foldlM (fun n c => (digitOf? base c).map (n * base + ·)) 0

/-- The character of a code, if a document may hold it. -/
def characterOf? (code : Nat) : Option Char :=
  let c := Char.ofNat code
  if c.toNat = code ∧ isDocumentChar c then some c else none

/-- A reference to a character by its code, or to an entity by its name. -/
inductive Reference
  | char (c : Char)
  | entity (name : String)
  deriving DecidableEq, Repr

/-- The reference that is written between `&` and `;`. -/
def reference? (e : Encoding) : List Char → Option Reference
  | '#' :: 'x' :: digits => ((numberOf? 16 digits).bind characterOf?).map .char
  | '#' :: digits => ((numberOf? 10 digits).bind characterOf?).map .char
  | s =>
    match plainName? e s with
    | some (name, []) => some (.entity (String.ofList name))
    | _ => none

/-- The character of an entity that every document knows. -/
def commonEntity? (name : String) : Option Char :=
  if name = "amp" then some '&'
  else if name = "lt" then some '<'
  else if name = "gt" then some '>'
  else if name = "quot" then some '"'
  else if name = "apos" then some '\''
  else none

/-- A part of a text with references: a character that stands for itself, or a reference. -/
inductive Part
  | plain (c : Char)
  | reference (r : Reference)
  deriving DecidableEq, Repr

/-- The parts of a text; inside a reference the first argument holds its characters so far, in
reverse. -/
def partsFrom? (e : Encoding) : Option (List Char) → List Char → Option (List Part)
  | none, [] => some []
  | some _, [] => none
  | none, c :: r =>
    if c = '&' then partsFrom? e (some []) r else (partsFrom? e none r).map (.plain c :: ·)
  | some inner, c :: r =>
    if c = ';' then do
      let ref ← reference? e inner.reverse
      return .reference ref :: (← partsFrom? e none r)
    else partsFrom? e (some (c :: inner)) r

/-- The parts of a text, in which each line end counts as one character. -/
def parts? (e : Encoding) (s : List Char) : Option (List Part) :=
  partsFrom? e none (normalizeLines s)

/-- Whether a text has references. -/
def hasReference (s : List Char) : Bool := s.contains '&'

end SceneTidy.Xml
