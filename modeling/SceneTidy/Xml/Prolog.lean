import SceneTidy.Xml.Doctype

/-!
# Before the element

A document may start with a heading, which names its encoding and says whether it stands alone.
Comments, processing instructions and one document type may follow, and then comes the element.
-/

namespace SceneTidy.Xml

/-- The declarations of a document, the effort of reading them, and the text from its element on;
the bound limits what may come before it. -/
def prolog? (e : Encoding) (standsAlone : Bool) (f : Effort) (known : Option Declarations) :
    Nat → List Char → Option (Declarations × Effort × List Char)
  | 0, _ => none
  | bound + 1, s =>
    match skipSpace s with
    | '<' :: '?' :: r => do
      let r ← afterInstruction? e r
      prolog? e standsAlone (← f.pass? e r) known bound r
    | '<' :: '!' :: '-' :: '-' :: r => do
      let r ← afterComment? r
      prolog? e standsAlone (← f.pass? e r) known bound r
    | '<' :: '!' :: r => do
      if known.isSome then none
      let (st, r) ← doctype? e standsAlone f (← after? "DOCTYPE".toList r)
      prolog? e standsAlone st.effort (some st.declarations) bound r
    | r => some (known.getD .empty, f, r)

/-! ### The heading -/

/-- One item of a heading: white space, a keyword, and a quoted value. -/
def headingItem? (keyword : String) (s : List Char) : Option (List Char × List Char) := do
  if (skipSpace s).length = s.length then none
  let r ← after? keyword.toList (skipSpace s)
  quoted? (← afterEquals? r)

/-- Whether the character may stand in a value of a heading. -/
def isHeadingChar (c : Char) : Bool :=
  c.isAlphanum || c = '.' || c = '_' || c = '-'

/-- Whether a text is the name of an encoding. -/
def isEncodingName : List Char → Bool
  | [] => false
  | c :: r => c.isAlpha && r.all isHeadingChar

/-- An item that may be missing, with its value. -/
def optionalItem? (keyword : String) (valid : List Char → Bool) (s : List Char) :
    Option (Option (List Char) × List Char) :=
  match headingItem? keyword s with
  | some (value, r) => if valid value then some (some value, r) else none
  | none => some (none, s)

/-- What a document says at its start: the name of its encoding, and whether it stands alone. -/
structure Heading where
  encoding : Option (List Char)
  standsAlone : Bool

/-- Whether a text starts with a heading. -/
def hasHeading (s : List Char) : Bool :=
  match after? "<?xml".toList s with
  | some (c :: _) => isSpace c
  | _ => false

/-- The heading of a document, and the text after it; one that starts but is not well-formed is
refused. -/
def heading? (s : List Char) : Option (Heading × List Char) :=
  if hasHeading s then do
    let r ← after? "<?xml".toList s
    let (version, r) ← headingItem? "version" r
    if !version.all isHeadingChar then none
    let (encoding, r) ← optionalItem? "encoding" isEncodingName r
    let (alone, r) ← optionalItem? "standalone" (fun v => v = "yes".toList || v = "no".toList) r
    return (⟨encoding, alone = some "yes".toList⟩, ← after? ['?', '>'] (skipSpace r))
  else some (⟨none, false⟩, s)

end SceneTidy.Xml
