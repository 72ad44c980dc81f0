import SceneTidy.Xml.DeclToken
import SceneTidy.Xml.Declarations

/-!
# The document type

Before its element a document may declare its type, and in brackets the entities and attributes of
it.  The declarations of elements and notations are only checked.  Declarations in other files are
not looked at, and what follows a reference to some of them does not count, unless the document says
that it stands alone.
-/

namespace SceneTidy.Xml

/-! ### Identifiers of other files -/

/-- Whether the character may stand in a public identifier. -/
def isPublicChar (c : Char) : Bool := c.isAlphanum || " \r\n-'()+,./:=?;!*#@$_%".toList.contains c

/-- What follows a public identifier. -/
def afterPublicId? (e : Encoding) (s : List Char) : Option (List Char) := do
  let (identifier, r) ← value? e s
  if identifier.all isPublicChar then return r else none

/-- What follows the identifiers of another file, after the keyword that says which there are. -/
def afterExternalId? (e : Encoding) (keyword : String) (s : List Char) : Option (List Char) := do
  if keyword = "SYSTEM" then return (← value? e s).2
  else if keyword = "PUBLIC" then return (← value? e (← afterPublicId? e s)).2
  else none

/-! ### Declarations -/

/-- Declarations that are being read: those so far, the effort so far, whether the document stands
alone, and whether further ones count. -/
structure Declaring where
  declarations : Declarations
  effort : Effort
  standsAlone : Bool
  heeds : Bool

/-- A reader of the rest of one declaration. -/
abbrev DeclReader := Declaring → List Char → Option (Declaring × List Char)

/-- The text that an entity stands for: character references are replaced, others stay, and per cent
signs are refused.  A carriage return that is referred to is mere white space, which belongs to no
line end. -/
def entityText? (e : Encoding) (raw : List Char) : Option (List Char) := do
  if raw.contains '%' then none
  let parts ← parts? e raw
  return parts.flatMap fun
    | .plain c => [c]
    | .reference (.char c) => [if c = '\r' then '\t' else c]
    | .reference (.entity name) => '&' :: name.toList ++ [';']

namespace Declaring

/-- Declare an entity, if declarations count. -/
def addEntity (st : Declaring) (name : String) (entity : Entity) : Declaring :=
  if st.heeds then { st with declarations := st.declarations.addEntity name entity } else st

/-- What is declared by the quoted value of an entity, checked if declarations count. -/
def entityOf? (st : Declaring) (e : Encoding) (raw : List Char) : Option Entity :=
  if st.heeds then (entityText? e raw).map fun s => .text (.ofText s) else some .outside

/-- Declare an attribute, if declarations count; its usual value is quoted if there is one, and
`rest` is what follows it. -/
def addAttribute? (st : Declaring) (e : Encoding) (element name : Name) (blanksCount : Bool)
    (usual : Option (List Char)) (rest : List Char) : Option Declaring := do
  if !st.heeds then return st
  let d := st.declarations
  let add (f : Effort) (value : Option String) : Declaring :=
    { st with declarations := d.addAttribute ⟨element, name, blanksCount, value⟩, effort := f }
  match usual with
  | none => return add st.effort none
  | some raw =>
    let f ← if hasReference raw then st.effort.goOn? e rest else st.effort.pass? e rest
    let (f, value) ← d.value? f blanksCount (← parts? e raw)
    return add f (some value)

/-- Go on after a reference to declarations in another file. -/
def passParameter (st : Declaring) : Declaring :=
  { st with
    declarations := { st.declarations with complete := st.standsAlone }
    heeds := st.standsAlone }

end Declaring

/-- What an entity of a document stands for, with what follows it: a quoted value, or another file,
which may be told to hold no text. -/
def entityValue? (e : Encoding) (st : Declaring) (s : List Char) : Option (Entity × List Char) := do
  match ← token? e s with
  | (.literal raw, r) => return (← st.entityOf? e raw, r)
  | (.name keyword, r) =>
    let r ← afterExternalId? e keyword r
    match ← token? e r with
    | (.name "NDATA", r) =>
      let (.name _, r) ← token? e r | none
      return (.outside, r)
    | _ => return (.outside, r)
  | _ => none

/-- The declaration of an entity.  Those that a per cent sign marks are for declarations only. -/
def entityDecl? (e : Encoding) : DeclReader := fun st s => do
  match ← token? e s with
  | (.name name, r) =>
    let (entity, r) ← entityValue? e st r
    return (st.addEntity name entity, ← close? e r)
  | (.percent, r) =>
    let (.name _, r) ← token? e r | none
    match ← token? e r with
    | (.literal raw, r) =>
      let _ ← st.entityOf? e raw
      return (st, ← close? e r)
    | (.name keyword, r) => return (st, ← close? e (← afterExternalId? e keyword r))
    | _ => none
  | _ => none

/-- What follows the words that an attribute may have as its value; the bound limits their
number. -/
def afterChoices? (e : Encoding) (suits : DeclToken → Bool) : Nat → List Char → Option (List Char)
  | 0, _ => none
  | bound + 1, s => do
    let (t, r) ← token? e s
    if !suits t then none
    match ← token? e r with
    | (.bar, r) => afterChoices? e suits bound r
    | (.closeParen none, r) => return r
    | _ => none

/-- Whether a token is a name without a qualifier. -/
def isPlainName : DeclToken → Bool
  | .name _ => true
  | _ => false

/-- Whether a token is any word. -/
def isWord : DeclToken → Bool
  | .name _ | .qualified _ | .nameToken => true
  | _ => false

/-- The types of attributes whose blanks do not count. -/
def tokenizedTypes : List String :=
  ["ID", "IDREF", "IDREFS", "ENTITY", "ENTITIES", "NMTOKEN", "NMTOKENS"]

/-- Whether the blanks of an attribute count, by its type, and what follows the type. -/
def attributeType? (e : Encoding) (s : List Char) : Option (Bool × List Char) := do
  match ← token? e s with
  | (.openParen, r) => return (false, ← afterChoices? e isWord (r.length + 1) r)
  | (.name "CDATA", r) => return (true, r)
  | (.name "NOTATION", r) =>
    let (.openParen, r) ← token? e r | none
    return (false, ← afterChoices? e isPlainName (r.length + 1) r)
  | (.name type, r) => if tokenizedTypes.contains type then return (false, r) else none
  | _ => none

/-- The usual value of an attribute as written, if there is one, and what follows it. -/
def usualValue? (e : Encoding) (s : List Char) : Option (Option (List Char) × List Char) := do
  match ← token? e s with
  | (.literal raw, r) => return (some raw, r)
  | (.pound "IMPLIED", r) | (.pound "REQUIRED", r) => return (none, r)
  | (.pound "FIXED", r) =>
    let (raw, r) ← value? e r
    return (some raw, r)
  | _ => none

/-- The declarations of attributes of an element; the bound limits their number. -/
def attributeDecls? (e : Encoding) (element : Name) : Nat → DeclReader
  | 0 => fun _ _ => none
  | bound + 1 => fun st s => do
    match ← token? e s with
    | (.closeDecl, r) => return (st, r)
    | _ =>
      let (name, r) ← declaredName? e s
      let (blanksCount, r) ← attributeType? e r
      let (usual, r) ← usualValue? e r
      attributeDecls? e element bound
        (← st.addAttribute? e element name blanksCount usual r) r

/-- The declaration of the attributes of an element. -/
def attributeListDecl? (e : Encoding) : DeclReader := fun st s => do
  let (element, r) ← declaredName? e s
  attributeDecls? e element (r.length + 1) st r

/-- What follows a group of elements in an order or a choice.  For each open group, the innermost
first, it is kept which of the two signs parts its members, once that is known; the bound limits the
number of tokens. -/
def afterGroups? (e : Encoding) :
    Nat → Bool → List (Option DeclToken) → List Char → Option (List Char)
  | 0, _, _, _ => none
  | _ + 1, _, [], s => some s
  | bound + 1, true, sign :: signs, s => do
    match ← token? e s with
    | (.openParen, r) => afterGroups? e bound true (none :: sign :: signs) r
    | (.name _, r) | (.qualified _, r) | (.counted, r) =>
      afterGroups? e bound false (sign :: signs) r
    | _ => none
  | bound + 1, false, sign :: signs, s => do
    match ← token? e s with
    | (.closeParen _, r) => afterGroups? e bound false signs r
    | (t, r) =>
      if (t = .comma ∨ t = .bar) ∧ sign.all (· = t) then
        afterGroups? e bound true (some t :: signs) r
      else none

/-- What follows a choice of text and elements, after its first word; the bound limits the number of
elements. -/
def afterMixed? (e : Encoding) (isFirst : Bool) : Nat → List Char → Option (List Char)
  | 0, _ => none
  | bound + 1, s => do
    match ← token? e s with
    | (.closeParen (some '*'), r) => return r
    | (.closeParen none, r) => if isFirst then return r else none
    | (.bar, r) => afterMixed? e false bound (← declaredName? e r).2
    | _ => none

/-- The declaration of what an element holds. -/
def elementDecl? (e : Encoding) : DeclReader := fun st s => do
  let (_, r) ← declaredName? e s
  match ← token? e r with
  | (.name content, r) =>
    if content = "EMPTY" ∨ content = "ANY" then return (st, ← close? e r) else none
  | (.openParen, r) =>
    let bound := r.length + 1
    match ← token? e r with
    | (.pound "PCDATA", r) => return (st, ← close? e (← afterMixed? e true bound r))
    | _ => return (st, ← close? e (← afterGroups? e bound true [none] r))
  | _ => none

/-- The declaration of a notation. -/
def notationDecl? (e : Encoding) : DeclReader := fun st s => do
  let (.name _, r) ← token? e s | none
  match ← token? e r with
  | (.name "SYSTEM", r) => return (st, ← close? e (← value? e r).2)
  | (.name "PUBLIC", r) =>
    let r ← afterPublicId? e r
    match ← token? e r with
    | (.literal _, r) => return (st, ← close? e r)
    | _ => return (st, ← close? e r)
  | _ => none

/-- The reader of the declarations that a keyword starts. -/
def declReader? (e : Encoding) (keyword : String) : Option DeclReader :=
  if keyword = "ENTITY" then some (entityDecl? e)
  else if keyword = "ATTLIST" then some (attributeListDecl? e)
  else if keyword = "ELEMENT" then some (elementDecl? e)
  else if keyword = "NOTATION" then some (notationDecl? e)
  else none

/-- Go on past a declaration. -/
def Declaring.pass? (st : Declaring) (e : Encoding) (rest : List Char) : Option Declaring :=
  (st.effort.pass? e rest).map fun f => { st with effort := f }

/-- The declarations up to the bracket that closes them; the bound limits their number. -/
def subset? (e : Encoding) : Nat → DeclReader
  | 0 => fun _ _ => none
  | bound + 1 => fun st s => do
    match ← token? e s with
    | (.closeBracket, r) => return (st, r)
    | (.aside, r) => subset? e bound (← st.pass? e r) r
    | (.parameter, r) => subset? e bound (← st.passParameter.pass? e r) r
    | (.openDecl keyword, r) =>
      let (st, r) ← (← declReader? e keyword) st r
      subset? e bound (← st.pass? e r) r
    | _ => none

/-- The rest of a document type, after its name and its other file. -/
def doctypeEnd? (e : Encoding) : DeclReader := fun st s => do
  match ← token? e s with
  | (.closeDecl, r) => return (st, r)
  | (.openBracket, r) =>
    let (st, r) ← subset? e (r.length + 1) st r
    return (st, ← close? e r)
  | _ => none

/-- A document type, after its `<!DOCTYPE`. -/
def doctype? (e : Encoding) (standsAlone : Bool) (f : Effort) (s : List Char) :
    Option (Declaring × List Char) := do
  if !goesOnWith [] s then none
  let (_, r) ← declaredName? e s
  match ← token? e r with
  | (.name keyword, r) =>
    let d := { Declarations.empty with complete := standsAlone }
    doctypeEnd? e ⟨d, f, standsAlone, true⟩ (← afterExternalId? e keyword r)
  | _ => doctypeEnd? e ⟨.empty, f, standsAlone, true⟩ r

end SceneTidy.Xml
