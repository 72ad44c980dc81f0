import SceneTidy.Field.Text
import SceneTidy.Notice
import SceneTidy.Vrml.Block
import SceneTidy.Vrml.Token

/-!
# Reading written scenes

The tokens of a file are read as a sequence of statements: blocks, and routes, which are told and
dropped.  The reader goes by recursive descent.  It looks one token ahead, and stops at the first
token that cannot go on; the statements completed before it are kept.

Every turn of the descent passes at least every other time over a token, so twice the number of
tokens bounds its depth.  There is no other bound: blocks may be nested as deep as the text has
them, and a limit that an interpreter may set on the depth of a recursion is taken as off.
-/

namespace SceneTidy.Vrml

/-- The tokens still to read, the names defined so far and the notices given so far. -/
structure ReadState where
  tokens : List Token
  names : List String
  notices : List Notice

/-- A reader of tokens, which keeps its state when it fails. -/
abbrev Reader := EStateM SceneError ReadState

namespace Reader

/-- Fail because a value or a structure is malformed. -/
def refuse (cause : Malformed) : Reader α := throw (.malformed cause)

/-- The token ahead. -/
def peek : Reader Token := do
  match (← get).tokens with
  | [] => refuse .endOfInput
  | t :: _ => return t

/-- Pass over the token ahead. -/
def next : Reader Token := do
  let st ← get
  match st.tokens with
  | [] => refuse .endOfInput
  | t :: rest =>
    set { st with tokens := rest }
    return t

/-- Tell a notice. -/
def tell (n : Notice) : Reader Unit := modify fun st => { st with notices := st.notices ++ [n] }

/-- Pass over a given mark. -/
def expectMark (c : Char) : Reader Unit := do
  let t ← next
  if t.isThisMark c then return () else refuse (.expectedMark c t.line t.text)

/-- Pass over a word. -/
def word : Reader String := do
  let t ← next
  if t.kind = .word then return t.text else refuse (.expectedName t.line t.text)

/-- Pass over a number of tokens that are no marks. -/
def take : Nat → Reader (List Token)
  | 0 => return []
  | n + 1 => do
    let t ← next
    if t.kind = .mark then refuse (.unexpectedMark t.text t.line)
    else return t :: (← take n)

/-- Pass over a route and tell that it is dropped. -/
def skipRoute : Reader Unit := do
  let start ← next
  let source ← word
  let link ← word
  if link = "TO" then
    let target ← word
    tell (.routeIgnored source target start.line)
  else refuse (.expectedTo start.line)

/-- Pass over the tokens up to the closing bracket, and over it. -/
def upToBracket : Reader (List Token) := do
  let st ← get
  match st.tokens.span (!·.isThisMark ']') with
  | (_, []) =>
    set { st with tokens := [] }
    refuse .endOfInput
  | (inside, _ :: rest) =>
    set { st with tokens := rest }
    return inside

/-- The texts of a value's tokens, which must be strings for a field of strings and words for any
other. -/
def texts (kind : FieldKind) : List Token → Reader (List String)
  | [] => return []
  | t :: ts => do
    if t.kind = if kind.isText then .string else .word then return t.text :: (← texts kind ts)
    else refuse (.invalidToken kind t.text t.line)

/-- The value that tokens stand for. -/
def decode (kind : FieldKind) (ts : List Token) : Reader FieldValue := do
  match kind.read (← texts kind ts) with
  | .ok v => return v
  | .error e => throw e

/-- Read the value of a field that holds no references: a list in brackets, or as many tokens as
one item takes. -/
def plainValue (kind : FieldKind) : Reader FieldValue := do
  if kind.isList && (← peek).isThisMark '[' then
    let _ ← next
    decode kind (← upToBracket)
  else decode kind (← take kind.components)

/-- How a written node starts: it says that there is none, uses a name, or opens the fields of a
node of some kind. -/
inductive Head
  | null
  | use (name : String)
  | opens (name : Option String) (kind : NodeKind)

/-- The kind that a file calls by a name. -/
def nodeKind (type : String) : Reader NodeKind :=
  match NodeKind.ofTypeName? type with
  | some kind => return kind
  | none => throw (.unsupportedNode type)

/-- Read the start of a written node, up to its opening brace. -/
def head : Reader Head := do
  let first ← word
  if first = "NULL" then return .null
  else if first = "USE" then
    let name ← word
    if (← get).names.contains name then return .use name else throw (.undefinedName name)
  else if first = "DEF" then
    let name ← word
    let kind ← nodeKind (← word)
    modify fun st => { st with names := name :: st.names }
    expectMark '{'
    return .opens (some name) kind
  else
    let kind ← nodeKind first
    expectMark '{'
    return .opens none kind

/-- Read the name of a field of a kind of node. -/
def fieldName (kind : NodeKind) : Reader FieldDecl := do
  let t ← next
  match if t.kind = .word then kind.field? t.text else none with
  | some d => return d
  | none => refuse (.unknownField t.text kind.typeName t.line)

mutual

/-- Read a written node; `none` stands for the word that says there is none. -/
def block : Nat → Reader (Option (Block Unit))
  | 0 => refuse .endOfInput
  | fuel + 1 => do
    match ← head with
    | .null => return none
    | .use name => return some (.use name)
    | .opens name kind => return some (.node () name kind (← fields fuel kind))

/-- Read the fields of a node up to its closing brace, and over it. -/
def fields : Nat → NodeKind → Reader (Body Unit)
  | 0, _ => refuse .endOfInput
  | fuel + 1, kind => do
    let ahead ← peek
    if ahead.isThisMark '}' then
      let _ ← next
      return .done
    else if ahead.isThisWord "ROUTE" then
      skipRoute
      fields fuel kind
    else
      let d ← fieldName kind
      match d.kind with
      | .node =>
        match ← block fuel with
        | none => return .value d.name (.node none) (← fields fuel kind)
        | some b => return .single d.name b (← fields fuel kind)
      | .nodes =>
        if (← peek).isThisMark '[' then
          let _ ← next
          let bs ← blocks fuel
          return .list d.name bs (← fields fuel kind)
        else
          match ← block fuel with
          | none => return .list d.name .nil (← fields fuel kind)
          | some b => return .list d.name (.cons b .nil) (← fields fuel kind)
      | plain =>
        let v ← plainValue plain
        return .value d.name v (← fields fuel kind)

/-- Read the statements of a list of nodes up to its closing bracket, and over it. -/
def blocks : Nat → Reader (Blocks Unit)
  | 0 => refuse .endOfInput
  | fuel + 1 => do
    let ahead ← peek
    if ahead.isThisMark ']' then
      let _ ← next
      return .nil
    else if ahead.isThisWord "ROUTE" then
      skipRoute
      blocks fuel
    else if ahead.isThisWord "PROTO" || ahead.isThisWord "EXTERNPROTO" then
      throw (.unsupportedNode ahead.text)
    else
      match ← block fuel with
      | none => blocks fuel
      | some b => return .cons b (← blocks fuel)

end

/-- Read one statement of the top level; `none` stands for a route or for no node. -/
def statement (fuel : Nat) : Reader (Option (Block Unit)) := do
  let ahead ← peek
  if ahead.isThisWord "ROUTE" then
    skipRoute
    return none
  else if ahead.isThisWord "PROTO" || ahead.isThisWord "EXTERNPROTO" then
    throw (.unsupportedNode ahead.text)
  else block fuel

end Reader

/-- What was read of a file: the blocks of the complete statements, the notices, and the failure
that ended the reading if there was one. -/
structure Reading where
  blocks : List (Block Unit)
  notices : List Notice
  failure : Option SceneError

/-- Read statements until the tokens end or one fails; the bound limits their number. -/
def readStatements (depth : Nat) : Nat → ReadState → Reading
  | 0, st => ⟨[], st.notices, none⟩
  | bound + 1, st =>
    if st.tokens.isEmpty then ⟨[], st.notices, none⟩
    else
      match Reader.statement depth st with
      | .error e st => ⟨[], st.notices, some e⟩
      | .ok b st =>
        let rest := readStatements depth bound st
        { rest with blocks := b.toList ++ rest.blocks }

/-- Read the statements of a sequence of tokens. -/
def readTokens (ts : List Token) : Reading :=
  readStatements (2 * ts.length + 2) ts.length ⟨ts, [], []⟩

/-- Read the statements of a text.  The text is cut into tokens as a whole first, so that an open
string at its end leaves nothing. -/
def readText (s : String) : Reading :=
  let ts := tokenize s
  match ts.openString with
  | some line => ⟨[], [], some (.malformed (.unterminatedString line))⟩
  | none => readTokens ts.list

end SceneTidy.Vrml
