import SceneTidy.Xml.Scan

/-!
# Tokens of declarations

The declarations of a document type are read token by token.  White space between tokens does not
count, but what may stand right behind a word, a literal or a group is limited.
-/

namespace SceneTidy.Xml

/-- A token of a declaration.  A counted name has a mark behind it that tells how often it may
occur. -/
inductive DeclToken
  | name (s : String)
  | qualified (n : Name)
  | nameToken
  | counted
  | pound (s : String)
  | literal (s : List Char)
  | percent
  | parameter
  | openDecl (keyword : String)
  | closeDecl
  | openBracket
  | closeBracket
  | openParen
  | closeParen (mark : Option Char)
  | bar
  | comma
  | aside
  deriving DecidableEq, Repr

/-- Whether the character may count a name or a group. -/
def isCountMark (c : Char) : Bool := c = '?' || c = '*' || c = '+'

/-- Whether what is left goes on with white space or one of some characters. -/
def goesOnWith (marks : List Char) : List Char → Bool
  | [] => false
  | c :: _ => isSpace c || marks.contains c

/-- The token that name characters and colons make up. -/
def wordToken (e : Encoding) (run : List Char) : DeclToken :=
  if !(run.head?.map (isNameStart e)).getD false then .nameToken
  else
    match run.span (· ≠ ':') with
    | (_, []) => .name (String.ofList run)
    | (first, _ :: base) =>
      if base.isEmpty || base.contains ':' then .nameToken
      else .qualified ⟨some (String.ofList first), String.ofList base⟩

/-- A token that starts with a name character or a colon. -/
def word? (e : Encoding) (s : List Char) : Option (DeclToken × List Char) :=
  let isWordChar (c : Char) : Bool := isNameChar e c || c = ':'
  let run := s.takeWhile isWordChar
  let r := s.dropWhile isWordChar
  if run.isEmpty then none
  else if goesOnWith ['>', ')', ',', '|', '[', '%'] r then some (wordToken e run, r)
  else
    match r with
    | c :: r => if isCountMark c && wordToken e run ≠ .nameToken then some (.counted, r) else none
    | [] => none

/-- A token that starts with `<`, after it. -/
def markToken? (e : Encoding) : List Char → Option (DeclToken × List Char)
  | '?' :: r => (afterInstruction? e r).map (.aside, ·)
  | '!' :: '-' :: '-' :: r => (afterComment? r).map (.aside, ·)
  | '!' :: r =>
    let keyword := r.takeWhile Char.isAlpha
    let r := r.dropWhile Char.isAlpha
    if goesOnWith [] r then some (.openDecl (String.ofList keyword), r) else none
  | _ => none

/-- The token of a quoted value. -/
def literal? (s : List Char) : Option (DeclToken × List Char) := do
  let (value, r) ← quoted? s
  if goesOnWith ['>', '%', '['] r then return (.literal value, r) else none

/-- A token that starts with a per cent sign, after it. -/
def percentToken? (e : Encoding) (s : List Char) : Option (DeclToken × List Char) :=
  if goesOnWith ['%'] s then some (.percent, s)
  else
    match plainName? e s with
    | some (_, ';' :: r) => some (.parameter, r)
    | _ => none

/-- A token that starts with a number sign, after it. -/
def poundToken? (e : Encoding) (s : List Char) : Option (DeclToken × List Char) := do
  let (name, r) ← plainName? e s
  if goesOnWith [')', '>', '%', '|'] r then return (.pound (String.ofList name), r) else none

/-- The end of a group, after its parenthesis. -/
def closeParen? : List Char → Option (DeclToken × List Char)
  | [] => none
  | c :: r =>
    if isCountMark c then some (.closeParen (some c), r)
    else if goesOnWith ['>', ',', '|', ')'] (c :: r) then some (.closeParen none, c :: r)
    else none

/-- The next token, after white space. -/
def token? (e : Encoding) (s : List Char) : Option (DeclToken × List Char) :=
  match skipSpace s with
  | '<' :: r => markToken? e r
  | '>' :: r => some (.closeDecl, r)
  | '[' :: r => some (.openBracket, r)
  | ']' :: r => if [']', '>'].isPrefixOf r then none else some (.closeBracket, r)
  | '(' :: r => some (.openParen, r)
  | ')' :: r => closeParen? r
  | '|' :: r => some (.bar, r)
  | ',' :: r => some (.comma, r)
  | '#' :: r => poundToken? e r
  | '%' :: r => percentToken? e r
  | '"' :: r => literal? ('"' :: r)
  | '\'' :: r => literal? ('\'' :: r)
  | r => word? e r

/-- What follows the end of a declaration. -/
def close? (e : Encoding) (s : List Char) : Option (List Char) := do
  let (.closeDecl, r) ← token? e s | none
  return r

/-- A quoted value. -/
def value? (e : Encoding) (s : List Char) : Option (List Char × List Char) := do
  let (.literal v, r) ← token? e s | none
  return (v, r)

/-- The name of an element or attribute. -/
def declaredName? (e : Encoding) (s : List Char) : Option (Name × List Char) := do
  match ← token? e s with
  | (.name n, r) => return (⟨none, n⟩, r)
  | (.qualified n, r) => return (n, r)
  | _ => none

end SceneTidy.Xml
