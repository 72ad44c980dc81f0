import SceneTidy.Text.Blank
import SceneTidy.Text.Quoted

/-!
# Tokens of scene files

A file is a sequence of words, quoted strings and the marks `{`, `}`, `[` and `]`, separated by
blanks, commas and comments that run from `#` to the end of their line.  `tokenize` cuts a text into
tokens; it fails only at a string that is not closed.
-/

namespace SceneTidy.Vrml

open Text

/-- The kinds of token. -/
inductive TokenKind
  | word
  | string
  | mark
  deriving DecidableEq, Repr

/-- A token with its content and the line it starts on. -/
structure Token where
  kind : TokenKind
  text : String
  line : Nat
  deriving DecidableEq, Repr

/-- Whether the character is a token of its own. -/
def isMark (c : Char) : Bool := c = '{' || c = '}' || c = '[' || c = ']'

/-- Whether the character separates words without meaning. -/
def isSeparator (c : Char) : Bool := isBlank c || c = ','

/-- Whether the character may stand in a word. -/
def isWordChar (c : Char) : Bool := !(isSeparator c || isMark c || c = '#' || c = '"')

/-- Whether the character ends a line. -/
def isLineEnd (c : Char) : Bool := c = '\n' || c = '\r'

namespace Token

/-- Whether the token is a given mark. -/
def isThisMark (t : Token) (c : Char) : Bool := t.kind = .mark && t.text = c.toString

/-- Whether the token is a given word. -/
def isThisWord (t : Token) (w : String) : Bool := t.kind = .word && t.text = w

end Token

/-- The tokens of a text, and the line of the string at its end that is not closed. -/
structure Tokens where
  list : List Token
  openString : Option Nat
  deriving DecidableEq, Repr

/-- Put a token in front. -/
def Tokens.cons (t : Token) (ts : Tokens) : Tokens := { ts with list := t :: ts.list }

/-- Cut a text into tokens, given the line it starts on. -/
def tokenizeFrom (line : Nat) (s : List Char) : Tokens :=
  match s with
  | [] => ⟨[], none⟩
  | c :: r =>
    if isSeparator c then tokenizeFrom (if c = '\n' then line + 1 else line) r
    else if c = '#' then
      have : (r.dropWhile (!isLineEnd ·)).length ≤ r.length := (List.dropWhile_sublist _).length_le
      tokenizeFrom line (r.dropWhile (!isLineEnd ·))
    else if c = '"' then
      match h : Quoted.read r with
      | none => ⟨[], some line⟩
      | some (content, rest) =>
        have := Quoted.length_read h
        .cons ⟨.string, String.ofList content, line⟩
          (tokenizeFrom (line + content.count '\n') rest)
    else if isMark c then .cons ⟨.mark, c.toString, line⟩ (tokenizeFrom line r)
    else
      have : (r.dropWhile isWordChar).length ≤ r.length := (List.dropWhile_sublist _).length_le
      .cons ⟨.word, String.ofList (c :: r.takeWhile isWordChar), line⟩
        (tokenizeFrom line (r.dropWhile isWordChar))
termination_by s.length

/-- Cut a text into tokens. -/
def tokenize (s : String) : Tokens := tokenizeFrom 1 s.toList

end SceneTidy.Vrml
