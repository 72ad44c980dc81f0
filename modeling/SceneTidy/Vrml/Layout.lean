import SceneTidy.Field.Text
import SceneTidy.Vrml.Block

/-!
# The layout of a file

Blocks are laid out as a row of pieces: text, margins whose width is still open, the places where a
node's part of the text begins and ends, and the place where the writing stops because a node has
no written form.  `Piece.render` fills in the margins for an indent; the lengths of the nodes' parts
are read off the same row.
-/

namespace SceneTidy.Vrml

/-- A piece of a file. -/
inductive Piece
  | text (s : List Char)
  | margin (depth : Nat)
  | begins (id : NodeId)
  | ends (id : NodeId)
  | refused (type : String)
  deriving DecidableEq, Repr

namespace Piece

/-- A line from some depth, with its margin. -/
def line (depth : Nat) (s : List Char) : List Piece := [.margin depth, .text (s ++ ['\n'])]

/-- Whether the writing stops here. -/
def isRefused : Piece → Bool
  | refused _ => true
  | _ => false

/-- The characters of a piece. -/
def render (indent : Nat) : Piece → List Char
  | text s => s
  | margin depth => List.replicate (indent * depth) ' '
  | begins _ | ends _ | refused _ => []

end Piece

/-- The lines of a field that holds no references; a missing node is written as a word. -/
def valuePieces (depth : Nat) (field : String) : FieldValue → List Piece
  | .one k v => Piece.line depth (field.toList ++ ' ' :: k.text v)
  | .many k vs =>
    Piece.line depth (field.toList ++ [' ', '[']) ++
      vs.flatMap (fun v => Piece.line (depth + 1) (k.text v)) ++ Piece.line depth [']']
  | .node _ => Piece.line depth (field.toList ++ " NULL".toList)
  | .nodes _ => Piece.line depth (field.toList ++ [' ', '[']) ++ Piece.line depth [']']

/-- What stands before the type of a node that is used again. -/
def definition : Option String → List Piece
  | none => []
  | some name => [.text ("DEF ".toList ++ name.toList ++ [' '])]

mutual

/-- The pieces of a block, after its margin. -/
def Block.pieces (depth : Nat) : Block NodeId → List Piece
  | .use name => [.text ("USE ".toList ++ name.toList ++ ['\n'])]
  | .node id name kind body =>
    .begins id :: definition name ++
      if kind.isRegistered then
        .text (kind.typeName.toList ++ [' ', '{', '\n']) :: body.pieces (depth + 1) ++
          Piece.line depth ['}'] ++ [.ends id]
      else [.refused kind.typeName]

/-- The pieces of the fields of a node. -/
def Body.pieces (depth : Nat) : Body NodeId → List Piece
  | .done => []
  | .value field v rest => valuePieces depth field v ++ rest.pieces depth
  | .single field b rest =>
    .margin depth :: .text (field.toList ++ [' ']) :: b.pieces depth ++ rest.pieces depth
  | .list field bs rest =>
    Piece.line depth (field.toList ++ [' ', '[']) ++ bs.pieces (depth + 1) ++ Piece.line depth [']'] ++
      rest.pieces depth

/-- The pieces of a list of blocks, each after a margin. -/
def Blocks.pieces (depth : Nat) : Blocks NodeId → List Piece
  | .nil => []
  | .cons b bs => .margin depth :: b.pieces depth ++ bs.pieces depth

end

/-- The first line of a file. -/
def headerLine : List Char := "#VRML V2.0 utf8\n".toList

/-- The pieces of a file. -/
def filePieces (bs : Blocks NodeId) : List Piece := .text headerLine :: bs.pieces 0

/-- The characters of the pieces up to the place where the writing stops. -/
def renderAll (indent : Nat) (ps : List Piece) : List Char :=
  (ps.takeWhile (!·.isRefused)).flatMap (·.render indent)

/-- The lengths of the parts that end before the writing stops, in the order they end; the other
arguments are the characters passed so far and the places where parts began. -/
def partLengths (indent : Nat) : List Piece → Nat → List (NodeId × Nat) → List (NodeId × Nat)
  | [], _, _ => []
  | .begins id :: ps, passed, begun => partLengths indent ps passed ((id, passed) :: begun)
  | .ends id :: ps, passed, begun =>
    (id, passed - (begun.lookup id).getD passed) :: partLengths indent ps passed begun
  | .refused _ :: _, _, _ => []
  | p :: ps, passed, begun => partLengths indent ps (passed + (p.render indent).length) begun

/-- The failure of the writing: the type of the node where it stops. -/
def refusal? (ps : List Piece) : Option SceneError :=
  ps.findSome? fun p =>
    match p with
    | .refused type => some (.unsupportedNode type)
    | _ => none

end SceneTidy.Vrml
