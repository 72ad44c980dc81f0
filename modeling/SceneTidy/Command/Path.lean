/-!
# Paths

A path is a row of names, from the working directory or from the top.  Empty names and single dots
are dropped when a path is read; double dots stay, and lead to the parent when the path is followed.
-/

namespace SceneTidy.Command

/-- A path: what it starts with (nothing, or one or two slashes), and its names. -/
structure Path where
  start : String
  names : List String
  deriving DecidableEq, Repr

namespace Path

/-- The parts of a text between slashes. -/
def parts : List Char → List (List Char)
  | [] => [[]]
  | c :: r =>
    if c = '/' then [] :: parts r
    else
      match parts r with
      | [] => [[c]]
      | p :: ps => (c :: p) :: ps

/-- The slashes at the start that count: two if there are exactly two, else at most one. -/
def startOf : List Char → String
  | ['/', '/'] => "//"
  | '/' :: '/' :: c :: _ => if c = '/' then "/" else "//"
  | '/' :: _ => "/"
  | _ => ""

/-- The path that a text gives. -/
def ofString (s : String) : Path :=
  ⟨startOf s.toList,
    ((parts s.toList).filter fun p => p ≠ [] ∧ p ≠ ['.']).map String.ofList⟩

/-- The text of a path; the working directory is a dot. -/
def toString (p : Path) : String :=
  if p.start = "" ∧ p.names = [] then "." else p.start ++ "/".intercalate p.names

instance : ToString Path := ⟨toString⟩

/-- The path without its last name. -/
def parent (p : Path) : Path := { p with names := p.names.dropLast }

/-- The last name of the path. -/
def lastName (p : Path) : String := p.names.getLast?.getD ""

/-- The end of the last name from its last dot on, if the dot is neither the first nor the last
character. -/
def suffix (p : Path) : String :=
  let name := p.lastName.toList
  let ending := (name.reverse.takeWhile (· ≠ '.')).reverse
  if ending.length + 1 < name.length ∧ ending ≠ [] then String.ofList ('.' :: ending) else ""

/-- Whether the file of the path is read as X3D. -/
def isX3d (p : Path) : Bool := p.suffix.toList.map Char.toLower = ['.', 'x', '3', 'd']

/-- The path with double dots taken back together with the name before them. -/
def collapsed (p : Path) : Path :=
  let step (names : List String) (n : String) : List String :=
    if n = ".." then
      match names with
      | [] => if p.start = "" then [".."] else []
      | m :: rest => if m = ".." then ".." :: names else rest
    else n :: names
  { p with names := (p.names.foldl step []).reverse }

end Path

end SceneTidy.Command
