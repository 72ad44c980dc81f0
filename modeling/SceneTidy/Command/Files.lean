import SceneTidy.Command.Path

/-!
# A tree of files

The files and directories that a run may see, as a table; a file is a row of bytes.  A place in the
tree is the row of names that leads to it from the working directory; a place above it starts with
double dots, and one that is reached from the top starts with a slash.
-/

namespace SceneTidy.Command

/-- A place in the tree. -/
abbrev Place := List String

/-- Bytes put over others from a place on.  What the others have before and behind stays, and a gap
between them is filled with zeros. -/
def overlay (base : List UInt8) (start : Nat) (bytes : List UInt8) : List UInt8 :=
  base.take start ++ List.replicate (start - base.length) 0 ++ bytes ++
    base.drop (start + bytes.length)

/-- Why an operation on the tree fails: with what there is at a place, or with a path that the
system does not take. -/
inductive FileError
  | notFound
  | isDirectory
  | notDirectory
  | alreadyExists
  | nameTooLong
  | nullByte
  deriving DecidableEq, Repr

/-- What is said of a path that holds a NUL character. -/
def nullByteMessage : String := "embedded null byte"

/-- The bytes that one name may take. -/
def nameLimit : Nat := 255

/-- The bytes that a whole path may take. -/
def pathLimit : Nat := 4095

/-- Why the system does not take a path: it holds a NUL character, or it is too long. -/
def Path.fault? (path : Path) : Option FileError :=
  if path.toString.toList.contains '\x00' then some .nullByte
  else if pathLimit < path.toString.utf8ByteSize then some .nameTooLong
  else none

/-- Files with their bytes, and directories. -/
structure Files where
  contents : List (Place × List UInt8)
  directories : List Place

/-- The directories that hold a place, below the working directory. -/
def enclosing (place : Place) : List Place :=
  (List.range' 1 (place.length - 1)).map place.take

namespace Files

/-- The tree of some files and the directories that hold them. -/
def ofContents (contents : List (Place × List UInt8)) : Files :=
  ⟨contents, (contents.flatMap fun (place, _) => enclosing place).eraseDups⟩

/-- The bytes of a file. -/
def bytes? (fs : Files) (place : Place) : Option (List UInt8) := fs.contents.lookup place

/-- Whether a place is a directory; the working directory and those above it are. -/
def isDirectory (fs : Files) (place : Place) : Bool :=
  place.all (· = "..") || place = ["/"] || fs.directories.contains place

/-- Whether there is something at a place. -/
def isTaken (fs : Files) (place : Place) : Bool :=
  fs.isDirectory place || (fs.bytes? place).isSome

/-- Put bytes at a place. -/
def put (fs : Files) (place : Place) (bytes : List UInt8) : Files :=
  { fs with
    contents :=
      if (fs.bytes? place).isSome then
        fs.contents.map fun (p, bs) => if p = place then (p, bytes) else (p, bs)
      else fs.contents ++ [(place, bytes)] }

/-- Put bytes over those of a place from one on, leaving what is before and behind them. -/
def putOver (fs : Files) (place : Place) (start : Nat) (bytes : List UInt8) : Files :=
  fs.put place (overlay ((fs.bytes? place).getD []) start bytes)

/-- The place that a name leads to from a directory. -/
def below (place : Place) (name : String) : Place :=
  if name = ".." then
    if place.all (· = "..") then place ++ [".."] else if place = ["/"] then place
    else place.dropLast
  else place ++ [name]

/-- Follow names from a place; every place on the way must be a directory. -/
def follow (fs : Files) : Place → List String → Except FileError Place
  | place, [] => .ok place
  | place, name :: names =>
    if fs.isDirectory place then
      if nameLimit < name.utf8ByteSize then .error .nameTooLong
      else fs.follow (below place name) names
    else .error (if (fs.bytes? place).isSome then .notDirectory else .notFound)

/-- The place of a path. -/
def place (fs : Files) (path : Path) : Except FileError Place :=
  match path.fault? with
  | some e => .error e
  | none => fs.follow (if path.start = "" then [] else ["/"]) path.names

/-- Whether there is something at a path; of a name that is too long that cannot be told. -/
def isAt (fs : Files) (path : Path) : Except FileError Bool :=
  match fs.place path with
  | .ok place => .ok (fs.isTaken place)
  | .error .nameTooLong => .error .nameTooLong
  | .error _ => .ok false

/-- The bytes of the file at a path. -/
def read (fs : Files) (path : Path) : Except FileError (List UInt8) := do
  let place ← fs.place path
  if fs.isDirectory place then .error .isDirectory
  else
    match fs.bytes? place with
    | some bytes => .ok bytes
    | none => .error .notFound

/-- Open a file for writing: it is created or emptied. -/
def create (fs : Files) (path : Path) : Except FileError (Place × Files) := do
  let place ← fs.place path
  if fs.isDirectory place then .error .isDirectory else .ok (place, fs.put place [])

/-- Make one directory. -/
def makeDirectory (fs : Files) (path : Path) : Except FileError Files := do
  let place ← fs.place path
  if fs.isTaken place then .error .alreadyExists
  else .ok { fs with directories := fs.directories ++ [place] }

/-- Make a directory, or leave it if it is there. -/
def ensureDirectory (fs : Files) (path : Path) : Except FileError Files :=
  match fs.makeDirectory path with
  | .ok fs => .ok fs
  | .error e =>
    match fs.place path with
    | .ok place => if fs.isDirectory place then .ok fs else .error e
    | .error _ => .error e

/-- Make a directory with those that hold it, given the names in reverse; those that are there
stay. -/
def ensureAll (fs : Files) (start : String) : List String → Except FileError Files
  | [] => fs.ensureDirectory ⟨start, []⟩
  | name :: outer =>
    let path : Path := ⟨start, (name :: outer).reverse⟩
    match fs.makeDirectory path with
    | .error .notFound => do (← fs.ensureAll start outer).ensureDirectory path
    | _ => fs.ensureDirectory path

/-- Make the directories that a file at a path needs. -/
def ensureParent (fs : Files) (path : Path) : Except FileError Files :=
  fs.ensureAll path.start path.parent.names.reverse

end Files

end SceneTidy.Command
