import SceneTidy.Field.Value

/-!
# Faces

A face is the list of its corner points.  Two faces count as duplicates when their keys agree: the
sorted points if the winding does not matter, the smallest rotation of the points if it does.

* `Face.key`, `Face.distinct`: the first face of each key;
* `IndexedFaces.ofFaces`: a list of distinct points and, for each face, the places of its points,
  closed by `-1`;
* `facesOfIndices`: the way back.
-/

namespace SceneTidy

/-- A face, by its corners in order. -/
abbrev Face := List Vec3

/-- Lexicographic order of two lists of points, by value. -/
def Face.less : Face → Face → Bool
  | [], [] => false
  | [], _ :: _ => true
  | _ :: _, [] => false
  | p :: ps, q :: qs => if p.same q then less ps qs else p.less q

/-- Equality of two lists of points, by value. -/
def Face.same (f g : Face) : Bool := sameItems Vec3.same f g

/-- The least member of a list, the first of several; the given start counts as one. -/
def leastFrom (less : α → α → Bool) (least : α) : List α → α
  | [] => least
  | a :: as => leastFrom less (if less a least then a else least) as

/-- The items whose key is not the same as a key seen before. -/
def firsts (same : β → β → Bool) (key : α → β) : List β → List α → List α
  | _, [] => []
  | seen, a :: as =>
    if seen.any (same (key a)) then firsts same key seen as
    else a :: firsts same key (key a :: seen) as

namespace Face

/-- The face from its other corners on, one after the other. -/
def rotations (f : Face) : List Face := (List.range f.length).map fun i => f.drop i ++ f.take i

/-- The key that two faces share if they have the same points in any order. -/
def sortedKey (f : Face) : Face := f.mergeSort fun p q => !q.less p

/-- The key that two faces share if one is the other from another corner on. -/
def cycleKey (f : Face) : Face := leastFrom less f f.rotations

/-- The key under which two faces count as duplicates. -/
def key (ignoreWinding : Bool) (f : Face) : Face :=
  if ignoreWinding then f.sortedKey else f.cycleKey

/-- Why faces have no keys: the corners of an empty face have no first one to start from. -/
inductive KeyError
  | noCorners
  deriving DecidableEq, Repr

/-- The wording of a missing key. -/
def KeyError.message : KeyError → String
  | noCorners => "min() arg is an empty sequence"

/-- The keys of faces.  An empty face has one only if the winding does not matter; no face set has
such a face. -/
def keys (ignoreWinding : Bool) (fs : List Face) : Except KeyError (List Face) :=
  if !ignoreWinding && fs.any List.isEmpty then .error .noCorners
  else .ok (fs.map (key ignoreWinding))

/-- The first face of each key, in order. -/
def distinct (ignoreWinding : Bool) (fs : List Face) : List Face :=
  firsts same (key ignoreWinding) [] fs

end Face

/-- The mark that closes a face in an index list. -/
def faceEnd : Int := -1

/-- Points, and faces as lists of places among the points. -/
structure IndexedFaces where
  points : List Vec3
  indices : List Int
  deriving DecidableEq, Repr

/-- The place of a point among points. -/
def placeOf (points : List Vec3) (p : Vec3) : Nat := points.findIdx (p.same ·)

namespace IndexedFaces

/-- The distinct points of faces in the order of their first appearance, and the faces by the
places of their points; faces that have no points at all leave nothing. -/
def ofFaces (fs : List Face) : IndexedFaces :=
  match firsts Vec3.same id [] fs.flatten with
  | [] => ⟨[], []⟩
  | points =>
    ⟨points, fs.flatMap fun f => f.map (fun p => (placeOf points p : Int)) ++ [faceEnd]⟩

end IndexedFaces

/-- Why indices name no faces: one of them is no place among the points. -/
structure BadIndex where
  index : Int
  points : Nat
  deriving DecidableEq, Repr

/-- The point of an index. -/
def pointAt (points : List Vec3) (i : Int) : Except BadIndex Vec3 :=
  match i with
  | .ofNat n =>
    match points[n]? with
    | some p => .ok p
    | none => .error ⟨i, points.length⟩
  | .negSucc _ => .error ⟨i, points.length⟩

/-- A finished face, unless it has no corners. -/
def finished (corners : Face) : List Face := if corners.isEmpty then [] else [corners]

/-- The faces that indices describe, given the corners passed since the last closed face. -/
def facesFrom (points : List Vec3) : Face → List Int → Except BadIndex (List Face)
  | corners, [] => .ok (finished corners)
  | corners, i :: is =>
    if i = faceEnd then do
      return finished corners ++ (← facesFrom points [] is)
    else do
      facesFrom points (corners ++ [← pointAt points i]) is

/-- The faces that indices describe.  A run that is not closed is a face too, and an empty run is
none. -/
def facesOfIndices (points : List Vec3) (is : List Int) : Except BadIndex (List Face) :=
  facesFrom points [] is

end SceneTidy
