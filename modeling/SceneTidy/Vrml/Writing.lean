import SceneTidy.Notice
import SceneTidy.Vrml.Layout
import SceneTidy.Vrml.Outline

/-!
# Writing a scene

A scene is written by laying out its outline.  Besides the text, the writing gives the names of the
shared nodes and the length of each node's part of the text.  The writing stops at the scene root if
some node refers to it, since the root has no written form; the text up to there is kept.
-/

namespace SceneTidy

open Vrml

/-- What comes of writing a scene. -/
structure Writing where
  text : String
  lengths : List (NodeId × Nat)
  names : List (NodeId × String)
  failure : Option SceneError

namespace Writing

/-- Nothing written. -/
def empty : Writing := ⟨"", [], [], none⟩

/-- What is told while writing. -/
def notices (w : Writing) : List Notice :=
  if w.names.isEmpty then [] else [.sharedNodes w.names.length]

end Writing

/-- Write a scene with some blanks for each level of nesting. -/
def Scene.write (s : Scene) (indent : Nat) : Writing :=
  let ps := filePieces s.outline
  { text := String.ofList (renderAll indent ps)
    lengths := partLengths indent ps 0 []
    names := s.sharedNames
    failure := refusal? ps }

end SceneTidy
