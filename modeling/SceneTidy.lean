import SceneTidy.Command.Arguments
import SceneTidy.Command.Files
import SceneTidy.Command.Path
import SceneTidy.Command.Run
import SceneTidy.Error
import SceneTidy.Field.Basic
import SceneTidy.Field.Kind
import SceneTidy.Field.Text
import SceneTidy.Field.Value
import SceneTidy.Geometry.Face
import SceneTidy.Geometry.FaceSet
import SceneTidy.Main
import SceneTidy.Notice
import SceneTidy.Numeric.Binary64
import SceneTidy.Numeric.Literal
import SceneTidy.Numeric.Shortest
import SceneTidy.Plan
import SceneTidy.Proofs.Command.Aborting
import SceneTidy.Proofs.Command.Files
import SceneTidy.Proofs.Command.Saving
import SceneTidy.Proofs.Field.Literals
import SceneTidy.Proofs.Field.WordsReadBack
import SceneTidy.Proofs.Geometry.DistinctFaces
import SceneTidy.Proofs.Geometry.FaceClasses
import SceneTidy.Proofs.Geometry.FaceKeys
import SceneTidy.Proofs.Geometry.FaceLists
import SceneTidy.Proofs.Geometry.Indexing
import SceneTidy.Proofs.Geometry.Renumbering
import SceneTidy.Proofs.GroupReport
import SceneTidy.Proofs.Numbering
import SceneTidy.Proofs.Numeric.ReadBack
import SceneTidy.Proofs.Numeric.Rounding
import SceneTidy.Proofs.Numeric.SameValue
import SceneTidy.Proofs.Pipeline
import SceneTidy.Proofs.Reading
import SceneTidy.Proofs.Reproducing
import SceneTidy.Proofs.Scene.Aside
import SceneTidy.Proofs.Scene.Closed
import SceneTidy.Proofs.Scene.Copy
import SceneTidy.Proofs.Scene.Discovery
import SceneTidy.Proofs.Scene.Reachable
import SceneTidy.Proofs.Scene.Sharing
import SceneTidy.Proofs.Scene.Shown
import SceneTidy.Proofs.Scene.Slots
import SceneTidy.Proofs.Simplify.BadIndices
import SceneTidy.Proofs.Simplify.CleanedNode
import SceneTidy.Proofs.Simplify.Cleaning
import SceneTidy.Proofs.Simplify.Closed
import SceneTidy.Proofs.Simplify.Drawing
import SceneTidy.Proofs.Simplify.Dropping
import SceneTidy.Proofs.Simplify.Failing
import SceneTidy.Proofs.Simplify.FoldRuns
import SceneTidy.Proofs.Simplify.FoldSteps
import SceneTidy.Proofs.Simplify.Folded
import SceneTidy.Proofs.Simplify.Folding
import SceneTidy.Proofs.Simplify.Judging
import SceneTidy.Proofs.Simplify.Junk
import SceneTidy.Proofs.Simplify.JunkFree
import SceneTidy.Proofs.Simplify.Keeping
import SceneTidy.Proofs.Simplify.KeptGroup
import SceneTidy.Proofs.Simplify.MergedAlike
import SceneTidy.Proofs.Simplify.MergedScene
import SceneTidy.Proofs.Simplify.Merging
import SceneTidy.Proofs.Simplify.Normal
import SceneTidy.Proofs.Simplify.Paths
import SceneTidy.Proofs.Simplify.Remerging
import SceneTidy.Proofs.Simplify.Replacing
import SceneTidy.Proofs.Simplify.Searching
import SceneTidy.Proofs.Simplify.ShapeClasses
import SceneTidy.Proofs.Simplify.Stale
import SceneTidy.Proofs.Simplify.Surviving
import SceneTidy.Proofs.Simplify.Tidy
import SceneTidy.Proofs.Switches
import SceneTidy.Proofs.Text.Quoted
import SceneTidy.Proofs.Text.Runs
import SceneTidy.Proofs.TwoSided
import SceneTidy.Proofs.Values
import SceneTidy.Proofs.Vrml.Cutting
import SceneTidy.Proofs.Vrml.Descent
import SceneTidy.Proofs.Vrml.Drafting
import SceneTidy.Proofs.Vrml.Fixpoint
import SceneTidy.Proofs.Vrml.Grammar
import SceneTidy.Proofs.Vrml.Growth
import SceneTidy.Proofs.Vrml.Indentation
import SceneTidy.Proofs.Vrml.LineEnds
import SceneTidy.Proofs.Vrml.Meaning
import SceneTidy.Proofs.Vrml.Mirror
import SceneTidy.Proofs.Vrml.Parts
import SceneTidy.Proofs.Vrml.Reading
import SceneTidy.Proofs.Vrml.Refusal
import SceneTidy.Proofs.Vrml.Rendering
import SceneTidy.Proofs.Vrml.RoundTrip
import SceneTidy.Proofs.Vrml.Spelling
import SceneTidy.Proofs.Vrml.Stopping
import SceneTidy.Proofs.X3d.Asides
import SceneTidy.Proofs.X3d.Elements
import SceneTidy.Proofs.X3d.Filling
import SceneTidy.Proofs.X3d.Reading
import SceneTidy.Report
import SceneTidy.Scene.Basic
import SceneTidy.Scene.Change
import SceneTidy.Scene.Node
import SceneTidy.Scene.NodeKind
import SceneTidy.Scene.Numbering
import SceneTidy.Scene.Sharing
import SceneTidy.Scene.Walk
import SceneTidy.Simplify.Cleaning
import SceneTidy.Simplify.Folding
import SceneTidy.Simplify.Junk
import SceneTidy.Simplify.Merging
import SceneTidy.Text.Blank
import SceneTidy.Text.DecimalDigit
import SceneTidy.Text.Printable
import SceneTidy.Text.Quoted
import SceneTidy.Text.Shown
import SceneTidy.Vrml.Block
import SceneTidy.Vrml.Layout
import SceneTidy.Vrml.Outline
import SceneTidy.Vrml.Planting
import SceneTidy.Vrml.Reader
import SceneTidy.Vrml.Token
import SceneTidy.Vrml.Writing
import SceneTidy.X3d.Reader
import SceneTidy.Xml.CodePage
import SceneTidy.Xml.DeclToken
import SceneTidy.Xml.Declarations
import SceneTidy.Xml.Doctype
import SceneTidy.Xml.Document
import SceneTidy.Xml.Effort
import SceneTidy.Xml.Element
import SceneTidy.Xml.Encoding
import SceneTidy.Xml.Markup
import SceneTidy.Xml.NameChar
import SceneTidy.Xml.Prolog
import SceneTidy.Xml.Scan
import SceneTidy.Xml.Tree
