import SceneTidy.Command.Arguments
import SceneTidy.Command.Files
import SceneTidy.Report
import SceneTidy.Vrml.Planting
import SceneTidy.X3d.Reader
import SceneTidy.Xml.Document

/-!
# A run of the command

The command reads a scene, numbers its nodes, runs the plan of a preset and writes the scene as a
file.  A run is a function of the arguments and the files it finds; it gives the files it leaves,
what it says, and how it ends.

The input is read before the output is opened, so the two may be the same file.  A plan that fails
leaves an empty output, and a writing that fails the text up to there.
-/

namespace SceneTidy.Command

open Text

/-- Why a run breaks off: at a file that it cannot open, at an option that needs a value and was
given without one, or at a document whose encoding nobody knows. -/
inductive Breakage
  | file (cause : FileError)
  | noValue (f : Flag)
  | unknownEncoding
  deriving DecidableEq, Repr

/-- How a run ends: with an exit code, at its arguments, or broken off. -/
inductive Ending
  | exited (code : Nat)
  | stopped (stop : Stop)
  | broken (cause : Breakage)
  deriving DecidableEq, Repr

/-- An open log file: its place, and how many bytes were written to it. -/
structure LogFile where
  place : Place
  written : Nat

/-- The surroundings of a run: the files, what was said so far, the log file if there is one,
whether all notices are said, and the time of day that is put before a notice. -/
structure Console where
  files : Files
  said : String
  log : Option LogFile
  verbose : Bool
  clock : String

namespace Console

/-- The line of a notice. -/
def line (c : Console) (n : Notice) : String :=
  s!"{c.clock} - {n.channel.name} - {n.level.name} - {n.message}\n"

/-- Say a line on the console. -/
def say (c : Console) (text : String) : Console := { c with said := c.said ++ text }

/-- Tell a notice, on the console and in the log file.  The log file goes on behind what was written
to it, whatever else happened to the file since. -/
def tell (c : Console) (n : Notice) : Console :=
  if c.verbose || n.level.isUsual then
    let c := c.say (c.line n)
    match c.log with
    | none => c
    | some l =>
      { c with
        files := c.files.putOver l.place l.written (bytesOf (c.line n))
        log := some { l with written := l.written + (bytesOf (c.line n)).length } }
  else c

/-- Tell notices in order. -/
def tellAll (c : Console) (ns : List Notice) : Console := ns.foldl tell c

/-- Say why the run ends, and end it. -/
def fail (c : Console) (message : String) : Ending × Console :=
  (.exited 1, c.say s!"Error: {message}\n")

/-- Break the run off. -/
def breakOff (c : Console) (cause : Breakage) : Ending × Console := (.broken cause, c)

/-- End the run at the output's file, which cannot be opened. -/
def failAtOutput (c : Console) : FileError → Ending × Console
  | .nullByte => c.fail nullByteMessage
  | cause => c.breakOff (.file cause)

/-- End the run at a failure of reading, changing or writing the scene. -/
def failAtScene (c : Console) : SceneError → Ending × Console
  | .unknownEncoding => c.breakOff .unknownEncoding
  | e => c.fail e.message

/-- Open the log file, if one is asked for.  Its path is taken without following directories that
double dots take back. -/
def openLog (c : Console) : Option Path → Except FileError Console
  | none => .ok c
  | some path => do
    let (place, files) ← c.files.create path.collapsed
    return { c with files := files, log := some ⟨place, 0⟩ }

end Console

/-- The text with each line end a single line feed. -/
def universalLines (s : String) : String := String.ofList (Xml.normalizeLines s.toList)

/-- What is wrong with a scene whose document cannot be read. -/
def documentError (path : Path) : Xml.Fault → SceneError
  | .notWellFormed => .malformed (.notWellFormed path.toString)
  | .multibyteEncoding => .malformed .multibyteEncoding
  | .deniedEncoding reason => .malformed (.deniedEncoding reason)
  | .unknownEncoding => .unknownEncoding

/-- Read a scene from the bytes of a file, as X3D or as a scene file.  A scene file is in UTF-8,
and each of its line ends counts as a line feed. -/
def readScene (path : Path) (bytes : List UInt8) : Change Unit :=
  if path.isX3d then
    match Xml.readFile bytes with
    | .ok document => X3d.readDocument X3d.usuallySkipped document
    | .error fault => ⟨.empty, [], .error (documentError path fault)⟩
  else
    match decode bytes with
    | .ok text => Scene.empty.readVrml (universalLines text)
    | .error broken => ⟨.empty, [], .error (.malformed (.notUtf8 broken))⟩

/-- What is told when reading starts. -/
def readingNotice (path : Path) : Notice :=
  if path.isX3d then .readingX3d path.toString else .readingVrml path.toString

namespace Settings

/-- The value of an option that a run needs. -/
def needed (f : Flag) : Option α → Except Flag α
  | some a => .ok a
  | none => .error f

/-- The rules for junk that the settings ask for. -/
def rules (st : Settings) : Except Flag JunkRules := do
  return ⟨← st.excluded.mapM (needed .excludeId), !st.keepLineSets, st.keepGroup⟩

/-- The preset and the further choices that the settings make. -/
def choices (st : Settings) : Except Flag (String × Choices) := do
  let rules ← st.rules
  let preset ← needed .preset st.preset
  let indent ← needed .indent st.indent
  return (preset, { Choices.unmade with
    rules := some rules
    ignoreWinding := some (!st.respectWinding)
    indent := some indent })

/-- Whether the settings speak of junk. -/
def asksForJunk (st : Settings) : Bool :=
  !st.excluded.isEmpty || st.keepGroup.isSome || st.keepLineSets

end Settings

/-- Tell the reports that were asked for, and end the run. -/
def report (st : Settings) (s : Scene) (nb : Numbering) (w : Writing) (c : Console) :
    Ending × Console :=
  match st.reportSizes with
  | none => c.breakOff (.noValue .reportSizes)
  | some count =>
    let c := if 0 < count then c.tellAll (s.shapeReport nb w.lengths count) else c
    let c := if st.reportGroups then c.tellAll (s.groupReport nb w.lengths s.root) else c
    (.exited 0, c)

/-- Run a plan on a scene that was read, write it to an open file, and report.  What was told
meanwhile may stand in the same file, and the written text goes over it. -/
def finish (st : Settings) (plan : Plan) (s : Scene) (path : Path) (out : Place) (c : Console) :
    Ending × Console :=
  let nb := Numbering.empty.assign s s.root
  let c := c.tell (.nodesNumbered nb.size)
  let change := s.apply plan nb.number?
  let c := c.tellAll change.notices
  match change.result with
  | .error e => c.failAtScene e
  | .ok () =>
    let w := change.scene.write plan.indent
    let c := c.tellAll w.notices
    let c := { c with files := c.files.putOver out 0 (bytesOf w.text) }
    match w.failure with
    | some e => c.failAtScene e
    | none => report st change.scene nb w (c.tell (.runWritten path.toString))

/-- Open the output, with the directories that it needs, and go on from there. -/
def openOutput (st : Settings) (plan : Plan) (s : Scene) (c : Console) : Ending × Console :=
  match st.output with
  | none => c.breakOff (.noValue .output)
  | some path =>
    match c.files.ensureParent path with
    | .error cause => c.failAtOutput cause
    | .ok files =>
      let c := { c with files := files }
      match files.create path with
      | .error cause => c.failAtOutput cause
      | .ok (out, files) => finish st plan s path out { c with files := files }

/-- Read the input, open the output, and go on from there. -/
def process (st : Settings) (plan : Plan) (c : Console) : Ending × Console :=
  let c := c.tell (readingNotice st.input)
  match c.files.read st.input with
  | .error cause => c.breakOff (.file cause)
  | .ok bytes =>
    let change := readScene st.input bytes
    let c := c.tellAll change.notices
    match change.result with
    | .error e => c.failAtScene e
    | .ok () => openOutput st plan change.scene c

/-- Make the plan that the settings ask for, and go on from there. -/
def planAndProcess (st : Settings) (c : Console) : Ending × Console :=
  match st.choices with
  | .error f => c.breakOff (.noValue f)
  | .ok (preset, choices) =>
    match choices.planFrom preset with
    | .error e => c.fail e.message
    | .ok plan =>
      let c := if !plan.dropJunk && st.asksForJunk then c.tell (.pruningUnused preset) else c
      process st plan c

/-- Run with settings. -/
def runWith (st : Settings) (files : Files) (clock : String) : Ending × Console :=
  let c : Console := ⟨files, "", none, st.verbose, clock⟩
  match c.openLog st.logFile with
  | .error cause => c.breakOff (.file cause)
  | .ok c =>
    let c := c.tell .loggingReady
    match c.files.isAt st.input with
    | .error cause => c.breakOff (.file cause)
    | .ok false => c.fail s!"Input file not found: {st.input.toString}"
    | .ok true => planAndProcess st c

/-- Run the command on arguments and files, at a time of day. -/
def run (args : List String) (files : Files) (clock : String) : Ending × Console :=
  match Settings.ofArguments args with
  | .error stop => (.stopped stop, ⟨files, "", none, false, clock⟩)
  | .ok st => runWith st files clock

/-- Write a scene to a file at a path; the notices and the failure are those of the writing, and the
file is left as far as it was written. -/
def saveScene (s : Scene) (path : Path) (indent : Nat) (files : Files) :
    Except FileError (Writing × List Notice × Files) := do
  let (out, files) ← files.create path
  let w := s.write indent
  let told := if w.failure.isNone then [.fileWritten path.toString] else []
  return (w, w.notices ++ told, files.put out (bytesOf w.text))

end SceneTidy.Command
