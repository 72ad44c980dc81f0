import SceneTidy.Command.Run
import Std.Time.Zoned

/-!
# The command

The outer layer of the command: it looks at the files that the arguments name, runs the command on
them, and writes what the run leaves.
-/

namespace SceneTidy.Command

/-- What is said when the arguments are wrong, and when help is asked for. -/
def usage : String :=
  "usage: [-h] [-o FILE] [--preset cleanup|unify] [--indent N] [--exclude-id ID] " ++
    "[--keep-group-id ID] [--keep-line-sets] [--respect-winding] [--report-sizes N] " ++
    "[--report-groups] [--log-file FILE] [-v] input"

/-- The path of a place, as the system takes it. -/
def systemPath (place : Place) : String :=
  match place with
  | "/" :: names => "/" ++ "/".intercalate names
  | names => if names.isEmpty then "." else "/".intercalate names

/-- Look at the places on the way along a path, and read the file at its end. -/
def look (files : Files) (path : Path) : IO Files := do
  let here ← IO.currentDir
  let mut files := files
  let mut place : Place := if path.start = "" then [] else ["/"]
  for name in path.names do
    place := Files.below place name
    if !files.isTaken place then
      let there := here / systemPath place
      if ← there.isDir then
        files := { files with directories := files.directories ++ [place] }
      else if ← there.pathExists then
        files := files.put place (← IO.FS.readBinFile there).data.toList
  return files

/-- Write what a run has changed. -/
def store (before after : Files) : IO Unit := do
  for place in after.directories do
    if !before.isDirectory place then IO.FS.createDirAll (systemPath place)
  for (place, bytes) in after.contents do
    if before.bytes? place != some bytes then
      IO.FS.writeBinFile (systemPath place) ⟨bytes.toArray⟩

/-- The time of day, for the notices. -/
def clock : IO String := do
  let now ← Std.Time.PlainTime.now
  let two (n : Int) : String := if n < 10 then s!"0{n}" else s!"{n}"
  return s!"{two now.hour.val}:{two now.minute.val}:{two now.second.val}"

end SceneTidy.Command

open SceneTidy.Command in
/-- Run the command. -/
def main (args : List String) : IO UInt32 := do
  match Settings.ofArguments args with
  | .error .helped => IO.println usage; return 0
  | .error .misused => IO.eprintln usage; return 2
  | .ok st =>
    let paths := st.input :: st.output.toList ++ st.logFile.toList.map Path.collapsed
    let files ← paths.foldlM look ⟨[], []⟩
    let (ending, console) := runWith st files (← clock)
    store files console.files
    IO.eprint console.said
    match ending with
    | .exited code => return code.toUInt32
    | .stopped _ => return 2
    | .broken _ => IO.eprintln "Error: the run broke off"; return 1
