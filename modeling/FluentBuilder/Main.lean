import FluentBuilder.CommandLine

/-!
# The program — the command line on the files of the computer

A command runs on a `FileTree`. The program fills one with what stands on the way to every path
of the command, and afterwards writes the files that the command changed.
-/

namespace FluentBuilder.Program

/-- What stands at a location on the disk. -/
def look (location : Location) : IO (Option Entry) := do
  match ← (IO.FS.realPath location.path).toBaseIO with
  | .error _ => return none
  | .ok found =>
    if ← found.isDir then return some .directory
    match ← (IO.FS.readBinFile found).toBaseIO with
    | .error _ => return none
    | .ok content => return some (.file content)

/-- A tree together with what stands at locations on the disk. -/
def load (tree : FileTree) : List Location → IO FileTree
  | [] => return tree
  | location :: rest => do
    match ← look location with
    | some entry => load (tree.insert location entry) rest
    | none => load tree rest

/-- Write files to the disk. -/
def save (files : List (Location × ByteArray)) : IO Unit :=
  files.forM fun (location, content) => do
    IO.FS.createDirAll (Location.path location.dropLast)
    IO.FS.writeBinFile (Location.path location) content

/-- The tree with the working directory and all that stands on the way to paths. -/
def loadPaths (workingDirectory : String) (paths : List String) : IO FileTree := do
  let above := (FileTree.mk [] []).waypoints workingDirectory
  let start : FileTree := ⟨above.getLast?.getD [], []⟩
  load start (above ++ paths.flatMap start.waypoints)

/-- Carry a command out on the disk. -/
def carryOut (command : Command) : IO Exit := do
  let before ← loadPaths (toString (← IO.currentDir)) command.paths
  let (result, after) := command.run before
  save (before.changedFiles after)
  return result

end FluentBuilder.Program

/-- Read the arguments, carry out their command and print what it reports. -/
def main (arguments : List String) : IO UInt32 := do
  let result ← match FluentBuilder.Command.parse arguments with
    | .error e => pure (FluentBuilder.Exit.ofUsageError e)
    | .ok command => FluentBuilder.Program.carryOut command
  IO.print result.output
  IO.eprint result.errors
  return UInt32.ofNat result.status
