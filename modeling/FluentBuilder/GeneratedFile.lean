import FluentBuilder.FileTree

/-!
# Generated files — writing only what changes

A generated file is written together with the directories it needs, and not at all where the
file tree has it already with the same content.
-/

namespace FluentBuilder

/-- A text and the path where it belongs. -/
structure GeneratedFile where
  path    : String
  content : String
  deriving DecidableEq, Repr, Inhabited

/-- What became of a file. -/
inductive WriteStatus where
  | written
  | unchanged
  deriving DecidableEq, Repr

/-- Why a file was not written. -/
inductive WriteError where
  | directory (path : String) (cause : FileError)
  | file (path : String) (cause : FileError)
  deriving DecidableEq, Repr

namespace WriteError

/-- What is reported. -/
def message : WriteError → String
  | .directory path _ => s!"failed to create directory '{path}'"
  | .file path _ => s!"failed to write '{path}'"

/-- What went wrong in the file tree. -/
def cause : WriteError → FileError
  | .directory _ cause => cause
  | .file _ cause => cause

/-- What is reported, with its cause on the same line. -/
def line (e : WriteError) : String := e.message ++ ": " ++ e.cause.message

end WriteError

namespace GeneratedFile

/-- The directory that has to exist for a file, if it is not the working directory. -/
def directory? (file : GeneratedFile) : Option String :=
  (Path.parent? file.path).filter (· != "")

/-- Make the directory of a file. -/
def prepare (file : GeneratedFile) (tree : FileTree) : Except WriteError Unit × FileTree :=
  match file.directory? with
  | none => (.ok (), tree)
  | some directory =>
    match tree.makeDirectories directory with
    | (.ok (), left) => (.ok (), left)
    | (.error e, left) => (.error (.directory directory e), left)

/-- Write a file over what is there, making its directory first. -/
def overwrite (file : GeneratedFile) (tree : FileTree) :
    Except WriteError WriteStatus × FileTree :=
  match file.prepare tree with
  | (.error e, left) => (.error e, left)
  | (.ok (), left) =>
    match left.writeBytes file.path file.content.toUTF8 with
    | .error e => (.error (.file file.path e), left)
    | .ok after => (.ok .written, after)

/-- Write a file unless the file tree has it with the same content. -/
def write (file : GeneratedFile) (tree : FileTree) :
    Except WriteError WriteStatus × FileTree :=
  match tree.readText file.path with
  | .ok existing =>
    if existing == file.content then (.ok .unchanged, tree) else file.overwrite tree
  | .error _ => file.overwrite tree

end GeneratedFile

end FluentBuilder
