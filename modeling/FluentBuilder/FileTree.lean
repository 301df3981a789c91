import FluentBuilder.Path

/-!
# File trees — files and directories with the operations on them

A `FileTree` maps locations, the names on the way from the root, to files and directories. A path
is followed name by name, as an operating system does it: every name before the last one has to
be a directory that exists, and `..` leads to the directory above. There are no links, and every
operation gives back the tree that it leaves.
-/

namespace FluentBuilder

/-- The names on the way from the root of a file tree. -/
abbrev Location := List (List Char)

namespace Location

/-- The location that a segment of a path leads to. -/
def step (location : Location) (segment : List Char) : Location :=
  if segment == [] || segment == ['.'] then location
  else if segment == ['.', '.'] then location.dropLast
  else location ++ [segment]

/-- The locations on the way along segments. -/
def waypoints (location : Location) : List (List Char) → List Location
  | [] => [location]
  | segment :: rest => location :: waypoints (location.step segment) rest

/-- The path of a location from the root. -/
def path (location : Location) : String :=
  "/" ++ "/".intercalate (location.map String.ofList)

end Location

/-- What stands at a location. -/
inductive Entry where
  | file (content : ByteArray)
  | directory

/-- Files and directories, and the directory where paths without a root begin. -/
structure FileTree where
  workingDirectory : Location
  entries          : List (Location × Entry)

/-- Why an operation on a file tree fails. -/
inductive FileError where
  | notFound
  | alreadyExists
  | notDirectory
  | isDirectory
  | notText
  deriving DecidableEq, Repr

/-- What a failed operation is reported as. -/
def FileError.message : FileError → String
  | .notFound => "No such file or directory (os error 2)"
  | .alreadyExists => "File exists (os error 17)"
  | .notDirectory => "Not a directory (os error 20)"
  | .isDirectory => "Is a directory (os error 21)"
  | .notText => "stream did not contain valid UTF-8"

namespace FileTree

/-- What stands at a location; the root is a directory. -/
def at? (tree : FileTree) (location : Location) : Option Entry :=
  if location == [] then some .directory else tree.entries.lookup location

/-- Decide whether a location is a directory. -/
def isDirectory (tree : FileTree) (location : Location) : Bool :=
  match tree.at? location with
  | some .directory => true
  | _ => false

/-- Put an entry at a location. -/
def insert (tree : FileTree) (location : Location) (entry : Entry) : FileTree :=
  { tree with
    entries := tree.entries.filter (fun known => known.1 != location) ++ [(location, entry)] }

/-- Remove a location and everything below it. -/
def erase (tree : FileTree) (location : Location) : FileTree :=
  { tree with entries := tree.entries.filter fun known => !(location.isPrefixOf known.1) }

/-- Follow segments from a location. The location that they lead to need not exist. -/
def follow (tree : FileTree) (location : Location) :
    List (List Char) → Except FileError Location
  | [] => .ok location
  | segment :: rest =>
    match tree.at? location with
    | none => .error .notFound
    | some (.file _) => .error .notDirectory
    | some .directory => follow tree (location.step segment) rest

/-- Where a path begins, and the segments to follow from there. -/
def beginning (tree : FileTree) (path : String) : Location × List (List Char) :=
  match path.toList with
  | '/' :: rest => ([], Path.segments rest)
  | cs => (tree.workingDirectory, Path.segments cs)

/-- The location that a path leads to. -/
def resolve (tree : FileTree) (path : String) : Except FileError Location :=
  if path == "" then .error .notFound
  else
    let (start, segments) := tree.beginning path
    tree.follow start segments

/-- The locations on the way that a path leads. -/
def waypoints (tree : FileTree) (path : String) : List Location :=
  let (start, segments) := tree.beginning path
  start.waypoints segments

/-- The content of the file that a path names. -/
def readBytes (tree : FileTree) (path : String) : Except FileError ByteArray :=
  match tree.resolve path with
  | .error e => .error e
  | .ok location =>
    match tree.at? location with
    | none => .error .notFound
    | some .directory => .error .isDirectory
    | some (.file content) => .ok content

/-- The text in the file that a path names. -/
def readText (tree : FileTree) (path : String) : Except FileError String :=
  match tree.readBytes path with
  | .error e => .error e
  | .ok content =>
    match String.fromUTF8? content with
    | some text => .ok text
    | none => .error .notText

/-- Write a file at a path, over the one that is there. -/
def writeBytes (tree : FileTree) (path : String) (content : ByteArray) :
    Except FileError FileTree :=
  match tree.resolve path with
  | .error e => .error e
  | .ok location =>
    match tree.at? location with
    | some .directory => .error .isDirectory
    | _ => .ok (tree.insert location (.file content))

/-- The files of a tree that are new or have another content than before. -/
def changedFiles (before after : FileTree) : List (Location × ByteArray) :=
  after.entries.filterMap fun (location, entry) =>
    match entry, before.at? location with
    | .directory, _ => none
    | .file content, some (.file old) =>
      if old == content then none else some (location, content)
    | .file content, _ => some (location, content)

/-- Decide whether a path names a directory. -/
def namesDirectory (tree : FileTree) (path : String) : Bool :=
  match tree.resolve path with
  | .error _ => false
  | .ok location => tree.isDirectory location

/-- A path without the slashes at its end; of a path of slashes alone, all of it. -/
def bareName (path : String) : String :=
  match path.toList.reverse.dropWhile (· == '/') with
  | [] => path
  | backwards => String.ofList backwards.reverse

/-- Make a directory in one that exists. -/
def makeDirectory (tree : FileTree) (path : String) : Except FileError FileTree :=
  match tree.resolve (bareName path) with
  | .error e => .error e
  | .ok location =>
    match tree.at? location with
    | some _ => .error .alreadyExists
    | none => .ok (tree.insert location .directory)

/-- Make a directory and those above it, at most `limit` of them. -/
def makeDirectoriesFrom (tree : FileTree) (path : String) :
    Nat → Except FileError Unit × FileTree
  | 0 => (.error .notFound, tree)
  | limit + 1 =>
    if path == "" then (.ok (), tree)
    else match tree.makeDirectory path with
      | .ok made => (.ok (), made)
      | .error .notFound =>
        match Path.parent? path with
        | none => (.error .notFound, tree)
        | some parent =>
          match tree.makeDirectoriesFrom parent limit with
          | (.error e, left) => (.error e, left)
          | (.ok (), left) =>
            match left.makeDirectory path with
            | .ok made => (.ok (), made)
            | .error e => (if left.namesDirectory path then .ok () else .error e, left)
      | .error e => (if tree.namesDirectory path then .ok () else .error e, tree)

/-- Make a directory and all directories above it; one that exists is left alone. Those that were
made stay when one further down cannot be made. -/
def makeDirectories (tree : FileTree) (path : String) : Except FileError Unit × FileTree :=
  tree.makeDirectoriesFrom path (path.toList.length + 1)

end FileTree

end FluentBuilder
