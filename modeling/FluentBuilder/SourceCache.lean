import FluentBuilder.FileTree
import FluentBuilder.Go.Source

/-!
# Source caches — every source file is read once

A cache remembers for each path, by its components, the source file that was read at its first
use, or that reading it failed. What the file tree holds later does not matter any more.
-/

namespace FluentBuilder

/-- Why there is no source file at a path. -/
inductive SourceError where
  | unreadable (path : String) (cause : FileError)
  | malformed (cause : Go.SyntaxError)
  | skipped (path : String)
  deriving DecidableEq, Repr

/-- What is reported, followed by its causes. -/
def SourceError.chain (e : SourceError) (recovery : Option Go.Recovery := none) : List String :=
  match e with
  | .unreadable path cause => [s!"failed to read '{path}'", cause.message]
  | .malformed cause => [cause.message recovery]
  | .skipped path => [s!"skipped because '{path}' failed to parse"]

/-- Read the source file at a path. -/
def readSource (tree : FileTree) (path : String) : Except SourceError Go.SourceFile :=
  match tree.readText path with
  | .error e => .error (.unreadable path e)
  | .ok source =>
    match Go.SourceFile.parse path source with
    | .error e => .error (.malformed e)
    | .ok file => .ok file

/-- The paths used so far, in the order and spelling of their first use, with what was read. -/
structure SourceCache where
  known : List (String × Option Go.SourceFile) := []

namespace SourceCache

/-- The paths used so far. -/
def paths (cache : SourceCache) : List String := cache.known.map (·.1)

/-- What is known about a path. -/
def find? (cache : SourceCache) (path : String) : Option (Option Go.SourceFile) :=
  (cache.known.find? fun known => Path.same known.1 path).map (·.2)

/-- The source file at a path, and the cache behind it. -/
def get (cache : SourceCache) (tree : FileTree) (path : String) :
    Except SourceError Go.SourceFile × SourceCache :=
  match cache.find? path with
  | some (some file) => (.ok file, cache)
  | some none => (.error (.skipped path), cache)
  | none =>
    match readSource tree path with
    | .ok file => (.ok file, ⟨cache.known ++ [(path, some file)]⟩)
    | .error e => (.error e, ⟨cache.known ++ [(path, none)]⟩)

end SourceCache

end FluentBuilder
