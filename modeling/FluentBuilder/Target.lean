import FluentBuilder.Path
import FluentBuilder.SnakeCase

/-!
# Targets — which struct of which file a builder is generated for

A target is written `FILE:STRUCT` and cut at its first colon. Its output stands beside the file
and is named after the struct.
-/

namespace FluentBuilder

/-- A struct and the path of the file that declares it. -/
structure Target where
  path : String
  name : String
  deriving DecidableEq, Repr, Inhabited

/-- A text that names no target. -/
structure TargetError where
  input : String
  deriving DecidableEq, Repr

namespace TargetError

/-- What is reported. -/
def message (e : TargetError) : String := s!"'{e.input}' is not in the format FILE:TARGET_STRUCT"

/-- The name of the kind of report. -/
def code : String := "gobble::invalid_spec"

/-- What to do about it. -/
def help : String :=
  "pass the Go source file and the struct name separated by a colon, e.g. 'user.go:User'"

end TargetError

namespace Target

/-- Read a target; both of its parts have to be there. -/
def parse (input : String) : Except TargetError Target :=
  let cs := input.toList
  let path := cs.takeWhile (· != ':')
  match cs.dropWhile (· != ':') with
  | _ :: c :: rest =>
    if path == [] then .error ⟨input⟩ else .ok ⟨String.ofList path, String.ofList (c :: rest)⟩
  | _ => .error ⟨input⟩

/-- A target as it is written. -/
def display (target : Target) : String := target.path ++ ":" ++ target.name

/-- The end of the name of an output. -/
def outputSuffix : String := "_builder.go"

/-- The path of the output, in the directory of the file. -/
def outputPath (target : Target) : String :=
  Path.join ((Path.parent? target.path).getD "") (snakeCase target.name ++ outputSuffix)

end Target

end FluentBuilder
