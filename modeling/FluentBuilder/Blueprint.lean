import FluentBuilder.Go.Walk
import FluentBuilder.Members

/-!
# Blueprints — everything that the text of a builder depends on

A blueprint names the package and the struct and lists the members of the builder. It is made
from a source file by finding the struct: the first declaration with the name and a struct type,
at any depth of the file.
-/

namespace FluentBuilder

/-- What a builder is generated from. -/
structure Blueprint where
  package : String
  target  : String
  members : List Member
  deriving DecidableEq, Repr, Inhabited

/-- Why there is no blueprint for a struct. -/
inductive BlueprintError where
  | notFound (target : String)
  | fields (target : String) (cause : FieldError)
  deriving DecidableEq, Repr

namespace BlueprintError

/-- What is reported. -/
def message : BlueprintError → String
  | .notFound target => s!"could not find definition of struct {target}"
  | .fields target _ => s!"failed to extract fields of struct {target}"

/-- What is reported, followed by its causes. -/
def chain : BlueprintError → List String
  | .notFound target => [message (.notFound target)]
  | .fields target cause => [message (.fields target cause), cause.message]

/-- The name of the kind of report. -/
def code : BlueprintError → String
  | .notFound _ => "gobble::not_found"
  | .fields _ _ => "gobble::extract"

/-- What to do about it. -/
def help : BlueprintError → Option String
  | .notFound target =>
    some (s!"'{target}' must be declared as a struct type (\x60type {target} struct " ++
      "\x7b ... \x7d\x60) in this file")
  | .fields _ _ => none

end BlueprintError

/-- A visitor that stops at the first struct type declared under a name. -/
def structVisitor (target : String) (node : Go.Node) (found : Option Go.StructBody) :
    Go.Flow (Option Go.StructBody) :=
  match node with
  | .typeSpec spec =>
    if spec.name == target then
      match spec.type with
      | .struct fields => .stop (some fields)
      | _ => .next found
    else .next found
  | _ => .next found

/-- The body of the first struct declared under a name, anywhere in a file. -/
def Go.SourceFile.findStruct (file : Go.SourceFile) (target : String) :
    Except BlueprintError Go.StructBody :=
  match (Go.walk (structVisitor target) (.file file) none).state with
  | some body => .ok body
  | none => .error (.notFound target)

/-- The blueprint for a struct of a file. -/
def Go.SourceFile.blueprint (file : Go.SourceFile) (target : String) :
    Except BlueprintError Blueprint :=
  match file.findStruct target with
  | .error e => .error e
  | .ok body =>
    match Go.StructBody.members body with
    | .error e => .error (.fields target e)
    | .ok members => .ok ⟨file.package, target, members⟩

end FluentBuilder
