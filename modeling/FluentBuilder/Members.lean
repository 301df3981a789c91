import FluentBuilder.Naming
import FluentBuilder.Options
import FluentBuilder.Signature

/-!
# Members of a builder — the fields of a struct that a builder can set

A builder has one member for each exported name of a struct, in the order of the declaration.
Embedded fields have no name and count as not exported; a field whose tag asks for it is left out.
-/

namespace FluentBuilder

/-- A name that a builder can set, with the type of its values as Go text. -/
structure Member where
  name      : String
  signature : String
  deriving DecidableEq, Repr, Inhabited

/-- Why a field has no member. -/
inductive FieldError where
  | invalidOption (field token : String)
  | unsupportedType (field kind : String)
  | malformedQualifier (field : String)
  deriving DecidableEq, Repr

namespace FieldError

/-- What a field without a member is reported as. -/
def message : FieldError → String
  | .invalidOption field token => s!"invalid field option '{token}' on field {field}"
  | .unsupportedType field kind =>
    s!"failed to determine type of field {field}: unsupported {kind}"
  | .malformedQualifier field =>
    s!"failed to determine type of field {field}: " ++
      "qualifier of a selector type must be a plain package name"

/-- The name of the kind of report. -/
def code : FieldError → String
  | .invalidOption _ _ => "gobble::invalid_option"
  | .unsupportedType _ _ => "gobble::unsupported_type"
  | .malformedQualifier _ => "gobble::malformed_qualified_type"

/-- What to do about it. -/
def help : FieldError → Option String
  | .invalidOption _ _ =>
    some "the only supported option is 'ignore', e.g. \x60builder:\"ignore\"\x60"
  | .unsupportedType _ _ =>
    some "declare a named type for it and use that name in the struct"
  | .malformedQualifier _ => none

end FieldError

/-- Report a type without a signature at a field. -/
def SignatureError.atField (field : String) : SignatureError → FieldError
  | .unsupported kind => .unsupportedType field kind
  | .malformedQualifier => .malformedQualifier field

/-- The exported names of a field. -/
def Go.Field.exportedNames (field : Go.Field) : List String := field.names.filter isExported

/-- The members for one field; what is wrong with it is reported at its first exported name. -/
def Go.Field.members (field : Go.Field) : Except FieldError (List Member) :=
  match field.exportedNames with
  | [] => .ok []
  | first :: others =>
    match FieldOptions.ofTag field.tag with
    | .error e => .error (.invalidOption first e.token)
    | .ok options =>
      if options.ignore then .ok []
      else match field.type.signature with
        | .error e => .error (e.atField first)
        | .ok signature => .ok ((first :: others).map fun name => ⟨name, signature⟩)

/-- The members for fields, the first error being reported. -/
def membersOf : List Go.Field → Except FieldError (List Member)
  | [] => .ok []
  | field :: rest => do
    let ms ← field.members
    let others ← membersOf rest
    return ms ++ others

/-- The members for the body of a struct; without a list of fields it has none. -/
def Go.StructBody.members (body : Go.StructBody) : Except FieldError (List Member) :=
  membersOf (body.getD [])

end FluentBuilder
