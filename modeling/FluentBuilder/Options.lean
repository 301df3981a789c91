import FluentBuilder.Go.Tag
import FluentBuilder.Text.Blank

/-!
# Field options — what the `builder` key of a struct tag asks for

The value of the key is a list of options separated by commas, with white space around each.
Blank entries count for nothing and `ignore` leaves the field out; any other entry is an error,
the first one being reported.
-/

namespace FluentBuilder

/-- What is asked for a field. -/
structure FieldOptions where
  ignore : Bool := false
  deriving DecidableEq, Repr, Inhabited

/-- An entry that is no option. -/
structure OptionError where
  token : String
  deriving DecidableEq, Repr

/-- What an unknown option is reported as. -/
def OptionError.message (e : OptionError) : String := s!"invalid field option '{e.token}'"

namespace FieldOptions

/-- Cut a text at every comma. -/
def entries : List Char → List (List Char)
  | [] => [[]]
  | c :: rest =>
    if c == ',' then [] :: entries rest
    else match entries rest with
      | [] => [[c]]
      | e :: es => (c :: e) :: es

/-- Add an entry, without white space around it, to the options. -/
def add (options : FieldOptions) (entry : List Char) : Except OptionError FieldOptions :=
  if entry.isEmpty then .ok options
  else if entry == ['i', 'g', 'n', 'o', 'r', 'e'] then .ok { options with ignore := true }
  else .error ⟨String.ofList entry⟩

/-- Read a list of options. -/
def parse (value : String) : Except OptionError FieldOptions :=
  (entries value.toList).foldlM (fun options entry => options.add (Text.trimBlank entry)) {}

/-- The key of a struct tag that holds options. -/
def tagKey : String := "builder"

/-- Read the options of a field from its tag. -/
def ofTag (tag : Option String) : Except OptionError FieldOptions :=
  match tag.bind (Go.Tag.lookup · tagKey) with
  | none => .ok {}
  | some value => parse value

end FieldOptions

end FluentBuilder
