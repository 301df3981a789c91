import FluentBuilder.Go.Grammar.File
import FluentBuilder.Go.Tree.File

/-!
# Source texts — from text to file

`SourceFile.parse` accepts a text that follows the grammar and names a package. What is reported
of a text that does not follow the grammar ends with what a parser finds in it on its way past the
fault. The grammar does not tell that, so it is a parameter of the report: a `Recovery`, or nothing
where the report leaves it out.
-/

namespace FluentBuilder.Go

/-- What a parser finds first that keeps a text from being accepted: a part that no rule allows
there, or that a part of some kind is missing. -/
inductive Finding where
  | unexpected
  | missing (kind : String)
  deriving DecidableEq, Repr

/-- What is said of a finding. -/
def Finding.words : Finding → String
  | .unexpected => "unexpected syntax"
  | .missing kind => s!"expected '{kind}'"

/-- What a parser finds in the texts that the grammar does not accept. -/
abbrev Recovery := String → Finding

/-- Why a source text is no source file; `name` is what the text is called in reports. -/
inductive SyntaxError where
  | unexpected (name source : String)
  | noPackage (name source : String)
  deriving DecidableEq, Repr

namespace SyntaxError

/-- What a report says behind the name of the text. -/
def detail? (recovery : Option Recovery) : SyntaxError → Option String
  | .unexpected _ source => recovery.map fun find => (find source).words
  | .noPackage _ _ => some "expected 'package' clause"

/-- What the text is called. -/
def name : SyntaxError → String
  | .unexpected name _ | .noPackage name _ => name

/-- What is reported. -/
def message (e : SyntaxError) (recovery : Option Recovery := none) : String :=
  match e.detail? recovery with
  | none => s!"failed to parse file '{e.name}'"
  | some detail => s!"failed to parse file '{e.name}': {detail}"

/-- The name of the kind of report. -/
def code : SyntaxError → String := fun _ => "gobble::syntax_error"

end SyntaxError

/-- The source file that a text holds; `name` is what the text is called in reports. -/
def SourceFile.parse (name source : String) : Except SyntaxError SourceFile :=
  match readTree source with
  | none => .error (.unexpected name source)
  | some t =>
    match t.toFile? with
    | none => .error (.noPackage name source)
    | some file => .ok file

end FluentBuilder.Go
