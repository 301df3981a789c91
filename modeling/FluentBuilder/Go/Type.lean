/-!
# Go types — the type expressions that a struct body is made of

`TypeExpr` keeps what a signature needs: names, lengths as text, parameters without their names.
A struct body holds its fields, an interface only the number of its elements, and anything that
a field cannot be built from is kept as `other` with the name of its syntax node.
-/

namespace FluentBuilder.Go

/-- Which operations a channel type allows. -/
inductive Direction where
  | both
  | send
  | receive
  deriving DecidableEq, Repr, Inhabited

mutual

/-- A type expression; a slice is an array without a length. -/
inductive TypeExpr where
  | named (name : String)
  | qualified (package : TypeExpr) (name : String)
  | array (length : Option String) (elem : TypeExpr)
  | pointer (elem : TypeExpr)
  | map (key value : TypeExpr)
  | chan (direction : Direction) (value : TypeExpr)
  | generic (base : TypeExpr) (args : List TypeExpr)
  | paren (elem : TypeExpr)
  | func (params results : List Param)
  | struct (fields : Option (List Field))
  | interface (elements : Nat)
  | other (kind : String)

/-- A parameter or result; `func(a, b int)` has two of them. -/
structure Param where
  type     : TypeExpr
  variadic : Bool

/-- A field declaration; an embedded field has no names. -/
structure Field where
  names : List String
  type  : TypeExpr
  tag   : Option String

end

instance : Inhabited TypeExpr := ⟨.named ""⟩

/-- The body of a struct: its fields, or nothing where no list of fields was given. -/
abbrev StructBody := Option (List Field)

/-- What a type is called in messages. -/
def TypeExpr.describe : TypeExpr → String
  | .named _ => "identifier"
  | .qualified _ _ => "qualified type"
  | .array none _ => "slice type"
  | .array (some _) _ => "array type"
  | .pointer _ => "pointer type"
  | .map _ _ => "map type"
  | .chan _ _ => "channel type"
  | .generic _ _ => "generic type"
  | .paren _ => "parenthesized type"
  | .func _ _ => "function type"
  | .struct _ => "struct type"
  | .interface _ => "interface type"
  | .other kind => String.ofList (kind.toList.map fun c => if c == '_' then ' ' else c)

end FluentBuilder.Go
