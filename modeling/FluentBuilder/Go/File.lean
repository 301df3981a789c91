import FluentBuilder.Go.Type

/-!
# Go source files — declarations and the statements that can hold declarations

A `SourceFile` is the part of a file that matters for finding a struct: every declaration at any
depth, the blocks around them, and for the rest only the name of its syntax node.
-/

namespace FluentBuilder.Go

/-- One imported package, with the name it is imported under. -/
structure ImportSpec where
  name : Option String
  path : String

/-- One declared type; an alias is `type A = B`. -/
structure TypeSpec where
  name       : String
  typeParams : List String
  isAlias    : Bool
  type       : TypeExpr

mutual

/-- A declaration; a statement that stands among the declarations of a file is `bad`. -/
inductive Decl where
  | imports (specs : List ImportSpec)
  | types (specs : List TypeSpec)
  | values (specs : List ValueSpec)
  | func (decl : FuncDecl)
  | bad

/-- One line of a `var` or `const` declaration; `values` holds what its initializer nests. -/
structure ValueSpec where
  names  : List String
  type   : Option TypeExpr
  values : List Stmt

/-- A function or method; a method has the type of its receiver. -/
structure FuncDecl where
  name     : String
  receiver : Option TypeExpr
  body     : Option Block

/-- Statements between braces. -/
structure Block where
  stmts : List Stmt

/-- A statement. A compound one nests blocks and declarations, at any depth, as `children`. -/
inductive Stmt where
  | decl (decl : Decl)
  | block (block : Block)
  | compound (kind : String) (children : List Stmt)
  | other (kind : String)

end

/-- A whole source file. -/
structure SourceFile where
  package : String
  decls   : List Decl

end FluentBuilder.Go
