import FluentBuilder.Go.Rule

/-!
# The grammar — what its rules share

A `Grammar` holds the rules that other rules refer to, so that each family of rules is written
in a file of its own; the last file ties them together. A rule for types or expressions is told
its `Place`: whether a line break may end the construct, whether a block may follow, and what may
stand behind an expression.

A word is a keyword only where the grammar can take that keyword, so every rule for a name lists
the keywords of its place.
-/

namespace FluentBuilder.Go

/-- What may stand behind an expression, apart from the operators of expressions. -/
inductive Slot where
  | plain
  | statement
  | target
  | channel
  deriving DecidableEq, Repr

/-- Which names can have braces behind them. Where a block may follow, a plain name cannot, and a
name with a dot or with types behind it can if the text goes on behind the braces. -/
inductive Braces where
  | anyName
  | goingOn
  | goingOnLine
  deriving DecidableEq, Repr

/-- Where an expression stands. -/
structure Place where
  ends   : Bool
  braces : Braces
  slot   : Slot
  deriving DecidableEq, Repr

/-- Between brackets: no line break ends an expression and no block follows it. -/
def Place.inside : Place := ⟨false, .anyName, .plain⟩

/-- In a statement. -/
def Place.statement : Place := ⟨true, .anyName, .statement⟩

/-- In the header of a statement, in front of its block. -/
def Place.ofHeader (braces : Braces) : Place := ⟨false, braces, .statement⟩

/-- The same place with something else behind the expression. -/
def Place.withSlot (place : Place) (slot : Slot) : Place := ⟨place.ends, place.braces, slot⟩

/-- The rules that other rules refer to. -/
structure Grammar where
  type      : Bool → Rule
  binary    : Place → Nat → Rule
  unary     : Place → Rule
  literal   : Rule
  block     : Rule
  statement : List String → Rule

namespace Grammar

/-- The words that begin a type. -/
def typeKeywords : List String := ["struct", "map", "chan", "interface", "func"]

/-- The words that begin a value. -/
def valueKeywords : List String := ["nil", "true", "false", "iota", "new", "make"]

/-- The words that begin an operand and are no identifiers there. -/
def operandKeywords : List String := typeKeywords ++ valueKeywords

/-- The words that begin a statement other than an expression. -/
def statementKeywords : List String :=
  ["const", "type", "var", "return", "go", "defer", "if", "for", "switch", "select",
    "fallthrough", "break", "continue", "goto"]

/-- An expression. -/
def expr (g : Grammar) (place : Place) : Rule := g.binary place 1

/-- Expressions with commas between them. -/
def exprList (g : Grammar) (place : Place) : Rule :=
  .node .expressionList
    (.sepBy (g.expr place) (.onLine place.ends ++ .token ","))

/-- A string of either form. -/
def string : Rule :=
  .scanLeaf .rawStringLiteral rawString <|>
  .scanLeaf .interpretedStringLiteral interpretedString

/-- Rules between two marks. -/
def enclosed (opening : String) (rule : Rule) (closing : String) : Rule :=
  .token opening ++ rule ++ .token closing

end Grammar

end FluentBuilder.Go
