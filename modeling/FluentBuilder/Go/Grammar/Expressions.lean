import FluentBuilder.Go.Grammar.Types

/-!
# Rules for expressions

An expression is an operand with selectors, calls and indices behind it, operators in front of it
and binary operators between. Two rules depend on the place: a mark that can also continue the
statement is read as long as possible, so `a <-b` sends in a statement and compares in an
argument; and in the header of a statement a brace behind a plain name opens the block, while one
behind a name with a dot or with types begins a literal if the text goes on behind it.
-/

namespace FluentBuilder.Go.Grammar

variable (g : Grammar)

/-! ## Operators -/

/-- The binary operators of a level from 1, which binds least, to 5. -/
def operators : Nat → List String
  | 1 => ["||"]
  | 2 => ["&&"]
  | 3 => ["==", "!=", "<", "<=", ">", ">="]
  | 4 => ["+", "-", "|", "^"]
  | 5 => ["*", "/", "%", "<<", ">>", "&", "&^"]
  | _ => []

/-- All binary operators. -/
def allOperators : List String := [1, 2, 3, 4, 5].flatMap operators

/-- The marks of assignments. -/
def assignMarks : List String :=
  ["=", "*=", "/=", "%=", "<<=", ">>=", "&=", "&^=", "+=", "-=", "|=", "^="]

/-- The marks that may stand behind an expression. -/
def marksBehind : Slot → List String
  | .plain => []
  | .statement => ["<-", "++", "--", ":="] ++ assignMarks
  | .target => ":=" :: assignMarks
  | .channel => ["<-"]

/-- Try rules one after the other. -/
def firstOf : List Rule → Rule
  | [] => .never
  | rule :: others => rule <|> firstOf others

/-- A binary operator of a level together with its right operand. -/
def operation (place : Place) (level : Nat) : Rule :=
  .tokenOf (allOperators ++ marksBehind place.slot) (operators level) ++ g.binary place (level + 1)

/-- An expression whose binary operators bind at least as much as a level. -/
def binaryRule (place : Place) (least : Nat) : Rule :=
  (g.unary place).extend fun left =>
    .onLine place.ends ++
      .node .binaryExpression
        (.yield left ++
          firstOf (([5, 4, 3, 2, 1].filter (least ≤ ·)).map (g.operation place)))

/-! ## Operands -/

/-- A number. -/
def number : Rule :=
  let scans := (imaginaryLiteral.longer floatLiteral).longer intLiteral
  let whole (scan : Scan) : Scan := fun s =>
    match scan s, scans s with
    | some found, some best => if found.1.length == best.1.length then some found else none
    | _, _ => none
  .scanLeaf .imaginaryLiteral (whole imaginaryLiteral) <|>
  .scanLeaf .floatLiteral (whole floatLiteral) <|>
  .scanLeaf .intLiteral (whole intLiteral)

/-- A value that is written out. -/
def basicLiteral : Rule :=
  number <|> string <|> .scanLeaf .runeLiteral runeLiteral <|>
  .keywordLeaf .nilLiteral "nil" <|> .keywordLeaf .trueLiteral "true" <|>
  .keywordLeaf .falseLiteral "false" <|> .keywordLeaf .iota "iota"

/-- A key or a value between braces. -/
def literalElement : Rule := .node .literalElement (g.expr .inside <|> g.literal)

/-- Elements between braces, each perhaps with a key. -/
def literalRule : Rule :=
  let element := g.literalElement.andThen fun first =>
    .node .keyedElement
      (.yield (first.map fun part => ⟨some .key, part.tree⟩) ++ .token ":" ++
        g.literalElement.as .value) <|>
    .yield first
  .node .literalValue
    (enclosed "\x7b" ((element.sepBy (.token ",")).opt ++ (Rule.token ",").opt) "\x7d")

/-- Decide whether a text goes on as an expression with a block behind it does, on this line or,
with `lines`, on any line. -/
def goesOn (lines : Bool) (s : List Char) : Bool :=
  match (if lines then takeGap s else takeLineGap s).2 with
  | [] => false
  | c :: rest =>
    !(['\n', '\x00', '\x7d'].contains c) && (lines || c != ';') && (word (c :: rest)).isNone

/-- What has to follow a literal where a block may follow the type instead. -/
def behindBraces (place : Place) : Rule :=
  match place.braces with
  | .anyName => .nothing
  | .goingOn => .ahead (goesOn true)
  | .goingOnLine => .ahead (goesOn false)

/-- A literal of a named type. The braces may stand on the line behind a name with a dot or with
types, but not on the line behind a plain name. -/
def namedLiteral (place : Place) : Rule :=
  let qualified := qualifiedType operandKeywords place.ends
  let generic := g.applied qualified false <|> g.genericType operandKeywords place.ends
  let plain : Rule :=
    if place.braces == .anyName then
      .name .typeIdentifier operandKeywords ++ .onLine place.ends
    else .never
  .node .compositeLiteral
    ((generic <|> qualified <|> plain).as .type ++ g.literal.as .body ++ behindBraces place)

/-- A literal of an array that counts its elements itself. -/
def countedLiteral : Rule :=
  let type : Rule :=
    .node .implicitLengthArrayType
      (.token "[" ++ .token "..." ++ .token "]" ++ (g.type false).as .element)
  .node .compositeLiteral (type.as .type ++ g.literal.as .body)

/-- Decide whether a type that is written out can have braces behind it. -/
def takesBraces (type : List Part) : Bool :=
  type.any fun part =>
    match part.tree with
    | .node kind _ => [Kind.mapType, .sliceType, .arrayType, .structType].contains kind
    | _ => false

/-- Decide whether types in square brackets are single ones, none of them a choice. -/
def areSingle (arguments : Tree) : Bool :=
  arguments.parts.all fun part => part.tree.parts.length ≤ 1

/-- A type that is no plain name, with what makes a value of it: braces, a value in round brackets
or types in square ones. The latter may end the type itself. -/
def typeOperand (place : Place) : Rule :=
  (.notAhead (.name .identifier typeKeywords) ++ g.type false : Rule).andThen fun type =>
    let operand : Rule := (Rule.yield type).as .type
    let shorter := splitLastArguments type
    (if takesBraces type then
      .node .compositeLiteral
        (operand ++ g.literal.as .body ++
          (if shorter.isSome then behindBraces place else .nothing))
      else .never) <|>
    .node .typeConversionExpression
      (operand ++ enclosed "(" (g.expr .inside ++ (Rule.token ",").opt) ")") <|>
    .node .typeInstantiationExpression
      (operand ++ enclosed "[" ((g.type false).sepBy (.token ",") ++ (Rule.token ",").opt) "]") <|>
    match shorter with
    | some (base, arguments) =>
      if areSingle arguments.tree then
        .node .typeInstantiationExpression
          ((Rule.yield base).as .type ++ .yield arguments.tree.parts)
      else .never
    | none => .never

/-- A function with its body. -/
def funcLiteral : Rule :=
  .node .funcLiteral (.keyword "func" ++ g.signature false ++ g.block.as .body)

/-- A call of `new` or `make`, which take a type first, or one of these names alone. -/
def allocation (place : Place) : Rule :=
  let name : Rule := .keywordLeaf .identifier "new" <|> .keywordLeaf .identifier "make"
  let arguments : Rule :=
    .node .argumentList
      (enclosed "("
        (g.type false ++ (.token "," ++ g.expr .inside : Rule).many ++ (Rule.token ",").opt) ")")
  let call : Rule := .onLine place.ends ++ .token "("
  .node .callExpression (name ++ .onLine place.ends ++ arguments) <|> name ++ .notAhead call

/-- What an expression begins with. -/
def operand (place : Place) : Rule :=
  basicLiteral <|> g.allocation place <|> g.namedLiteral place <|>
  .name .identifier operandKeywords <|> g.countedLiteral <|> g.funcLiteral <|>
  .node .parenthesizedExpression (enclosed "(" (g.expr .inside) ")") <|>
  g.typeOperand place

/-! ## Selectors, calls and indices -/

mutual

/-- Decide whether an expression can be read as a type as well. -/
def readsAsType : Tree → Bool
  | .leaf .identifier _ _ => true
  | .node .selectorExpression (⟨_, .leaf .identifier _ _⟩ :: _) => true
  | .node .typeInstantiationExpression (⟨_, t⟩ :: _) => isName t
  | .node .indexExpression [⟨_, t⟩, _, ⟨_, index⟩, _] => isName t && readsAsType index
  | .node .parenthesizedExpression [_, ⟨_, t⟩, _] => readsAsType t
  | .node .unaryExpression [⟨_, .token _ ['*']⟩, ⟨_, t⟩] => readsAsType t
  | _ => false

/-- Decide whether an expression is a name, perhaps one with a dot. -/
def isName : Tree → Bool
  | .leaf .identifier _ _ => true
  | .node .selectorExpression (⟨_, .leaf .identifier _ _⟩ :: _) => true
  | _ => false

end

/-- Arguments in round brackets. -/
def arguments : Rule :=
  let argument := (g.expr .inside).andThen fun value =>
    .node .variadicArgument (.yield value ++ .token "...") <|> .yield value
  .node .argumentList
    (enclosed "(" ((argument.sepBy (.token ",") ++ (Rule.token ",").opt : Rule).opt) ")")

/-- What stands between square brackets behind an expression: an index or the bounds of a slice. -/
def subscript (left : List Part) : Rule :=
  let colon : Rule := .token ":"
  let bound : Rule := g.expr .inside
  (Rule.token "[" ++ bound.opt).andThen fun start =>
    (if start.length == 2 then
      .node .indexExpression (.yield left ++ .yield start ++ .token "]")
    else .never) <|>
    .node .sliceExpression
      (.yield left ++ .yield start ++ colon ++
        (bound ++ colon ++ bound <|> bound.opt) ++ .token "]")

/-- An expression with one more selector, call or index behind it. The arguments of a call with
types may stand on the line behind these. -/
def suffix (place : Place) (left : List Part) : Rule :=
  .onLine place.ends ++
    (.node .selectorExpression (.yield left ++ .token "." ++ .name .fieldIdentifier []) <|>
      .node .typeAssertionExpression
        (.yield left ++ .token "." ++ enclosed "(" ((g.type false).as .type) ")") <|>
      .node .callExpression (.yield left ++ g.arguments) <|>
      .node .callExpression (.yield left ++ g.typeArguments ++ g.arguments) <|>
      g.subscript left <|>
      (if left.all fun part => readsAsType part.tree then
        .node .typeInstantiationExpression
          (.yield left ++
            enclosed "[" ((g.type false).sepBy (.token ",") ++ (Rule.token ",").opt) "]")
      else .never))

/-- An operand with everything behind it. -/
def primary (place : Place) : Rule := (g.operand place).extend (g.suffix place)

/-- An expression with operators in front. -/
def unaryRule (place : Place) : Rule :=
  .node .unaryExpression
    (firstOf (["<-", "+", "-", "!", "^", "*", "&"].map .token) ++ g.unary place) <|>
  g.primary place

end FluentBuilder.Go.Grammar
