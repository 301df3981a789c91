import FluentBuilder.Go.Grammar.Expressions

/-!
# Rules for declarations and statements

Statements end at a line break or a semicolon, and a statement list may end with one as well. A
header of `if`, `for` or `switch` is read as a simple statement first; what follows and what was
read decide which part of the header it is.
-/

namespace FluentBuilder.Go.Grammar

variable (g : Grammar)

/-! ## Declarations of constants, variables and types -/

/-- The values of a declaration. -/
def initializer : Rule := .token "=" ++ (g.exprList (Place.statement.withSlot .plain)).as .value

/-- Constants and their values; without values they repeat those of the line before. The commas
between several names count as names too. -/
def constSpec : Rule :=
  let names : Rule :=
    (Rule.sepBy (.name .identifier []) (.onLine true ++ .token ",")).as .name
  .node .constSpec
    (names ++
      (.onLine true ++ ((g.type false).as .type ++ g.initializer <|> g.initializer) : Rule).opt)

/-- Variables with a type, values or both. -/
def varSpec : Rule :=
  let names : Rule := .sepBy ((Rule.name .identifier []).as .name) (.token ",")
  .node .varSpec
    (names ++
      ((g.type true).as .type ++ (.onLine true ++ g.initializer : Rule).opt <|> g.initializer))

/-- Specifications in round brackets, each ended by a line break or a semicolon. -/
def group (spec : Rule) : Rule := enclosed "(" ((spec ++ .terminator).many) ")"

/-- A declaration of constants. -/
def constDeclaration : Rule :=
  .node .constDeclaration (.keyword "const" ++ (group g.constSpec <|> g.constSpec))

/-- A declaration of variables. -/
def varDeclaration : Rule :=
  .node .varDeclaration
    (.keyword "var" ++ (.node .varSpecList (group g.varSpec) <|> g.varSpec))

mutual

/-- How much a reading has for it: a type that is a mere name counts against it, a generic type
for it. -/
def weight : Tree → Int
  | .leaf .typeIdentifier _ _ => -1
  | .node .qualifiedType _ => 0
  | .node .genericType (⟨_, .leaf _ _ _⟩ :: parts) => 1 + weights parts
  | .node .genericType parts => 1 + weights parts
  | .node .typeArguments parts => 2 + weights parts
  | .node .typeConversionExpression parts => weights parts - 1
  | .node .typeInstantiationExpression (⟨_, .leaf .identifier _ _⟩ :: parts) => weights parts - 1
  | .node _ parts => weights parts
  | _ => 0

/-- The weights of children together. -/
def weights : List Part → Int
  | [] => 0
  | ⟨_, t⟩ :: rest => weight t + weights rest

end

/-- The reading with the greater weight of two, the first one if they are equal. -/
def heavier (first second : Rule) : Rule :=
  ⟨fun s =>
    match first.read s, second.read s with
    | some a, some b => if weights a.1 < weights b.1 then some b else some a
    | some a, none => some a
    | none, other => other⟩

/-- The declaration of one type. Behind its name, `[N]T` is an array type and `[P C] T` a type
with a parameter; a text that is both, such as `[P *C] T`, is what weighs more. An arrow behind
the first word in the brackets belongs to a channel type. -/
def typeSpec : Rule :=
  let name : Rule := (Rule.name .typeIdentifier []).as .name
  let list := (g.typeParameters operandKeywords).as .typeParameters
  let type := (g.type true).as .type
  let arrow : Rule := .token "[" ++ .name .identifier operandKeywords ++ .token "<-"
  .node .typeAlias (name ++ .token "=" ++ type) <|>
  .node .typeSpec (name ++ heavier (list ++ type) (.notAhead arrow ++ type))

/-- A declaration of types. -/
def typeDeclaration : Rule :=
  .node .typeDeclaration (.keyword "type" ++ (group g.typeSpec <|> g.typeSpec))

/-- A declaration that may stand among statements. -/
def declaration : Rule := g.constDeclaration <|> g.varDeclaration <|> g.typeDeclaration

/-! ## Simple statements -/

/-- A statement without a block of its own, with the places of its first expression and of its
last ones. With `ranging`, the right side of an assignment may be a range, which makes it the
header of a loop. -/
def simpleStatement (place last : Place) (ranging : Bool) : Rule :=
  let line : Rule := .onLine place.ends
  let first := g.expr (place.withSlot .statement)
  let other : Rule := .token "," ++ g.expr (Place.inside.withSlot .target)
  let right := g.exprList (last.withSlot .plain)
  let range : Rule := .keyword "range" ++ g.expr (place.withSlot .plain)
  first.andThen fun one =>
    .node .sendStatement
      (.yield one ++ line ++ .token "<-" ++ g.expr (last.withSlot .plain)) <|>
    .node .incStatement (.yield one ++ line ++ .token "++") <|>
    .node .decStatement (.yield one ++ line ++ .token "--") <|>
    (line ++ .node .expressionList (.yield one ++ other.many) : Rule).andThen (fun left =>
      (if ranging then
        .node .rangeClause (.yield left ++ (.token ":=" <|> .token "=") ++ range)
      else .never) <|>
      .node .shortVarDeclaration (.yield left ++ .token ":=" ++ right) <|>
      .node .assignmentStatement
        (.yield left ++ .tokenOf assignMarks assignMarks ++ right)) <|>
    .node .expressionStatement (.yield one)

/-! ## Headers -/

/-- The expression that is all of a simple statement. -/
def soleExpression : List Part → Option (List Part)
  | [⟨_, .node .expressionStatement parts⟩] => some parts
  | _ => none

/-- Go on with a rule where a simple statement is an expression. -/
def ifExpression (statement : List Part) (next : List Part → Rule) : Rule :=
  match soleExpression statement with
  | some parts => next parts
  | none => .never

/-- Decide whether an expression is the guard `x.(type)` of a switch over types. -/
def isTypeGuard : Tree → Bool
  | .node .typeAssertionExpression parts =>
    match (Tree.node .typeAssertionExpression parts).child? .type with
    | some (.leaf .typeIdentifier _ text) => text == "type".toList
    | _ => false
  | _ => false

/-- Decide whether the value of a switch is a guard, perhaps with a name for its value. -/
def guards : List Part → Bool
  | [⟨_, .node .shortVarDeclaration [_, _, ⟨_, .node .expressionList [⟨_, t⟩]⟩]⟩] => isTypeGuard t
  | [⟨_, t⟩] => isTypeGuard t
  | _ => false

/-- A simple statement in a header that is followed by a block only if it is an expression. -/
def firstStatement (braces : Braces) (ranging : Bool) : Rule :=
  g.simpleStatement (.ofHeader braces) .inside ranging

/-- The simple statement at the end of a header. -/
def lastStatement (braces : Braces) : Rule :=
  g.simpleStatement (.ofHeader braces) (.ofHeader braces) false

/-- The expression at the end of a header. -/
def lastExpression (braces : Braces) : Rule := g.expr ((Place.ofHeader braces).withSlot .plain)

/-- A header with what it introduces. As many braces as possible belong to the header; where
nothing can follow it then, only those do behind which the line goes on. -/
def headed (header : Braces → Rule) (body : List Part → Rule) : Rule :=
  let reading (braces : Braces) := (header braces).andThen body
  let left (braces : Braces) (s : List Char) := ((header braces).read s).map (·.2.length)
  reading .goingOn <|>
  .ahead (fun s => left .goingOn s != left .goingOnLine s) ++ reading .goingOnLine

/-- The header of a conditional statement. -/
def condition (braces : Braces) : Rule :=
  (g.firstStatement braces false).andThen fun first =>
    .yield first ++ .token ";" ++ g.lastExpression braces <|> ifExpression first .yield

/-- A conditional statement. -/
def ifStatement : Rule :=
  let alternative : Rule :=
    .onLine true ++ .keyword "else" ++
      (g.block <|> .ahead (fun s => ((Rule.keyword "if").read s).isSome) ++ g.statement [])
  .node .ifStatement
    (.keyword "if" ++ headed g.condition fun parts => .yield parts ++ g.block ++ alternative.opt)

/-- The header of a loop. -/
def loopHeader (braces : Braces) : Rule :=
  let semicolon : Rule := .token ";"
  let rest : Rule :=
    semicolon ++ (g.expr .inside).opt ++ semicolon ++ (g.lastStatement braces).opt
  let range : Rule := .node .rangeClause (.keyword "range" ++ g.lastExpression braces)
  range <|>
  (.notAhead (.keyword "range") ++ g.firstStatement braces true : Rule).andThen (fun first =>
    match first with
    | [⟨_, .node .rangeClause _⟩] => .yield first
    | _ => .node .forClause (.yield first ++ rest) <|> ifExpression first .yield) <|>
  .node .forClause rest <|>
  .notAhead (.keyword "range")

/-- A loop. -/
def forStatement : Rule :=
  .node .forStatement
    (.keyword "for" ++ headed g.loopHeader fun parts => .yield parts ++ g.block)

/-! ## Cases -/

/-- The statements of a case, which end before the next one. -/
def caseKeywords : List String := ["case", "default"]

/-- Decide whether a statement list ends, given the keywords that begin what may follow it. -/
def endsList (keywords : List String) (s : List Char) : Bool :=
  match (takeGap s).2 with
  | [] => false
  | c :: rest =>
    c == '\x7d' ||
      match word (c :: rest) with
      | some (text, _) => (keywords.map String.toList).contains text
      | none => false

/-- Statements with line breaks or semicolons between them, perhaps a label alone at the end. The
first one begins with none of the given words, and the others with none that begins a case. -/
def statementList (keywords : List String) : Rule :=
  let label (excluded : List String) : Rule :=
    .node .labeledStatement
      (.name .labelName (operandKeywords ++ statementKeywords ++ excluded) ++ .onLine true ++
        .token ":" ++ .ahead (endsList keywords))
  .node .statementList
    (g.statement keywords ++ (.terminator ++ g.statement caseKeywords : Rule).many ++
        (.terminator ++ (label caseKeywords).opt : Rule).opt <|>
      label keywords)

/-- The colon of a case and its statements. -/
def caseBody : Rule := .token ":" ++ (g.statementList caseKeywords).opt

/-- The case for all other values. -/
def defaultCase : Rule := .node .defaultCase (.keyword "default" ++ g.caseBody)

/-- Cases in braces. -/
def cases (one : Rule) : Rule := enclosed "\x7b" (one <|> g.defaultCase).many "\x7d"

/-- A case of a switch over values. -/
def expressionCase : Rule :=
  .node .expressionCase (.keyword "case" ++ g.exprList .inside ++ g.caseBody)

/-- A case of a switch over types. -/
def typeCase : Rule :=
  .node .typeCase (.keyword "case" ++ (g.type false).sepBy (.token ",") ++ g.caseBody)

/-- The value or the guard of a switch. -/
def switchValue (braces : Braces) : Rule :=
  let other : Rule := .token "," ++ g.expr (Place.inside.withSlot .target)
  (g.expr ((Place.ofHeader braces).withSlot .target)).andThen fun one =>
    (Rule.node .shortVarDeclaration
      (.node .expressionList (.yield one ++ other.many) ++ .token ":=" ++
        g.exprList .inside)).satisfying guards <|>
    .yield one

/-- The header of a switch over values or types: perhaps a simple statement with a semicolon, and
perhaps a value or a guard. -/
def switchHeader (braces : Braces) : Rule :=
  (g.firstStatement braces false).andThen (fun first =>
    .yield first ++ .token ";" ++ (g.switchValue braces).opt <|>
    (if guards first then .yield first else ifExpression first .yield)) <|>
  .nothing

/-- A switch over values or types. -/
def switchStatement : Rule :=
  (Rule.keyword "switch").andThen fun start =>
    headed g.switchHeader fun parts =>
      if guards parts.getLast?.toList then
        .node .typeSwitchStatement (.yield (start ++ parts) ++ g.cases g.typeCase)
      else .node .expressionSwitchStatement (.yield (start ++ parts) ++ g.cases g.expressionCase)

/-- A case of a select statement: a send or a receive operation. -/
def communicationCase : Rule :=
  let place := Place.inside
  let send : Rule :=
    .node .sendStatement
      (g.expr (place.withSlot .channel) ++ .token "<-" ++ g.expr place)
  let receive : Rule :=
    .node .receiveStatement
      (g.exprList (place.withSlot .target) ++ (.token ":=" <|> .token "=") ++ g.expr place) <|>
    .node .receiveStatement (g.expr (place.withSlot .channel))
  .node .communicationCase (.keyword "case" ++ (send <|> receive) ++ g.caseBody)

/-- A select statement. -/
def selectStatement : Rule :=
  .node .selectStatement (.keyword "select" ++ g.cases g.communicationCase)

/-! ## Statements -/

/-- Statements in braces. -/
def blockRule : Rule := .node .block (enclosed "\x7b" (g.statementList []).opt "\x7d")

/-- A statement that begins with none of the given words. A word that begins a case is no value
or label behind `return`, `break` or `continue` and begins no labeled statement. -/
def statementRule (keywords : List String) : Rule :=
  let place := Place.statement.withSlot .plain
  let reserved := statementKeywords ++ keywords
  let jump (kind : Kind) (text : String) : Rule :=
    .node kind (.keyword text ++ (.onLine true ++ .name .labelName caseKeywords : Rule).opt)
  let values : Rule :=
    .onLine true ++ .notAhead (firstOf (caseKeywords.map .keyword)) ++ g.exprList place
  let colon : Rule := .onLine true ++ .token ":"
  g.declaration <|> g.block <|> g.ifStatement <|> g.forStatement <|> g.switchStatement <|>
  g.selectStatement <|>
  .node .returnStatement (.keyword "return" ++ values.opt) <|>
  .node .goStatement (.keyword "go" ++ g.expr place) <|>
  .node .deferStatement (.keyword "defer" ++ g.expr place) <|>
  .node .fallthroughStatement (.keyword "fallthrough") <|>
  jump .breakStatement "break" <|> jump .continueStatement "continue" <|>
  .node .gotoStatement (.keyword "goto" ++ .name .labelName []) <|>
  .node .emptyStatement (.token ";") <|>
  .node .labeledStatement
    (.name .labelName (operandKeywords ++ reserved) ++ colon ++ g.statement caseKeywords) <|>
  .notAhead (firstOf (reserved.map .keyword)) ++ g.simpleStatement .statement .statement false ++
    .notAhead colon

end FluentBuilder.Go.Grammar
