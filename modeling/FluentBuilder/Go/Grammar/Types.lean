import FluentBuilder.Go.Grammar.Basic

/-!
# Rules for types

Every rule is told by `ends` whether a line break behind the type ends the construct that it
belongs to. Where a text can be read in two ways, the rules settle it:

* `chan<- chan T` is a channel of `<-chan T`;
* `func(a, b)` has two types and `func(a, b int)` two names: a run of words with a type behind
  the last one is a run of names;
* what begins like a type behind the parameters of a function is its result;
* in a struct, `G[N]int` is a field `G` of an array type, and `G[N]` an embedded generic type
  where a string, the end of the struct or the next field on a new line follows.
-/

namespace FluentBuilder.Go.Grammar

variable (g : Grammar)

/-- A type or several types of which one may be chosen. -/
def typeElem (kind : Kind) (ends : Bool) : Rule :=
  .node kind (g.type ends ++ (.onLine ends ++ .token "|" ++ g.type ends : Rule).many)

/-- The types that a generic type is applied to. -/
def typeArguments : Rule :=
  .node .typeArguments
    (enclosed "[" (.sepBy (typeElem g .typeElem false) (.token ",") ++ (Rule.token ",").opt) "]")

/-- A name of another package. -/
def qualifiedType (keywords : List String) (ends : Bool) : Rule :=
  .node .qualifiedType
    ((Rule.name .packageIdentifier keywords).as .package ++ .onLine ends ++ .token "." ++
      (Rule.name .typeIdentifier []).as .name)

/-- A type that is a name. -/
def namedType (keywords : List String) (ends : Bool) : Rule :=
  qualifiedType keywords ends <|> .name .typeIdentifier keywords

/-- A type applied to types. -/
def applied (type : Rule) (ends : Bool) : Rule :=
  .node .genericType (type.as .type ++ .onLine ends ++ g.typeArguments.as .typeArguments)

/-- A type, perhaps applied to types. -/
def perhapsApplied (type : Rule) (ends : Bool) : Rule :=
  type.andThen fun parts => g.applied (.yield parts) ends <|> .yield parts

mutual

/-- Take the types in square brackets off the end of a type. -/
def splitArguments : Tree → Option (Tree × Part)
  | .node .genericType [type, arguments] => some (type.tree, arguments)
  | .node kind parts =>
    (splitLastArguments parts).map fun (shorter, arguments) => (.node kind shorter, arguments)
  | _ => none

/-- Take the types in square brackets off the end of the last child. -/
def splitLastArguments : List Part → Option (List Part × Part)
  | [] => none
  | [⟨role, t⟩] =>
    (splitArguments t).map fun (shorter, arguments) => ([⟨role, shorter⟩], arguments)
  | part :: next :: rest =>
    (splitLastArguments (next :: rest)).map fun (shorter, arguments) =>
      (part :: shorter, arguments)

end

/-- All types with the underlying type given. -/
def negatedType (ends : Bool) : Rule := .node .negatedType (.token "~" ++ g.type ends)

/-- All types with the underlying type given, applied to types. These types may also end the
underlying type, from which they are taken. -/
def genericNegation : Rule :=
  (g.negatedType false).andThen fun parts =>
    g.applied (.yield parts) false <|>
    match splitLastArguments parts with
    | some (shorter, ⟨role, arguments⟩) =>
      .node .genericType ((Rule.yield shorter).as .type ++ .yield [⟨role, arguments⟩])
    | none => .never

/-- A generic type applied to types. -/
def genericType (keywords : List String) (ends : Bool) : Rule :=
  g.applied (namedType keywords ends) ends <|> g.genericNegation

/-- A type that begins with a name, or a generic type. -/
def wordType (keywords : List String) (ends : Bool) : Rule :=
  g.genericType keywords ends <|> namedType keywords ends

/-- A pointer type. -/
def pointerType (ends : Bool) : Rule := .node .pointerType (.token "*" ++ g.type ends)

/-- A type in round brackets. -/
def parenthesizedType : Rule := .node .parenthesizedType (enclosed "(" (g.type false) ")")

/-- A slice type. -/
def sliceType (ends : Bool) : Rule :=
  .node .sliceType (.token "[" ++ .token "]" ++ (g.type ends).as .element)

/-- An array type. -/
def arrayType (ends : Bool) : Rule :=
  .node .arrayType
    (enclosed "[" ((g.expr .inside).as .length) "]" ++ (g.type ends).as .element)

/-- A map type. -/
def mapType (ends : Bool) : Rule :=
  .node .mapType
    (.keyword "map" ++ enclosed "[" ((g.type false).as .key) "]" ++ (g.type ends).as .value)

/-- A channel type to receive from. -/
def receiveType (ends : Bool) : Rule :=
  .node .channelType (.token "<-" ++ .keyword "chan" ++ (g.type ends).as .value)

/-- A channel type; an arrow between two words `chan` belongs to the second one. -/
def channelType (ends : Bool) : Rule :=
  g.receiveType ends <|>
  .node .channelType
    (.keyword "chan" ++
      ((g.receiveType ends).as .value <|>
        .token "<-" ++ (g.type ends).as .value <|>
        (g.type ends).as .value))

/-! ## Functions -/

/-- Names with a type behind the last one, or a type alone. Behind a comma every word can be a
name, also one that could begin a type. -/
def parameterDeclaration : Rule :=
  let names : Rule :=
    (Rule.name .identifier typeKeywords).as .name ++
      (Rule.token "," ++ (Rule.name .identifier []).as .name).many
  let behind : Rule := .token "," <|> .token ")"
  .node .parameterDeclaration (names ++ (g.type false).as .type) ++
    .ahead (fun s => (behind.read s).isSome) <|>
  .node .parameterDeclaration ((g.type false).as .type)

/-- A parameter that takes any number of values. -/
def variadicParameter : Rule :=
  .node .variadicParameterDeclaration
    (((Rule.name .identifier typeKeywords).as .name).opt ++ .token "..." ++
      (g.type false).as .type)

/-- Parameters in round brackets. -/
def parameterList : Rule :=
  let declaration := g.variadicParameter <|> g.parameterDeclaration
  .node .parameterList
    (enclosed "(" ((declaration.sepBy (.token ",")).opt ++ (Rule.token ",").opt) ")")

/-- Decide whether a text begins like a type. -/
def beginsType (s : List Char) : Bool :=
  match (takeGap s).2 with
  | [] => false
  | '<' :: '-' :: _ => true
  | c :: _ => Text.isIdentStart c || ['(', '[', '*', '~'].contains c

/-- The result of a function, on the same line: parameters or a type that is not in brackets. A
text that begins like a type is a result or an error. -/
def result (ends : Bool) : Rule :=
  .onLine ends ++
    (.notAhead (.token "(") ++ (g.type ends).as .result <|> g.parameterList.as .result) <|>
  .ahead fun s => (ends && breakAhead s) || !beginsType s

/-- The parameters and the result of a function. -/
def signature (ends : Bool) : Rule := g.parameterList.as .parameters ++ g.result ends

/-- A function type. -/
def functionType (ends : Bool) : Rule := .node .functionType (.keyword "func" ++ g.signature ends)

/-! ## Structs and interfaces -/

/-- Items in braces, each ended by a line break or a semicolon except the last one. -/
def lines (item : Rule) : Rule :=
  enclosed "\x7b" ((item.sepBy .terminator ++ Rule.terminator.opt).opt) "\x7d"

/-- The string behind a field. -/
def fieldTag : Rule := .onLine true ++ string.as .tag

/-- A name of a field. -/
def fieldName : Rule := (Rule.name .fieldIdentifier []).as .name

/-- A type embedded in a struct. What stands behind a name in square brackets is the length of an
array, and not a type, if it begins with the word of a value. -/
def embeddedType (type : Rule) : Rule :=
  let isValue := fun text => (valueKeywords.map String.toList).contains text
  .notAhead (fieldName ++ .token "[" ++ .scanToken (Rule.wordThat isValue)) ++ type.as .type

/-- A field of a struct: names and their type, or an embedded type. -/
def plainField : Rule :=
  let name := fieldName
  let several : Rule :=
    name ++ .onLine true ++ (Rule.token "," ++ name) ++ (Rule.token "," ++ name).many ++
      (g.type true).as .type
  let single : Rule := name ++ .onLine true ++ (g.type true).as .type
  let pointer : Rule := .token "*" ++ (g.wordType [] true).as .type
  several <|> single <|> pointer <|> embeddedType (g.wordType [] true)

/-- An embedded generic type: a string or the end of the struct follows on the same line, or the
next field does behind the end of the line. -/
def genericField : Rule :=
  let fieldEnd : Rule := .terminator <|> .token "\x7d"
  let next : Rule := g.plainField ++ fieldTag.opt ++ fieldEnd
  let behind : Rule := fieldTag <|> .token "\x7d" <|> .terminator ++ (.token "\x7d" <|> next)
  embeddedType (g.genericType [] true) ++ .ahead fun s => (behind.read s).isSome

/-- A field of a struct with the string behind it. -/
def fieldDeclaration : Rule :=
  .node .fieldDeclaration ((g.genericField <|> g.plainField) ++ fieldTag.opt)

/-- A struct type. -/
def structType : Rule :=
  .node .structType (.keyword "struct" ++ .node .fieldDeclarationList (lines g.fieldDeclaration))

/-- A method of an interface. -/
def methodElem : Rule :=
  .node .methodElem
    ((Rule.name .fieldIdentifier typeKeywords).as .name ++ .onLine true ++ g.signature true)

/-- An interface type. -/
def interfaceType : Rule :=
  .node .interfaceType
    (.keyword "interface" ++ lines (g.methodElem <|> g.typeElem .typeElem true))

/-! ## All types -/

/-- A type. -/
def typeRule (ends : Bool) : Rule :=
  g.perhapsApplied (namedType typeKeywords ends) ends <|> g.pointerType ends <|>
  g.sliceType ends <|> g.arrayType ends <|> g.mapType ends <|> g.channelType ends <|>
  g.functionType ends <|> g.structType <|> g.interfaceType <|>
  g.perhapsApplied (g.negatedType ends) ends <|> g.parenthesizedType

/-- Type parameters in square brackets; the first name is none of the given keywords. -/
def typeParameters (keywords : List String) : Rule :=
  let names (first : List String) : Rule :=
    (Rule.name .identifier first).as .name ++
      (Rule.token "," ++ (Rule.name .identifier []).as .name).many
  let declaration (first : List String) : Rule :=
    .node .typeParameterDeclaration (names first ++ (g.typeElem .typeConstraint false).as .type)
  .node .typeParameterList
    (enclosed "["
      (declaration keywords ++ (Rule.token "," ++ declaration []).many ++ (Rule.token ",").opt) "]")

end FluentBuilder.Go.Grammar
