/-!
# Syntax trees — a source text cut into nodes, with nothing left out

A leaf keeps the text of its token and the `gap` before it, the white space and comments that the
grammar does not see, so a tree gives back the text it was read from. A child has a `Role` where
the rule of its parent names one.
-/

namespace FluentBuilder.Go

/-- What a node is. -/
inductive Kind where
  | argumentList | arrayType | assignmentStatement | binaryExpression | blankIdentifier | block
  | breakStatement | callExpression | channelType | communicationCase | compositeLiteral
  | constDeclaration | constSpec | continueStatement | decStatement | defaultCase
  | deferStatement | dot | emptyStatement | expressionCase | expressionList
  | expressionStatement | expressionSwitchStatement | fallthroughStatement | falseLiteral
  | fieldDeclaration | fieldDeclarationList | fieldIdentifier | floatLiteral | forClause
  | forStatement | funcLiteral | functionDeclaration | functionType | genericType | goStatement
  | gotoStatement | identifier | ifStatement | imaginaryLiteral | implicitLengthArrayType
  | importDeclaration | importSpec | importSpecList | incStatement | indexExpression | intLiteral
  | interfaceType | interpretedStringLiteral | iota | keyedElement | labelName
  | labeledStatement | literalElement | literalValue | mapType | methodDeclaration | methodElem
  | negatedType | nilLiteral | packageClause | packageIdentifier | parameterDeclaration
  | parameterList | parenthesizedExpression | parenthesizedType | pointerType | qualifiedType
  | rangeClause | rawStringLiteral | receiveStatement | returnStatement | runeLiteral
  | selectStatement | selectorExpression | sendStatement | shortVarDeclaration
  | sliceExpression | sliceType | sourceFile | statementList | structType | trueLiteral
  | typeAlias | typeArguments | typeAssertionExpression | typeCase | typeConstraint
  | typeConversionExpression | typeDeclaration | typeElem | typeIdentifier
  | typeInstantiationExpression | typeParameterDeclaration | typeParameterList | typeSpec
  | typeSwitchStatement | unaryExpression | varDeclaration | varSpec | varSpecList
  | variadicArgument | variadicParameterDeclaration
  deriving DecidableEq, Repr, Inhabited

/-- The name of a kind. -/
def Kind.name : Kind → String
  | .argumentList => "argument_list"
  | .arrayType => "array_type"
  | .assignmentStatement => "assignment_statement"
  | .binaryExpression => "binary_expression"
  | .blankIdentifier => "blank_identifier"
  | .block => "block"
  | .breakStatement => "break_statement"
  | .callExpression => "call_expression"
  | .channelType => "channel_type"
  | .communicationCase => "communication_case"
  | .compositeLiteral => "composite_literal"
  | .constDeclaration => "const_declaration"
  | .constSpec => "const_spec"
  | .continueStatement => "continue_statement"
  | .decStatement => "dec_statement"
  | .defaultCase => "default_case"
  | .deferStatement => "defer_statement"
  | .dot => "dot"
  | .emptyStatement => "empty_statement"
  | .expressionCase => "expression_case"
  | .expressionList => "expression_list"
  | .expressionStatement => "expression_statement"
  | .expressionSwitchStatement => "expression_switch_statement"
  | .fallthroughStatement => "fallthrough_statement"
  | .falseLiteral => "false"
  | .fieldDeclaration => "field_declaration"
  | .fieldDeclarationList => "field_declaration_list"
  | .fieldIdentifier => "field_identifier"
  | .floatLiteral => "float_literal"
  | .forClause => "for_clause"
  | .forStatement => "for_statement"
  | .funcLiteral => "func_literal"
  | .functionDeclaration => "function_declaration"
  | .functionType => "function_type"
  | .genericType => "generic_type"
  | .goStatement => "go_statement"
  | .gotoStatement => "goto_statement"
  | .identifier => "identifier"
  | .ifStatement => "if_statement"
  | .imaginaryLiteral => "imaginary_literal"
  | .implicitLengthArrayType => "implicit_length_array_type"
  | .importDeclaration => "import_declaration"
  | .importSpec => "import_spec"
  | .importSpecList => "import_spec_list"
  | .incStatement => "inc_statement"
  | .indexExpression => "index_expression"
  | .intLiteral => "int_literal"
  | .interfaceType => "interface_type"
  | .interpretedStringLiteral => "interpreted_string_literal"
  | .iota => "iota"
  | .keyedElement => "keyed_element"
  | .labelName => "label_name"
  | .labeledStatement => "labeled_statement"
  | .literalElement => "literal_element"
  | .literalValue => "literal_value"
  | .mapType => "map_type"
  | .methodDeclaration => "method_declaration"
  | .methodElem => "method_elem"
  | .negatedType => "negated_type"
  | .nilLiteral => "nil"
  | .packageClause => "package_clause"
  | .packageIdentifier => "package_identifier"
  | .parameterDeclaration => "parameter_declaration"
  | .parameterList => "parameter_list"
  | .parenthesizedExpression => "parenthesized_expression"
  | .parenthesizedType => "parenthesized_type"
  | .pointerType => "pointer_type"
  | .qualifiedType => "qualified_type"
  | .rangeClause => "range_clause"
  | .rawStringLiteral => "raw_string_literal"
  | .receiveStatement => "receive_statement"
  | .returnStatement => "return_statement"
  | .runeLiteral => "rune_literal"
  | .selectStatement => "select_statement"
  | .selectorExpression => "selector_expression"
  | .sendStatement => "send_statement"
  | .shortVarDeclaration => "short_var_declaration"
  | .sliceExpression => "slice_expression"
  | .sliceType => "slice_type"
  | .sourceFile => "source_file"
  | .statementList => "statement_list"
  | .structType => "struct_type"
  | .trueLiteral => "true"
  | .typeAlias => "type_alias"
  | .typeArguments => "type_arguments"
  | .typeAssertionExpression => "type_assertion_expression"
  | .typeCase => "type_case"
  | .typeConstraint => "type_constraint"
  | .typeConversionExpression => "type_conversion_expression"
  | .typeDeclaration => "type_declaration"
  | .typeElem => "type_elem"
  | .typeIdentifier => "type_identifier"
  | .typeInstantiationExpression => "type_instantiation_expression"
  | .typeParameterDeclaration => "type_parameter_declaration"
  | .typeParameterList => "type_parameter_list"
  | .typeSpec => "type_spec"
  | .typeSwitchStatement => "type_switch_statement"
  | .unaryExpression => "unary_expression"
  | .varDeclaration => "var_declaration"
  | .varSpec => "var_spec"
  | .varSpecList => "var_spec_list"
  | .variadicArgument => "variadic_argument"
  | .variadicParameterDeclaration => "variadic_parameter_declaration"

/-- What a child is to its parent. -/
inductive Role where
  | body | element | key | length | name | package | parameters | path | receiver | result
  | tag | type | typeArguments | typeParameters | value
  deriving DecidableEq, Repr, Inhabited

mutual

/-- A syntax tree; `token` is a keyword or a mark, which has no kind of its own. -/
inductive Tree where
  | token (gap text : List Char)
  | leaf (kind : Kind) (gap text : List Char)
  | node (kind : Kind) (parts : List Part)

/-- A child and its role. -/
structure Part where
  role : Option Role
  tree : Tree

end

instance : Inhabited Tree := ⟨.token [] []⟩

mutual

/-- The leaves of a tree from left to right: the gap and the text of each. -/
def Tree.leaves : Tree → List (List Char × List Char)
  | .token gap text => [(gap, text)]
  | .leaf _ gap text => [(gap, text)]
  | .node _ parts => partsLeaves parts

/-- The leaves of children. -/
def partsLeaves : List Part → List (List Char × List Char)
  | [] => []
  | ⟨_, t⟩ :: rest => t.leaves ++ partsLeaves rest

end

namespace Tree

/-- The text of a tree from its first token to its last one. -/
def chars (t : Tree) : List Char :=
  match t.leaves with
  | [] => []
  | (_, first) :: rest => first ++ rest.flatMap fun (gap, text) => gap ++ text

/-- The text of a tree from its first token to its last one. -/
def text (t : Tree) : String := String.ofList t.chars

/-- The kind of a tree, if it has one. -/
def kind? : Tree → Option Kind
  | .token _ _ => none
  | .leaf kind _ _ => some kind
  | .node kind _ => some kind

/-- The children of a tree. -/
def parts : Tree → List Part
  | .node _ parts => parts
  | _ => []

/-- The children of a tree that have a kind. -/
def named (t : Tree) : List Tree :=
  t.parts.filterMap fun part => part.tree.kind?.map fun _ => part.tree

/-- The first child of a tree with a role. -/
def child? (t : Tree) (role : Role) : Option Tree :=
  (t.parts.find? (·.role == some role)).map (·.tree)

/-- The keywords and marks among the children of a tree. -/
def marks (t : Tree) : List (List Char) :=
  t.parts.filterMap fun part =>
    match part.tree with
    | .token _ text => some text
    | _ => none

end Tree

end FluentBuilder.Go
