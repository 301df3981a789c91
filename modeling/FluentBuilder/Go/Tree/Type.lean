import FluentBuilder.Go.Literal
import FluentBuilder.Go.Tree
import FluentBuilder.Go.Type
import FluentBuilder.Text.Blank

/-!
# From trees to types — the type expression that a syntax tree stands for

`Tree.toType` keeps names and lengths as text and drops what a signature does not need: the names
of parameters, the methods of an interface, comments. A length keeps its text, comments included,
with one blank for each run of white space, in its literals as well. A tree that is no type, or a
type with no expression of its own, becomes `other` with the name of its kind.
-/

namespace FluentBuilder.Go

/-- The type that stands where a tree has none. -/
def missingType : TypeExpr := .other "missing"

/-- The length of an array as text. -/
def lengthText (t : Tree) : String :=
  String.ofList ((Text.words t.chars).intersperse [' ']).flatten

/-- The direction of a channel, told by the marks of its type. -/
def directionOf (marks : List (List Char)) : Direction :=
  match marks with
  | ['<', '-'] :: ['c', 'h', 'a', 'n'] :: _ => .receive
  | ['c', 'h', 'a', 'n'] :: ['<', '-'] :: _ => .send
  | _ => .both

/-- The marks among children. -/
def marksOf (parts : List Part) : List (List Char) := (Tree.node .block parts).marks

/-- The texts of the children with a role. -/
def textsOf (role : Role) (parts : List Part) : List String :=
  (parts.filter (·.role == some role)).map (·.tree.text)

/-- The text of the first child with a role. -/
def textOf (role : Role) (parts : List Part) : String := (textsOf role parts).headD ""

/-- The number of children that have a kind. -/
def namedCount (parts : List Part) : Nat := (parts.filter (·.tree.kind?.isSome)).length

/-- The tag of a field: the text of its literal, or the literal itself if it has no text. -/
def tagOf (parts : List Part) : Option String :=
  (textsOf .tag parts).head?.map fun literal => (unquote literal).getD literal

mutual

/-- The type expression of a tree. -/
def Tree.toType : Tree → TypeExpr
  | .token _ _ => missingType
  | .leaf kind _ text =>
    match kind with
    | .typeIdentifier | .identifier | .packageIdentifier => .named (String.ofList text)
    | kind => .other kind.name
  | .node kind parts =>
    match kind with
    | .qualifiedType => .qualified (roleType .package parts) (textOf .name parts)
    | .pointerType => .pointer (firstType parts)
    | .sliceType => .array none (roleType .element parts)
    | .arrayType =>
      .array ((parts.find? (·.role == some .length)).map fun part => lengthText part.tree)
        (roleType .element parts)
    | .mapType => .map (roleType .key parts) (roleType .value parts)
    | .channelType => .chan (directionOf (marksOf parts)) (roleType .value parts)
    | .genericType => .generic (roleType .type parts) (argumentTypes parts)
    | .parenthesizedType => .paren (firstType parts)
    | .functionType => .func (roleParams .parameters parts) (resultParams parts)
    | .structType => .struct (structFields parts)
    | .interfaceType => .interface (namedCount parts)
    | .typeElem => if namedCount parts == 1 then firstType parts else .other "union_type"
    | kind => .other kind.name

/-- The type of the first child with a role. -/
def roleType (role : Role) : List Part → TypeExpr
  | [] => missingType
  | ⟨r, t⟩ :: rest => if r == some role then t.toType else roleType role rest

/-- The type of the first child that has a kind. -/
def firstType : List Part → TypeExpr
  | [] => missingType
  | ⟨_, .token _ _⟩ :: rest => firstType rest
  | ⟨_, .leaf kind gap text⟩ :: _ => (Tree.leaf kind gap text).toType
  | ⟨_, .node kind parts⟩ :: _ => (Tree.node kind parts).toType

/-- The types of the children that have a kind. -/
def namedTypes : List Part → List TypeExpr
  | [] => []
  | ⟨_, .token _ _⟩ :: rest => namedTypes rest
  | ⟨_, .leaf kind gap text⟩ :: rest => (Tree.leaf kind gap text).toType :: namedTypes rest
  | ⟨_, .node kind parts⟩ :: rest => (Tree.node kind parts).toType :: namedTypes rest

/-- The types that a generic type is applied to. -/
def argumentTypes : List Part → List TypeExpr
  | [] => []
  | ⟨some .typeArguments, .node _ parts⟩ :: _ => namedTypes parts
  | _ :: rest => argumentTypes rest

/-- The parameters of the declarations in a list. -/
def paramsOf : List Part → List Param
  | [] => []
  | ⟨_, .node .parameterDeclaration parts⟩ :: rest =>
    List.replicate (max 1 (textsOf .name parts).length) ⟨roleType .type parts, false⟩ ++
      paramsOf rest
  | ⟨_, .node .variadicParameterDeclaration parts⟩ :: rest =>
    List.replicate (max 1 (textsOf .name parts).length) ⟨roleType .type parts, true⟩ ++
      paramsOf rest
  | _ :: rest => paramsOf rest

/-- The parameters of the first child with a role. -/
def roleParams (role : Role) : List Part → List Param
  | [] => []
  | ⟨r, .node _ parts⟩ :: rest =>
    if r == some role then paramsOf parts else roleParams role rest
  | _ :: rest => roleParams role rest

/-- The results of a function: a list of parameters or one type. -/
def resultParams : List Part → List Param
  | [] => []
  | ⟨some .result, .node .parameterList parts⟩ :: _ => paramsOf parts
  | ⟨some .result, .node kind parts⟩ :: _ => [⟨(Tree.node kind parts).toType, false⟩]
  | ⟨some .result, .leaf kind gap text⟩ :: _ => [⟨(Tree.leaf kind gap text).toType, false⟩]
  | _ :: rest => resultParams rest

/-- The fields of a struct, listed in its first list of fields. -/
def structFields : List Part → Option (List Field)
  | [] => none
  | ⟨_, .node .fieldDeclarationList parts⟩ :: _ => some (fieldsOf parts)
  | _ :: rest => structFields rest

/-- The fields of a list of declarations; a star in front of an embedded type is a pointer. -/
def fieldsOf : List Part → List Field
  | [] => []
  | ⟨_, .node .fieldDeclaration parts⟩ :: rest =>
    let names := textsOf .name parts
    let type := roleType .type parts
    let pointed := names.isEmpty && (marksOf parts).contains ['*']
    ⟨names, if pointed then .pointer type else type, tagOf parts⟩ :: fieldsOf rest
  | _ :: rest => fieldsOf rest

end

end FluentBuilder.Go
