import FluentBuilder.Go.File
import FluentBuilder.Go.Tree.Type

/-!
# From trees to files — the declarations that a syntax tree stands for

`Tree.toFile?` keeps the declarations of a file at every depth. Of a statement that is neither a
declaration nor a block it keeps the outermost blocks and declarations below it, looking through
expressions, so that the body of a function literal is found where it stands.
-/

namespace FluentBuilder.Go

/-- Decide whether trees of a kind only hold a list of specifications. -/
def Kind.isList : Kind → Bool
  | .argumentList | .expressionList | .fieldDeclarationList | .importSpecList | .parameterList
  | .statementList | .typeParameterList | .varSpecList => true
  | _ => false

/-- Decide whether a kind is a declaration that may stand among statements. -/
def Kind.isDeclaration : Kind → Bool
  | .typeDeclaration | .varDeclaration | .constDeclaration => true
  | _ => false

/-- The names of the type parameters of a declared type. -/
def typeParamsOf (parts : List Part) : List String :=
  match parts.find? (·.role == some .typeParameters) with
  | some part => part.tree.named.flatMap fun declaration => textsOf .name declaration.parts
  | none => []

/-- The declared type of a specification. -/
def typeSpecOf (isAlias : Bool) (parts : List Part) : TypeSpec :=
  ⟨textOf .name parts, typeParamsOf parts, isAlias, roleType .type parts⟩

/-- The declared types among children. -/
def typeSpecsOf : List Part → List TypeSpec
  | [] => []
  | ⟨_, .node .typeSpec parts⟩ :: rest => typeSpecOf false parts :: typeSpecsOf rest
  | ⟨_, .node .typeAlias parts⟩ :: rest => typeSpecOf true parts :: typeSpecsOf rest
  | _ :: rest => typeSpecsOf rest

/-- The imported package of a specification; a path that is no literal is empty. -/
def importSpecOf (parts : List Part) : ImportSpec :=
  ⟨(textsOf .name parts).head?, ((textsOf .path parts).head?.bind unquote).getD ""⟩

mutual

/-- The imported packages among children and in lists among them. -/
def importSpecsOf : List Part → List ImportSpec
  | [] => []
  | ⟨_, t⟩ :: rest => t.importSpecs ++ importSpecsOf rest

/-- The imported packages that a child of a declaration holds. -/
def Tree.importSpecs : Tree → List ImportSpec
  | .node kind parts =>
    if kind == .importSpec then [importSpecOf parts]
    else if kind.isList then importSpecsOf parts
    else []
  | _ => []

end

/-- The type of the first parameter of the receiver of a method. -/
def receiverOf (parts : List Part) : Option TypeExpr :=
  match parts.find? (·.role == some .receiver) with
  | none => none
  | some part => part.tree.named.head?.map fun declaration => roleType .type declaration.parts

/-- The type of a value specification. -/
def valueTypeOf (parts : List Part) : Option TypeExpr :=
  (parts.find? (·.role == some .type)).map (·.tree.toType)

/-- The declaration of a node, given how its specifications and its body are read. -/
def declWith (kind : Kind) (parts : List Part) (values : Kind → List ValueSpec)
    (body : Unit → Option Block) : Decl :=
  match kind with
  | .importDeclaration => .imports (importSpecsOf parts)
  | .typeDeclaration => .types (typeSpecsOf parts)
  | .varDeclaration => .values (values .varSpec)
  | .constDeclaration => .values (values .constSpec)
  | .functionDeclaration | .methodDeclaration =>
    .func ⟨textOf .name parts, receiverOf parts, body ()⟩
  | _ => .bad

/-- A statement of a kind that is neither a declaration nor a block, with what it nests. -/
def compoundOf (kind : Kind) (nested : List Stmt) : Stmt :=
  match nested with
  | [] => .other kind.name
  | child :: children => .compound kind.name (child :: children)

mutual

/-- The value specifications of a kind among children and in lists among them. -/
def valueSpecsOf (kind : Kind) : List Part → List ValueSpec
  | [] => []
  | ⟨_, .node k parts⟩ :: rest =>
    (if k == kind then [⟨textsOf .name parts, valueTypeOf parts, initializerOf parts⟩]
      else if k.isList then valueSpecsOf kind parts
      else []) ++ valueSpecsOf kind rest
  | _ :: rest => valueSpecsOf kind rest

/-- What the values of a specification nest. -/
def initializerOf : List Part → List Stmt
  | [] => []
  | ⟨some .value, .node _ parts⟩ :: _ => nestedIn parts
  | ⟨some .value, _⟩ :: _ => []
  | _ :: rest => initializerOf rest

/-- The body of a function. -/
def bodyOf : List Part → Option Block
  | [] => none
  | ⟨some .body, .node _ parts⟩ :: _ => some ⟨stmtsOf parts⟩
  | _ :: rest => bodyOf rest

/-- The statements of a block, those in its lists included. -/
def stmtsOf : List Part → List Stmt
  | [] => []
  | ⟨_, .token _ _⟩ :: rest => stmtsOf rest
  | ⟨_, .leaf kind _ _⟩ :: rest => .other kind.name :: stmtsOf rest
  | ⟨_, .node kind parts⟩ :: rest =>
    (if kind == .statementList then stmtsOf parts
      else if kind == .block then [.block ⟨stmtsOf parts⟩]
      else if kind.isDeclaration then
        [.decl (declWith kind parts (valueSpecsOf · parts) fun _ => bodyOf parts)]
      else [compoundOf kind (nestedIn parts)]) ++ stmtsOf rest

/-- The outermost blocks and declarations below children. -/
def nestedIn : List Part → List Stmt
  | [] => []
  | ⟨_, .node kind parts⟩ :: rest =>
    (if kind == .block then [.block ⟨stmtsOf parts⟩]
      else if kind.isDeclaration then
        [.decl (declWith kind parts (valueSpecsOf · parts) fun _ => bodyOf parts)]
      else nestedIn parts) ++ nestedIn rest
  | _ :: rest => nestedIn rest

end

/-- The declaration of a tree. -/
def Tree.toDecl : Tree → Decl
  | .node kind parts => declWith kind parts (valueSpecsOf · parts) fun _ => bodyOf parts
  | _ => .bad

/-- The declarations of the top of a file; the clauses of the package are none. -/
def declsOf (trees : List Tree) : List Decl :=
  (trees.filter fun t => t.kind? != some .packageClause).map Tree.toDecl

/-- The name of the package of a file, by its last clause that has one. -/
def packageOf (trees : List Tree) : Option String :=
  trees.foldl
    (fun found t =>
      if t.kind? == some .packageClause then t.named.head?.map Tree.text else found)
    none

/-- The source file of a tree, if the tree names a package. -/
def Tree.toFile? (t : Tree) : Option SourceFile :=
  (packageOf t.named).map fun package => ⟨package, declsOf t.named⟩

end FluentBuilder.Go
