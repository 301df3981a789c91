import FluentBuilder.Go.Node

/-!
# Walks over a source file — a visitor with a state that may stop

`walk visit node state` shows `node` and the nodes below it to `visit` in pre-order. The visitor
answers with `Flow.next` to go on and with `Flow.stop` to end the whole walk at once.
-/

namespace FluentBuilder.Go

/-- What a visitor answers: its new state, and whether the walk goes on. -/
inductive Flow (σ : Type) where
  | next (state : σ)
  | stop (state : σ)

namespace Flow

variable {σ : Type}

/-- Go on with the next part of a walk unless it was stopped. -/
def andThen (flow : Flow σ) (step : σ → Flow σ) : Flow σ :=
  match flow with
  | .next s => step s
  | .stop s => .stop s

/-- The state at the end of a walk. -/
def state : Flow σ → σ
  | .next s => s
  | .stop s => s

/-- Whether the visitor ended the walk. -/
def stopped : Flow σ → Bool
  | .next _ => false
  | .stop _ => true

end Flow

section

variable {σ : Type} (visit : Node → σ → Flow σ)

mutual

/-- Walk a type. -/
def walkType : TypeExpr → σ → Flow σ
  | .qualified package name, s =>
    (visit (.type (.qualified package name)) s).andThen (walkType package)
  | .array length elem, s => (visit (.type (.array length elem)) s).andThen (walkType elem)
  | .pointer elem, s => (visit (.type (.pointer elem)) s).andThen (walkType elem)
  | .paren elem, s => (visit (.type (.paren elem)) s).andThen (walkType elem)
  | .map key value, s =>
    ((visit (.type (.map key value)) s).andThen (walkType key)).andThen (walkType value)
  | .chan direction value, s =>
    (visit (.type (.chan direction value)) s).andThen (walkType value)
  | .generic base args, s =>
    ((visit (.type (.generic base args)) s).andThen (walkType base)).andThen (walkTypes args)
  | .func params results, s =>
    ((visit (.type (.func params results)) s).andThen (walkParams params)).andThen
      (walkParams results)
  | .struct (some fields), s => (visit (.type (.struct (some fields))) s).andThen (walkFields fields)
  | .struct none, s => visit (.type (.struct none)) s
  | .named name, s => visit (.type (.named name)) s
  | .interface elements, s => visit (.type (.interface elements)) s
  | .other kind, s => visit (.type (.other kind)) s

/-- Walk types one after the other. -/
def walkTypes : List TypeExpr → σ → Flow σ
  | [], s => .next s
  | t :: rest, s => (walkType t s).andThen (walkTypes rest)

/-- Walk the types of parameters one after the other. -/
def walkParams : List Param → σ → Flow σ
  | [], s => .next s
  | ⟨t, _⟩ :: rest, s => (walkType t s).andThen (walkParams rest)

/-- Walk fields one after the other. -/
def walkFields : List Field → σ → Flow σ
  | [], s => .next s
  | ⟨names, t, tag⟩ :: rest, s =>
    ((visit (.field ⟨names, t, tag⟩) s).andThen (walkType t)).andThen (walkFields rest)

end

/-- Walk a declared type. -/
def walkTypeSpec (spec : TypeSpec) (s : σ) : Flow σ :=
  (visit (.typeSpec spec) s).andThen (walkType visit spec.type)

/-- Walk declared types one after the other. -/
def walkTypeSpecs : List TypeSpec → σ → Flow σ
  | [], s => .next s
  | spec :: rest, s => (walkTypeSpec visit spec s).andThen (walkTypeSpecs rest)

mutual

/-- Walk a declaration. -/
def walkDecl : Decl → σ → Flow σ
  | .types specs, s => (visit (.decl (.types specs)) s).andThen (walkTypeSpecs visit specs)
  | .values specs, s => (visit (.decl (.values specs)) s).andThen (walkValues specs)
  | .func f, s => (visit (.decl (.func f)) s).andThen (walkFunc f)
  | .imports specs, s => visit (.decl (.imports specs)) s
  | .bad, s => visit (.decl .bad) s

/-- Walk the types and initializers of value specifications. -/
def walkValues : List ValueSpec → σ → Flow σ
  | [], s => .next s
  | ⟨_, some t, values⟩ :: rest, s =>
    ((walkType visit t s).andThen (walkStmts values)).andThen (walkValues rest)
  | ⟨_, none, values⟩ :: rest, s => (walkStmts values s).andThen (walkValues rest)

/-- Walk a function, its receiver and its body. -/
def walkFunc : FuncDecl → σ → Flow σ
  | ⟨name, some t, some body⟩, s =>
    ((visit (.func ⟨name, some t, some body⟩) s).andThen (walkType visit t)).andThen
      (walkBlock body)
  | ⟨name, some t, none⟩, s => (visit (.func ⟨name, some t, none⟩) s).andThen (walkType visit t)
  | ⟨name, none, some body⟩, s =>
    (visit (.func ⟨name, none, some body⟩) s).andThen (walkBlock body)
  | ⟨name, none, none⟩, s => visit (.func ⟨name, none, none⟩) s

/-- Walk a block. -/
def walkBlock : Block → σ → Flow σ
  | ⟨stmts⟩, s => (visit (.block ⟨stmts⟩) s).andThen (walkStmts stmts)

/-- Walk a statement. -/
def walkStmt : Stmt → σ → Flow σ
  | .decl d, s => (visit (.stmt (.decl d)) s).andThen (walkDecl d)
  | .block b, s => (visit (.stmt (.block b)) s).andThen (walkBlock b)
  | .compound kind children, s =>
    (visit (.stmt (.compound kind children)) s).andThen (walkStmts children)
  | .other kind, s => visit (.stmt (.other kind)) s

/-- Walk statements one after the other. -/
def walkStmts : List Stmt → σ → Flow σ
  | [], s => .next s
  | stmt :: rest, s => (walkStmt stmt s).andThen (walkStmts rest)

end

/-- Walk declarations one after the other. -/
def walkDecls : List Decl → σ → Flow σ
  | [], s => .next s
  | d :: rest, s => (walkDecl visit d s).andThen (walkDecls rest)

/-- Show a node and the nodes below it to a visitor, in pre-order, until it stops. -/
def walk : Node → σ → Flow σ
  | .file f, s => (visit (.file f) s).andThen (walkDecls visit f.decls)
  | .decl d, s => walkDecl visit d s
  | .typeSpec spec, s => walkTypeSpec visit spec s
  | .func f, s => walkFunc visit f s
  | .block b, s => walkBlock visit b s
  | .stmt stmt, s => walkStmt visit stmt s
  | .type t, s => walkType visit t s
  | .field f, s => (visit (.field f) s).andThen (walkType visit f.type)

end

end FluentBuilder.Go
