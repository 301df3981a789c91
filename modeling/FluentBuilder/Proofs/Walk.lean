import FluentBuilder.Blueprint

/-!
# Walks — a walk shows the pre-order list of nodes

* **`walk_eq_visitAll`** — a walk shows a node and the nodes below it in the order of their
  pre-order list, until the visitor stops.
* **`findStruct_eq_ok`** — the struct that is found for a name is the body of a declared type of
  the file with that name.
-/

namespace FluentBuilder.Go

section

variable {σ : Type} (visit : Node → σ → Flow σ)

/-- Show nodes to a visitor, one after the other, until it stops. -/
def visitAll : List Node → σ → Flow σ
  | [], s => .next s
  | n :: rest, s => (visit n s).andThen (visitAll rest)

/-- Steps that follow each other may be grouped in any way. -/
theorem Flow.andThen_assoc (flow : Flow σ) (f g : σ → Flow σ) :
    (flow.andThen f).andThen g = flow.andThen fun s => (f s).andThen g := by
  cases flow <;> rfl

/-- A single node is shown alone. -/
theorem visitAll_singleton (n : Node) (s : σ) : visitAll visit [n] s = visit n s := by
  simp only [visitAll]
  cases visit n s <;> rfl

/-- Nodes are shown one list after the other. -/
theorem visitAll_append (ms ns : List Node) :
    visitAll visit (ms ++ ns) = fun s => (visitAll visit ms s).andThen (visitAll visit ns) := by
  funext s
  induction ms generalizing s with
  | nil => rfl
  | cons m ms ih =>
      simp only [List.cons_append, visitAll, Flow.andThen_assoc]
      exact congrArg _ (funext ih)

/-- A visitor that goes on everywhere and gathers what it finds at each node finds it in the order
of the nodes. -/
theorem visitAll_gather {α : Type} (find : Node → List α) (nodes : List Node) (found : List α) :
    visitAll (fun node found => .next (found ++ find node)) nodes found =
      .next (found ++ nodes.flatMap find) := by
  induction nodes generalizing found with
  | nil => rw [visitAll, List.flatMap_nil, List.append_nil]
  | cons node rest ih =>
      rw [visitAll, Flow.andThen, ih, List.flatMap_cons, List.append_assoc]

mutual

/-- A walk over a type. -/
theorem walkType_eq : ∀ t s, walkType visit t s = visitAll visit t.nodes s
  | .qualified package name, s => by
      simp only [walkType, TypeExpr.nodes, visitAll, funext (walkType_eq package)]
  | .array length elem, s => by
      simp only [walkType, TypeExpr.nodes, visitAll, funext (walkType_eq elem)]
  | .pointer elem, s => by
      simp only [walkType, TypeExpr.nodes, visitAll, funext (walkType_eq elem)]
  | .paren elem, s => by
      simp only [walkType, TypeExpr.nodes, visitAll, funext (walkType_eq elem)]
  | .map key value, s => by
      simp only [walkType, TypeExpr.nodes, visitAll, visitAll_append, Flow.andThen_assoc,
        funext (walkType_eq key), funext (walkType_eq value)]
  | .chan direction value, s => by
      simp only [walkType, TypeExpr.nodes, visitAll, funext (walkType_eq value)]
  | .generic base args, s => by
      simp only [walkType, TypeExpr.nodes, visitAll, visitAll_append, Flow.andThen_assoc,
        funext (walkType_eq base), funext (walkTypes_eq args)]
  | .func params results, s => by
      simp only [walkType, TypeExpr.nodes, visitAll, visitAll_append, Flow.andThen_assoc,
        funext (walkParams_eq params), funext (walkParams_eq results)]
  | .struct (some fields), s => by
      simp only [walkType, TypeExpr.nodes, visitAll, funext (walkFields_eq fields)]
  | .struct none, s => by
      rw [walkType, TypeExpr.nodes, visitAll_singleton]
  | .named name, s => by
      rw [walkType, TypeExpr.nodes, visitAll_singleton]
  | .interface n, s => by
      rw [walkType, TypeExpr.nodes, visitAll_singleton]
  | .other kind, s => by
      rw [walkType, TypeExpr.nodes, visitAll_singleton]

/-- A walk over types. -/
theorem walkTypes_eq : ∀ ts s, walkTypes visit ts s = visitAll visit (typesNodes ts) s
  | [], s => rfl
  | t :: rest, s => by
      simp only [walkTypes, typesNodes, visitAll_append, walkType_eq t, funext (walkTypes_eq rest)]

/-- A walk over the types of parameters. -/
theorem walkParams_eq : ∀ ps s, walkParams visit ps s = visitAll visit (paramsNodes ps) s
  | [], s => rfl
  | ⟨t, _⟩ :: rest, s => by
      simp only [walkParams, paramsNodes, visitAll_append, walkType_eq t,
        funext (walkParams_eq rest)]

/-- A walk over fields. -/
theorem walkFields_eq : ∀ fs s, walkFields visit fs s = visitAll visit (fieldsNodes fs) s
  | [], s => rfl
  | ⟨names, t, tag⟩ :: rest, s => by
      simp only [walkFields, fieldsNodes, visitAll, visitAll_append, Flow.andThen_assoc,
        funext (walkType_eq t), funext (walkFields_eq rest)]

end

/-- A walk over a declared type. -/
theorem walkTypeSpec_eq (spec : TypeSpec) (s : σ) :
    walkTypeSpec visit spec s = visitAll visit spec.nodes s := by
  simp only [walkTypeSpec, TypeSpec.nodes, visitAll, funext (walkType_eq visit spec.type)]

/-- A walk over declared types. -/
theorem walkTypeSpecs_eq (specs : List TypeSpec) (s : σ) :
    walkTypeSpecs visit specs s = visitAll visit (specs.flatMap TypeSpec.nodes) s := by
  induction specs generalizing s with
  | nil => rfl
  | cons spec rest ih =>
      simp only [walkTypeSpecs, List.flatMap_cons, visitAll_append, walkTypeSpec_eq, funext ih]

mutual

/-- A walk over a declaration. -/
theorem walkDecl_eq : ∀ d s, walkDecl visit d s = visitAll visit d.nodes s
  | .types specs, s => by
      simp only [walkDecl, Decl.nodes, visitAll, funext (walkTypeSpecs_eq visit specs)]
  | .values specs, s => by
      simp only [walkDecl, Decl.nodes, visitAll, funext (walkValues_eq specs)]
  | .func f, s => by
      simp only [walkDecl, Decl.nodes, visitAll, funext (walkFunc_eq f)]
  | .imports specs, s => by
      rw [walkDecl, Decl.nodes, visitAll_singleton]
  | .bad, s => by
      rw [walkDecl, Decl.nodes, visitAll_singleton]

/-- A walk over value specifications. -/
theorem walkValues_eq : ∀ vs s, walkValues visit vs s = visitAll visit (valuesNodes vs) s
  | [], s => rfl
  | ⟨_, some t, values⟩ :: rest, s => by
      simp only [walkValues, valuesNodes, visitAll_append, Flow.andThen_assoc, walkType_eq visit t,
        funext (walkStmts_eq values), funext (walkValues_eq rest)]
  | ⟨_, none, values⟩ :: rest, s => by
      simp only [walkValues, valuesNodes, visitAll_append, walkStmts_eq values,
        funext (walkValues_eq rest)]

/-- A walk over a function. -/
theorem walkFunc_eq : ∀ f s, walkFunc visit f s = visitAll visit f.nodes s
  | ⟨name, some t, some body⟩, s => by
      simp only [walkFunc, FuncDecl.nodes, visitAll, visitAll_append, Flow.andThen_assoc,
        funext (walkType_eq visit t), funext (walkBlock_eq body)]
  | ⟨name, some t, none⟩, s => by
      simp only [walkFunc, FuncDecl.nodes, visitAll, funext (walkType_eq visit t)]
  | ⟨name, none, some body⟩, s => by
      simp only [walkFunc, FuncDecl.nodes, visitAll, funext (walkBlock_eq body)]
  | ⟨name, none, none⟩, s => by
      rw [walkFunc, FuncDecl.nodes, visitAll_singleton]

/-- A walk over a block. -/
theorem walkBlock_eq : ∀ b s, walkBlock visit b s = visitAll visit b.nodes s
  | ⟨stmts⟩, s => by
      simp only [walkBlock, Block.nodes, visitAll, funext (walkStmts_eq stmts)]

/-- A walk over a statement. -/
theorem walkStmt_eq : ∀ stmt s, walkStmt visit stmt s = visitAll visit stmt.nodes s
  | .decl d, s => by
      simp only [walkStmt, Stmt.nodes, visitAll, funext (walkDecl_eq d)]
  | .block b, s => by
      simp only [walkStmt, Stmt.nodes, visitAll, funext (walkBlock_eq b)]
  | .compound kind children, s => by
      simp only [walkStmt, Stmt.nodes, visitAll, funext (walkStmts_eq children)]
  | .other kind, s => by
      rw [walkStmt, Stmt.nodes, visitAll_singleton]

/-- A walk over statements. -/
theorem walkStmts_eq : ∀ stmts s, walkStmts visit stmts s = visitAll visit (stmtsNodes stmts) s
  | [], s => rfl
  | stmt :: rest, s => by
      simp only [walkStmts, stmtsNodes, visitAll_append, walkStmt_eq stmt,
        funext (walkStmts_eq rest)]

end

/-- A walk over declarations. -/
theorem walkDecls_eq (decls : List Decl) (s : σ) :
    walkDecls visit decls s = visitAll visit (decls.flatMap Decl.nodes) s := by
  induction decls generalizing s with
  | nil => rfl
  | cons d rest ih =>
      simp only [walkDecls, List.flatMap_cons, visitAll_append, walkDecl_eq, funext ih]

/-- **A walk shows the pre-order list** of a node to the visitor until it stops. -/
theorem walk_eq_visitAll (n : Node) (s : σ) : walk visit n s = visitAll visit n.descendants s := by
  cases n with
  | file f => simp only [walk, Node.descendants, visitAll, funext (walkDecls_eq visit f.decls)]
  | decl d => exact walkDecl_eq visit d s
  | typeSpec spec => exact walkTypeSpec_eq visit spec s
  | func f => exact walkFunc_eq visit f s
  | block b => exact walkBlock_eq visit b s
  | stmt stmt => exact walkStmt_eq visit stmt s
  | type t => exact walkType_eq visit t s
  | field f => simp only [walk, Node.descendants, visitAll, funext (walkType_eq visit f.type)]

end

/-! ## Finding a struct -/

/-- The declared type that a node is. -/
def Node.typeSpec? : Node → Option TypeSpec
  | .typeSpec spec => some spec
  | _ => none

/-- The body of a declared type if that has a name and is a struct. -/
def TypeSpec.structNamed (target : String) (spec : TypeSpec) : Option StructBody :=
  if spec.name = target then
    match spec.type with
    | .struct body => some body
    | _ => none
  else none

/-- What a declared type with a name and a struct type is. -/
theorem TypeSpec.structNamed_eq_some {target : String} {spec : TypeSpec} {body : StructBody} :
    spec.structNamed target = some body ↔ spec.name = target ∧ spec.type = .struct body := by
  unfold TypeSpec.structNamed
  by_cases hname : spec.name = target
  · rw [if_pos hname]
    cases spec.type <;> simp [hname]
  · simp [hname]

/-- The visitor stops at a declared struct with the name and goes on behind any other node. -/
theorem structVisitor_eq (target : String) (node : Node) (found : Option StructBody) :
    structVisitor target node found =
      match node.typeSpec?.bind (·.structNamed target) with
      | some body => .stop (some body)
      | none => .next found := by
  cases node with
  | typeSpec spec =>
      by_cases hname : spec.name = target
      · simp only [structVisitor, Node.typeSpec?, TypeSpec.structNamed, Option.bind_some, hname,
          beq_self_eq_true, if_true]
        cases spec.type <;> rfl
      · have hbeq : (spec.name == target) = false := beq_false_of_ne hname
        simp [structVisitor, Node.typeSpec?, TypeSpec.structNamed, hname]
  | _ => rfl

/-- A walk for a struct ends with the body of the first struct among the nodes that has the
    name. -/
theorem visitAll_structVisitor (target : String) (nodes : List Node) :
    (visitAll (structVisitor target) nodes none).state =
      (nodes.filterMap Node.typeSpec?).findSome? (·.structNamed target) := by
  induction nodes with
  | nil => rfl
  | cons node rest ih =>
      rw [visitAll, structVisitor_eq]
      cases hspec : node.typeSpec? with
      | none =>
          rw [List.filterMap_cons_none hspec]
          exact ih
      | some spec =>
          rw [List.filterMap_cons_some hspec, List.findSome?_cons, Option.bind_some]
          cases spec.structNamed target with
          | none => exact ih
          | some body => rfl

/-- A struct is found as the first declared type of the file that is one with the name. -/
theorem SourceFile.findStruct_eq (file : SourceFile) (target : String) :
    file.findStruct target =
      match file.typeSpecs.findSome? (·.structNamed target) with
      | some body => .ok body
      | none => .error (.notFound target) := by
  have hspecs : file.typeSpecs = (Node.file file).descendants.filterMap Node.typeSpec? := rfl
  cases hfound : file.typeSpecs.findSome? (·.structNamed target) with
  | none =>
      rw [hspecs] at hfound
      simp only [SourceFile.findStruct, walk_eq_visitAll, visitAll_structVisitor, hfound]
  | some body =>
      rw [hspecs] at hfound
      simp only [SourceFile.findStruct, walk_eq_visitAll, visitAll_structVisitor, hfound]

/-- The struct that is found for a name is declared under it. -/
theorem SourceFile.findStruct_eq_ok {file : SourceFile} {target : String} {body : StructBody}
    (h : file.findStruct target = .ok body) :
    ∃ spec ∈ file.typeSpecs, spec.name = target ∧ spec.type = .struct body := by
  rw [file.findStruct_eq] at h
  cases hfound : file.typeSpecs.findSome? (·.structNamed target) with
  | none => rw [hfound] at h; cases h
  | some found =>
      rw [hfound] at h
      cases h
      obtain ⟨spec, hmem, hspec⟩ := List.exists_of_findSome?_eq_some hfound
      exact ⟨spec, hmem, TypeSpec.structNamed_eq_some.mp hspec⟩

end FluentBuilder.Go
