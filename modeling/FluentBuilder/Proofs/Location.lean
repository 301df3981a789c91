import FluentBuilder.Proofs.Walk

/-!
# Location — a struct is found where it is declared first

`SourceFile.declaredTypes` lists the declared types of a file by recursion on its declarations and
statements alone, without nodes and without a visitor.

* **`SourceFile.typeSpecs_eq`** — a walk comes by the same declared types in the same order.
* **`SourceFile.findStruct_first`** — the struct found for a name is the body of the first of them
  that has the name and is a struct; nothing is found just where there is none.
-/

namespace FluentBuilder.Go

/-! ## Declared types in source order -/

mutual

/-- The types that a declaration declares at any depth. -/
def Decl.declaredTypes : Decl → List TypeSpec
  | .types specs => specs
  | .values specs => valuesDeclaredTypes specs
  | .func f => f.declaredTypes
  | .imports _ => []
  | .bad => []

/-- The types that the initializers of value specifications declare. -/
def valuesDeclaredTypes : List ValueSpec → List TypeSpec
  | [] => []
  | ⟨_, _, values⟩ :: rest => stmtsDeclaredTypes values ++ valuesDeclaredTypes rest

/-- The types that the body of a function declares. -/
def FuncDecl.declaredTypes : FuncDecl → List TypeSpec
  | ⟨_, _, some body⟩ => body.declaredTypes
  | ⟨_, _, none⟩ => []

/-- The types that a block declares. -/
def Block.declaredTypes : Block → List TypeSpec
  | ⟨stmts⟩ => stmtsDeclaredTypes stmts

/-- The types that a statement declares. -/
def Stmt.declaredTypes : Stmt → List TypeSpec
  | .decl d => d.declaredTypes
  | .block b => b.declaredTypes
  | .compound _ children => stmtsDeclaredTypes children
  | .other _ => []

/-- The types that statements declare. -/
def stmtsDeclaredTypes : List Stmt → List TypeSpec
  | [] => []
  | s :: rest => s.declaredTypes ++ stmtsDeclaredTypes rest

end

/-- The types that a file declares, in source order. -/
def SourceFile.declaredTypes (file : SourceFile) : List TypeSpec :=
  file.decls.flatMap Decl.declaredTypes

/-! ## Nodes -/

/-- The declared types among nodes. -/
def specsAmong (nodes : List Node) : List TypeSpec := nodes.filterMap Node.typeSpec?

@[simp] theorem specsAmong_nil : specsAmong [] = [] := rfl

@[simp] theorem specsAmong_append (ms ns : List Node) :
    specsAmong (ms ++ ns) = specsAmong ms ++ specsAmong ns := List.filterMap_append

@[simp] theorem specsAmong_typeSpec (spec : TypeSpec) (ns : List Node) :
    specsAmong (.typeSpec spec :: ns) = spec :: specsAmong ns := rfl

@[simp] theorem specsAmong_decl (d : Decl) (ns : List Node) :
    specsAmong (.decl d :: ns) = specsAmong ns := rfl

@[simp] theorem specsAmong_func (f : FuncDecl) (ns : List Node) :
    specsAmong (.func f :: ns) = specsAmong ns := rfl

@[simp] theorem specsAmong_block (b : Block) (ns : List Node) :
    specsAmong (.block b :: ns) = specsAmong ns := rfl

@[simp] theorem specsAmong_stmt (s : Stmt) (ns : List Node) :
    specsAmong (.stmt s :: ns) = specsAmong ns := rfl

@[simp] theorem specsAmong_type (t : TypeExpr) (ns : List Node) :
    specsAmong (.type t :: ns) = specsAmong ns := rfl

@[simp] theorem specsAmong_field (f : Field) (ns : List Node) :
    specsAmong (.field f :: ns) = specsAmong ns := rfl

mutual

/-- No type is declared below a type. -/
@[simp] theorem specsAmong_typeNodes : ∀ t : TypeExpr, specsAmong t.nodes = []
  | .qualified package _ => by simp [TypeExpr.nodes, specsAmong_typeNodes package]
  | .array _ elem => by simp [TypeExpr.nodes, specsAmong_typeNodes elem]
  | .pointer elem => by simp [TypeExpr.nodes, specsAmong_typeNodes elem]
  | .paren elem => by simp [TypeExpr.nodes, specsAmong_typeNodes elem]
  | .map key value => by
      simp [TypeExpr.nodes, specsAmong_typeNodes key, specsAmong_typeNodes value]
  | .chan _ value => by simp [TypeExpr.nodes, specsAmong_typeNodes value]
  | .generic base args => by
      simp [TypeExpr.nodes, specsAmong_typeNodes base, specsAmong_typesNodes args]
  | .func params results => by
      simp [TypeExpr.nodes, specsAmong_paramsNodes params, specsAmong_paramsNodes results]
  | .struct (some fields) => by simp [TypeExpr.nodes, specsAmong_fieldsNodes fields]
  | .struct none => rfl
  | .named _ => rfl
  | .interface _ => rfl
  | .other _ => rfl

theorem specsAmong_typesNodes : ∀ ts : List TypeExpr, specsAmong (typesNodes ts) = []
  | [] => rfl
  | t :: rest => by simp [typesNodes, specsAmong_typeNodes t, specsAmong_typesNodes rest]

theorem specsAmong_paramsNodes : ∀ ps : List Param, specsAmong (paramsNodes ps) = []
  | [] => rfl
  | ⟨t, _⟩ :: rest => by simp [paramsNodes, specsAmong_typeNodes t, specsAmong_paramsNodes rest]

theorem specsAmong_fieldsNodes : ∀ fs : List Field, specsAmong (fieldsNodes fs) = []
  | [] => rfl
  | ⟨_, t, _⟩ :: rest => by simp [fieldsNodes, specsAmong_typeNodes t, specsAmong_fieldsNodes rest]

end

/-- Among the nodes of declared types are just these. -/
@[simp] theorem specsAmong_specs (specs : List TypeSpec) :
    specsAmong (specs.flatMap TypeSpec.nodes) = specs := by
  induction specs with
  | nil => rfl
  | cons spec rest ih =>
      rw [List.flatMap_cons, specsAmong_append, ih, TypeSpec.nodes, specsAmong_typeSpec,
        specsAmong_typeNodes, List.singleton_append]

mutual

/-- The declared types among the nodes of a declaration. -/
theorem specsAmong_declNodes : ∀ d : Decl, specsAmong d.nodes = d.declaredTypes
  | .types specs => by simp [Decl.nodes, Decl.declaredTypes]
  | .values specs => by simp [Decl.nodes, Decl.declaredTypes, specsAmong_valuesNodes specs]
  | .func f => by simp [Decl.nodes, Decl.declaredTypes, specsAmong_funcNodes f]
  | .imports _ => rfl
  | .bad => rfl

theorem specsAmong_valuesNodes : ∀ vs : List ValueSpec,
    specsAmong (valuesNodes vs) = valuesDeclaredTypes vs
  | [] => rfl
  | ⟨_, some t, values⟩ :: rest => by
      simp [valuesNodes, valuesDeclaredTypes, specsAmong_stmtsNodes values,
        specsAmong_valuesNodes rest]
  | ⟨_, none, values⟩ :: rest => by
      simp [valuesNodes, valuesDeclaredTypes, specsAmong_stmtsNodes values,
        specsAmong_valuesNodes rest]

theorem specsAmong_funcNodes : ∀ f : FuncDecl, specsAmong f.nodes = f.declaredTypes
  | ⟨_, some t, some body⟩ => by
      simp [FuncDecl.nodes, FuncDecl.declaredTypes, specsAmong_blockNodes body]
  | ⟨_, some t, none⟩ => by simp [FuncDecl.nodes, FuncDecl.declaredTypes]
  | ⟨_, none, some body⟩ => by
      simp [FuncDecl.nodes, FuncDecl.declaredTypes, specsAmong_blockNodes body]
  | ⟨_, none, none⟩ => by simp [FuncDecl.nodes, FuncDecl.declaredTypes]

theorem specsAmong_blockNodes : ∀ b : Block, specsAmong b.nodes = b.declaredTypes
  | ⟨stmts⟩ => by simp [Block.nodes, Block.declaredTypes, specsAmong_stmtsNodes stmts]

theorem specsAmong_stmtNodes : ∀ s : Stmt, specsAmong s.nodes = s.declaredTypes
  | .decl d => by simp [Stmt.nodes, Stmt.declaredTypes, specsAmong_declNodes d]
  | .block b => by simp [Stmt.nodes, Stmt.declaredTypes, specsAmong_blockNodes b]
  | .compound _ children => by
      simp [Stmt.nodes, Stmt.declaredTypes, specsAmong_stmtsNodes children]
  | .other _ => rfl

theorem specsAmong_stmtsNodes : ∀ ss : List Stmt,
    specsAmong (stmtsNodes ss) = stmtsDeclaredTypes ss
  | [] => rfl
  | s :: rest => by
      simp [stmtsNodes, stmtsDeclaredTypes, specsAmong_stmtNodes s, specsAmong_stmtsNodes rest]

end

/-- **The nodes of a file and its declarations** agree on the declared types and their order. -/
theorem SourceFile.typeSpecs_eq (file : SourceFile) : file.typeSpecs = file.declaredTypes := by
  have hdecls : ∀ decls : List Decl,
      specsAmong (decls.flatMap Decl.nodes) = decls.flatMap Decl.declaredTypes := by
    intro decls
    induction decls with
    | nil => rfl
    | cons d rest ih =>
        rw [List.flatMap_cons, specsAmong_append, specsAmong_declNodes, ih, List.flatMap_cons]
  exact hdecls file.decls

/-! ## The struct that is found -/

/-- A declared type that has a name and is a struct. -/
def TypeSpec.IsStructNamed (target : String) (spec : TypeSpec) : Prop :=
  spec.name = target ∧ ∃ body, spec.type = .struct body

/-- The search passes over what is no struct with the name. -/
theorem TypeSpec.structNamed_eq_none {target : String} {spec : TypeSpec} :
    spec.structNamed target = none ↔ ¬ spec.IsStructNamed target := by
  rw [Option.eq_none_iff_forall_ne_some]
  constructor
  · rintro h ⟨hname, body, htype⟩
    exact h body (TypeSpec.structNamed_eq_some.mpr ⟨hname, htype⟩)
  · intro h body hbody
    obtain ⟨hname, htype⟩ := TypeSpec.structNamed_eq_some.mp hbody
    exact h ⟨hname, body, htype⟩

/-- **The first struct declared under a name is found**, and the search fails for this name just
    where the file declares no struct under it. What stands before the first one may have the name
    as long as it is no struct, and what stands behind it does not matter. -/
theorem SourceFile.findStruct_first (file : SourceFile) (target : String) :
    (∀ body, file.findStruct target = .ok body ↔
      ∃ before spec after, file.declaredTypes = before ++ spec :: after ∧
        spec.name = target ∧ spec.type = .struct body ∧
        ∀ earlier ∈ before, ¬ earlier.IsStructNamed target) ∧
    (∀ error, file.findStruct target = .error error ↔
      error = .notFound target ∧
        ∀ spec ∈ file.declaredTypes, ¬ spec.IsStructNamed target) := by
  rw [file.findStruct_eq, file.typeSpecs_eq]
  cases hfound : file.declaredTypes.findSome? (·.structNamed target) with
  | some found =>
      obtain ⟨before, spec, after, hlist, hspec, hbefore⟩ := List.findSome?_eq_some_iff.mp hfound
      refine ⟨fun body => ⟨?_, ?_⟩, fun error => ⟨nofun, ?_⟩⟩
      · intro h
        cases h
        obtain ⟨hname, htype⟩ := TypeSpec.structNamed_eq_some.mp hspec
        exact ⟨before, spec, after, hlist, hname, htype,
          fun earlier hmem => TypeSpec.structNamed_eq_none.mp (hbefore earlier hmem)⟩
      · rintro ⟨before', spec', after', hlist', hname', htype', hbefore'⟩
        have hfound' : file.declaredTypes.findSome? (·.structNamed target) = some body :=
          List.findSome?_eq_some_iff.mpr ⟨before', spec', after', hlist',
            TypeSpec.structNamed_eq_some.mpr ⟨hname', htype'⟩,
            fun earlier hmem => TypeSpec.structNamed_eq_none.mpr (hbefore' earlier hmem)⟩
        rw [Option.some.inj (hfound.symm.trans hfound')]
      · rintro ⟨-, hnone⟩
        have hmem : spec ∈ file.declaredTypes := by simp [hlist]
        have hskip := TypeSpec.structNamed_eq_none.mpr (hnone spec hmem)
        rw [hspec] at hskip
        cases hskip
  | none =>
      have hnone : ∀ spec ∈ file.declaredTypes, ¬ spec.IsStructNamed target := fun spec hmem =>
        TypeSpec.structNamed_eq_none.mp (List.findSome?_eq_none_iff.mp hfound spec hmem)
      refine ⟨fun body => ⟨nofun, ?_⟩, fun error => ⟨?_, ?_⟩⟩
      · rintro ⟨before, spec, after, hlist, hname, htype, -⟩
        have hmem : spec ∈ file.declaredTypes := by simp [hlist]
        exact absurd ⟨hname, body, htype⟩ (hnone spec hmem)
      · intro h
        cases h
        exact ⟨rfl, hnone⟩
      · rintro ⟨rfl, -⟩
        rfl

end FluentBuilder.Go
