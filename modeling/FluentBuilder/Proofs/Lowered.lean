import FluentBuilder.Proofs.Location
import FluentBuilder.Proofs.Sites

/-!
# Lowering — statements declare what their trees declare

What a block, a statement or a declaration nests declares the types that stand below its node, at
any depth and in source order. Only what is below the type of a specification is left out.

* **`stmtsOf_specs`**, **`nestedIn_specs`** — the statements of a block, and what is found below
  a statement of another kind.
* **`valueSpecsOf_specs`**, **`initializerOf_specs`** — value specifications and their values.
-/

namespace FluentBuilder.Go

/-! ## Steps -/

/-- Decide whether a kind is that of a specification of variables or constants. -/
def Kind.isValueSpec : Kind → Bool
  | .varSpec | .constSpec => true
  | _ => false

/-- Decide whether the nodes of a kind are specifications that hold types. -/
def Kind.holdsType (kind : Kind) : Bool := kind.declaresType || kind.isValueSpec

/-- Decide whether a step leads from a specification to its type or its type parameters. -/
def Step.entersType (step : Step) : Bool :=
  step.kind.holdsType && (step.role == some .type || step.role == some .typeParameters)

theorem Step.entersType_of_kind {kind : Kind} (h : kind.holdsType = false) (index : Nat)
    (role : Option Role) : Step.entersType ⟨kind, index, role⟩ = false := by
  rw [Step.entersType, h, Bool.false_and]

theorem Kind.holdsType_of_isSpec {kind : Kind} (h : kind.isSpec = false) :
    kind.holdsType = false := by
  revert h
  cases kind <;> decide

theorem Kind.isDeclaration_iff {kind : Kind} : kind.isDeclaration = true ↔
    kind = .typeDeclaration ∨ kind = .varDeclaration ∨ kind = .constDeclaration := by
  cases kind <;> decide

/-- The kind of the specifications in a declaration of variables or constants. -/
def Kind.specKind? : Kind → Option Kind
  | .varDeclaration | .varSpecList => some .varSpec
  | .constDeclaration => some .constSpec
  | _ => none

/-- A declaration of variables or constants holds their specifications, perhaps in a list. -/
theorem Kind.allowsNode_specKind {parent spec child : Kind} {role : Option Role}
    (hparent : parent.specKind? = some spec) (h : parent.allowsNode role child = true) :
    child = spec ∨ child ≠ spec ∧ child.isList = true ∧ child.specKind? = some spec := by
  unfold Kind.specKind? at hparent
  split at hparent <;> cases hparent
  · rcases Bool.or_eq_true_iff.mp h with h | h <;> rw [beq_iff_eq] at h <;> subst h
    · exact .inl rfl
    · exact .inr ⟨nofun, rfl, rfl⟩
  · exact .inl (beq_iff_eq.mp h)
  · exact .inl (beq_iff_eq.mp h)

theorem Kind.isValueSpec_of_specKind {parent spec : Kind} (h : parent.specKind? = some spec) :
    spec.isValueSpec = true ∧ parent.holdsType = false := by
  unfold Kind.specKind? at h
  split at h <;> cases h <;> exact ⟨rfl, rfl⟩

theorem Kind.lastRole_of_isValueSpec {kind : Kind} (h : kind.isValueSpec = true) :
    kind.lastRole? = some .value := by
  revert h
  cases kind <;> decide

/-- A node below a specification of variables or constants is a type or a value. -/
theorem Kind.eq_type_of_allowsNode {kind child : Kind} {role : Option Role}
    (hkind : kind.isValueSpec = true) (h : kind.allowsNode role child = true)
    (hrole : role ≠ some .value) : role = some .type := by
  unfold Kind.isValueSpec at hkind
  split at hkind
  · simpa [Kind.allowsNode, hrole] using And.right (Bool.and_eq_true_iff.mp h)
  · simpa [Kind.allowsNode, hrole] using And.right (Bool.and_eq_true_iff.mp h)
  · cases hkind

theorem Step.entersType_type {kind : Kind} (hkind : kind.isValueSpec = true) (index : Nat) :
    Step.entersType ⟨kind, index, some .type⟩ = true := by
  rw [Step.entersType, Kind.holdsType, hkind, Bool.or_true]
  rfl

/-- The values of a specification are a list of expressions. -/
theorem Kind.eq_expressionList {kind child : Kind} (hkind : kind.isValueSpec = true)
    (h : kind.allowsNode (some .value) child = true) : child = .expressionList := by
  unfold Kind.isValueSpec at hkind
  split at hkind
  · simpa [Kind.allowsNode] using And.right (Bool.and_eq_true_iff.mp h)
  · simpa [Kind.allowsNode] using And.right (Bool.and_eq_true_iff.mp h)
  · cases hkind

/-! ## Children of shaped nodes -/

theorem Tree.Shaped.under {kind : Kind} {parts : List Part} (h : (Tree.node kind parts).Shaped) :
    ∀ part ∈ parts, part.Under kind := fun part hmem =>
  ⟨h.1.allowed part hmem, partsShaped_iff.mp h.2 part hmem⟩

/-- No specification stands below a node that is neither one nor a declaration. -/
theorem Tree.Shaped.fits {kind : Kind} {parts : List Part} (h : (Tree.node kind parts).Shaped)
    (hkind : kind.isPlain = true) : PartsFit .item parts := by
  have hplain : (⟨none, .node kind parts⟩ : Part).Fits .plain :=
    ⟨h, fun kind' parts' heq => by cases heq; exact hkind⟩
  exact hplain.children

theorem Part.Fits.holdsType {role : Option Role} {kind : Kind} {parts : List Part}
    (h : (⟨role, .node kind parts⟩ : Part).Fits .item) : kind.holdsType = false :=
  Kind.holdsType_of_isSpec (Level.isSpec_of_admits (h.2 kind parts rfl))

/-- A statement that is no declaration. -/
theorem Part.Fits.isPlain {role : Option Role} {kind : Kind} {parts : List Part}
    (h : (⟨role, .node kind parts⟩ : Part).Fits .item) (hkind : ¬ kind.isDeclaration = true) :
    kind.isPlain = true := by
  rw [Kind.isPlain, Level.isSpec_of_admits (h.2 kind parts rfl), Bool.eq_false_iff.mpr hkind]
  rfl

/-- A part with the role that is kept for the last one is the last one. -/
theorem EndsIn.eq_nil {role : Role} {t : Tree} {rest : List Part}
    (h : EndsIn role (⟨some role, t⟩ :: rest)) : rest = [] := by
  cases rest with
  | nil => rfl
  | cons next rest => exact absurd (.head _) h

theorem EndsIn.tail {role : Role} {part : Part} {rest : List Part}
    (h : EndsIn role (part :: rest)) : EndsIn role rest := by
  cases rest with
  | nil => exact nofun
  | cons next rest => exact fun hmem => h (.tail _ hmem)

/-! ## Declared types among children -/

/-- The declared types of a tree that are not below the type of a specification in it. -/
def Tree.specs (t : Tree) : List TypeSpec := (t.sites Step.entersType).map (·.spec)

/-- The declared types of children. -/
def specsOf (parts : List Part) : List TypeSpec := parts.flatMap (·.tree.specs)

/-- The declared types of the children of a specification, those below its type left out. -/
def specsBehindType (kind : Kind) (parts : List Part) : List TypeSpec :=
  parts.flatMap fun part => if Step.entersType ⟨kind, 0, part.role⟩ then [] else part.tree.specs

@[simp] theorem Tree.specs_token (gap text : List Char) : (Tree.token gap text).specs = [] := rfl

@[simp] theorem Tree.specs_leaf (kind : Kind) (gap text : List Char) :
    (Tree.leaf kind gap text).specs = [] := rfl

@[simp] theorem specsOf_cons (role : Option Role) (t : Tree) (rest : List Part) :
    specsOf (⟨role, t⟩ :: rest) = t.specs ++ specsOf rest := List.flatMap_cons

/-- Seen from above, a declared type is the same. -/
theorem map_spec_below (step : Step) (sites : List Site) :
    (sites.map (Site.below step)).map (·.spec) = sites.map (·.spec) := by
  rw [List.map_map]
  rfl

theorem sitesFrom_specs (kind : Kind) (index : Nat) (parts : List Part) :
    (sitesFrom Step.entersType kind index parts).map (·.spec) = specsBehindType kind parts := by
  induction parts generalizing index with
  | nil => rfl
  | cons part rest ih =>
      obtain ⟨role, t⟩ := part
      have hstep : Step.entersType ⟨kind, index, role⟩ = Step.entersType ⟨kind, 0, role⟩ := rfl
      rw [sitesFrom, List.map_append, ih, specsBehindType, specsBehindType, List.flatMap_cons,
        hstep]
      split
      · rfl
      · rw [map_spec_below, Tree.specs]

/-- The declared types of a node: itself, if it is one, and those below it. -/
theorem Tree.specs_node (kind : Kind) (parts : List Part) :
    (Tree.node kind parts).specs =
      (Tree.node kind parts).typeSpec?.toList ++ specsBehindType kind parts := by
  rw [Tree.specs, Tree.sites, List.map_append, sitesFrom_specs, List.map_map]
  congr 1
  exact List.map_id _

/-- The declared types of a node that is no specification with a type. -/
theorem Tree.specs_of_kind {kind : Kind} (h : kind.holdsType = false) (parts : List Part) :
    (Tree.node kind parts).specs = specsOf parts := by
  have hdeclares : kind.declaresType = false := (Bool.or_eq_false_iff.mp h).1
  rw [Tree.specs_node, Tree.typeSpec?_node hdeclares, specsBehindType, specsOf]
  simp only [Step.entersType_of_kind h]
  rfl

/-- The declared types of a specification of variables or constants. -/
theorem Tree.specs_valueSpec {kind : Kind} (h : kind.isValueSpec = true) (parts : List Part) :
    (Tree.node kind parts).specs = specsBehindType kind parts := by
  have hdeclares : kind.declaresType = false := by
    revert h
    cases kind <;> decide
  rw [Tree.specs_node, Tree.typeSpec?_node hdeclares]
  rfl

/-- A declared type is the only one of its node: all else stands below its type. -/
theorem Tree.Shaped.specs_typeSpec {kind : Kind} {parts : List Part}
    (h : (Tree.node kind parts).Shaped) (hkind : kind.declaresType = true) :
    (Tree.node kind parts).specs = (Tree.node kind parts).typeSpec?.toList := by
  rw [Tree.specs_node, List.append_right_eq_self, specsBehindType, List.flatMap_eq_nil_iff]
  -- A node below a declared type is its type or its type parameters.
  intro part hmem
  have hallowed := h.1.allowed part hmem
  obtain ⟨role, t⟩ := part
  cases t with
  | token gap text => exact ite_self _
  | leaf k gap text => exact ite_self _
  | node child ps =>
      have hstep : Step.entersType ⟨kind, 0, role⟩ = true := by
        have hrole : (role == some .type || role == some .typeParameters) = true := by
          unfold Kind.declaresType at hkind
          split at hkind
          · exact (Bool.and_eq_true_iff.mp hallowed).2
          · exact (Bool.and_eq_true_iff.mp hallowed).2
          · cases hkind
        rw [Step.entersType, Kind.holdsType, hkind, hrole]
        rfl
      exact if_pos hstep

/-! ## Lowering -/

theorem stmtsDeclaredTypes_append (a b : List Stmt) :
    stmtsDeclaredTypes (a ++ b) = stmtsDeclaredTypes a ++ stmtsDeclaredTypes b := by
  induction a with
  | nil => rfl
  | cons s a ih => simp only [List.cons_append, stmtsDeclaredTypes, ih, List.append_assoc]

@[simp] theorem stmtsDeclaredTypes_singleton (s : Stmt) :
    stmtsDeclaredTypes [s] = s.declaredTypes := List.append_nil _

theorem valuesDeclaredTypes_append (a b : List ValueSpec) :
    valuesDeclaredTypes (a ++ b) = valuesDeclaredTypes a ++ valuesDeclaredTypes b := by
  induction a with
  | nil => rfl
  | cons v a ih =>
      obtain ⟨names, type, values⟩ := v
      simp only [List.cons_append, valuesDeclaredTypes, ih, List.append_assoc]

/-- A statement declares what it nests. -/
theorem compoundOf_declaredTypes (kind : Kind) (nested : List Stmt) :
    (compoundOf kind nested).declaredTypes = stmtsDeclaredTypes nested := by
  cases nested <;> rfl

/-- The declared types of a type declaration. -/
theorem typeSpecsOf_specs {parts : List Part}
    (h : ∀ part ∈ parts, part.Under .typeDeclaration) : typeSpecsOf parts = specsOf parts := by
  induction parts with
  | nil => rfl
  | cons part rest ih =>
      obtain ⟨role, t⟩ := part
      rw [List.forall_mem_cons] at h
      obtain ⟨⟨hallowed, ht⟩, hrest⟩ := h
      rw [specsOf_cons, ← ih hrest]
      cases t with
      | token gap text => rfl
      | leaf kind gap text => rfl
      | node kind ps =>
          have hkind : kind.declaresType = true := hallowed
          rw [ht.specs_typeSpec hkind]
          unfold Kind.declaresType at hkind
          split at hkind
          · rfl
          · rfl
          · cases hkind

/-- The declared types of a declaration, given those of its values. -/
theorem declWith_specs {kind : Kind} {parts : List Part} {values : Kind → List ValueSpec}
    {body : Unit → Option Block} (hkind : kind.isDeclaration = true)
    (h : ∀ part ∈ parts, part.Under kind)
    (hvalues : ∀ spec, kind.specKind? = some spec →
      valuesDeclaredTypes (values spec) = specsOf parts) :
    (declWith kind parts values body).declaredTypes = specsOf parts := by
  unfold Kind.isDeclaration at hkind
  split at hkind
  · exact typeSpecsOf_specs h
  · exact hvalues .varSpec rfl
  · exact hvalues .constSpec rfl
  · cases hkind

theorem initializerOf_cons {role : Option Role} {t : Tree} {rest : List Part}
    (h : role ≠ some .value) : initializerOf (⟨role, t⟩ :: rest) = initializerOf rest := by
  rw [initializerOf]
  · intro kind parts heq
    cases heq
    exact h rfl
  · intro t' heq
    cases heq
    exact h rfl

/-- What stands below a value specification and in front of its values declares nothing that is
    not below its type. -/
theorem specsBehindType_cons {kind : Kind} {role : Option Role} {t : Tree} {rest : List Part}
    (hkind : kind.isValueSpec = true) (hrole : role ≠ some .value)
    (h : (⟨role, t⟩ : Part).Under kind) :
    specsBehindType kind (⟨role, t⟩ :: rest) = specsBehindType kind rest := by
  rw [specsBehindType, List.flatMap_cons]
  suffices hnone : (if Step.entersType ⟨kind, 0, role⟩ then [] else t.specs) = [] by
    rw [hnone]
    rfl
  cases t with
  | token gap text => exact ite_self _
  | leaf k gap text => exact ite_self _
  | node child ps =>
      obtain rfl := Kind.eq_type_of_allowsNode hkind h.1 hrole
      exact if_pos (Step.entersType_type hkind 0)

mutual

/-- The value specifications in a declaration declare what stands below it. -/
theorem valueSpecsOf_specs {parent spec : Kind} (hparent : parent.specKind? = some spec) :
    ∀ parts : List Part, (∀ part ∈ parts, part.Under parent) →
      valuesDeclaredTypes (valueSpecsOf spec parts) = specsOf parts
  | [], _ => by rw [valueSpecsOf]; rfl
  | ⟨_, .token _ _⟩ :: rest, h => by
      rw [valueSpecsOf, valueSpecsOf_specs hparent rest (List.forall_mem_cons.mp h).2]
      · rfl
      · intro role kind parts heq
        cases heq
  | ⟨_, .leaf _ _ _⟩ :: rest, h => by
      rw [valueSpecsOf, valueSpecsOf_specs hparent rest (List.forall_mem_cons.mp h).2]
      · rfl
      · intro role kind parts heq
        cases heq
  | ⟨_, .node child parts⟩ :: rest, h => by
      obtain ⟨⟨hallowed, hshaped⟩, hrest⟩ := List.forall_mem_cons.mp h
      rw [valueSpecsOf, valuesDeclaredTypes_append, valueSpecsOf_specs hparent rest hrest,
        specsOf_cons]
      congr 1
      rcases Kind.allowsNode_specKind hparent hallowed with rfl | ⟨hne, hlist, hchild⟩
      · obtain ⟨hvalue, -⟩ := Kind.isValueSpec_of_specKind hparent
        rw [if_pos (beq_self_eq_true _), valuesDeclaredTypes, valuesDeclaredTypes, List.append_nil,
          Tree.specs_valueSpec hvalue]
        exact initializerOf_specs hvalue parts hshaped.under
          (hshaped.1.last .value (Kind.lastRole_of_isValueSpec hvalue))
      · rw [if_neg (by simpa using hne), if_pos hlist,
          Tree.specs_of_kind (Kind.isValueSpec_of_specKind hchild).2]
        exact valueSpecsOf_specs hchild parts hshaped.under

/-- The values of a specification declare what stands below it and not below its type. -/
theorem initializerOf_specs {kind : Kind} (hkind : kind.isValueSpec = true) :
    ∀ parts : List Part, (∀ part ∈ parts, part.Under kind) → EndsIn .value parts →
      stmtsDeclaredTypes (initializerOf parts) = specsBehindType kind parts
  | [], _, _ => by rw [initializerOf]; rfl
  | ⟨role, t⟩ :: rest, h, hends => by
      obtain ⟨hpart, hrest⟩ := List.forall_mem_cons.mp h
      by_cases hrole : role = some .value
      · subst hrole
        obtain rfl := hends.eq_nil
        cases t with
        | token gap text => simp [initializerOf, specsBehindType, stmtsDeclaredTypes]
        | leaf k gap text => simp [initializerOf, specsBehindType, stmtsDeclaredTypes]
        | node child parts =>
            obtain rfl := Kind.eq_expressionList hkind hpart.1
            have hstep : Step.entersType ⟨kind, 0, some .value⟩ = false := Bool.and_false _
            rw [initializerOf, nestedIn_specs parts (hpart.2.fits rfl), specsBehindType]
            simp only [List.flatMap_cons, List.flatMap_nil, List.append_nil, hstep]
            exact (Tree.specs_of_kind rfl parts).symm
      · rw [initializerOf_cons hrole, specsBehindType_cons hkind hrole hpart]
        exact initializerOf_specs hkind rest hrest hends.tail

/-- The statements of a block declare what stands below it. -/
theorem stmtsOf_specs : ∀ parts : List Part, PartsFit .item parts →
    stmtsDeclaredTypes (stmtsOf parts) = specsOf parts
  | [], _ => by rw [stmtsOf]; rfl
  | ⟨_, .token _ _⟩ :: rest, h => by
      rw [stmtsOf, stmtsOf_specs rest (List.forall_mem_cons.mp h).2]
      rfl
  | ⟨_, .leaf _ _ _⟩ :: rest, h => by
      rw [stmtsOf, stmtsDeclaredTypes, stmtsOf_specs rest (List.forall_mem_cons.mp h).2]
      rfl
  | ⟨_, .node kind parts⟩ :: rest, h => by
      obtain ⟨hpart, hrest⟩ := List.forall_mem_cons.mp h
      rw [stmtsOf, stmtsDeclaredTypes_append, stmtsOf_specs rest hrest, specsOf_cons,
        Tree.specs_of_kind hpart.holdsType]
      congr 1
      split
      case isTrue hlist =>
        obtain rfl := beq_iff_eq.mp hlist
        exact stmtsOf_specs parts (hpart.1.fits rfl)
      case isFalse =>
        split
        case isTrue hblock =>
          obtain rfl := beq_iff_eq.mp hblock
          rw [stmtsDeclaredTypes_singleton]
          exact stmtsOf_specs parts (hpart.1.fits rfl)
        case isFalse =>
          split
          case isTrue hdecl =>
            rw [stmtsDeclaredTypes_singleton]
            exact declWith_specs hdecl hpart.1.under fun spec hspec =>
              valueSpecsOf_specs hspec parts hpart.1.under
          case isFalse hdecl =>
            rw [stmtsDeclaredTypes_singleton, compoundOf_declaredTypes]
            exact nestedIn_specs parts (hpart.1.fits (hpart.isPlain hdecl))

/-- The blocks and declarations below a node declare what stands below it. -/
theorem nestedIn_specs : ∀ parts : List Part, PartsFit .item parts →
    stmtsDeclaredTypes (nestedIn parts) = specsOf parts
  | [], _ => by rw [nestedIn]; rfl
  | ⟨_, .token _ _⟩ :: rest, h => by
      rw [nestedIn, nestedIn_specs rest (List.forall_mem_cons.mp h).2]
      · rfl
      · intro role kind parts heq
        cases heq
  | ⟨_, .leaf _ _ _⟩ :: rest, h => by
      rw [nestedIn, nestedIn_specs rest (List.forall_mem_cons.mp h).2]
      · rfl
      · intro role kind parts heq
        cases heq
  | ⟨_, .node kind parts⟩ :: rest, h => by
      obtain ⟨hpart, hrest⟩ := List.forall_mem_cons.mp h
      rw [nestedIn, stmtsDeclaredTypes_append, nestedIn_specs rest hrest, specsOf_cons,
        Tree.specs_of_kind hpart.holdsType]
      congr 1
      split
      case isTrue hblock =>
        obtain rfl := beq_iff_eq.mp hblock
        rw [stmtsDeclaredTypes_singleton]
        exact stmtsOf_specs parts (hpart.1.fits rfl)
      case isFalse =>
        split
        case isTrue hdecl =>
          rw [stmtsDeclaredTypes_singleton]
          exact declWith_specs hdecl hpart.1.under fun spec hspec =>
            valueSpecsOf_specs hspec parts hpart.1.under
        case isFalse hdecl => exact nestedIn_specs parts (hpart.1.fits (hpart.isPlain hdecl))

end

end FluentBuilder.Go
