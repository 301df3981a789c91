import FluentBuilder.Builder
import FluentBuilder.Go.Source
import FluentBuilder.Proofs.Declared
import FluentBuilder.Proofs.Lowered

/-!
# Source files — which declared types of a syntax tree a walk comes by

The source file of a tree keeps the declared types in the type declarations, the function bodies
and the initializers at its top, at any depth. It looks through expressions, and through the types
in them, but not into the type of a specification.

* **`SourceFile.met_sites`** — a walk comes by just these declared types, in source order, and
  `met_below_type` shows that some of them stand below a type.
* **`SourceFile.isWord_of_generate`** — a builder is only generated for a name that is a word.
-/

namespace FluentBuilder.Go

/-! ## The top of a file -/

/-- Decide whether a path down a file leads into a type declaration at its top, into the body of
a function or a method there, or into an initializer of variables or constants there. -/
def reaches : List Step → Bool
  | _ :: top :: path =>
    top.kind == .typeDeclaration ||
    top.kind.isFunction && top.role == some .body ||
    (top.kind == .varDeclaration || top.kind == .constDeclaration) &&
      path.any fun step => step.kind.isValueSpec && step.role == some .value
  | _ => false

/-- A path to a declared type begins at a node. -/
theorem Tree.At.exists_node {t u : Tree} {path : List Step} (h : t.At path u) {spec : TypeSpec}
    (hspec : u.typeSpec? = some spec) : ∃ kind parts, t = .node kind parts := by
  cases h with
  | here =>
      obtain ⟨kind, parts, -, rfl, -⟩ := Tree.typeSpec?_eq_some hspec
      exact ⟨kind, parts, rfl⟩
  | @step kind parts => exact ⟨kind, parts, rfl⟩

/-- A path from a declaration of variables or constants to a declared type leads through an
    initializer unless it leads through a type. -/
theorem Tree.At.throughValue {t u : Tree} {path : List Step} (h : t.At path u) (ht : t.Shaped)
    (hsteps : ∀ step ∈ path, step.entersType = false) {spec : TypeSpec}
    (hspec : u.typeSpec? = some spec) {kind : Kind} {parts : List Part}
    (hnode : t = .node kind parts) (hkind : kind.specKind?.isSome ∨ kind.isValueSpec = true) :
    (path.any fun step => step.kind.isValueSpec && step.role == some .value) = true := by
  induction h generalizing kind parts with
  | here =>
      obtain ⟨kind', parts', -, rfl, hdeclares, -⟩ := Tree.typeSpec?_eq_some hspec
      cases hnode
      revert hkind hdeclares
      cases kind <;> simp [Kind.declaresType, Kind.specKind?, Kind.isValueSpec]
  | @step top _ i role child _ path hchild hat ih =>
      cases hnode
      rw [List.forall_mem_cons] at hsteps
      have hmem := List.mem_of_getElem? hchild
      obtain ⟨child, ps, rfl⟩ := hat.exists_node hspec
      have hallowed : top.allowsNode role child = true := ht.1.allowed _ hmem
      rw [List.any_cons, Bool.or_eq_true_iff]
      rcases hkind with hkind | hkind
      · obtain ⟨held, hheld⟩ := Option.isSome_iff_exists.mp hkind
        refine .inr (ih (partsShaped_iff.mp ht.2 _ hmem) hsteps.2 hspec rfl ?_)
        rcases Kind.allowsNode_specKind hheld hallowed with rfl | ⟨-, -, hlist⟩
        · exact .inr (Kind.isValueSpec_of_specKind hheld).1
        · exact .inl (Option.isSome_iff_exists.mpr ⟨held, hlist⟩)
      · left
        by_cases hrole : role = some .value
        · rw [hkind, hrole]
          rfl
        · obtain rfl := Kind.eq_type_of_allowsNode hkind hallowed hrole
          exact absurd (Step.entersType_type hkind i) (Bool.eq_false_iff.mp hsteps.1)

/-- The declared types of a tree at the top of a file. -/
def topSpecs (t : Tree) : List TypeSpec :=
  if t.kind? = some .packageClause then [] else t.toDecl.declaredTypes

/-- The declarations of a file declare what its trees do. -/
theorem declsOf_specs (t : Tree) :
    (declsOf t.named).flatMap Decl.declaredTypes = t.parts.flatMap (topSpecs ·.tree) := by
  rw [Tree.named, declsOf]
  induction t.parts with
  | nil => rfl
  | cons part rest ih =>
      obtain ⟨role, t⟩ := part
      rw [List.flatMap_cons, ← ih, topSpecs]
      cases t with
      | token gap text => rfl
      | leaf kind gap text =>
          by_cases hkind : kind = .packageClause <;> simp [Tree.kind?, hkind]
      | node kind parts =>
          by_cases hkind : kind = .packageClause <;> simp [Tree.kind?, hkind]

/-- The sites of a tree at the top of a file that a path from the file reaches. -/
def topSites (first : Step) (t : Tree) : List Site :=
  (t.sites Step.entersType).filter fun site => reaches (first :: site.path)

/-- A declared type below a node at the top of a file. -/
theorem path_of_mem_sites {kind : Kind} {parts : List Part} (hkind : kind.declaresType = false)
    {site : Site} (h : site ∈ (Tree.node kind parts).sites Step.entersType) :
    ∃ index role path, site.path = ⟨kind, index, role⟩ :: path := by
  rw [Tree.sites, Tree.typeSpec?_node hkind] at h
  obtain ⟨i, role, child, inner, -, -, -, rfl⟩ := mem_sitesFrom.mp h
  exact ⟨_, role, inner.path, rfl⟩

theorem reaches_function {kind : Kind} (hkind : kind.isFunction = true) (first : Step)
    (index : Nat) (role : Option Role) (path : List Step) :
    reaches (first :: ⟨kind, index, role⟩ :: path) = (role == some .body) := by
  rcases Kind.isFunction_iff.mp hkind with rfl | rfl <;> exact Bool.or_false _

theorem bodyOf_cons {role : Option Role} {t : Tree} {rest : List Part}
    (h : role ≠ some .body) : bodyOf (⟨role, t⟩ :: rest) = bodyOf rest := by
  rw [bodyOf]
  intro kind parts heq
  cases heq
  exact h rfl

/-- The declared types of a function at the top of a file are those in its body. -/
theorem bodyOf_specs {kind : Kind} (hkind : kind.isFunction = true) (first : Step) :
    ∀ (index : Nat) (parts : List Part), (∀ part ∈ parts, part.Under kind) → EndsIn .body parts →
      ((sitesFrom Step.entersType kind index parts).filter
        fun site => reaches (first :: site.path)).map (·.spec) =
        ((bodyOf parts).map Block.declaredTypes).getD []
  | _, [], _, _ => by
      rw [bodyOf]
      rfl
  | index, ⟨role, t⟩ :: rest, h, hends => by
      have hholds : kind.holdsType = false := by
        rcases Kind.isFunction_iff.mp hkind with rfl | rfl <;> rfl
      obtain ⟨hpart, hrest⟩ := List.forall_mem_cons.mp h
      rw [sitesFrom, Step.entersType_of_kind hholds, if_neg Bool.false_ne_true, List.filter_append,
        List.map_append, List.filter_map]
      simp only [Function.comp_def, Site.below, reaches_function hkind]
      by_cases hrole : role = some .body
      -- The body is the last child, so nothing behind it is lost by looking no further.
      · subst hrole
        obtain rfl := hends.eq_nil
        simp only [beq_self_eq_true, List.filter_true, sitesFrom, List.filter_nil, List.map_nil,
          List.append_nil, map_spec_below]
        cases t with
        | token gap text => simp [bodyOf, Tree.sites]
        | leaf k gap text => simp [bodyOf, Tree.sites]
        | node child parts =>
            have hblock : child = .block := by
              have hallowed : kind.allowsNode (some .body) child = true := hpart.1
              rcases Kind.isFunction_iff.mp hkind with rfl | rfl <;>
                simpa [Kind.allowsNode] using And.right (Bool.and_eq_true_iff.mp hallowed)
            subst hblock
            rw [bodyOf]
            exact (Tree.specs_of_kind rfl parts).trans (stmtsOf_specs parts (hpart.2.fits rfl)).symm
      · have hne : (role == some .body) = false := beq_false_of_ne hrole
        rw [bodyOf_cons hrole, ← bodyOf_specs hkind first (index + 1) rest hrest hends.tail, hne]
        simp

/-- A declared type in a declaration at the top of a file is in a type declaration or in an
    initializer. -/
theorem reaches_of_isDeclaration {kind : Kind} {parts : List Part}
    (h : (Tree.node kind parts).Shaped) (hkind : kind.isDeclaration = true) (first : Step)
    {site : Site} (hsite : site ∈ (Tree.node kind parts).sites Step.entersType) :
    reaches (first :: site.path) = true := by
  have hcases := Kind.isDeclaration_iff.mp hkind
  have hdeclares : kind.declaresType = false := by
    rcases hcases with rfl | rfl | rfl <;> rfl
  obtain ⟨index, role, path, hpath⟩ := path_of_mem_sites hdeclares hsite
  obtain ⟨⟨u, hat, hspec⟩, hsteps⟩ := Tree.mem_sites.mp hsite
  rcases hcases with rfl | hvalue
  · rw [hpath]
    rfl
  · have hthrough := hat.throughValue h hsteps hspec rfl
      (.inl (by rcases hvalue with rfl | rfl <;> rfl))
    rw [hpath, List.any_cons] at hthrough
    rw [hpath]
    rcases hvalue with rfl | rfl <;> exact hthrough

/-- A path from the top of a file leads into no other nodes. -/
theorem not_reaches {kind : Kind} (hdecl : ¬ kind.isDeclaration = true)
    (hfunction : ¬ kind.isFunction = true) (first : Step) (index : Nat) (role : Option Role)
    (path : List Step) : reaches (first :: ⟨kind, index, role⟩ :: path) = false := by
  rw [Kind.isDeclaration_iff, not_or, not_or] at hdecl
  simp [reaches, hdecl, hfunction]

/-- **The declarations at the top of a file declare what a path reaches** from there. -/
theorem topSites_specs {role : Option Role} {t : Tree} (h : (⟨role, t⟩ : Part).Fits .item)
    (first : Step) : (topSites first t).map (·.spec) = topSpecs t := by
  cases t with
  | token gap text => rfl
  | leaf kind gap text =>
      rw [topSpecs]
      split <;> rfl
  | node kind parts =>
      have hdeclares : kind.declaresType = false := (Bool.or_eq_false_iff.mp h.holdsType).1
      by_cases hdecl : kind.isDeclaration = true
      -- Whatever stands in a declaration is in reach.
      · have hclause : ¬ some kind = some .packageClause := by rintro ⟨⟩; cases hdecl
        rw [topSites, List.filter_eq_self.mpr fun site => reaches_of_isDeclaration h.1 hdecl first,
          topSpecs, Tree.kind?, if_neg hclause, Tree.toDecl, declWith_specs hdecl h.1.under]
        · exact Tree.specs_of_kind h.holdsType parts
        · exact fun spec hspec => valueSpecsOf_specs hspec parts h.1.under
      · by_cases hfunction : kind.isFunction = true
        · have hclause : ¬ some kind = some .packageClause := by rintro ⟨⟩; cases hfunction
          have hlast : kind.lastRole? = some .body := by
            rcases Kind.isFunction_iff.mp hfunction with rfl | rfl <;> rfl
          rw [topSpecs, Tree.kind?, if_neg hclause, topSites, Tree.sites,
            Tree.typeSpec?_node hdeclares]
          refine (bodyOf_specs hfunction first 0 parts h.1.under (h.1.1.last .body hlast)).trans ?_
          rcases Kind.isFunction_iff.mp hfunction with rfl | rfl <;>
            cases hbody : bodyOf parts <;>
            simp [Tree.toDecl, declWith, Decl.declaredTypes, FuncDecl.declaredTypes, hbody]
        · have hnone : topSites first (.node kind parts) = [] := by
            refine List.filter_eq_nil_iff.mpr fun site hsite => ?_
            obtain ⟨index, role, path, hpath⟩ := path_of_mem_sites hdeclares hsite
            rw [hpath, not_reaches hdecl hfunction]
            exact Bool.false_ne_true
          rw [hnone, topSpecs]
          split
          · rfl
          · rw [Tree.toDecl]
            unfold declWith
            split
            case h_1 => rfl
            case h_2 | h_3 | h_4 => exact absurd rfl hdecl
            case h_5 | h_6 => exact absurd rfl hfunction
            case h_7 => rfl

/-! ## What a walk comes by -/

/-- A visitor that goes on everywhere and keeps the declared types that it is shown. -/
def collectSpecs (node : Node) (found : List TypeSpec) : Flow (List TypeSpec) :=
  .next (found ++ node.typeSpec?.toList)

/-- The declared types that a walk over a file comes by, in this order. -/
def SourceFile.met (file : SourceFile) : List TypeSpec :=
  (walk collectSpecs (.file file) []).state

theorem visitAll_collectSpecs (nodes : List Node) (found : List TypeSpec) :
    visitAll collectSpecs nodes found = .next (found ++ specsAmong nodes) := by
  rw [specsAmong, List.filterMap_eq_flatMap_toList]
  exact visitAll_gather _ nodes found

theorem SourceFile.met_eq (file : SourceFile) : file.met = file.declaredTypes := by
  rw [SourceFile.met, walk_eq_visitAll, visitAll_collectSpecs, ← file.typeSpecs_eq]
  rfl

/-- The sites in a file that a walk over it comes by. -/
def Tree.metSites (t : Tree) : List Site :=
  (t.sites Step.entersType).filter fun site => reaches site.path

/-- The declarations of a file declare what stands at the sites in it. -/
theorem metSites_specs {kind : Kind} (hkind : kind.holdsType = false) (index : Nat)
    {parts : List Part} (h : PartsFit .item parts) :
    ((sitesFrom Step.entersType kind index parts).filter fun site => reaches site.path).map
      (·.spec) = parts.flatMap (topSpecs ·.tree) := by
  induction parts generalizing index with
  | nil => rfl
  | cons part rest ih =>
      obtain ⟨role, t⟩ := part
      rw [sitesFrom, Step.entersType_of_kind hkind, if_neg Bool.false_ne_true, List.filter_append,
        List.map_append, ih (index + 1) (List.forall_mem_cons.mp h).2, List.flatMap_cons,
        ← topSites_specs (List.forall_mem_cons.mp h).1 ⟨kind, index, role⟩, List.filter_map,
        map_spec_below]
      rfl

/-- What a source text is parsed to. -/
theorem SourceFile.parse_eq_ok {name source : String} {file : SourceFile}
    (h : SourceFile.parse name source = .ok file) :
    ∃ parts, readTree source = some (.node .sourceFile parts) ∧
      (Tree.node .sourceFile parts).Shaped ∧
      packageOf (Tree.node .sourceFile parts).named = some file.package ∧
      file.decls = declsOf (Tree.node .sourceFile parts).named := by
  unfold SourceFile.parse at h
  cases htree : readTree source with
  | none => rw [htree] at h; cases h
  | some t =>
      obtain ⟨parts, rfl⟩ := readTree_isNode htree
      simp only [htree] at h
      cases hfile : (Tree.node .sourceFile parts).toFile? with
      | none => rw [hfile] at h; cases h
      | some file' =>
          rw [hfile] at h
          cases h
          obtain ⟨package, hpackage, rfl⟩ := Option.map_eq_some_iff.mp hfile
          exact ⟨parts, rfl, readTree_shaped htree, hpackage, rfl⟩

/-- What a walk over a parsed file comes by stands at the sites in its tree. -/
theorem SourceFile.met_of_parse {name source : String} {file : SourceFile}
    (h : SourceFile.parse name source = .ok file) :
    ∃ t, readTree source = some t ∧ t.Shaped ∧ file.met = t.metSites.map (·.spec) := by
  obtain ⟨parts, htree, hshaped, -, hdecls⟩ := SourceFile.parse_eq_ok h
  refine ⟨_, htree, hshaped, ?_⟩
  rw [file.met_eq, SourceFile.declaredTypes, hdecls, declsOf_specs]
  exact (metSites_specs rfl 0 (hshaped.fits rfl)).symm

/-- **A walk over a parsed file comes by each declared type in reach once, in source order.** In
    reach are the types declared in the type declarations at the top of the file and, at any
    depth, in the bodies of functions and methods and in initializers there, unless they are below
    the type or the type parameters of a specification. -/
theorem SourceFile.met_sites {name source : String} {file : SourceFile}
    (h : SourceFile.parse name source = .ok file) :
    ∃ (t : Tree) (sites : List Site), readTree source = some t ∧
      file.met = sites.map (·.spec) ∧
      sites.Pairwise Site.Before ∧
      ∀ site : Site, site ∈ sites ↔
        (∃ u, t.At site.path u ∧ u.typeSpec? = some site.spec) ∧
        reaches site.path = true ∧ ∀ step ∈ site.path, step.entersType = false := by
  obtain ⟨t, htree, -, hmet⟩ := SourceFile.met_of_parse h
  refine ⟨t, t.metSites, htree, hmet, (Tree.sites_ordered t).filter _, fun site => ?_⟩
  rw [Tree.metSites, List.mem_filter, Tree.mem_sites, and_assoc, and_comm (a := ∀ _ ∈ _, _)]

/-- The hypothesis of `met_sites` is met by a type in the body of a function and one behind it. -/
theorem SourceFile.met_sites_nested : ∃ file,
    SourceFile.parse "a.go" "package p;func f(){{type A int}};type B int;" = .ok file ∧
    ∃ (t : Tree) (sites : List Site), file.met = sites.map (·.spec) ∧
      sites.Pairwise Site.Before ∧
      ∀ site : Site, site ∈ sites ↔
        (∃ u, t.At site.path u ∧ u.typeSpec? = some site.spec) ∧
        reaches site.path = true ∧ ∀ step ∈ site.path, step.entersType = false := by
  have hok : (SourceFile.parse "a.go" "package p;func f(){{type A int}};type B int;").isOk = true := by
    decide +kernel
  cases hparse : SourceFile.parse "a.go" "package p;func f(){{type A int}};type B int;" with
  | error e => rw [hparse] at hok; cases hok
  | ok file =>
      obtain ⟨t, sites, -, hsites⟩ := SourceFile.met_sites hparse
      exact ⟨file, rfl, t, sites, hsites⟩

/-- Decide whether a kind is that of a type expression. -/
def Kind.isType : Kind → Bool
  | .arrayType | .channelType | .functionType | .genericType | .implicitLengthArrayType
  | .interfaceType | .mapType | .negatedType | .parenthesizedType | .pointerType
  | .qualifiedType | .sliceType | .structType | .typeElem => true
  | _ => false

/-- **Types declared below a type are met as well**, unless it is that of a specification: a
    declared type in the length of an array in an initializer is. -/
theorem SourceFile.met_below_type :
    ¬ ∀ (name source : String) (file : SourceFile), SourceFile.parse name source = .ok file →
      ∃ (t : Tree) (sites : List Site), readTree source = some t ∧
        file.met = sites.map (·.spec) ∧
        sites.Pairwise Site.Before ∧
        ∀ site : Site, site ∈ sites ↔
          (∃ u, t.At site.path u ∧ u.typeSpec? = some site.spec) ∧
          reaches site.path = true ∧ ∀ step ∈ site.path, step.kind.isType = false := by
  intro h
  let source := "package p;var v=[func(){type T struct{}}]T{};"
  have hnone : ((readTree source).map fun t => (t.sites (·.kind.isType)).isEmpty) = some true := by
    decide +kernel
  have hsome : ((SourceFile.parse "a.go" source).toOption.map fun file => file.met.isEmpty) =
      some false := by
    decide +kernel
  cases hparse : SourceFile.parse "a.go" source with
  | error e => rw [hparse] at hsome; cases hsome
  | ok file =>
      obtain ⟨t, sites, htree, hmet, -, hsites⟩ := h "a.go" source file hparse
      have hnosites : t.sites (·.kind.isType) = [] := by
        rw [htree] at hnone
        simpa using hnone
      have hempty : sites = [] := by
        refine List.eq_nil_iff_forall_not_mem.mpr fun site hsite => ?_
        obtain ⟨hat, -, hsteps⟩ := (hsites site).mp hsite
        have hmem : site ∈ t.sites (·.kind.isType) := Tree.mem_sites.mpr ⟨hat, hsteps⟩
        rw [hnosites] at hmem
        cases hmem
      rw [hparse] at hsome
      rw [hempty] at hmet
      simp [Except.toOption, hmet] at hsome

/-- A declared type of a source text is that of a node of its tree. -/
theorem SourceFile.typeSpec_of_parse {name source : String} {file : SourceFile}
    (h : SourceFile.parse name source = .ok file) {spec : TypeSpec}
    (hspec : spec ∈ file.typeSpecs) : ∃ kind parts isAlias, (Tree.node kind parts).Shaped ∧
      kind.declaresType = true ∧ spec = typeSpecOf isAlias parts := by
  obtain ⟨t, -, hshaped, hmet⟩ := SourceFile.met_of_parse h
  rw [file.typeSpecs_eq, ← file.met_eq, hmet] at hspec
  obtain ⟨site, hsite, rfl⟩ := List.mem_map.mp hspec
  obtain ⟨⟨u, hat, hu⟩, -⟩ := Tree.mem_sites.mp (List.mem_filter.mp hsite).1
  obtain ⟨kind, parts, isAlias, rfl, hkind, hspec⟩ := Tree.typeSpec?_eq_some hu
  exact ⟨kind, parts, isAlias, hat.shaped hshaped, hkind, hspec⟩

/-- **The declared types of a source text have words as names.** -/
theorem SourceFile.isWord_of_parse {name source : String} {file : SourceFile}
    (h : SourceFile.parse name source = .ok file) :
    ∀ spec ∈ file.typeSpecs, IsWord spec.name.toList := by
  intro spec hspec
  obtain ⟨kind, parts, isAlias, hshaped, hkind, rfl⟩ := SourceFile.typeSpec_of_parse h hspec
  obtain ⟨gap, text, rest, rfl, hword⟩ := hshaped.1.named.typeName hkind
  have hname : (typeSpecOf isAlias (⟨some .name, .leaf .typeIdentifier gap text⟩ :: rest)).name =
      String.ofList text := by
    simp [typeSpecOf, textOf, textsOf, Tree.text, Tree.chars, Tree.leaves]
  rw [hname, String.toList_ofList]
  exact hword

/-- What the blueprint of a builder is made from. -/
theorem SourceFile.blueprint_eq_ok {file : SourceFile} {target : String} {blueprint : Blueprint}
    (h : file.blueprint target = .ok blueprint) : ∃ body members,
      file.findStruct target = .ok body ∧ body.members = .ok members ∧
      blueprint = ⟨file.package, target, members⟩ := by
  unfold SourceFile.blueprint at h
  cases hfind : file.findStruct target with
  | error e => rw [hfind] at h; cases h
  | ok body =>
      rw [hfind] at h
      dsimp only at h
      cases hmembers : body.members with
      | error e => rw [hmembers] at h; cases h
      | ok members =>
          rw [hmembers] at h
          cases h
          exact ⟨body, members, rfl, hmembers, rfl⟩

/-- What a builder is generated from. -/
theorem SourceFile.generate_eq_ok {file : SourceFile} {target text : String}
    (h : file.generate target = .ok text) :
    ∃ blueprint, file.blueprint target = .ok blueprint ∧ blueprint.render = .ok text := by
  unfold SourceFile.generate at h
  cases hblueprint : file.blueprint target with
  | error e => rw [hblueprint] at h; cases h
  | ok blueprint =>
      rw [hblueprint] at h
      dsimp only at h
      cases hrender : blueprint.render with
      | error e => rw [hrender] at h; cases h
      | ok other =>
          rw [hrender] at h
          cases h
          exact ⟨blueprint, rfl, hrender⟩

/-- **A builder is only generated for a name that is a word.** -/
theorem SourceFile.isWord_of_generate {name source target text : String} {file : SourceFile}
    (hparse : SourceFile.parse name source = .ok file) (h : file.generate target = .ok text) :
    IsWord target.toList := by
  obtain ⟨blueprint, hblueprint, -⟩ := SourceFile.generate_eq_ok h
  obtain ⟨body, members, hfind, -⟩ := SourceFile.blueprint_eq_ok hblueprint
  obtain ⟨spec, hspec, rfl, -⟩ := SourceFile.findStruct_eq_ok hfind
  exact SourceFile.isWord_of_parse hparse spec hspec

end FluentBuilder.Go
