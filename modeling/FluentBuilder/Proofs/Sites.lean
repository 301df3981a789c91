import FluentBuilder.Proofs.Shape

/-!
# Sites — where types are declared in a syntax tree

A path leads down a syntax tree, one `Step` for each node that is left. `Tree.At` says what stands
at its end, and `Tree.sites` lists the declared types of a tree with their paths, leaving out what
is below given steps.

* **`Tree.mem_sites`** — the list holds just the declared types at the ends of paths without such
  steps.
* **`Tree.sites_ordered`** — the list has the order of the source.
-/

namespace FluentBuilder.Go

/-- A step from a node of a kind to a child: the index of the child and its role. -/
structure Step where
  kind  : Kind
  index : Nat
  role  : Option Role
  deriving DecidableEq, Repr

/-- The tree at the end of a path down a tree. -/
inductive Tree.At : Tree → List Step → Tree → Prop where
  | here (t : Tree) : t.At [] t
  | step {kind : Kind} {parts : List Part} {i : Nat} {role : Option Role} {child t : Tree}
      {path : List Step} (hchild : parts[i]? = some ⟨role, child⟩) (hpath : child.At path t) :
      (Tree.node kind parts).At (⟨kind, i, role⟩ :: path) t

/-- What a path leads to in a shaped tree is shaped. -/
theorem Tree.At.shaped {t u : Tree} {path : List Step} (h : t.At path u) (ht : t.Shaped) :
    u.Shaped := by
  induction h with
  | here => exact ht
  | step hchild _ ih => exact ih (partsShaped_iff.mp ht.2 _ (List.mem_of_getElem? hchild))

/-- The declared type that a tree is. -/
def Tree.typeSpec? : Tree → Option TypeSpec
  | .node .typeSpec parts => some (typeSpecOf false parts)
  | .node .typeAlias parts => some (typeSpecOf true parts)
  | _ => none

/-- Only a node of a declared type is one. -/
theorem Tree.typeSpec?_node {kind : Kind} {parts : List Part} (h : kind.declaresType = false) :
    (Tree.node kind parts).typeSpec? = none := by
  unfold Tree.typeSpec?
  split
  case h_1 heq => cases heq; cases h
  case h_2 heq => cases heq; cases h
  case h_3 => rfl

/-- A tree that is a declared type. -/
theorem Tree.typeSpec?_eq_some {t : Tree} {spec : TypeSpec} (h : t.typeSpec? = some spec) :
    ∃ kind parts isAlias, t = .node kind parts ∧ kind.declaresType = true ∧
      spec = typeSpecOf isAlias parts := by
  unfold Tree.typeSpec? at h
  split at h <;> cases h
  · exact ⟨_, _, false, rfl, rfl, rfl⟩
  · exact ⟨_, _, true, rfl, rfl, rfl⟩

/-- A declared type and the path that leads to it. -/
structure Site where
  path : List Step
  spec : TypeSpec

/-- A site seen from a node above. -/
def Site.below (step : Step) (site : Site) : Site := ⟨step :: site.path, site.spec⟩

/-- One path leads to an earlier place of a source text than another one, or to a node above. -/
def Site.Before (a b : Site) : Prop := a.path.map (·.index) < b.path.map (·.index)

section

variable (skip : Step → Bool)

mutual

/-- The declared types of a tree, itself included, that are not below a step to be skipped. -/
def Tree.sites : Tree → List Site
  | .node kind parts =>
    ((Tree.node kind parts).typeSpec?.toList.map fun spec => ⟨[], spec⟩) ++ sitesFrom kind 0 parts
  | _ => []

/-- The declared types below children, the first of which has an index. -/
def sitesFrom (kind : Kind) (index : Nat) : List Part → List Site
  | [] => []
  | ⟨role, t⟩ :: rest =>
    (if skip ⟨kind, index, role⟩ then [] else t.sites.map (.below ⟨kind, index, role⟩)) ++
      sitesFrom kind (index + 1) rest

end

variable {skip}

/-- The declared types below children are those of each child. -/
theorem mem_sitesFrom {kind : Kind} {parts : List Part} {index : Nat} {site : Site} :
    site ∈ sitesFrom skip kind index parts ↔
      ∃ i role child inner, parts[i]? = some ⟨role, child⟩ ∧
        skip ⟨kind, index + i, role⟩ = false ∧ inner ∈ child.sites skip ∧
        site = inner.below ⟨kind, index + i, role⟩ := by
  induction parts generalizing index with
  | nil => simp [sitesFrom]
  | cons part rest ih =>
      obtain ⟨role, t⟩ := part
      have hshift : ∀ i, index + 1 + i = index + (i + 1) := fun i => by omega
      simp only [sitesFrom, List.mem_append, ih, hshift]
      constructor
      · rintro (hfirst | ⟨i, role', child, inner, hchild, hskip, hinner, rfl⟩)
        · split at hfirst
          case isTrue => cases hfirst
          case isFalse hskip =>
            obtain ⟨inner, hinner, rfl⟩ := List.mem_map.mp hfirst
            exact ⟨0, role, t, inner, rfl, by simpa using hskip, hinner, rfl⟩
        · exact ⟨i + 1, role', child, inner, hchild, hskip, hinner, rfl⟩
      · rintro ⟨i, role', child, inner, hchild, hskip, hinner, rfl⟩
        cases i with
        | zero =>
            cases hchild
            left
            rw [if_neg (by simpa using hskip)]
            exact List.mem_map_of_mem hinner
        | succ i => exact .inr ⟨i, role', child, inner, hchild, hskip, hinner, rfl⟩

mutual

/-- **The sites of a tree** are the declared types at the ends of the paths that take no step to
    be skipped. -/
theorem Tree.mem_sites : ∀ {t : Tree} {site : Site}, site ∈ t.sites skip ↔
    (∃ u, t.At site.path u ∧ u.typeSpec? = some site.spec) ∧
      ∀ step ∈ site.path, skip step = false
  | .token gap text, ⟨path, spec⟩ => by
      refine ⟨nofun, ?_⟩
      rintro ⟨⟨u, hat, hspec⟩, -⟩
      cases hat with
      | here => cases hspec
  | .leaf kind gap text, ⟨path, spec⟩ => by
      refine ⟨nofun, ?_⟩
      rintro ⟨⟨u, hat, hspec⟩, -⟩
      cases hat with
      | here => cases hspec
  | .node kind parts, ⟨path, spec⟩ => by
      rw [Tree.sites, List.mem_append, mem_sitesFrom]
      constructor
      · rintro (hself | ⟨i, role, child, inner, hchild, hskip, hinner, heq⟩)
        · obtain ⟨spec', hspec', heq⟩ := List.mem_map.mp hself
          cases heq
          exact ⟨⟨_, .here _, Option.mem_toList.mp hspec'⟩, List.forall_mem_nil _⟩
        · cases heq
          obtain ⟨⟨u, hat, hspec⟩, hsteps⟩ := (partSites hchild).mp hinner
          rw [Nat.zero_add] at hskip ⊢
          exact ⟨⟨u, .step hchild hat, hspec⟩, List.forall_mem_cons.mpr ⟨hskip, hsteps⟩⟩
      · rintro ⟨⟨u, hat, hspec⟩, hsteps⟩
        cases hat with
        | here =>
            exact .inl (List.mem_map.mpr ⟨spec, Option.mem_toList.mpr hspec, rfl⟩)
        | @step _ _ i role child _ path hchild hat =>
            rw [List.forall_mem_cons] at hsteps
            refine .inr ⟨i, role, child, ⟨path, spec⟩, hchild, ?_,
              (partSites hchild).mpr ⟨⟨u, hat, hspec⟩, hsteps.2⟩, ?_⟩
            · rw [Nat.zero_add]; exact hsteps.1
            · rw [Nat.zero_add]; rfl

/-- The sites of a child. -/
theorem partSites : ∀ {parts : List Part} {i : Nat} {role : Option Role} {child : Tree},
    parts[i]? = some ⟨role, child⟩ → ∀ {site : Site}, site ∈ child.sites skip ↔
      (∃ u, child.At site.path u ∧ u.typeSpec? = some site.spec) ∧
        ∀ step ∈ site.path, skip step = false
  | [], _, _, _, hchild => nomatch hchild
  | ⟨_, t⟩ :: rest, 0, _, _, hchild => by
      cases hchild
      exact Tree.mem_sites
  | ⟨_, _⟩ :: rest, i + 1, _, _, hchild => partSites (show rest[i]? = _ from hchild)

end

/-- The paths to the sites below children begin with the index of a child. -/
theorem before_of_mem_sitesFrom {kind : Kind} {parts : List Part} {index : Nat} {step : Step}
    {first second : Site} (hsecond : second ∈ sitesFrom skip kind index parts)
    (hindex : step.index < index) : (first.below step).Before second := by
  obtain ⟨i, role, child, inner, -, -, -, rfl⟩ := mem_sitesFrom.mp hsecond
  exact List.cons_lt_cons_iff.mpr (.inl (Nat.lt_add_right i hindex))

mutual

/-- **The sites of a tree are listed in source order**, each at a place of its own. -/
theorem Tree.sites_ordered : ∀ t : Tree, (t.sites skip).Pairwise Site.Before
  | .token _ _ => .nil
  | .leaf _ _ _ => .nil
  | .node kind parts => by
      rw [Tree.sites, List.pairwise_append]
      refine ⟨?_, sitesFrom_ordered kind 0 parts, ?_⟩
      · cases (Tree.node kind parts).typeSpec? with
        | none => exact .nil
        | some spec => exact List.pairwise_singleton _ _
      · intro first hfirst second hsecond
        obtain ⟨spec, -, rfl⟩ := List.mem_map.mp hfirst
        obtain ⟨i, role, child, inner, -, -, -, rfl⟩ := mem_sitesFrom.mp hsecond
        exact List.nil_lt_cons _ _

/-- The sites below children are listed in source order. -/
theorem sitesFrom_ordered (kind : Kind) : ∀ (index : Nat) (parts : List Part),
    (sitesFrom skip kind index parts).Pairwise Site.Before
  | _, [] => .nil
  | index, ⟨role, t⟩ :: rest => by
      rw [sitesFrom, List.pairwise_append]
      refine ⟨?_, sitesFrom_ordered kind (index + 1) rest, ?_⟩
      · split
        · exact .nil
        · rw [List.pairwise_map]
          refine (Tree.sites_ordered t).imp fun hbefore => ?_
          exact List.cons_lt_cons_iff.mpr (.inr ⟨rfl, hbefore⟩)
      · intro first hfirst second hsecond
        split at hfirst
        · cases hfirst
        · obtain ⟨inner, -, rfl⟩ := List.mem_map.mp hfirst
          exact before_of_mem_sitesFrom hsecond (Nat.lt_succ_self index)

end

end

end FluentBuilder.Go
