import Mathlib.Data.List.Infix
import FluentBuilder.Proofs.Words

/-!
# Shape — where specifications stand in a syntax tree

The specifications of a declaration, such as the declared types of a `type` declaration, stand in
it and nowhere else, and a declaration holds nothing but its specifications. `Tree.Shaped` says so
of a tree, together with what stands below a specification or a function: types under roles of
their own, and at most one initializer or body, which comes last.

A property of the children that a rule reads is stated with `Rule.Each`. Every combinator keeps
such a property, whichever it is, so there is one lemma for each combinator, called as the
combinator is.

* **`Kind.Holds`** — what may stand below a node of a kind.
* **`Part.Fits`** — children that may stand below nodes of most kinds.
* **`Rule.Each.node`**, **`Rule.Each.nodeUnder`** — a rule that reads nodes of a kind.
* **`splitArguments_shaped`** — types may be taken off the end of a shaped tree.
-/

namespace FluentBuilder.Go

/-! ## Kinds -/

/-- Decide whether a kind is that of a specification, or of a list of them, in a declaration. -/
def Kind.isSpec : Kind → Bool
  | .typeSpec | .typeAlias | .varSpec | .varSpecList | .constSpec => true
  | _ => false

/-- Decide whether a kind is neither that of a specification nor that of a declaration. -/
def Kind.isPlain (kind : Kind) : Bool := !kind.isSpec && !kind.isDeclaration

/-- Decide whether a node with a role may stand below a node of a kind. -/
def Kind.allowsNode (kind : Kind) (role : Option Role) (child : Kind) : Bool :=
  match kind with
  | .typeDeclaration => child.declaresType
  | .varDeclaration => child == .varSpec || child == .varSpecList
  | .varSpecList => child == .varSpec
  | .constDeclaration => child == .constSpec
  | .typeSpec | .typeAlias =>
    child.isPlain && (role == some .type || role == some .typeParameters)
  | .varSpec | .constSpec =>
    child.isPlain && (role == some .type || role == some .value && child == .expressionList)
  | .functionDeclaration | .methodDeclaration =>
    child.isPlain && (role != some .body || child == .block)
  | .genericType => child.isPlain
  | _ => !child.isSpec

/-- Decide whether a part may stand below a node of a kind; tokens and leaves may stand anywhere. -/
def Kind.allows (kind : Kind) : Part → Bool
  | ⟨role, .node child _⟩ => kind.allowsNode role child
  | _ => true

/-- Decide whether a kind is that of a function or a method at the top of a file. -/
def Kind.isFunction : Kind → Bool
  | .functionDeclaration | .methodDeclaration => true
  | _ => false

theorem Kind.isFunction_iff {kind : Kind} :
    kind.isFunction = true ↔ kind = .functionDeclaration ∨ kind = .methodDeclaration := by
  cases kind <;> decide

/-- The role that only the last child of a node of a kind has, where there is such a role. -/
def Kind.lastRole? : Kind → Option Role
  | .varSpec | .constSpec => some .value
  | .functionDeclaration | .methodDeclaration => some .body
  | _ => none

/-- Only the last of several children may have a role. -/
def EndsIn (role : Role) (parts : List Part) : Prop :=
  some role ∉ (parts.map (·.role)).dropLast

/-- What may stand below a node of a kind. -/
structure Kind.Holds (kind : Kind) (parts : List Part) : Prop where
  allowed : ∀ part ∈ parts, kind.allows part = true
  last    : ∀ role, kind.lastRole? = some role → EndsIn role parts
  named   : kind.Admits parts

mutual

/-- Every node of a tree has children that may stand below it. -/
def Tree.Shaped : Tree → Prop
  | .node kind parts => kind.Holds parts ∧ PartsShaped parts
  | _ => True

/-- Every node below children has children that may stand below it. -/
def PartsShaped : List Part → Prop
  | [] => True
  | ⟨_, t⟩ :: rest => t.Shaped ∧ PartsShaped rest

end

/-- Children are shaped one by one. -/
theorem partsShaped_iff {parts : List Part} :
    PartsShaped parts ↔ ∀ part ∈ parts, part.tree.Shaped := by
  induction parts with
  | nil => simp [PartsShaped]
  | cons part rest ih =>
      obtain ⟨role, t⟩ := part
      rw [PartsShaped, List.forall_mem_cons, ih]

/-! ## Parts -/

/-- A part that may stand below a node of a kind. -/
def Part.Under (kind : Kind) (part : Part) : Prop := kind.allows part = true ∧ part.tree.Shaped

/-- Which children are meant: those of expressions and types, or those of statement lists, among
which there may be declarations too. -/
inductive Level where
  | plain
  | item

/-- Decide whether a node of a kind may be a child of a level. -/
def Level.admits : Level → Kind → Bool
  | .plain, kind => kind.isPlain
  | .item, kind => !kind.isSpec

/-- A part that may stand below nodes of most kinds. -/
def Part.Fits (level : Level) (part : Part) : Prop :=
  part.tree.Shaped ∧ ∀ kind parts, part.tree = .node kind parts → level.admits kind = true

/-- Parts that may stand below nodes of most kinds. -/
def PartsFit (level : Level) (parts : List Part) : Prop := ∀ part ∈ parts, part.Fits level

/-- A plain kind is no specification. -/
theorem Kind.isSpec_of_isPlain {kind : Kind} (h : kind.isPlain = true) : kind.isSpec = false := by
  simp only [Kind.isPlain, Bool.and_eq_true, Bool.not_eq_true'] at h
  exact h.1

/-- What may stand in an expression may stand in a list of statements. -/
theorem Level.admits_of_isPlain {level : Level} {kind : Kind} (h : kind.isPlain = true) :
    level.admits kind = true := by
  cases level with
  | plain => exact h
  | item => rw [Level.admits, Kind.isSpec_of_isPlain h]; rfl

theorem Level.isSpec_of_admits {level : Level} {kind : Kind} (h : level.admits kind = true) :
    kind.isSpec = false := by
  cases level with
  | plain => exact Kind.isSpec_of_isPlain h
  | item => simpa using (show (!kind.isSpec) = true from h)

theorem Part.Fits.raise {level : Level} {part : Part} (h : part.Fits .plain) : part.Fits level :=
  ⟨h.1, fun kind parts heq => Level.admits_of_isPlain (h.2 kind parts heq)⟩

theorem PartsFit.raise {level : Level} {parts : List Part} (h : PartsFit .plain parts) :
    PartsFit level parts := fun part hmem => (h part hmem).raise

theorem PartsFit.append {level : Level} {a b : List Part} (ha : PartsFit level a)
    (hb : PartsFit level b) : PartsFit level (a ++ b) := fun part hmem =>
  (List.mem_append.mp hmem).elim (ha part) (hb part)

/-- Decide whether any child of a list of statements may stand below a node of a kind. -/
def Kind.isCommon (kind : Kind) : Bool :=
  kind.isPlain && kind.lastRole?.isNone && kind != .genericType

/-- Decide whether a node of such a kind gives no names either. -/
def Kind.isNameless (kind : Kind) : Bool := kind.isCommon && !kind.givesNames

/-- A child of a list of statements may stand below nodes of most kinds. -/
theorem Part.Fits.under {kind : Kind} {part : Part} (hkind : kind.isCommon = true)
    (h : part.Fits .item) : part.Under kind := by
  refine ⟨?_, h.1⟩
  obtain ⟨role, t⟩ := part
  cases t with
  | token gap text => rfl
  | leaf k gap text => rfl
  | node child ps =>
      have hchild : (!child.isSpec) = true := h.2 child ps rfl
      rw [Kind.allows]
      unfold Kind.allowsNode
      split <;> first | exact hchild | exact nomatch hkind

/-- A child of a generic type is part of no list of statements. -/
theorem Part.Fits.underGeneric {part : Part} (h : part.Fits .plain) : part.Under .genericType := by
  refine ⟨?_, h.1⟩
  obtain ⟨role, t⟩ := part
  cases t with
  | token gap text => rfl
  | leaf k gap text => rfl
  | node child ps => exact h.2 child ps rfl

/-- What stands below a node that is no declaration or specification is no specification. -/
theorem Kind.isSpec_of_allowsNode {kind child : Kind} {role : Option Role}
    (hkind : kind.isPlain = true) (h : kind.allowsNode role child = true) :
    child.isSpec = false := by
  unfold Kind.allowsNode at h
  split at h
  case h_12 => simpa using h
  all_goals first
    | exact absurd hkind (by decide)
    | exact Kind.isSpec_of_isPlain h
    | exact Kind.isSpec_of_isPlain (Bool.and_eq_true_iff.mp h).1

/-- The children of a node that is no declaration or specification. -/
theorem Part.Fits.children {part : Part} (h : part.Fits .plain) :
    PartsFit .item part.tree.parts := by
  obtain ⟨role, t⟩ := part
  cases t with
  | token gap text => exact nofun
  | leaf k gap text => exact nofun
  | node kind parts =>
      obtain ⟨hholds, hparts⟩ := h.1
      intro part hmem
      refine ⟨partsShaped_iff.mp hparts part hmem, fun child ps heq => ?_⟩
      have hallowed := hholds.allowed part hmem
      obtain ⟨role', t⟩ := part
      obtain rfl : t = .node child ps := heq
      rw [Level.admits, Kind.isSpec_of_allowsNode (h.2 kind parts rfl) hallowed]
      rfl

/-! ## Rules -/

/-- Every child that a rule reads has a property. -/
def Rule.Each (ok : Part → Prop) (rule : Rule) : Prop :=
  ∀ s parts rest, rule.read s = some (parts, rest) → ∀ part ∈ parts, ok part

/-- A rule whose children may stand below nodes of most kinds. -/
abbrev Rule.Fits (level : Level) (rule : Rule) : Prop := rule.Each (Part.Fits level)

/-- A property of children that tokens and leaves have. -/
class Lexical (ok : Part → Prop) : Prop where
  token : ∀ gap text, ok ⟨none, .token gap text⟩
  leaf  : ∀ kind gap text, ok ⟨none, .leaf kind gap text⟩

instance (level : Level) : Lexical (Part.Fits level) :=
  ⟨fun _ _ => ⟨trivial, nofun⟩, fun _ _ _ => ⟨trivial, nofun⟩⟩

instance (kind : Kind) : Lexical (Part.Under kind) :=
  ⟨fun _ _ => ⟨rfl, trivial⟩, fun _ _ _ => ⟨rfl, trivial⟩⟩

/-- A part that may stand below a node of a kind and in front of its last child. -/
def Part.Before (kind : Kind) (part : Part) : Prop :=
  part.Under kind ∧ ∀ role, kind.lastRole? = some role → part.role ≠ some role

instance (kind : Kind) : Lexical (Part.Before kind) :=
  ⟨fun _ _ => ⟨⟨rfl, trivial⟩, fun _ _ => nofun⟩, fun _ _ _ => ⟨⟨rfl, trivial⟩, fun _ _ => nofun⟩⟩

/-- A part that is no node. -/
def Part.IsLexeme (part : Part) : Prop := ∀ kind parts, part.tree ≠ .node kind parts

instance : Lexical Part.IsLexeme := ⟨fun _ _ => nofun, fun _ _ _ => nofun⟩

/-- A rule that reads a node of a kind. -/
def Rule.IsNode (kind : Kind) (rule : Rule) : Prop :=
  ∀ s parts rest, rule.read s = some (parts, rest) → ∃ ps, parts = [⟨none, .node kind ps⟩]

/-- What two rules behind each other read. -/
theorem Rule.read_append {first second : Rule} {s rest : List Char} {parts : List Part}
    (h : (first ++ second).read s = some (parts, rest)) :
    ∃ a middle b, first.read s = some (a, middle) ∧ second.read middle = some (b, rest) ∧
      parts = a ++ b := by
  replace h : (Rule.append first second).read s = some (parts, rest) := h
  simp only [Rule.append] at h
  cases ha : first.read s with
  | none => simp [ha] at h
  | some a =>
      cases hb : second.read a.2 with
      | none => simp [ha, hb] at h
      | some b =>
          simp only [ha, hb, Option.some.injEq, Prod.mk.injEq] at h
          exact ⟨a.1, a.2, b.1, rfl, by rw [hb, ← h.2], h.1.symm⟩

/-- What a rule that depends on another one reads. -/
theorem Rule.read_andThen {rule : Rule} {next : List Part → Rule} {s rest : List Char}
    {parts : List Part} (h : (rule.andThen next).read s = some (parts, rest)) :
    ∃ a middle, rule.read s = some (a, middle) ∧ (next a).read middle = some (parts, rest) := by
  simp only [Rule.andThen] at h
  cases ha : rule.read s with
  | none => rw [ha] at h; cases h
  | some a => rw [ha] at h; exact ⟨a.1, a.2, rfl, h⟩

/-- What a rule with an alternative reads. -/
theorem Rule.read_orElse {first second : Rule} {s rest : List Char} {parts : List Part}
    (h : (first <|> second).read s = some (parts, rest)) :
    first.read s = some (parts, rest) ∨ second.read s = some (parts, rest) := by
  simp only [HOrElse.hOrElse, OrElse.orElse] at h
  cases ha : first.read s with
  | some a =>
      rw [ha] at h
      exact .inl h
  | none =>
      rw [ha] at h
      exact .inr h

/-- What a rule for a node reads. -/
theorem Rule.read_node {rule : Rule} {kind : Kind} {s rest : List Char} {parts : List Part}
    (h : (rule.node kind).read s = some (parts, rest)) :
    ∃ ps, parts = [⟨none, .node kind ps⟩] ∧ rule.read s = some (ps, rest) := by
  obtain ⟨ps, middle, hps, hyield⟩ := Rule.read_andThen h
  cases hyield
  exact ⟨ps, rfl, hps⟩

theorem Rule.isNode_node {rule : Rule} {kind : Kind} : (rule.node kind).IsNode kind := by
  intro s parts rest h
  obtain ⟨ps, hparts, -⟩ := Rule.read_node h
  exact ⟨ps, hparts⟩

/-- What a rule for names reads. -/
theorem Rule.read_name {kind : Kind} {keywords : List String} {s rest : List Char}
    {parts : List Part} (h : (Rule.name kind keywords).read s = some (parts, rest)) :
    ∃ gap text, parts = [⟨none, .leaf kind gap text⟩] ∧ IsWord text := by
  simp only [Rule.name, Rule.scanLeaf, Option.map_eq_some_iff, Prod.mk.injEq] at h
  obtain ⟨⟨text, left⟩, hscan, rfl, -⟩ := h
  refine ⟨_, text, rfl, ?_⟩
  unfold Rule.wordThat at hscan
  split at hscan
  case h_1 => cases hscan
  case h_2 hword =>
    split at hscan <;> cases hscan
    exact word_isWord hword

/-- What a rule for a keyword reads. -/
theorem Rule.read_keyword {text : String} {s rest : List Char} {parts : List Part}
    (h : (Rule.keyword text).read s = some (parts, rest)) :
    ∃ gap word, parts = [⟨none, .token gap word⟩] := by
  simp only [Rule.keyword, Rule.scanToken, Option.map_eq_some_iff, Prod.mk.injEq] at h
  obtain ⟨found, -, rfl, -⟩ := h
  exact ⟨_, _, rfl⟩

/-- A rule for the children of a node whose names are words. -/
def Rule.Admitted (kind : Kind) (rule : Rule) : Prop :=
  ∀ s parts rest, rule.read s = some (parts, rest) → kind.Admits parts

theorem Rule.Admitted.nameless {kind : Kind} {rule : Rule} (h : kind.givesNames = false) :
    rule.Admitted kind := fun _ parts _ _ => Kind.admits_of_nameless h parts

/-- A rule that reads the name of a declared type first. -/
def Rule.NamesFirst (rule : Rule) : Prop :=
  ∀ s parts rest, rule.read s = some (parts, rest) → ∃ gap text others,
    parts = ⟨some .name, .leaf .typeIdentifier gap text⟩ :: others ∧ IsWord text

theorem Rule.NamesFirst.name {keywords : List String} :
    ((Rule.name .typeIdentifier keywords).as .name).NamesFirst := by
  intro s parts rest h
  obtain ⟨ps, middle, hps, hyield⟩ := Rule.read_andThen h
  obtain ⟨gap, text, rfl, hword⟩ := Rule.read_name hps
  cases hyield
  exact ⟨gap, text, [], rfl, hword⟩

theorem Rule.NamesFirst.append {first second : Rule} (h : first.NamesFirst) :
    (first ++ second).NamesFirst := by
  intro s parts rest hread
  obtain ⟨a, middle, b, ha, -, rfl⟩ := Rule.read_append hread
  obtain ⟨gap, text, others, rfl, hword⟩ := h s a middle ha
  exact ⟨gap, text, others ++ b, rfl, hword⟩

theorem Rule.NamesFirst.admitted {kind : Kind} {rule : Rule} (h : rule.NamesFirst)
    (hkind : kind = .typeSpec ∨ kind = .typeAlias) : rule.Admitted kind := by
  refine fun s parts rest hread => ⟨fun _ => h s parts rest hread, ?_, ?_⟩
  all_goals
    rintro rfl
    rcases hkind with hkind | hkind <;> cases hkind

/-- A rule for the children of a node: only the last one has the role that the kind keeps for it. -/
structure Rule.Fills (kind : Kind) (rule : Rule) : Prop where
  under : rule.Each (Part.Under kind)
  last  : ∀ s parts rest, rule.read s = some (parts, rest) →
    ∀ role, kind.lastRole? = some role → EndsIn role parts

namespace Rule.Each

variable {ok : Part → Prop} {first second rule : Rule} {next : List Part → Rule}

theorem nothing : Rule.nothing.Each ok := by
  intro s parts rest h
  cases h
  exact nofun

theorem never : Rule.never.Each ok := nofun

theorem append (h₁ : first.Each ok) (h₂ : second.Each ok) : (first ++ second).Each ok := by
  intro s parts rest h part hmem
  obtain ⟨a, middle, b, ha, hb, rfl⟩ := Rule.read_append h
  rcases List.mem_append.mp hmem with hmem | hmem
  · exact h₁ s a middle ha part hmem
  · exact h₂ middle b rest hb part hmem

theorem orElse (h₁ : first.Each ok) (h₂ : second.Each ok) : (first <|> second).Each ok := by
  intro s parts rest h
  rcases Rule.read_orElse h with h | h
  · exact h₁ s parts rest h
  · exact h₂ s parts rest h

theorem ite {c : Prop} [Decidable c] (h₁ : first.Each ok) (h₂ : second.Each ok) :
    (if c then first else second).Each ok := by
  split
  · exact h₁
  · exact h₂

theorem opt (h : rule.Each ok) : rule.opt.Each ok := h.orElse nothing

/-- What a repeated rule reads. -/
theorem repeatFrom (h : rule.Each ok) (bound s : List Char) :
    ∀ part ∈ (rule.repeatFrom bound s).1, ok part := by
  induction bound generalizing s with
  | nil => exact nofun
  | cons b bound ih =>
      simp only [Rule.repeatFrom]
      cases ha : rule.read s with
      | none => exact nofun
      | some a =>
          intro part hmem
          rcases List.mem_append.mp hmem with hmem | hmem
          · exact h s a.1 a.2 ha part hmem
          · exact ih a.2 part hmem

theorem many (h : rule.Each ok) : rule.many.Each ok := by
  intro s parts rest hs
  have := h.repeatFrom s s
  rw [Option.some.inj hs] at this
  exact this

theorem sepBy (h₁ : first.Each ok) (h₂ : second.Each ok) : (first.sepBy second).Each ok :=
  h₁.append (h₂.append h₁).many

theorem andThen {ok' : Part → Prop} (h : rule.Each ok')
    (hnext : ∀ parts, (∀ part ∈ parts, ok' part) → (next parts).Each ok) :
    (rule.andThen next).Each ok := by
  intro s parts rest hs
  obtain ⟨a, middle, ha, hb⟩ := Rule.read_andThen hs
  exact hnext a (h s a middle ha) middle parts rest hb

theorem yield {parts : List Part} (h : ∀ part ∈ parts, ok part) : (Rule.yield parts).Each ok := by
  intro s parts' rest hs
  cases hs
  exact h

/-- Children that are given a role. -/
theorem asRole {ok' : Part → Prop} {role : Role} (h : rule.Each ok')
    (hrole : ∀ part, ok' part → ok ⟨some role, part.tree⟩) : (rule.as role).Each ok := by
  refine h.andThen fun parts hparts => yield fun part hmem => ?_
  obtain ⟨part, hpart, rfl⟩ := List.mem_map.mp hmem
  exact hrole part (hparts part hpart)

/-- A role does not matter for most properties. -/
theorem as {level : Level} {role : Role} (h : rule.Each (Part.Fits level)) :
    (rule.as role).Each (Part.Fits level) := h.asRole fun _ hpart => hpart

theorem satisfying {test : List Part → Bool} (h : rule.Each ok) :
    (rule.satisfying test).Each ok :=
  h.andThen fun _ hparts => ite (yield hparts) never

/-- What an extended rule reads. -/
theorem extendFrom {step : List Part → Rule}
    (hstep : ∀ parts, (∀ part ∈ parts, ok part) → (step parts).Each ok) (bound s : List Char)
    {parts : List Part} (hparts : ∀ part ∈ parts, ok part) :
    ∀ part ∈ (Rule.extendFrom step bound parts s).1, ok part := by
  induction bound generalizing parts s with
  | nil => exact hparts
  | cons b bound ih =>
      simp only [Rule.extendFrom]
      cases ha : (step parts).read s with
      | none => exact hparts
      | some a => exact ih a.2 (hstep parts hparts s a.1 a.2 ha)

theorem extend {step : List Part → Rule} (h : rule.Each ok)
    (hstep : ∀ parts, (∀ part ∈ parts, ok part) → (step parts).Each ok) :
    (rule.extend step).Each ok := by
  refine h.andThen fun parts hparts s parts' rest hs => ?_
  have := extendFrom hstep s s hparts
  rw [Option.some.inj hs] at this
  exact this

theorem ahead {test : List Char → Bool} : (Rule.ahead test).Each ok := by
  intro s parts rest h
  simp only [Rule.ahead] at h
  split at h <;> cases h
  exact nofun

theorem notAhead : (Rule.notAhead rule).Each ok := ahead

theorem onLine {ends : Bool} : (Rule.onLine ends).Each ok := ahead

theorem firstOf {rules : List Rule} (h : ∀ rule ∈ rules, rule.Each ok) :
    (Grammar.firstOf rules).Each ok := by
  induction rules with
  | nil => exact never
  | cons rule rest ih => exact (h rule (.head _)).orElse (ih fun r hr => h r (.tail _ hr))

theorem heavier (h₁ : first.Each ok) (h₂ : second.Each ok) :
    (Grammar.heavier first second).Each ok := by
  intro s parts rest h
  simp only [Grammar.heavier] at h
  split at h
  case h_1 a b ha hb =>
    split at h <;> cases h
    · exact h₂ _ _ _ hb
    · exact h₁ _ _ _ ha
  case h_2 a ha hb =>
    cases h
    exact h₁ _ _ _ ha
  case h_3 other ha => exact h₂ _ _ _ h

/-- A rule whose children may stand in an expression. -/
theorem raise {level : Level} (h : rule.Each (Part.Fits .plain)) : rule.Each (Part.Fits level) :=
  fun s parts rest hread part hmem => (h s parts rest hread part hmem).raise

/-! ### Tokens -/

section

variable [Lexical ok]

theorem scanToken {scan : Scan} : (Rule.scanToken scan).Each ok := by
  intro s parts rest h
  simp only [Rule.scanToken, Option.map_eq_some_iff] at h
  obtain ⟨found, -, heq⟩ := h
  cases heq
  exact List.forall_mem_singleton.mpr (Lexical.token _ _)

theorem scanLeaf {kind : Kind} {scan : Scan} : (Rule.scanLeaf kind scan).Each ok := by
  intro s parts rest h
  simp only [Rule.scanLeaf, Option.map_eq_some_iff] at h
  obtain ⟨found, -, heq⟩ := h
  cases heq
  exact List.forall_mem_singleton.mpr (Lexical.leaf _ _ _)

theorem token {text : String} : (Rule.token text).Each ok := scanToken

theorem tokenOf {all wanted : List String} : (Rule.tokenOf all wanted).Each ok := scanToken

theorem keyword {text : String} : (Rule.keyword text).Each ok := scanToken

theorem keywordLeaf {kind : Kind} {text : String} : (Rule.keywordLeaf kind text).Each ok :=
  scanLeaf

theorem name {kind : Kind} {keywords : List String} : (Rule.name kind keywords).Each ok :=
  scanLeaf

theorem terminator : Rule.terminator.Each ok := by
  intro s parts rest h
  simp only [Rule.terminator] at h
  split at h
  · split at h <;> cases h
    exact List.forall_mem_singleton.mpr (Lexical.token _ _)
  · cases h

theorem endOfText : Rule.endOfText.Each ok := by
  intro s parts rest h
  simp only [Rule.endOfText] at h
  split at h <;> cases h
  exact List.forall_mem_singleton.mpr (Lexical.token _ _)

end

end Rule.Each

/-! ### Nodes -/

/-- Children that may be followed by others of which only the last one has a role. -/
theorem endsIn_append {role : Role} {a b : List Part} (ha : ∀ part ∈ a, part.role ≠ some role)
    (hb : EndsIn role b) : EndsIn role (a ++ b) := by
  have hfirst : some role ∉ a.map (·.role) := by
    intro hmem
    obtain ⟨part, hpart, hrole⟩ := List.mem_map.mp hmem
    exact ha part hpart hrole
  rw [EndsIn, List.map_append]
  by_cases hnil : b.map (·.role) = []
  · rw [hnil, List.append_nil]
    exact fun hmem => hfirst (List.mem_of_mem_dropLast hmem)
  · rw [List.dropLast_append_of_ne_nil hnil]
    exact fun hmem => (List.mem_append.mp hmem).elim hfirst hb

namespace Rule.Fills

variable {kind : Kind} {first second rule : Rule}

theorem append (h₁ : first.Each (Part.Before kind)) (h₂ : second.Fills kind) :
    (first ++ second).Fills kind := by
  refine ⟨.append (fun s parts rest h part hmem => (h₁ s parts rest h part hmem).1) h₂.under, ?_⟩
  intro s parts rest h role hrole
  obtain ⟨a, middle, b, ha, hb, rfl⟩ := Rule.read_append h
  exact endsIn_append (fun part hmem => (h₁ s a middle ha part hmem).2 role hrole)
    (h₂.last middle b rest hb role hrole)

theorem orElse (h₁ : first.Fills kind) (h₂ : second.Fills kind) :
    (first <|> second).Fills kind := by
  refine ⟨.orElse h₁.under h₂.under, fun s parts rest h => ?_⟩
  rcases Rule.read_orElse h with h | h
  · exact h₁.last s parts rest h
  · exact h₂.last s parts rest h

theorem opt (h : rule.Fills kind) : rule.opt.Fills kind := by
  refine h.orElse ⟨.nothing, fun s parts rest hread role _ => ?_⟩
  cases hread
  exact nofun

/-- A kind that keeps no role for its last child. -/
theorem of_each (hkind : kind.lastRole? = none) (h : rule.Each (Part.Under kind)) :
    rule.Fills kind := by
  refine ⟨h, fun s parts rest _ role hrole => ?_⟩
  rw [hkind] at hrole
  cases hrole

/-- Children none of which has the role that the kind keeps for the last one. -/
theorem of_before (h : rule.Each (Part.Before kind)) : rule.Fills kind := by
  refine ⟨fun s parts rest hread part hmem => (h s parts rest hread part hmem).1, ?_⟩
  intro s parts rest hread role hrole hmem
  obtain ⟨part, hpart, heq⟩ := List.mem_map.mp (List.mem_of_mem_dropLast hmem)
  exact (h s parts rest hread part hpart).2 role hrole heq

/-- A single node that is allowed under its role. -/
theorem asNode {child : Kind} {role : Role} (hallowed : kind.allowsNode (some role) child = true)
    (hnode : rule.IsNode child) (h : rule.Fits .plain) : (rule.as role).Fills kind := by
  constructor
  · intro s parts rest hread
    obtain ⟨a, middle, ha, hyield⟩ := Rule.read_andThen hread
    obtain ⟨ps, rfl⟩ := hnode s a middle ha
    cases hyield
    exact List.forall_mem_singleton.mpr ⟨hallowed, (h s _ _ ha _ (.head _)).1⟩
  · intro s parts rest hread role' _
    obtain ⟨a, middle, ha, hyield⟩ := Rule.read_andThen hread
    obtain ⟨ps, rfl⟩ := hnode s a middle ha
    cases hyield
    exact nofun

end Rule.Fills

namespace Rule.Each

variable {first second rule : Rule} {kind : Kind} {role : Role}

/-- Names may stand below a node of any kind. -/
theorem asName (hrole : kind.lastRole? ≠ some role) (h : rule.Each Part.IsLexeme) :
    (rule.as role).Each (Part.Before kind) := by
  refine h.asRole fun part hpart => ⟨?_, fun role' hrole' heq => hrole (by rw [hrole', ← heq])⟩
  obtain ⟨role', t⟩ := part
  cases t with
  | token gap text => exact ⟨rfl, trivial⟩
  | leaf k gap text => exact ⟨rfl, trivial⟩
  | node child ps => exact absurd rfl (hpart child ps)

/-- Types may stand below a node under a role that it has for them. -/
theorem asType (hrole : kind.lastRole? ≠ some role)
    (hallowed : ∀ child : Kind, child.isPlain = true → kind.allowsNode (some role) child = true)
    (h : rule.Fits .plain) : (rule.as role).Each (Part.Before kind) := by
  refine h.asRole fun part hpart =>
    ⟨⟨?_, hpart.1⟩, fun role' hrole' heq => hrole (by rw [hrole', ← heq])⟩
  obtain ⟨role', t⟩ := part
  cases t with
  | token gap text => rfl
  | leaf k gap text => rfl
  | node child ps => exact hallowed child (hpart.2 child ps rfl)

/-- What stands below a function in front of its body. -/
theorem asHead (hkind : kind.isFunction = true) (hrole : role ≠ .body) (h : rule.Fits .plain) :
    (rule.as role).Each (Part.Before kind) := by
  have hlast : kind.lastRole? ≠ some role := by
    rcases Kind.isFunction_iff.mp hkind with rfl | rfl <;>
      exact fun heq => hrole (Option.some.inj heq).symm
  refine h.asType hlast fun child hchild => ?_
  rcases Kind.isFunction_iff.mp hkind with rfl | rfl <;> simp [Kind.allowsNode, hchild, hrole]

/-- What a rule for nodes of a kind reads. -/
theorem shapedNode (h : rule.Fills kind) (hnames : rule.Admitted kind) {s rest : List Char}
    {parts : List Part} (hread : (rule.node kind).read s = some (parts, rest)) :
    ∃ ps, parts = [⟨none, .node kind ps⟩] ∧ (Tree.node kind ps).Shaped := by
  obtain ⟨ps, rfl, hps⟩ := Rule.read_node hread
  have hunder := h.under s ps rest hps
  exact ⟨ps, rfl, ⟨fun part hmem => (hunder part hmem).1, h.last s ps rest hps,
    hnames s ps rest hps⟩, partsShaped_iff.mpr fun part hmem => (hunder part hmem).2⟩

/-- A rule for nodes of a kind that stand below nodes of another kind. -/
theorem nodeUnder {parent : Kind} (hparent : parent.allowsNode none kind = true)
    (h : rule.Fills kind) (hnames : rule.Admitted kind) :
    (rule.node kind).Each (Part.Under parent) := by
  intro s parts rest hread
  obtain ⟨ps, rfl, hshaped⟩ := shapedNode h hnames hread
  exact List.forall_mem_singleton.mpr ⟨hparent, hshaped⟩

/-- A rule for nodes of a kind that stand below nodes of most kinds. -/
theorem nodeFits {level : Level} (hkind : level.admits kind = true) (h : rule.Fills kind)
    (hnames : rule.Admitted kind) : (rule.node kind).Fits level := by
  intro s parts rest hread
  obtain ⟨ps, rfl, hshaped⟩ := shapedNode h hnames hread
  refine List.forall_mem_singleton.mpr ⟨hshaped, fun kind' parts' heq => ?_⟩
  cases heq
  exact hkind

/-- A rule for nodes of one of the many kinds that take any child of a list of statements. -/
theorem commonNode {level : Level} (hkind : kind.isCommon = true) (h : rule.Fits .item)
    (hnames : rule.Admitted kind) : (rule.node kind).Fits level := by
  have hunder : rule.Each (Part.Under kind) := fun s parts rest hread part hmem =>
    (h s parts rest hread part hmem).under hkind
  simp only [Kind.isCommon, Bool.and_eq_true, Option.isNone_iff_eq_none] at hkind
  exact nodeFits (Level.admits_of_isPlain hkind.1.1) (.of_each hkind.1.2 hunder) hnames

theorem node {level : Level} (hkind : kind.isNameless = true) (h : rule.Fits .item) :
    (rule.node kind).Fits level := by
  simp only [Kind.isNameless, Bool.and_eq_true, Bool.not_eq_true'] at hkind
  exact commonNode hkind.1 h (.nameless hkind.2)

/-- A rule for generic types. -/
theorem genericNode {level : Level} (h : rule.Fits .plain) :
    (rule.node .genericType).Fits level :=
  nodeFits (Level.admits_of_isPlain rfl)
    (.of_each rfl fun s parts rest hread part hmem => (h s parts rest hread part hmem).underGeneric)
    (.nameless rfl)

end Rule.Each

/-! ### Names of fields -/

/-- A child that is a word if it is a name of a field. -/
def Part.NamesField (part : Part) : Prop :=
  part.role = some .name → ∃ gap text, part.tree = .leaf .fieldIdentifier gap text ∧ IsWord text

instance : Lexical Part.NamesField := ⟨fun _ _ => nofun, fun _ _ _ => nofun⟩

/-- What has another role is no name. -/
theorem Rule.Each.asOther {rule : Rule} {role : Role} (hrole : role ≠ .name) :
    (rule.as role).Each Part.NamesField := by
  have hany : rule.Each fun _ => True := fun _ _ _ _ _ _ => trivial
  exact hany.asRole fun _ _ heq => absurd (Option.some.inj heq) hrole

theorem Rule.Each.asFieldName {keywords : List String} :
    ((Rule.name .fieldIdentifier keywords).as .name).Each Part.NamesField := by
  intro s parts rest h
  obtain ⟨ps, middle, hps, hyield⟩ := Rule.read_andThen h
  obtain ⟨gap, text, rfl, hword⟩ := Rule.read_name hps
  cases hyield
  exact List.forall_mem_singleton.mpr fun _ => ⟨gap, text, rfl, hword⟩

/-- The names that a rule for fields reads are words. -/
theorem Rule.Each.admitted {rule : Rule} (h : rule.Each Part.NamesField) :
    rule.Admitted .fieldDeclaration := fun s parts rest hread =>
  ⟨nofun, fun _ => h s parts rest hread, nofun⟩

/-! ## Types without their arguments -/

/-- What is taken off the last of several children leaves the others as they are. -/
theorem splitLastArguments_cases {parts shorter : List Part} {arguments : Part}
    (h : Grammar.splitLastArguments parts = some (shorter, arguments)) :
    ∃ front role t cut, parts = front ++ [⟨role, t⟩] ∧ shorter = front ++ [⟨role, cut⟩] ∧
      Grammar.splitArguments t = some (cut, arguments) := by
  induction parts generalizing shorter with
  | nil => simp [Grammar.splitLastArguments] at h
  | cons part rest ih =>
      obtain ⟨role, t⟩ := part
      cases rest with
      | nil =>
          obtain ⟨⟨cut, more⟩, hcut, heq⟩ := Option.map_eq_some_iff.mp h
          cases heq
          exact ⟨[], role, t, cut, rfl, rfl, hcut⟩
      | cons next rest =>
          obtain ⟨⟨left, more⟩, hleft, heq⟩ := Option.map_eq_some_iff.mp h
          cases heq
          obtain ⟨front, role', t', cut, hparts, rfl, hcut⟩ := ih hleft
          exact ⟨⟨role, t⟩ :: front, role', t', cut, by rw [hparts, List.cons_append], rfl, hcut⟩

/-- No types are taken off a name, so the names among several children stay. -/
theorem admits_splitLastArguments {kind : Kind} {parts shorter : List Part} {arguments : Part}
    (h : Grammar.splitLastArguments parts = some (shorter, arguments))
    (hparts : kind.Admits parts) : kind.Admits shorter := by
  obtain ⟨front, role, t, cut, rfl, rfl, hcut⟩ := splitLastArguments_cases h
  have hleaf : ∀ k gap text, t ≠ .leaf k gap text := by
    rintro k gap text rfl
    simp [Grammar.splitArguments] at hcut
  refine ⟨fun hkind => ?_, fun hkind part hmem hrole => ?_, fun hkind => ?_⟩
  · obtain ⟨gap, text, rest, heq, hword⟩ := hparts.typeName hkind
    cases front with
    | nil =>
        obtain ⟨heq, -⟩ := List.cons.inj heq
        cases heq
        exact absurd rfl (hleaf _ _ _)
    | cons first front =>
        obtain ⟨rfl, -⟩ := List.cons.inj heq
        exact ⟨gap, text, front ++ [⟨role, cut⟩], rfl, hword⟩
  · rcases List.mem_append.mp hmem with hmem | hmem
    · exact hparts.fieldNames hkind part (List.mem_append_left _ hmem) hrole
    · obtain rfl := List.mem_singleton.mp hmem
      obtain ⟨gap, text, heq, -⟩ := hparts.fieldNames hkind ⟨role, t⟩
        (List.mem_append_right _ (.head _)) hrole
      exact absurd heq (hleaf _ _ _)
  · obtain ⟨gap, keyword, before, text, heq, -⟩ := hparts.packageName hkind
    have hlast := congrArg List.getLast? heq
    simp only [List.getLast?_append, List.getLast?_singleton, Option.some_or,
      List.getLast?_cons_cons, Option.some.injEq, Part.mk.injEq] at hlast
    exact absurd hlast.2 (hleaf _ _ _)

/-- A tree that may stand wherever another one may. -/
def Tree.Replaces (new old : Tree) : Prop :=
  ∀ (kind : Kind) (role : Option Role), kind.allows ⟨role, old⟩ = true →
    kind.allows ⟨role, new⟩ = true

/-- Where a generic type may stand, so may any type. -/
theorem replaces_genericType {part : Part} {parts : List Part}
    (h : Kind.genericType.allows part = true) :
    part.tree.Replaces (.node .genericType parts) := by
  intro kind role hold
  obtain ⟨role', t⟩ := part
  cases t with
  | token gap text => rfl
  | leaf k gap text => rfl
  | node child ps =>
      have hplain : child.isPlain = true := h
      rw [Kind.allows] at hold ⊢
      unfold Kind.allowsNode at hold ⊢
      split at hold <;> simp_all [Kind.declaresType, Kind.isSpec_of_isPlain hplain]

mutual

/-- What is left of a tree without the types in square brackets at its end. -/
theorem splitArguments_shaped : ∀ {t shorter : Tree} {arguments : Part},
    Grammar.splitArguments t = some (shorter, arguments) → t.Shaped →
      shorter.Shaped ∧ arguments.Fits .plain ∧ shorter.Replaces t
  | .token _ _, _, _, h, _ => by simp [Grammar.splitArguments] at h
  | .leaf _ _ _, _, _, h, _ => by simp [Grammar.splitArguments] at h
  | .node kind parts, shorter, arguments, h, ht => by
      obtain ⟨hholds, hparts⟩ := ht
      unfold Grammar.splitArguments at h
      split at h
      case h_1 type arguments' heq =>
        cases heq
        cases h
        rw [partsShaped_iff] at hparts
        have hallowed := hholds.allowed
        refine ⟨hparts type (.head _), ⟨hparts arguments (.tail _ (.head _)), ?_⟩,
          replaces_genericType (hallowed type (.head _))⟩
        intro child ps heq
        have hlast := hallowed arguments (.tail _ (.head _))
        obtain ⟨role, t⟩ := arguments
        obtain rfl : t = .node child ps := heq
        exact hlast
      case h_2 kind' parts' _ heq =>
        cases heq
        obtain ⟨found, hfound, heq⟩ := Option.map_eq_some_iff.mp h
        cases heq
        obtain ⟨hshorter, harguments, hroles, hallowed⟩ := splitLastArguments_shaped hfound hparts
        refine ⟨⟨⟨hallowed kind hholds.allowed, fun role hrole => ?_,
          admits_splitLastArguments hfound hholds.named⟩, hshorter⟩, harguments,
          fun _ _ hold => hold⟩
        rw [EndsIn, hroles]
        exact hholds.last role hrole
      case h_3 => cases h

/-- What is left of children without the types in square brackets at the end of the last one. -/
theorem splitLastArguments_shaped : ∀ {parts shorter : List Part} {arguments : Part},
    Grammar.splitLastArguments parts = some (shorter, arguments) → PartsShaped parts →
      PartsShaped shorter ∧ arguments.Fits .plain ∧
        shorter.map (·.role) = parts.map (·.role) ∧
        ∀ kind : Kind, (∀ part ∈ parts, kind.allows part = true) →
          ∀ part ∈ shorter, kind.allows part = true
  | [], _, _, h, _ => by simp [Grammar.splitLastArguments] at h
  | [⟨role, t⟩], shorter, arguments, h, ht => by
      obtain ⟨found, hfound, heq⟩ := Option.map_eq_some_iff.mp h
      cases heq
      obtain ⟨hshorter, harguments, hreplaces⟩ := splitArguments_shaped hfound ht.1
      refine ⟨⟨hshorter, trivial⟩, harguments, rfl, fun kind hallowed => ?_⟩
      exact List.forall_mem_singleton.mpr (hreplaces kind role (hallowed _ (.head _)))
  | ⟨role, t⟩ :: next :: rest, shorter, arguments, h, ht => by
      obtain ⟨found, hfound, heq⟩ := Option.map_eq_some_iff.mp h
      cases heq
      obtain ⟨hshorter, harguments, hroles, hallowed⟩ := splitLastArguments_shaped hfound ht.2
      refine ⟨⟨ht.1, hshorter⟩, harguments, by simp [hroles], fun kind h => ?_⟩
      exact List.forall_mem_cons.mpr
        ⟨h _ (.head _), hallowed kind fun part hmem => h part (.tail _ hmem)⟩

end

/-- Types may be taken off the end of children that may stand below nodes of most kinds. -/
theorem PartsFit.splitLast {parts shorter : List Part} {arguments : Part}
    (h : Grammar.splitLastArguments parts = some (shorter, arguments))
    (hparts : PartsFit .plain parts) : PartsFit .plain shorter ∧ arguments.Fits .plain := by
  have hshaped : PartsShaped parts := partsShaped_iff.mpr fun part hmem => (hparts part hmem).1
  obtain ⟨hshorter, harguments, -, hallowed⟩ := splitLastArguments_shaped h hshaped
  have hgeneric := hallowed .genericType fun part hmem => (hparts part hmem).underGeneric.1
  refine ⟨fun part hmem => ⟨partsShaped_iff.mp hshorter part hmem, fun child ps heq => ?_⟩,
    harguments⟩
  have hpart := hgeneric part hmem
  obtain ⟨role, t⟩ := part
  obtain rfl : t = .node child ps := heq
  exact hpart

end FluentBuilder.Go
