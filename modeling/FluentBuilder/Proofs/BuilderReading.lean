import FluentBuilder.Proofs.FieldReading
import FluentBuilder.Proofs.FunctionReading
import FluentBuilder.Proofs.StatementReading

/-!
# Reading builders — the declarations of a builder are read one after the other

Each statement and each declaration that a builder has, from the names and the texts in it, and the
whole file from its declarations.

* **`reads_function`**, **`reads_method`** — the constructor and the methods.
* **`reads_typeDeclaration`** — the declaration of the struct type.
* **`reads_sourceFile`** — a clause of a package, a type and functions make up a file.
-/

namespace FluentBuilder.Go

open Grammar

section

variable {s gap r x y name target rest : List Char} {depth : Nat}

/-! ## Statements of a builder -/

/-- Words that are read as values wherever a builder has them. -/
structure IsValueName (w : List Char) : Prop where
  word    : IsWord w
  operand : w ∉ operandKeywords.map String.toList
  case    : w ∉ caseKeywords.map String.toList

/-- Such a word begins no type either. -/
theorem IsValueName.isTypeText {w : List Char} (h : IsValueName w) : IsTypeText w := by
  have htext := @IsTypeText.plain (String.ofList w) ⟨by simpa using h.word, fun hmem => h.operand
    (List.mem_map.mpr ⟨_, List.mem_append_left _ hmem, String.toList_ofList⟩)⟩
  rwa [String.toList_ofList] at htext

theorem gapless_return (value : List Char) : Gapless ("return".toList ++ ' ' :: value) :=
  fun _ => takeGap_stop (by decide) (by decide) _

theorem ReadsAsStatement.of_rule {text : List Char} (hgapless : Gapless text)
    (h : ∀ {keywords : List String} {s gap rest : List Char}, keywords ⊆ caseKeywords →
      takeGap s = (gap, text ++ '\n' :: rest) →
        ∃ tree, ((grammar depth).statementRule keywords).Reads s [⟨none, tree⟩] ('\n' :: rest)) :
    ReadsAsStatement (depth + 1) text :=
  ⟨hgapless, h⟩

/-- A word that is none of two is neither of them. -/
theorem caseKeywords_fail (h : AtWord s gap r rest) (hr : r ∉ caseKeywords.map String.toList) :
    ∀ text ∈ caseKeywords, (Rule.keyword text).Fails s :=
  fun _ htext => .keyword h fun heq => hr (heq ▸ List.mem_map_of_mem htext)

/-- A statement that gives back what a name stands for. -/
theorem readsAsStatement_return (hr : IsValueName r) (depth : Nat) :
    ReadsAsStatement (depth + 3) ("return".toList ++ ' ' :: r) := by
  refine .of_rule (gapless_return r) fun {keywords s gap rest} _ hs => ?_
  rw [List.append_assoc, List.cons_append] at hs
  obtain ⟨c, cs, heq, hc, -⟩ := isWord_iff.mp hr.word
  have hw : AtWord (r ++ '\n' :: rest) [] r ('\n' :: rest) :=
    .of_word hr.word (stopsWord_cons (by decide) rest)
  have hline : breakAhead (r ++ '\n' :: rest) = false := by
    obtain ⟨hspace, hslash⟩ := isSpace_of_isIdentStart hc
    rw [heq]
    exact breakAhead_stop hspace hslash _
  exact reads_return hs hline (caseKeywords_fail (hw.behind (by decide)) hr.case)
    (reads_expr_name (hw.behind (by decide)) hr.operand (.of_break rfl rest) depth)

/-- A statement that gives back a literal of a type. -/
theorem readsAsStatement_literal {braces : List Char} (hr : IsValueName r)
    (hliteral : ∀ rest, ∃ parts,
      (grammar depth).literalRule.Reads ('\x7b' :: (braces ++ rest)) parts rest) :
    ReadsAsStatement (depth + 4) ("return".toList ++ ' ' :: (r ++ '\x7b' :: braces)) := by
  refine .of_rule (gapless_return _) fun {keywords s gap rest} _ hs => ?_
  simp only [List.append_assoc, List.cons_append] at hs
  obtain ⟨c, cs, heq, hc, -⟩ := isWord_iff.mp hr.word
  have hw : AtWord (r ++ '\x7b' :: (braces ++ '\n' :: rest)) [] r
      ('\x7b' :: (braces ++ '\n' :: rest)) := .of_word hr.word (stopsWord_cons (by decide) _)
  have hline : breakAhead (r ++ '\x7b' :: (braces ++ '\n' :: rest)) = false := by
    obtain ⟨hspace, hslash⟩ := isSpace_of_isIdentStart hc
    rw [heq]
    exact breakAhead_stop hspace hslash _
  obtain ⟨parts, hbraces⟩ := hliteral ('\n' :: rest)
  obtain ⟨value, hvalue⟩ : ∃ value, ((grammar (depth + 3)).expr
      (Place.statement.withSlot .plain)).Reads _ value ('\n' :: rest) :=
    reads_expr_literal (hw.behind (c := ' ') (by decide)) hr.operand rfl hbraces
      (.of_break rfl rest)
  exact reads_return hs hline (caseKeywords_fail (hw.behind (by decide)) hr.case) hvalue

/-- A statement that gives back a new builder. -/
theorem readsAsStatement_address (hr : IsValueName r) (depth : Nat) :
    ReadsAsStatement (depth + 5) ("return".toList ++ ' ' :: '&' :: (r ++ "\x7b\x7d".toList)) := by
  refine .of_rule (gapless_return _) fun {keywords s gap rest} _ hs => ?_
  simp only [List.append_assoc, List.cons_append] at hs
  have hw : AtWord (r ++ '\x7b' :: '\x7d' :: '\n' :: rest) [] r
      ('\x7b' :: '\x7d' :: '\n' :: rest) := .of_word hr.word (stopsWord_cons (by decide) _)
  have hgap : takeGap (' ' :: '&' :: (r ++ '\x7b' :: '\x7d' :: '\n' :: rest)) =
      ([' '], '&' :: (r ++ '\x7b' :: '\x7d' :: '\n' :: rest)) :=
    takeGap_blank (by decide) (by decide) _
  obtain ⟨parts, hbraces⟩ := reads_emptyLiteral depth ('\n' :: rest)
  obtain ⟨value, hvalue⟩ : ∃ value, ((grammar (depth + 4)).expr
      (Place.statement.withSlot .plain)).Reads _ value ('\n' :: rest) :=
    reads_expr_address hgap hw hr.operand rfl hbraces (.of_break rfl rest)
  exact reads_return hs (breakAhead_stop (by decide) (by decide) _)
    (fun _ _ => (noWord_of_front hgap (by decide)).keyword) hvalue

/-- A statement that stores a value in a field. -/
theorem readsAsStatement_assign
    (hr : r ∉ (operandKeywords ++ (statementKeywords ++ caseKeywords)).map String.toList)
    (hword : IsWord r) (hx : IsWord x) (hy : IsWord y)
    (hyName : y ∉ operandKeywords.map String.toList) (depth : Nat) :
    ReadsAsStatement (depth + 3) (r ++ '.' :: (x ++ " = ".toList ++ y)) := by
  have hgapless : Gapless (r ++ '.' :: (x ++ " = ".toList ++ y)) := by
    obtain ⟨c, cs, rfl, hc, -⟩ := isWord_iff.mp hword
    obtain ⟨hspace, hslash⟩ := isSpace_of_isIdentStart hc
    exact fun rest => takeGap_stop hspace hslash _
  refine .of_rule hgapless fun {keywords s gap rest} hkeywords hs => ?_
  simp only [List.append_assoc, List.cons_append] at hs
  have hr' : r ∉ (operandKeywords ++ (statementKeywords ++ keywords)).map String.toList := by
    simp only [List.map_append, List.mem_append, not_or] at hr ⊢
    exact ⟨hr.1, hr.2.1, fun hmem => hr.2.2 (List.map_subset _ hkeywords hmem)⟩
  exact reads_assign ⟨hs, hword, stopsWord_cons (by decide) _⟩ hr' hx hy hyName depth

/-! ## Functions -/

/-- A parameter with a name and a type. -/
theorem reads_namedParameter {t : List Char} (hx : IsWord x)
    (hname : x ∉ typeKeywords.map String.toList) (ht : ReadsAsType t) (hdepth : t.length ≤ depth)
    (hs : takeGap s = (gap, '(' :: (x ++ ' ' :: (t ++ ')' :: rest)))) :
    ∃ parts, (grammar depth).parameterList.Reads s [⟨none, .node .parameterList parts⟩] rest := by
  have hclosing : AtClosing (')' :: rest) := .of_cons (by decide) rest
  have hread : ((Rule.name .identifier typeKeywords).as .name).Reads
      (x ++ ' ' :: (t ++ ')' :: rest)) _ _ :=
    .nameAs (.of_word hx (stopsWord_cons (by decide) _)) hname
  obtain ⟨c, cs, heq, -, -, hmark, hdot⟩ := ht.front_plain
  have hgap := ht.takeGap_blank (')' :: rest)
  -- a type begins with none of the marks that other kinds of parameters go on with
  have hother : ∀ text ∈ [",", "..."], (Rule.token text).Fails (' ' :: (t ++ ')' :: rest)) := by
    rw [heq] at hgap ⊢
    have hne : ∀ text ∈ [",", "..."], text.toList ≠ [] ∧
        (text.toList.head? = some ',' ∨ text.toList.head? = some '.') := by
      decide
    intro text htext
    refine .token hgap ?_ (hne text htext).1
    rcases (hne text htext).2 with hhead | hhead <;> rw [hhead] <;> rintro ⟨⟩
    · exact hmark (by decide)
    · exact hdot rfl
  obtain ⟨tree, htype, -⟩ :=
    ht.reads depth hdepth hgap ⟨stopsWord_cons (by decide) _, .inr hclosing⟩
  have hcomma : (Rule.token ",").Fails (')' :: rest) := .mark (by decide) (by decide)
  have hclose : (Rule.token ")").Reads (')' :: rest) [⟨none, .token [] [')']⟩] rest :=
    .mark rfl (by decide)
  have hbehind : (Rule.token "," <|> Rule.token ")").Reads (')' :: rest) _ rest :=
    .right hcomma hclose
  have hvariadic : (grammar depth).variadicParameter.Fails (x ++ ' ' :: (t ++ ')' :: rest)) :=
    .node (.append (.behind (.some hread) (hother _ (by decide))))
  have hparam : (grammar depth).parameterDeclaration.Reads (x ++ ' ' :: (t ++ ')' :: rest)) _
      (')' :: rest) :=
    .left (.append (.node (.append (.append hread
      (Rule.Chain.many (.stop (.append (hother _ (by decide)))))) (.as htype)))
      (.ahead (congrArg Option.isSome hbehind)))
  exact ⟨_, .node (.append (.append (.token hs) (.append
    (.some (.sepBy (.right hvariadic hparam) (.stop (.append hcomma)))) (.none hcomma))) hclose)⟩

/-- The parameters, the result and the body of a function. -/
theorem reads_functionRest {result body : List Char} {params : List Part} {block : Tree}
    (hparams : (grammar depth).parameterList.Reads s params
      (' ' :: (result ++ ' ' :: '\x7b' :: body)))
    (hresult : ReadsAsType result) (hbracket : result.head? ≠ some '(')
    (hdepth : result.length ≤ depth)
    (hblock : (grammar depth).block.Reads (' ' :: '\x7b' :: body) [⟨none, block⟩] rest) :
    ∃ parts, (grammar depth).functionRest.Reads s parts rest := by
  have hend : Closes true (' ' :: '\x7b' :: body) :=
    ⟨stopsWord_cons (by decide) _, .inr ((AtClosing.of_cons (by decide) body).behind (by decide))⟩
  have hline : (Rule.onLine true).Reads (' ' :: '\x7b' :: body) [] (' ' :: '\x7b' :: body) :=
    .onLine (.inr (breakAhead_blank (by decide) (by decide) _))
  obtain ⟨parts, hread, -⟩ := reads_result_type depth hresult hbracket hdepth hend
  exact ⟨_, .append (.append (.as hparams) hread) (.some (.append hline (.as hblock)))⟩

/-! ## Declarations -/

/-- What a source file lists: a declaration or a statement. -/
def item (g : Grammar) : Rule :=
  g.topDeclaration <|>
  .notAhead (g.methodHead ++ .token "(") ++ g.statement ["package", "import"]

/-- A text is read as a declaration at the end of a line, and not as the clause of a package. -/
structure ReadsAsDeclaration (depth : Nat) (text : List Char) : Prop where
  gapless : Gapless text
  reads {s gap rest : List Char} (h : takeGap s = (gap, text ++ '\n' :: rest)) :
    ∃ kind parts, (item (grammar depth)).Reads s [⟨none, .node kind parts⟩] ('\n' :: rest) ∧
      kind ≠ .packageClause

/-- A function without parameters. -/
theorem reads_function {result body : List Char} {block : Tree}
    (hs : takeGap s = (gap, "func".toList ++ ' ' :: (name ++ '(' :: ')' :: ' ' ::
      (result ++ ' ' :: '\x7b' :: body))))
    (hname : IsWord name) (hresult : ReadsAsType result) (hbracket : result.head? ≠ some '(')
    (hdepth : result.length ≤ depth)
    (hblock : (grammar depth).block.Reads (' ' :: '\x7b' :: body) [⟨none, block⟩] rest) :
    ∃ parts, (item (grammar depth)).Reads s [⟨none, .node .functionDeclaration parts⟩] rest := by
  have hword : AtWord s gap "func".toList _ := ⟨hs, by decide, stopsWord_cons (by decide) _⟩
  have hnameWord : AtWord (' ' :: (name ++ '(' :: ')' :: ' ' :: (result ++ ' ' :: '\x7b' :: body)))
      [' '] name ('(' :: ')' :: ' ' :: (result ++ ' ' :: '\x7b' :: body)) :=
    (AtWord.of_word hname (stopsWord_cons (by decide) _)).behind (by decide)
  obtain ⟨params, hparams, -⟩ := reads_parameterList depth (List.forall_mem_nil _) .nil
    (Nat.zero_le _)
    (takeGap_stop (by decide) (by decide) (')' :: ' ' :: (result ++ ' ' :: '\x7b' :: body)))
  obtain ⟨parts, hrest⟩ := reads_functionRest hparams hresult hbracket hdepth hblock
  have hother : ∀ text ∈ ["package", "import"], (Rule.keyword text).Fails s :=
    .otherKeywords hword (by decide)
  exact ⟨_, .left (.right (.node (.append (hother _ (by decide))))
    (.right (.node (.append (hother _ (by decide))))
      (.left (.node (.append (.append (.append (.keyword hword rfl) (.anyNameAs hnameWord))
        (.none (.as (.node (.append (.append (.mark (by decide) (by decide))))))))
        hrest)))))⟩

/-- A method, with whatever parameters are read. -/
theorem reads_method {builder result params body : List Char} {list block : Tree}
    (hs : takeGap s = (gap, "func".toList ++ ' ' :: '(' :: (r ++ ' ' :: '*' :: (builder ++
      ')' :: ' ' :: (name ++ '(' :: params)))))
    (hr : IsWord r) (hrName : r ∉ typeKeywords.map String.toList)
    (hbuilder : IsTypeText builder) (hdepth : builder.length < depth)
    (hname : IsWord name) (hnameType : name ∉ typeKeywords.map String.toList)
    (hparams : (grammar depth).parameterList.Reads ('(' :: params) [⟨none, list⟩]
      (' ' :: (result ++ ' ' :: '\x7b' :: body)))
    (hresult : ReadsAsType result) (hbracket : result.head? ≠ some '(')
    (hresultDepth : result.length ≤ depth)
    (hblock : (grammar depth).block.Reads (' ' :: '\x7b' :: body) [⟨none, block⟩] rest) :
    ∃ parts, (item (grammar depth)).Reads s [⟨none, .node .methodDeclaration parts⟩] rest := by
  have hword : AtWord s gap "func".toList _ := ⟨hs, by decide, stopsWord_cons (by decide) _⟩
  have hgap := takeGap_blank (c := '(') (by decide) (by decide)
    (r ++ ' ' :: '*' :: (builder ++ ')' :: ' ' :: (name ++ '(' :: params)))
  obtain ⟨receiver, hreceiver⟩ := reads_namedParameter (t := '*' :: builder) hr hrName
    (ReadsAsType.name hbuilder).pointer hdepth hgap
  have hnameWord : AtWord (' ' :: (name ++ '(' :: params)) [' '] name ('(' :: params) :=
    (AtWord.of_word hname (stopsWord_cons (by decide) _)).behind (by decide)
  have hhead : (grammar depth).methodHead.Reads s _ ('(' :: params) :=
    .append (.append (.keyword hword rfl) (.as hreceiver)) (.nameAs hnameWord hnameType)
  obtain ⟨parts, hrest⟩ := reads_functionRest hparams hresult hbracket hresultDepth hblock
  have hother : ∀ text ∈ ["package", "import"], (Rule.keyword text).Fails s :=
    .otherKeywords hword (by decide)
  have hfunction : (grammar depth).functionDeclaration.Fails s :=
    .node (.append (.append (.behind (.keyword hword rfl)
      (.as (noWord_of_front hgap (by decide)).name))))
  exact ⟨_, .left (.right (.node (.append (hother _ (by decide))))
    (.right (.node (.append (hother _ (by decide)))) (.right hfunction
      (.node (.append hhead hrest)))))⟩

/-- The declaration of a type. -/
theorem reads_typeDeclaration {builder body : List Char} {tree : Tree}
    (hs : takeGap s = (gap, "type".toList ++ ' ' :: (builder ++ ' ' :: ("struct".toList ++ body))))
    (hbuilder : IsWord builder) (hbody : StopsWord body)
    (htype : ((grammar depth).type true).Reads (' ' :: ("struct".toList ++ body)) [⟨none, tree⟩]
      rest) :
    ∃ parts, (item (grammar (depth + 1))).Reads s [⟨none, .node .typeDeclaration parts⟩] rest ∧
      typeSpecsOf parts = [⟨String.ofList builder, [], false, tree.toType⟩] := by
  have hword : AtWord s gap "type".toList _ := ⟨hs, by decide, stopsWord_cons (by decide) _⟩
  have hname : AtWord (' ' :: (builder ++ ' ' :: ("struct".toList ++ body))) [' '] builder
      (' ' :: ("struct".toList ++ body)) :=
    (AtWord.of_word hbuilder (stopsWord_cons (by decide) _)).behind (by decide)
  have hstruct : AtWord (' ' :: ("struct".toList ++ body)) [' '] "struct".toList body :=
    (AtWord.of_word (by decide) hbody).behind (by decide)
  have hbracket : (Rule.token "[").Fails (' ' :: ("struct".toList ++ body)) :=
    .tokenAtWord hstruct (by decide)
  -- the name has neither an equals sign nor parameters behind it
  have hspec : (grammar depth).typeSpec.Reads (' ' :: (builder ++ ' ' :: ("struct".toList ++ body)))
      [⟨none, .node .typeSpec [⟨some .name, .leaf .typeIdentifier [' '] builder⟩,
        ⟨some .type, tree⟩]⟩] rest :=
    .right (.node (.append (.behind (.anyNameAs hname) (.tokenAtWord hstruct (by decide)))))
      (.node (.append (.anyNameAs hname) (.heavier
        (.append (.as (.node (.append (.append hbracket)))))
        (.append (.notAhead (.append (.append hbracket))) (.as htype)))))
  have hother : ∀ text ∈ ["package", "import", "func", "const", "var"],
      (Rule.keyword text).Fails s := .otherKeywords hword (by decide)
  have hfunc := hother "func" (by decide)
  -- the grammar lists the declarations of types among the statements
  have htop : (grammar (depth + 1)).topDeclaration.Fails s :=
    .orElse (.node (.append (hother _ (by decide))))
      (.orElse (.node (.append (hother _ (by decide))))
        (.orElse (.node (.append (.append (.append hfunc))))
          (.node (.append (.append (.append hfunc))))))
  have hgroup : (Rule.token "(").Fails (' ' :: (builder ++ ' ' :: ("struct".toList ++ body))) :=
    .tokenAtWord hname (by decide)
  have hstatement : ((grammar depth).statementRule ["package", "import"]).Reads s _ rest :=
    .left (.right (.node (.append (hother _ (by decide))))
      (.right (.node (.append (hother _ (by decide))))
        (.node (.append (.keyword hword rfl) (.right (.append (.append hgroup)) hspec)))))
  refine ⟨_, .right htop (.append (.notAhead (.append (.append (.append hfunc)))) hstatement), ?_⟩
  simp [typeSpecsOf, typeSpecOf, typeParamsOf, textOf, textsOf, Tree.text, Tree.chars, Tree.leaves,
    roleType]

/-! ## Source files -/

/-- Declarations, each behind a blank line. -/
def declarationsText (texts : List (List Char)) : List Char :=
  texts.flatMap fun text => '\n' :: (text ++ ['\n'])

/-- At the end of a text stands nothing that a source file lists. -/
theorem item_fails_nil (depth : Nat) : (item (grammar (depth + 4))).Fails [] := rfl

/-- Declarations are read up to the end of the text, and none of them names the package. -/
theorem reads_declarations {texts : List (List Char)}
    (h : ∀ text ∈ texts, ReadsAsDeclaration (depth + 4) text) :
    ∃ parts, (item (grammar (depth + 4)) ++ .terminator).Chain (declarationsText texts) parts [] ∧
      ∀ part ∈ parts, part.tree.kind? ≠ some .packageClause := by
  induction texts with
  | nil => exact ⟨[], .stop (.append (item_fails_nil depth)), List.forall_mem_nil _⟩
  | cons text texts ih =>
      rw [List.forall_mem_cons] at h
      obtain ⟨parts, hchain, hparts⟩ := ih h.2
      have htext : declarationsText (text :: texts) =
          '\n' :: (text ++ '\n' :: declarationsText texts) := by
        simp [declarationsText]
      have hgap : takeGap ('\n' :: (text ++ '\n' :: declarationsText texts)) = _ :=
        h.1.gapless.behind (by decide : ∀ c ∈ ['\n'], isSpace c = true) _
      obtain ⟨kind, children, hread, hkind⟩ := h.1.reads hgap
      have hend : Rule.terminator.Reads ('\n' :: declarationsText texts)
          [⟨none, .token [] ['\n']⟩] (declarationsText texts) := rfl
      rw [htext]
      refine ⟨_, .step (hread.append hend) ?_ hchain, ?_⟩
      · simp only [List.length_cons, List.length_append]
        omega
      · simp only [List.forall_mem_append, List.forall_mem_cons]
        exact ⟨⟨⟨by simpa [Tree.kind?] using hkind, List.forall_mem_nil _⟩,
          by simp [Tree.kind?], List.forall_mem_nil _⟩, hparts⟩

/-- The clause that names the package of a file. -/
theorem reads_packageClause {package : List Char} (hpackage : IsWord package)
    (hs : takeGap s = (gap, "package".toList ++ ' ' :: (package ++ '\n' :: rest))) :
    (item (grammar depth)).Reads s
      [⟨none, .node .packageClause [⟨none, .token gap "package".toList⟩,
        ⟨none, .leaf .packageIdentifier [' '] package⟩]⟩] ('\n' :: rest) := by
  have hword : AtWord s gap "package".toList _ := ⟨hs, by decide, stopsWord_cons (by decide) _⟩
  have hname : AtWord (' ' :: (package ++ '\n' :: rest)) [' '] package ('\n' :: rest) :=
    (AtWord.of_word hpackage (stopsWord_cons (by decide) _)).behind (by decide)
  exact .left (.left (.node (.append (.keyword hword rfl) (.anyName hname))))

/-- A later tree that is no clause of a package does not change the name of the package. -/
theorem packageOf_cons {clause : Tree} {trees : List Tree}
    (hclause : clause.kind? = some .packageClause)
    (h : ∀ tree ∈ trees, tree.kind? ≠ some .packageClause) :
    packageOf (clause :: trees) = clause.named.head?.map Tree.text := by
  -- the last clause counts, and behind the first one there is none
  have hfold : ∀ found : Option String, trees.foldl (fun found t =>
      if t.kind? == some .packageClause then t.named.head?.map Tree.text else found) found =
        found := by
    intro found
    induction trees with
    | nil => rfl
    | cons tree trees ih =>
        rw [List.forall_mem_cons] at h
        rw [List.foldl_cons, if_neg (by simpa using h.1)]
        exact ih h.2
  rw [packageOf, List.foldl_cons, hfold, if_pos (by simp [hclause])]

theorem named_append (kind : Kind) (a b : List Part) :
    (Tree.node kind (a ++ b)).named = (Tree.node kind a).named ++ (Tree.node kind b).named :=
  List.filterMap_append

/-- The source file of a tree with a clause of a package and the declaration of a type in front. -/
theorem toFile?_sourceFile (gap package : List Char) {parts typeParts : List Part}
    {spec : TypeSpec} (hspec : typeSpecsOf typeParts = [spec])
    (hparts : ∀ part ∈ parts, part.tree.kind? ≠ some .packageClause) :
    ∃ decls, (Tree.node .sourceFile
      ([⟨none, .node .packageClause [⟨none, .token gap "package".toList⟩,
          ⟨none, .leaf .packageIdentifier [' '] package⟩]⟩, ⟨none, .token [] ['\n']⟩,
        ⟨none, .node .typeDeclaration typeParts⟩, ⟨none, .token [] ['\n']⟩] ++ parts ++
          [⟨none, .token [] []⟩])).toFile? =
      some ⟨String.ofList package, .types [spec] :: decls⟩ := by
  let others := (Tree.node .sourceFile parts).named
  have hlater : ∀ tree ∈ .node .typeDeclaration typeParts :: others,
      tree.kind? ≠ some .packageClause := by
    refine List.forall_mem_cons.mpr ⟨by simp [Tree.kind?], fun tree htree => ?_⟩
    obtain ⟨part, hpart, htree⟩ := List.mem_filterMap.mp htree
    obtain ⟨kind, -, rfl⟩ := Option.map_eq_some_iff.mp htree
    exact hparts part hpart
  have hclause : (Tree.node .packageClause [⟨none, .token gap "package".toList⟩,
      ⟨none, .leaf .packageIdentifier [' '] package⟩]).kind? = some .packageClause := rfl
  have hpackage := packageOf_cons hclause hlater
  refine ⟨(others.filter fun t => t.kind? != some .packageClause).map Tree.toDecl, ?_⟩
  rw [Tree.toFile?, named_append, named_append]
  have hfirst : ∀ kind kind' ps qs, (Tree.node .sourceFile
      [⟨none, .node kind ps⟩, ⟨none, .token [] ['\n']⟩, ⟨none, .node kind' qs⟩,
        ⟨none, .token [] ['\n']⟩]).named = [.node kind ps, .node kind' qs] :=
    fun _ _ _ _ => rfl
  have hlast : (Tree.node .sourceFile [⟨none, .token [] []⟩]).named = [] := rfl
  rw [hfirst, hlast, List.append_nil, List.cons_append, List.cons_append, List.nil_append, hpackage]
  have hname : (Tree.node .packageClause [⟨none, .token gap "package".toList⟩,
      ⟨none, .leaf .packageIdentifier [' '] package⟩]).named.head?.map Tree.text =
        some (String.ofList package) := by
    simp [Tree.named, Tree.parts, Tree.kind?, Tree.text, Tree.chars, Tree.leaves]
  rw [hname]
  simp [declsOf, Tree.kind?, Tree.toDecl, declWith, hspec, others]

/-- **A package clause, the declaration of a type and other declarations** are read as a source file
that names the package and declares the type first. -/
theorem reads_sourceFile {margin package typeText : List Char} {texts : List (List Char)}
    {spec : TypeSpec} (hpackage : IsWord package)
    (hs : s = margin ++ ("package".toList ++ ' ' :: (package ++ '\n' :: '\n' :: (typeText ++ '\n' ::
      declarationsText texts))))
    (hmargin : takeGap s = (margin, "package".toList ++ ' ' :: (package ++ '\n' :: '\n' ::
      (typeText ++ '\n' :: declarationsText texts))))
    (htype : ∃ parts, (item (grammar (depth + 4))).Reads
      ('\n' :: (typeText ++ '\n' :: declarationsText texts)) [⟨none, .node .typeDeclaration parts⟩]
      ('\n' :: declarationsText texts) ∧ typeSpecsOf parts = [spec])
    (htexts : ∀ text ∈ texts, ReadsAsDeclaration (depth + 4) text) :
    ∃ tree decls, (grammar (depth + 4)).sourceFile.Reads s [⟨none, tree⟩] [] ∧
      tree.toFile? = some ⟨String.ofList package, .types [spec] :: decls⟩ := by
  obtain ⟨typeParts, hreadType, hspec⟩ := htype
  obtain ⟨parts, hchain, hparts⟩ := reads_declarations htexts
  have hbreak : ∀ rest, Rule.terminator.Reads ('\n' :: rest) [⟨none, .token [] ['\n']⟩] rest :=
    fun _ => rfl
  have hclause : (item (grammar (depth + 4)) ++ .terminator).Reads s _ _ :=
    (reads_packageClause hpackage hmargin).append (hbreak _)
  have hclauseShorter :
      ('\n' :: (typeText ++ '\n' :: declarationsText texts)).length < s.length := by
    rw [hs]
    simp only [List.length_cons, List.length_append]
    omega
  have htypeShorter : (declarationsText texts).length <
      ('\n' :: (typeText ++ '\n' :: declarationsText texts)).length := by
    simp only [List.length_cons, List.length_append]
    omega
  have hall := Rule.Chain.step hclause hclauseShorter
    (.step (hreadType.append (hbreak _)) htypeShorter hchain)
  have htop : (grammar (depth + 4)).topDeclaration.Fails [] := rfl
  have hend : Rule.endOfText.Reads [] [⟨none, .token [] []⟩] [] := rfl
  obtain ⟨decls, hfile⟩ := toFile?_sourceFile margin package hspec hparts
  refine ⟨_, decls, .node (.append (.append hall.many (.none htop)) hend), ?_⟩
  simpa using hfile

end

end FluentBuilder.Go
