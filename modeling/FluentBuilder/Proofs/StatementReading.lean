import FluentBuilder.Proofs.ExpressionReading

/-!
# Reading statements — the statements in the bodies of a builder

A statement that begins with no keyword is a plain one: expressions, and what stands behind them.
The entries of a literal and the statements of a block stand on lines of their own, each read up to
the mark behind it.

* **`reads_entries`** — the entries between the braces of a literal.
* **`reads_return`**, **`reads_assign`** — a value that is given back, a value that is stored.
* **`reads_block`** — statements on lines of their own between braces.
-/

namespace FluentBuilder.Go

open Grammar

section

variable {s gap r x rest : List Char} {place : Place} {g : Grammar}

/-! ## What ends an expression -/

/-- A line break ends an expression in a statement. -/
theorem ExprCloses.of_break (h : place.ends = true) (rest : List Char) :
    ExprCloses place ('\n' :: rest) := by
  have hfails : (Rule.onLine place.ends).Fails ('\n' :: rest) := h ▸ .onLine rfl
  have hno : ¬ (Rule.onLine place.ends).Reads ('\n' :: rest) [] ('\n' :: rest) := by
    intro hreads
    cases hfails.symm.trans hreads
  exact ⟨⟨stopsWord_cons (by decide) _, .inl ⟨h, rfl⟩⟩, (absurd · hno), (absurd · hno)⟩

/-- The mark of an assignment ends the expression in front of it. -/
theorem ExprCloses.of_assign (rest : List Char) :
    ExprCloses .statement (' ' :: '=' :: ' ' :: rest) := by
  have hgap : takeGap (' ' :: '=' :: ' ' :: rest) = ([' '], '=' :: ' ' :: rest) :=
    takeGap_blank (by decide) (by decide) _
  have hclosing : AtClosing (' ' :: '=' :: ' ' :: rest) := ⟨_, _, _, hgap, by decide⟩
  refine ⟨⟨stopsWord_cons (by decide) _, .inr hclosing⟩, fun _ level => ?_,
    fun _ => .token hgap (by decide) (by decide)⟩
  refine .scanToken ?_
  have hlongest : longest ((allOperators ++ marksBehind .statement).map String.toList)
      ('=' :: ' ' :: rest) = some (['='], ' ' :: rest) := rfl
  have hother : ((Grammar.operators level).map String.toList).contains ['='] = false := by
    match level with
    | 0 => rfl
    | 1 | 2 | 3 | 4 | 5 => rfl
    | n + 6 => rfl
  rw [hgap]
  simp only [Place.statement, hlongest, hother, Bool.false_eq_true, if_false]

/-! ## Selectors -/

/-- **A name with a selector is read as one expression.** -/
theorem reads_selector (hr : AtWord s gap r ('.' :: (x ++ rest)))
    (hname : r ∉ operandKeywords.map String.toList) (hx : IsWord x) (hclosing : AtClosing rest)
    (hend : ExprCloses place rest) (hbrace : (Rule.token "\x7b").Fails rest) (depth : Nat) :
    ∃ parts, ((grammar (depth + 2)).expr place).Reads s parts rest := by
  have hline : (Rule.onLine place.ends).Reads ('.' :: (x ++ rest)) [] ('.' :: (x ++ rest)) :=
    .onLine (.inr (breakAhead_stop (by decide) (by decide) _))
  have hnamed : ((grammar depth).namedLiteral place).Fails s :=
    namedLiteral_fails_selector hr hname hline (takeGap_stop (by decide) (by decide) _)
      (.of_word hx hend.ends.stops) (hclosing.token (by decide) (by decide))
      (literal_fails hbrace depth)
  have hshorter : rest.length < ('.' :: (x ++ rest)).length := by
    simp only [List.length_cons, List.length_append]
    omega
  have hsuffix := fun left : List Part => suffix_fails (g := grammar depth) left hend.ends.noSuffix
  exact ⟨_, reads_expr_of_primary hend (prefixMarks_fail hr)
    (Rule.Extends.extend (reads_operand_name hr hname hnamed)
      (.step (.append hline (.left (.node (.append (.append .yield (.mark rfl (by decide)))
        (.name (.of_word hx hend.ends.stops) nofun))))) hshorter (.stop (hsuffix _))))⟩

/-! ## Literals -/

/-- An element between braces, perhaps with a key. -/
def element (g : Grammar) : Rule :=
  g.literalElement.andThen fun first =>
    .node .keyedElement
      (.yield (first.map fun part => ⟨some .key, part.tree⟩) ++ .token ":" ++
        g.literalElement.as .value) <|>
    .yield first

theorem element_fails (h : AtClosing s) (hbrace : (Rule.token "\x7b").Fails s) (depth : Nat) :
    (element (grammar depth)).Fails s :=
  .andThen (.node (.orElse (binary_fails h depth) (literal_fails hbrace depth)))

/-- The text of a key and, behind a colon, a value with a selector. -/
inductive IsEntry : List Char → Prop
  | mk {key blanks r x : List Char} (hkey : IsWord key)
      (hkeyName : key ∉ operandKeywords.map String.toList)
      (hblanks : ∀ c ∈ blanks, isSpace c = true) (hr : IsWord r)
      (hrName : r ∉ operandKeywords.map String.toList) (hx : IsWord x) :
      IsEntry (key ++ ':' :: (blanks ++ (r ++ '.' :: x)))

theorem IsEntry.gapless {text : List Char} (h : IsEntry text) : Gapless text := by
  obtain ⟨hkey, -, -, -, -, -⟩ := h
  obtain ⟨c, cs, rfl, hc, -⟩ := isWord_iff.mp hkey
  obtain ⟨hspace, hslash⟩ := isSpace_of_isIdentStart hc
  exact fun rest => takeGap_stop hspace hslash _

/-- A key and its value are read up to the comma behind them. -/
theorem IsEntry.reads {text : List Char} (h : IsEntry text)
    (hs : takeGap s = (gap, text ++ ',' :: rest)) (depth : Nat) :
    ∃ tree, (element (grammar (depth + 2))).Reads s [⟨none, tree⟩] (',' :: rest) := by
  cases h with
  | @mk key blanks r x hkey hkeyName hblanks hr hrName hx =>
      simp only [List.append_assoc, List.cons_append] at hs
      have hcolon : ∀ rest, ExprCloses .inside (':' :: rest) :=
        .of_mark (by decide) (by decide) (by decide)
      have hcomma : ExprCloses .inside (',' :: rest) :=
        .of_mark (by decide) (by decide) (by decide) _
      have hselector : AtWord (r ++ '.' :: (x ++ ',' :: rest)) [] r ('.' :: (x ++ ',' :: rest)) :=
        .of_word hr (stopsWord_cons (by decide) _)
      have hname := reads_expr_name ⟨hs, hkey, (hcolon _).ends.stops⟩ hkeyName (hcolon _) depth
      obtain ⟨parts, hread⟩ := reads_selector (hselector.behindSpaces hblanks) hrName hx
        (.of_cons (by decide) rest) hcomma (.mark (by decide) (by decide)) depth
      exact ⟨_, .andThen (.node (.left hname)) (.left (.node (.append (.append .yield
        (.mark rfl (by decide))) (.as (.node (.left hread))))))⟩

/-- Braces with nothing in between. -/
theorem reads_emptyLiteral (depth : Nat) (rest : List Char) :
    ∃ parts, (grammar depth).literalRule.Reads ('\x7b' :: '\x7d' :: rest) parts rest :=
  have hclosing : AtClosing ('\x7d' :: rest) := .of_cons (by decide) rest
  ⟨_, .node (.append (.append (.mark rfl (by decide)) (.append
    (.none (.append (element_fails hclosing (.mark (by decide) (by decide)) depth)))
    (.none (.mark (by decide) (by decide))))) (.mark rfl (by decide)))⟩

/-- Braces with entries on lines of their own, each with a comma behind it. -/
theorem reads_entries {text margin close : List Char} {others : List (List Char)}
    (hentries : ∀ entry ∈ text :: others, IsEntry entry)
    (hmargin : ∀ c ∈ margin, isSpace c = true) (hclose : ∀ c ∈ close, isSpace c = true)
    (depth : Nat) (rest : List Char) :
    ∃ parts, (grammar (depth + 2)).literalRule.Reads
      ('\x7b' :: (margin ++
        (text ++ behindMarks ',' margin others (',' :: (close ++ '\x7d' :: rest)))))
      parts rest := by
  have hitems : ReadsItems (element (grammar (depth + 2))) (fun _ _ => True) ',' margin
      (text :: others) (',' :: (close ++ '\x7d' :: rest)) := by
    intro entry entries hsuffix s gap hs
    obtain ⟨left, hleft⟩ : ∃ left, behindMarks ',' margin entries
        (',' :: (close ++ '\x7d' :: rest)) = ',' :: left := by
      cases entries <;> exact ⟨_, rfl⟩
    rw [hleft] at hs ⊢
    obtain ⟨tree, hread⟩ := (hentries entry (hsuffix.subset (.head _))).reads hs depth
    exact ⟨tree, hread, trivial⟩
  have hcomma : (Rule.token ",").Reads (',' :: (close ++ '\x7d' :: rest)) _ _ :=
    .mark rfl (by decide)
  have hbrace : takeGap (close ++ '\x7d' :: rest) = (close, '\x7d' :: rest) := by
    rw [takeGap_spaces hclose, takeGap_stop (by decide) (by decide), List.append_nil]
  have hstop : (Rule.token "," ++ element (grammar (depth + 2))).Fails
      (',' :: (close ++ '\x7d' :: rest)) :=
    .behind hcomma (element_fails ((AtClosing.of_cons (by decide) rest).behindSpaces hclose)
      (.token hbrace (by decide) (by decide)) _)
  obtain ⟨tree, trees, hread, -⟩ := hitems.sepBy (separates_comma hmargin)
    (fun other hother => (hentries other (.tail _ hother)).gapless) hstop
    ((hentries text (.head _)).gapless.behind hmargin _)
  exact ⟨_, .node (.append (.append (.mark rfl (by decide)) (.append (.some hread) (.some hcomma)))
    (.markBehind rfl (by decide) hclose))⟩

/-- **A name with braces behind it** is a literal of a type. -/
theorem reads_namedLiteral {parts : List Part} (hw : AtWord s gap r ('\x7b' :: x))
    (hname : r ∉ operandKeywords.map String.toList) (hplace : place.braces = .anyName)
    (hliteral : g.literal.Reads ('\x7b' :: x) parts rest) :
    ∃ tree, (g.namedLiteral place).Reads s [⟨none, tree⟩] rest := by
  have hclosing : AtClosing ('\x7b' :: x) := .of_cons (by decide) x
  have hline : (Rule.onLine place.ends).Reads ('\x7b' :: x) [] ('\x7b' :: x) :=
    .onLine (.inr (breakAhead_stop (by decide) (by decide) x))
  have hdot : (Rule.onLine place.ends ++ .token ".").Fails ('\x7b' :: x) :=
    .onLineAppend (.mark (by decide) (by decide))
  have hqualified := qualifiedType_fails hw hname hdot
  have hgeneric : (g.genericType operandKeywords place.ends).Fails s :=
    genericType_fails hw hname ((Closes.noSuffix ⟨hw.stops, .inr hclosing⟩).subset (by decide))
  have hplain : (if place.braces == .anyName then
      Rule.name .typeIdentifier operandKeywords ++ .onLine place.ends else .never).Reads s
      [⟨none, .leaf .typeIdentifier gap r⟩] ('\x7b' :: x) := by
    rw [hplace]
    exact .append (.name hw hname) hline
  have hbehind : (behindBraces place).Reads rest [] rest := by
    rw [behindBraces, hplace]
    exact .nothing
  exact ⟨_, .node (.append (.append (.as (.right
    (.orElse (.node (.append (.append (.as hqualified)))) hgeneric) (.right hqualified hplain)))
    (.as hliteral)) hbehind)⟩

theorem reads_expr_literal {parts : List Part} (hw : AtWord s gap r ('\x7b' :: x))
    (hname : r ∉ operandKeywords.map String.toList) (hplace : place.braces = .anyName)
    {depth : Nat} (hliteral : (grammar depth).literal.Reads ('\x7b' :: x) parts rest)
    (hend : ExprCloses place rest) :
    ∃ parts, ((grammar (depth + 2)).expr place).Reads s parts rest := by
  obtain ⟨tree, hread⟩ := reads_namedLiteral hw hname hplace hliteral
  have hvalue : r ∉ valueKeywords.map String.toList := fun hmem =>
    hname (by rw [operandKeywords, List.map_append]; exact List.mem_append_right _ hmem)
  exact ⟨_, reads_expr_of_operand hend (prefixMarks_fail hw) (.right (basicLiteral_fails hw hvalue)
    (.right (allocation_fails hw hvalue) (.left hread)))⟩

/-- A literal with an `&` in front of it. -/
theorem reads_expr_address {parts : List Part} {after : List Char}
    (hs : takeGap s = (gap, '&' :: after)) (hw : AtWord after [] r ('\x7b' :: x))
    (hname : r ∉ operandKeywords.map String.toList) (hplace : place.braces = .anyName)
    {depth : Nat} (hliteral : (grammar depth).literal.Reads ('\x7b' :: x) parts rest)
    (hend : ExprCloses place rest) :
    ∃ parts, ((grammar (depth + 3)).expr place).Reads s parts rest := by
  obtain ⟨tree, hread⟩ := reads_namedLiteral hw hname hplace hliteral
  have hvalue : r ∉ valueKeywords.map String.toList := fun hmem =>
    hname (by rw [operandKeywords, List.map_append]; exact List.mem_append_right _ hmem)
  have hprimary : ((grammar depth).primary place).Reads after _ rest :=
    Rule.Extends.extend (.right (basicLiteral_fails hw hvalue)
      (.right (allocation_fails hw hvalue) (.left hread)))
        (.stop (suffix_fails _ hend.ends.noSuffix))
  have hunary : ((grammar (depth + 1)).unary place).Reads after _ rest :=
    unaryRule_of_primary (g := grammar depth) (prefixMarks_fail hw) hprimary
  have hother : ∀ text ∈ ["<-", "+", "-", "!", "^", "*"], (Rule.token text).Fails s :=
    .tokens hs (by decide)
  have hmark : (firstOf (prefixMarks.map .token)).Reads s [⟨none, .token gap ['&']⟩] after :=
    .right (hother _ (by decide)) (.right (hother _ (by decide)) (.right (hother _ (by decide))
      (.right (hother _ (by decide)) (.right (hother _ (by decide))
        (.right (hother _ (by decide)) (.left (.token hs)))))))
  exact ⟨_, reads_binaryRule (g := grammar (depth + 2)) (.left (.node (.append hmark hunary))) hend⟩

/-! ## Statements -/

/-- The words that begin a declaration or a statement with a block. -/
def headWords : List String := ["const", "var", "type", "if", "for", "switch", "select"]

/-- Where neither such a word nor a brace stands, the rules behind those decide. -/
theorem read_behind_heads (hwords : ∀ text ∈ headWords, (Rule.keyword text).Fails s)
    (hblock : g.block.Fails s) (other : Rule) :
    (g.declaration <|> g.block <|> g.ifStatement <|> g.forStatement <|> g.switchStatement <|>
      g.selectStatement <|> other).read s = other.read s := by
  have hspec : ∀ {kind : Kind} {text : String} {body : Rule}, text ∈ headWords →
      (Rule.node kind (.keyword text ++ body)).Fails s := fun htext =>
    .node (.append (hwords _ htext))
  have hdeclaration : g.declaration.Fails s :=
    .orElse (hspec (by decide)) (.orElse (hspec (by decide)) (hspec (by decide)))
  have hif : g.ifStatement.Fails s := .node (.append (hwords _ (by decide)))
  have hfor : g.forStatement.Fails s := .node (.append (hwords _ (by decide)))
  have hswitch : g.switchStatement.Fails s := .andThen (hwords _ (by decide))
  have hselect : g.selectStatement.Fails s := .node (.append (hwords _ (by decide)))
  rw [hdeclaration.read_orElse, hblock.read_orElse, hif.read_orElse, hfor.read_orElse,
    hswitch.read_orElse, hselect.read_orElse]

/-- A statement that begins with no keyword. -/
def plainStatement (g : Grammar) (keywords : List String) : Rule :=
  .node .labeledStatement
    (.name .labelName (operandKeywords ++ (statementKeywords ++ keywords)) ++
      (.onLine true ++ .token ":") ++ g.statement caseKeywords) <|>
  .notAhead (firstOf ((statementKeywords ++ keywords).map .keyword)) ++
    g.simpleStatement .statement .statement false ++ .notAhead (.onLine true ++ .token ":")

/-- Where no keyword of a statement stands, nor a brace or a semicolon, a statement is a plain
one. -/
theorem read_behind_keywords (hwords : ∀ text ∈ statementKeywords, (Rule.keyword text).Fails s)
    (hblock : g.block.Fails s) (hempty : (Rule.token ";").Fails s) (keywords : List String) :
    (g.statementRule keywords).read s = (plainStatement g keywords).read s := by
  have hheads : ∀ text ∈ headWords, (Rule.keyword text).Fails s := fun text htext =>
    hwords text ((by decide : headWords ⊆ statementKeywords) htext)
  have hjump : ∀ {kind : Kind} {text : String} {label : Rule}, text ∈ statementKeywords →
      (Rule.node kind (.keyword text ++ label)).Fails s := fun htext =>
    .node (.append (hwords _ htext))
  have hfallthrough : (Rule.node .fallthroughStatement (.keyword "fallthrough")).Fails s :=
    .node (hwords _ (by decide))
  rw [statementRule, read_behind_heads hheads hblock, (hjump (by decide)).read_orElse,
    (hjump (by decide)).read_orElse, (hjump (by decide)).read_orElse, hfallthrough.read_orElse,
    (hjump (by decide)).read_orElse, (hjump (by decide)).read_orElse,
    (hjump (by decide)).read_orElse, hempty.node.read_orElse]
  rfl

theorem block_fails (h : (Rule.token "\x7b").Fails s) (depth : Nat) :
    (grammar depth).block.Fails s := by
  cases depth with
  | zero => exact .never
  | succ depth =>
      have hblock : (grammar depth).blockRule.Fails s := .node (.append (.append h))
      exact hblock

/-- One expression at the end of a line. -/
theorem reads_exprList {parts : List Part} (hplace : place.ends = true)
    (h : (g.expr place).Reads s parts ('\n' :: rest)) :
    ∃ parts, (g.exprList place).Reads s parts ('\n' :: rest) := by
  have hbreak : (Rule.onLine place.ends).Fails ('\n' :: rest) := hplace ▸ .onLine rfl
  exact ⟨_, .node (.sepBy h (.stop (.append (.append hbreak))))⟩

/-- A statement that gives back a value. -/
theorem reads_return {parts : List Part} {keywords : List String} {value : List Char}
    (hs : takeGap s = (gap, "return".toList ++ ' ' :: value))
    (hline : breakAhead value = false)
    (hcase : ∀ text ∈ caseKeywords, (Rule.keyword text).Fails (' ' :: value)) {depth : Nat}
    (hvalue : ((grammar depth).expr (Place.statement.withSlot .plain)).Reads (' ' :: value) parts
      ('\n' :: rest)) :
    ∃ tree, ((grammar depth).statementRule keywords).Reads s [⟨none, tree⟩] ('\n' :: rest) := by
  have hw : AtWord s gap "return".toList (' ' :: value) :=
    ⟨hs, by decide, stopsWord_cons (by decide) _⟩
  have hwords : ∀ text ∈ headWords, (Rule.keyword text).Fails s := .otherKeywords hw (by decide)
  have hahead : (Rule.onLine true).Reads (' ' :: value) [] (' ' :: value) :=
    .onLine (.inr (by rw [breakAhead_space (by decide) (by decide), hline]))
  have hnoCase : (firstOf (caseKeywords.map .keyword)).Fails (' ' :: value) := .firstOfMap hcase
  obtain ⟨parts, hlist⟩ := reads_exprList rfl hvalue
  refine ⟨_, (read_behind_heads hwords (block_fails (.tokenAtWord hw (by decide)) depth) _).trans
    (Rule.Reads.left (.node (.append (.keyword hw rfl)
      (.some (.append (.append hahead (.notAhead hnoCase)) hlist)))))⟩

/-- Behind a mark for it, an assignment is read up to the end of the line. -/
theorem reads_assignment {left right : List Part} {value : List Char}
    (hleft : (g.expr .statement).Reads s left (' ' :: '=' :: ' ' :: value))
    (hright : (g.exprList (Place.statement.withSlot .plain)).Reads (' ' :: value) right
      ('\n' :: rest)) :
    ∃ tree, (g.simpleStatement .statement .statement false).Reads s [⟨none, tree⟩]
      ('\n' :: rest) := by
  have hgap : takeGap (' ' :: '=' :: ' ' :: value) = ([' '], '=' :: ' ' :: value) :=
    takeGap_blank (by decide) (by decide) _
  have hmarks : ∀ text ∈ ["<-", "++", "--", ":=", ","],
      (Rule.token text).Fails (' ' :: '=' :: ' ' :: value) := .tokens hgap (by decide)
  have hline : (Rule.onLine true).Reads (' ' :: '=' :: ' ' :: value) []
      (' ' :: '=' :: ' ' :: value) :=
    .onLine (.inr (breakAhead_blank (by decide) (by decide) _))
  have hassign : (Rule.tokenOf assignMarks assignMarks).Reads (' ' :: '=' :: ' ' :: value)
      [⟨none, .token [' '] ['=']⟩] (' ' :: value) :=
    .scanToken (congrArg Prod.fst hgap) (by rw [hgap]; rfl)
  have hnames : (Rule.onLine true ++ .node .expressionList (.yield left ++
      (Rule.token "," ++ g.expr (Place.inside.withSlot .target)).many)).Reads
        (' ' :: '=' :: ' ' :: value) _ (' ' :: '=' :: ' ' :: value) :=
    .append hline (.node (.append .yield
      (Rule.Chain.many (.stop (.append (hmarks _ (by decide)))))))
  exact ⟨_, .andThen hleft
    (.right (.node (.append (.behind (.append .yield hline) (hmarks _ (by decide)))))
      (.right (.node (.behind (.append .yield hline) (hmarks _ (by decide))))
        (.right (.node (.behind (.append .yield hline) (hmarks _ (by decide))))
          (.left (.andThen hnames
            (.right .never (.right (.node (.append (.behind .yield (hmarks _ (by decide)))))
              (.node (.append (.append .yield hassign) hright)))))))))⟩

/-- **An assignment to a selector.** -/
theorem reads_assign {keywords : List String} {y : List Char}
    (hs : AtWord s gap r ('.' :: (x ++ ' ' :: '=' :: ' ' :: (y ++ '\n' :: rest))))
    (hr : r ∉ (operandKeywords ++ (statementKeywords ++ keywords)).map String.toList)
    (hx : IsWord x) (hy : IsWord y) (hyName : y ∉ operandKeywords.map String.toList)
    (depth : Nat) :
    ∃ tree, ((grammar (depth + 2)).statementRule keywords).Reads s [⟨none, tree⟩]
      ('\n' :: rest) := by
  have hwords : ∀ text ∈ statementKeywords ++ keywords, (Rule.keyword text).Fails s :=
    fun text htext => .keyword hs fun heq =>
      hr (heq ▸ List.mem_map_of_mem (List.mem_append_right _ htext))
  have hrName : r ∉ operandKeywords.map String.toList := fun hmem =>
    hr (by rw [List.map_append]; exact List.mem_append_left _ hmem)
  -- the left side ends in front of the mark, the right side at the end of the line
  have hgap : takeGap (' ' :: '=' :: ' ' :: (y ++ '\n' :: rest)) =
      ([' '], '=' :: ' ' :: (y ++ '\n' :: rest)) := takeGap_blank (by decide) (by decide) _
  obtain ⟨left, hleft⟩ : ∃ left, ((grammar (depth + 2)).expr .statement).Reads s left _ :=
    reads_selector hs hrName hx ⟨_, _, _, hgap, by decide⟩ (.of_assign _)
      (.token hgap (by decide) (by decide)) depth
  have hvalue : AtWord (' ' :: (y ++ '\n' :: rest)) [' '] y ('\n' :: rest) :=
    (AtWord.of_word hy (stopsWord_cons (by decide) _)).behind (by decide)
  obtain ⟨right, hright⟩ := reads_exprList (rfl : (Place.statement.withSlot .plain).ends = true)
    (reads_expr_name hvalue hyName (.of_break rfl rest) depth)
  obtain ⟨tree, hassign⟩ := reads_assignment hleft hright
  -- the word in front of it is no label and begins no other statement
  have hcolon : (Rule.onLine true ++ Rule.token ":").Fails
      ('.' :: (x ++ ' ' :: '=' :: ' ' :: (y ++ '\n' :: rest))) :=
    .onLineAppend (.mark (by decide) (by decide))
  have hreserved := Rule.Fails.firstOfMap hwords
  have hplain : (plainStatement (grammar (depth + 2)) keywords).Reads s [⟨none, tree⟩]
      ('\n' :: rest) :=
    .right (.node (.append (.behind (.name hs hr) hcolon)))
      (.append (.append (.notAhead hreserved) hassign) (.notAhead (.append (.onLine rfl))))
  have hnoBlock := block_fails (.tokenAtWord hs (by decide)) (depth + 2)
  exact ⟨tree, (read_behind_keywords (fun text htext => hwords text (List.mem_append_left _ htext))
    hnoBlock (.tokenAtWord hs (by decide)) keywords).trans hplain⟩

/-- No statement begins with a closing mark. -/
theorem statement_fails {keywords : List String} (h : AtClosing s)
    (hbrace : (Rule.token "\x7b").Fails s) (depth : Nat) :
    ((grammar depth).statement keywords).Fails s := by
  cases depth with
  | zero => exact .never
  | succ depth =>
      have hword : ∀ text, (Rule.keyword text).Fails s := fun text => h.noWord.keyword
      have hreserved : (firstOf ((statementKeywords ++ keywords).map .keyword)).Fails s :=
        .firstOfMap fun text _ => hword text
      have hplain : (plainStatement (grammar depth) keywords).Fails s :=
        .orElse (.node (.append (.append h.noWord.name)))
          (.append (.behind (.notAhead hreserved) (.andThen (binary_fails h depth))))
      have hstatement : ((grammar depth).statementRule keywords).Fails s :=
        (read_behind_keywords (fun _ _ => hword _) (block_fails hbrace depth)
          (h.token (by decide) (by decide)) keywords).trans hplain
      exact hstatement

/-! ## Blocks -/

/-- A text is read as a statement at the end of a line, wherever it stands in a block. -/
structure ReadsAsStatement (depth : Nat) (text : List Char) : Prop where
  gapless : Gapless text
  reads {keywords : List String} {s gap rest : List Char} (hkeywords : keywords ⊆ caseKeywords)
    (h : takeGap s = (gap, text ++ '\n' :: rest)) :
    ∃ tree, ((grammar depth).statement keywords).Reads s [⟨none, tree⟩] ('\n' :: rest)

/-- **A block with statements on lines of their own.** -/
theorem reads_block {text margin close : List Char} {others : List (List Char)} {depth : Nat}
    (hstatements : ∀ other ∈ text :: others, ReadsAsStatement depth other)
    (hmargin : ∀ c ∈ margin, isSpace c = true) (hclose : ∀ c ∈ close, isSpace c = true)
    (hs : takeGap s = (gap, '\x7b' :: '\n' :: (margin ++ (text ++
      behindMarks '\n' margin others ('\n' :: (close ++ '\x7d' :: rest)))))) :
    ∃ tree, (grammar (depth + 1)).block.Reads s [⟨none, tree⟩] rest := by
  have hclosing : AtClosing (close ++ '\x7d' :: rest) :=
    (AtClosing.of_cons (by decide) rest).behindSpaces hclose
  have hbrace : takeGap (close ++ '\x7d' :: rest) = (close, '\x7d' :: rest) := by
    rw [takeGap_spaces hclose, takeGap_stop (by decide) (by decide), List.append_nil]
  have hend : Rule.terminator.Reads ('\n' :: (close ++ '\x7d' :: rest)) [⟨none, .token [] ['\n']⟩]
      (close ++ '\x7d' :: rest) := rfl
  -- the last line break ends a statement, but none begins behind it
  have hstop : (Rule.terminator ++ (grammar depth).statement caseKeywords).Fails
      ('\n' :: (close ++ '\x7d' :: rest)) :=
    .behind hend (statement_fails hclosing (.token hbrace (by decide) (by decide)) depth)
  have hline : ∀ texts, ∃ left, behindMarks '\n' margin texts ('\n' :: (close ++ '\x7d' :: rest)) =
      '\n' :: left := by
    intro texts
    cases texts <;> exact ⟨_, rfl⟩
  have hitems : ReadsItems ((grammar depth).statement caseKeywords) (fun _ _ => True) '\n' margin
      others ('\n' :: (close ++ '\x7d' :: rest)) := by
    intro other texts hsuffix s gap hs
    obtain ⟨left, hleft⟩ := hline texts
    rw [hleft] at hs ⊢
    obtain ⟨tree, hread⟩ :=
      (hstatements other (.tail _ (hsuffix.subset (.head _)))).reads (List.Subset.refl _) hs
    exact ⟨tree, hread, trivial⟩
  obtain ⟨trees, hchain, -⟩ := hitems.chain (separates_line hmargin)
    (fun other hother => (hstatements other (.tail _ hother)).gapless) hstop
  -- the first statement has the line break behind the brace in its gap
  obtain ⟨left, hleft⟩ := hline others
  have hfirst : takeGap ('\n' :: (margin ++ (text ++ '\n' :: left))) =
      ('\n' :: margin, text ++ '\n' :: left) := by
    rw [takeGap_space (by decide), (hstatements text (.head _)).gapless.behind hmargin]
  obtain ⟨tree, hread⟩ := (hstatements text (.head _)).reads (List.nil_subset _) hfirst
  rw [hleft] at hs hchain
  have hlabel : (Rule.node .labeledStatement (.name .labelName (operandKeywords ++
      statementKeywords ++ caseKeywords) ++ .onLine true ++ .token ":" ++
        .ahead (endsList []))).Fails (close ++ '\x7d' :: rest) :=
    .node (.append (.append (.append hclosing.noWord.name)))
  have hlist : ((grammar depth).statementList []).Reads _ _ (close ++ '\x7d' :: rest) :=
    .node (.left (.append (.append hread hchain.many) (.some (.append hend (.none hlabel)))))
  have hblock : (grammar depth).blockRule.Reads s _ rest :=
    .node (.append (.append (.token hs) (.some hlist)) (.markBehind rfl (by decide) hclose))
  exact ⟨_, hblock⟩

end

end FluentBuilder.Go
