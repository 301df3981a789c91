import FluentBuilder.Proofs.OperationReading

/-!
# Reading operands — the text of an expression is read as one with the same text

Each part of an expression is read up to what ends it, with the text that it has: an operand, the
selectors and calls behind it, the arguments of a call. There is one lemma for each constructor of
`IsExpr`.

* **`ReadsAsOperand.name`**, **`paren`**, **`signed`**, **`number`** — operands.
* **`IsExpr.reads`** — an expression is read as one.
-/

namespace FluentBuilder.Go

open Grammar

/-- The text of an expression: it is read as one in front of what ends it. -/
def ReadsAsExpr (u : List Char) : Prop :=
  ∀ (depth : Nat) {s gap rest : List Char}, u.length ≤ depth → takeGap s = (gap, u ++ rest) →
    EndsAt exprEnds rest → ∃ tree,
      ((grammar depth).binaryRule .inside 1).Reads s [⟨none, tree⟩] rest ∧ tree.HasText gap u

/-- The text of selectors and calls: what stands in front of it goes on with them. -/
def ReadsAsSuffixes (v : List Char) : Prop :=
  ∀ (depth : Nat) {rest gap u : List Char} {tree : Tree}, v.length ≤ depth + 1 →
    EndsAt operandEnds rest → tree.HasText gap u → ∃ tree',
      Rule.Extends ((grammar depth).suffix .inside) [⟨none, tree⟩] (v ++ rest) [⟨none, tree'⟩]
        rest ∧ tree'.HasText gap (u ++ v)

/-- An argument of a call. -/
def argumentRule (g : Grammar) : Rule :=
  (g.expr .inside).andThen fun value =>
    .node .variadicArgument (.yield value ++ .token "...") <|> .yield value

/-- The arguments of a call. -/
def argumentsRule (g : Grammar) : Rule :=
  ((argumentRule g).sepBy (.token ",") ++ (Rule.token ",").opt : Rule).opt

/-- The text of arguments behind a first one. -/
def ReadsAsMore (a : List Char) : Prop :=
  ∀ (depth : Nat) {rest : List Char}, a.length ≤ depth → EndsAt [')'] rest → ∃ parts,
    (Rule.token "," ++ argumentRule (grammar (depth + 1))).Chain (a ++ rest) parts rest ∧
      leavesText (partsLeaves parts) = a

/-- The text of the arguments of a call. -/
def ReadsAsArguments (a : List Char) : Prop :=
  ∀ (depth : Nat) {rest : List Char}, a.length ≤ depth → EndsAt [')'] rest → ∃ parts,
    (argumentsRule (grammar (depth + 1))).Reads (a ++ rest) parts rest ∧
      leavesText (partsLeaves parts) = a

section

variable {u v a w gap gap' s rest behind : List Char} {depth : Nat}

theorem IsGap.space (h : IsGap gap) : ∀ c ∈ gap, isSpace c = true := by
  rcases h with rfl | rfl
  · exact nofun
  · decide

/-- A word behind a gap. -/
theorem IsGap.atWord (h : IsGap gap) (hw : IsWord w) (hrest : StopsWord rest) :
    AtWord (gap ++ (w ++ rest)) gap w rest :=
  ⟨takeGap_behindGap h (AtWord.of_word hw hrest).front, hw, hrest⟩

theorem IsExpr.gapless (h : IsExpr .whole u) (rest : List Char) :
    takeGap (u ++ rest) = ([], u ++ rest) := by
  obtain ⟨c, cs, rfl, hc⟩ := h.front
  exact takeGap_stop hc.plain.1 hc.plain.2.2.1 _

theorem EndsAt.closing (h : EndsAt exprEnds rest) : AtClosing rest := h.closes.ends.closing

/-! ## Selectors and calls -/

/-- What selectors and calls begin with. -/
theorem IsExpr.suffixes_end (h : IsExpr .suffixes v) (hrest : EndsAt operandEnds rest) :
    EndsAt nameEnds (v ++ rest) := by
  cases h with
  | noSuffix => exact hrest.subset (List.subset_append_right _ _)
  | selector hgap _ _ _ =>
      rw [List.append_assoc, List.cons_append]
      exact .of_gap hgap (takeGap_stop (by decide) (by decide) _) (by decide) (by decide)
  | call hgap _ _ _ =>
      rw [List.append_assoc, List.cons_append]
      exact .of_gap hgap (takeGap_stop (by decide) (by decide) _) (by decide) (by decide)

/-- What further arguments begin with. -/
theorem IsExpr.arguments_end (h : IsExpr .moreArguments a) (hrest : EndsAt [')'] rest) :
    EndsAt exprEnds (a ++ rest) := by
  cases h with
  | lastArgument => exact hrest.subset (by decide)
  | nextArgument hgap _ _ _ =>
      rw [List.append_assoc, List.cons_append]
      exact .of_gap hgap (takeGap_stop (by decide) (by decide) _) (by decide) (by decide)

/-- An argument is read up to the comma or the bracket behind it. -/
theorem ReadsAsExpr.argument (hu : ReadsAsExpr u) (depth : Nat) (hdepth : u.length ≤ depth)
    (h : takeGap s = (gap, u ++ rest)) (hrest : EndsAt exprEnds rest) : ∃ tree,
      (argumentRule (grammar (depth + 1))).Reads s [⟨none, tree⟩] rest ∧ tree.HasText gap u := by
  obtain ⟨tree, hread, htree⟩ := hu depth hdepth h hrest
  have hvariadic : (Rule.token "...").Fails rest := hrest.token (by decide)
  exact ⟨tree, .andThen hread (.right (.node (.behind .yield hvariadic)) .yield), htree⟩

theorem ReadsAsMore.nil : ReadsAsMore [] := fun _ _ _ hrest =>
  ⟨[], .stop (.append (hrest.token (by decide))), rfl⟩

theorem ReadsAsMore.cons (hgap : IsGap gap) (hgap' : IsGap gap') (hu : IsExpr .whole u)
    (hread : ReadsAsExpr u) (ha : IsExpr .moreArguments a) (h : ReadsAsMore a) :
    ReadsAsMore (gap ++ ',' :: (gap' ++ (u ++ a))) := by
  intro depth rest hdepth hrest
  simp only [List.length_append, List.length_cons] at hdepth
  simp only [List.append_assoc, List.cons_append]
  obtain ⟨tree, hargument, htree⟩ := hread.argument depth (by omega)
    (takeGap_behindGap hgap' (hu.gapless _)) (ha.arguments_end hrest)
  obtain ⟨parts, hchain, hparts⟩ := h depth (by omega) hrest
  refine ⟨_, .step (.append (.markBehind rfl (by decide) hgap.space) hargument) ?_ hchain, ?_⟩
  · simp only [List.length_append, List.length_cons]
    omega
  · simp only [List.cons_append, List.nil_append, leavesText_cons (.token _ _),
      leavesText_cons htree, hparts]

theorem ReadsAsArguments.nil : ReadsAsArguments [] := by
  intro depth rest _ hrest
  have hend : EndsAt exprEnds rest := hrest.subset (by decide)
  exact ⟨[], .none (.append (.sepBy (.andThen (binary_fails hend.closing _)))), rfl⟩

theorem ReadsAsArguments.cons (hgap : IsGap gap) (hu : IsExpr .whole u) (hread : ReadsAsExpr u)
    (ha : IsExpr .moreArguments a) (h : ReadsAsMore a) : ReadsAsArguments (gap ++ (u ++ a)) := by
  intro depth rest hdepth hrest
  simp only [List.length_append] at hdepth
  simp only [List.append_assoc]
  obtain ⟨tree, hargument, htree⟩ := hread.argument depth (by omega)
    (takeGap_behindGap hgap (hu.gapless _)) (ha.arguments_end hrest)
  obtain ⟨parts, hchain, hparts⟩ := h depth (by omega) hrest
  refine ⟨_, .some (.append (.sepBy hargument hchain) (.none (hrest.token (by decide)))), ?_⟩
  simp only [List.cons_append, List.nil_append, List.append_nil, leavesText_cons htree, hparts]

namespace ReadsAsSuffixes

theorem nil : ReadsAsSuffixes [] := by
  intro depth rest gap u tree _ hrest htree
  exact ⟨tree, .stop (suffix_fails _ (hrest.noSuffix _)), by rwa [List.append_nil]⟩

theorem selector (hgap : IsGap gap) (hgap' : IsGap gap') (hw : IsWord w)
    (hv : IsExpr .suffixes v) (h : ReadsAsSuffixes v) :
    ReadsAsSuffixes (gap ++ '.' :: (gap' ++ (w ++ v))) := by
  intro depth rest before u tree hdepth hrest htree
  simp only [List.length_append, List.length_cons] at hdepth
  simp only [List.append_assoc, List.cons_append]
  have hword := hgap'.atWord hw (hv.suffixes_end hrest).stops
  have hstep : ((grammar depth).suffix .inside [⟨none, tree⟩]).Reads
      (gap ++ '.' :: (gap' ++ (w ++ (v ++ rest)))) _ (v ++ rest) :=
    .append (.onLine (.inl rfl)) (.left (.node
      (.append (.append .yield (.markBehind rfl (by decide) hgap.space)) (.anyName hword))))
  have hnode := htree.node .selectorExpression none
    [⟨none, .token gap ['.']⟩, ⟨none, .leaf .fieldIdentifier gap' w⟩]
  rw [leavesText_cons (.token _ _), leavesText_cons (.leaf _ _ _), leavesText_nil] at hnode
  obtain ⟨tree', hextends, htree'⟩ := h depth (by omega) hrest hnode
  refine ⟨tree', .step hstep ?_ hextends, ?_⟩
  · simp only [List.length_append, List.length_cons]
    omega
  · simpa only [List.append_assoc, List.cons_append, List.nil_append, List.append_nil] using htree'

theorem call (hgap : IsGap gap) (ha : ReadsAsArguments a) (hgap' : IsGap gap')
    (h : ReadsAsSuffixes v) : ReadsAsSuffixes (gap ++ '(' :: (a ++ (gap' ++ ')' :: v))) := by
  intro depth rest before u tree hdepth hrest htree
  simp only [List.length_append, List.length_cons] at hdepth
  simp only [List.append_assoc, List.cons_append]
  obtain ⟨depth, rfl⟩ : ∃ d, depth = d + 1 := ⟨depth - 1, by omega⟩
  have hclose : EndsAt [')'] (gap' ++ ')' :: (v ++ rest)) :=
    .of_gap hgap' (takeGap_stop (by decide) (by decide) _) (by decide) (by decide)
  obtain ⟨parts, hread, hparts⟩ := ha depth (by omega) hclose
  have harguments : (grammar (depth + 1)).arguments.Reads
      (gap ++ '(' :: (a ++ (gap' ++ ')' :: (v ++ rest)))) _ (v ++ rest) :=
    .node (.append (.append (.markBehind rfl (by decide) hgap.space) hread)
      (.markBehind rfl (by decide) hgap'.space))
  have hdot : (Rule.token ".").Fails (gap ++ '(' :: (a ++ (gap' ++ ')' :: (v ++ rest)))) :=
    .token (takeGap_behindGap hgap (takeGap_stop (by decide) (by decide) _)) (by decide)
      (by decide)
  have hstep : ((grammar (depth + 1)).suffix .inside [⟨none, tree⟩]).Reads
      (gap ++ '(' :: (a ++ (gap' ++ ')' :: (v ++ rest)))) _ (v ++ rest) :=
    .append (.onLine (.inl rfl)) (.right (.node (.append (.behind .yield hdot)))
      (.right (.node (.append (.behind .yield hdot))) (.left (.node (.append .yield harguments)))))
  have hlist : (Tree.node .argumentList
      ([⟨none, .token gap ['(']⟩] ++ parts ++ [⟨none, .token gap' [')']⟩])).HasText gap
        ('(' :: (a ++ (gap' ++ [')']))) := by
    have hnode := (Tree.HasText.token gap ['(']).node .argumentList none
      (parts ++ [⟨none, .token gap' [')']⟩])
    rwa [partsLeaves_append, leavesText_append, hparts, leavesText_cons (.token _ _),
      leavesText_nil] at hnode
  have hnode := htree.node .callExpression none [⟨none, .node .argumentList
    ([⟨none, .token gap ['(']⟩] ++ parts ++ [⟨none, .token gap' [')']⟩])⟩]
  rw [leavesText_cons hlist, leavesText_nil] at hnode
  obtain ⟨tree', hextends, htree'⟩ := h (depth + 1) (by omega) hrest hnode
  refine ⟨tree', .step hstep ?_ hextends, ?_⟩
  · simp only [List.length_append, List.length_cons]
    omega
  · simpa only [List.append_assoc, List.cons_append, List.nil_append, List.append_nil] using htree'

end ReadsAsSuffixes

/-! ## Operands -/

/-- A name in front of no selector is no literal of a type. -/
theorem namedLiteral_fails_end (h : AtWord s gap w behind)
    (hw : w ∉ operandKeywords.map String.toList) (hend : EndsAt ('(' :: operandEnds) behind) :
    ((grammar depth).namedLiteral .inside).Fails s := by
  have hmarks : ∀ text ∈ nameMarks, text.toList ≠ [] ∧
      ∀ c ∈ '(' :: operandEnds, text.toList.head? ≠ some c := by
    decide
  exact namedLiteral_fails h hw (fun _ text htext => hend.token (hmarks text htext))
    fun _ => literal_fails (hend.token (by decide)) depth

theorem namedLiteral_fails_suffixes (hw : IsWord w)
    (hname : w ∉ operandKeywords.map String.toList) (hv : IsExpr .suffixes v)
    (hrest : EndsAt operandEnds rest) (hs : takeGap s = (gap, w ++ (v ++ rest))) :
    ((grammar depth).namedLiteral .inside).Fails s := by
  have hword : AtWord s gap w (v ++ rest) := ⟨hs, hw, (hv.suffixes_end hrest).stops⟩
  cases hv with
  | noSuffix => exact namedLiteral_fails_end hword hname (hrest.subset (List.subset_cons_self _ _))
  | call hgap _ _ _ =>
      refine namedLiteral_fails_end hword hname ?_
      rw [List.append_assoc, List.cons_append]
      exact .of_gap hgap (takeGap_stop (by decide) (by decide) _) (by decide) (by decide)
  | @selector gap gap' x v hgap hgap' hx hv =>
      have hend := hv.suffixes_end hrest
      simp only [List.append_assoc, List.cons_append] at hword
      exact namedLiteral_fails_selector hword hname (.onLine (.inl rfl))
        (takeGap_behindGap hgap (takeGap_stop (by decide) (by decide) _))
        (hgap'.atWord hx hend.stops) (hend.token (by decide))
        (literal_fails (hend.token (by decide)) depth)

namespace ReadsAsOperand

theorem number (h : IsInteger u) : ReadsAsOperand u where
  front := (IsExpr.number h).front_operand
  reads depth {s gap rest} _ hs hrest := by
    have hdot : rest.head? ≠ some '.' := by
      intro hhead
      obtain ⟨cs, rfl⟩ := List.head?_eq_some_iff.mp hhead
      obtain ⟨gap, c, more, hfront, hc⟩ := hrest.front
      rw [takeGap_stop (by decide) (by decide)] at hfront
      cases hfront
      exact absurd hc (by decide)
    obtain ⟨c, cs, rfl, hc⟩ := h.front
    have hmarks : ∀ text ∈ prefixMarks, text.toList ≠ [] ∧
        text.toList.head?.any (fun d => !(digitValue 10 d).isSome) = true := by
      decide
    have hprefix : ∀ text ∈ prefixMarks, (Rule.token text).Fails s := by
      intro text htext
      obtain ⟨hne, hhead⟩ := hmarks text htext
      refine .token hs (fun heq => ?_) hne
      rw [heq, Option.any_some, hc] at hhead
      cases hhead
    exact ⟨_, unaryRule_of_primary hprefix (Rule.Extends.extend
      (.left (.left (reads_integer hrest.stops hdot h hs)))
        (.stop (suffix_fails _ (hrest.noSuffix _)))), .leaf _ _ _⟩

theorem name (hw : IsWord w) (hname : w ∉ operandKeywords.map String.toList)
    (hv : IsExpr .suffixes v) (h : ReadsAsSuffixes v) : ReadsAsOperand (w ++ v) where
  front := (IsExpr.name hw hname hv).front_operand
  reads depth {s gap rest} hdepth hs hrest := by
    rw [List.append_assoc] at hs
    rw [List.length_append] at hdepth
    have hword : AtWord s gap w (v ++ rest) := ⟨hs, hw, (hv.suffixes_end hrest).stops⟩
    obtain ⟨tree, hextends, htree⟩ :=
      h depth (by omega) hrest (.leaf .identifier gap w)
    exact ⟨tree, unaryRule_of_primary (prefixMarks_fail hword) (Rule.Extends.extend
      (reads_operand_name hword hname (namedLiteral_fails_suffixes hw hname hv hrest hs)) hextends),
      htree⟩

theorem paren (hgap : IsGap gap) (hu : IsExpr .whole u) (hread : ReadsAsExpr u)
    (hgap' : IsGap gap') (hv : IsExpr .suffixes v) (h : ReadsAsSuffixes v) :
    ReadsAsOperand ('(' :: (gap ++ (u ++ (gap' ++ ')' :: v)))) where
  front := (IsExpr.paren hgap hu hgap' hv).front_operand
  reads depth {s before rest} hdepth hs hrest := by
    simp only [List.length_cons, List.length_append] at hdepth
    simp only [List.cons_append, List.append_assoc] at hs
    have hlength : 1 ≤ u.length := by
      obtain ⟨c, cs, rfl, -⟩ := hu.front
      exact Nat.succ_pos _
    obtain ⟨depth, rfl⟩ : ∃ d, depth = d + 1 := ⟨depth - 1, by omega⟩
    have hclose : EndsAt exprEnds (gap' ++ ')' :: (v ++ rest)) :=
      .of_gap hgap' (takeGap_stop (by decide) (by decide) _) (by decide) (by decide)
    obtain ⟨inner, hinner, hinnerText⟩ := hread depth (by omega)
      (takeGap_behindGap hgap (hu.gapless _)) hclose
    have hoperand : ((grammar (depth + 1)).operand .inside).Reads s
        [⟨none, .node .parenthesizedExpression
          [⟨none, .token before ['(']⟩, ⟨none, inner⟩, ⟨none, .token gap' [')']⟩]⟩]
        (v ++ rest) := by
      refine (read_operand_of_mark hs (by decide)).trans (Rule.Reads.left ?_)
      exact .node (.append (.append (.token hs) hinner) (.markBehind rfl (by decide) hgap'.space))
    have hnode := (Tree.HasText.token before ['(']).node .parenthesizedExpression none
      [⟨none, inner⟩, ⟨none, .token gap' [')']⟩]
    rw [leavesText_cons hinnerText, leavesText_cons (.token _ _), leavesText_nil] at hnode
    obtain ⟨tree, hextends, htree⟩ := h (depth + 1) (by omega) hrest hnode
    exact ⟨tree, unaryRule_of_primary (.tokens hs (by decide))
      (Rule.Extends.extend hoperand hextends), by
        simpa only [List.append_assoc, List.cons_append, List.nil_append, List.append_nil]
          using htree⟩

theorem signed {sign : String} (hsign : sign ∈ prefixMarks) (hgap : IsGap gap)
    (hu : IsExpr .operand u) (h : ReadsAsOperand u) :
    ReadsAsOperand (sign.toList ++ (gap ++ u)) where
  front := (IsExpr.signed hsign hgap hu).front_operand
  reads depth {s before rest} hdepth hs hrest := by
    simp only [List.append_assoc] at hs
    simp only [List.length_append] at hdepth
    have hsigns : ∀ sign ∈ prefixMarks, 1 ≤ sign.toList.length ∧ ∀ other ∈ prefixMarks,
        other ≠ sign → other.toList ≠ [] ∧ other.toList.head? ≠ sign.toList.head? := by
      decide
    obtain ⟨hlength, hothers⟩ := hsigns sign hsign
    have hlength' := h.length_pos
    obtain ⟨depth, rfl⟩ : ∃ d, depth = d + 1 := ⟨depth - 1, by omega⟩
    obtain ⟨operand, hread, hoperand⟩ := h.reads depth (by omega)
      (takeGap_behindGap hgap (h.gapless rest)) hrest
    obtain ⟨c, cs, hc⟩ := List.exists_cons_of_length_pos hlength
    have hfirst : (firstOf (prefixMarks.map .token)).Reads s [⟨none, .token before sign.toList⟩]
        (gap ++ (u ++ rest)) := by
      refine .firstOfMap hsign (.token hs) fun other hother hne => ?_
      obtain ⟨hne, hhead⟩ := hothers other hother hne
      rw [hc] at hs hhead
      exact .token hs hhead hne
    have hnode := (Tree.HasText.token before sign.toList).node .unaryExpression none
      [⟨none, operand⟩]
    rw [leavesText_cons hoperand, leavesText_nil, List.append_nil] at hnode
    exact ⟨_, .left (.node (.append hfirst hread)), hnode⟩

end ReadsAsOperand

/-! ## Expressions -/

/-- An operand with operations is read as an expression. -/
theorem ReadsAsExpr.whole (hu : ReadsAsOperand u) (hv : Operations v) : ReadsAsExpr (u ++ v) := by
  intro depth s gap rest hdepth hs hrest
  rw [List.append_assoc] at hs
  rw [List.length_append] at hdepth
  have hlength := hu.length_pos
  obtain ⟨depth, rfl⟩ : ∃ d, depth = d + 1 := ⟨depth - 1, by omega⟩
  obtain ⟨operand, hread, hoperand⟩ := hu.reads depth (by omega) hs (hv.ends hrest)
  obtain ⟨front, behind, tree, rfl, -, hnone, hextends, htree⟩ :=
    hv.extends hrest (depth + 1) (by omega) 1 hoperand
  obtain rfl := hnone le_rfl
  have hunary : ((grammar (depth + 1)).unary .inside).Reads s _ _ := hread
  refine ⟨tree, Rule.Extends.extend hunary hextends, ?_⟩
  rwa [List.append_nil]

/-- What a part of an expression is read as. -/
def ReadsAs : ExprPart → List Char → Prop
  | .operand, u => ReadsAsOperand u
  | .suffixes, v => ReadsAsSuffixes v
  | .whole, u => ReadsAsExpr u
  | .operations, v => Operations v
  | .arguments, a => ReadsAsArguments a
  | .moreArguments, a => ReadsAsMore a

/-- Every part of an expression is read as what it is. -/
theorem IsExpr.readsAs {part : ExprPart} (h : IsExpr part u) : ReadsAs part u := by
  induction h with
  | number h => exact ReadsAsOperand.number h
  | name hw hname hv ih => exact ReadsAsOperand.name hw hname hv ih
  | paren hgap hu hgap' hv ihu ihv => exact ReadsAsOperand.paren hgap hu ihu hgap' hv ihv
  | signed hsign hgap hu ih => exact ReadsAsOperand.signed hsign hgap hu ih
  | noSuffix => exact ReadsAsSuffixes.nil
  | selector hgap hgap' hw hv ih => exact ReadsAsSuffixes.selector hgap hgap' hw hv ih
  | call hgap _ hgap' _ iha ihv => exact ReadsAsSuffixes.call hgap iha hgap' ihv
  | noArgument => exact ReadsAsArguments.nil
  | argument hgap hu ha ihu iha => exact ReadsAsArguments.cons hgap hu ihu ha iha
  | lastArgument => exact ReadsAsMore.nil
  | nextArgument hgap hgap' hu ha ihu iha => exact ReadsAsMore.cons hgap hgap' hu ihu ha iha
  | whole _ _ ihu ihv => exact ReadsAsExpr.whole ihu ihv
  | noOperation => exact Operations.nil
  | operation hgap hsign hgap' _ happart _ ihu ihv =>
      exact Operations.cons hgap hsign hgap' ihu happart ihv

/-- **An expression is read up to the bracket that closes it**, with its text. -/
theorem IsExpr.reads (h : IsExpr .whole u) (depth : Nat) (hdepth : u.length ≤ depth)
    (rest : List Char) :
    ∃ tree, ((grammar (depth + 1)).expr .inside).Reads (u ++ ']' :: rest) [⟨none, tree⟩]
      (']' :: rest) ∧ lengthText tree = String.ofList u := by
  have hread : ReadsAsExpr u := h.readsAs
  have hclose : EndsAt exprEnds (']' :: rest) :=
    .of_gap (.inl rfl) (takeGap_stop (by decide) (by decide) _) (by decide) (by decide)
  obtain ⟨tree, hexpr, htree⟩ := hread depth hdepth (h.gapless _) hclose
  refine ⟨tree, hexpr, ?_⟩
  rw [lengthText, htree.chars]
  exact congrArg String.ofList h.squeezed

end

end FluentBuilder.Go
