import FluentBuilder.Proofs.Reading

/-!
# Reading expressions — a name is an expression

The rule for expressions tries each kind of expression in turn, and behind what it has read each way
to go on. A name in front of what ends an expression (`ExprCloses`) is no other kind of expression,
and nothing goes on behind it. A closing mark begins neither a type nor an expression.

* **`reads_expr_name`** — a name is read as an expression.
* **`type_fails`**, **`unary_fails`**, **`binary_fails`** — nothing is read at a closing mark.
-/

namespace FluentBuilder.Go

/-- What ends an expression: on its line stands neither an operator nor the braces of a literal. -/
structure ExprCloses (place : Place) (rest : List Char) : Prop where
  ends      : Closes place.ends rest
  operators : (Rule.onLine place.ends).Reads rest [] rest → ∀ level,
    (Rule.tokenOf (Grammar.allOperators ++ Grammar.marksBehind place.slot)
      (Grammar.operators level)).Fails rest
  braces    : (Rule.onLine place.ends).Reads rest [] rest → (Rule.token "\x7b").Fails rest

/-- The marks that go on with an operand: those of a selector, an index and arguments. -/
def suffixMarks : List String := [".", "[", "("]

/-- The marks that go on with the name of a type. -/
def nameMarks : List String := [".", "["]

/-- None of these marks stands on the line. -/
def NoMarks (marks : List String) (ends : Bool) (rest : List Char) : Prop :=
  (Rule.onLine ends).Reads rest [] rest → ∀ text ∈ marks, (Rule.token text).Fails rest

section

variable {marks others : List String} {ends : Bool} {rest : List Char}

theorem NoMarks.subset (h : NoMarks marks ends rest) (hsub : others ⊆ marks) :
    NoMarks others ends rest := fun hline text htext => h hline text (hsub htext)

/-- What ends an expression goes on with no operand. -/
theorem Closes.noSuffix (h : Closes ends rest) : NoMarks suffixMarks ends rest := by
  intro hline text htext
  have hmarks : ∀ text ∈ suffixMarks, text.toList ≠ [] ∧
      ∀ c ∈ closingMarks, text.toList.head? ≠ some c := by
    decide
  rcases h.front with ⟨rfl, hbreak⟩ | hclosing
  · cases (Rule.Fails.onLine hbreak).symm.trans hline
  · exact hclosing.token (hmarks text htext).1 (hmarks text htext).2

theorem NoMarks.onLine (h : NoMarks marks ends rest) {text : String} (htext : text ∈ marks)
    {rule : Rule} (hrule : (Rule.token text).Fails rest → rule.Fails rest) :
    (Rule.onLine ends ++ rule).Fails rest := by
  rcases Rule.onLine_cases ends rest with hline | hline
  · exact .append hline
  · exact .behind hline (hrule (h hline text htext))

end

namespace Grammar

variable {g : Grammar} {s gap w rest : List Char} {place : Place} {keywords : List String}
  {ends : Bool} {parts : List Part} {middle : List Char}

/-! ## Names of types -/

theorem namedType_fails (h : ∀ kind, (Rule.name kind keywords).Fails s) :
    (namedType keywords ends).Fails s :=
  .orElse (.node (.append (.append (.append (.as (h _)))))) (h _)

theorem qualifiedType_fails (h : AtWord s gap w rest) (hw : w ∉ keywords.map String.toList)
    (hdot : (Rule.onLine ends ++ .token ".").Fails rest) : (qualifiedType keywords ends).Fails s :=
  .node (.append (.behindBoth (.as (.name h hw)) hdot))

theorem reads_namedType (h : AtWord s gap w rest) (hw : w ∉ keywords.map String.toList)
    (hdot : (Rule.onLine ends ++ .token ".").Fails rest) :
    (namedType keywords ends).Reads s [⟨none, .leaf .typeIdentifier gap w⟩] rest :=
  .right (qualifiedType_fails h hw hdot) (.name h hw)

theorem typeArguments_fails (h : (Rule.token "[").Fails s) : g.typeArguments.Fails s :=
  .node (.append (.append h))

theorem arguments_fails (h : (Rule.token "(").Fails s) : g.arguments.Fails s :=
  .node (.append (.append h))

theorem literalRule_fails (h : (Rule.token "\x7b").Fails s) : g.literalRule.Fails s :=
  .node (.append (.append h))

/-! ## Behind an expression -/

theorem suffix_fails (left : List Part) (h : NoMarks suffixMarks place.ends rest) :
    (g.suffix place left).Fails rest := by
  rcases Rule.onLine_cases place.ends rest with hline | hline
  · exact .append hline
  have hdot : (Rule.token ".").Fails rest := h hline _ (by decide)
  have hbracket : (Rule.token "[").Fails rest := h hline _ (by decide)
  refine .behind hline (.orElse (.node (.append (.behind .yield hdot))) ?_)
  refine .orElse (.node (.append (.behind .yield hdot))) ?_
  refine .orElse (.node (.behind .yield (arguments_fails (h hline _ (by decide))))) ?_
  refine .orElse (.node (.append (.behind .yield (typeArguments_fails hbracket)))) ?_
  refine .orElse (.andThen (.append hbracket)) ?_
  split
  · exact .node (.behind .yield (.append (.append hbracket)))
  · exact .never

theorem operation_fails (left : List Part) (least : Nat) (h : ExprCloses place rest) :
    (Rule.onLine place.ends ++
      .node .binaryExpression
        (.yield left ++
          firstOf (([5, 4, 3, 2, 1].filter (least ≤ ·)).map (g.operation place)))).Fails rest := by
  rcases Rule.onLine_cases place.ends rest with hline | hline
  · exact .append hline
  · refine .behind hline (.node (.behind .yield (.firstOf fun rule hrule => ?_)))
    obtain ⟨level, -, rfl⟩ := List.mem_map.mp hrule
    exact .append (h.operators hline level)

/-! ## Names -/

/-- No number begins with a character that is neither a digit nor a point. -/
theorem numberScans_none {c : Char} (hdigit : (digitValue 10 c).isSome = false) (hdot : c ≠ '.')
    (r : List Char) : intLiteral (c :: r) = none ∧ floatLiteral (c :: r) = none ∧
      imaginaryLiteral (c :: r) = none := by
  have hzero : c ≠ '0' := by
    rintro rfl
    cases hdigit
  have hmark : ∀ d rest, c ≠ d → mark (d :: rest) (c :: r) = none := by
    intro d rest hne
    simp [mark, dropExact, hne.symm]
  have hdigits : digits 10 (c :: r) = none := by
    simp only [digits, hdigit, Bool.false_eq_true, if_false]
  refine ⟨?_, ?_, ?_⟩ <;>
    simp [intLiteral, floatLiteral, imaginaryLiteral, prefixedDigits, Scan.longer, Scan.seq, hzero,
      hmark '0' _ hzero, hmark '.' _ hdot, hdigits]

theorem number_fails {c : Char} (h : takeGap s = (gap, c :: rest))
    (hdigit : (digitValue 10 c).isSome = false) (hdot : c ≠ '.') : number.Fails s := by
  obtain ⟨hint, hfloat, himaginary⟩ := numberScans_none hdigit hdot rest
  refine .orElse (.scanLeaf ?_) (.orElse (.scanLeaf ?_) (.scanLeaf ?_)) <;>
    simp only [h, hint, hfloat, himaginary]

theorem string_fails {c : Char} (h : takeGap s = (gap, c :: rest)) (hc : c ∉ quotes) :
    string.Fails s := by
  simp only [quotes, List.mem_cons, List.not_mem_nil, or_false, not_or] at hc
  refine .orElse (.scanLeaf ?_) (.scanLeaf ?_)
  · rw [h]
    unfold rawString
    split
    case h_1 heq => exact absurd (List.cons.inj heq).1 hc.1
    case h_2 => rfl
  · rw [h]
    unfold interpretedString
    split
    case h_1 heq => exact absurd (List.cons.inj heq).1 hc.2.1
    case h_2 => rfl

theorem rune_fails {c : Char} (h : takeGap s = (gap, c :: rest)) (hc : c ∉ quotes) :
    (Rule.scanLeaf .runeLiteral runeLiteral).Fails s := by
  simp only [quotes, List.mem_cons, List.not_mem_nil, or_false, not_or] at hc
  refine .scanLeaf ?_
  rw [h]
  unfold runeLiteral
  split
  case h_1 heq => exact absurd (List.cons.inj heq).1 hc.2.2
  case h_2 heq => exact absurd (List.cons.inj heq).1 hc.2.2
  case h_3 => rfl

/-- No value is written out where a word stands that is none of them. -/
theorem basicLiteral_fails (h : AtWord s gap w rest) (hw : w ∉ valueKeywords.map String.toList) :
    basicLiteral.Fails s := by
  obtain ⟨c, r, hfront, hc⟩ := h.exists_front
  have hquote : c ∉ quotes := by
    intro hmem
    have hstart : ∀ c ∈ quotes, Text.isIdentStart c = false := by decide
    rw [hstart c hmem] at hc
    cases hc
  have hdot : c ≠ '.' := by
    rintro rfl
    exact absurd hc (by decide)
  have hkeyword : ∀ {kind : Kind} (text : String), text ∈ valueKeywords →
      (Rule.keywordLeaf kind text).Fails s := fun text hmem =>
    .keywordLeaf h fun heq => hw (heq ▸ List.mem_map_of_mem hmem)
  refine .orElse (number_fails hfront (digitValue_of_isIdentStart hc) hdot) ?_
  refine .orElse (string_fails hfront hquote) ?_
  refine .orElse (rune_fails hfront hquote) ?_
  refine .orElse (hkeyword _ (by decide)) ?_
  refine .orElse (hkeyword _ (by decide)) ?_
  exact .orElse (hkeyword _ (by decide)) (hkeyword _ (by decide))

theorem allocation_fails (h : AtWord s gap w rest) (hw : w ∉ valueKeywords.map String.toList) :
    (g.allocation place).Fails s := by
  have hkeyword : ∀ text ∈ valueKeywords, (Rule.keywordLeaf .identifier text).Fails s :=
    fun text hmem => .keywordLeaf h fun heq => hw (heq ▸ List.mem_map_of_mem hmem)
  have hname := Rule.Fails.orElse (hkeyword "new" (by decide)) (hkeyword "make" (by decide))
  exact .orElse (.node (.append (.append hname))) (.append hname)

theorem genericNegation_fails (h : (Rule.token "~").Fails s) : g.genericNegation.Fails s :=
  .andThen (.node (.append h))

/-- A type that is not in front of square brackets is not applied to types. -/
theorem applied_fails {type : Rule} (h : type.Reads s parts rest)
    (hend : (Rule.onLine ends ++ g.typeArguments.as .typeArguments).Fails rest) :
    (g.applied type ends).Fails s :=
  .node (.behindBoth (.as h) hend)

theorem genericType_fails (h : AtWord s gap w rest) (hw : w ∉ keywords.map String.toList)
    (hend : NoMarks nameMarks ends rest) : (g.genericType keywords ends).Fails s :=
  .orElse (applied_fails (reads_namedType h hw (hend.onLine (by decide) id))
      (hend.onLine (by decide) fun hbracket => .as (typeArguments_fails hbracket)))
    (genericNegation_fails (.tokenAtWord h (by decide)))

/-- A name with no braces behind it is no literal of a type. -/
theorem namedLiteral_fails (h : AtWord s gap w rest) (hw : w ∉ operandKeywords.map String.toList)
    (hend : NoMarks nameMarks place.ends rest)
    (hliteral : (Rule.onLine place.ends).Reads rest [] rest → g.literal.Fails rest) :
    (g.namedLiteral place).Fails s := by
  have hqualified := qualifiedType_fails h hw (hend.onLine (by decide) id)
  have hgeneric : (g.applied (qualifiedType operandKeywords place.ends) false <|>
      g.genericType operandKeywords place.ends).Fails s :=
    .orElse (.node (.append (.append (.as hqualified)))) (genericType_fails h hw hend)
  -- a plain name is tried last, and only where the braces may stand on its line
  unfold namedLiteral
  by_cases hbraces : (place.braces == .anyName) = true
  · rw [if_pos hbraces]
    rcases Rule.onLine_cases place.ends rest with hline | hline
    · exact .node (.append (.append (.as (.orElse hgeneric (.orElse hqualified
        (.behind (.name h hw) hline))))))
    · exact .node (.append (.behind (.as (.right hgeneric (.right hqualified
        (.append (.name h hw) hline)))) (.as (hliteral hline))))
  · rw [if_neg hbraces]
    exact .node (.append (.append (.as (.orElse hgeneric (.orElse hqualified .never)))))

/-- A name with a selector and no braces behind it is no literal of a type. -/
theorem namedLiteral_fails_selector {behind between x : List Char} (h : AtWord s gap w behind)
    (hw : w ∉ operandKeywords.map String.toList)
    (hline : (Rule.onLine place.ends).Reads behind [] behind)
    (hdot : takeGap behind = (between, '.' :: middle)) {gap' : List Char}
    (hx : AtWord middle gap' x rest) (hbracket : (Rule.token "[").Fails rest)
    (hliteral : g.literal.Fails rest) : (g.namedLiteral place).Fails s := by
  have hread : (qualifiedType operandKeywords place.ends).Reads s _ rest :=
    .node (.append (.append (.append (.as (.name h hw)) hline) (.token hdot))
      (.as (.name hx nofun)))
  have harguments : ∀ ends, (Rule.onLine ends ++ g.typeArguments.as .typeArguments).Fails rest :=
    fun _ => .onLineAppend (.as (typeArguments_fails hbracket))
  have hgeneric : (g.applied (qualifiedType operandKeywords place.ends) false <|>
      g.genericType operandKeywords place.ends).Fails s :=
    .orElse (applied_fails hread (harguments _))
      (.orElse (applied_fails (.left hread) (harguments _))
        (genericNegation_fails (.tokenAtWord h (by decide))))
  exact .node (.append (.behind (.as (.right hgeneric (.left hread))) (.as hliteral)))

theorem reads_operand_name (h : AtWord s gap w rest) (hw : w ∉ operandKeywords.map String.toList)
    (hnamed : (g.namedLiteral place).Fails s) :
    (g.operand place).Reads s [⟨none, .leaf .identifier gap w⟩] rest := by
  have hvalue : w ∉ valueKeywords.map String.toList := fun hmem =>
    hw (by rw [operandKeywords, List.map_append]; exact List.mem_append_right _ hmem)
  exact .right (basicLiteral_fails h hvalue) (.right (allocation_fails h hvalue)
    (.right hnamed (.left (.name h hw))))

/-- The marks of the operators in front of an expression. -/
def prefixMarks : List String := ["<-", "+", "-", "!", "^", "*", "&"]

/-- An expression that begins with none of these marks has no operator in front. -/
theorem unaryRule_of_primary (h : ∀ text ∈ prefixMarks, (Rule.token text).Fails s)
    (hprimary : (g.primary place).Reads s parts middle) :
    (g.unaryRule place).Reads s parts middle := by
  exact .right (.node (.append (.firstOfMap h))) hprimary

theorem prefixMarks_fail (h : AtWord s gap w rest) :
    ∀ text ∈ prefixMarks, (Rule.token text).Fails s := by
  have hmarks : ∀ text ∈ prefixMarks, text.toList.head?.any (!Text.isIdentStart ·) = true := by
    decide
  exact fun text htext => .tokenAtWord h (hmarks text htext)

theorem reads_binaryRule {least : Nat} (h : (g.unary place).Reads s parts rest)
    (hend : ExprCloses place rest) : (g.binaryRule place least).Reads s parts rest :=
  Rule.Extends.extend h (.stop (operation_fails _ least hend))

/-! ## Closing marks -/

/-- Where no word stands, a type begins with a mark. -/
theorem typeRule_fails_of_noWord (hword : NoWord s) (hstar : (Rule.token "*").Fails s)
    (hslice : (g.sliceType ends).Fails s) (harray : (g.arrayType ends).Fails s)
    (harrow : (Rule.token "<-" ++ Rule.keyword "chan").Fails s) (htilde : (Rule.token "~").Fails s)
    (hparen : g.parenthesizedType.Fails s) : (g.typeRule ends).Fails s := by
  refine .orElse (.andThen (namedType_fails fun _ => hword.name)) ?_
  refine .orElse (.node (.append hstar)) ?_
  refine .orElse hslice (.orElse harray ?_)
  refine .orElse (.node (.append (.append hword.keyword))) ?_
  refine .orElse (.orElse (.node (.append harrow)) (.node (.append hword.keyword))) ?_
  refine .orElse (.node (.append hword.keyword)) ?_
  refine .orElse (.node (.append hword.keyword)) ?_
  refine .orElse (.node (.append hword.keyword)) ?_
  exact .orElse (.andThen (.node (.append htilde))) hparen

/-- A type begins with a word or with one of these marks. -/
theorem typeRule_fails_of_marks (hword : NoWord s)
    (hmarks : ∀ text ∈ ["*", "[", "<-", "~", "("], (Rule.token text).Fails s) :
    (g.typeRule ends).Fails s := by
  have hbracket : (Rule.token "[").Fails s := hmarks _ (by decide)
  exact typeRule_fails_of_noWord hword (hmarks _ (by decide)) (.node (.append (.append hbracket)))
    (.node (.append (.append (.append hbracket)))) (.append (hmarks _ (by decide)))
    (hmarks _ (by decide)) (.node (.append (.append (hmarks _ (by decide)))))

/-- At one of these marks only the types that begin with it can be read. -/
theorem typeRule_fails_of_mark {c : Char} (hfront : takeGap s = (gap, c :: rest))
    (hc : Text.isIdentStart c = false ∧ c ≠ '*' ∧ c ≠ '~')
    (hbracket : c = '[' → (g.sliceType ends).Fails s ∧ (g.arrayType ends).Fails s)
    (harrow : c = '<' → (Rule.token "<-" ++ Rule.keyword "chan").Fails s)
    (hparen : c = '(' → g.parenthesizedType.Fails s) : (g.typeRule ends).Fails s := by
  have hmark : ∀ (text : String) (d : Char), text.toList.head? = some d → c ≠ d →
      (Rule.token text).Fails s := by
    intro text d hhead hne
    refine .token hfront (fun heq => hne (Option.some.inj (heq.symm.trans hhead))) fun hnil => ?_
    rw [hnil] at hhead
    cases hhead
  have hlists : (g.sliceType ends).Fails s ∧ (g.arrayType ends).Fails s := by
    by_cases heq : c = '['
    · exact hbracket heq
    · have hopen := hmark "[" '[' rfl heq
      exact ⟨.node (.append (.append hopen)), .node (.append (.append (.append hopen)))⟩
  have hchannel : (Rule.token "<-" ++ Rule.keyword "chan").Fails s := by
    by_cases heq : c = '<'
    · exact harrow heq
    · exact .append (hmark _ '<' rfl heq)
  have hround : g.parenthesizedType.Fails s := by
    by_cases heq : c = '('
    · exact hparen heq
    · exact .node (.append (.append (hmark _ '(' rfl heq)))
  exact typeRule_fails_of_noWord (noWord_of_front hfront hc.1) (hmark _ '*' rfl hc.2.1) hlists.1
    hlists.2 hchannel (hmark _ '~' rfl hc.2.2) hround

/-- A mark that begins no literal and no name. -/
def operandMark (c : Char) : Bool :=
  !Text.isIdentStart c && !(digitValue 10 c).isSome && !(['.', '~', '['] ++ quotes).contains c

theorem basicLiteral_fails_mark {c : Char} (hfront : takeGap s = (gap, c :: rest))
    (hc : operandMark c = true) : basicLiteral.Fails s := by
  simp only [operandMark, Bool.and_eq_true, Bool.not_eq_true', Bool.eq_false_iff, ne_eq,
    List.contains_iff_mem, List.mem_append, not_or] at hc
  have hword := noWord_of_front hfront (by simpa using hc.1.1)
  have hdot : c ≠ '.' := fun heq => hc.2.1 (heq ▸ .head _)
  refine .orElse (number_fails hfront (by simpa using hc.1.2) hdot) ?_
  refine .orElse (string_fails hfront hc.2.2) ?_
  refine .orElse (rune_fails hfront hc.2.2) ?_
  refine .orElse hword.keywordLeaf ?_
  refine .orElse hword.keywordLeaf ?_
  exact .orElse hword.keywordLeaf hword.keywordLeaf

/-- At such a mark an operand is in round brackets or begins with a type. -/
theorem read_operand_of_mark {c : Char} (hfront : takeGap s = (gap, c :: rest))
    (hc : operandMark c = true) : (g.operand place).read s =
      (.node .parenthesizedExpression (enclosed "(" (g.expr .inside) ")") <|>
        g.typeOperand place : Rule).read s := by
  have hother : c ≠ '~' ∧ c ≠ '[' := by
    constructor <;> rintro rfl <;> cases hc
  have hword : NoWord s := noWord_of_front hfront (by
    simp only [operandMark, Bool.and_eq_true] at hc
    simpa using hc.1.1)
  have hmark : ∀ text : String, text.toList.head? ≠ some c → text.toList ≠ [] →
      (Rule.token text).Fails s := fun _ => .token hfront
  have hnames : ∀ {keywords : List String} {ends : Bool}, (namedType keywords ends).Fails s :=
    namedType_fails fun _ => hword.name
  have hqualified : (qualifiedType operandKeywords place.ends).Fails s :=
    .node (.append (.append (.append (.as hword.name))))
  have happlied : ∀ {type : Rule} {ends : Bool}, type.Fails s → (g.applied type ends).Fails s :=
    fun htype => .node (.append (.append (.as htype)))
  have hallocation : (Rule.keywordLeaf .identifier "new" <|>
      Rule.keywordLeaf .identifier "make").Fails s := .orElse hword.keywordLeaf hword.keywordLeaf
  have hplain : (if place.braces == .anyName then
      Rule.name .typeIdentifier operandKeywords ++ Rule.onLine place.ends
      else .never).Fails s := by
    split
    · exact .append hword.name
    · exact .never
  have hnegation : g.genericNegation.Fails s :=
    genericNegation_fails (hmark _ (by simpa using hother.1.symm) (by decide))
  have hnamed : (g.namedLiteral place).Fails s :=
    .node (.append (.append (.as (.orElse (.orElse (happlied hqualified)
      (.orElse (happlied hnames) hnegation)) (.orElse hqualified hplain)))))
  have hcounted : g.countedLiteral.Fails s :=
    .node (.append (.as (.node (.append (.append (.append
      (hmark _ (by simpa using hother.2.symm) (by decide))))))))
  have hallocated : (g.allocation place).Fails s :=
    .orElse (.node (.append (.append hallocation))) (.append hallocation)
  have hname : (Rule.name .identifier operandKeywords).Fails s := hword.name
  have hfunction : g.funcLiteral.Fails s := .node (.append (.append hword.keyword))
  rw [operand, (basicLiteral_fails_mark hfront hc).read_orElse, hallocated.read_orElse,
    hnamed.read_orElse, hname.read_orElse, hcounted.read_orElse, hfunction.read_orElse]

theorem operand_fails (h : AtClosing s) (htype : (g.type false).Fails s) :
    (g.operand place).Fails s := by
  have hword := h.noWord
  have hbracket : (Rule.token "(").Fails s := h.token (by decide) (by decide)
  obtain ⟨gap, c, rest, hfront, hc⟩ := h
  have hmarks : ∀ c ∈ closingMarks, operandMark c = true := by decide
  have hothers : (.node .parenthesizedExpression (enclosed "(" (g.expr .inside) ")") <|>
      g.typeOperand place : Rule).Fails s :=
    .orElse (.node (.append (.append hbracket))) (.andThen (.behind (.notAhead hword.name) htype))
  exact (read_operand_of_mark hfront (hmarks c hc)).trans hothers

end Grammar

open Grammar

section

variable {s : List Char} {place : Place} {ends : Bool} {least : Nat}

theorem type_fails_of_marks (hword : NoWord s)
    (hmarks : ∀ text ∈ ["*", "[", "<-", "~", "("], (Rule.token text).Fails s) (depth : Nat) :
    ((grammar depth).type ends).Fails s := by
  cases depth with
  | zero => exact .never
  | succ depth =>
      have htype : ((grammar depth).typeRule ends).Fails s := typeRule_fails_of_marks hword hmarks
      exact htype

/-- At no depth does a type begin with a closing mark, -/
theorem type_fails (h : AtClosing s) (depth : Nat) : ((grammar depth).type ends).Fails s := by
  have hmarks : ∀ text ∈ ["*", "[", "<-", "~", "("], text.toList ≠ [] ∧
      ∀ c ∈ closingMarks, text.toList.head? ≠ some c := by
    decide
  exact type_fails_of_marks h.noWord
    (fun text htext => h.token (hmarks text htext).1 (hmarks text htext).2) depth

/-- nor does an expression, -/
theorem unary_fails (h : AtClosing s) (depth : Nat) : ((grammar depth).unary place).Fails s := by
  cases depth with
  | zero => exact .never
  | succ depth =>
      have hmarks : ∀ text ∈ prefixMarks, text.toList ≠ [] ∧
          ∀ c ∈ closingMarks, text.toList.head? ≠ some c := by
        decide
      have hunary : ((grammar depth).unaryRule place).Fails s := by
        exact .orElse (.node (.append (.firstOfMap fun text htext =>
          h.token (hmarks text htext).1 (hmarks text htext).2)))
          (.andThen (operand_fails h (type_fails h depth)))
      exact hunary

theorem binary_fails (h : AtClosing s) (depth : Nat) :
    ((grammar depth).binary place least).Fails s := by
  cases depth with
  | zero => exact .never
  | succ depth =>
      have hbinary : ((grammar depth).binaryRule place least).Fails s :=
        .andThen (unary_fails h depth)
      exact hbinary

/-- and a literal begins with a brace. -/
theorem literal_fails (h : (Rule.token "\x7b").Fails s) (depth : Nat) :
    (grammar depth).literal.Fails s := by
  cases depth with
  | zero => exact .never
  | succ depth => exact literalRule_fails (g := grammar depth) h

end

/-! ## Names -/

section

variable {s gap w rest : List Char} {c : Char} {parts : List Part} {place : Place}

theorem longest_eq_none {texts : List (List Char)} (h : ∀ text ∈ texts, mark text s = none) :
    longest texts s = none := by
  induction texts with
  | nil => rfl
  | cons text others ih =>
      rw [List.forall_mem_cons] at h
      simp only [longest, h.1, ih h.2]

/-- A closing mark that no operator begins with ends an expression. -/
theorem ExprCloses.of_front (hfront : takeGap rest = (gap, c :: w)) (hstops : StopsWord rest)
    (hc : c ∈ closingMarks) (hbrace : c ≠ '\x7b')
    (hmarks : ∀ text ∈ allOperators ++ marksBehind place.slot, text.toList.head? ≠ some c ∧
      text.toList ≠ []) : ExprCloses place rest where
  ends := ⟨hstops, .inr ⟨gap, c, w, hfront, hc⟩⟩
  operators _ level := by
    refine .scanToken ?_
    rw [hfront]
    have hnone : longest ((allOperators ++ marksBehind place.slot).map String.toList) (c :: w) =
        none := by
      refine longest_eq_none fun text htext => ?_
      obtain ⟨operator, hmem, rfl⟩ := List.mem_map.mp htext
      obtain ⟨hhead, hne⟩ := hmarks operator hmem
      obtain ⟨d, ds, hoperator⟩ := List.exists_cons_of_ne_nil hne
      rw [hoperator, List.head?_cons, ne_eq, Option.some.injEq] at hhead
      simp [mark, hoperator, dropExact, hhead]
    rw [hnone]
  braces _ := .token hfront (by simpa using Ne.symm hbrace) (by decide)

theorem ExprCloses.of_mark (hc : c ∈ closingMarks) (hbrace : c ≠ '\x7b')
    (hmarks : ∀ text ∈ allOperators ++ marksBehind place.slot, text.toList.head? ≠ some c ∧
      text.toList ≠ []) (rest : List Char) : ExprCloses place (c :: rest) :=
  .of_front (takeGap_stop (closingMarks_plain hc).1 (closingMarks_plain hc).2.1 rest)
    (stopsWord_cons (closingMarks_plain hc).2.2.1 rest) hc hbrace hmarks

/-- What begins an expression is all of it where nothing goes on with it. -/
theorem reads_expr_of_primary (hend : ExprCloses place rest) {depth : Nat}
    (hmarks : ∀ text ∈ prefixMarks, (Rule.token text).Fails s)
    (h : ((grammar depth).primary place).Reads s parts rest) :
    ((grammar (depth + 2)).expr place).Reads s parts rest :=
  reads_binaryRule (g := grammar (depth + 1))
    (unaryRule_of_primary (g := grammar depth) hmarks h) hend

theorem reads_expr_of_operand (hend : ExprCloses place rest) {depth : Nat}
    (hmarks : ∀ text ∈ prefixMarks, (Rule.token text).Fails s)
    (h : ((grammar depth).operand place).Reads s parts rest) :
    ((grammar (depth + 2)).expr place).Reads s parts rest :=
  reads_expr_of_primary hend hmarks
    (Rule.Extends.extend h (.stop (suffix_fails _ hend.ends.noSuffix)))

/-- **A name in front of what ends an expression is read as one.** -/
theorem reads_expr_name (h : AtWord s gap w rest) (hw : w ∉ operandKeywords.map String.toList)
    (hend : ExprCloses place rest) (depth : Nat) :
    ((grammar (depth + 2)).expr place).Reads s [⟨none, .leaf .identifier gap w⟩] rest := by
  have hnamed : ((grammar depth).namedLiteral place).Fails s :=
    namedLiteral_fails h hw (hend.ends.noSuffix.subset (by decide)) fun hline =>
      literal_fails (hend.braces hline) depth
  exact reads_expr_of_operand hend (prefixMarks_fail h) (reads_operand_name h hw hnamed)

end

end FluentBuilder.Go
