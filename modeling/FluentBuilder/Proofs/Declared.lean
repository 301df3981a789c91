import FluentBuilder.Proofs.Shape

/-!
# Declarations — the grammar reads shaped trees

Rule by rule, in the order of the grammar: if the rules that a rule refers to read shaped trees,
so does the rule. Each proof follows the rule that it is about, combinator by combinator. Most
nodes take any children; the ones that do not are generic types, specifications, declarations and
functions.

* **`Shaped.typeSpec`**, **`Shaped.varSpec`**, **`Shaped.constSpec`** — the rules that read
  specifications.
* **`Shaped.declaration`**, **`Shaped.topDeclaration`** — the rules that read declarations.
* **`readTree_shaped`** — the syntax tree of a source text is shaped.
-/

namespace FluentBuilder.Go

/-- A grammar whose rules read shaped trees only. -/
structure Grammar.Shaped (g : Grammar) : Prop where
  type      : ∀ {level : Level} (ends), (g.type ends).Fits level
  binary    : ∀ {level : Level} (place least), (g.binary place least).Fits level
  unary     : ∀ {level : Level} (place), (g.unary place).Fits level
  literal   : ∀ {level : Level}, g.literal.Fits level
  block     : ∀ {level : Level}, g.block.Fits level
  isBlock   : g.block.IsNode .block
  statement : ∀ keywords, (g.statement keywords).Fits .item

namespace Grammar.Shaped

variable {g : Grammar} {level : Level} {rule : Rule} {ends : Bool} {place : Place}
  {keywords : List String}

theorem string : Grammar.string.Fits level := .orElse .scanLeaf .scanLeaf

theorem enclosed {ok : Part → Prop} [Lexical ok] {first last : String} (h : rule.Each ok) :
    (Grammar.enclosed first rule last).Each ok := .append (.append .token h) .token

theorem qualifiedType : (Grammar.qualifiedType keywords ends).Fits level :=
  .node rfl (.append (.append (.append (.as .name) .onLine) .token) (.as .name))

theorem namedType : (Grammar.namedType keywords ends).Fits level := .orElse qualifiedType .name

section

variable (hg : g.Shaped)

include hg

theorem expr : (g.expr place).Fits level := hg.binary place 1

theorem exprList : (g.exprList place).Fits level :=
  .node rfl (.sepBy hg.expr (.append .onLine .token))

/-! ## Types -/

theorem typeElem {kind : Kind} (hkind : kind.isNameless = true) :
    (g.typeElem kind ends).Fits level :=
  .node hkind (.append (hg.type _) (.many (.append (.append .onLine .token) (hg.type _))))

theorem typeArguments : g.typeArguments.Fits level :=
  .node rfl (enclosed (.append (.sepBy (hg.typeElem rfl) .token) (.opt .token)))

theorem applied (h : rule.Fits .plain) : (g.applied rule ends).Fits level :=
  .genericNode (.append (.append (.as h) .onLine) (.as hg.typeArguments))

theorem perhapsApplied (h : rule.Fits .plain) : (g.perhapsApplied rule ends).Fits level :=
  .andThen h fun _ hparts =>
    .orElse (hg.applied (.yield hparts)) (.yield (PartsFit.raise hparts))

end

section

variable (hg : g.Shaped)

include hg

theorem negatedType : (g.negatedType ends).Fits level :=
  .node rfl (.append .token (hg.type _))

theorem genericNegation : g.genericNegation.Fits level := by
  refine .andThen hg.negatedType fun parts hparts => .orElse (hg.applied (.yield hparts)) ?_
  cases hsplit : splitLastArguments parts with
  | none => exact .never
  | some found =>
      obtain ⟨shorter, role, arguments⟩ := found
      obtain ⟨hshorter, harguments⟩ := PartsFit.splitLast hsplit hparts
      exact .genericNode (.append (.as (.yield hshorter))
        (.yield (List.forall_mem_singleton.mpr harguments)))

theorem genericType : (g.genericType keywords ends).Fits level :=
  .orElse (hg.applied namedType) hg.genericNegation

theorem wordType : (g.wordType keywords ends).Fits level := .orElse hg.genericType namedType

theorem pointerType : (g.pointerType ends).Fits level := .node rfl (.append .token (hg.type _))

theorem parenthesizedType : g.parenthesizedType.Fits level := .node rfl (enclosed (hg.type _))

theorem sliceType : (g.sliceType ends).Fits level :=
  .node rfl (.append (.append .token .token) (.as (hg.type _)))

theorem arrayType : (g.arrayType ends).Fits level :=
  .node rfl (.append (enclosed (.as hg.expr)) (.as (hg.type _)))

theorem mapType : (g.mapType ends).Fits level :=
  .node rfl (.append (.append .keyword (enclosed (.as (hg.type _)))) (.as (hg.type _)))

theorem receiveType : (g.receiveType ends).Fits level :=
  .node rfl (.append (.append .token .keyword) (.as (hg.type _)))

theorem channelType : (g.channelType ends).Fits level :=
  .orElse hg.receiveType
    (.node rfl (.append .keyword
      (.orElse (.as hg.receiveType)
        (.orElse (.append .token (.as (hg.type _))) (.as (hg.type _))))))

theorem parameterDeclaration : g.parameterDeclaration.Fits level :=
  .orElse
    (.append
      (.node rfl
        (.append (.append (.as .name) (.many (.append .token (.as .name)))) (.as (hg.type _))))
      .ahead)
    (.node rfl (.as (hg.type _)))

theorem variadicParameter : g.variadicParameter.Fits level :=
  .node rfl (.append (.append (.opt (.as .name)) .token) (.as (hg.type _)))

theorem parameterList : g.parameterList.Fits level :=
  .node rfl
    (enclosed
      (.append (.opt (.sepBy (.orElse hg.variadicParameter hg.parameterDeclaration) .token))
        (.opt .token)))

theorem result : (g.result ends).Fits level :=
  .orElse
    (.append .onLine
      (.orElse (.append .notAhead (.as (hg.type _))) (.as hg.parameterList)))
    .ahead

theorem signature : (g.signature ends).Fits level := .append (.as hg.parameterList) hg.result

theorem functionType : (g.functionType ends).Fits level := .node rfl (.append .keyword hg.signature)

end

theorem lines {item : Rule} (h : item.Fits level) : (Grammar.lines item).Fits level :=
  enclosed (.opt (.append (.sepBy h .terminator) (.opt .terminator)))

theorem fieldTag : Grammar.fieldTag.Fits level := .append .onLine (.as string)

theorem fieldName : Grammar.fieldName.Fits level := .as .name

theorem embeddedType (h : rule.Fits level) : (Grammar.embeddedType rule).Fits level :=
  .append .notAhead (.as h)

/-- **The names of a field are words**; what else a field holds are types and a string. -/
theorem fieldDeclaration_names :
    ((g.genericField <|> g.plainField) ++ Grammar.fieldTag.opt).Each Part.NamesField := by
  have hembedded : ∀ type : Rule, (Grammar.embeddedType type).Each Part.NamesField := fun _ =>
    .append .notAhead (.asOther (by decide))
  have htype : ∀ type : Rule, (type.as .type).Each Part.NamesField := fun _ =>
    .asOther (by decide)
  have hname : Grammar.fieldName.Each Part.NamesField := .asFieldName
  refine .append (.orElse (.append (hembedded _) .ahead) ?_)
    (.opt (.append .onLine (.asOther (by decide))))
  refine .orElse (.append (.append (.append (.append hname .onLine) (.append .token hname))
    (.many (.append .token hname))) (htype _)) ?_
  exact .orElse (.append (.append hname .onLine) (htype _))
    (.orElse (.append .token (htype _)) (hembedded _))

section

variable (hg : g.Shaped)

include hg

theorem plainField : g.plainField.Fits level :=
  .orElse
    (.append
      (.append (.append (.append fieldName .onLine) (.append .token fieldName))
        (.many (.append .token fieldName)))
      (.as (hg.type _)))
    (.orElse (.append (.append fieldName .onLine) (.as (hg.type _)))
      (.orElse (.append .token (.as hg.wordType)) (embeddedType hg.wordType)))

theorem genericField : g.genericField.Fits level := .append (embeddedType hg.genericType) .ahead

theorem fieldDeclaration : g.fieldDeclaration.Fits level :=
  .commonNode rfl (.append (.orElse hg.genericField hg.plainField) (.opt fieldTag))
    fieldDeclaration_names.admitted

theorem structType : g.structType.Fits level :=
  .node rfl (.append .keyword (.node rfl (lines hg.fieldDeclaration)))

theorem methodElem : g.methodElem.Fits level :=
  .node rfl (.append (.append (.as .name) .onLine) hg.signature)

theorem interfaceType : g.interfaceType.Fits level :=
  .node rfl (.append .keyword (lines (.orElse hg.methodElem (hg.typeElem rfl))))

theorem typeRule : (g.typeRule ends).Fits level :=
  .orElse (hg.perhapsApplied namedType) <| .orElse hg.pointerType <| .orElse hg.sliceType <|
  .orElse hg.arrayType <| .orElse hg.mapType <| .orElse hg.channelType <|
  .orElse hg.functionType <| .orElse hg.structType <| .orElse hg.interfaceType <|
  .orElse (hg.perhapsApplied hg.negatedType) hg.parenthesizedType

theorem typeParameters : (g.typeParameters keywords).Fits level := by
  have hdeclaration : ∀ first : List String, Rule.Fits .item
      (Rule.node .typeParameterDeclaration
        ((Rule.name .identifier first).as .name ++
          (Rule.token "," ++ (Rule.name .identifier []).as .name).many ++
          (g.typeElem .typeConstraint false).as .type)) := fun _ =>
    .node rfl (.append (.append (.as .name) (.many (.append .token (.as .name))))
      (.as (hg.typeElem rfl)))
  exact .node rfl (enclosed
    (.append (.append (hdeclaration _) (.many (.append .token (hdeclaration _)))) (.opt .token)))

/-! ## Expressions -/

theorem operation {least : Nat} : (g.operation place least).Fits level :=
  .append .tokenOf (hg.binary _ _)

theorem binaryRule {least : Nat} : (g.binaryRule place least).Fits level := by
  have hplain : (g.binaryRule place least).Fits .plain := by
    refine .extend (hg.unary _) fun left (hleft : PartsFit .plain left) =>
      .append .onLine (.node rfl (.append (.yield hleft.raise) ?_))
    refine .firstOf fun rule hrule => ?_
    obtain ⟨least, -, rfl⟩ := List.mem_map.mp hrule
    exact hg.operation
  exact hplain.raise

end

theorem number : Grammar.number.Fits level := .orElse .scanLeaf (.orElse .scanLeaf .scanLeaf)

theorem basicLiteral : Grammar.basicLiteral.Fits level :=
  .orElse number <| .orElse string <| .orElse .scanLeaf <| .orElse .keywordLeaf <|
  .orElse .keywordLeaf <| .orElse .keywordLeaf .keywordLeaf

theorem behindBraces : (Grammar.behindBraces place).Fits level := by
  unfold Grammar.behindBraces
  cases place.braces with
  | anyName => exact .nothing
  | goingOn => exact .ahead
  | goingOnLine => exact .ahead

section

variable (hg : g.Shaped)

include hg

theorem literalElement : g.literalElement.Fits level := .node rfl (.orElse hg.expr hg.literal)

theorem literalRule : g.literalRule.Fits level := by
  refine .node rfl (enclosed (.append (.opt (.sepBy (.andThen hg.literalElement
    fun first (hfirst : PartsFit .item first) => ?_) .token)) (.opt .token)))
  refine .orElse (.node rfl (.append (.append (.yield ?_) .token) (.as hg.literalElement)))
    (.yield hfirst)
  intro part hpart
  obtain ⟨part, hmem, rfl⟩ := List.mem_map.mp hpart
  exact hfirst part hmem

theorem namedLiteral : (g.namedLiteral place).Fits level :=
  .node rfl
    (.append
      (.append
        (.as
          (.orElse (.orElse (hg.applied qualifiedType) hg.genericType)
            (.orElse qualifiedType (.ite (.append .name .onLine) .never))))
        (.as hg.literal))
      behindBraces)

theorem countedLiteral : g.countedLiteral.Fits level :=
  .node rfl
    (.append
      (.as (.node rfl (.append (.append (.append .token .token) .token) (.as (hg.type _)))))
      (.as hg.literal))

theorem typeOperand : (g.typeOperand place).Fits level := by
  refine .andThen (.append .notAhead (hg.type _)) fun type (htype : PartsFit .plain type) => ?_
  have hoperand : ((Rule.yield type).as .type).Fits .item := .as (.yield htype.raise)
  refine .orElse (.ite (.node rfl (.append (.append hoperand (.as hg.literal))
    (.ite behindBraces .nothing))) .never) ?_
  refine .orElse (.node rfl (.append hoperand (enclosed (.append hg.expr (.opt .token))))) ?_
  refine .orElse (.node rfl (.append hoperand
    (enclosed (.append (.sepBy (hg.type _) .token) (.opt .token))))) ?_
  cases hsplit : splitLastArguments type with
  | none => exact .never
  | some found =>
      obtain ⟨base, arguments⟩ := found
      obtain ⟨hbase, harguments⟩ := htype.splitLast hsplit
      exact .ite (.node rfl (.append (.as (.yield hbase.raise)) (.yield harguments.children)))
        .never

theorem funcLiteral : g.funcLiteral.Fits level :=
  .node rfl (.append (.append .keyword hg.signature) (.as hg.block))

theorem allocation : (g.allocation place).Fits level :=
  .orElse
    (.node rfl
      (.append (.append (.orElse .keywordLeaf .keywordLeaf) .onLine)
        (.node rfl
          (enclosed
            (.append (.append (hg.type _) (.many (.append .token hg.expr))) (.opt .token))))))
    (.append (.orElse .keywordLeaf .keywordLeaf) .notAhead)

theorem operand : (g.operand place).Fits level :=
  .orElse basicLiteral <| .orElse hg.allocation <| .orElse hg.namedLiteral <| .orElse .name <|
  .orElse hg.countedLiteral <| .orElse hg.funcLiteral <|
  .orElse (.node rfl (enclosed hg.expr)) hg.typeOperand

theorem arguments : g.arguments.Fits level :=
  .node rfl
    (enclosed
      (.opt
        (.append
          (.sepBy
            (.andThen hg.expr fun value (hvalue : PartsFit .item value) =>
              .orElse (.node rfl (.append (.yield hvalue) .token)) (.yield hvalue))
            .token)
          (.opt .token))))

theorem subscript {left : List Part} (hleft : PartsFit .item left) :
    (g.subscript left).Fits level :=
  .andThen (.append .token (.opt hg.expr)) fun start (hstart : PartsFit .item start) =>
    .orElse (.ite (.node rfl (.append (.append (.yield hleft) (.yield hstart)) .token)) .never)
      (.node rfl
        (.append
          (.append (.append (.append (.yield hleft) (.yield hstart)) .token)
            (.orElse (.append (.append hg.expr .token) hg.expr) (.opt hg.expr)))
          .token))

theorem suffix {left : List Part} (hleft : PartsFit .item left) :
    (g.suffix place left).Fits level :=
  .append .onLine <|
  .orElse (.node rfl (.append (.append (.yield hleft) .token) .name)) <|
  .orElse (.node rfl (.append (.append (.yield hleft) .token) (enclosed (.as (hg.type _))))) <|
  .orElse (.node rfl (.append (.yield hleft) hg.arguments)) <|
  .orElse (.node rfl (.append (.append (.yield hleft) hg.typeArguments) hg.arguments)) <|
  .orElse (hg.subscript hleft) <|
  .ite
    (.node rfl
      (.append (.yield hleft) (enclosed (.append (.sepBy (hg.type _) .token) (.opt .token)))))
    .never

theorem primary : (g.primary place).Fits level := by
  have hplain : (g.primary place).Fits .plain :=
    .extend hg.operand fun left (hleft : PartsFit .plain left) => hg.suffix hleft.raise
  exact hplain.raise

theorem unaryRule : (g.unaryRule place).Fits level := by
  refine .orElse (.node rfl (.append (.firstOf fun rule hrule => ?_) (hg.unary _))) hg.primary
  obtain ⟨text, -, rfl⟩ := List.mem_map.mp hrule
  exact .token

end

/-! ## Declarations and statements -/

theorem group {ok : Part → Prop} [Lexical ok] (h : rule.Each ok) : (Grammar.group rule).Each ok :=
  enclosed (.many (.append h .terminator))

section

variable (hg : g.Shaped)

include hg

theorem initializer {kind : Kind} (hkind : kind.allowsNode (some .value) .expressionList = true) :
    g.initializer.Fills kind :=
  .append .token (.asNode hkind Rule.isNode_node hg.exprList)

/-- The type of a value specification stands in front of its values. -/
theorem valueType {kind : Kind} (hkind : kind = .constSpec ∨ kind = .varSpec) :
    ((g.type ends).as .type).Each (Part.Before kind) := by
  rcases hkind with rfl | rfl
  · exact .asType (by decide) (fun child hchild => by simp [Kind.allowsNode, hchild]) (hg.type _)
  · exact .asType (by decide) (fun child hchild => by simp [Kind.allowsNode, hchild]) (hg.type _)

theorem constSpec : g.constSpec.Each (Part.Under .constDeclaration) := by
  refine .nodeUnder rfl (.append (.asName (by decide) (.sepBy .name (.append .onLine .token))) ?_)
    (.nameless rfl)
  exact .opt (.append .onLine
    (.orElse (.append (hg.valueType (.inl rfl)) (hg.initializer rfl)) (hg.initializer rfl)))

theorem varSpec {parent : Kind} (hparent : parent.allowsNode none .varSpec = true) :
    g.varSpec.Each (Part.Under parent) := by
  refine .nodeUnder hparent (.append (.sepBy (.asName (by decide) .name) .token) ?_)
    (.nameless rfl)
  exact .orElse (.append (hg.valueType (.inr rfl)) (.opt (.append .onLine (hg.initializer rfl))))
    (hg.initializer rfl)

theorem constDeclaration : g.constDeclaration.Fits .item :=
  .nodeFits rfl (.of_each rfl (.append .keyword (.orElse (group hg.constSpec) hg.constSpec)))
    (.nameless rfl)

theorem varDeclaration : g.varDeclaration.Fits .item :=
  .nodeFits rfl
    (.of_each rfl
      (.append .keyword
        (.orElse (.nodeUnder rfl (.of_each rfl (group (hg.varSpec rfl))) (.nameless rfl))
          (hg.varSpec rfl))))
    (.nameless rfl)

/-- **A declared type has a word as its name**, which stands in front of types only. -/
theorem typeSpec : g.typeSpec.Each (Part.Under .typeDeclaration) := by
  have htype : ∀ {kind : Kind} {role : Role} {rule : Rule}, kind = .typeSpec ∨ kind = .typeAlias →
      role = .type ∨ role = .typeParameters → rule.Fits .plain →
      (rule.as role).Each (Part.Before kind) := by
    intro kind role rule hkind hrole hrule
    have hlast : kind.lastRole? ≠ some role := by
      rcases hkind with rfl | rfl <;> rcases hrole with rfl | rfl <;> decide
    refine hrule.asType hlast fun child hchild => ?_
    rcases hkind with rfl | rfl <;> rcases hrole with rfl | rfl <;>
      simp [Kind.allowsNode, hchild]
  have hname : ((Rule.name .typeIdentifier []).as .name).NamesFirst := .name
  refine .orElse (.nodeUnder rfl (.of_before ?_) (hname.append.append.admitted (.inr rfl)))
    (.nodeUnder rfl (.of_before ?_) (hname.append.admitted (.inl rfl)))
  · exact .append (.append (.asName (by decide) .name) .token)
      (htype (.inr rfl) (.inl rfl) (hg.type _))
  · exact .append (.asName (by decide) .name)
      (.heavier
        (.append (htype (.inl rfl) (.inr rfl) hg.typeParameters)
          (htype (.inl rfl) (.inl rfl) (hg.type _)))
        (.append .notAhead (htype (.inl rfl) (.inl rfl) (hg.type _))))

theorem typeDeclaration : g.typeDeclaration.Fits .item :=
  .nodeFits rfl (.of_each rfl (.append .keyword (.orElse (group hg.typeSpec) hg.typeSpec)))
    (.nameless rfl)

theorem declaration : g.declaration.Fits .item :=
  .orElse hg.constDeclaration (.orElse hg.varDeclaration hg.typeDeclaration)

theorem simpleStatement {last : Place} {ranging : Bool} :
    (g.simpleStatement place last ranging).Fits level := by
  refine .andThen hg.expr fun one (hplain : PartsFit .plain one) => ?_
  have hone : PartsFit .item one := hplain.raise
  have hother : (Rule.token "," ++ g.expr (Place.inside.withSlot .target)).Fits .item :=
    .append .token hg.expr
  refine .orElse (.node rfl (.append (.append (.append (.yield hone) .onLine) .token) hg.expr)) ?_
  refine .orElse (.node rfl (.append (.append (.yield hone) .onLine) .token)) ?_
  refine .orElse (.node rfl (.append (.append (.yield hone) .onLine) .token)) ?_
  refine .orElse (.andThen (.append .onLine (.node rfl (.append (.yield hone) (.many hother))))
    fun left (hleft : PartsFit .item left) => ?_) (.node rfl (.yield hone))
  refine .orElse (.ite (.node rfl (.append (.append (.yield hleft) (.orElse .token .token))
    (.append .keyword hg.expr))) .never) ?_
  exact .orElse (.node rfl (.append (.append (.yield hleft) .token) hg.exprList))
    (.node rfl (.append (.append (.yield hleft) .tokenOf) hg.exprList))

end

/-- The expression of a statement is one of its children. -/
theorem ifExpression {statement : List Part} {next : List Part → Rule}
    (hstatement : PartsFit .plain statement)
    (hnext : ∀ parts, PartsFit .item parts → (next parts).Fits level) :
    (Grammar.ifExpression statement next).Fits level := by
  unfold Grammar.ifExpression
  cases hsole : soleExpression statement with
  | none => exact .never
  | some parts =>
      unfold soleExpression at hsole
      split at hsole
      case h_1 =>
        cases hsole
        exact hnext _ (hstatement _ (.head _)).children
      case h_2 => cases hsole

theorem headed {header : Braces → Rule} {body : List Part → Rule}
    (hheader : ∀ braces, (header braces).Fits .item)
    (hbody : ∀ parts, PartsFit .item parts → (body parts).Fits level) :
    (Grammar.headed header body).Fits level :=
  .orElse (.andThen (hheader _) hbody) (.append .ahead (.andThen (hheader _) hbody))

section

variable (hg : g.Shaped)

include hg

theorem firstStatement {braces : Braces} {ranging : Bool} :
    (g.firstStatement braces ranging).Fits level := hg.simpleStatement

theorem lastStatement {braces : Braces} : (g.lastStatement braces).Fits level := hg.simpleStatement

theorem lastExpression {braces : Braces} : (g.lastExpression braces).Fits level := hg.expr

theorem condition (braces : Braces) : (g.condition braces).Fits .item :=
  .andThen hg.firstStatement fun _ (hfirst : PartsFit .plain _) =>
    .orElse (.append (.append (.yield hfirst.raise) .token) hg.lastExpression)
      (ifExpression hfirst fun _ hparts => .yield hparts)

theorem ifStatement : g.ifStatement.Fits level :=
  .node rfl
    (.append .keyword
      (headed hg.condition fun _ hparts =>
        .append (.append (.yield hparts) hg.block)
          (.opt
            (.append (.append .onLine .keyword)
              (.orElse hg.block (.append .ahead (hg.statement _)))))))

theorem loopHeader (braces : Braces) : (g.loopHeader braces).Fits .item := by
  have hrest : (Rule.token ";" ++ (g.expr .inside).opt ++ Rule.token ";" ++
      (g.lastStatement braces).opt).Fits .item :=
    .append (.append (.append .token (.opt hg.expr)) .token) (.opt hg.lastStatement)
  refine .orElse (.node rfl (.append .keyword hg.lastExpression)) ?_
  refine .orElse (.andThen (.append .notAhead hg.firstStatement)
    fun first (hfirst : PartsFit .plain first) => ?_) (.orElse (.node rfl hrest) .notAhead)
  split
  · exact .yield hfirst.raise
  · exact .orElse (.node rfl (.append (.yield hfirst.raise) hrest))
      (ifExpression hfirst fun _ hparts => .yield hparts)

theorem forStatement : g.forStatement.Fits level :=
  .node rfl
    (.append .keyword
      (headed hg.loopHeader fun _ hparts => .append (.yield hparts) hg.block))

theorem statementList : (g.statementList keywords).Fits level := by
  have hlabel : ∀ excluded : List String,
      (Rule.node .labeledStatement
        (.name .labelName (operandKeywords ++ statementKeywords ++ excluded) ++ .onLine true ++
          .token ":" ++ .ahead (endsList keywords))).Fits .item := fun _ =>
    .node rfl (.append (.append (.append .name .onLine) .token) .ahead)
  exact .node rfl
    (.orElse
      (.append
        (.append (hg.statement _) (.many (.append .terminator (hg.statement _))))
        (.opt (.append .terminator (.opt (hlabel _)))))
      (hlabel _))

theorem caseBody : g.caseBody.Fits level := .append .token (.opt hg.statementList)

theorem defaultCase : g.defaultCase.Fits level := .node rfl (.append .keyword hg.caseBody)

theorem cases {one : Rule} (h : one.Fits level) : (g.cases one).Fits level :=
  enclosed (.many (.orElse h hg.defaultCase))

theorem expressionCase : g.expressionCase.Fits level :=
  .node rfl (.append (.append .keyword hg.exprList) hg.caseBody)

theorem typeCase : g.typeCase.Fits level :=
  .node rfl (.append (.append .keyword (.sepBy (hg.type _) .token)) hg.caseBody)

theorem switchValue {braces : Braces} : (g.switchValue braces).Fits .item :=
  .andThen hg.expr fun _ (hone : PartsFit .item _) =>
    .orElse
      (.satisfying
        (.node rfl
          (.append
            (.append (.node rfl (.append (.yield hone) (.many (.append .token hg.expr)))) .token)
            hg.exprList)))
      (.yield hone)

theorem switchHeader (braces : Braces) : (g.switchHeader braces).Fits .item :=
  .orElse
    (.andThen hg.firstStatement fun _ (hfirst : PartsFit .plain _) =>
      .orElse (.append (.append (.yield hfirst.raise) .token) (.opt hg.switchValue))
        (.ite (.yield hfirst.raise) (ifExpression hfirst fun _ hparts => .yield hparts)))
    .nothing

theorem switchStatement : g.switchStatement.Fits level :=
  .andThen .keyword fun _ (hstart : PartsFit .item _) =>
    headed hg.switchHeader fun _ hparts =>
      .ite (.node rfl (.append (.yield (hstart.append hparts)) (hg.cases hg.typeCase)))
        (.node rfl (.append (.yield (hstart.append hparts)) (hg.cases hg.expressionCase)))

theorem communicationCase : g.communicationCase.Fits level :=
  .node rfl
    (.append
      (.append .keyword
        (.orElse (.node rfl (.append (.append hg.expr .token) hg.expr))
          (.orElse (.node rfl (.append (.append hg.exprList (.orElse .token .token)) hg.expr))
            (.node rfl hg.expr))))
      hg.caseBody)

theorem selectStatement : g.selectStatement.Fits level :=
  .node rfl (.append .keyword (hg.cases hg.communicationCase))

theorem blockRule : g.blockRule.Fits level := .node rfl (enclosed (.opt hg.statementList))

theorem statementRule : (g.statementRule keywords).Fits .item := by
  have hjump : ∀ {kind : Kind} {text : String}, kind.isNameless = true →
      (Rule.node kind (.keyword text ++
        (.onLine true ++ .name .labelName caseKeywords : Rule).opt)).Fits .item := fun hkind =>
    .node hkind (.append .keyword (.opt (.append .onLine .name)))
  exact
    .orElse hg.declaration <| .orElse hg.block <| .orElse hg.ifStatement <|
    .orElse hg.forStatement <| .orElse hg.switchStatement <| .orElse hg.selectStatement <|
    .orElse (.node rfl
      (.append .keyword (.opt (.append (.append .onLine .notAhead) hg.exprList)))) <|
    .orElse (.node rfl (.append .keyword hg.expr)) <|
    .orElse (.node rfl (.append .keyword hg.expr)) <|
    .orElse (.node rfl .keyword) <| .orElse (hjump rfl) <| .orElse (hjump rfl) <|
    .orElse (.node rfl (.append .keyword .name)) <| .orElse (.node rfl .token) <|
    .orElse (.node rfl (.append (.append .name (.append .onLine .token)) (hg.statement _))) <|
    .append (.append .notAhead hg.simpleStatement) .notAhead

/-! ## Source files -/

section

variable {kind : Kind} (hkind : kind.isFunction = true)

include hkind

/-- The parameters and the results of a function stand in front of its body. -/
theorem head : (g.signature ends).Each (Part.Before kind) :=
  .append (.asHead hkind nofun hg.parameterList)
    (.orElse
      (.append .onLine
        (.orElse (.append .notAhead (.asHead hkind nofun (hg.type _)))
          (.asHead hkind nofun hg.parameterList)))
      .ahead)

theorem functionRest : g.functionRest.Fills kind := by
  have hbody : kind.allowsNode (some .body) .block = true := by
    rcases Kind.isFunction_iff.mp hkind with rfl | rfl <;> rfl
  exact .append (hg.head hkind) (.opt (.append .onLine (.asNode hbody hg.isBlock hg.block)))

end

theorem functionDeclaration : g.functionDeclaration.Fits .item :=
  .nodeFits rfl
    (.append
      (.append (.append .keyword (.asName (by decide) .name))
        (.opt (.asHead rfl nofun hg.typeParameters)))
      (hg.functionRest rfl))
    (.nameless rfl)

theorem methodHead : g.methodHead.Each (Part.Before .methodDeclaration) :=
  .append (.append .keyword (.asHead rfl nofun hg.parameterList)) (.asName (by decide) .name)

theorem methodDeclaration : g.methodDeclaration.Fits .item :=
  .nodeFits rfl (.append hg.methodHead (hg.functionRest rfl)) (.nameless rfl)

end

/-- **The name of a package is a word**, which stands behind the keyword. -/
theorem packageClause : Grammar.packageClause.Fits level := by
  refine .commonNode rfl (.append .keyword .name) fun s parts rest hread =>
    ⟨nofun, nofun, fun _ => ?_⟩
  obtain ⟨a, middle, b, ha, hb, rfl⟩ := Rule.read_append hread
  obtain ⟨gap, keyword, rfl⟩ := Rule.read_keyword ha
  obtain ⟨before, text, rfl, hword⟩ := Rule.read_name hb
  exact ⟨gap, keyword, before, text, rfl, hword⟩

theorem importSpec : Grammar.importSpec.Fits level :=
  .node rfl (.append (.opt (.as (.orElse .scanLeaf (.orElse .keywordLeaf .name)))) (.as string))

theorem importDeclaration : Grammar.importDeclaration.Fits level :=
  .node rfl
    (.append .keyword
      (.orElse
        (.node rfl (enclosed (.opt (.append (.sepBy importSpec .terminator) (.opt .terminator)))))
        importSpec))

section

variable (hg : g.Shaped)

include hg

theorem topDeclaration : g.topDeclaration.Fits .item :=
  .orElse packageClause <| .orElse importDeclaration <|
  .orElse hg.functionDeclaration hg.methodDeclaration

theorem sourceFile : g.sourceFile.Fits level :=
  .node rfl
    (.append
      (.append
        (.many
          (.append (.orElse hg.topDeclaration (.append .notAhead (hg.statement _))) .terminator))
        (.opt hg.topDeclaration))
      .endOfText)

end

end Grammar.Shaped

/-- Every grammar reads shaped trees only, however deep its rules may refer to each other. -/
theorem grammar_shaped (depth : Nat) : (grammar depth).Shaped := by
  induction depth with
  | zero =>
      exact ⟨fun _ => .never, fun _ _ => .never, fun _ => .never, .never, .never, nofun,
        fun _ => .never⟩
  | succ depth ih =>
      exact ⟨fun _ => ih.typeRule, fun _ _ => ih.binaryRule, fun _ => ih.unaryRule,
        ih.literalRule, ih.blockRule, Rule.isNode_node, fun _ => ih.statementRule⟩

/-- The syntax tree of a source text is the only child that the rule for files reads. -/
theorem readTree_eq_some {source : String} {t : Tree} (h : readTree source = some t) :
    ∃ depth s role rest, (grammar depth).sourceFile.read s = some ([⟨role, t⟩], rest) := by
  unfold readTree at h
  generalize withoutMark source.toList = s at h
  dsimp only at h
  split at h
  case h_1 role t' rest hread =>
    cases h
    exact ⟨_, s, role, rest, hread⟩
  case h_2 => cases h

/-- **The syntax tree of a source text is shaped.** -/
theorem readTree_shaped {source : String} {t : Tree} (h : readTree source = some t) :
    t.Shaped := by
  obtain ⟨depth, s, role, rest, hread⟩ := readTree_eq_some h
  have hfits : (grammar depth).sourceFile.Fits .plain := (grammar_shaped depth).sourceFile
  exact (hfits _ _ _ hread _ (.head _)).1

theorem readTree_isNode {source : String} {t : Tree} (h : readTree source = some t) :
    ∃ parts, t = .node .sourceFile parts := by
  obtain ⟨depth, s, role, rest, hread⟩ := readTree_eq_some h
  have hnode : (grammar depth).sourceFile.IsNode .sourceFile := Rule.isNode_node
  obtain ⟨parts, heq⟩ := hnode _ _ _ hread
  cases heq
  exact ⟨parts, rfl⟩

end FluentBuilder.Go
