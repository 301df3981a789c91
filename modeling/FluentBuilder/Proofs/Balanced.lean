import FluentBuilder.Proofs.Brackets

/-!
# Balanced rules — the grammar reads brackets in pairs

Rule by rule, in the order of the grammar: if the rules that a rule refers to are balanced, so is
the rule. Each proof follows the rule that it is about, combinator by combinator. The brackets of
an index are opened by one rule and closed by the next one; all others stand around one rule.

* **`Balanced.typeRule`**, **`Balanced.operand`**, **`Balanced.statementRule`** — types, expressions
  and statements.
* **`grammar_balanced`** — the grammar at every depth.
-/

namespace FluentBuilder.Go

/-- A grammar whose rules are balanced. -/
structure Grammar.Balanced (g : Grammar) : Prop where
  type      : ∀ ends, (g.type ends).Balanced
  binary    : ∀ place least, (g.binary place least).Balanced
  unary     : ∀ place, (g.unary place).Balanced
  literal   : g.literal.Balanced
  block     : g.block.Balanced
  statement : ∀ keywords, (g.statement keywords).Balanced

namespace Grammar.Balanced

variable {g : Grammar} {rule : Rule} {ends : Bool} {place : Place} {keywords : List String}

theorem string : Grammar.string.Balanced :=
  .orElse (.scanLeaf .rawString) (.scanLeaf .interpretedString)

theorem qualifiedType : (Grammar.qualifiedType keywords ends).Balanced :=
  .node (.append (.append (.append (.as .name) .onLine) (.token rfl)) (.as .name))

theorem namedType : (Grammar.namedType keywords ends).Balanced := .orElse qualifiedType .name

theorem comma : (Rule.token ",").Balanced := .token rfl

section

variable (hg : g.Balanced)

include hg

theorem expr : (g.expr place).Balanced := hg.binary place 1

theorem exprList : (g.exprList place).Balanced := .node (.sepBy hg.expr (.append .onLine comma))

/-! ## Types -/

theorem typeElem {kind : Kind} : (g.typeElem kind ends).Balanced :=
  .node (.append (hg.type _) (.many (.append (.append .onLine (.token rfl)) (hg.type _))))

/-- Types with commas between them, perhaps with one at the end. -/
theorem types : ((g.type false).sepBy (.token ",") ++ (Rule.token ",").opt).Balanced :=
  .append (.sepBy (hg.type _) comma) (.opt comma)

theorem typeList :
    ((g.typeElem .typeElem false).sepBy (.token ",") ++ (Rule.token ",").opt).Balanced :=
  .append (.sepBy hg.typeElem comma) (.opt comma)

theorem typeArguments : g.typeArguments.Balanced := .node (.brackets hg.typeList)

theorem applied (h : rule.Balanced) : (g.applied rule ends).Balanced :=
  .node (.append (.append (.as h) .onLine) (.as hg.typeArguments))

theorem perhapsApplied (h : rule.Balanced) : (g.perhapsApplied rule ends).Balanced :=
  .andThen h fun _ => .orElse (hg.applied .yield) .yield

theorem negatedType : (g.negatedType ends).Balanced := .node (.append (.token rfl) (hg.type _))

theorem genericNegation : g.genericNegation.Balanced := by
  refine .andThen hg.negatedType fun parts => .orElse (hg.applied .yield) ?_
  split
  · exact .node (.append (.as .yield) .yield)
  · exact .never

theorem genericType : (g.genericType keywords ends).Balanced :=
  .orElse (hg.applied namedType) hg.genericNegation

theorem wordType : (g.wordType keywords ends).Balanced := .orElse hg.genericType namedType

theorem pointerType : (g.pointerType ends).Balanced := .node (.append (.token rfl) (hg.type _))

theorem parenthesizedType : g.parenthesizedType.Balanced := .node (.enclosed (hg.type _) rfl rfl)

theorem sliceType : (g.sliceType ends).Balanced :=
  .node (.append (.append .openBracket .closeBracket) (.as (hg.type _)))

theorem arrayType : (g.arrayType ends).Balanced :=
  .node (.append (.brackets (.as hg.expr)) (.as (hg.type _)))

theorem mapType : (g.mapType ends).Balanced :=
  .node (.append (.append .keyword (.brackets (.as (hg.type _)))) (.as (hg.type _)))

theorem receiveType : (g.receiveType ends).Balanced :=
  .node (.append (.append (.token rfl) .keyword) (.as (hg.type _)))

theorem channelType : (g.channelType ends).Balanced :=
  .orElse hg.receiveType
    (.node (.append .keyword
      (.orElse (.as hg.receiveType)
        (.orElse (.append (.token rfl) (.as (hg.type _))) (.as (hg.type _))))))

theorem parameterDeclaration : g.parameterDeclaration.Balanced :=
  .orElse
    (.append
      (.node
        (.append (.append (.as .name) (.many (.append comma (.as .name)))) (.as (hg.type _))))
      .ahead)
    (.node (.as (hg.type _)))

theorem variadicParameter : g.variadicParameter.Balanced :=
  .node (.append (.append (.opt (.as .name)) (.token rfl)) (.as (hg.type _)))

theorem parameterList : g.parameterList.Balanced :=
  .node
    (.enclosed
      (.append (.opt (.sepBy (.orElse hg.variadicParameter hg.parameterDeclaration) comma))
        (.opt comma))
      rfl rfl)

theorem result : (g.result ends).Balanced :=
  .orElse
    (.append .onLine
      (.orElse (.append .notAhead (.as (hg.type _))) (.as hg.parameterList)))
    .ahead

theorem signature : (g.signature ends).Balanced := .append (.as hg.parameterList) hg.result

theorem functionType : (g.functionType ends).Balanced := .node (.append .keyword hg.signature)

end

theorem lines {item : Rule} (h : item.Balanced) : (Grammar.lines item).Balanced :=
  .enclosed (.opt (.append (.sepBy h .terminator) (.opt .terminator))) rfl rfl

theorem fieldTag : Grammar.fieldTag.Balanced := .append .onLine (.as string)

theorem fieldName : Grammar.fieldName.Balanced := .as .name

theorem embeddedType (h : rule.Balanced) : (Grammar.embeddedType rule).Balanced :=
  .append .notAhead (.as h)

section

variable (hg : g.Balanced)

include hg

theorem plainField : g.plainField.Balanced :=
  .orElse
    (.append
      (.append (.append (.append fieldName .onLine) (.append comma fieldName))
        (.many (.append comma fieldName)))
      (.as (hg.type _)))
    (.orElse (.append (.append fieldName .onLine) (.as (hg.type _)))
      (.orElse (.append (.token rfl) (.as hg.wordType)) (embeddedType hg.wordType)))

theorem genericField : g.genericField.Balanced := .append (embeddedType hg.genericType) .ahead

theorem fieldDeclaration : g.fieldDeclaration.Balanced :=
  .node (.append (.orElse hg.genericField hg.plainField) (.opt fieldTag))

theorem structType : g.structType.Balanced :=
  .node (.append .keyword (.node (lines hg.fieldDeclaration)))

theorem methodElem : g.methodElem.Balanced :=
  .node (.append (.append (.as .name) .onLine) hg.signature)

theorem interfaceType : g.interfaceType.Balanced :=
  .node (.append .keyword (lines (.orElse hg.methodElem hg.typeElem)))

theorem typeRule : (g.typeRule ends).Balanced :=
  .orElse (hg.perhapsApplied namedType) <| .orElse hg.pointerType <| .orElse hg.sliceType <|
  .orElse hg.arrayType <| .orElse hg.mapType <| .orElse hg.channelType <|
  .orElse hg.functionType <| .orElse hg.structType <| .orElse hg.interfaceType <|
  .orElse (hg.perhapsApplied hg.negatedType) hg.parenthesizedType

theorem typeParameters : (g.typeParameters keywords).Balanced := by
  have hdeclaration : ∀ first : List String,
      (Rule.node .typeParameterDeclaration
        ((Rule.name .identifier first).as .name ++
          (Rule.token "," ++ (Rule.name .identifier []).as .name).many ++
          (g.typeElem .typeConstraint false).as .type)).Balanced := fun _ =>
    .node (.append (.append (.as .name) (.many (.append comma (.as .name)))) (.as hg.typeElem))
  exact .node (.brackets
    (.append (.append (hdeclaration _) (.many (.append comma (hdeclaration _)))) (.opt comma)))

/-! ## Expressions -/

theorem operation {least : Nat} : (g.operation place least).Balanced := by
  refine .append (.tokenOf ?_) (hg.binary _ _)
  cases place.slot <;> decide

theorem binaryRule {least : Nat} : (g.binaryRule place least).Balanced := by
  refine .extend (hg.unary _) fun left => .append .onLine (.node (.append .yield ?_))
  refine .firstOf fun rule hrule => ?_
  obtain ⟨least, -, rfl⟩ := List.mem_map.mp hrule
  exact hg.operation

end

theorem number : Grammar.number.Balanced := by
  refine .orElse (.scanLeaf (.restrict .imaginaryLiteral fun s found h => ?_))
    (.orElse (.scanLeaf (.restrict .floatLiteral fun s found h => ?_))
      (.scanLeaf (.restrict .intLiteral fun s found h => ?_)))
  all_goals
    dsimp only at h
    split at h
    · split at h <;> cases h
      assumption
    · cases h

theorem basicLiteral : Grammar.basicLiteral.Balanced :=
  .orElse number <| .orElse string <| .orElse (.scanLeaf .runeLiteral) <| .orElse .keywordLeaf <|
  .orElse .keywordLeaf <| .orElse .keywordLeaf .keywordLeaf

theorem behindBraces : (Grammar.behindBraces place).Balanced := by
  unfold Grammar.behindBraces
  cases place.braces with
  | anyName => exact .nothing
  | goingOn => exact .ahead
  | goingOnLine => exact .ahead

section

variable (hg : g.Balanced)

include hg

theorem literalElement : g.literalElement.Balanced := .node (.orElse hg.expr hg.literal)

theorem literalRule : g.literalRule.Balanced :=
  .node (.enclosed (.append (.opt (.sepBy (.andThen hg.literalElement fun _ =>
    .orElse (.node (.append (.append .yield (.token rfl)) (.as hg.literalElement))) .yield) comma))
    (.opt comma)) rfl rfl)

theorem namedLiteral : (g.namedLiteral place).Balanced :=
  .node
    (.append
      (.append
        (.as
          (.orElse (.orElse (hg.applied qualifiedType) hg.genericType)
            (.orElse qualifiedType (.ite (.append .name .onLine) .never))))
        (.as hg.literal))
      behindBraces)

theorem countedLiteral : g.countedLiteral.Balanced :=
  .node
    (.append
      (.as (.node (.append (.append (.append .openBracket (.deeper (.token rfl))) .closeBracket)
        (.as (hg.type _)))))
      (.as hg.literal))

theorem typeOperand : (g.typeOperand place).Balanced := by
  refine .andThen (.append .notAhead (hg.type _)) fun type => ?_
  refine .orElse (.ite (.node (.append (.append (.as .yield) (.as hg.literal))
    (.ite behindBraces .nothing))) .never) ?_
  refine .orElse (.node (.append (.as .yield)
    (.enclosed (.append hg.expr (.opt comma)) rfl rfl))) ?_
  refine .orElse (.node (.append (.as .yield) (.brackets hg.types))) ?_
  split
  · exact .ite (.node (.append (.as .yield) .yield)) .never
  · exact .never

theorem funcLiteral : g.funcLiteral.Balanced :=
  .node (.append (.append .keyword hg.signature) (.as hg.block))

theorem allocation : (g.allocation place).Balanced :=
  .orElse
    (.node
      (.append (.append (.orElse .keywordLeaf .keywordLeaf) .onLine)
        (.node
          (.enclosed (.append (.append (hg.type _) (.many (.append comma hg.expr))) (.opt comma))
            rfl rfl))))
    (.append (.orElse .keywordLeaf .keywordLeaf) .notAhead)

theorem operand : (g.operand place).Balanced :=
  .orElse basicLiteral <| .orElse hg.allocation <| .orElse hg.namedLiteral <| .orElse .name <|
  .orElse hg.countedLiteral <| .orElse hg.funcLiteral <|
  .orElse (.node (.enclosed hg.expr rfl rfl)) hg.typeOperand

theorem arguments : g.arguments.Balanced :=
  .node
    (.enclosed
      (.opt
        (.append
          (.sepBy
            (.andThen hg.expr fun _ => .orElse (.node (.append .yield (.token rfl))) .yield) comma)
          (.opt comma)))
      rfl rfl)

/-- The bracket of an index is closed behind what stands in it. -/
theorem subscript {left : List Part} : (g.subscript left).Balanced :=
  .andThen (.append .openBracket (.deeper (.opt hg.expr))) fun _ =>
    .orElse (.ite (.node (.append (.append .yield .yield) .closeBracket)) .never)
      (.node
        (.append
          (.append (.append (.append .yield .yield) (.deeper (.token rfl)))
            (.deeper (.orElse (.append (.append hg.expr (.token rfl)) hg.expr) (.opt hg.expr))))
          .closeBracket))

theorem suffix {left : List Part} : (g.suffix place left).Balanced :=
  .append .onLine <|
  .orElse (.node (.append (.append .yield (.token rfl)) .name)) <|
  .orElse (.node (.append (.append .yield (.token rfl)) (.enclosed (.as (hg.type _)) rfl rfl))) <|
  .orElse (.node (.append .yield hg.arguments)) <|
  .orElse (.node (.append (.append .yield hg.typeArguments) hg.arguments)) <|
  .orElse hg.subscript <|
  .ite (.node (.append .yield (.brackets hg.types))) .never

theorem primary : (g.primary place).Balanced := .extend hg.operand fun _ => hg.suffix

theorem unaryRule : (g.unaryRule place).Balanced := by
  have hmarks : ∀ text ∈ ["<-", "+", "-", "!", "^", "*", "&"],
      text.toList.all isUnbracketed = true := by
    decide
  refine .orElse (.node (.append (.firstOf fun rule hrule => ?_) (hg.unary _))) hg.primary
  obtain ⟨text, htext, rfl⟩ := List.mem_map.mp hrule
  exact .token (hmarks text htext)

end

/-! ## Declarations and statements -/

theorem group (h : rule.Balanced) : (Grammar.group rule).Balanced :=
  .enclosed (.many (.append h .terminator)) rfl rfl

section

variable (hg : g.Balanced)

include hg

theorem initializer : g.initializer.Balanced := .append (.token rfl) (.as hg.exprList)

theorem constSpec : g.constSpec.Balanced :=
  .node (.append (.as (.sepBy .name (.append .onLine comma)))
    (.opt (.append .onLine
      (.orElse (.append (.as (hg.type _)) hg.initializer) hg.initializer))))

theorem varSpec : g.varSpec.Balanced :=
  .node (.append (.sepBy (.as .name) comma)
    (.orElse (.append (.as (hg.type _)) (.opt (.append .onLine hg.initializer))) hg.initializer))

theorem constDeclaration : g.constDeclaration.Balanced :=
  .node (.append .keyword (.orElse (group hg.constSpec) hg.constSpec))

theorem varDeclaration : g.varDeclaration.Balanced :=
  .node (.append .keyword (.orElse (.node (group hg.varSpec)) hg.varSpec))

theorem typeSpec : g.typeSpec.Balanced :=
  .orElse (.node (.append (.append (.as .name) (.token rfl)) (.as (hg.type _))))
    (.node (.append (.as .name)
      (.heavier (.append (.as hg.typeParameters) (.as (hg.type _)))
        (.append .notAhead (.as (hg.type _))))))

theorem typeDeclaration : g.typeDeclaration.Balanced :=
  .node (.append .keyword (.orElse (group hg.typeSpec) hg.typeSpec))

theorem declaration : g.declaration.Balanced :=
  .orElse hg.constDeclaration (.orElse hg.varDeclaration hg.typeDeclaration)

theorem simpleStatement {last : Place} {ranging : Bool} :
    (g.simpleStatement place last ranging).Balanced := by
  refine .andThen hg.expr fun one => ?_
  refine .orElse (.node (.append (.append (.append .yield .onLine) (.token rfl)) hg.expr)) ?_
  refine .orElse (.node (.append (.append .yield .onLine) (.token rfl))) ?_
  refine .orElse (.node (.append (.append .yield .onLine) (.token rfl))) ?_
  refine .orElse (.andThen (.append .onLine (.node (.append .yield
    (.many (.append comma hg.expr))))) fun left => ?_) (.node .yield)
  refine .orElse (.ite (.node (.append (.append .yield (.orElse (.token rfl) (.token rfl)))
    (.append .keyword hg.expr))) .never) ?_
  exact .orElse (.node (.append (.append .yield (.token rfl)) hg.exprList))
    (.node (.append (.append .yield (.tokenOf (by decide))) hg.exprList))

end

theorem ifExpression {statement : List Part} {next : List Part → Rule}
    (hnext : ∀ parts, (next parts).Balanced) :
    (Grammar.ifExpression statement next).Balanced := by
  unfold Grammar.ifExpression
  split
  · exact hnext _
  · exact .never

theorem headed {header : Braces → Rule} {body : List Part → Rule}
    (hheader : ∀ braces, (header braces).Balanced) (hbody : ∀ parts, (body parts).Balanced) :
    (Grammar.headed header body).Balanced :=
  .orElse (.andThen (hheader _) hbody) (.append .ahead (.andThen (hheader _) hbody))

section

variable (hg : g.Balanced)

include hg

theorem firstStatement {braces : Braces} {ranging : Bool} :
    (g.firstStatement braces ranging).Balanced := hg.simpleStatement

theorem lastStatement {braces : Braces} : (g.lastStatement braces).Balanced := hg.simpleStatement

theorem lastExpression {braces : Braces} : (g.lastExpression braces).Balanced := hg.expr

theorem condition (braces : Braces) : (g.condition braces).Balanced :=
  .andThen hg.firstStatement fun _ =>
    .orElse (.append (.append .yield (.token rfl)) hg.lastExpression) (ifExpression fun _ => .yield)

theorem ifStatement : g.ifStatement.Balanced :=
  .node
    (.append .keyword
      (headed hg.condition fun _ =>
        .append (.append .yield hg.block)
          (.opt
            (.append (.append .onLine .keyword)
              (.orElse hg.block (.append .ahead (hg.statement _)))))))

theorem loopHeader (braces : Braces) : (g.loopHeader braces).Balanced := by
  have hrest : (Rule.token ";" ++ (g.expr .inside).opt ++ Rule.token ";" ++
      (g.lastStatement braces).opt).Balanced :=
    .append (.append (.append (.token rfl) (.opt hg.expr)) (.token rfl)) (.opt hg.lastStatement)
  refine .orElse (.node (.append .keyword hg.lastExpression)) ?_
  refine .orElse (.andThen (.append .notAhead hg.firstStatement) fun first => ?_)
    (.orElse (.node hrest) .notAhead)
  split
  · exact .yield
  · exact .orElse (.node (.append .yield hrest)) (ifExpression fun _ => .yield)

theorem forStatement : g.forStatement.Balanced :=
  .node (.append .keyword (headed hg.loopHeader fun _ => .append .yield hg.block))

theorem statementList : (g.statementList keywords).Balanced := by
  have hlabel : ∀ excluded : List String,
      (Rule.node .labeledStatement
        (.name .labelName (operandKeywords ++ statementKeywords ++ excluded) ++ .onLine true ++
          .token ":" ++ .ahead (endsList keywords))).Balanced := fun _ =>
    .node (.append (.append (.append .name .onLine) (.token rfl)) .ahead)
  exact .node
    (.orElse
      (.append
        (.append (hg.statement _) (.many (.append .terminator (hg.statement _))))
        (.opt (.append .terminator (.opt (hlabel _)))))
      (hlabel _))

theorem caseBody : g.caseBody.Balanced := .append (.token rfl) (.opt hg.statementList)

theorem defaultCase : g.defaultCase.Balanced := .node (.append .keyword hg.caseBody)

theorem cases {one : Rule} (h : one.Balanced) : (g.cases one).Balanced :=
  .enclosed (.many (.orElse h hg.defaultCase)) rfl rfl

theorem expressionCase : g.expressionCase.Balanced :=
  .node (.append (.append .keyword hg.exprList) hg.caseBody)

theorem typeCase : g.typeCase.Balanced :=
  .node (.append (.append .keyword (.sepBy (hg.type _) comma)) hg.caseBody)

theorem switchValue {braces : Braces} : (g.switchValue braces).Balanced :=
  .andThen hg.expr fun _ =>
    .orElse
      (.satisfying
        (.node
          (.append
            (.append (.node (.append .yield (.many (.append comma hg.expr)))) (.token rfl))
            hg.exprList)))
      .yield

theorem switchHeader (braces : Braces) : (g.switchHeader braces).Balanced :=
  .orElse
    (.andThen hg.firstStatement fun _ =>
      .orElse (.append (.append .yield (.token rfl)) (.opt hg.switchValue))
        (.ite .yield (ifExpression fun _ => .yield)))
    .nothing

theorem switchStatement : g.switchStatement.Balanced :=
  .andThen .keyword fun _ =>
    headed hg.switchHeader fun _ =>
      .ite (.node (.append .yield (hg.cases hg.typeCase)))
        (.node (.append .yield (hg.cases hg.expressionCase)))

theorem communicationCase : g.communicationCase.Balanced :=
  .node
    (.append
      (.append .keyword
        (.orElse (.node (.append (.append hg.expr (.token rfl)) hg.expr))
          (.orElse
            (.node (.append (.append hg.exprList (.orElse (.token rfl) (.token rfl))) hg.expr))
            (.node hg.expr))))
      hg.caseBody)

theorem selectStatement : g.selectStatement.Balanced :=
  .node (.append .keyword (hg.cases hg.communicationCase))

theorem blockRule : g.blockRule.Balanced := .node (.enclosed (.opt hg.statementList) rfl rfl)

theorem statementRule : (g.statementRule keywords).Balanced := by
  have hjump : ∀ (kind : Kind) (text : String),
      (Rule.node kind (.keyword text ++
        (.onLine true ++ .name .labelName caseKeywords : Rule).opt)).Balanced := fun _ _ =>
    .node (.append .keyword (.opt (.append .onLine .name)))
  exact
    .orElse hg.declaration <| .orElse hg.block <| .orElse hg.ifStatement <|
    .orElse hg.forStatement <| .orElse hg.switchStatement <| .orElse hg.selectStatement <|
    .orElse (.node (.append .keyword (.opt (.append (.append .onLine .notAhead) hg.exprList)))) <|
    .orElse (.node (.append .keyword hg.expr)) <|
    .orElse (.node (.append .keyword hg.expr)) <|
    .orElse (.node .keyword) <| .orElse (hjump _ _) <| .orElse (hjump _ _) <|
    .orElse (.node (.append .keyword .name)) <| .orElse (.node (.token rfl)) <|
    .orElse (.node (.append (.append .name (.append .onLine (.token rfl))) (hg.statement _))) <|
    .append (.append .notAhead hg.simpleStatement) .notAhead

end

end Grammar.Balanced

/-- **The grammar reads brackets in pairs**, however deep its rules may refer to each other. -/
theorem grammar_balanced (depth : Nat) : (grammar depth).Balanced := by
  induction depth with
  | zero =>
      exact ⟨fun _ => .never, fun _ _ => .never, fun _ => .never, .never, .never, fun _ => .never⟩
  | succ depth ih =>
      exact ⟨fun _ => ih.typeRule, fun _ _ => ih.binaryRule, fun _ => ih.unaryRule,
        ih.literalRule, ih.blockRule, fun _ => ih.statementRule⟩

end FluentBuilder.Go
